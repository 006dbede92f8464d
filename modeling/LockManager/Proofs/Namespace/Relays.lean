import LockManager.Proofs.Namespace.Delivery
import LockManager.Proofs.Namespace.Sound
import LockManager.Task

set_option autoImplicit false

/-!
What operations do to messages. They put messages at the end of those a lock has, they drop those of
locks that are suppressed or leaving, and all of them if the dispatcher is closed; and they tell the
dispatcher of every lock that was sent some.
-/

namespace LockManager
namespace Mail

/-- Messages of the lock may be dropped. -/
def Mute (m : Mail) (l : LockId) : Prop := (m.outbox l).Muted ∨ m.dispatcher.closed = true

/-- Messages have been put at the end of those there were, or there were some that may be dropped,
and they have been. Nothing has been handed over. -/
structure Feeds (m m' : Mail) : Prop where
  deliveries : m'.dispatcher.deliveries = m.dispatcher.deliveries
  mute : ∀ l, m.Mute l → m'.Mute l
  pending : ∀ l, (∃ more, (m'.outbox l).pending = (m.outbox l).pending ++ more) ∨
    (m'.outbox l).pending = [] ∧ m'.Mute l

variable {m m' m'' : Mail}

/-- Messages that may be dropped have been, and no others have changed. -/
structure Drops (m m' : Mail) : Prop where
  deliveries : m'.dispatcher.deliveries = m.dispatcher.deliveries
  mute : ∀ l, m.Mute l → m'.Mute l
  pending : ∀ l, (m'.outbox l).pending = (m.outbox l).pending ∨
    (m'.outbox l).pending = [] ∧ m'.Mute l

theorem Drops.refl (m : Mail) : Drops m m := ⟨rfl, fun _ => id, fun _ => .inl rfl⟩

theorem Drops.trans (first : Drops m m') (second : Drops m' m'') : Drops m m'' := by
  refine ⟨second.deliveries.trans first.deliveries, fun l => second.mute l ∘ first.mute l,
    fun l => ?_⟩
  rcases second.pending l with same | gone
  · rw [same]
    exact (first.pending l).imp_right fun gone => ⟨gone.1, second.mute l gone.2⟩
  · exact .inr gone

theorem Feeds.drop (first : Feeds m m') (second : Drops m' m'') : Feeds m m'' := by
  refine ⟨second.deliveries.trans first.deliveries, fun l => second.mute l ∘ first.mute l,
    fun l => ?_⟩
  rcases second.pending l with same | gone
  · rw [same]
    exact (first.pending l).imp_right fun gone => ⟨gone.1, second.mute l gone.2⟩
  · exact .inr gone

/-- What an operation does to messages, between two points at which it may be suspended. -/
structure Relays (m m' : Mail) : Prop where
  feeds : Feeds m m'
  delivering : m.Delivering [] [] → m'.Delivering [] []

theorem Relays.refl (m : Mail) : Relays m m := by
  refine ⟨⟨rfl, fun _ => id, fun _ => .inl ⟨[], (List.append_nil _).symm⟩⟩, id⟩

end Mail

namespace Namespace

variable {ns ns' : Namespace} {touched : List LockId} {l : LockId}

/-! ### Telling the dispatcher -/

theorem drops_schedule (ns : Namespace) (l : LockId) : Mail.Drops ns.mail (ns.schedule l).mail := by
  unfold schedule
  dsimp only
  split
  · exact .refl _
  · next work =>
    simp only [Bool.or_eq_true, not_or, Bool.not_eq_true] at work
    have known : l < ns.locks.size := known_of_pending (List.isEmpty_eq_false_iff.mp work.2)
    split
    · next closed =>
      have mute : ∀ k, (ns.modifyLock l ({ · with pending := [] })).mail.Mute k :=
        fun _ => .inr closed
      refine ⟨rfl, fun k _ => mute k, fun k => ?_⟩
      by_cases here : k = l
      · rw [here]
        exact .inr ⟨congrArg Outbox.pending (outbox_self known ({ · with pending := [] })), mute l⟩
      · exact .inl (congrArg Outbox.pending (outbox_other _ here))
    · have same (k : LockId) :
          ((ns.modifyLock l ({ · with scheduled := true })).lock k).pending = (ns.lock k).pending ∧
            ((ns.lock k).Muted →
              ((ns.modifyLock l ({ · with scheduled := true })).lock k).Muted) := by
        rw [lock_modifyLock]
        split <;> exact ⟨rfl, id⟩
      exact ⟨rfl, fun k => Or.imp_left (same k).2, fun k => .inl (same k).1⟩

theorem drops_dispatch (ns : Namespace) (touched : List LockId) :
    Mail.Drops ns.mail (ns.dispatch touched).mail := by
  unfold dispatch
  induction touched generalizing ns with
  | nil => exact .refl _
  | cons l touched ih => exact (ns.drops_schedule l).trans (ih _)

theorem feeds_of_receives (dispatcher : ns'.dispatcher = ns.dispatcher)
    (lock : ∀ l, (ns.lock l).Receives (ns'.lock l)) : Mail.Feeds ns.mail ns'.mail := by
  refine ⟨congrArg Dispatcher.deliveries dispatcher, fun l => ?_, fun l => ?_⟩
  · exact Or.imp (lock l).muted (congrArg Dispatcher.closed dispatcher).trans
  · rcases (lock l).pending with ⟨more, same, -⟩ | ⟨gone, muted⟩
    · exact .inl ⟨more, same⟩
    · exact .inr ⟨gone, .inl muted⟩

theorem delivering_of_receives (d : ns.mail.Delivering [] []) (config : ns'.config = ns.config)
    (dispatcher : ns'.dispatcher = ns.dispatcher) (lock : ∀ l, (ns.lock l).Receives (ns'.lock l))
    (told : ∀ l, (ns'.lock l).pending ≠ [] → (ns.lock l).pending ≠ [] ∨ l ∈ touched) :
    ns'.mail.Delivering [] touched := by
  have same : ns'.mail.dispatcher = ns.mail.dispatcher := dispatcher
  refine ⟨?_, fun l => ?_, ?_, ?_, fun l some => ?_⟩
  · rw [same]
    exact d.once
  · rw [same, ← d.scheduled]
    exact iff_of_eq (congrArg (· = true) (lock l).scheduled)
  · rw [same]
    exact d.outstanding
  · rw [same, show ns'.mail.workers = ns.mail.workers from congrArg Config.workers config]
    exact d.workers
  · refine (told l some).imp_left fun before => ?_
    exact (lock l).scheduled.trans ((d.attended l before).resolve_right List.not_mem_nil)

/-- The operation has nothing to do with the dispatcher, and sends no messages. -/
theorem relays_of_receives (config : ns'.config = ns.config)
    (dispatcher : ns'.dispatcher = ns.dispatcher) (lock : ∀ l, (ns.lock l).Receives (ns'.lock l))
    (told : ∀ l, (ns'.lock l).pending ≠ [] → (ns.lock l).pending ≠ []) :
    Mail.Relays ns.mail ns'.mail :=
  ⟨feeds_of_receives dispatcher lock,
    fun d => delivering_of_receives d config dispatcher lock fun l some => .inl (told l some)⟩

/-- What has been decided is taken over, and the dispatcher is told of all locks that were sent
messages. -/
theorem relays_conclude {r : ResourceId} {a : Arbiter} (posts : (ns.arbiter r).Posts a) :
    Mail.Relays ns.mail (ns.conclude r a).mail := by
  have taken (ns' : Namespace) (locks : ns'.locks = a.locks) (config : ns'.config = ns.config)
      (dispatcher : ns'.dispatcher = ns.dispatcher) :
      Mail.Relays ns.mail (ns'.dispatch a.touched).mail := by
    have lock : ∀ l, ns'.lock l = a.lock l := fun l => congrArg (Arena.get · l) locks
    have receives : ∀ l, (ns.lock l).Receives (ns'.lock l) := fun l => lock l ▸ posts.lock l
    refine ⟨(feeds_of_receives dispatcher receives).drop (drops_dispatch ..), fun d => ?_⟩
    exact delivering_dispatch
      (delivering_of_receives d config dispatcher receives fun l => lock l ▸ posts.told l)
  exact taken _ rfl rfl rfl

/-! ### Operations -/

/-- What is decided on a resource when a lock is brought to it only sends messages. -/
theorem posts_submit {r : ResourceId} {reply : Reply} (done : ns.submit l r = .ok (reply, ns')) :
    ns' = ns ∨ ∃ a, (ns.arbiter r).Posts a ∧ ns' = ns.conclude r a := by
  rcases submit_ok done with same | ⟨new, decided⟩
  · exact .inl same
  · have edge : (ns.lock l).state.allows .enqueued = true := by
      rw [new]
      rfl
    have entered := (ns.arbiter r).posts_modifyLock (l := l)
      (f := fun _ => (ns.lock l).enter .enqueued) (.enter edge rfl) rfl id
    exact .inr ⟨_, entered.trans (Arbiter.posts_receive ..), decided⟩

theorem posts_changeMode {r : ResourceId} {mode : Mode} {status : ConvertStatus}
    (done : ns.changeMode l mode r = .ok (status, ns')) :
    ns' = ns ∨ ∃ a, (ns.arbiter r).Posts a ∧ ns' = ns.conclude r a := by
  rcases changeMode_ok done with same | ⟨granted, decided⟩
  · exact .inl same
  · have edge : (ns.lock l).state.allows .converting = true := by
      rw [granted]
      rfl
    have asks : (ns.arbiter r).Posts (ns.asking l mode r) := by
      apply Arbiter.posts_modifyLock
      · exact (Lock.Receives.enter edge rfl).trans (.nothing rfl rfl id)
      · rfl
      · exact id
    rcases decided with ⟨-, pending⟩ | ⟨-, a, converted, switched⟩
    · have queued := asks.trans
        ((ns.asking l mode r).posts_modifyQueues (·.addConverting ⟨(ns.lock l).claim, mode⟩))
      exact .inr ⟨_, queued.trans ((Arbiter.posts_respects true).askHolders ..), pending⟩
    · have changed := asks.trans ((Arbiter.posts_respects false).convert converted)
      exact .inr ⟨_, changed.trans ((Arbiter.posts_respects true).reprocess a), switched⟩

theorem relays_submit {r : ResourceId} {reply : Reply} (done : ns.submit l r = .ok (reply, ns')) :
    Mail.Relays ns.mail ns'.mail := by
  rcases posts_submit done with rfl | ⟨a, posts, rfl⟩
  · exact .refl _
  · exact relays_conclude posts

theorem relays_changeMode {r : ResourceId} {mode : Mode} {status : ConvertStatus}
    (done : ns.changeMode l mode r = .ok (status, ns')) : Mail.Relays ns.mail ns'.mail := by
  rcases posts_changeMode done with rfl | ⟨a, posts, rfl⟩
  · exact .refl _
  · exact relays_conclude posts

theorem relays_ask (ns : Namespace) (r : ResourceId) (requester : Owner) :
    Mail.Relays ns.mail (ns.ask r requester).2.mail :=
  relays_conclude (Arbiter.posts_glimpse ..)

theorem relays_silence (ns : Namespace) (ls : List LockId) :
    Mail.Relays ns.mail (ns.silence ls).mail := by
  have each : ∀ (ls : List LockId) (ns' : Namespace), (ns'.silence ls).config = ns'.config ∧
      (ns'.silence ls).dispatcher = ns'.dispatcher ∧
      ∀ k, (ns'.lock k).Receives ((ns'.silence ls).lock k) ∧
        (((ns'.silence ls).lock k).pending ≠ [] → (ns'.lock k).pending ≠ []) := by
    intro ls
    induction ls with
    | nil => exact fun _ => ⟨rfl, rfl, fun _ => ⟨.refl _, id⟩⟩
    | cons l ls ih =>
      intro ns'
      obtain ⟨config, dispatcher, lock⟩ := ih (ns'.modifyLock l Lock.suppress)
      refine ⟨config, dispatcher, fun k => ?_⟩
      have suppressed : (ns'.lock k).Receives ((ns'.modifyLock l Lock.suppress).lock k) ∧
          (((ns'.modifyLock l Lock.suppress).lock k).pending ≠ [] → (ns'.lock k).pending ≠ []) := by
        rw [lock_modifyLock]
        split
        · exact ⟨⟨rfl, fun _ => .inl rfl, .inr ⟨rfl, .inl rfl⟩⟩, absurd rfl⟩
        · exact ⟨.refl _, id⟩
      exact ⟨suppressed.1.trans (lock k).1, suppressed.2 ∘ (lock k).2⟩
  obtain ⟨config, dispatcher, lock⟩ := each ls ns
  exact relays_of_receives config dispatcher (fun l => (lock l).1) fun l => (lock l).2

theorem relays_mark (marked : ns.mark? l = some ns') : Mail.Relays ns.mail ns'.mail := by
  obtain ⟨x, entered, rfl⟩ := Option.map_eq_some_iff.mp marked
  obtain ⟨-, rfl⟩ := Lock.eq_enter_of_advance entered
  have lock : ∀ k, (ns.lock k).Receives ((ns.modifyLock l fun _ =>
      (ns.lock l).enter .canceling).lock k) ∧ (((ns.modifyLock l fun _ =>
      (ns.lock l).enter .canceling).lock k).pending ≠ [] → (ns.lock k).pending ≠ []) := by
    intro k
    rw [lock_modifyLock]
    split
    · next here => exact here.1 ▸ ⟨.nothing rfl rfl fun _ => .inr rfl, id⟩
    · exact ⟨.refl _, id⟩
  exact relays_of_receives rfl rfl (fun k => (lock k).1) fun k => (lock k).2

theorem mail_dropReplay (ns : Namespace) (claim : Claim) :
    (ns.dropReplay claim).mail = ns.mail := by
  unfold dropReplay
  split
  · split <;> rfl
  · rfl

theorem posts_leave (canceling : (ns.lock l).state = .canceling) (r : ResourceId) :
    ∃ a, (ns.arbiter r).Posts a ∧ (ns.leave l r).mail = (ns.conclude r a).mail := by
  have edge : (ns.lock l).state.allows .canceled = true := by
    rw [canceling]
    rfl
  unfold Namespace.leave
  dsimp only
  have departs : (ns.arbiter r).Posts (((ns.arbiter r).modifyQueues (·.remove l)).modifyLock l
      fun lock => { (lock.advance? .canceled).getD lock with
        grantedMode := none, blockingSentAt := none, pending := [] }) := by
    have left : ((ns.lock l).advance? .canceled).getD (ns.lock l) = (ns.lock l).enter .canceled := by
      rw [Lock.advance?_of_allows edge]
      rfl
    refine ((ns.arbiter r).posts_modifyQueues (·.remove l)).trans
      (Arbiter.posts_modifyLock _ ?_ ?_ ?_)
    · rw [show ((ns.arbiter r).modifyQueues (·.remove l)).lock l = ns.lock l from rfl, left]
      exact ⟨rfl, fun _ => .inr rfl, .inr ⟨rfl, .inr rfl⟩⟩
    · rw [show ((ns.arbiter r).modifyQueues (·.remove l)).lock l = ns.lock l from rfl, left]
      rfl
    · exact absurd rfl
  generalize Arbiter.modifyLock _ l _ = a at departs ⊢
  refine ⟨a.reprocess, departs.trans ((Arbiter.posts_respects true).reprocess a), ?_⟩
  generalize ns.conclude r a.reprocess = ns'
  rw [← ns'.mail_dropReplay (ns'.lock l).claim]
  generalize ns'.dropReplay (ns'.lock l).claim = ns''
  have retired : (ns''.modifyLock l ({ · with retired := true })).mail = ns''.mail :=
    mail_modifyLock fun _ => rfl
  exact retired

theorem relays_leave (canceling : (ns.lock l).state = .canceling) (r : ResourceId) :
    Mail.Relays ns.mail (ns.leave l r).mail := by
  obtain ⟨a, posts, same⟩ := posts_leave canceling r
  rw [same]
  exact relays_conclude posts

/-- A dispatcher that is closed when it has nothing to do drops nothing. -/
theorem relays_closeDispatcher (d : ns.mail.Delivering [] []) (idle : ns.idle = true) :
    Mail.Relays ns.mail ns.closeDispatcher.mail := by
  obtain ⟨queue, -, -⟩ := d.idle (of_decide_eq_true idle)
  have closed : ns.closeDispatcher =
      ns.modifyDispatcher ({ · with queue := [], closed := true }) := by
    unfold closeDispatcher
    rw [show ns.dispatcher.queue = [] from queue]
    rfl
  rw [closed]
  refine ⟨⟨rfl, fun _ => Or.imp_right fun _ => rfl, fun _ => .inl ⟨[], (List.append_nil _).symm⟩⟩,
    fun d => d.pass ?_ rfl d.workers (fun _ => rfl) fun _ => id⟩
  simp only [Dispatcher.engaged, queue]
  exact .refl _

/-! ### What does not concern messages -/

theorem mail_checkTimeouts (ns : Namespace) : ns.checkTimeouts.2.mail = ns.mail := by
  refine ns.checkTimeouts_induction (P := fun ns' => ns'.mail = ns.mail) rfl fun ns' l same => ?_
  rw [← same]
  exact mail_modifyLock fun _ => rfl

theorem mail_findOrCreate (ns : Namespace) (key : Key) :
    (ns.findOrCreate key).2.mail = ns.mail := by
  unfold findOrCreate
  split <;> rfl

/-- A new lock has no messages, like one that does not exist. -/
theorem mail_addLock (ns : Namespace) (req : LockRequest) : (ns.addLock req).2.mail = ns.mail := by
  have before := ns.mail_findOrCreate req.key
  unfold addLock
  dsimp only
  generalize ns.findOrCreate req.key = found at before ⊢
  obtain ⟨r, ns'⟩ := found
  rw [← before]
  simp only [mail, Mail.mk.injEq, true_and]
  funext k
  unfold Namespace.lock
  rw [Arena.get_alloc]
  split
  · next last =>
    have beyond : ns'.lock k = default := lock_beyond fun below => Nat.lt_irrefl _ (last ▸ below)
    exact (congrArg Lock.outbox beyond).symm
  · rfl

theorem mail_reclaim (ns : Namespace) (r : ResourceId) : (ns.reclaim r).mail = ns.mail := by
  unfold reclaim
  dsimp only
  split <;> rfl

theorem mail_move (ns : Namespace) (l : LockId) (target : ResourceId) :
    (ns.move l target).2.2.mail = ns.mail := by
  unfold Namespace.move
  dsimp only
  split
  · exact mail_modifyLock fun _ => rfl
  · rfl

end Namespace

/-! ### Stages -/

namespace Stage

variable {ns : Namespace} {r : ResourceId}

/-- Carrying out a stage hands nothing over and leaves the dispatcher's books in order. Whoever
closes the dispatcher has waited until it is idle. -/
theorem relays {stage : Stage} (d : ns.mail.Delivering [] [])
    (going : ∀ l, stage = .leave l → (ns.lock l).state = .canceling)
    (idle : stage = .close → ns.idle = true) :
    Mail.Relays ns.mail (stage.carryOut ns r).space.mail := by
  have of_same {ns' : Namespace} (same : ns'.mail = ns.mail) : Mail.Relays ns.mail ns'.mail :=
    same ▸ .refl _
  have releasing {ns' : Namespace} (relays : Mail.Relays ns.mail ns'.mail) (q : ResourceId)
      (outcome : Option Outcome) :
      Mail.Relays ns.mail (Progress.releasing ns' q outcome).space.mail := relays
  cases stage with
  | submit l discard =>
    simp only [carryOut]
    split
    · next done => exact Namespace.relays_submit done
    · cases discard with
      | true => exact ns.relays_silence [l]
      | false => exact .refl _
  | changeMode l mode =>
    simp only [carryOut]
    split
    · next done => exact Namespace.relays_changeMode done
    · exact .refl _
  | mark l join =>
    simp only [carryOut]
    split
    · next marked => exact Namespace.relays_mark marked
    · exact .refl _
  | leave l => exact releasing (Namespace.relays_leave (going l rfl) r) r none
  | ask q requester => exact releasing (ns.relays_ask q requester) q _
  | reclaim q => exact of_same (ns.mail_reclaim q)
  | move l target => exact releasing (of_same (ns.mail_move l target)) _ _
  | close => exact Namespace.relays_closeDispatcher d (idle rfl)
  | look q others seen => cases others <;> exact .refl _
  | _ => exact .refl _

end Stage
end LockManager
