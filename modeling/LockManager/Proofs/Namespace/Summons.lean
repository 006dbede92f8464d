import LockManager.Proofs.Diary
import LockManager.Proofs.Namespace.Departing
import LockManager.Proofs.Namespace.Relays
import LockManager.Proofs.Stage

set_option autoImplicit false

/-!
What a stage means for the diary of a lock: whatever happens to the lock is noted, and its record recalls
it.
-/

namespace LockManager

namespace Lock

variable {x x' y : Lock} {timeout now : Nat}

/-- If the record recalled what matters of a diary it does so still, with what there is to note now. No
request to give way is overlooked. -/
structure Noted (timeout now : Nat) (x x' : Lock) : Prop where
  kept : ∀ deeds, Kept timeout now deeds x.summons x.state.leaving →
    Kept timeout now (deeds ++ x.deeds now x') x'.summons x'.state.leaving
  complete : x.pending <+: x'.pending ∨ requests x'.pending <:+ requests x.pending

/-! ### Nothing to note -/

/-- Nothing has happened to the lock, but that messages may have gone. -/
structure Hushed (x x' : Lock) : Prop where
  held : x'.grantedMode = x.grantedMode
  leaving : x'.state.leaving = x.state.leaving
  summons : x'.summons = x.summons
  pending : ∃ n, x'.pending = x.pending.drop n

namespace Hushed

theorem refl (x : Lock) : Hushed x x := ⟨rfl, rfl, rfl, 0, rfl⟩

theorem trans {x'' : Lock} (first : Hushed x x') (second : Hushed x' x'') : Hushed x x'' := by
  obtain ⟨n, gone⟩ := first.pending
  obtain ⟨m, gone'⟩ := second.pending
  refine ⟨second.held.trans first.held, second.leaving.trans first.leaving,
    second.summons.trans first.summons, n + m, ?_⟩
  rw [gone', gone, List.drop_drop]

/-- All messages have been dropped. -/
theorem of_nil (held : x'.grantedMode = x.grantedMode)
    (leaving : x'.state.leaving = x.state.leaving) (summons : x'.summons = x.summons)
    (none : x'.pending = []) : Hushed x x' :=
  ⟨held, leaving, summons, x.pending.length, by rw [none, List.drop_length]⟩

theorem deeds_eq (hushed : Hushed x x') : x.deeds now x' = [] := by
  obtain ⟨n, gone⟩ := hushed.pending
  have none : x'.pending.drop x.pending.length = [] := by
    rw [gone, List.drop_drop]
    exact List.drop_eq_nil_of_le (Nat.le_add_left ..)
  unfold deeds
  rw [none, hushed.held, hushed.leaving, if_neg fun both => both.2 rfl, if_neg]
  · rfl
  · rintro ⟨stays, leaves⟩
    rw [stays] at leaves
    cases leaves

theorem noted (hushed : Hushed x x') : Noted timeout now x x' := by
  refine ⟨fun deeds kept => ?_, ?_⟩
  · rw [hushed.deeds_eq, List.append_nil, hushed.summons, hushed.leaving]
    exact kept
  · obtain ⟨n, gone⟩ := hushed.pending
    rw [gone]
    exact .inr ((List.drop_suffix n _).filter _)

end Hushed

/-- A cancel begins. -/
theorem noted_mark (edge : x.state.allows .canceling = true) :
    Noted timeout now x (x.enter .canceling) := by
  refine ⟨fun deeds kept => ?_, .inl List.prefix_rfl⟩
  have stays : x.state.leaving = false := LockState.allows_canceling_iff.mp edge
  have noted : x.deeds now (x.enter .canceling) = [.canceled] := by
    unfold Lock.deeds enter
    rw [if_neg fun both => both.2 rfl, List.drop_length, if_pos ⟨stays, rfl⟩]
    rfl
  rw [stays] at kept
  rw [noted]
  exact kept.cancel

/-- A cancel ends. -/
theorem noted_leave (leaving : x.state.leaving = true) (leaving' : x'.state.leaving = true)
    (held : x'.grantedMode = none) (quiet : requests x'.pending = [])
    (summons : x'.summons = { x.summons with sentAt := none }) : Noted timeout now x x' := by
  refine ⟨fun deeds kept => ?_, .inr (quiet ▸ List.nil_suffix)⟩
  have nothing : x.deeds now x' = [] := by
    have fewer : requests (x'.pending.drop x.pending.length) = [] :=
      List.sublist_nil.mp (quiet ▸ (List.drop_sublist ..).filter _)
    unfold Lock.deeds
    simp [held, fewer, leaving]
  rw [leaving] at kept
  rw [nothing, List.append_nil, summons, leaving']
  exact ⟨kept.orderly, kept.recalls.forget⟩

/-! ### Decisions -/

/-- The lock has not been granted anything yet, nor asked to give way, though its state may be another. -/
structure Poised (x y : Lock) : Prop where
  held : y.grantedMode = x.grantedMode
  leaving : y.state.leaving = x.state.leaving
  summons : y.summons = x.summons
  pending : y.pending = x.pending
  suppressed : y.suppressed = x.suppressed

theorem Poised.refl (x : Lock) : Poised x x := ⟨rfl, rfl, rfl, rfl, rfl⟩

/-- A lock holds no mode that it is yet to be granted. -/
def Lacks (x : Lock) : Prop :=
  x.state.allows .granted = true → x.grantedMode ≠ some x.requestedMode

theorem leaving_of_renews (state : x'.state = x.state ∨ x.state = .enqueued ∧ x'.state = .waiting) :
    x'.state.leaving = x.state.leaving := by
  rcases state with same | ⟨enqueued, waits⟩
  · rw [same]
  · rw [enqueued, waits]
    rfl

/-- If the lock is granted something that is noted, since it is another mode than it held before. -/
theorem Renews.kept (renews : y.Renews x') (lacks : y.Lacks)
    (holds : x'.state = .granted → x'.grantedMode = some x'.requestedMode) {deeds : List Deed}
    (kept : Kept timeout now deeds y.summons y.state.leaving) :
    Kept timeout now
        (deeds ++ if x'.grantedMode ≠ none ∧ x'.grantedMode ≠ y.grantedMode then [.granted] else [])
        x'.summons x'.state.leaving ∧
      ¬(y.state.leaving = false ∧ x'.state.leaving = true) := by
  cases renews with
  | still state wanted held summons =>
    rw [held, if_neg fun both => both.2 rfl, List.append_nil, summons, leaving_of_renews state]
    refine ⟨kept, ?_⟩
    rintro ⟨stays, leaves⟩
    rw [stays] at leaves
    cases leaves
  | granted edge state wanted held summons =>
    have other : x'.grantedMode ≠ y.grantedMode := by
      rw [holds state, wanted]
      exact (lacks edge).symm
    have some : x'.grantedMode ≠ none := by
      rw [held]
      exact Option.some_ne_none _
    rw [if_pos ⟨some, other⟩, summons, state]
    exact ⟨kept.granted, nofun⟩

/-- If the lock is asked to give way that is noted, too. -/
theorem Prompts.kept {asks : List Notification} (prompts : Prompts now x x' asks)
    (leaving : x'.state.leaving = x.state.leaving) {deeds : List Deed}
    (kept : Kept timeout now deeds x.summons x.state.leaving) :
    Kept timeout now (deeds ++ asks.map fun _ => .asked now) x'.summons x'.state.leaving := by
  cases prompts with
  | spared summons =>
    rw [List.map_nil, List.append_nil, summons, leaving]
    exact kept
  | asked fresh n summons =>
    simp only [Asked, Muted, not_or, Bool.not_eq_true] at fresh
    obtain ⟨unsent, -, stays⟩ := fresh
    rw [stays] at kept
    rw [List.map_singleton, summons, leaving, stays]
    exact kept.ask unsent

/-- Whatever a decision means for the lock is noted. -/
theorem Undergoes.noted (undergone : y.Undergoes now x') (poised : x.Poised y) (lacks : y.Lacks)
    (holds : x'.state = .granted → x'.grantedMode = some x'.requestedMode) :
    Noted timeout now x x' := by
  obtain ⟨z, ⟨renews, more, sent, none⟩, standing, more', sent', prompts⟩ := undergone
  have pending : x'.pending = x.pending ++ (more ++ more') :=
    poised.pending ▸ (sent.trans sent').pending
  refine ⟨fun deeds kept => ?_, .inl ⟨_, pending.symm⟩⟩
  have news : requests (x'.pending.drop x.pending.length) = requests more' := by
    rw [pending, List.drop_left, requests_append, none, List.nil_append]
  have state : x'.state = z.state := congrArg Standing.state standing
  have wanted : x'.requestedMode = z.requestedMode := congrArg Standing.wanted standing
  have held : x'.grantedMode = z.grantedMode := congrArg Standing.held standing
  have leaving : x'.state.leaving = z.state.leaving := congrArg LockState.leaving state
  rw [← poised.summons, ← poised.leaving] at kept
  rw [state, held, wanted] at holds
  obtain ⟨granted, stays⟩ := renews.kept lacks holds kept
  have asked := prompts.kept leaving granted
  unfold Lock.deeds
  rw [news, ← poised.held, ← poised.leaving, held, state, if_neg stays, List.append_nil,
    ← List.append_assoc, ← state]
  exact asked

/-- It does not matter what else has become of the lock, nor whether messages are dropped if there is no
new request to give way among them. -/
theorem Noted.congr {x'' : Lock} (noted : Noted timeout now x x')
    (held : x''.grantedMode = x'.grantedMode) (leaving : x''.state.leaving = x'.state.leaving)
    (summons : x''.summons = x'.summons)
    (pending : x''.pending = x'.pending ∨
      x''.pending = [] ∧ requests (x'.pending.drop x.pending.length) = []) :
    Noted timeout now x x'' := by
  have news : requests (x''.pending.drop x.pending.length) =
      requests (x'.pending.drop x.pending.length) := by
    rcases pending with same | ⟨gone, quiet⟩
    · rw [same]
    · rw [gone, quiet, List.drop_nil]
      rfl
  refine ⟨fun deeds kept => ?_, ?_⟩
  · have same : x.deeds now x'' = x.deeds now x' := by
      unfold Lock.deeds
      rw [held, leaving, news]
    rw [same, summons, leaving]
    exact noted.kept deeds kept
  · rcases pending with same | ⟨gone, -⟩
    · rw [same]
      exact noted.complete
    · rw [gone]
      exact .inr List.nil_suffix

/-- Whoever is muted is not asked to give way. -/
theorem Undergoes.of_muted (undergone : y.Undergoes now x') (muted : y.Muted) :
    y.Renews x' ∧ requests (x'.pending.drop y.pending.length) = [] := by
  obtain ⟨z, ⟨renews, more, sent, none⟩, standing, more', sent', prompts⟩ := undergone
  have mute : z.Muted := by
    refine muted.imp (fun suppressed => sent.suppressed.trans suppressed) fun leaving => ?_
    cases renews with
    | still state _ _ _ => exact (leaving_of_renews state).trans leaving
    | granted edge _ _ _ _ =>
      rw [LockState.stays_of_allows edge rfl] at leaving
      cases leaving
  rw [(sent.trans sent').pending, List.drop_left, requests_append, none, List.nil_append]
  generalize requests more' = asks at prompts ⊢
  cases prompts with
  | spared summons =>
    have state : x'.state = z.state := congrArg Standing.state standing
    have wanted : x'.requestedMode = z.requestedMode := congrArg Standing.wanted standing
    have held : x'.grantedMode = z.grantedMode := congrArg Standing.held standing
    exact ⟨renews.trans (.still (.inl state) wanted held summons), rfl⟩
  | asked fresh _ _ => exact absurd (.inr mute) fresh

/-- Nothing happens to a lock on its way out when the resource is looked at again. -/
theorem Undergoes.of_leaving (undergone : y.Undergoes now x') (leaving : y.state.leaving = true) :
    x'.state.leaving = true ∧ x'.grantedMode = y.grantedMode ∧ x'.summons = y.summons ∧
      requests (x'.pending.drop y.pending.length) = [] := by
  obtain ⟨renews, quiet⟩ := undergone.of_muted (.inr leaving)
  cases renews with
  | still state _ held summons =>
    exact ⟨(leaving_of_renews state).trans leaving, held, summons, quiet⟩
  | granted edge _ _ _ _ =>
    rw [LockState.stays_of_allows edge rfl] at leaving
    cases leaving

end Lock

namespace Namespace

variable {ns ns' ns'' : Namespace} {timeout : Nat} {k l : LockId} {r : ResourceId}

/-- A lock that waits or is converting does not hold the mode that it wants. -/
theorem Sound.lacks (sound : ns.Sound) (k : LockId) : (ns.lock k).Lacks := by
  intro edge
  have known : k < ns.locks.size := by
    by_contra beyond
    rw [lock_beyond beyond] at edge
    cases edge
  have seat : (ns.lock k).Seated _ := sound.ledger.coherent.seated k known
  unfold Lock.Seated at seat
  generalize (ns.lock k).state = state at edge seat
  generalize (ns.lock k).grantedMode = held at seat ⊢
  generalize Queues.of _ k = own at seat
  cases seat with
  | converting up =>
    exact fun same => Mode.ne_of_raises up (Option.some.inj same)
  | enqueued | waiting => exact Option.some_ne_none _ ∘ Eq.symm
  | _ => cases edge

theorem Sound.holds (sound : ns.Sound) (granted : (ns.lock k).state = .granted) :
    (ns.lock k).grantedMode = some (ns.lock k).requestedMode := by
  have known : k < ns.locks.size := by
    by_contra beyond
    rw [lock_beyond beyond] at granted
    cases granted
  have seat : (ns.lock k).Seated _ := sound.ledger.coherent.seated k known
  unfold Lock.Seated at seat
  rw [granted] at seat
  exact seat.of_state_granted.1

theorem pending_conclude (ns : Namespace) (r : ResourceId) (a : Arbiter) (k : LockId) :
    ((ns.conclude r a).lock k).pending = (a.lock k).pending ∨
      ((ns.conclude r a).lock k).pending = [] :=
  ((drops_dispatch { ns with
    locks := a.locks
    resources := ns.resources.modify r ({ · with queues := a.queues }) } a.touched).pending k).imp id
      And.left

theorem clock_dispatch (ns : Namespace) (touched : List LockId) :
    (ns.dispatch touched).clock = ns.clock := by
  refine List.foldlRecOn (motive := fun ns' : Namespace => ns'.clock = ns.clock) touched schedule rfl
    fun ns' same l _ => Eq.trans ?_ same
  unfold schedule
  dsimp only
  split
  · rfl
  · split <;> rfl

theorem clock_conclude (ns : Namespace) (r : ResourceId) (a : Arbiter) :
    (ns.conclude r a).clock = ns.clock :=
  clock_dispatch _ a.touched

theorem clock_retire (ns : Namespace) (l : LockId) : (ns.retire l).clock = ns.clock := by
  show (ns.dropReplay (ns.lock l).claim).clock = ns.clock
  unfold dropReplay
  split
  · split <;> rfl
  · rfl

/-- Taking over what was decided on a resource. A closed dispatcher drops messages, but no requests to
give way are among them. -/
theorem noted_conclude {a : Arbiter} {y : Lock}
    (holds : ((ns.conclude r a).lock k).state = .granted →
      ((ns.conclude r a).lock k).grantedMode = some ((ns.conclude r a).lock k).requestedMode)
    (hush : ns.dispatcher.closed = true → (ns.lock k).Muted) (poised : (ns.lock k).Poised y)
    (lacks : y.Lacks) (undergone : y.Undergoes ns.clock (a.lock k)) :
    (ns.lock k).Noted timeout ns.clock ((ns.conclude r a).lock k) := by
  have dropped := ns.pending_conclude r a k
  obtain ⟨scheduled, pending, same, kept⟩ := ns.lock_conclude r a k
  rw [same] at holds dropped ⊢
  have noted : (ns.lock k).Noted timeout ns.clock (a.lock k) := undergone.noted poised lacks holds
  refine noted.congr rfl rfl rfl (dropped.imp_right fun gone => ⟨gone, ?_⟩)
  cases closed : ns.dispatcher.closed with
  | false =>
    rw [← kept closed, show pending = [] from gone, List.drop_nil]
    rfl
  | true =>
    have muted : y.Muted := (hush closed).imp poised.suppressed.trans poised.leaving.trans
    rw [← poised.pending]
    exact (undergone.of_muted muted).2

/-! ### Nothing but messages -/

/-- Nothing has happened to any lock, but that messages may have gone, and no time has passed. -/
structure Hushes (ns ns' : Namespace) : Prop where
  clock : ns'.clock = ns.clock
  lock : ∀ k, (ns.lock k).Hushed (ns'.lock k)

namespace Hushes

theorem refl (ns : Namespace) : Hushes ns ns := ⟨rfl, fun _ => .refl _⟩

theorem trans (first : Hushes ns ns') (second : Hushes ns' ns'') : Hushes ns ns'' :=
  ⟨second.clock.trans first.clock, fun k => (first.lock k).trans (second.lock k)⟩

theorem of_locks (locks : ns'.locks = ns.locks) (clock : ns'.clock = ns.clock) : Hushes ns ns' := by
  refine ⟨clock, fun k => ?_⟩
  rw [Namespace.lock, Namespace.lock, locks]
  exact .refl _

theorem of_roster (same : ns'.roster = ns.roster) : Hushes ns ns' :=
  ⟨(congrArg Namespace.clock same :), fun k => lock_of_roster same k ▸ .refl _⟩

theorem modifyLock (ns : Namespace) (l : LockId) {f : Lock → Lock}
    (each : (ns.lock l).Hushed (f (ns.lock l))) : Hushes ns (ns.modifyLock l f) := by
  refine ⟨rfl, fun k => ?_⟩
  rw [lock_modifyLock]
  split
  · next here => exact here.1 ▸ each
  · exact .refl _

theorem foldl {β : Type} {f : Namespace → β → Namespace} (each : ∀ ns x, Hushes ns (f ns x))
    (xs : List β) (ns : Namespace) : Hushes ns (xs.foldl f ns) := by
  induction xs generalizing ns with
  | nil => exact .refl ns
  | cons x xs ih => exact (each ns x).trans (ih _)

end Hushes

theorem hushes_silence (ns : Namespace) (ls : List LockId) : Hushes ns (ns.silence ls) :=
  Hushes.foldl (fun ns l => .modifyLock ns l (.of_nil rfl rfl rfl rfl)) ls ns

theorem hushes_drain (ns : Namespace) (l : LockId) : Hushes ns (ns.drain l) := by
  rcases ns.drain_cases l with ⟨n, rest, before, -, after⟩ | ⟨-, after⟩ <;> rw [after]
  · have taken : (ns.lock l).Hushed { ns.lock l with pending := rest } :=
      ⟨rfl, rfl, rfl, 1, by rw [before]; rfl⟩
    exact (Hushes.modifyLock ns l (f := ({ · with pending := rest })) taken).trans (.of_locks rfl rfl)
  · exact (Hushes.modifyLock ns l (f := ({ · with pending := [], scheduled := false }))
      (.of_nil rfl rfl rfl rfl)).trans (.of_locks rfl rfl)

theorem hushes_takeUp (taken : ns.takeUp? = some ns') : Hushes ns ns' := by
  obtain ⟨-, l, rest, -, rfl⟩ := takeUp?_eq taken
  have begun : Hushes ns (ns.modifyDispatcher ({ · with queue := rest })) := .of_locks rfl rfl
  exact begun.trans (hushes_drain _ l)

theorem hushes_finish (ns : Namespace) (d : Delivery) : Hushes ns (ns.finish d) := by
  have done : Hushes ns (ns.modifyDispatcher fun x =>
      { x with deliveries := x.deliveries.erase d }) := .of_locks rfl rfl
  exact done.trans (hushes_drain _ d.lock)

theorem hushes_closeDispatcher (ns : Namespace) : Hushes ns ns.closeDispatcher := by
  have abandoned (ns : Namespace) (l : LockId) : Hushes ns (ns.abandon l) :=
    (Hushes.modifyLock ns l (f := ({ · with pending := [], scheduled := false }))
      (.of_nil rfl rfl rfl rfl)).trans (.of_locks rfl rfl)
  exact (Hushes.foldl abandoned ns.dispatcher.queue ns).trans (.of_locks rfl rfl)

theorem hushes_move (ns : Namespace) (l : LockId) (target : ResourceId) :
    Hushes ns (ns.move l target).2.2 := by
  unfold move
  dsimp only
  split
  · exact .modifyLock ns l ⟨rfl, rfl, rfl, 0, rfl⟩
  · exact .refl ns

theorem hushes_addLock (ns : Namespace) (req : LockRequest) : Hushes ns (ns.addLock req).2 := by
  refine ⟨(congrArg Namespace.clock (ns.roster_findOrCreate req.key) :), fun k => ?_⟩
  rw [lock_addLock]
  split
  · next last =>
    rw [last, lock_beyond (Nat.lt_irrefl _)]
    exact .of_nil rfl rfl rfl rfl
  · exact .refl _

/-! ### Decisions of a stage -/

theorem Sound.noted_submit (sound : ns.Sound) (sound' : ns'.Sound) (known : l < ns.locks.size)
    (hush : ns.dispatcher.closed = true → (ns.lock k).Muted) {reply : Reply}
    (done : ns.submit l r = .ok (reply, ns')) :
    (ns.lock k).Noted timeout ns.clock (ns'.lock k) := by
  rcases submit_ok done with rfl | ⟨new, rfl⟩
  · exact (Lock.Hushed.refl _).noted
  · have named : (ns.lock l).claim.id = l := sound.ledger.coherent.named l known
    have entered := (ns.arbiter r).lock_modifyLock l fun _ => (ns.lock l).enter .enqueued
    have now : ((ns.arbiter r).modifyLock l fun _ => (ns.lock l).enter .enqueued).now = ns.clock :=
      rfl
    generalize (ns.arbiter r).modifyLock l _ = a at entered now sound' ⊢
    have enqueued : (a.lock (ns.lock l).claim.id).state = .enqueued := by
      rw [named, entered, if_pos ⟨rfl, known⟩]
      rfl
    have undergone := a.undergoes_receive enqueued (ns.lock l).requestedMode k
    rw [now] at undergone
    have poised : (ns.lock k).Poised (a.lock k) ∧ (a.lock k).Lacks := by
      rw [entered]
      split
      · next here =>
        obtain ⟨rfl, -⟩ := here
        have seat : (ns.lock l).Seated _ := sound.ledger.coherent.seated l known
        unfold Lock.Seated at seat
        rw [new] at seat
        refine ⟨⟨rfl, by rw [new]; rfl, rfl, rfl, rfl⟩, fun _ => ?_⟩
        show (ns.lock l).grantedMode ≠ _
        rw [seat.of_new.1]
        exact (Option.some_ne_none _).symm
      · exact ⟨.refl _, sound.lacks k⟩
    exact noted_conclude sound'.holds hush poised.1 poised.2 undergone

theorem Sound.noted_changeMode (sound : ns.Sound) (sound' : ns'.Sound) (known : l < ns.locks.size)
    (hush : ns.dispatcher.closed = true → (ns.lock k).Muted) {mode : Mode} {status : ConvertStatus}
    (done : ns.changeMode l mode r = .ok (status, ns')) :
    (ns.lock k).Noted timeout ns.clock (ns'.lock k) := by
  by_cases held : (ns.lock l).grantedMode = some mode
  · rw [changeMode_of_held held done]
    exact (Lock.Hushed.refl _).noted
  rcases changeMode_ok done with rfl | ⟨granted, decided⟩
  · exact (Lock.Hushed.refl _).noted
  · have asking := (ns.arbiter r).lock_modifyLock l fun _ => (ns.lock l).ask mode
    have now : (ns.asking l mode r).now = ns.clock := rfl
    have poised : (ns.lock k).Poised ((ns.asking l mode r).lock k) ∧
        ((ns.asking l mode r).lock k).Lacks := by
      rw [show (ns.asking l mode r).lock k = _ from asking k]
      split
      · next here =>
        obtain ⟨rfl, -⟩ := here
        exact ⟨⟨rfl, by rw [granted]; rfl, rfl, rfl, rfl⟩, fun _ => held⟩
      · exact ⟨.refl _, sound.lacks k⟩
    generalize ns.asking l mode r = a at poised now decided
    rcases decided with ⟨-, rfl⟩ | ⟨-, b, converted, rfl⟩
    · exact noted_conclude sound'.holds hush poised.1 poised.2
        (Arbiter.undergoes_askHolders (a := a.modifyQueues _) (.refl _) now _ mode)
    · have renews := (Arbiter.renews_allots false).convert converted
      have undergone := b.undergoes_reprocess k
      rw [renews.now, now] at undergone
      exact noted_conclude sound'.holds hush poised.1 poised.2 ((renews.lock k).undergone undergone)

theorem noted_mark (marked : ns.mark? l = some ns') :
    (ns.lock k).Noted timeout ns.clock (ns'.lock k) := by
  obtain ⟨edge, rfl⟩ := mark?_eq marked
  rw [lock_modifyLock]
  split
  · next here =>
    obtain ⟨rfl, -⟩ := here
    exact Lock.noted_mark edge
  · exact (Lock.Hushed.refl _).noted

theorem noted_retire {x : Lock} {now : Nat} (noted : x.Noted timeout now (ns.lock k)) :
    x.Noted timeout now ((ns.retire l).lock k) := by
  rw [lock_retire]
  split
  · exact noted.congr rfl rfl rfl (.inl rfl)
  · exact noted

theorem lock_departing_self (known : l < ns.locks.size) (canceling : (ns.lock l).state = .canceling) :
    (ns.departing l r).lock l = { (ns.lock l).enter .canceled with
      grantedMode := none, blockingSentAt := none, pending := [] } := by
  have departs : (ns.departing l r).lock l = _ :=
    Arbiter.lock_modifyLock ((ns.arbiter r).modifyQueues (·.remove l)) l _ l
  have edge : (ns.lock l).state.allows .canceled = true := by
    rw [canceling]
    rfl
  have leaves : ((ns.lock l).advance? .canceled).getD (ns.lock l) = (ns.lock l).enter .canceled := by
    rw [Lock.advance?_of_allows edge]
    rfl
  rw [departs, if_pos ⟨rfl, known⟩, ← leaves]
  rfl

theorem lock_departing_of_ne (other : l ≠ k) : (ns.departing l r).lock k = ns.lock k :=
  (Arbiter.lock_modifyLock ((ns.arbiter r).modifyQueues (·.remove l)) l _ k).trans
    (if_neg fun both => other both.1)

theorem noted_leave_self (known : l < ns.locks.size)
    (canceling : (ns.lock l).state = .canceling) :
    (ns.lock l).Noted timeout ns.clock ((ns.leave l r).lock l) := by
  have undergone := (ns.departing l r).undergoes_reprocess l
  rw [lock_departing_self known canceling] at undergone
  rw [leave_eq]
  generalize (ns.departing l r).reprocess = a at undergone ⊢
  obtain ⟨leaving, held, summons, quiet⟩ := undergone.of_leaving rfl
  have silent : requests ((ns.conclude r a).lock l).pending = [] := by
    rcases ns.pending_conclude r a l with same | none
    · rw [same]
      exact quiet
    · rw [none]
      rfl
  obtain ⟨scheduled, pending, same, -⟩ := ns.lock_conclude r a l
  refine noted_retire (Lock.noted_leave ?_ ?_ ?_ silent ?_)
  · rw [canceling]
    rfl
  · rw [same]
    exact leaving
  · rw [same]
    exact held
  · rw [same]
    exact summons

/-- When a lock leaves, others may be granted something and be asked to give way. -/
theorem Sound.noted_leave (sound : ns.Sound) (sound' : (ns.leave l r).Sound)
    (known : l < ns.locks.size) (canceling : (ns.lock l).state = .canceling)
    (hush : ns.dispatcher.closed = true → (ns.lock k).Muted) :
    (ns.lock k).Noted timeout ns.clock ((ns.leave l r).lock k) := by
  by_cases self : l = k
  · exact self ▸ noted_leave_self known canceling
  · have undergone := (ns.departing l r).undergoes_reprocess k
    rw [lock_departing_of_ne self] at undergone
    have holds := sound'.holds (k := k)
    rw [leave_eq] at holds ⊢
    rw [lock_retire, if_neg fun both => self both.1] at holds
    exact noted_retire (noted_conclude holds hush (.refl _) (sound.lacks k) undergone)

theorem noted_ask (held : r < ns.resources.size) (sound : ns.Sound)
    (hush : ns.dispatcher.closed = true → (ns.lock k).Muted) (requester : Owner) :
    (ns.lock k).Noted timeout ns.clock ((ns.ask r requester).2.lock k) := by
  have sound' := sound.alike (alike_ask held requester)
  have prompts := ((ns.arbiter r).prompts_glimpse requester).lock k
  unfold ask at sound' ⊢
  generalize (ns.arbiter r).glimpse requester = answer at prompts sound' ⊢
  exact noted_conclude sound'.holds hush (.refl _) (sound.lacks k) ⟨_, .refl _, prompts⟩

end Namespace

open Namespace (Hushes)

theorem Opening.hushes {ns ns' : Namespace} {todo : List Stage} (opening : Opening ns todo ns') :
    Hushes ns ns' := by
  cases opening with
  | still _ => exact .refl ns
  | @register req _ _ _ _ _ => exact ns.hushes_addLock req
  | @rebind _ k _ _ => exact .of_roster (ns.roster_findOrCreate k)
  | @glimpse _ _ _ _ => exact .of_locks rfl rfl
  | evict owner => exact ns.hushes_silence _
  | shutdown _ => exact (ns.hushes_silence _).trans (.of_locks rfl rfl)

/-- No time passes while a stage is carried out. -/
theorem Stage.clock {ns : Namespace} {stage : Stage} {r : ResourceId} :
    (stage.carryOut ns r).space.clock = ns.clock := by
  have releasing {ns' : Namespace} (same : ns'.clock = ns.clock) (q : ResourceId)
      (outcome : Option Outcome) : (Progress.releasing ns' q outcome).space.clock = ns.clock := same
  cases stage with
  | submit l discard =>
    simp only [carryOut]
    split
    · next done =>
      rcases Namespace.submit_ok done with rfl | ⟨-, rfl⟩
      · rfl
      · exact Namespace.clock_conclude ..
    · cases discard with
      | true => exact (ns.hushes_silence [l]).clock
      | false => rfl
  | changeMode l mode =>
    simp only [carryOut]
    split
    · next done =>
      rcases Namespace.changeMode_ok done with rfl | ⟨-, ⟨-, rfl⟩ | ⟨-, a, -, rfl⟩⟩
      · rfl
      · exact Namespace.clock_conclude ..
      · exact Namespace.clock_conclude ..
    · rfl
  | mark l join =>
    simp only [carryOut]
    split
    · next marked =>
      obtain ⟨-, rfl⟩ := Namespace.mark?_eq marked
      rfl
    · rfl
  | leave l =>
    refine releasing ?_ _ _
    rw [Namespace.leave_eq]
    exact (Namespace.clock_retire _ l).trans (Namespace.clock_conclude ..)
  | ask q requester => exact releasing (Namespace.clock_conclude ..) q _
  | reclaim q =>
    show (ns.reclaim q).clock = ns.clock
    unfold Namespace.reclaim
    dsimp only
    split <;> rfl
  | move l target => exact releasing (ns.hushes_move l target).clock _ _
  | close => exact ns.hushes_closeDispatcher.clock
  | look q others seen => cases others <;> rfl
  | _ => rfl

theorem Stage.Ready.noted {ns : Namespace} {stage : Stage} {r : ResourceId} {timeout : Nat}
    {k : LockId} (ready : stage.Ready ns r) (sound : ns.Sound)
    (hush : ns.dispatcher.closed = true → (ns.lock k).Muted) :
    (ns.lock k).Noted timeout ns.clock ((stage.carryOut ns r).space.lock k) := by
  have releasing {ns' : Namespace} (noted : (ns.lock k).Noted timeout ns.clock (ns'.lock k))
      (q : ResourceId) (outcome : Option Outcome) : (ns.lock k).Noted timeout ns.clock
        ((Progress.releasing ns' q outcome).space.lock k) := noted
  have sound' := (ready.effect sound).sound
  obtain ⟨fits, bound, going⟩ := ready
  cases stage with
  | submit l discard =>
    simp only [carryOut] at sound' ⊢
    split
    · next done =>
      rw [done] at sound'
      exact sound.noted_submit sound' fits hush done
    · cases discard with
      | true => exact ((ns.hushes_silence [l]).lock k).noted
      | false => exact (Lock.Hushed.refl _).noted
  | changeMode l mode =>
    simp only [carryOut] at sound' ⊢
    split
    · next done =>
      rw [done] at sound'
      exact sound.noted_changeMode sound' fits hush done
    · exact (Lock.Hushed.refl _).noted
  | mark l join =>
    simp only [carryOut]
    split
    · next marked => exact Namespace.noted_mark marked
    · exact (Lock.Hushed.refl _).noted
  | leave l =>
    obtain ⟨b, left⟩ := sound.leave fits (bound l _ rfl) (going l rfl)
    exact releasing (sound.noted_leave left.sound fits (going l rfl) hush) _ _
  | ask q requester => exact releasing (Namespace.noted_ask fits sound hush requester) q _
  | reclaim q =>
    have same : (ns.reclaim q).roster = ns.roster := by
      unfold Namespace.reclaim
      dsimp only
      split <;> rfl
    exact ((Hushes.of_roster same).lock k).noted
  | move l target => exact releasing ((ns.hushes_move l target).lock k).noted _ _
  | close => exact (ns.hushes_closeDispatcher.lock k).noted
  | look q others seen => cases others <;> exact (Lock.Hushed.refl _).noted
  | _ => exact (Lock.Hushed.refl _).noted

end LockManager
