import LockManager.Proofs.HandOver
import LockManager.Proofs.Namespace.Conclude

set_option autoImplicit false

/-!
Locks that are muted, being suppressed or on their way out. They stay so, nothing is sent to them, and
nothing is handed over for them: what they had been sent stays where it is until it is dropped.
-/

namespace LockManager

namespace Mail

/-- Muted locks have stayed so and been sent nothing. What they had may have been dropped. -/
def Ignores (m m' : Mail) : Prop := ∀ l, (m.outbox l).Muted →
  (m'.outbox l).Muted ∧
    ((m'.outbox l).pending = (m.outbox l).pending ∨ (m'.outbox l).pending = [])

theorem Ignores.refl (m : Mail) : Ignores m m := fun _ muted => ⟨muted, .inl rfl⟩

theorem Ignores.trans {m m' m'' : Mail} (first : Ignores m m') (second : Ignores m' m'') :
    Ignores m m'' := by
  intro l muted
  obtain ⟨muted', before⟩ := first l muted
  obtain ⟨muted'', after⟩ := second l muted'
  refine ⟨muted'', ?_⟩
  rcases after with same | gone
  · rw [same]
    exact before
  · exact .inr gone

end Mail

theorem Lock.Receives.ignored {x x' : Lock} (receives : x.Receives x') (muted : x.Muted) :
    x'.Muted ∧ (x'.pending = x.pending ∨ x'.pending = []) := by
  refine ⟨receives.muted muted, ?_⟩
  rcases receives.pending with ⟨more, same, heard⟩ | ⟨gone, -⟩
  · have none : more = [] := Classical.byContradiction fun some => heard some muted
    rw [same, none, List.append_nil]
    exact .inl rfl
  · exact .inr gone

namespace Namespace

variable {ns ns' : Namespace} {l : LockId}

theorem ignores_modifyLock (ns : Namespace) (l : LockId) {f : Lock → Lock}
    (each : ∀ x : Lock, x.Muted →
      (f x).Muted ∧ ((f x).pending = x.pending ∨ (f x).pending = [])) :
    Mail.Ignores ns.mail (ns.modifyLock l f).mail := by
  intro k (muted : (ns.lock k).Muted)
  show ((ns.modifyLock l f).lock k).Muted ∧ (((ns.modifyLock l f).lock k).pending = _ ∨
    ((ns.modifyLock l f).lock k).pending = [])
  rw [lock_modifyLock]
  split
  · exact each _ muted
  · exact ⟨muted, .inl rfl⟩

theorem ignores_silence (ns : Namespace) (ls : List LockId) :
    Mail.Ignores ns.mail (ns.silence ls).mail := by
  induction ls generalizing ns with
  | nil => exact .refl _
  | cons l ls ih =>
    exact (ns.ignores_modifyLock l fun _ _ => ⟨.inl rfl, .inr rfl⟩).trans (ih _)

/-- Whoever is silenced is muted. -/
theorem muted_silence {ls : List LockId} (inside : l ∈ ls) (known : l < ns.locks.size) :
    ((ns.silence ls).lock l).Muted := by
  induction ls generalizing ns with
  | nil => cases inside
  | cons k ls ih =>
    rcases List.mem_cons.mp inside with rfl | later
    · have first : ((ns.modifyLock l Lock.suppress).lock l).Muted := by
        rw [lock_modifyLock, if_pos ⟨rfl, known⟩]
        exact .inl rfl
      exact ((ns.modifyLock l Lock.suppress).ignores_silence ls l first).1
    · exact ih later (known.trans_eq (Arena.size_modify ..).symm)

theorem ignores_mark (marked : ns.mark? l = some ns') : Mail.Ignores ns.mail ns'.mail := by
  obtain ⟨x, entered, rfl⟩ := Option.map_eq_some_iff.mp marked
  obtain ⟨-, rfl⟩ := Lock.eq_enter_of_advance entered
  intro k (muted : (ns.lock k).Muted)
  show ((ns.modifyLock l fun _ => (ns.lock l).enter .canceling).lock k).Muted ∧
    (((ns.modifyLock l fun _ => (ns.lock l).enter .canceling).lock k).pending = _ ∨
      ((ns.modifyLock l fun _ => (ns.lock l).enter .canceling).lock k).pending = [])
  rw [lock_modifyLock]
  split
  · next here => exact here.1 ▸ ⟨.inr rfl, .inl rfl⟩
  · exact ⟨muted, .inl rfl⟩

theorem ignores_conclude {r : ResourceId} {a : Arbiter} (posts : (ns.arbiter r).Posts a) :
    Mail.Ignores ns.mail (ns.conclude r a).mail := by
  intro k muted
  obtain ⟨muted', pending⟩ := (posts.lock k).ignored muted
  obtain ⟨scheduled, kept, same, -⟩ := ns.lock_conclude r a k
  constructor
  · show ((ns.conclude r a).lock k).Muted
    rw [same]
    exact muted'
  · rcases (drops_dispatch { ns with
        locks := a.locks
        resources := ns.resources.modify r ({ · with queues := a.queues }) } a.touched).pending k
      with still | ⟨gone, -⟩
    · exact pending.imp still.trans still.trans
    · exact .inr gone

theorem ignores_drain (ns : Namespace) (l : LockId) :
    Mail.Ignores ns.mail (ns.drain l).mail := by
  rcases ns.drain_cases l with ⟨n, rest, -, heard, after⟩ | ⟨-, after⟩ <;> rw [after]
  · intro k muted
    have other : k ≠ l := fun same => heard (same ▸ muted)
    have same : (ns.modifyLock l ({ · with pending := rest })).mail.outbox k = ns.mail.outbox k :=
      outbox_other _ other
    exact ⟨same.symm ▸ muted, .inl (congrArg Outbox.pending same)⟩
  · exact ns.ignores_modifyLock l fun _ muted => ⟨muted, .inr rfl⟩

theorem ignores_closeDispatcher (ns : Namespace) :
    Mail.Ignores ns.mail ns.closeDispatcher.mail := by
  have each (ls : List LockId) : Mail.Ignores ns.mail (ls.foldl abandon ns).mail := by
    induction ls generalizing ns with
    | nil => exact .refl _
    | cons l ls ih =>
      have abandoned : Mail.Ignores ns.mail (ns.abandon l).mail :=
        ns.ignores_modifyLock l (f := ({ · with pending := [], scheduled := false }))
          fun _ muted => ⟨muted, .inr rfl⟩
      exact abandoned.trans (ih _)
  exact each ns.dispatcher.queue

variable (ns) in
/-- Nothing is handed over for a muted lock. -/
theorem not_muted_of_drain {new : List Delivery}
    (handed : (ns.drain l).dispatcher.deliveries = ns.dispatcher.deliveries ++ new)
    {d : Delivery} (begun : d ∈ new) : ¬(ns.lock d.lock).Muted := by
  rcases ns.drain_cases l with ⟨n, rest, -, heard, after⟩ | ⟨-, after⟩ <;> rw [after] at handed
  · obtain rfl := List.append_cancel_left handed
    rw [List.mem_singleton.mp begun]
    exact heard
  · obtain rfl := List.append_cancel_left ((List.append_nil _).trans handed)
    cases begun

end Namespace

theorem Opening.ignores {ns ns' : Namespace} {todo : List Stage} (opening : Opening ns todo ns') :
    Mail.Ignores ns.mail ns'.mail := by
  cases opening with
  | still _ => exact .refl _
  | @register req _ _ _ _ _ => exact ns.mail_addLock req ▸ .refl _
  | @rebind _ k _ _ => exact ns.mail_findOrCreate k ▸ .refl _
  | glimpse _ _ => exact .refl _
  | evict owner => exact ns.ignores_silence _
  | shutdown _ => exact ns.ignores_silence _

theorem Stage.ignores {ns : Namespace} {stage : Stage} (r : ResourceId)
    (going : ∀ l, stage = .leave l → (ns.lock l).state = .canceling) :
    Mail.Ignores ns.mail (stage.carryOut ns r).space.mail := by
  have of_same {ns' : Namespace} (same : ns'.mail = ns.mail) : Mail.Ignores ns.mail ns'.mail :=
    same ▸ .refl _
  have releasing {ns' : Namespace} (ignores : Mail.Ignores ns.mail ns'.mail) (q : ResourceId)
      (outcome : Option Outcome) :
      Mail.Ignores ns.mail (Progress.releasing ns' q outcome).space.mail := ignores
  cases stage with
  | submit l discard =>
    simp only [carryOut]
    split
    · next done =>
      rcases Namespace.posts_submit done with rfl | ⟨a, posts, rfl⟩
      · exact .refl _
      · exact Namespace.ignores_conclude posts
    · cases discard with
      | true => exact ns.ignores_silence [l]
      | false => exact .refl _
  | changeMode l mode =>
    simp only [carryOut]
    split
    · next done =>
      rcases Namespace.posts_changeMode done with rfl | ⟨a, posts, rfl⟩
      · exact .refl _
      · exact Namespace.ignores_conclude posts
    · exact .refl _
  | mark l join =>
    simp only [carryOut]
    split
    · next marked => exact Namespace.ignores_mark marked
    · exact .refl _
  | leave l =>
    obtain ⟨a, posts, same⟩ := Namespace.posts_leave (going l rfl) r
    have left : Mail.Ignores ns.mail (ns.leave l r).mail := by
      rw [same]
      exact Namespace.ignores_conclude posts
    exact releasing left r none
  | ask q requester =>
    exact releasing (Namespace.ignores_conclude (Arbiter.posts_glimpse _ requester)) q _
  | reclaim q => exact of_same (ns.mail_reclaim q)
  | move l target => exact releasing (of_same (ns.mail_move l target)) _ _
  | close => exact ns.ignores_closeDispatcher
  | look q others seen => cases others <;> exact .refl _
  | _ => exact .refl _

namespace System

variable {s t : System}

/-- Whatever happens to a system, muted locks stay so and are sent nothing. -/
theorem Sound.ignores (sound : s.Sound) (step : Step s t) :
    Mail.Ignores s.space.mail t.space.mail := by
  cases step with
  | start op => exact (Task.opening_start s.space op).ignores
  | hold found => exact .refl _
  | take i taken =>
    obtain ⟨p, -, -, rfl⟩ := take?_eq taken
    exact .refl _
  | carryOut i done =>
    obtain ⟨stage, rest, q, todo, prepared, space, -⟩ := Sound.carryOut_cases done
    rw [space]
    exact Stage.ignores q (sound.ready todo prepared).going
  | takeUp taken =>
    obtain ⟨-, l, rest, -, rfl⟩ := Namespace.takeUp?_eq taken
    exact (s.space.modifyDispatcher ({ · with queue := rest })).ignores_drain l
  | @finish d busy =>
    exact (s.space.modifyDispatcher fun x =>
      { x with deliveries := x.deliveries.erase d }).ignores_drain d.lock
  | checkTimeouts => exact s.space.mail_checkTimeouts ▸ .refl _
  | pass duration => exact .refl _

/-- What a worker hands over is for locks that are not muted. -/
theorem Hands.not_muted {new : List Delivery} (hands : Hands s new t) {d : Delivery}
    (begun : d ∈ new) : ¬(s.space.lock d.lock).Muted := by
  cases hands with
  | takeUp taken handed =>
    obtain ⟨-, l, rest, -, rfl⟩ := Namespace.takeUp?_eq taken
    exact (s.space.modifyDispatcher ({ · with queue := rest })).not_muted_of_drain handed begun
  | @finish d' busy handed =>
    exact (s.space.modifyDispatcher fun x =>
      { x with deliveries := x.deliveries.erase d' }).not_muted_of_drain handed begun

end System
end LockManager
