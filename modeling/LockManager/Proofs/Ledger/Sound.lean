import LockManager.Proofs.Ledger.Settled

set_option autoImplicit false

/-!
What holds of a ledger between the stages of operations, and what each kind of stage does to it. A
resource is looked at again whenever a lock leaves it or changes to another mode at once.
-/

namespace LockManager
namespace Ledger

structure Sound (b : Ledger) : Prop where
  coherent : b.Coherent
  retired : ∀ l, l < b.size → ((b.lock l).retired = true ↔ (b.lock l).state = .canceled)
  /-- Nobody is kept between coming to a resource and being granted or waiting. -/
  arrived : ∀ l, l < b.size → (b.lock l).state ≠ .enqueued
  attended : ∀ r, b.Attended r

namespace Sound

variable {b b' : Ledger} {l : LockId} {r : ResourceId}

/-- Before anyone has come. -/
theorem of_empty (none : b.size = 0) (empty : ∀ r, b.queues r = {}) : b.Sound := by
  have nobody : ∀ l, ¬l < b.size := fun l below => Nat.not_lt_zero l (none ▸ below)
  have alone : ∀ r e, e ∉ (b.queues r).entries := by
    intro r e
    rw [empty]
    exact List.not_mem_nil
  constructor
  case coherent =>
    refine ⟨fun l below => absurd below (nobody l), fun l below => absurd below (nobody l),
      fun r e inside => absurd inside (alone r e), fun l below => absurd below (nobody l),
      fun l below => absurd below (nobody l), fun r => ?_, fun r e inside => ?_⟩
    · rw [empty]
      exact .nil
    · exact absurd (Queues.mem_entries.mpr (.inl (.inl inside))) (alone r e)
  case retired => exact fun l below => absurd below (nobody l)
  case arrived => exact fun l below => absurd below (nobody l)
  case attended =>
    intro r
    refine .inr ⟨fun e inside => ?_, fun e inside => ?_⟩
    · exact absurd (Queues.mem_entries.mpr (.inl (.inr inside))) (alone r e)
    · exact absurd (Queues.mem_entries.mpr (.inr inside)) (alone r e)

theorem keeps (sound : b.Sound) (coherent : b'.Coherent) (keeps : Keeps b b')
    (attended : ∀ r, b'.Attended r) : b'.Sound := by
  refine ⟨coherent, fun k known => ?_, fun k known => ?_, attended⟩
  · rw [(keeps.lock k).retired, (keeps.lock k).state_iff rfl]
    exact sound.retired k (keeps.size ▸ known)
  · exact (keeps.lock k).ne_enqueued (sound.arrived k (keeps.size ▸ known))

/-! ### Coming -/

theorem none_of_new (sound : b.Sound) (known : l < b.size) (new : (b.lock l).state = .new) :
    (b.home l).of l = {} := by
  have own := sound.coherent.seated l known
  rw [Lock.Seated, new] at own
  exact own.of_new.2

theorem extend (sound : b.Sound) {x : Lock} (fresh : x.claim.id = b.size) (new : x.state = .new)
    (nothing : x.grantedMode = none) (stays : x.retired = false)
    (valid : x.claim.policy.fault? = none) : (b.extend x).Sound := by
  have c := sound.coherent
  have self : (b.extend x).lock b.size = x := Function.update_self ..
  have old : ∀ k, k ≠ b.size → k < b.size + 1 → k < b.size ∧ (b.extend x).lock k = b.lock k := by
    intro k other below
    exact ⟨Nat.lt_of_le_of_ne (Nat.le_of_lt_succ below) other, Function.update_of_ne other ..⟩
  refine ⟨c.extend fresh new nothing valid, ?_, ?_, fun r => c.attended_extend x (sound.attended r)⟩
  · intro k below
    by_cases same : k = b.size
    · rw [same, self, stays, new]
      simp
    · obtain ⟨known, lock⟩ := old k same below
      rw [lock]
      exact sound.retired k known
  · intro k below
    by_cases same : k = b.size
    · rw [same, self, new]
      decide
    · obtain ⟨known, lock⟩ := old k same below
      rw [lock]
      exact sound.arrived k known

theorem rebind (sound : b.Sound) (known : l < b.size) (new : (b.lock l).state = .new)
    (r : ResourceId) (k : Key) : (b.set l { b.lock l with resource := r, key := k }).Sound := by
  have c := sound.coherent
  have lock : ∀ k', ((b.set l { b.lock l with resource := r, key := k }).lock k').retired =
      (b.lock k').retired ∧ ((b.set l { b.lock l with resource := r, key := k }).lock k').state =
      (b.lock k').state := by
    intro k'
    by_cases same : k' = l
    · rw [same, lock_set_self]
      exact ⟨rfl, rfl⟩
    · rw [lock_set_of_ne _ _ same]
      exact ⟨rfl, rfl⟩
  refine ⟨c.rebind known new r k, fun k' below => ?_, fun k' below => ?_,
    fun r' => c.attended_set known _ (sound.none_of_new known new) (sound.attended r')⟩
  · rw [(lock k').1, (lock k').2]
    exact sound.retired k' below
  · rw [(lock k').2]
    exact sound.arrived k' below

/-- A new lock that is granted at once. -/
theorem accept (sound : b.Sound) (known : l < b.size) (new : (b.lock l).state = .new)
    (passed : Passes r (b.set l ((b.lock l).enter .enqueued)) b')
    (free : b'.opposed l (b'.lock l).requestedMode = false) :
    (b'.accept l).Sound ∧ Keeps b (b'.accept l) := by
  obtain ⟨n, entered⟩ := passed.lock l
  rw [lock_set_self] at entered
  have enqueued : (b'.lock l).state = .enqueued := by
    rw [entered]
    rfl
  have known' : l < b'.size := passed.size ▸ known
  have c := (sound.coherent.enqueue known new).steps passed.grants.steps
  have stays : Keeps b (b'.accept l) := by
    refine ⟨passed.config, passed.size, fun k => ?_⟩
    by_cases same : k = l
    · rw [same, Ledger.accept, lock_seat_self, entered]
      exact ⟨rfl, rfl, rfl, rfl, .inr ⟨by rw [new]; rfl, rfl, nofun⟩⟩
    · obtain ⟨n, passed⟩ := passed.lock k
      rw [Ledger.accept, lock_seat_of_ne _ _ _ same, passed, lock_set_of_ne _ _ same]
      exact ⟨rfl, rfl, rfl, rfl, .inl rfl⟩
  refine ⟨sound.keeps (c.accept known' enqueued free) stays fun q => ?_, stays⟩
  have entering := sound.coherent.attended_set known ((b.lock l).enter .enqueued)
    (sound.none_of_new known new) (sound.attended q)
  exact c.attended_accept known' enqueued (passed.attended entering)

/-- A new lock that has to wait. -/
theorem wait (sound : b.Sound) (known : l < b.size) (new : (b.lock l).state = .new)
    (blocked : (b.set l ((b.lock l).enter .enqueued)).Blocked (b.lock l).resource
      ⟨(b.lock l).claim, (b.lock l).requestedMode⟩) :
    ((b.set l ((b.lock l).enter .enqueued)).wait l).Sound ∧
      Keeps b ((b.set l ((b.lock l).enter .enqueued)).wait l) := by
  have self := b.lock_set_self l ((b.lock l).enter .enqueued)
  have enqueued : ((b.set l ((b.lock l).enter .enqueued)).lock l).state = .enqueued := by
    rw [self]
    rfl
  have c := sound.coherent.enqueue known new
  have stays : Keeps b ((b.set l ((b.lock l).enter .enqueued)).wait l) := by
    refine ⟨rfl, rfl, fun k => ?_⟩
    by_cases same : k = l
    · rw [same, Ledger.wait, lock_seat_self, self]
      exact ⟨rfl, rfl, rfl, rfl, .inr ⟨by rw [new]; rfl, rfl, nofun⟩⟩
    · rw [Ledger.wait, lock_seat_of_ne _ _ _ same, lock_set_of_ne _ _ same]
      exact .refl _
  refine ⟨sound.keeps (c.wait known enqueued) stays fun q => ?_, stays⟩
  refine c.attended_wait known enqueued ?_ (sound.coherent.attended_set known _
    (sound.none_of_new known new) (sound.attended q))
  rw [self]
  exact blocked

/-! ### Changing mode -/

theorem pend (sound : b.Sound) {mode : Mode} (known : l < b.size)
    (granted : (b.lock l).state = .granted) (blocked : b.opposed l mode = true) :
    (b.pend l mode).Sound ∧ Keeps b (b.pend l mode) := by
  have c := sound.coherent
  have stays : Keeps b (b.pend l mode) :=
    .seat b _ ⟨rfl, rfl, rfl, rfl, .inr ⟨by rw [granted]; rfl, rfl, nofun⟩⟩
  exact ⟨sound.keeps (c.pend known granted blocked) stays
    fun q => c.attended_pend known granted blocked (sound.attended q), stays⟩

/-- A change of mode at once, after which the resource is looked at again. -/
theorem switch (sound : b.Sound) {mode : Mode} (known : l < b.size)
    (granted : (b.lock l).state = .granted) (free : b.opposed l mode = false)
    (grants : Grants (b.lock l).resource (b.switch l mode) b')
    (settled : b'.Settled (b.lock l).resource) : b'.Sound ∧ Keeps b b' := by
  have c := sound.coherent
  have switched := c.switch known granted free
  have stays : Keeps b (b.switch l mode) :=
    .seat b _ ⟨rfl, rfl, rfl, rfl, .inr ⟨by rw [granted]; rfl, rfl, nofun⟩⟩
  have all := stays.trans (.grants grants)
  refine ⟨sound.keeps (switched.steps grants.steps) all fun q => ?_, all⟩
  by_cases here : q = (b.lock l).resource
  · rw [here]
    exact .inr settled
  · exact switched.attended_grants grants here (c.attended_elsewhere _ _ here (sound.attended q))

/-! ### Going -/

theorem mark (sound : b.Sound) (known : l < b.size) (stays : (b.lock l).state.leaving = false) :
    (b.set l ((b.lock l).enter .canceling)).Sound := by
  refine ⟨sound.coherent.mark known, fun k below => ?_, fun k below => ?_,
    fun q => (sound.attended q).mark l⟩
  · by_cases same : k = l
    · have before := sound.retired l known
      rw [same, lock_set_self]
      constructor
      · intro retired
        rw [before.mp retired] at stays
        cases stays
      · intro canceled
        cases canceled
    · rw [lock_set_of_ne _ _ same]
      exact sound.retired k below
  · by_cases same : k = l
    · rw [same, lock_set_self]
      simp [Lock.enter]
    · rw [lock_set_of_ne _ _ same]
      exact sound.arrived k below

/-- A marked lock goes, the resource is looked at again, and then the lock is done with. -/
theorem leave (sound : b.Sound) (known : l < b.size)
    (grants : Grants (b.lock l).resource (b.leave l) b')
    (settled : b'.Settled (b.lock l).resource) :
    (b'.set l { b'.lock l with retired := true }).Sound := by
  have c := sound.coherent
  have gone := c.leave known
  have c' := gone.steps grants.steps
  have keeps := Keeps.grants grants
  have known' : l < b'.size := keeps.size.symm ▸ known
  have canceled := keeps.left_of_leave.2.2
  have others : ∀ k, k ≠ l → Stays (b.lock k) (b'.lock k) := fun _ => keeps.stays_of_leave
  have none : (b'.home l).of l = {} := by
    have own := c'.seated l known'
    rw [Lock.Seated, canceled] at own
    exact own.of_canceled.2
  have self := b'.lock_set_self l { b'.lock l with retired := true }
  refine ⟨c'.set known' rfl rfl (c'.seated l known'), fun k below => ?_, fun k below => ?_,
    fun q => c'.attended_set known' _ none ?_⟩
  · by_cases same : k = l
    · rw [same, self]
      exact iff_of_true rfl canceled
    · rw [lock_set_of_ne _ _ same, (others k same).retired, (others k same).state_iff rfl]
      exact sound.retired k (Nat.lt_of_lt_of_eq below keeps.size)
  · by_cases same : k = l
    · rw [same, self,
        show ({ b'.lock l with retired := true } : Lock).state = .canceled from canceled]
      decide
    · rw [lock_set_of_ne _ _ same]
      exact (others k same).ne_enqueued (sound.arrived k (Nat.lt_of_lt_of_eq below keeps.size))
  · by_cases here : q = (b.lock l).resource
    · rw [here]
      exact .inr settled
    · exact gone.attended_grants grants here (c.attended_elsewhere _ _ here (sound.attended q))

end Sound
end Ledger
end LockManager
