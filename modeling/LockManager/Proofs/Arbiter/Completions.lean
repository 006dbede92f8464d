import LockManager.Proofs.Arbiter.Sent

set_option autoImplicit false

/-!
What locks are told about the modes they are granted. A lock that is granted something when its
resource is looked at again is told so, once and with the mode it now holds. Whoever asks for a mode
and gets it at once learns that from the answer, and is told nothing.
-/

namespace LockManager

/-- The modes that the messages say have been granted, oldest first. -/
def completions (ns : List Notification) : List Mode :=
  ns.filterMap fun n => if n.kind = .completion then some n.mode else none

theorem completions_append (ns ns' : List Notification) :
    completions (ns ++ ns') = completions ns ++ completions ns' :=
  List.filterMap_append ..

namespace Lock

/-- The lock has been told of the grants of `modes`, unless it is suppressed. -/
structure Hears (x x' : Lock) (modes : List Mode) : Prop where
  claim : x'.claim = x.claim
  suppressed : x'.suppressed = x.suppressed
  pending : x.suppressed = false → ∃ more, x'.pending = x.pending ++ more ∧
    (∀ n ∈ more, n.handle = x.handle) ∧ completions more = modes

namespace Hears

variable {x x' x'' : Lock} {modes modes' : List Mode}

theorem nothing (claim : x'.claim = x.claim) (suppressed : x'.suppressed = x.suppressed)
    (pending : x'.pending = x.pending) : Hears x x' [] :=
  ⟨claim, suppressed, fun _ =>
    ⟨[], pending.trans (List.append_nil _).symm, fun _ none => absurd none List.not_mem_nil, rfl⟩⟩

theorem refl (x : Lock) : Hears x x [] := nothing rfl rfl rfl

theorem trans (first : Hears x x' modes) (second : Hears x' x'' modes') :
    Hears x x'' (modes ++ modes') := by
  refine ⟨second.claim.trans first.claim, second.suppressed.trans first.suppressed,
    fun heard => ?_⟩
  obtain ⟨before, earlier, mine, news⟩ := first.pending heard
  obtain ⟨after, later, mine', news'⟩ := second.pending (first.suppressed.trans heard)
  have handle : x'.handle = x.handle := congrArg Claim.handle first.claim
  refine ⟨before ++ after, by rw [later, earlier, List.append_assoc], fun n sent => ?_, ?_⟩
  · rcases List.mem_append.mp sent with old | new
    · exact mine n old
    · exact (mine' n new).trans handle
  · rw [completions_append, news, news']

end Hears

/-- Messages of its own that tell of no more grants than those. -/
theorem Sent.hears {x x' : Lock} {more : List Notification} (sent : Sent x x' more)
    (own : ∀ n ∈ more, n.handle = x.handle) : Hears x x' (completions more) :=
  ⟨sent.claim, sent.suppressed, fun _ => ⟨more, sent.pending, own, rfl⟩⟩

/-- The lock stands as it did, or has been granted what it wanted. It has been told of just that, if
there are any messages (`heard`). -/
inductive Served (heard : Prop) (x x' : Lock) : Prop where
  | still (claim : x'.claim = x.claim) (standing : x'.standing = x.standing)
      (hears : heard → Hears x x' [])
  | granted {mode : Mode} (claim : x'.claim = x.claim) (edge : x.state.allows .granted = true)
      (standing : x'.standing = ⟨.granted, x.requestedMode, some mode⟩)
      (hears : heard → Hears x x' [mode])

namespace Served

variable {heard heard' : Prop} {x x' x'' : Lock}

theorem refl (x : Lock) : Served heard x x := .still rfl rfl fun _ => .refl x

theorem claim_eq (served : Served heard x x') : x'.claim = x.claim := by
  cases served with
  | still claim _ _ => exact claim
  | granted claim _ _ _ => exact claim

theorem mono (served : Served heard x x') (less : heard' → heard) : Served heard' x x' := by
  cases served with
  | still claim standing hears => exact .still claim standing (hears ∘ less)
  | granted claim edge standing hears => exact .granted claim edge standing (hears ∘ less)

theorem ne_canceling (served : Served heard x x') (stays : x.state ≠ .canceling) :
    x'.state ≠ .canceling := by
  cases served with
  | still _ standing _ =>
    rw [show x'.state = x.state from congrArg Standing.state standing]
    exact stays
  | granted _ _ standing _ =>
    rw [show x'.state = .granted from congrArg Standing.state standing]
    decide

/-- A lock that wants nothing stands as it did. -/
theorem standing_eq (served : Served heard x x') (rests : x.state.allows .granted = false) :
    x'.standing = x.standing := by
  cases served with
  | still _ standing _ => exact standing
  | granted _ edge _ _ =>
    rw [rests] at edge
    cases edge

/-- A lock that wants nothing is told of no grant. -/
theorem hears_of_rests (served : Served heard x x') (rests : x.state.allows .granted = false)
    (told : heard) : Hears x x' [] := by
  cases served with
  | still _ _ hears => exact hears told
  | granted _ edge _ _ =>
    rw [rests] at edge
    cases edge

theorem trans (first : Served heard x x') (second : Served heard x' x'') :
    Served heard x x'' := by
  have claim := second.claim_eq.trans first.claim_eq
  cases first with
  | still _ before told =>
    have state : x'.state = x.state := congrArg Standing.state before
    have wanted : x'.requestedMode = x.requestedMode := congrArg Standing.wanted before
    cases second with
    | still _ after told' =>
      exact .still claim (after.trans before) fun h => (told h).trans (told' h)
    | granted _ edge after told' =>
      exact .granted claim (state ▸ edge) (wanted ▸ after) fun h => (told h).trans (told' h)
  | @granted mode _ edge before told =>
    have state : x'.state = .granted := congrArg Standing.state before
    cases second with
    | still _ after told' =>
      exact .granted claim edge (after.trans before) fun h =>
        List.append_nil [mode] ▸ (told h).trans (told' h)
    | granted _ edge' _ _ =>
      rw [state] at edge'
      cases edge'

end Served

theorem Informed.served {x x' : Lock} (informed : x.Informed x') : x.Served True x' := by
  obtain ⟨told, sent, learns⟩ := informed
  cases learns with
  | still standing => exact .still sent.claim standing fun _ => sent.hears (by simp)
  | @granted mode edge standing =>
    refine .granted sent.claim edge standing fun _ => ⟨sent.claim, sent.suppressed, fun heard => ?_⟩
    rw [tidings, heard, if_neg Bool.false_ne_true] at sent
    exact ⟨_, sent.pending, by simp [Notification.completed],
      by simp [completions, Notification.completed]⟩

end Lock

namespace Arbiter

/-- No lock stands otherwise than it did or has been told of a grant. -/
def Asks (a a' : Arbiter) : Prop :=
  ∀ k, (a.lock k).Hears (a'.lock k) [] ∧ (a'.lock k).standing = (a.lock k).standing

/-- Every lock stands as it did or has been granted what it wanted, and has been told so. -/
def Serves (a a' : Arbiter) : Prop := ∀ k, (a.lock k).Served True (a'.lock k)

variable (a : Arbiter)

theorem asks_refl : a.Asks a := fun _ => ⟨.refl _, rfl⟩

variable {a} in
theorem Asks.trans {a' a'' : Arbiter} (first : a.Asks a') (second : a'.Asks a'') : a.Asks a'' :=
  fun k => ⟨(first k).1.trans (second k).1, (second k).2.trans (first k).2⟩

theorem asks_foldl {β : Type} {f : Arbiter → β → Arbiter} (each : ∀ a x, Asks a (f a x))
    (xs : List β) (a : Arbiter) : a.Asks (xs.foldl f a) := by
  induction xs generalizing a with
  | nil => exact a.asks_refl
  | cons x xs ih => exact (each a x).trans (ih (f a x))

theorem asks_modifyLock {l : LockId} {f : Lock → Lock} (hears : ∀ x : Lock, x.Hears (f x) [])
    (standing : ∀ x, (f x).standing = x.standing) : a.Asks (a.modifyLock l f) := by
  intro k
  rw [lock_modifyLock]
  split
  · exact ⟨hears _, standing _⟩
  · exact ⟨.refl _, rfl⟩

theorem asks_ask (claim : Claim) (mode : Mode) (e : Entry) : a.Asks (a.ask claim mode e) := by
  intro k
  obtain ⟨standing, asked, sent, only⟩ := a.ask_sends claim mode e k
  have none : completions asked = [] := by
    refine List.filterMap_eq_nil_iff.mpr fun n member => ?_
    rw [(only n member).2]
    rfl
  refine ⟨none ▸ sent.hears fun n member => ?_, standing⟩
  rw [(only n member).2]
  rfl

theorem asks_askHolders (claim : Claim) (mode : Mode) : a.Asks (a.askHolders claim mode) :=
  asks_foldl (fun a (e : Entry) => a.asks_ask claim mode e) _ a

theorem asks_recordBypass (claim : Claim) (mode : Mode) : a.Asks (a.recordBypass claim mode) :=
  asks_foldl (f := fun a (e : Entry) => a.modifyLock e.claim.id Lock.passOver)
    (fun a _ => a.asks_modifyLock (fun _ => .nothing rfl rfl rfl) fun _ => rfl) _ a

variable {a} {a' : Arbiter}

theorem serves_respects : Respects true Serves where
  refl _ _ := .refl _
  trans first second k := (first k).trans (second k)
  queues _ _ _ := .refl _
  pass a l k := by
    have passed : a.Asks (a.modifyLock l Lock.passOver) :=
      a.asks_modifyLock (fun _ => .nothing rfl rfl rfl) fun _ => rfl
    obtain ⟨hears, standing⟩ := passed k
    exact .still hears.claim standing fun _ => hears
  enter entered k := (informs_enter entered k).served
  ask a claim mode e k := by
    obtain ⟨hears, standing⟩ := a.asks_ask claim mode e k
    exact .still hears.claim standing fun _ => hears

/-! ### Grants at once -/

/-- Only one lock is granted something, and it is told nothing. -/
theorem lock_enter {l : LockId} {mode : Mode} (entered : a.enter? l mode false = some a') :
    a'.lock l = ((a.lock l).enter .granted).hold mode ∧ ∀ k, k ≠ l → a'.lock k = a.lock k := by
  obtain ⟨-, known, same⟩ := enter?_eq entered
  simp only [Bool.false_eq_true, if_false] at same
  have lock := a.lock_modifyLock l fun _ => ((a.lock l).enter .granted).hold mode
  rw [← same] at lock
  exact ⟨(lock l).trans (if_pos ⟨rfl, known⟩), fun k other =>
    (lock k).trans (if_neg fun both => other both.1.symm)⟩

theorem lock_convert {claim : Claim} {mode : Mode}
    (converted : a.convert? claim mode false = some a') :
    a'.lock claim.id = ((a.lock claim.id).enter .granted).hold mode ∧
      ∀ k, k ≠ claim.id → a'.lock k = a.lock k := by
  obtain ⟨b, entered, rfl⟩ := Option.map_eq_some_iff.mp converted
  exact (lock_enter entered :)

theorem exists_enter {l : LockId} (mode : Mode) (tell : Bool)
    (edge : (a.lock l).state.allows .granted = true) : ∃ b, a.enter? l mode tell = some b := by
  unfold enter?
  rw [Lock.advance?_of_allows edge]
  exact ⟨_, rfl⟩

theorem lock_grant (a : Arbiter) {claim : Claim} (mode : Mode)
    (edge : (a.lock claim.id).state.allows .granted = true) :
    (a.grant claim mode false).lock claim.id = ((a.lock claim.id).enter .granted).hold mode ∧
      ∀ k, k ≠ claim.id → (a.grant claim mode false).lock k = a.lock k := by
  obtain ⟨b, entered⟩ := exists_enter mode false edge
  unfold grant
  rw [entered]
  exact (lock_enter entered :)

/-- A lock that comes to the resource is granted at once or waits. -/
theorem receive_lock (a : Arbiter) (claim : Claim) (enqueued : (a.lock claim.id).state = .enqueued)
    (mode : Mode) :
    (∀ k, (a.lock k).Hears ((a.receive claim mode).lock k) []) ∧
      (∀ k, k ≠ claim.id → ((a.receive claim mode).lock k).standing = (a.lock k).standing) ∧
      (a.grantable claim mode = true ∧ ((a.receive claim mode).lock claim.id).standing =
          ⟨.granted, (a.lock claim.id).requestedMode, some mode⟩ ∨
        a.grantable claim mode = false ∧ ((a.receive claim mode).lock claim.id).standing =
          ⟨.waiting, (a.lock claim.id).requestedMode, (a.lock claim.id).grantedMode⟩) := by
  -- either way the lock itself moves, and the others are passed over or asked
  have of_change {b b' : Arbiter} {x : Lock} (moved : (a.lock claim.id).Hears x [])
      (self : b.lock claim.id = x) (others : ∀ k, k ≠ claim.id →
        (a.lock k).Hears (b.lock k) [] ∧ (b.lock k).standing = (a.lock k).standing)
      (asks : b.Asks b') :
      (∀ k, (a.lock k).Hears (b'.lock k) []) ∧
        (∀ k, k ≠ claim.id → (b'.lock k).standing = (a.lock k).standing) ∧
        (b'.lock claim.id).standing = x.standing := by
    refine ⟨fun k => ?_, fun k other => (asks k).2.trans (others k other).2, ?_⟩
    · by_cases here : k = claim.id
      · exact (here ▸ (self.symm ▸ moved)).trans (asks k).1
      · exact (others k here).1.trans (asks k).1
    · rw [(asks _).2, self]
  unfold receive
  cases may : a.grantable claim mode with
  | true =>
    have passed := a.asks_recordBypass claim mode
    simp only [if_true]
    generalize a.recordBypass claim mode = b at passed ⊢
    obtain ⟨hears, standing⟩ := passed claim.id
    have state : (b.lock claim.id).state = .enqueued :=
      (congrArg Standing.state standing).trans enqueued
    have wanted : (b.lock claim.id).requestedMode = (a.lock claim.id).requestedMode :=
      congrArg Standing.wanted standing
    obtain ⟨self, others⟩ := b.lock_grant mode (by rw [state]; rfl)
    obtain ⟨told, same, now⟩ := of_change
      (x := ((b.lock claim.id).enter .granted).hold mode) (hears.trans (.nothing rfl rfl rfl)) self
      (fun k other => (others k other).symm ▸ passed k) (asks_refl _)
    exact ⟨told, same, .inl ⟨trivial, wanted ▸ now⟩⟩
  | false =>
    rw [Lock.advance?_of_allows (by rw [enqueued]; rfl)]
    have known : claim.id < a.locks.size := known_of_state (by rw [enqueued]; simp)
    have lock := a.lock_modifyLock claim.id fun _ => (a.lock claim.id).enter .waiting
    simp only [Bool.false_eq_true, if_false]
    generalize a.modifyLock claim.id _ = b at lock ⊢
    have others (k : LockId) (other : k ≠ claim.id) : b.lock k = a.lock k :=
      (lock k).trans (if_neg fun both => other both.1.symm)
    obtain ⟨told, same, now⟩ := of_change (x := (a.lock claim.id).enter .waiting)
      (b := b.modifyQueues (·.addWaiting ⟨claim, mode⟩)) (.nothing rfl rfl rfl)
      ((lock _).trans (if_pos ⟨rfl, known⟩))
      (fun k other => (others k other).symm ▸ a.asks_refl k) (asks_askHolders _ claim mode)
    exact ⟨told, same, .inr ⟨trivial, now⟩⟩

end Arbiter
end LockManager
