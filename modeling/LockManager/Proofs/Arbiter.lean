import LockManager.Proofs.Ledger.Charge

set_option autoImplicit false

/-!
What whoever holds the queues of a resource does to the ledger. Messages leave no trace in it; every
decision is a step on the ledger, and every check is one of the ledger's.
-/

namespace LockManager

namespace Arbiter

/-- The ledger while the queues of `r` are in the arbiter's hands. -/
def ledger (a : Arbiter) (r : ResourceId) (others : ResourceId → Queues) : Ledger :=
  { config := a.config
    size := a.locks.size
    lock := fun l => (a.lock l).outline
    queues := Function.update others r a.queues }

section

variable (a : Arbiter) (r : ResourceId) (others : ResourceId → Queues)

@[simp] theorem ledger_queues : (a.ledger r others).queues r = a.queues := Function.update_self ..

theorem ledger_home {l : LockId} (bound : (a.lock l).resource = r) :
    (a.ledger r others).home l = a.queues := by
  rw [Ledger.home, show ((a.ledger r others).lock l).resource = r from bound]
  exact a.ledger_queues r others

/-! ### Messages -/

theorem ledger_modifyLock_of_outline (l : LockId) {f : Lock → Lock}
    (same : ∀ x, (f x).outline = x.outline) :
    (a.modifyLock l f).ledger r others = a.ledger r others := by
  have locks : ∀ k, ((a.modifyLock l f).lock k).outline = (a.lock k).outline := by
    intro k
    unfold lock modifyLock
    rw [Arena.get_modify]
    split
    · exact same _
    · rfl
  simp only [ledger, locks]
  simp only [modifyLock, Arena.size_modify]

theorem ledger_notify (l : LockId) (n : Notification) :
    (a.notify l n).ledger r others = a.ledger r others := by
  unfold notify
  split
  · rfl
  · exact a.ledger_modifyLock_of_outline r others l fun _ => rfl

theorem ledger_ask (claim : Claim) (mode : Mode) (e : Entry) :
    (a.ask claim mode e).ledger r others = a.ledger r others := by
  unfold ask
  dsimp only
  split
  · rfl
  · rw [ledger_modifyLock_of_outline, ledger_notify]
    exact fun _ => rfl

end

section

variable (r : ResourceId) (others : ResourceId → Queues)

/-- What leaves the ledger alone each time does so in a loop. -/
theorem ledger_foldl {β : Type} {f : Arbiter → β → Arbiter}
    (keeps : ∀ a x, (f a x).ledger r others = a.ledger r others) (xs : List β) (a : Arbiter) :
    (xs.foldl f a).ledger r others = a.ledger r others := by
  induction xs generalizing a with
  | nil => rfl
  | cons x xs ih => rw [List.foldl_cons, ih, keeps]

theorem ledger_askHolders (a : Arbiter) (claim : Claim) (mode : Mode) :
    (a.askHolders claim mode).ledger r others = a.ledger r others :=
  ledger_foldl r others (fun a e => a.ledger_ask r others claim mode e) _ a

theorem ledger_askFor (a : Arbiter) (e : Entry) :
    (a.askFor e).ledger r others = a.ledger r others := by
  unfold askFor
  split
  · rfl
  · exact ledger_askHolders r others a e.claim e.mode

theorem ledger_glimpse (a : Arbiter) (requester : Owner) :
    (a.glimpse requester).1.ledger r others = a.ledger r others := by
  unfold glimpse
  generalize (a.queues.granted.filter _) = holders
  generalize 0 = n
  induction holders generalizing a n with
  | nil => rfl
  | cons e rest ih =>
    rw [List.foldl_cons]
    dsimp only
    split
    · exact ih a n
    · rw [ih, ledger_notify]

end

/-! ### Changes of locks and queues -/

section

variable {a : Arbiter} {r : ResourceId} {others : ResourceId → Queues}

variable (others) in
theorem ledger_modifyLock {l : LockId} (known : l < a.locks.size) (f : Lock → Lock) :
    (a.modifyLock l f).ledger r others = (a.ledger r others).set l (f (a.lock l)).outline := by
  simp only [ledger, Ledger.set, Ledger.mk.injEq]
  refine ⟨rfl, Arena.size_modify .., ?_, rfl⟩
  funext k
  by_cases same : k = l
  · rw [same, Function.update_self]
    exact congrArg Lock.outline (Arena.get_modify_self _ f known)
  · rw [Function.update_of_ne same]
    exact congrArg Lock.outline (Arena.get_modify_of_ne _ f (Ne.symm same))

/-- A change of a lock and then of the queues it is bound to. -/
theorem ledger_modifyQueues {b : Ledger} {l : LockId} {x : Lock} (f : Queues → Queues)
    (bound : (b.lock l).resource = r) (changed : a.ledger r others = b.set l x) :
    (a.modifyQueues f).ledger r others = b.seat l x (f (b.home l)) := by
  have queues : a.queues = b.home l := by
    rw [← a.ledger_queues r others, changed, Ledger.home, bound]
    rfl
  have now : (a.modifyQueues f).ledger r others =
      { a.ledger r others with
        queues := Function.update (a.ledger r others).queues r (f a.queues) } := by
    simp only [ledger, modifyQueues, Function.update_idem]
    rfl
  rw [now, changed, queues, Ledger.seat, bound]
  rfl

/-! ### Checks -/

theorem ledger_opposed {l : LockId} (bound : (a.lock l).resource = r) (mode : Mode) :
    (a.ledger r others).opposed l mode = a.opposed (a.lock l).claim mode := by
  rw [Ledger.opposed, a.ledger_home r others bound]
  rfl

variable (others) in
theorem starved_iff {e : Entry} : a.starved e = true ↔ (a.ledger r others).Starved e := by
  simp only [starved, Bool.and_eq_true, Bool.not_eq_true']
  rfl

variable (others) in
theorem holdsBack_iff {y : Entry} {claim : Claim} {mode : Mode} :
    a.holdsBack y claim mode = true ↔ (a.ledger r others).HoldsBack y ⟨claim, mode⟩ := by
  unfold holdsBack Ledger.HoldsBack
  rw [← starved_iff others]
  by_cases same : y.mode = mode
  · have going : a.starved y = true → (a.ledger r others).leaves y = false := fun starved =>
      ((starved_iff others).mp starved).1
    have stays : (a.ledger r others).leaves y = (a.lock y.claim.id).state.leaving := rfl
    simp only [same, if_true, true_and, Bool.and_eq_true, Bool.not_eq_true', ← stays]
    tauto
  · simp only [same, if_false, false_and, false_or, Bool.and_eq_true, Bool.not_eq_true']

/-- The check says no to exactly those who are blocked. -/
theorem grantable_eq_false_iff (ordered : a.queues.Ordered) {claim : Claim} {mode : Mode} :
    a.grantable claim mode = false ↔ (a.ledger r others).Blocked r ⟨claim, mode⟩ := by
  unfold grantable Ledger.Blocked
  rw [ledger_queues]
  simp only [Bool.and_eq_false_iff, Bool.not_eq_false', or_assoc]
  refine or_congr ?_ (or_congr ?_ ?_)
  · simp only [opposed, Queues.Opposed, List.any_eq_true]
  · simp only [List.any_eq_true, Bool.and_eq_true, starved_iff (r := r) others]
  · simp only [List.any_eq_true, holdsBack_iff (r := r) others,
      Queues.mem_earlier ordered, and_assoc]

/-! ### Decisions -/

theorem notify_modifyQueues (f : Queues → Queues) (l : LockId) (n : Notification) :
    (a.modifyQueues f).notify l n = (a.notify l n).modifyQueues f := by
  unfold notify
  rw [show (a.modifyQueues f).lock l = a.lock l from rfl]
  split <;> rfl

theorem enter?_modifyQueues (f : Queues → Queues) (l : LockId) (mode : Mode) (tell : Bool) :
    (a.modifyQueues f).enter? l mode tell = (a.enter? l mode tell).map (·.modifyQueues f) := by
  unfold enter?
  rw [show (a.modifyQueues f).lock l = a.lock l from rfl]
  cases (a.lock l).advance? .granted with
  | none => rfl
  | some x =>
    cases tell with
    | false => rfl
    | true =>
      exact congrArg some (notify_modifyQueues (a := a.modifyLock l fun _ => x.hold mode) f ..)

variable (others) in
theorem enter?_of_allows {l : LockId} (known : l < a.locks.size) (mode : Mode) (tell : Bool)
    (edge : (a.lock l).state.allows .granted = true) :
    ∃ a', a.enter? l mode tell = some a' ∧ a'.ledger r others =
      (a.ledger r others).set l ((((a.ledger r others).lock l).enter .granted).hold mode) := by
  have held := ledger_modifyLock (r := r) others known
    fun _ => ((a.lock l).enter .granted).hold mode
  unfold enter?
  rw [Lock.advance?_of_allows edge]
  cases tell with
  | false => exact ⟨_, rfl, held⟩
  | true => exact ⟨_, rfl, (ledger_notify ..).trans held⟩

variable (others) in
theorem ledger_grant (f : Queues → Queues) (claim : Claim) (known : claim.id < a.locks.size)
    (bound : (a.lock claim.id).resource = r) (mode : Mode) (tell : Bool)
    (edge : (a.lock claim.id).state.allows .granted = true) :
    ((a.modifyQueues f).grant claim mode tell).ledger r others =
      (a.ledger r others).seat claim.id
        ((((a.ledger r others).lock claim.id).enter .granted).hold mode)
        ((f ((a.ledger r others).home claim.id)).addGranted ⟨claim, mode⟩) := by
  obtain ⟨a', entered, after⟩ := enter?_of_allows (r := r) others known mode tell edge
  unfold grant
  rw [enter?_modifyQueues, entered]
  exact ledger_modifyQueues (fun q => (f q).addGranted ⟨claim, mode⟩) bound after

variable (others) in
theorem ledger_convert (f : Queues → Queues) (claim : Claim) (known : claim.id < a.locks.size)
    (bound : (a.lock claim.id).resource = r) (mode : Mode) (tell : Bool)
    (edge : (a.lock claim.id).state.allows .granted = true) :
    ∃ a', (a.modifyQueues f).convert? claim mode tell = some a' ∧ a'.ledger r others =
      (a.ledger r others).seat claim.id
        ((((a.ledger r others).lock claim.id).enter .granted).hold mode)
        ((f ((a.ledger r others).home claim.id)).setGrantedMode claim.id mode) := by
  obtain ⟨a', entered, after⟩ := enter?_of_allows (r := r) others known mode tell edge
  unfold convert?
  rw [enter?_modifyQueues, entered]
  exact ⟨_, rfl, ledger_modifyQueues (fun q => (f q).setGrantedMode claim.id mode) bound after⟩

/-! ### Passing over -/

/-- Locks with an entry are passed over. -/
theorem passes_foldl (c : (a.ledger r others).Coherent) {es : List Entry}
    (inside : ∀ e ∈ es, e ∈ a.queues.entries) :
    Ledger.Passes r (a.ledger r others)
      ((es.foldl (fun a e => a.modifyLock e.claim.id Lock.passOver) a).ledger r others) := by
  -- The entries stay those of `a`: only the counts of its locks change under way.
  have run : ∀ (es : List Entry) (a' : Arbiter),
      Ledger.Passes r (a.ledger r others) (a'.ledger r others) →
      (∀ e ∈ es, e ∈ a.queues.entries) → Ledger.Passes r (a.ledger r others)
        ((es.foldl (fun a e => a.modifyLock e.claim.id Lock.passOver) a').ledger r others) := by
    intro es
    induction es with
    | nil => exact fun _ passed _ => passed
    | cons e es ih =>
      intro a' passed inside
      have place : e ∈ ((a.ledger r others).queues r).entries := by
        rw [ledger_queues]
        exact inside e List.mem_cons_self
      have known : e.claim.id < (a'.ledger r others).size := by
        rw [passed.size]
        exact c.known r e place
      have bound : ((a'.ledger r others).lock e.claim.id).resource = r := by
        obtain ⟨n, same⟩ := passed.lock e.claim.id
        rw [same]
        exact c.bound place
      refine ih _ ?_ fun x later => inside x (List.mem_cons_of_mem e later)
      rw [ledger_modifyLock others known]
      exact passed.pass known bound
  exact run es a .none inside

theorem passes_recordBypass (c : (a.ledger r others).Coherent) (claim : Claim) (mode : Mode) :
    Ledger.Passes r (a.ledger r others) ((a.recordBypass claim mode).ledger r others) := by
  apply passes_foldl c
  intro e chosen
  rcases List.mem_append.mp (List.mem_of_mem_filter chosen) with pending | earlier
  · exact Queues.mem_entries.mpr (.inl (.inr pending))
  · exact Queues.mem_entries.mpr (.inr ((List.takeWhile_sublist _).subset earlier))

/-- Each lock is passed over as often as it has an entry among those passed over. -/
theorem lock_foldl_passOver (es : List Entry) (a : Arbiter) {k : LockId}
    (known : k < a.locks.size) :
    (es.foldl (fun a e => a.modifyLock e.claim.id Lock.passOver) a).lock k =
      Lock.passOver^[(es.filter (·.claim.id == k)).length] (a.lock k) := by
  induction es generalizing a with
  | nil => rfl
  | cons e es ih =>
    have known' : k < (a.modifyLock e.claim.id Lock.passOver).locks.size :=
      Nat.lt_of_lt_of_eq known (Arena.size_modify ..).symm
    have first : (a.modifyLock e.claim.id Lock.passOver).lock k =
        if e.claim.id = k ∧ e.claim.id < a.locks.size then (a.lock k).passOver else a.lock k :=
      Arena.get_modify ..
    rw [List.foldl_cons, ih _ known', first]
    by_cases here : e.claim.id = k
    · rw [if_pos ⟨here, here.symm ▸ known⟩, List.filter_cons, if_pos (beq_iff_eq.mpr here)]
      rfl
    · rw [if_neg fun both => here both.1, List.filter_cons, if_neg (by simpa using here)]

/-- The grant is counted on everyone it passes over, and nothing else happens. -/
theorem ledger_recordBypass (c : (a.ledger r others).Coherent) (claim : Claim) (mode : Mode) :
    (a.recordBypass claim mode).ledger r others = (a.ledger r others).charge r claim mode := by
  have passed := passes_recordBypass c claim mode
  have ordered : a.queues.Ordered := a.ledger_queues r others ▸ c.ordered r
  have count (k : LockId) : (((a.queues.converting ++ a.queues.earlier claim).filter
      (·.opposes claim mode)).filter (·.claim.id == k)).length =
      (a.queues.of k).passed claim mode := by
    simp only [Queues.passed, Queues.of, Queues.earlier_eq_filter ordered, List.filter_append,
      List.filter_filter, Bool.and_comm, Bool.and_assoc]
  have lock (k : LockId) : ((a.recordBypass claim mode).lock k).outline =
      Lock.passOver^[(a.queues.of k).passed claim mode] (a.lock k).outline := by
    by_cases known : k < a.locks.size
    · rw [← count, ← Lock.outline_passOver, ← lock_foldl_passOver _ _ known]
      rfl
    · have absent : a.queues.of k = {} := by
        have none : ∀ e ∈ a.queues.entries, ¬(e.claim.id == k) = true := by
          intro e inside same
          have below := c.known r e (by rwa [ledger_queues])
          exact known (beq_iff_eq.mp same ▸ below)
        simp only [Queues.mem_entries] at none
        simp only [Queues.of, Queues.mk.injEq, List.filter_eq_nil_iff]
        exact ⟨fun e inside => none e (.inl (.inl inside)),
          fun e inside => none e (.inl (.inr inside)), fun e inside => none e (.inr inside)⟩
      have beyond : ¬k < (a.recordBypass claim mode).locks.size := by
        rw [show (a.recordBypass claim mode).locks.size = a.locks.size from passed.size]
        exact known
      rw [absent, lock, lock, Arena.get_beyond _ known, Arena.get_beyond _ beyond]
      rfl
  refine Ledger.eq_of_parts passed.config passed.size (funext fun k => ?_) passed.queues
  rw [Ledger.charge, ledger_queues]
  exact lock k

theorem foldl_modifyQueues (f : Queues → Queues) (es : List Entry) (a : Arbiter) :
    es.foldl (fun a e => a.modifyLock e.claim.id Lock.passOver) (a.modifyQueues f) =
      (es.foldl (fun a e => a.modifyLock e.claim.id Lock.passOver) a).modifyQueues f := by
  induction es generalizing a with
  | nil => rfl
  | cons e es ih => exact ih (a.modifyLock e.claim.id Lock.passOver)

/-- Who is passed over does not depend on whether the lock still waits itself. -/
theorem recordBypass_dropWaiting (ordered : a.queues.Ordered) (claim : Claim) (mode : Mode) :
    (a.modifyQueues (·.dropWaiting claim.id)).recordBypass claim mode =
      (a.recordBypass claim mode).modifyQueues (·.dropWaiting claim.id) := by
  unfold recordBypass
  rw [show (a.modifyQueues (·.dropWaiting claim.id)).queues =
      a.queues.dropWaiting claim.id from rfl,
    Queues.earlier_dropWaiting ordered]
  exact foldl_modifyQueues ..

/-- Being passed over on the way changes nothing about how a lock is granted. -/
theorem ledger_grant_of_passes {a' : Arbiter} (f : Queues → Queues) {l : LockId}
    (passed : Ledger.Passes r (a.ledger r others) (a'.ledger r others)) (known : l < a.locks.size)
    (named : (a.lock l).claim.id = l) (bound : (a.lock l).resource = r) (tell : Bool)
    (edge : (a.lock l).state.allows .granted = true) :
    ((a'.modifyQueues f).grant (a.lock l).claim (a.lock l).requestedMode tell).ledger r others =
      (a'.ledger r others).seat l
        ((((a'.ledger r others).lock l).enter .granted).hold
          ((a'.ledger r others).lock l).requestedMode)
        ((f ((a'.ledger r others).home l)).addGranted
          ⟨((a'.ledger r others).lock l).claim, ((a'.ledger r others).lock l).requestedMode⟩) := by
  obtain ⟨n, same⟩ := passed.lock l
  have claim : ((a'.ledger r others).lock l).claim = (a.lock l).claim := by
    rw [same]
    rfl
  have mode : ((a'.ledger r others).lock l).requestedMode = (a.lock l).requestedMode := by
    rw [same]
    rfl
  have known' : l < a'.locks.size := Nat.lt_of_lt_of_eq known passed.size.symm
  have bound' : (a'.lock l).resource = r := (congrArg Lock.resource same).trans bound
  have edge' : (a'.lock l).state.allows .granted = true := by
    have state : (a'.lock l).state = (a.lock l).state := (congrArg Lock.state same :)
    rw [state]
    exact edge
  have done := ledger_grant others f (a.lock l).claim (named.symm ▸ known')
    (named.symm ▸ bound') (a.lock l).requestedMode tell (named.symm ▸ edge')
  rw [named] at done
  rw [claim, mode]
  exact done

/-- A lock that comes to the resource waits if it is blocked. Otherwise it is granted, and that is
counted on whoever it passes over. -/
theorem receive_cases (c : (a.ledger r others).Coherent) {l : LockId} (known : l < a.locks.size)
    (bound : (a.lock l).resource = r) (enqueued : (a.lock l).state = .enqueued) :
    (¬(a.ledger r others).Blocked r ⟨(a.lock l).claim, (a.lock l).requestedMode⟩ ∧
      Ledger.Passes r (a.ledger r others)
        ((a.ledger r others).charge r (a.lock l).claim (a.lock l).requestedMode) ∧
      (a.receive (a.lock l).claim (a.lock l).requestedMode).ledger r others =
        ((a.ledger r others).charge r (a.lock l).claim (a.lock l).requestedMode).accept l) ∨
    (a.ledger r others).Blocked r ⟨(a.lock l).claim, (a.lock l).requestedMode⟩ ∧
      (a.receive (a.lock l).claim (a.lock l).requestedMode).ledger r others =
        (a.ledger r others).wait l := by
  have named : (a.lock l).claim.id = l := c.named l known
  have ordered : a.queues.Ordered := a.ledger_queues r others ▸ c.ordered r
  have passed := passes_recordBypass c (a.lock l).claim (a.lock l).requestedMode
  have charged := ledger_recordBypass c (a.lock l).claim (a.lock l).requestedMode
  unfold receive
  cases may : a.grantable (a.lock l).claim (a.lock l).requestedMode with
  | true =>
    refine .inl ⟨fun blocked => ?_, charged ▸ passed, ?_⟩
    · rw [(grantable_eq_false_iff ordered).mpr blocked] at may
      cases may
    · rw [← charged]
      apply ledger_grant_of_passes id passed known named bound false
      rw [enqueued]
      rfl
  | false =>
    refine .inr ⟨(grantable_eq_false_iff ordered).mp may, ?_⟩
    have edge : (a.lock l).state.allows .waiting = true := by
      rw [enqueued]
      rfl
    rw [named, Lock.advance?_of_allows edge]
    apply (ledger_askHolders ..).trans
    apply ledger_modifyQueues (b := a.ledger r others) (l := l) _ bound
    exact ledger_modifyLock others known _

end

end Arbiter
end LockManager
