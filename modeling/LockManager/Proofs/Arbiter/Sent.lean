import LockManager.Proofs.Arbiter.Messages

set_option autoImplicit false

/-!
What exactly is sent to a lock. While locks are granted what they waited for, each of them is told so
once, with the mode that it has been granted, and nothing else is sent. After that nobody is granted
anything any more: whoever is asked to give way is granted still, and in the way of someone who waits
still.
-/

namespace LockManager

/-- How a lock stands: its state, the mode it wants or has, and the mode it holds. -/
structure Standing where
  state : LockState
  wanted : Mode
  held : Option Mode
  deriving DecidableEq, Repr

namespace Lock

def standing (x : Lock) : Standing :=
  { state := x.state, wanted := x.requestedMode, held := x.grantedMode }

/-- The lock has been sent `more`, and is still whose it was. -/
structure Sent (x x' : Lock) (more : List Notification) : Prop where
  claim : x'.claim = x.claim
  key : x'.key = x.key
  suppressed : x'.suppressed = x.suppressed
  pending : x'.pending = x.pending ++ more

namespace Sent

variable {x x' x'' : Lock} {more more' : List Notification}

theorem nothing (claim : x'.claim = x.claim) (key : x'.key = x.key)
    (suppressed : x'.suppressed = x.suppressed) (pending : x'.pending = x.pending) : Sent x x' [] :=
  ⟨claim, key, suppressed, pending.trans (List.append_nil _).symm⟩

theorem refl (x : Lock) : Sent x x [] := nothing rfl rfl rfl rfl

theorem push (x : Lock) (n : Notification) : Sent x (x.push n) [n] := ⟨rfl, rfl, rfl, rfl⟩

theorem trans (first : Sent x x' more) (second : Sent x' x'' more') :
    Sent x x'' (more ++ more') := by
  refine ⟨second.claim.trans first.claim, second.key.trans first.key,
    second.suppressed.trans first.suppressed, ?_⟩
  rw [second.pending, first.pending, List.append_assoc]

theorem silent (first : Sent x x' []) (second : Sent x' x'' []) : Sent x x'' [] :=
  first.trans second

/-- A message to a lock says whose it is and which resource it is about, and no more of the lock. -/
theorem completed_eq (sent : Sent x x' more) (mode : Mode) :
    Notification.completed x' mode = .completed x mode := by
  simp only [Notification.completed, Lock.handle, sent.claim, sent.key]

theorem giveWay_eq (sent : Sent x x' more) (held : Mode) (waiter : Claim) (mode : Mode) :
    Notification.giveWay x' held waiter mode = .giveWay x held waiter mode := by
  simp only [Notification.giveWay, Lock.handle, sent.claim, sent.key]

theorem peek_eq (sent : Sent x x' more) (held : Mode) (requester : Owner) :
    Notification.peek x' held requester = .peek x held requester := by
  simp only [Notification.peek, Lock.handle, sent.claim, sent.key]

end Sent

/-! ### Grants -/

/-- What is sent to a lock that is granted `mode`. -/
def tidings (x : Lock) (mode : Mode) : List Notification :=
  if x.suppressed then [] else [.completed x mode]

/-- The lock stands as it did and is told nothing, or it has been granted what it wanted and is told
that. -/
inductive Learns (x x' : Lock) : List Notification → Prop where
  | still (standing : x'.standing = x.standing) : Learns x x' []
  | granted {mode : Mode} (edge : x.state.allows .granted = true)
      (standing : x'.standing = ⟨.granted, x.requestedMode, some mode⟩) : Learns x x' (x.tidings mode)

/-- The lock has been sent what it is to be told about grants, and nothing else. -/
def Informed (x x' : Lock) : Prop := ∃ told, Sent x x' told ∧ Learns x x' told

theorem Informed.silent {x x' : Lock} (sent : Sent x x' []) (standing : x'.standing = x.standing) :
    Informed x x' :=
  ⟨[], sent, .still standing⟩

theorem Informed.trans {x x' x'' : Lock} (first : Informed x x') (second : Informed x' x'') :
    Informed x x'' := by
  obtain ⟨told, sent, learns⟩ := first
  obtain ⟨told', sent', learns'⟩ := second
  refine ⟨told ++ told', sent.trans sent', ?_⟩
  cases learns with
  | still before =>
    have state : x'.state = x.state := congrArg Standing.state before
    have wanted : x'.requestedMode = x.requestedMode := congrArg Standing.wanted before
    cases learns' with
    | still after => exact .still (after.trans before)
    | @granted mode edge after =>
      have same : x'.tidings mode = x.tidings mode := by
        rw [tidings, tidings, sent.suppressed, sent.completed_eq]
      rw [List.nil_append, same]
      exact .granted (state ▸ edge) (wanted ▸ after)
  | granted edge before =>
    have state : x'.state = .granted := congrArg Standing.state before
    cases learns' with
    | still after =>
      rw [List.append_nil]
      exact .granted edge (after.trans before)
    | granted edge' _ =>
      rw [state] at edge'
      cases edge'

end Lock

/-- The message asks lock `l`, which is granted in these queues, to make room for an entry that is
not. -/
def Queues.Presses (q : Queues) (l : LockId) (x : Lock) (n : Notification) : Prop :=
  ∃ g ∈ q.granted, g.claim.id = l ∧ ∃ w, (w ∈ q.converting ∨ w ∈ q.waiting) ∧
    g.opposes w.claim w.mode = true ∧ n = .giveWay x g.mode w.claim w.mode

theorem Queues.Presses.congr {q : Queues} {l : LockId} {x x' : Lock} {more : List Notification}
    {n : Notification} (presses : q.Presses l x' n) (sent : x.Sent x' more) : q.Presses l x n := by
  obtain ⟨g, holds, mine, w, wants, against, rfl⟩ := presses
  exact ⟨g, holds, mine, w, wants, against, sent.giveWay_eq ..⟩

/-- The entries of lock `k` that are to be asked on behalf of `requester`. -/
def Queues.peeked (q : Queues) (requester : Owner) (k : LockId) : List Entry :=
  (q.granted.filter fun e => e.mode.writes && e.claim.owner != requester).filter (·.claim.id == k)

namespace Arbiter

theorem known_of_state {a : Arbiter} {l : LockId} (state : (a.lock l).state ≠ .new) :
    l < a.locks.size := by
  by_contra beyond
  apply state
  rw [show a.lock l = default from a.locks.get_beyond beyond]
  rfl

variable (a : Arbiter)

theorem lock_notify (l : LockId) (n : Notification) (k : LockId) : (a.notify l n).lock k =
    if (l = k ∧ l < a.locks.size) ∧ (a.lock l).suppressed = false then (a.lock k).push n
    else a.lock k := by
  unfold notify
  split
  · next suppressed => rw [if_neg fun all => by rw [suppressed] at all; cases all.2]
  · next heard =>
    have lock : (a.modifyLock l (·.push n)).lock k =
        if l = k ∧ l < a.locks.size then (a.lock k).push n else a.lock k :=
      a.lock_modifyLock l (·.push n) k
    simp only [Bool.not_eq_true] at heard
    simp only [heard, and_true]
    exact lock

theorem sent_notify (l : LockId) (n : Notification) (k : LockId) :
    (a.lock k).Sent ((a.notify l n).lock k)
      (if (l = k ∧ l < a.locks.size) ∧ (a.lock l).suppressed = false then [n] else []) := by
  rw [lock_notify]
  split
  · exact .push _ n
  · exact .refl _

theorem standing_notify (l : LockId) (n : Notification) (k : LockId) :
    ((a.notify l n).lock k).standing = (a.lock k).standing := by
  rw [lock_notify]
  split <;> rfl

theorem queues_notify (l : LockId) (n : Notification) : (a.notify l n).queues = a.queues := by
  unfold notify
  split <;> rfl

theorem size_notify (l : LockId) (n : Notification) :
    (a.notify l n).locks.size = a.locks.size := by
  unfold notify
  split
  · rfl
  · exact Arena.size_modify ..

/-- A change of a lock that has nothing to do with messages. -/
theorem sent_modifyLock {l : LockId} {f : Lock → Lock} (self : (a.lock l).Sent (f (a.lock l)) [])
    (k : LockId) : (a.lock k).Sent ((a.modifyLock l f).lock k) [] := by
  rw [lock_modifyLock]
  split
  · next here => exact here.1 ▸ self
  · exact .refl _

theorem standing_modifyLock (l : LockId) {f : Lock → Lock}
    (each : ∀ x, (f x).standing = x.standing) (k : LockId) :
    ((a.modifyLock l f).lock k).standing = (a.lock k).standing := by
  rw [lock_modifyLock]
  split
  · exact each _
  · rfl

/-! ### Deciding -/

/-- Every lock has been sent what it is to be told about grants, and nothing else. -/
def Informs (a a' : Arbiter) : Prop := ∀ k, (a.lock k).Informed (a'.lock k)

variable {a} {a' : Arbiter}

theorem enter?_eq {l : LockId} {mode : Mode} {tell : Bool}
    (entered : a.enter? l mode tell = some a') :
    (a.lock l).state.allows .granted = true ∧ l < a.locks.size ∧
      a' = let b := a.modifyLock l fun _ => ((a.lock l).enter .granted).hold mode
        if tell then b.notify l (.completed ((a.lock l).enter .granted) mode) else b := by
  obtain ⟨x, advanced, rest⟩ := Option.bind_eq_some_iff.mp entered
  obtain ⟨edge, rfl⟩ := Lock.eq_enter_of_advance advanced
  refine ⟨edge, known_of_state fun new => ?_, (Option.some.inj rest).symm⟩
  rw [new] at edge
  cases edge

/-- Only one lock is granted something, and it is told so. -/
theorem informs_enter {l : LockId} {mode : Mode} (entered : a.enter? l mode true = some a') :
    a.Informs a' := by
  obtain ⟨edge, known, rfl⟩ := enter?_eq entered
  intro k
  have granted := a.lock_modifyLock l fun _ => ((a.lock l).enter .granted).hold mode
  have size : (a.modifyLock l fun _ => ((a.lock l).enter .granted).hold mode).locks.size =
      a.locks.size := Arena.size_modify ..
  dsimp only
  rw [if_pos rfl]
  generalize a.modifyLock l _ = b at granted size ⊢
  have told := b.sent_notify l (.completed ((a.lock l).enter .granted) mode) k
  have standing := b.standing_notify l (.completed ((a.lock l).enter .granted) mode) k
  rw [size] at told
  by_cases here : l = k
  · obtain rfl := here
    have self := (granted l).trans (if_pos ⟨rfl, known⟩)
    rw [self] at told standing
    have held : (a.lock l).Sent (((a.lock l).enter .granted).hold mode) [] :=
      .nothing rfl rfl rfl rfl
    have tidings : (a.lock l).tidings mode =
        if (l = l ∧ l < a.locks.size) ∧ (a.lock l).suppressed = false then
          [.completed (a.lock l) mode] else [] := by
      cases heard : (a.lock l).suppressed <;> simp [Lock.tidings, heard, known]
    exact ⟨_, tidings ▸ held.trans told, .granted edge standing⟩
  · rw [granted, if_neg fun both => here both.1] at told standing
    rw [if_neg fun all => here all.1.1] at told
    exact .silent told standing

theorem informs_allots : Allots true Informs where
  refl _ _ := .silent (.refl _) rfl
  trans first second k := (first k).trans (second k)
  queues _ _ _ := .silent (.refl _) rfl
  pass a l k := .silent (a.sent_modifyLock (f := Lock.passOver) (.nothing rfl rfl rfl rfl) k)
    (a.standing_modifyLock l (f := Lock.passOver) (fun _ => rfl) k)
  enter := informs_enter

/-- A grant that the lock learns of from an answer. -/
theorem silent_allots : Allots false fun a a' => ∀ k, (a.lock k).Sent (a'.lock k) [] where
  refl _ _ := .refl _
  trans first second k := (first k).silent (second k)
  queues _ _ _ := .refl _
  pass a l := a.sent_modifyLock (.nothing rfl rfl rfl rfl)
  enter {a a' l mode} entered k := by
    obtain ⟨-, -, same⟩ := enter?_eq entered
    simp only [Bool.false_eq_true, if_false] at same
    rw [same, lock_modifyLock]
    split
    · next here => exact here.1 ▸ .nothing rfl rfl rfl rfl
    · exact .refl _

/-! ### Asking to give way -/

/-- Nobody is granted anything. Whoever has been asked to give way is in someone's way. -/
structure Asking (a a' : Arbiter) : Prop where
  queues : a'.queues = a.queues
  lock : ∀ k, (a'.lock k).standing = (a.lock k).standing ∧
    ∃ asked, (a.lock k).Sent (a'.lock k) asked ∧ ∀ n ∈ asked, a.queues.Presses k (a.lock k) n

namespace Asking

theorem refl (a : Arbiter) : Asking a a := ⟨rfl, fun _ => ⟨rfl, [], .refl _, by simp⟩⟩

theorem trans {a'' : Arbiter} (first : Asking a a') (second : Asking a' a'') : Asking a a'' := by
  refine ⟨second.queues.trans first.queues, fun k => ?_⟩
  obtain ⟨standing, asked, sent, presses⟩ := first.lock k
  obtain ⟨standing', asked', sent', presses'⟩ := second.lock k
  refine ⟨standing'.trans standing, asked ++ asked', sent.trans sent', fun n member => ?_⟩
  rcases List.mem_append.mp member with before | after
  · exact presses n before
  · exact (first.queues ▸ presses' n after).congr sent

/-- Asking in a loop, each time with the same queues. -/
theorem foldl {f : Arbiter → Entry → Arbiter} {es : List Entry} (b : Arbiter)
    (each : ∀ a : Arbiter, a.queues = b.queues → ∀ e ∈ es, Asking a (f a e)) :
    Asking b (es.foldl f b) := by
  have run : ∀ (es : List Entry) (a : Arbiter), a.queues = b.queues →
      (∀ a : Arbiter, a.queues = b.queues → ∀ e ∈ es, Asking a (f a e)) →
      Asking a (es.foldl f a) := by
    intro es
    induction es with
    | nil => exact fun a _ _ => refl a
    | cons e es ih =>
      intro a same each
      have first := each a same e List.mem_cons_self
      exact first.trans (ih _ (first.queues.trans same) fun a same x later =>
        each a same x (List.mem_cons_of_mem e later))
  exact run es b rfl each

end Asking

/-- Only the lock of the entry is asked, and only once. -/
theorem ask_sends (a : Arbiter) (claim : Claim) (mode : Mode) (e : Entry) (k : LockId) :
    ((a.ask claim mode e).lock k).standing = (a.lock k).standing ∧
      ∃ asked, (a.lock k).Sent ((a.ask claim mode e).lock k) asked ∧
        ∀ n ∈ asked, e.claim.id = k ∧ n = .giveWay (a.lock k) e.mode claim mode := by
  unfold ask
  dsimp only
  split
  · exact ⟨rfl, [], .refl _, by simp⟩
  · have told := a.sent_notify e.claim.id (.giveWay (a.lock e.claim.id) e.mode claim mode) k
    have standing := a.standing_notify e.claim.id
      (.giveWay (a.lock e.claim.id) e.mode claim mode) k
    generalize a.notify e.claim.id _ = b at told standing ⊢
    have marked := b.sent_modifyLock (l := e.claim.id)
      (f := fun x => { x with blockingSent := true, blockingSentAt := some a.now })
      (.nothing rfl rfl rfl rfl) k
    have still := b.standing_modifyLock e.claim.id
      (f := fun x => { x with blockingSent := true, blockingSentAt := some a.now }) (fun _ => rfl) k
    refine ⟨still.trans standing, _, told.trans marked, fun n member => ?_⟩
    rw [List.append_nil] at member
    split at member
    · next here =>
      obtain ⟨⟨rfl, -⟩, -⟩ := here
      exact ⟨rfl, List.mem_singleton.mp member⟩
    · cases member

theorem queues_ask (a : Arbiter) (claim : Claim) (mode : Mode) (e : Entry) :
    (a.ask claim mode e).queues = a.queues := by
  unfold ask
  dsimp only
  split
  · rfl
  · exact a.queues_notify ..

section

variable {w : Entry}

/-- Whoever is asked stands in the way of the entry `w`. -/
theorem asking_ask (a : Arbiter) {e : Entry} (holds : e ∈ a.queues.granted)
    (wants : w ∈ a.queues.converting ∨ w ∈ a.queues.waiting)
    (against : e.opposes w.claim w.mode = true) : Asking a (a.ask w.claim w.mode e) := by
  refine ⟨a.queues_ask .., fun k => ?_⟩
  obtain ⟨standing, asked, sent, only⟩ := a.ask_sends w.claim w.mode e k
  exact ⟨standing, asked, sent, fun n member =>
    ⟨e, holds, (only n member).1, w, wants, against, (only n member).2⟩⟩

theorem asking_askHolders (a : Arbiter) (wants : w ∈ a.queues.converting ∨ w ∈ a.queues.waiting) :
    Asking a (a.askHolders w.claim w.mode) := by
  refine Asking.foldl a fun b same e chosen => ?_
  obtain ⟨holds, against⟩ := List.mem_filter.mp chosen
  rw [← same] at holds wants
  exact b.asking_ask holds wants against

theorem asking_askFor (a : Arbiter) (wants : w ∈ a.queues.converting ∨ w ∈ a.queues.waiting) :
    Asking a (a.askFor w) := by
  unfold askFor
  split
  · exact .refl a
  · exact a.asking_askHolders wants

end

/-! ### Whole decisions -/

/-- What a lock has been sent: what it is to be told about grants, and then that it is in someone's
way. -/
structure Posted (a a' : Arbiter) (k : LockId) (told asked : List Notification) : Prop where
  sent : (a.lock k).Sent (a'.lock k) (told ++ asked)
  presses : ∀ n ∈ asked, a'.queues.Presses k (a.lock k) n

theorem reprocess_posts (a : Arbiter) (k : LockId) :
    ∃ told asked, Posted a a.reprocess k told asked ∧
      (a.lock k).Learns (a.reprocess.lock k) told := by
  obtain ⟨b, informs, same⟩ := informs_allots.reprocess a
  have asking : Asking b a.reprocess := by
    rw [same]
    refine Asking.foldl b fun c queues e member => c.asking_askFor ?_
    rw [queues]
    exact List.mem_append.mp member
  obtain ⟨told, sent, learns⟩ := informs k
  obtain ⟨standing, asked, sent', presses⟩ := asking.lock k
  refine ⟨told, asked, ⟨sent.trans sent', fun n member => ?_⟩, ?_⟩
  · rw [asking.queues]
    exact (presses n member).congr sent
  · cases learns with
    | still before => exact .still (standing.trans before)
    | granted edge before => exact .granted edge (standing.trans before)

/-- After a change that is told to nobody, holders have been asked to give way. -/
theorem Asking.posted {b : Arbiter} (asking : Asking b a') {k : LockId}
    (silent : (a.lock k).Sent (b.lock k) []) : ∃ asked, Posted a a' k [] asked := by
  obtain ⟨-, asked, sent, presses⟩ := asking.lock k
  refine ⟨asked, silent.trans sent, fun n member => ?_⟩
  rw [asking.queues]
  exact (presses n member).congr silent

/-- When a lock comes to the resource, nobody is told of a grant. -/
theorem receive_posts (a : Arbiter) (claim : Claim) (mode : Mode) (k : LockId) :
    ∃ asked, Posted a (a.receive claim mode) k [] asked := by
  rcases a.receive_eq claim mode with same | ⟨-, same⟩ | same <;> rw [same]
  · have silent := silent_allots.trans (silent_allots.recordBypass a claim mode)
      (silent_allots.grant _ claim mode)
    exact ⟨[], silent k, by simp⟩
  · have waits := a.sent_modifyLock (l := claim.id)
      (f := fun _ => (a.lock claim.id).enter .waiting) (.nothing rfl rfl rfl rfl) k
    refine (asking_askHolders (w := ⟨claim, mode⟩) _ (.inr ?_)).posted waits
    exact Queues.mem_addWaiting.mpr (.inl rfl)
  · exact ⟨[], .refl _, by simp⟩

/-! ### Asking what is cached -/

/-- A lock is asked once for each of its entries, if whoever has entries is not muted. -/
theorem glimpse_posts (a : Arbiter) (requester : Owner) {k : LockId}
    (heard : ∀ e ∈ a.queues.granted, e.claim.id = k →
      k < a.locks.size ∧ (a.lock k).suppressed = false ∧ (a.lock k).state.leaving = false) :
    (a.lock k).Sent ((a.glimpse requester).1.lock k)
      ((a.queues.peeked requester k).map fun e => .peek (a.lock k) e.mode requester) := by
  unfold glimpse Queues.peeked
  replace heard : ∀ e ∈ a.queues.granted.filter fun e => e.mode.writes && e.claim.owner != requester,
      e.claim.id = k → k < a.locks.size ∧ (a.lock k).suppressed = false ∧
        (a.lock k).state.leaving = false := fun e chosen => heard e (List.mem_of_mem_filter chosen)
  generalize (a.queues.granted.filter _) = holders at heard ⊢
  generalize 0 = n
  induction holders generalizing a n with
  | nil => exact .refl _
  | cons e rest ih =>
    have first := heard e List.mem_cons_self
    rw [List.foldl_cons]
    dsimp only
    split
    · next muted =>
      have other : e.claim.id ≠ k := by
        rintro rfl
        rw [(first rfl).2.1, (first rfl).2.2] at muted
        cases muted
      rw [List.filter_cons_of_neg (by simpa using other)]
      exact ih a (fun x later => heard x (List.mem_cons_of_mem e later)) n
    · have asked := a.sent_notify e.claim.id (.peek (a.lock e.claim.id) e.mode requester) k
      have standing := a.standing_notify e.claim.id (.peek (a.lock e.claim.id) e.mode requester) k
      have size := a.size_notify e.claim.id (.peek (a.lock e.claim.id) e.mode requester)
      generalize a.notify e.claim.id _ = b at asked standing size ⊢
      have state : (b.lock k).state = (a.lock k).state := congrArg Standing.state standing
      have later := ih b (fun x later => by
        rw [size, asked.suppressed, state]
        exact heard x (List.mem_cons_of_mem e later)) (n + 1)
      simp only [asked.peek_eq] at later
      by_cases mine : e.claim.id = k
      · obtain rfl := mine
        rw [if_pos ⟨⟨rfl, (first rfl).1⟩, (first rfl).2.1⟩] at asked
        rw [List.filter_cons_of_pos (by simp), List.map_cons]
        exact asked.trans later
      · rw [if_neg fun all => mine all.1.1] at asked
        rw [List.filter_cons_of_neg (by simpa using mine)]
        exact asked.trans later

end Arbiter
end LockManager
