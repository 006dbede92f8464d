import LockManager.Proofs.Ledger

set_option autoImplicit false

/-!
What deciding on a resource does to the messages of locks: they are put at the end of those there
are, and every lock that was sent some is noted. Nothing is sent to a lock that is suppressed or
leaving.
-/

namespace LockManager
namespace Lock

theorem eq_enter_of_advance {x x' : Lock} {s : LockState} (entered : x.advance? s = some x') :
    x.state.allows s = true ∧ x' = x.enter s := by
  unfold advance? at entered
  split at entered
  · next edge => exact ⟨edge, (Option.some.inj entered).symm⟩
  · cases entered

/-- No messages are handed over any more. -/
def Muted (x : Lock) : Prop := x.suppressed = true ∨ x.state.leaving = true

/-- The lock has been sent messages at most; or those there were are gone, and there will be no
more. -/
structure Receives (x x' : Lock) : Prop where
  scheduled : x'.scheduled = x.scheduled
  muted : x.Muted → x'.Muted
  pending : (∃ more, x'.pending = x.pending ++ more ∧ (more ≠ [] → ¬x.Muted)) ∨
    x'.pending = [] ∧ x'.Muted

namespace Receives

variable {x x' x'' : Lock}

/-- The lock has been sent nothing. -/
theorem nothing (pending : x'.pending = x.pending) (scheduled : x'.scheduled = x.scheduled)
    (muted : x.Muted → x'.Muted) : Receives x x' :=
  ⟨scheduled, muted, .inl ⟨[], pending.trans (List.append_nil _).symm, absurd rfl⟩⟩

theorem refl (x : Lock) : Receives x x := nothing rfl rfl id

theorem trans (first : Receives x x') (second : Receives x' x'') : Receives x x'' := by
  refine ⟨second.scheduled.trans first.scheduled, second.muted ∘ first.muted, ?_⟩
  rcases second.pending with ⟨more, later, open'⟩ | gone
  · rcases first.pending with ⟨before, earlier, opened⟩ | ⟨gone, muted⟩
    · refine .inl ⟨before ++ more, ?_, fun some => ?_⟩
      · rw [later, earlier, List.append_assoc]
      · by_cases none : before = []
        · rw [none, List.nil_append] at some
          exact fun muted => open' some (first.muted muted)
        · exact opened none
    · have none : more = [] := Classical.byContradiction fun some => open' some muted
      exact .inr ⟨by rw [later, gone, none]; rfl, second.muted muted⟩
  · exact .inr gone

theorem enter {s : LockState} (edge : x.state.allows s = true) (stays : s.leaving = false) :
    Receives x (x.enter s) := by
  refine nothing rfl rfl (Or.imp_right fun leaving => ?_)
  rw [LockState.stays_of_allows edge stays] at leaving
  cases leaving

end Receives
end Lock

namespace Arbiter

/-! ### Decisions one after another -/

/-- The relation holds whenever locks are passed over or granted something, and so of any number of
such decisions. Locks that are granted something are told so if `tell`. -/
structure Allots (tell : Bool) (R : Arbiter → Arbiter → Prop) : Prop where
  refl (a : Arbiter) : R a a
  trans {a a' a'' : Arbiter} (first : R a a') (second : R a' a'') : R a a''
  queues (a : Arbiter) (f : Queues → Queues) : R a (a.modifyQueues f)
  pass (a : Arbiter) (l : LockId) : R a (a.modifyLock l Lock.passOver)
  enter {a a' : Arbiter} {l : LockId} {mode : Mode} (entered : a.enter? l mode tell = some a') :
    R a a'

/-- The relation holds of every decision, also when someone is asked to give way. -/
structure Respects (tell : Bool) (R : Arbiter → Arbiter → Prop) : Prop extends Allots tell R where
  ask (a : Arbiter) (claim : Claim) (mode : Mode) (e : Entry) : R a (a.ask claim mode e)

variable {tell : Bool} {R : Arbiter → Arbiter → Prop}

namespace Allots

theorem foldl (r : Allots tell R) {β : Type} {f : Arbiter → β → Arbiter}
    (each : ∀ a x, R a (f a x)) (xs : List β) (a : Arbiter) : R a (xs.foldl f a) := by
  induction xs generalizing a with
  | nil => exact r.refl a
  | cons x xs ih => exact r.trans (each a x) (ih (f a x))

theorem convert (r : Allots tell R) {a a' : Arbiter} {claim : Claim} {mode : Mode}
    (converted : a.convert? claim mode tell = some a') : R a a' := by
  obtain ⟨entered, granted, rfl⟩ := Option.map_eq_some_iff.mp converted
  exact r.trans (r.enter granted) (r.queues ..)

theorem grant (r : Allots tell R) (a : Arbiter) (claim : Claim) (mode : Mode) :
    R a (a.grant claim mode tell) := by
  unfold Arbiter.grant
  split
  · next entered => exact r.trans (r.enter entered) (r.queues ..)
  · exact r.refl a

theorem recordBypass (r : Allots tell R) (a : Arbiter) (claim : Claim) (mode : Mode) :
    R a (a.recordBypass claim mode) :=
  r.foldl (fun a (e : Entry) => r.pass a e.claim.id) _ a

theorem retryConversion (r : Allots true R) (a : Arbiter) (e : Entry) :
    R a (a.retryConversion e) := by
  unfold Arbiter.retryConversion
  split
  · exact r.refl a
  · dsimp only
    have dropped := r.queues a (·.dropConverting e.claim.id)
    generalize a.modifyQueues _ = b at dropped ⊢
    cases converted : b.convert? e.claim e.mode true with
    | none => exact dropped
    | some a' => exact r.trans dropped (r.convert converted)

theorem retryWaiter (r : Allots true R) (a : Arbiter) (e : Entry) : R a (a.retryWaiter e) := by
  unfold Arbiter.retryWaiter
  split
  · exact r.refl a
  · exact r.trans (r.trans (r.queues ..) (r.recordBypass ..)) (r.grant ..)

/-- Looking at a resource again is deciding first, and then asking those who still block someone. -/
theorem reprocess (r : Allots true R) (a : Arbiter) : ∃ b, R a b ∧
    a.reprocess = (b.queues.converting ++ b.queues.waiting).foldl Arbiter.askFor b := by
  have conversions := r.foldl r.retryConversion a.queues.converting a
  unfold Arbiter.reprocess
  dsimp only
  generalize a.queues.converting.foldl Arbiter.retryConversion a = a₁ at conversions ⊢
  have waiters := r.foldl r.retryWaiter a₁.queues.waiting a₁
  exact ⟨_, r.trans conversions waiters, rfl⟩

end Allots

/-- A lock that comes to the resource is granted what it wants, or waits and asks those who block it,
or is not let in. -/
theorem receive_eq (a : Arbiter) (claim : Claim) (mode : Mode) :
    a.receive claim mode = (a.recordBypass claim mode).grant claim mode false ∨
      (a.lock claim.id).state.allows .waiting = true ∧
        a.receive claim mode =
          ((a.modifyLock claim.id fun _ => (a.lock claim.id).enter .waiting).modifyQueues
            (·.addWaiting ⟨claim, mode⟩)).askHolders claim mode ∨
      a.receive claim mode = a := by
  unfold Arbiter.receive
  split
  · exact .inl rfl
  · split
    · next x advanced =>
      obtain ⟨edge, rfl⟩ := Lock.eq_enter_of_advance advanced
      exact .inr (.inl ⟨edge, rfl⟩)
    · exact .inr (.inr rfl)

namespace Respects

theorem askHolders (r : Respects tell R) (a : Arbiter) (claim : Claim) (mode : Mode) :
    R a (a.askHolders claim mode) :=
  r.foldl (fun a (e : Entry) => r.ask a claim mode e) _ a

theorem askFor (r : Respects tell R) (a : Arbiter) (e : Entry) : R a (a.askFor e) := by
  unfold Arbiter.askFor
  split
  · exact r.refl a
  · exact r.askHolders a e.claim e.mode

theorem reprocess (r : Respects true R) (a : Arbiter) : R a a.reprocess := by
  obtain ⟨b, decided, same⟩ := r.toAllots.reprocess a
  rw [same]
  exact r.trans decided (r.foldl r.askFor _ b)

theorem receive (r : Respects false R) (a : Arbiter) (claim : Claim) (mode : Mode)
    (waits : (a.lock claim.id).state.allows .waiting = true →
      R a (a.modifyLock claim.id fun _ => (a.lock claim.id).enter .waiting)) :
    R a (a.receive claim mode) := by
  rcases a.receive_eq claim mode with same | ⟨edge, same⟩ | same <;> rw [same]
  · exact r.trans (r.recordBypass a claim mode) (r.grant ..)
  · exact r.trans (r.trans (waits edge) (r.queues ..)) (r.askHolders ..)
  · exact r.refl a

end Respects

/-! ### Messages -/

/-- Locks have been sent messages, and those that were are noted. Nobody has been suppressed. -/
structure Posts (a a' : Arbiter) : Prop where
  lock : ∀ l, (a.lock l).Receives (a'.lock l)
  suppressed : ∀ l, (a'.lock l).suppressed = (a.lock l).suppressed
  told : ∀ l, (a'.lock l).pending ≠ [] → (a.lock l).pending ≠ [] ∨ l ∈ a'.touched
  touched : ∀ l ∈ a.touched, l ∈ a'.touched

namespace Posts

variable {a a' a'' : Arbiter}

theorem refl (a : Arbiter) : Posts a a :=
  ⟨fun _ => .refl _, fun _ => rfl, fun _ => .inl, fun _ => id⟩

theorem trans (first : Posts a a') (second : Posts a' a'') : Posts a a'' := by
  refine ⟨fun l => (first.lock l).trans (second.lock l),
    fun l => (second.suppressed l).trans (first.suppressed l), fun l some => ?_,
    fun l noted => second.touched l (first.touched l noted)⟩
  rcases second.told l some with before | noted
  · exact (first.told l before).imp_right (second.touched l)
  · exact .inr noted

end Posts

variable (a : Arbiter)

theorem lock_modifyLock (l : LockId) (f : Lock → Lock) (k : LockId) : (a.modifyLock l f).lock k =
    if l = k ∧ l < a.locks.size then f (a.lock k) else a.lock k :=
  Arena.get_modify ..

theorem posts_modifyLock {l : LockId} {f : Lock → Lock}
    (receives : (a.lock l).Receives (f (a.lock l)))
    (suppressed : (f (a.lock l)).suppressed = (a.lock l).suppressed)
    (told : (f (a.lock l)).pending ≠ [] → (a.lock l).pending ≠ []) :
    Posts a (a.modifyLock l f) := by
  refine ⟨fun k => ?_, fun k => ?_, fun k => ?_, fun _ => id⟩ <;> rw [lock_modifyLock]
  · split
    · next here => exact here.1 ▸ receives
    · exact .refl _
  · split
    · next here => exact here.1 ▸ suppressed
    · rfl
  · split
    · next here => exact fun some => .inl (here.1 ▸ told (here.1 ▸ some))
    · exact .inl

/-- A change that has nothing to do with messages. -/
theorem posts_of_nothing {l : LockId} {f : Lock → Lock}
    (pending : (f (a.lock l)).pending = (a.lock l).pending)
    (scheduled : (f (a.lock l)).scheduled = (a.lock l).scheduled)
    (suppressed : (f (a.lock l)).suppressed = (a.lock l).suppressed)
    (muted : (a.lock l).Muted → (f (a.lock l)).Muted) : Posts a (a.modifyLock l f) :=
  a.posts_modifyLock (.nothing pending scheduled muted) suppressed fun some => pending ▸ some

theorem posts_modifyQueues (f : Queues → Queues) : Posts a (a.modifyQueues f) :=
  ⟨fun _ => .refl _, fun _ => rfl, fun _ => .inl, fun _ => id⟩

theorem posts_notify {l : LockId} (n : Notification) (stays : (a.lock l).state.leaving = false) :
    Posts a (a.notify l n) := by
  unfold notify
  split
  · exact .refl a
  · next heard =>
    have lock : ∀ k, (a.modifyLock l (·.push n)).lock k =
        if l = k ∧ l < a.locks.size then (a.lock k).push n else a.lock k :=
      a.lock_modifyLock l (·.push n)
    have noted : l ∈ if l ∈ a.touched then a.touched else a.touched ++ [l] := by
      split
      · assumption
      · exact List.mem_append_right _ (List.mem_singleton_self l)
    refine ⟨fun k => ?_, fun k => ?_, fun k some => ?_, fun k before => ?_⟩
    · refine (lock k).symm ▸ ?_
      split
      · next here =>
        obtain ⟨rfl, -⟩ := here
        refine ⟨rfl, id, .inl ⟨[n], rfl, fun _ muted => ?_⟩⟩
        rcases muted with suppressed | leaving
        · exact heard suppressed
        · rw [stays] at leaving
          cases leaving
      · exact .refl _
    · refine (congrArg Lock.suppressed (lock k)).trans ?_
      split <;> rfl
    · by_cases here : l = k
      · exact .inr (here ▸ noted)
      · have same : (a.modifyLock l (·.push n)).lock k = a.lock k :=
          (lock k).trans (if_neg fun both => here both.1)
        exact .inl (same ▸ some)
    · split
      · exact before
      · exact List.mem_append_left _ before

variable {a} {a' : Arbiter}

theorem posts_enter {l : LockId} {mode : Mode} {tell : Bool}
    (entered : a.enter? l mode tell = some a') : Posts a a' := by
  obtain ⟨x, advanced, rest⟩ := Option.bind_eq_some_iff.mp entered
  obtain ⟨edge, rfl⟩ := Lock.eq_enter_of_advance advanced
  have stays : (a.lock l).state.leaving = false := LockState.stays_of_allows edge rfl
  have lock := a.lock_modifyLock l (fun _ => ((a.lock l).enter .granted).hold mode) l
  have held : Posts a (a.modifyLock l fun _ => ((a.lock l).enter .granted).hold mode) := by
    apply a.posts_modifyLock
    · exact (Lock.Receives.enter edge rfl).trans (.nothing rfl rfl id)
    · rfl
    · exact id
  generalize a.modifyLock l _ = b at rest lock held
  cases tell with
  | true =>
    cases rest
    refine held.trans (b.posts_notify _ ?_)
    rw [lock]
    split
    · rfl
    · exact stays
  | false =>
    cases rest
    exact held

variable (a)

theorem posts_ask (claim : Claim) (mode : Mode) (e : Entry) : Posts a (a.ask claim mode e) := by
  unfold ask
  dsimp only
  split
  · exact .refl a
  · next heard =>
    simp only [Bool.or_eq_true, not_or, Bool.not_eq_true] at heard
    exact (a.posts_notify _ heard.1.2).trans (posts_of_nothing _ rfl rfl rfl id)

theorem posts_respects (tell : Bool) : Respects tell Posts where
  refl := .refl
  trans := .trans
  queues := posts_modifyQueues
  pass a _ := a.posts_of_nothing rfl rfl rfl id
  enter := posts_enter
  ask := posts_ask

theorem posts_receive (claim : Claim) (mode : Mode) : Posts a (a.receive claim mode) :=
  (posts_respects false).receive a claim mode fun edge =>
    a.posts_modifyLock (.enter edge rfl) rfl id

theorem posts_glimpse (requester : Owner) : Posts a (a.glimpse requester).1 := by
  unfold glimpse
  generalize (a.queues.granted.filter _) = holders
  generalize 0 = n
  induction holders generalizing a n with
  | nil => exact .refl a
  | cons e rest ih =>
    rw [List.foldl_cons]
    dsimp only
    split
    · exact ih a n
    · next heard =>
      simp only [Bool.or_eq_true, not_or, Bool.not_eq_true] at heard
      exact (a.posts_notify _ heard.1).trans (ih _ _)

end Arbiter
end LockManager
