import LockManager.Proofs.Arbiter.Asked

set_option autoImplicit false

/-!
What the record of a lock says of requests to give way, while a resource is decided on. A grant wipes it
clean. The requests come after the grants, so that a lock is asked once at most, and only if it has not
been asked since it was last granted something.
-/

namespace LockManager

/-- What the record of a lock says of requests to give way since it was last granted something. -/
structure Summons where
  sent : Bool := false
  sentAt : Option Nat := none
  reported : Bool := false
  deriving DecidableEq, Repr

/-- The messages that ask a lock to give way. -/
def requests (ns : List Notification) : List Notification := ns.filter (·.kind = .blocking)

theorem requests_append (ns ns' : List Notification) :
    requests (ns ++ ns') = requests ns ++ requests ns' :=
  List.filter_append ..

namespace Lock

def summons (x : Lock) : Summons :=
  { sent := x.blockingSent, sentAt := x.blockingSentAt, reported := x.timeoutReported }

/-! ### Grants -/

/-- The lock stands as it did, but for taking its place among those that wait; or it has been granted
something, and its record has been wiped clean. -/
inductive Renews (x x' : Lock) : Prop where
  | still (state : x'.state = x.state ∨ x.state = .enqueued ∧ x'.state = .waiting)
      (wanted : x'.requestedMode = x.requestedMode) (held : x'.grantedMode = x.grantedMode)
      (summons : x'.summons = x.summons)
  | granted {mode : Mode} (edge : x.state.allows .granted = true) (state : x'.state = .granted)
      (wanted : x'.requestedMode = x.requestedMode) (held : x'.grantedMode = some mode)
      (summons : x'.summons = {})

/-- No request to give way is among what the lock has been sent meanwhile. -/
structure Renewed (x x' : Lock) : Prop where
  renews : Renews x x'
  sent : ∃ more, Sent x x' more ∧ requests more = []

variable {x x' x'' : Lock}

theorem Renews.trans (first : Renews x x') (second : Renews x' x'') : Renews x x'' := by
  cases first with
  | still state wanted held summons =>
    cases second with
    | still state' wanted' held' summons' =>
      refine .still ?_ (wanted'.trans wanted) (held'.trans held) (summons'.trans summons)
      rcases state with same | ⟨enqueued, waits⟩
      · rw [← same]
        exact state'
      · rcases state' with same' | ⟨enqueued', -⟩
        · exact .inr ⟨enqueued, same'.trans waits⟩
        · rw [waits] at enqueued'
          cases enqueued'
    | granted edge' state' wanted' held' summons' =>
      refine .granted ?_ state' (wanted'.trans wanted) held' summons'
      rcases state with same | ⟨enqueued, -⟩
      · rw [← same]
        exact edge'
      · rw [enqueued]
        rfl
  | granted edge state wanted held summons =>
    cases second with
    | still state' wanted' held' summons' =>
      refine .granted edge ?_ (wanted'.trans wanted) (held'.trans held) (summons'.trans summons)
      rcases state' with same' | ⟨enqueued, -⟩
      · exact same'.trans state
      · rw [state] at enqueued
        cases enqueued
    | granted edge' _ _ _ _ =>
      rw [state] at edge'
      cases edge'

namespace Renewed

theorem of_still (state : x'.state = x.state ∨ x.state = .enqueued ∧ x'.state = .waiting)
    (wanted : x'.requestedMode = x.requestedMode) (held : x'.grantedMode = x.grantedMode)
    (summons : x'.summons = x.summons) (sent : Sent x x' []) : Renewed x x' :=
  ⟨.still state wanted held summons, [], sent, rfl⟩

theorem refl (x : Lock) : Renewed x x := of_still (.inl rfl) rfl rfl rfl (.refl x)

theorem trans (first : Renewed x x') (second : Renewed x' x'') : Renewed x x'' := by
  obtain ⟨more, sent, none⟩ := first.sent
  obtain ⟨more', sent', none'⟩ := second.sent
  exact ⟨first.renews.trans second.renews, more ++ more', sent.trans sent', by
    rw [requests_append, none, none', List.append_nil]⟩

end Renewed

/-! ### Requests to give way -/

/-- The lock stands as it did. Either its record is as it was and it has been sent no request to give
way; or it had not been asked, and it has been sent one and that has been recorded. -/
inductive Prompts (now : Nat) (x x' : Lock) : List Notification → Prop where
  | spared (summons : x'.summons = x.summons) : Prompts now x x' []
  | asked (fresh : ¬x.Asked) (n : Notification)
      (summons : x'.summons = { x.summons with sent := true, sentAt := some now }) :
      Prompts now x x' [n]

structure Prompted (now : Nat) (x x' : Lock) : Prop where
  standing : x'.standing = x.standing
  sent : ∃ more, Sent x x' more ∧ Prompts now x x' (requests more)

namespace Prompted

variable {now : Nat}

theorem of_spared (standing : x'.standing = x.standing) (summons : x'.summons = x.summons)
    {more : List Notification} (sent : Sent x x' more) (none : requests more = []) :
    Prompted now x x' :=
  ⟨standing, more, sent, none.symm ▸ .spared summons⟩

theorem refl (now : Nat) (x : Lock) : Prompted now x x := of_spared rfl rfl (.refl x) rfl

theorem asked_congr (standing : x'.standing = x.standing) (summons : x'.summons = x.summons)
    {more : List Notification} (sent : Sent x x' more) : x'.Asked ↔ x.Asked := by
  have state : x'.state = x.state := congrArg Standing.state standing
  have flag : x'.blockingSent = x.blockingSent := congrArg Summons.sent summons
  rw [Asked, Asked, Muted, Muted, state, flag, sent.suppressed]

theorem trans (first : Prompted now x x') (second : Prompted now x' x'') : Prompted now x x'' := by
  obtain ⟨standing, more, sent, prompts⟩ := first
  obtain ⟨standing', more', sent', prompts'⟩ := second
  refine ⟨standing'.trans standing, more ++ more', sent.trans sent', ?_⟩
  rw [requests_append]
  generalize requests more = asks at prompts ⊢
  generalize requests more' = asks' at prompts' ⊢
  cases prompts with
  | spared summons =>
    cases prompts' with
    | spared summons' => exact .spared (summons'.trans summons)
    | asked fresh n summons' =>
      exact .asked (fresh ∘ (asked_congr standing summons sent).mpr) n (summons ▸ summons')
  | asked fresh n summons =>
    have sent : x'.blockingSent = true := congrArg Summons.sent summons
    cases prompts' with
    | spared summons' => exact .asked fresh n (summons'.trans summons)
    | asked fresh' _ _ => exact absurd (.inl sent) fresh'

end Prompted

/-- What a decision means for a lock: first it may be granted something, and then be asked to give way. -/
def Undergoes (now : Nat) (x x' : Lock) : Prop := ∃ y, Renewed x y ∧ Prompted now y x'

theorem Renewed.undergone {now : Nat} (first : Renewed x x') (second : Undergoes now x' x'') :
    Undergoes now x x'' := by
  obtain ⟨y, renewed, prompted⟩ := second
  exact ⟨y, first.trans renewed, prompted⟩

end Lock

namespace Arbiter

variable {a a' : Arbiter} {tell : Bool} {k l : LockId} {mode : Mode} {claim : Claim}

theorem now_notify (a : Arbiter) (l : LockId) (n : Notification) : (a.notify l n).now = a.now := by
  unfold notify
  split <;> rfl

/-- Grants, all at one time. -/
structure Renews (a a' : Arbiter) : Prop where
  now : a'.now = a.now
  lock : ∀ k, (a.lock k).Renewed (a'.lock k)

theorem renews_enter (entered : a.enter? l mode tell = some a') : Renews a a' := by
  obtain ⟨edge, known, rfl⟩ := enter?_eq entered
  have granted := a.lock_modifyLock l fun _ => ((a.lock l).enter .granted).hold mode
  have now : (a.modifyLock l fun _ => ((a.lock l).enter .granted).hold mode).now = a.now := rfl
  dsimp only
  generalize a.modifyLock l _ = b at granted now ⊢
  have held (k : LockId) : (a.lock k).Renewed (b.lock k) := by
    rw [granted]
    split
    · next here =>
      obtain ⟨rfl, -⟩ := here
      exact ⟨.granted edge rfl rfl rfl rfl, [], .nothing rfl rfl rfl rfl, rfl⟩
    · exact .refl _
  cases tell with
  | false => exact ⟨now, held⟩
  | true =>
    refine ⟨(b.now_notify ..).trans now, fun k => (held k).trans ?_⟩
    rw [if_pos rfl, lock_notify]
    split
    · exact ⟨.still (.inl rfl) rfl rfl rfl, _, .push _ _, rfl⟩
    · exact .refl _

theorem renews_allots (tell : Bool) : Allots tell Renews where
  refl _ := ⟨rfl, fun _ => .refl _⟩
  trans first second := ⟨second.now.trans first.now, fun k => (first.lock k).trans (second.lock k)⟩
  queues _ _ := ⟨rfl, fun _ => .refl _⟩
  pass a l := by
    refine ⟨rfl, fun k => ?_⟩
    rw [lock_modifyLock]
    split
    · exact .of_still (.inl rfl) rfl rfl rfl (.nothing rfl rfl rfl rfl)
    · exact .refl _
  enter := renews_enter

/-- Requests to give way are all made at one time. -/
structure Prompts (a a' : Arbiter) : Prop where
  now : a'.now = a.now
  lock : ∀ k, (a.lock k).Prompted a.now (a'.lock k)

namespace Prompts

theorem refl (a : Arbiter) : Prompts a a := ⟨rfl, fun _ => .refl _ _⟩

theorem trans {a'' : Arbiter} (first : Prompts a a') (second : Prompts a' a'') : Prompts a a'' :=
  ⟨second.now.trans first.now, fun k => (first.lock k).trans (first.now ▸ second.lock k)⟩

theorem foldl {f : Arbiter → Entry → Arbiter} (each : ∀ a e, Prompts a (f a e)) (es : List Entry)
    (a : Arbiter) : Prompts a (es.foldl f a) := by
  induction es generalizing a with
  | nil => exact refl a
  | cons e es ih => exact (each a e).trans (ih (f a e))

end Prompts

theorem prompts_ask (a : Arbiter) (claim : Claim) (mode : Mode) (e : Entry) :
    Prompts a (a.ask claim mode e) := by
  by_cases asked : (a.lock e.claim.id).Asked
  · rw [ask_of_asked asked]
    exact .refl a
  · refine ⟨?_, fun k => ?_⟩
    · unfold ask
      dsimp only
      split
      · rfl
      · exact a.now_notify ..
    · rw [lock_ask asked]
      split
      · next here =>
        obtain ⟨rfl, -⟩ := here
        exact ⟨rfl, [_], ⟨rfl, rfl, rfl, rfl⟩, .asked asked _ rfl⟩
      · exact .refl _ _

theorem prompts_askHolders (a : Arbiter) (claim : Claim) (mode : Mode) :
    Prompts a (a.askHolders claim mode) :=
  Prompts.foldl (fun b e => b.prompts_ask claim mode e) _ a

theorem prompts_askFor (a : Arbiter) (e : Entry) : Prompts a (a.askFor e) := by
  unfold askFor
  split
  · exact .refl a
  · exact a.prompts_askHolders _ _

theorem prompts_glimpse (a : Arbiter) (requester : Owner) : Prompts a (a.glimpse requester).1 := by
  unfold glimpse
  generalize a.queues.granted.filter _ = holders
  generalize 0 = n
  induction holders generalizing a n with
  | nil => exact .refl a
  | cons e rest ih =>
    rw [List.foldl_cons]
    dsimp only
    split
    · exact ih a n
    · refine Prompts.trans ⟨a.now_notify _ _, fun k => ?_⟩ (ih _ _)
      rw [lock_notify]
      split
      · exact .of_spared rfl rfl (.push _ _) rfl
      · exact .refl _ _

/-! ### Whole decisions -/

theorem undergoes_reprocess (a : Arbiter) (k : LockId) :
    (a.lock k).Undergoes a.now (a.reprocess.lock k) := by
  obtain ⟨b, renews, same⟩ := (renews_allots true).reprocess a
  have prompts := Prompts.foldl prompts_askFor (b.queues.converting ++ b.queues.waiting) b
  rw [← same] at prompts
  exact ⟨b.lock k, renews.lock k, renews.now ▸ prompts.lock k⟩

/-- After a change those who stand in the way are asked. -/
theorem undergoes_askHolders {x : Lock} {now : Nat} (changed : x.Renewed (a.lock k))
    (same : a.now = now) (claim : Claim) (mode : Mode) :
    x.Undergoes now ((a.askHolders claim mode).lock k) :=
  ⟨_, changed, same ▸ (a.prompts_askHolders claim mode).lock k⟩

/-- A lock comes to the resource. -/
theorem undergoes_receive (a : Arbiter) (enqueued : (a.lock claim.id).state = .enqueued)
    (mode : Mode) (k : LockId) : (a.lock k).Undergoes a.now ((a.receive claim mode).lock k) := by
  rcases a.receive_eq claim mode with same | ⟨-, same⟩ | same <;> rw [same]
  · have granted := (renews_allots false).trans ((renews_allots false).recordBypass a claim mode)
      ((renews_allots false).grant _ claim mode)
    exact ⟨_, granted.lock k, .refl _ _⟩
  · have waits : (a.lock k).Renewed
        ((a.modifyLock claim.id fun _ => (a.lock claim.id).enter .waiting).lock k) := by
      rw [lock_modifyLock]
      split
      · next here =>
        obtain ⟨rfl, -⟩ := here
        exact .of_still (.inr ⟨enqueued, rfl⟩) rfl rfl rfl (.nothing rfl rfl rfl rfl)
      · exact .refl _
    exact undergoes_askHolders (a := (a.modifyLock _ _).modifyQueues _) waits rfl claim mode
  · exact ⟨_, .refl _, .refl _ _⟩

end Arbiter
end LockManager
