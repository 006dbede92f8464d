import LockManager.Proofs.Namespace.Bystanders
import LockManager.Proofs.System.Events

set_option autoImplicit false

/-!
Whom a peer can reach. What it asks for deals with a lock of its own or makes it one. If queues are
looked at again for that, locks of others may come to what they waited for.
-/

namespace LockManager

namespace Lock

/-- The lock stands as it did, or has been granted the mode that it waited for. -/
inductive Fares (x x' : Lock) : Prop where
  | still (state : x'.state = x.state) (held : x'.grantedMode = x.grantedMode)
  | served (waited : x.state = .waiting ∨ x.state = .converting) (granted : x'.state = .granted)
      (held : x'.grantedMode = some x.requestedMode)

/-- The lock is whose it was and where it was, and wants what it wanted. -/
structure LeftAlone (x x' : Lock) : Prop where
  claim : x'.claim = x.claim
  resource : x'.resource = x.resource
  key : x'.key = x.key
  wanted : x'.requestedMode = x.requestedMode
  fares : x.Fares x'

end Lock

/-- The handle that a request names. -/
def Request.handle? : Request → Option Handle
  | .convert h _ | .cancel h => some h
  | .enqueue .. | .glimpse _ => none

theorem Request.ordinary (req : Request) (peer : Owner) : (req.operation peer).Ordinary := by
  cases req <;> exact trivial

namespace Namespace

variable {ns ns' : Namespace} {peer : Owner} {req : Request} {h : Handle} {k l : LockId}

theorem Bystands.leftAlone (bystands : Bystands ns ns' k) (calm : ns.Calm) (calm' : ns'.Calm)
    (alive : ns.Alive k) (alive' : ns'.Alive k) : (ns.lock k).LeftAlone (ns'.lock k) := by
  obtain ⟨stays, served⟩ := bystands
  have resource : (ns'.lock k).resource = (ns.lock k).resource := stays.resource
  have key : (ns'.lock k).key = (ns.lock k).key := stays.key
  cases served with
  | still claim standing =>
    refine ⟨claim, resource, key, congrArg Standing.wanted standing, .still ?_ ?_⟩
    · exact congrArg Standing.state standing
    · exact congrArg Standing.held standing
  | granted claim edge standing =>
    have wanted : (ns'.lock k).requestedMode = (ns.lock k).requestedMode :=
      congrArg Standing.wanted standing
    have granted : (ns'.lock k).state = .granted := congrArg Standing.state standing
    refine ⟨claim, resource, key, wanted, .served ?_ granted ?_⟩
    · cases calm.settled alive with
      | new state | granted state => simp [state, LockState.allows] at edge
      | waiting state => exact .inl state
      | converting state => exact .inr state
    · rw [(calm'.settled alive').holds granted, wanted]

/-! ### Whose locks -/

/-- What has been done is of no consequence, or a lock of `peer` has been dealt with, or one has been
made for it. -/
inductive DoneFor (ns : Namespace) (peer : Owner) (ns' : Namespace) : Prop where
  | nothing (alike : Alike ns ns')
  | own {l : LockId} (mine : (ns.lock l).claim.owner = peer) (confined : Confined ns l ns')
  | made {req : LockRequest} (mine : req.owner = peer)
      (confined : Confined (ns.addLock req).2 ns.locks.size ns')

/-- A lock of somebody else is left to them. -/
theorem operationOf_foreign (names : req.handle? = some h) (found : ns.lookup h = .ok l)
    (other : (ns.lock l).claim.owner ≠ peer) : ns.operationOf peer req = .error (.notOwner h peer) := by
  have refused (stale : Bool) : ns.checkOwner peer h stale = .error (.notOwner h peer) := by
    unfold checkOwner
    rw [found]
    exact if_neg other
  cases req with
  | convert h' mode =>
    obtain rfl := Option.some.inj names
    exact congrArg (Except.map _) (refused false)
  | cancel h' =>
    obtain rfl := Option.some.inj names
    exact congrArg (Except.map _) (refused true)
  | enqueue | glimpse => cases names

theorem owner_of_operationOf {op : Operation} (asked : ns.operationOf peer req = .ok op)
    (names : req.handle? = some h) (found : ns.lookup h = .ok l) :
    (ns.lock l).claim.owner = peer := by
  by_contra other
  rw [operationOf_foreign names found other] at asked
  cases asked

theorem handle_foreign {bytes : Bytes} (read : Request.decode? bytes = some req)
    (names : req.handle? = some h) (found : ns.lookup h = .ok l)
    (other : (ns.lock l).claim.owner ≠ peer) :
    ns.handle peer bytes = ((Response.ofError (.notOwner h peer)).encode, ns) := by
  unfold Namespace.handle serve
  simp only [read, operationOf_foreign names found other]

theorem Calm.doneFor_serve (calm : ns.Calm) (peer : Owner) (req : Request) :
    DoneFor ns peer (ns.serve peer req).2 := by
  unfold serve
  cases asked : ns.operationOf peer req with
  | error e => exact .nothing (.refl ns)
  | ok op =>
    obtain rfl := operationOf_ok asked
    cases req with
    | enqueue key mode policy clientSeq =>
      rcases calm.confined_enqueue { key, mode, policy, owner := peer, clientSeq } with
        same | confined
      · exact .nothing (same.symm ▸ .refl ns)
      · exact .made rfl confined
    | convert h mode =>
      rcases calm.confined_convert h mode with same | ⟨l, found, confined⟩
      · exact .nothing (same.symm ▸ .refl ns)
      · exact .own (owner_of_operationOf asked rfl found) confined
    | cancel h =>
      rcases calm.confined_cancel h with same | ⟨l, found, confined⟩
      · exact .nothing (same.symm ▸ .refl ns)
      · exact .own (owner_of_operationOf asked rfl found) confined
    | glimpse key => exact .nothing (calm.sound.alike_glimpse key peer)

theorem Calm.doneFor_handle (calm : ns.Calm) (peer : Owner) (bytes : Bytes) :
    DoneFor ns peer (ns.handle peer bytes).2 := by
  unfold Namespace.handle
  cases Request.decode? bytes with
  | none => exact .nothing (.refl ns)
  | some req => exact calm.doneFor_serve peer req

namespace DoneFor

theorem bystands (done : DoneFor ns peer ns') (known : k < ns.locks.size)
    (other : (ns.lock k).claim.owner ≠ peer) : Bystands ns ns' k := by
  cases done with
  | nothing alike => exact .of_outline (alike.lock k)
  | @own l mine confined =>
    apply confined.others k
    rintro rfl
    exact other mine
  | @made req mine confined =>
    have before : Bystands ns (ns.addLock req).2 k := .of_eq (lock_addLock_of_lt known req)
    exact before.trans (confined.others k (Nat.ne_of_lt known))

theorem grown (done : DoneFor ns peer ns') : ns.locks.size ≤ ns'.locks.size := by
  cases done with
  | nothing alike => exact alike.size.ge
  | own mine confined => exact confined.size.ge
  | @made req mine confined =>
    rw [confined.size, size_addLock]
    exact Nat.le_succ _

theorem leftAlone (done : DoneFor ns peer ns') (calm : ns.Calm) (calm' : ns'.Calm)
    (alive : ns.Alive k) (other : (ns.lock k).claim.owner ≠ peer) :
    ns'.Alive k ∧ (ns.lock k).LeftAlone (ns'.lock k) ∧
      (ns'.Room → ns'.lookup (ns.lock k).handle = .ok k) := by
  have bystands := done.bystands alive.1 other
  have alive' : ns'.Alive k :=
    ⟨alive.1.trans_le done.grown, bystands.stays.retired.trans alive.2⟩
  have left := bystands.leftAlone calm calm' alive alive'
  have handle : (ns'.lock k).handle = (ns.lock k).handle := congrArg Claim.handle left.claim
  exact ⟨alive', left, fun room => handle ▸ calm'.sound.lookup_handle room alive'⟩

/-- A lock is alive if it was before, or it has been made since. -/
theorem alive_or_made (done : DoneFor ns peer ns') (alive : ns'.Alive k) :
    ns.Alive k ∨ ns.locks.size ≤ k := by
  by_cases known : k < ns.locks.size
  · refine .inl ⟨known, Bool.eq_false_iff.mpr fun gone => Bool.eq_false_iff.mp alive.2 ?_⟩
    cases done with
    | nothing alike => exact (congrArg Lock.retired (alike.lock k) :).trans gone
    | own mine confined => exact confined.gone k gone
    | @made req mine confined =>
      refine confined.gone k ?_
      rwa [lock_addLock_of_lt known req]
  · exact .inr (Nat.le_of_not_lt known)

theorem owner_of_made (done : DoneFor ns peer ns') (made : ns.locks.size ≤ k)
    (known : k < ns'.locks.size) : (ns'.lock k).claim.owner = peer := by
  cases done with
  | nothing alike => exact absurd (known.trans_eq alike.size) (Nat.not_lt_of_le made)
  | own mine confined => exact absurd (known.trans_eq confined.size) (Nat.not_lt_of_le made)
  | @made req mine confined =>
    rw [confined.size, size_addLock] at known
    obtain rfl : k = ns.locks.size := Nat.le_antisymm (Nat.le_of_lt_succ known) made
    rw [confined.claim, lock_addLock, if_pos rfl]
    exact mine

end DoneFor
end Namespace

namespace System

variable {config : Config} {s : System}

/-- What a peer asks for leaves a quiet system quiet. -/
theorem Reachable.calm_handle (reachable : Reachable config s) (quiet : s.quiet = true)
    (peer : Owner) (bytes : Bytes) : (s.space.handle peer bytes).2.Calm := by
  have calm := reachable.calm quiet
  unfold Namespace.handle
  cases Request.decode? bytes with
  | none => exact calm
  | some req =>
    dsimp only
    unfold Namespace.serve
    cases asked : s.space.operationOf peer req with
    | error e => exact calm
    | ok op =>
      obtain rfl := Namespace.operationOf_ok asked
      have ordinary := req.ordinary peer
      obtain ⟨t, carries⟩ := exists_carries reachable quiet ordinary
      have space := carries.space reachable quiet ordinary
      obtain ⟨ended, moves, -, rfl⟩ := carries
      have run : s.Reaches ((s.start (req.operation peer)).follow moves) :=
        (Reaches.single (.start s _)).trans (reaches_follow _ moves)
      dsimp only
      rw [← space]
      exact (reachable.reaches run).calm ended

/-- With no operation in progress, whatever a peer sends leaves every live lock of others live and
under its handle, as it was but for being granted what it waited for. A lock that is made for it is the
peer's, and none comes back. If the peer asks to convert or to cancel the lock of somebody else, it is
told that it is not the owner, and nothing is done. -/
theorem own_locks_only (reachable : Reachable config s) (quiet : s.quiet = true) (peer : Owner)
    (bytes : Bytes) :
    let ns := s.space
    let ns' := (ns.handle peer bytes).2
    (∀ l, ns.Alive l → (ns.lock l).claim.owner ≠ peer →
      ns'.Alive l ∧ (ns.lock l).LeftAlone (ns'.lock l) ∧
        (ns'.Room → ns'.lookup (ns.lock l).handle = .ok l)) ∧
    (∀ l, ns'.Alive l → ns.Alive l ∨ ns.locks.size ≤ l) ∧
    (∀ l, ns.locks.size ≤ l → l < ns'.locks.size → (ns'.lock l).claim.owner = peer) ∧
    ∀ req h l, Request.decode? bytes = some req → req.handle? = some h → ns.lookup h = .ok l →
      (ns.lock l).claim.owner ≠ peer →
        ns.handle peer bytes = ((Response.ofError (.notOwner h peer)).encode, ns) := by
  intro ns ns'
  have calm := reachable.calm quiet
  have calm' : ns'.Calm := reachable.calm_handle quiet peer bytes
  have done : ns.DoneFor peer ns' := calm.doneFor_handle peer bytes
  exact ⟨fun l alive other => done.leftAlone calm calm' alive other, fun l => done.alive_or_made,
    fun l => done.owner_of_made,
    fun req h l read names found other => Namespace.handle_foreign read names found other⟩

/-- A writer, and a reader of somebody else's that waits for it to go. -/
def readerWaiting : System :=
  (fresh {}).follow
    (Move.through (.enqueue { key := ⟨1, 0⟩, mode := .exclusive, owner := ⟨"a"⟩ }) 0 ++
      Move.through (.enqueue { key := ⟨1, 0⟩, mode := .protectedRead, owner := ⟨"b"⟩ }) 1)

/-- The writer cancels its own lock, so the reader is served. It cannot cancel the reader's. -/
theorem own_locks_only_reader :
    let ns := readerWaiting.space
    let canceled := (ns.handle ⟨"a"⟩ (Request.cancel (ns.lock 0).handle).encode).2
    (¬canceled.Alive 0 ∧ canceled.Alive 1 ∧ (ns.lock 1).LeftAlone (canceled.lock 1) ∧
        (ns.lock 1).state = .waiting ∧ (canceled.lock 1).state = .granted) ∧
      ns.handle ⟨"a"⟩ (Request.cancel (ns.lock 1).handle).encode =
        ((Response.ofError (.notOwner (ns.lock 1).handle ⟨"a"⟩)).encode, ns) := by
  intro ns canceled
  have reachable : Reachable {} readerWaiting := reachable_follow rfl _
  have quiet : readerWaiting.quiet = true := by decide +kernel
  have foreign : (ns.lock 1).claim.owner ≠ ⟨"a"⟩ := by decide +kernel
  obtain ⟨others, -⟩ := own_locks_only reachable quiet ⟨"a"⟩ (Request.cancel (ns.lock 0).handle).encode
  obtain ⟨alive, left, -⟩ := others 1 (by constructor <;> decide +kernel) foreign
  obtain ⟨-, -, -, refused⟩ :=
    own_locks_only reachable quiet ⟨"a"⟩ (Request.cancel (ns.lock 1).handle).encode
  refine ⟨⟨?_, alive, left, by decide +kernel, by decide +kernel⟩, ?_⟩
  · rintro ⟨-, stays⟩
    have gone : (canceled.lock 0).retired = true := by decide +kernel
    rw [gone] at stays
    cases stays
  · exact refused (.cancel (ns.lock 1).handle) _ 1 (by decide +kernel) rfl (by decide +kernel) foreign

end System
end LockManager
