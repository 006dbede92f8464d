import LockManager.Proofs.Mirror

set_option autoImplicit false

/-!
What clients do with a server: they ask for locks, convert and cancel them, and read what they have been
sent. A client that has read every completion for a lock before it asks for another mode stays in step.
-/

namespace LockManager

/-! ### Requests -/

namespace Namespace

variable {ns ns' : Namespace} {l : LockId}

namespace Resting

theorem checkOwner_alive (rest : ns.Resting) (alive : ns.Alive l) (stale : Bool) :
    ns.checkOwner (ns.lock l).claim.owner (ns.lock l).handle stale = .ok () := by
  unfold checkOwner
  rw [rest.lookup alive]
  exact if_pos rfl

theorem serve_convert (rest : ns.Resting) (alive : ns.Alive l) (mode : Mode) :
    ns.serve (ns.lock l).claim.owner (.convert (ns.lock l).handle mode) =
      (.ofOutcome ((ns.convert (ns.lock l).handle mode).1.map .converted),
        (ns.convert (ns.lock l).handle mode).2) := by
  have asked : ns.operationOf (ns.lock l).claim.owner (.convert (ns.lock l).handle mode) =
      .ok (.convert (ns.lock l).handle mode) :=
    congrArg (Except.map _) (rest.checkOwner_alive alive false)
  unfold serve
  rw [asked]
  rfl

theorem serve_cancel (rest : ns.Resting) (alive : ns.Alive l) :
    ns.serve (ns.lock l).claim.owner (.cancel (ns.lock l).handle) =
      (.canceled .canceled, ns.cancelLock l) := by
  have asked : ns.operationOf (ns.lock l).claim.owner (.cancel (ns.lock l).handle) =
      .ok (.cancel (ns.lock l).handle) :=
    congrArg (Except.map _) (rest.checkOwner_alive alive true)
  unfold serve
  rw [asked]
  unfold perform
  dsimp only
  rw [rest.cancel alive]
  rfl

/-- Nothing is done to a lock that is not there. -/
theorem serve_gone (rest : ns.Resting) {h : Handle} (gone : ns.handles.get? h = none)
    (peer : Owner) (mode : Mode) :
    (∃ e, ns.serve peer (.convert h mode) = (.ofError e, ns)) ∧
      (ns.serve peer (.cancel h)).2 = ns := by
  have unknown (stale : Bool) : ns.checkOwner peer h stale =
      if stale then .ok () else .error (.invalidHandle h) := by
    unfold checkOwner Namespace.lookup
    rw [gone]
  have refused : ns.operationOf peer (.convert h mode) = .error (.invalidHandle h) :=
    congrArg (Except.map _) (unknown false)
  have asked : ns.operationOf peer (.cancel h) = .ok (.cancel h) :=
    congrArg (Except.map _) (unknown true)
  constructor
  · unfold serve
    rw [refused]
    exact ⟨_, rfl⟩
  · unfold serve
    rw [asked]
    exact rest.cancel_gone gone

/-- A numbered request that has not been made before makes a lock that is granted or waits. -/
theorem serve_enqueue (rest : ns.Resting) (running : ns.stopping = false) (fresh : ns.Fresh)
    {peer : Owner} {seq : UInt64} (named : peer.name.isEmpty = false)
    (first : ns.replays.get? (peer, seq) = none) (key : Key) (mode : Mode) : ∃ ns' standing,
      ns.serve peer (.enqueue key mode .plain (some seq)) =
        (.enqueued (ns'.reply ns.locks.size), ns') ∧
      Enrols ns { key, mode, owner := peer, clientSeq := some seq } standing ns' ∧
      (standing = ⟨.granted, mode, some mode⟩ ∨ standing = ⟨.waiting, mode, none⟩) := by
  have new : ns.replayOf? { key, mode, owner := peer, clientSeq := some seq } = none := by
    unfold replayOf?
    simp [first]
  obtain ⟨ns', standing, done, enrols, outcome⟩ :=
    rest.enqueue running fresh rfl named new
  refine ⟨ns', standing, ?_, enrols, outcome⟩
  unfold serve operationOf perform
  dsimp only
  rw [done]
  rfl

end Resting

/-- A lock had the handle and is done with. -/
def Gone (ns : Namespace) (h : Handle) : Prop :=
  ∃ l < ns.locks.size, (ns.lock l).handle = h ∧ (ns.lock l).retired = true

theorem Gone.deals {h : Handle} (gone : ns.Gone h) (deals : Deals ns l ns') (alive : ns.Alive l) :
    ns'.Gone h := by
  obtain ⟨k, known, named, retired⟩ := gone
  have other : k ≠ l := by
    rintro rfl
    rw [alive.2] at retired
    cases retired
  exact ⟨k, Nat.lt_of_lt_of_eq known deals.size.symm,
    (congrArg Claim.handle (deals.claim k)).trans named, (deals.spared k other).retired.trans retired⟩

theorem Gone.adds {h : Handle} (gone : ns.Gone h) {req : LockRequest} (adds : Adds ns req ns') :
    ns'.Gone h := by
  obtain ⟨k, known, named, retired⟩ := gone
  refine ⟨k, adds.size ▸ Nat.lt_succ_of_lt known, ?_⟩
  rw [adds.old k known]
  exact ⟨named, retired⟩

theorem Resting.get?_of_gone (rest : ns.Resting) {h : Handle} (gone : ns.Gone h) :
    ns.handles.get? h = none := by
  obtain ⟨k, known, rfl, retired⟩ := gone
  exact rest.get?_of_retired known retired

end Namespace

namespace Client

open Namespace (Adds Deals Puts Spared)

variable {x x' : Client} {server server' : Namespace} {a b : LockId} {h : Handle}

/-! ### Own locks -/

namespace Orderly

/-- A new own lock is granted what it wants if the other own locks go with that. -/
theorem enqueueLock (orderly : x.Orderly) (alive : x.space.Alive a)
    (new : (x.space.lock a).state = .new)
    (beside : ∀ k, k ≠ a → x.space.Alive k → (x.space.lock k).key = (x.space.lock a).key →
      ∀ m, (x.space.lock k).grantedMode = some m →
        m.compatible (x.space.lock a).requestedMode = true) :
    ∃ space, x.space.enqueueLock (x.space.lock a).handle = (.ok (space.reply a), space) ∧
      Puts x.space a
        ⟨.granted, (x.space.lock a).requestedMode, some (x.space.lock a).requestedMode⟩ space := by
  obtain ⟨space, standing, done, puts, rfl | ⟨-, refused⟩⟩ :=
    orderly.resting.enqueueLock alive new orderly.running
  · exact ⟨space, done, puts⟩
  · exact absurd (orderly.resting.admits alive orderly.simple beside) refused

/-- A granted own lock is converted at once if the other own locks go with the mode. -/
theorem convert (orderly : x.Orderly) (alive : x.space.Alive a)
    (granted : (x.space.lock a).state = .granted) {mode : Mode}
    (beside : ∀ k, k ≠ a → x.space.Alive k → (x.space.lock k).key = (x.space.lock a).key →
      ∀ m, (x.space.lock k).grantedMode = some m → m.compatible mode = true) :
    ∃ space, x.space.convert (x.space.lock a).handle mode = (.ok .granted, space) ∧
      Puts x.space a ⟨.granted, mode, some mode⟩ space := by
  have holds := (orderly.resting.settled alive).holds granted
  have standing : (x.space.lock a).standing =
      ⟨.granted, (x.space.lock a).requestedMode, some (x.space.lock a).requestedMode⟩ := by
    unfold Lock.standing
    rw [granted, holds]
  rcases orderly.resting.convert alive orderly.running standing mode with
    ⟨rfl, done⟩ | ⟨space, ⟨done, puts⟩ | ⟨-, -, e, inside, other, refuses⟩⟩
  · exact ⟨x.space, done, standing ▸ .refl orderly.resting alive⟩
  · exact ⟨space, done, puts⟩
  · have room := (orderly.resting.admits alive orderly.simple beside).1 e inside other
    rw [refuses] at room
    cases room

end Orderly

/-! ### Getting on -/

/-- A client has done something with the server, on its own behalf. -/
structure Did (x : Client) (server : Namespace) (x' : Client) (server' : Namespace) : Prop where
  mirrors : x'.Mirrors server'
  serving : server'.Serving
  owner : x'.owner = x.owner
  inbox : ∀ n ∈ x'.inbox, n ∈ x.inbox
  paired : ∀ h g, x.pairs.get? h = some g →
    x'.pairs.get? h = some g ∨ server'.Gone h ∧ x'.space.Gone g
  gone : ∀ h, x.space.Gone h → x'.space.Gone h
  gone' : ∀ h, server.Gone h → server'.Gone h
  others : ∀ b, server.Alive b → (server.lock b).claim.owner ≠ x.owner → Spared server server' b
  claims : ∀ b < server.locks.size,
    b < server'.locks.size ∧ (server'.lock b).claim = (server.lock b).claim
  deliveries : server'.dispatcher.deliveries = server.dispatcher.deliveries
  grown : x.space.locks.size ≤ x'.space.locks.size
  replays : ∀ k h, server'.replays.get? k = some h → server.replays.get? k = some h ∨
    k.1 = x.owner ∧ ∃ a < x'.space.locks.size, k.2 = UInt64.ofNat (a + 1)

/-- What becomes of the pairs of a client that has done something with the server, of the locks that have
gone, and of what is answered again. -/
structure Proceeds (x : Client) (server : Namespace) (x' : Client) (server' : Namespace) : Prop where
  owner : x'.owner = x.owner
  paired : ∀ h g, x.pairs.get? h = some g →
    x'.pairs.get? h = some g ∨ server'.Gone h ∧ x'.space.Gone g
  gone : ∀ h, x.space.Gone h → x'.space.Gone h
  gone' : ∀ h, server.Gone h → server'.Gone h
  grown : x.space.locks.size ≤ x'.space.locks.size
  replays : ∀ k h, server'.replays.get? k = some h → server.replays.get? k = some h ∨
    k.1 = x.owner ∧ ∃ a < x'.space.locks.size, k.2 = UInt64.ofNat (a + 1)

theorem Did.proceeds (did : Did x server x' server') : Proceeds x server x' server' :=
  ⟨did.owner, did.paired, did.gone, did.gone', did.grown, did.replays⟩

theorem Did.larger (did : Did x server x' server') : server.locks.size ≤ server'.locks.size := by
  by_contra less
  exact Nat.lt_irrefl _ (did.claims server'.locks.size (Nat.lt_of_not_le less)).1

theorem Did.of_same (mirrors : x'.Mirrors server) (serving : server.Serving)
    (owner : x'.owner = x.owner) (inbox : ∀ n ∈ x'.inbox, n ∈ x.inbox)
    (paired : ∀ h g, x.pairs.get? h = some g → x'.pairs.get? h = some g)
    (space : x'.space = x.space) : Did x server x' server := by
  refine ⟨mirrors, serving, owner, inbox, fun h g found => .inl (paired h g found), fun h => ?_,
    fun _ => id, fun _ _ _ => .of_eq rfl, fun _ known => ⟨known, rfl⟩, rfl, ?_, fun _ _ => .inl⟩
  · rw [space]
    exact id
  · rw [space]

theorem Did.refl (mirrors : x.Mirrors server) (serving : server.Serving) : Did x server x server :=
  .of_same mirrors serving rfl (fun _ => id) (fun _ _ => id) rfl

/-- Client and server have dealt with a lock and its follower. -/
theorem Did.of_deals (linked : x.Linked server a b) (own : Deals x.space a x'.space)
    (remote : Deals server b server') (mirrors : x'.Mirrors server') (serving : server'.Serving)
    (owner : x'.owner = x.owner) (inbox : ∀ n ∈ x'.inbox, n ∈ x.inbox)
    (paired : ∀ h g, x.pairs.get? h = some g →
      x'.pairs.get? h = some g ∨ server'.Gone h ∧ x'.space.Gone g) : Did x server x' server' := by
  refine ⟨mirrors, serving, owner, inbox, paired, fun h gone => gone.deals own linked.own,
    fun h gone => gone.deals remote linked.remote, fun k _ other => remote.spared k ?_,
    fun k known => ⟨Nat.lt_of_lt_of_eq known remote.size.symm, remote.claim k⟩,
    remote.steady.deliveries, Nat.le_of_eq own.size.symm, fun k h found => ?_⟩
  · rintro rfl
    exact other linked.owner
  · exact .inl (remote.replays k h found)

namespace Mirrors

/-- The own lock and the server's lock of a pair are in no other. -/
theorem together (mirrors : x.Mirrors server) (alive : x.space.Alive a)
    (paired : x.pairs.get? h = some (x.space.lock a).handle) (h' : Handle) (k : LockId)
    (known : x.space.Alive k) (paired' : x.pairs.get? h' = some (x.space.lock k).handle) :
    k = a ↔ h' = h := by
  constructor
  · rintro rfl
    exact mirrors.once h' h _ paired' paired
  · rintro rfl
    rw [paired, Option.some.injEq] at paired'
    exact (mirrors.orderly.resting.distinct a k alive.1 known.1 paired').symm

end Mirrors

/-- One pair has been dealt with on both sides. -/
theorem Exchange.of_deals (mirrors : x.Mirrors server) (linked : x.Linked server a b)
    (paired : x.pairs.get? (server.lock b).handle = some (x.space.lock a).handle)
    (own : Deals x.space a x'.space) (remote : Deals server b server') (owner : x'.owner = x.owner)
    (inbox : ∀ n : Notification, n.handle ≠ (server.lock b).handle → (n ∈ x'.inbox ↔ n ∈ x.inbox))
    (pairs : ∀ h, h ≠ (server.lock b).handle → x'.pairs.get? h = x.pairs.get? h) :
    Exchange x x' server server' a (server.lock b).handle := by
  refine ⟨owner, fun k other _ => own.spared k other, fun k other alive => ⟨own.size ▸ alive.1, ?_⟩,
    Nat.le_of_eq own.size.symm, fun k _ other => remote.spared k ?_, Nat.le_of_eq remote.size.symm,
    remote.steady.deliveries, inbox, pairs, mirrors.together linked.own paired⟩
  · exact (own.spared k other).retired.symm.trans alive.2
  · rintro rfl
    exact other rfl

/-- The own lock has been granted a mode that the server's lock covers. -/
theorem Linked.settle (linked : x.Linked server a b) {mode s : Mode}
    (own : Puts x.space a ⟨.granted, mode, some mode⟩ x'.space) (remote : Deals server b server')
    (alive : server'.Alive b) (key : (server'.lock b).key = (server.lock b).key)
    (owner : x'.owner = x.owner) (held : (server'.lock b).grantedMode = some s)
    (covers : s.Covers mode)
    (told : ∀ m ∈ x'.unread server' (server'.lock b).handle, s.Covers m) : x'.Linked server' a b := by
  refine ⟨own.alive, alive, ?_, ?_, ?_⟩
  · rw [remote.claim, linked.owner, owner]
  · rw [own.key, linked.key, key]
  · rw [own.standing]
    refine ⟨fun m same => ⟨s, held, ?_⟩, fun m heard => ⟨s, held, told m heard⟩, nofun⟩
    exact Option.some.inj same ▸ covers

end Client
end LockManager
