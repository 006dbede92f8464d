import LockManager.Client
import LockManager.Proofs.MutualExclusion
import LockManager.Proofs.Namespace.Operations

set_option autoImplicit false

/-!
A client's own locks and the locks of the server that they follow. An own lock holds no mode that is
not covered by the mode of its lock on the server, and no completion on its way tells of one. So own
locks go together because the locks of the server do.
-/

namespace LockManager

/-- What has been sent to the owner of the lock under `h` and has not come to it. -/
def Namespace.underway (ns : Namespace) (h : Handle) : List Notification :=
  ns.dispatcher.deliveries.map (·.notification) ++
    (ns.handles.get? h).toList.flatMap fun l => (ns.lock l).pending

/-- The modes told of by those completions for the lock under `h` that the client has not read. -/
def Client.unread (x : Client) (server : Namespace) (h : Handle) : List Mode :=
  completions ((x.inbox ++ server.underway h).filter (·.handle = h))

theorem mem_completions {ns : List Notification} {mode : Mode} :
    mode ∈ completions ns ↔ ∃ n ∈ ns, n.kind = .completion ∧ n.mode = mode := by
  simp only [completions, List.mem_filterMap, Option.ite_none_right_eq_some, Option.some.injEq]

theorem Client.mem_unread {x : Client} {server : Namespace} {h : Handle} {mode : Mode} :
    mode ∈ x.unread server h ↔ ∃ n, (n ∈ x.inbox ∨ n ∈ server.underway h) ∧ n.handle = h ∧
      n.kind = .completion ∧ n.mode = mode := by
  simp only [unread, mem_completions, List.mem_filter, List.mem_append, decide_eq_true_eq, and_assoc]

/-! ### One lock and its follower -/

/-- An own lock and the lock on the server that it follows, with the modes that completions not yet
read tell of. The server's lock covers all of them. -/
structure Backed (own remote : Standing) (news : List Mode) : Prop where
  held : ∀ m, own.held = some m → ∃ s, remote.held = some s ∧ s.Covers m
  told : ∀ m ∈ news, ∃ s, remote.held = some s ∧ s.Covers m
  /-- An own lock that is new waits like the server's lock, or is about to learn of its grant. -/
  new : own.state = .new → remote = ⟨.waiting, own.wanted, none⟩ ∨ ∃ m ∈ news, m.Covers own.wanted

/-- A lock of the server that is asked for as clients do, and told of what becomes of it. -/
structure Lock.Regular (x : Lock) : Prop where
  heard : x.suppressed = false
  mine : ∀ n ∈ x.pending, n.handle = x.handle
  plain : x.claim.policy = .plain
  /-- A pending conversion is to a mode that covers the one held. -/
  upward : x.state = .converting → ∀ m, x.grantedMode = some m → x.requestedMode.Covers m

namespace Lock.Regular

variable {x x' : Lock}

/-- What has been asked of the lock is upward. -/
theorem hears (regular : x.Regular) {modes : List Mode} (hears : x.Hears x' modes)
    (upward : x'.state = .converting → ∀ m, x'.grantedMode = some m → x'.requestedMode.Covers m) :
    x'.Regular := by
  obtain ⟨more, later, mine, -⟩ := hears.pending regular.heard
  have handle : x'.handle = x.handle := congrArg Claim.handle hears.claim
  refine ⟨hears.suppressed.trans regular.heard, fun n sent => ?_, ?_, upward⟩
  · rw [handle]
    rcases List.mem_append.mp (later ▸ sent) with old | new
    · exact regular.mine n old
    · exact mine n new
  · rw [hears.claim]
    exact regular.plain

theorem served (regular : x.Regular) (served : x.Served True x') : x'.Regular := by
  cases served with
  | still _ standing hears =>
    refine regular.hears (hears trivial) fun state m holds => ?_
    rw [show x'.requestedMode = x.requestedMode from congrArg Standing.wanted standing]
    exact regular.upward ((congrArg Standing.state standing).symm.trans state) m
      ((congrArg Standing.held standing).symm.trans holds)
  | granted _ _ standing hears =>
    refine regular.hears (hears trivial) fun state => ?_
    rw [show x'.state = .granted from congrArg Standing.state standing] at state
    cases state

end Lock.Regular

namespace Backed

variable {own : Standing} {x x' : Lock} {news : List Mode}

theorem congr {remote : Standing} {news' : List Mode} (backed : Backed own remote news)
    (same : ∀ m, m ∈ news' ↔ m ∈ news) : Backed own remote news' := by
  refine ⟨backed.held, fun m heard => backed.told m ((same m).mp heard), fun new => ?_⟩
  exact (backed.new new).imp_right fun ⟨m, coming, covers⟩ => ⟨m, (same m).mpr coming, covers⟩

/-- A lock of the server that is granted what it wants covers what it did, and tells its owner. -/
theorem served (backed : Backed own x.standing news) (regular : x.Regular) {q q' : Queues}
    (before : x.Settled q) (after : x'.Settled q') (served : x.Served True x') :
    ∃ more, x'.pending = x.pending ++ more ∧ (∀ n ∈ more, n.handle = x.handle) ∧
      Backed own x'.standing (news ++ completions more) := by
  cases served with
  | still _ standing hears =>
    obtain ⟨more, later, mine, none⟩ := (hears trivial).pending regular.heard
    refine ⟨more, later, mine, ?_⟩
    rw [standing, none, List.append_nil]
    exact backed
  | @granted mode _ edge standing hears =>
    obtain ⟨more, later, mine, told⟩ := (hears trivial).pending regular.heard
    have mode_eq : mode = x.requestedMode := by
      have holds := after.holds (congrArg Standing.state standing)
      rw [show x'.requestedMode = x.requestedMode from congrArg Standing.wanted standing,
        show x'.grantedMode = some mode from congrArg Standing.held standing] at holds
      exact Option.some.inj holds
    have grows : ∀ s, x.grantedMode = some s → mode.Covers s := by
      intro s holds
      cases before with
      | waiting _ none _ => rw [none] at holds; cases holds
      | converting state _ _ _ => exact mode_eq ▸ regular.upward state s holds
      | _ state _ _ => rw [state] at edge; cases edge
    have lift : ∀ m, (∃ s, x.standing.held = some s ∧ s.Covers m) →
        ∃ s, x'.standing.held = some s ∧ s.Covers m := by
      rintro m ⟨s, holds, covers⟩
      rw [standing]
      exact ⟨mode, rfl, (grows s holds).trans covers⟩
    refine ⟨more, later, mine, ⟨fun m held => lift m (backed.held m held), fun m heard => ?_,
      fun new => .inr ?_⟩⟩
    · rw [told, List.mem_append, List.mem_singleton] at heard
      rcases heard with old | rfl
      · exact lift m (backed.told m old)
      · rw [standing]
        exact ⟨m, rfl, .refl m⟩
    · rcases backed.new new with waits | ⟨m, coming, covers⟩
      · refine ⟨mode, told ▸ List.mem_append_right _ (List.mem_singleton_self mode), ?_⟩
        rw [← show x.requestedMode = own.wanted from congrArg Standing.wanted waits]
        exact mode_eq ▸ .refl mode
      · exact ⟨m, List.mem_append_left _ coming, covers⟩

end Backed

/-! ### The server -/

namespace Namespace

/-- The namespace serves clients: it runs, tells the owners of its locks everything, and is asked for
nothing that clients do not ask for. -/
structure Serving (ns : Namespace) : Prop where
  resting : ns.Resting
  running : ns.stopping = false
  opened : ns.dispatcher.closed = false
  regular : ∀ l, ns.Alive l → (ns.lock l).Regular
  sent : ∀ d ∈ ns.dispatcher.deliveries,
    d.lock < ns.locks.size ∧ d.notification.handle = (ns.lock d.lock).handle

variable {ns ns' : Namespace} {l : LockId}

theorem Spared.alive (spared : Spared ns ns' l) (grown : ns.locks.size ≤ ns'.locks.size)
    (alive : ns.Alive l) : ns'.Alive l :=
  ⟨Nat.lt_of_lt_of_le alive.1 grown, spared.retired.trans alive.2⟩

theorem Resting.mem_underway (rest : ns.Resting) (alive : ns.Alive l) {n : Notification} :
    n ∈ ns.underway (ns.lock l).handle ↔
      (∃ d ∈ ns.dispatcher.deliveries, d.notification = n) ∨ n ∈ (ns.lock l).pending := by
  unfold underway
  rw [rest.get?_iff.mpr ⟨alive, rfl⟩]
  simp

namespace Serving

/-- Locks granted on one key go together. -/
theorem exclude (serving : ns.Serving) {k : LockId} (alive : ns.Alive k) (alive' : ns.Alive l)
    (other : k ≠ l) (key : (ns.lock k).key = (ns.lock l).key) {m m' : Mode}
    (held : (ns.lock k).grantedMode = some m) (held' : (ns.lock l).grantedMode = some m') :
    m.compatible m' = true := by
  have c := serving.resting.sound.ledger.coherent
  have place : (ns.lock k).resource = (ns.lock l).resource := by
    have found := serving.resting.counted.indexed alive
    rw [key, serving.resting.counted.indexed alive'] at found
    exact (Option.some.inj found).symm
  have named : ∀ j, ns.Alive j → (ns.lock j).claim.id = j := fun j alive => c.named j alive.1
  rcases c.exclude (place ▸ serving.resting.entry_of_held alive held)
    (serving.resting.entry_of_held alive' held')
    (by rw [named k alive, named l alive']; exact other) with beside | apart
  · exact beside
  · refine absurd ?_ apart
    rw [(serving.regular k alive).plain, (serving.regular l alive').plain]
    trivial

/-- An operation that has dealt with one lock, and left it regular if it is still there. -/
theorem deals (serving : ns.Serving) (deals : Deals ns l ns')
    (regular : ns'.Alive l → (ns'.lock l).Regular) : ns'.Serving := by
  refine ⟨deals.resting, deals.steady.stopping.trans serving.running,
    deals.steady.closed.trans serving.opened, fun k alive => ?_, fun d sent => ?_⟩
  · by_cases here : k = l
    · rw [here] at alive ⊢
      exact regular alive
    · have spared := deals.spared k here
      have before : ns.Alive k := ⟨deals.size ▸ alive.1, spared.retired.symm.trans alive.2⟩
      exact (serving.regular k before).served (spared.served.mono fun _ => serving.opened)
  · rw [deals.steady.deliveries] at sent
    obtain ⟨known, mine⟩ := serving.sent d sent
    exact ⟨Nat.lt_of_lt_of_eq known deals.size.symm,
      mine.trans (congrArg Claim.handle (deals.claim d.lock)).symm⟩

theorem enrols (serving : ns.Serving) {req : LockRequest} {standing : Standing}
    (enrols : Enrols ns req standing ns') (plain : req.policy = .plain)
    (still : standing.state ≠ .converting) : ns'.Serving := by
  have claim (k : LockId) (below : k < ns.locks.size) : (ns'.lock k).claim = (ns.lock k).claim :=
    (enrols.old k below).served.claim_eq
  refine ⟨enrols.resting, enrols.steady.stopping.trans serving.running,
    enrols.steady.closed.trans serving.opened, fun k alive => ?_, fun d sent => ?_⟩
  · rcases Nat.lt_succ_iff_lt_or_eq.mp (enrols.size ▸ alive.1) with below | rfl
    · have spared := enrols.old k below
      have before : ns.Alive k := ⟨below, spared.retired.symm.trans alive.2⟩
      exact (serving.regular k before).served (spared.served.mono fun _ => serving.opened)
    · obtain ⟨suppressed, -, mine⟩ := enrols.heard serving.opened
      refine ⟨suppressed, fun n sent => ?_, ?_, fun state => ?_⟩
      · rw [mine n sent, Lock.handle, enrols.claim]
      · rw [enrols.claim]
        exact plain
      · exact absurd ((congrArg Standing.state enrols.standing).symm.trans state) still
  · rw [enrols.steady.deliveries] at sent
    obtain ⟨known, mine⟩ := serving.sent d sent
    exact ⟨enrols.size ▸ Nat.lt_succ_of_lt known,
      mine.trans (congrArg Claim.handle (claim _ known)).symm⟩

end Serving
end Namespace

/-! ### A client and the server -/

namespace Client

open Namespace (Adds Deals Puts Spared)

/-- What holds of a client by itself. -/
structure Orderly (x : Client) : Prop where
  resting : x.space.Resting
  running : x.space.stopping = false
  role : x.space.config.role = .client
  simple : ∀ a, x.space.Alive a → (x.space.lock a).state = .new ∨ (x.space.lock a).state = .granted
  /-- Requests are numbered like the own locks that they are for. -/
  numbered : x.owner.name.isEmpty = false → x.nextSeq = UInt64.ofNat (x.space.locks.size + 1)

/-- The own lock `a` follows the lock `b` of the server. -/
structure Linked (x : Client) (server : Namespace) (a b : LockId) : Prop where
  own : x.space.Alive a
  remote : server.Alive b
  owner : (server.lock b).claim.owner = x.owner
  key : (x.space.lock a).key = (server.lock b).key
  backed : Backed (x.space.lock a).standing (server.lock b).standing
    (x.unread server (server.lock b).handle)

/-- The client's own locks are in step with the server as far as they have to be. -/
structure Mirrors (x : Client) (server : Namespace) : Prop where
  orderly : x.Orderly
  linked : ∀ h g, x.pairs.get? h = some g → ∃ a b, x.Linked server a b ∧
    (x.space.lock a).handle = g ∧ (server.lock b).handle = h
  once : ∀ h h' g, x.pairs.get? h = some g → x.pairs.get? h' = some g → h = h'
  followed : ∀ a m, x.space.Alive a → (x.space.lock a).grantedMode = some m →
    ∃ h, x.pairs.get? h = some (x.space.lock a).handle

variable {x x' : Client} {server server' : Namespace} {a b : LockId} {h : Handle}

namespace Orderly

theorem rests (orderly : x.Orderly) (alive : x.space.Alive a) :
    (x.space.lock a).state.allows .granted = false := by
  rcases orderly.simple a alive with state | state <;>
    rw [state] <;> rfl

/-- An operation on one own lock, which has left it new or granted if it is still there. -/
theorem deals {space : Namespace} (orderly : x.Orderly) (deals : Deals x.space a space)
    (simple : space.Alive a → (space.lock a).state = .new ∨ (space.lock a).state = .granted) :
    Orderly { x with space } := by
  refine ⟨deals.resting, deals.steady.stopping.trans orderly.running,
    (congrArg Config.role deals.steady.config).trans orderly.role, fun k alive => ?_, fun named => ?_⟩
  · by_cases here : k = a
    · rw [here] at alive ⊢
      exact simple alive
    · have spared := deals.spared k here
      have before : x.space.Alive k := ⟨deals.size ▸ alive.1, spared.retired.symm.trans alive.2⟩
      rw [show (space.lock k).state = (x.space.lock k).state from
        congrArg Standing.state (spared.served.standing_eq (orderly.rests before))]
      exact orderly.simple k before
  · rw [orderly.numbered named]
    exact congrArg (fun n => UInt64.ofNat (n + 1)) deals.size.symm

end Orderly

/-- More has been sent to the lock's owner. -/
theorem mem_unread_append (rest : server.Resting) (rest' : server'.Resting) (alive : server.Alive b)
    (alive' : server'.Alive b) (handle : (server'.lock b).handle = (server.lock b).handle)
    (deliveries : server'.dispatcher.deliveries = server.dispatcher.deliveries)
    {more : List Notification} (later : (server'.lock b).pending = (server.lock b).pending ++ more)
    (mine : ∀ n ∈ more, n.handle = (server.lock b).handle)
    (inbox : ∀ n : Notification, n.handle = (server.lock b).handle → (n ∈ x'.inbox ↔ n ∈ x.inbox))
    (m : Mode) : m ∈ x'.unread server' (server.lock b).handle ↔
      m ∈ x.unread server (server.lock b).handle ++ completions more := by
  rw [List.mem_append, mem_unread, mem_unread, mem_completions]
  simp only [← handle, rest'.mem_underway alive', deliveries, later, List.mem_append]
  simp only [handle, rest.mem_underway alive]
  constructor
  · rintro ⟨n, here | sent | old | new, named, told⟩
    · exact .inl ⟨n, .inl ((inbox n named).mp here), named, told⟩
    · exact .inl ⟨n, .inr (.inl sent), named, told⟩
    · exact .inl ⟨n, .inr (.inr old), named, told⟩
    · exact .inr ⟨n, new, told⟩
  · rintro (⟨n, here | sent | old, named, told⟩ | ⟨n, new, told⟩)
    · exact ⟨n, .inl ((inbox n named).mpr here), named, told⟩
    · exact ⟨n, .inr (.inl sent), named, told⟩
    · exact ⟨n, .inr (.inr (.inl old)), named, told⟩
    · exact ⟨n, .inr (.inr (.inr new)), mine n new, told⟩

/-- Neither lock has been dealt with. The server's may have been granted what it wanted. -/
theorem Linked.change (linked : x.Linked server a b) (orderly : x.Orderly)
    (serving : server.Serving) (serving' : server'.Serving)
    (own : Spared x.space x'.space a) (grown : x.space.locks.size ≤ x'.space.locks.size)
    (remote : Spared server server' b) (grown' : server.locks.size ≤ server'.locks.size)
    (deliveries : server'.dispatcher.deliveries = server.dispatcher.deliveries)
    (owner : x'.owner = x.owner)
    (inbox : ∀ n : Notification, n.handle = (server.lock b).handle → (n ∈ x'.inbox ↔ n ∈ x.inbox)) :
    x'.Linked server' a b := by
  have alive := remote.alive grown' linked.remote
  have handle : (server'.lock b).handle = (server.lock b).handle :=
    congrArg Claim.handle remote.served.claim_eq
  obtain ⟨more, later, mine, backed⟩ := linked.backed.served (serving.regular b linked.remote)
    (serving.resting.settled linked.remote) (serving'.resting.settled alive)
    (remote.served.mono fun _ => serving.opened)
  refine ⟨own.alive grown linked.own, alive, ?_, ?_, ?_⟩
  · rw [remote.served.claim_eq, linked.owner, owner]
  · rw [own.key, linked.key, remote.key]
  · rw [own.served.standing_eq (orderly.rests linked.own), handle]
    exact backed.congr (mem_unread_append serving.resting serving'.resting linked.remote alive handle
      deliveries later mine inbox)

/-- Client and server have dealt with one own lock and the lock under one handle. If there was a pair of
either, it was theirs. -/
structure Exchange (x x' : Client) (server server' : Namespace) (a : LockId) (h : Handle) : Prop where
  owner : x'.owner = x.owner
  own : ∀ k, k ≠ a → x.space.Alive k → Spared x.space x'.space k
  known : ∀ k, k ≠ a → x'.space.Alive k → x.space.Alive k
  grown : x.space.locks.size ≤ x'.space.locks.size
  remote : ∀ b, server.Alive b → (server.lock b).handle ≠ h → Spared server server' b
  grown' : server.locks.size ≤ server'.locks.size
  deliveries : server'.dispatcher.deliveries = server.dispatcher.deliveries
  inbox : ∀ n : Notification, n.handle ≠ h → (n ∈ x'.inbox ↔ n ∈ x.inbox)
  pairs : ∀ h', h' ≠ h → x'.pairs.get? h' = x.pairs.get? h'
  together : ∀ h' k, x.space.Alive k → x.pairs.get? h' = some (x.space.lock k).handle →
    (k = a ↔ h' = h)

namespace Mirrors

/-- The client does nothing, and the server deals with none of its locks. -/
theorem served (mirrors : x.Mirrors server) (serving : server.Serving) (serving' : server'.Serving)
    (remote : ∀ b, server.Alive b → (server.lock b).claim.owner = x.owner → Spared server server' b)
    (grown : server.locks.size ≤ server'.locks.size)
    (deliveries : server'.dispatcher.deliveries = server.dispatcher.deliveries) :
    x.Mirrors server' := by
  refine ⟨mirrors.orderly, fun h g paired => ?_, mirrors.once, mirrors.followed⟩
  obtain ⟨a, b, linked, own, named⟩ := mirrors.linked h g paired
  have spared := remote b linked.remote linked.owner
  refine ⟨a, b, linked.change mirrors.orderly serving serving' (.of_eq rfl) (Nat.le_refl _) spared
    grown deliveries rfl fun _ _ => Iff.rfl, own, ?_⟩
  exact (congrArg Claim.handle spared.served.claim_eq).trans named

theorem exchange (mirrors : x.Mirrors server) (exchange : Exchange x x' server server' a h)
    (serving : server.Serving) (serving' : server'.Serving) (orderly : x'.Orderly)
    (self : ∀ g, x'.pairs.get? h = some g → (x'.space.lock a).handle = g ∧
      ∃ b, x'.Linked server' a b ∧ (server'.lock b).handle = h)
    (followed : ∀ m, x'.space.Alive a → (x'.space.lock a).grantedMode = some m →
      x'.pairs.get? h = some (x'.space.lock a).handle) : x'.Mirrors server' := by
  -- every other pair is as it was
  have others : ∀ h' g, h' ≠ h → x'.pairs.get? h' = some g → ∃ k b, k ≠ a ∧ x'.Linked server' k b ∧
      (x'.space.lock k).handle = g ∧ (server'.lock b).handle = h' := by
    intro h' g other paired
    rw [exchange.pairs h' other] at paired
    obtain ⟨k, b, linked, own, named⟩ := mirrors.linked h' g paired
    have apart : k ≠ a := fun same =>
      other ((exchange.together h' k linked.own (own ▸ paired)).mp same)
    have spared := exchange.own k apart linked.own
    have spared' := exchange.remote b linked.remote (named.symm ▸ other)
    refine ⟨k, b, apart, linked.change mirrors.orderly serving serving' spared exchange.grown spared'
      exchange.grown' exchange.deliveries exchange.owner fun n mine => ?_, ?_, ?_⟩
    · exact exchange.inbox n (by rw [mine, named]; exact other)
    · exact (congrArg Claim.handle spared.served.claim_eq).trans own
    · exact (congrArg Claim.handle spared'.served.claim_eq).trans named
  have apart : ∀ h' g, h' ≠ h → x'.pairs.get? h' = some g → x'.pairs.get? h ≠ some g := by
    intro h' g other paired both
    obtain ⟨k, b, different, linked, named, -⟩ := others h' g other paired
    obtain ⟨mine, b', linked', -⟩ := self g both
    exact different (orderly.resting.distinct k a linked.own.1 linked'.own.1 (named.trans mine.symm))
  refine ⟨orderly, fun h' g paired => ?_, fun h₁ h₂ g first second => ?_, fun k m alive held => ?_⟩
  · by_cases here : h' = h
    · obtain ⟨mine, b, linked, named⟩ := self g (here ▸ paired)
      exact ⟨a, b, linked, mine, named.trans here.symm⟩
    · obtain ⟨k, b, -, linked, own, named⟩ := others h' g here paired
      exact ⟨k, b, linked, own, named⟩
  · by_cases here : h₁ = h <;> by_cases here' : h₂ = h
    · exact here.trans here'.symm
    · exact absurd (here ▸ first) (apart h₂ g here' second)
    · exact absurd (here' ▸ second) (apart h₁ g here first)
    · rw [exchange.pairs h₁ here] at first
      rw [exchange.pairs h₂ here'] at second
      exact mirrors.once h₁ h₂ g first second
  · by_cases here : k = a
    · exact ⟨h, here ▸ followed m (here ▸ alive) (here ▸ held)⟩
    · have before := exchange.known k here alive
      have spared := exchange.own k here before
      have same := spared.served.standing_eq (mirrors.orderly.rests before)
      obtain ⟨h', paired⟩ := mirrors.followed k m before
        ((congrArg Standing.held same).symm.trans held)
      have other : h' ≠ h := fun same => here ((exchange.together h' k before paired).mpr same)
      refine ⟨h', ?_⟩
      rw [exchange.pairs h' other, paired]
      exact congrArg some (congrArg Claim.handle spared.served.claim_eq).symm

/-- Only what is looked up in the pairs matters. -/
theorem repair (mirrors : x.Mirrors server) {pairs : Index Handle Handle}
    (same : ∀ h, pairs.get? h = x.pairs.get? h) : Mirrors { x with pairs } server := by
  have o := mirrors.orderly
  refine ⟨⟨o.resting, o.running, o.role, o.simple, o.numbered⟩, fun h g paired => ?_,
    fun h h' g first second => ?_, fun a m alive held => ?_⟩
  · obtain ⟨a, b, l, own, named⟩ := mirrors.linked h g ((same h).symm.trans paired)
    exact ⟨a, b, ⟨l.own, l.remote, l.owner, l.key, l.backed⟩, own, named⟩
  · exact mirrors.once h h' g ((same h).symm.trans first) ((same h').symm.trans second)
  · obtain ⟨h, paired⟩ := mirrors.followed a m alive held
    exact ⟨h, (same h).trans paired⟩

/-- Messages have come or gone, but no completion for one of the client's locks that was unread. -/
theorem pass (mirrors : x.Mirrors server) (inbox : List Notification)
    (locks : ∀ b, server.Alive b → server'.Alive b ∧ (server'.lock b).claim = (server.lock b).claim ∧
      (server'.lock b).key = (server.lock b).key ∧
      (server'.lock b).standing = (server.lock b).standing)
    (unread : ∀ b, server.Alive b → (server.lock b).claim.owner = x.owner →
      (∃ g, x.pairs.get? (server.lock b).handle = some g) → ∀ m,
        m ∈ unread { x with inbox } server' (server.lock b).handle ↔
          m ∈ x.unread server (server.lock b).handle) : Mirrors { x with inbox } server' := by
  have o := mirrors.orderly
  refine ⟨⟨o.resting, o.running, o.role, o.simple, o.numbered⟩, fun h g paired => ?_, mirrors.once,
    mirrors.followed⟩
  obtain ⟨a, b, linked, own, named⟩ := mirrors.linked h g paired
  obtain ⟨alive, claim, key, standing⟩ := locks b linked.remote
  have handle : (server'.lock b).handle = (server.lock b).handle := congrArg Claim.handle claim
  refine ⟨a, b, ⟨linked.own, alive, ?_, ?_, ?_⟩, own, handle.trans named⟩
  · rw [claim, linked.owner]
  · rw [key, linked.key]
  · rw [standing, handle]
    exact linked.backed.congr (unread b linked.remote linked.owner ⟨g, named ▸ paired⟩)

/-- An own lock goes with whatever a lock of the server covers that it does not follow. -/
theorem beside (mirrors : x.Mirrors server) (serving : server.Serving) (serving' : server'.Serving)
    (remote : Deals server b server') (alive : server'.Alive b) {s mode : Mode}
    (held : (server'.lock b).grantedMode = some s) (covers : s.Covers mode) {k : LockId}
    (own : x.space.Alive k) (key : (x.space.lock k).key = (server'.lock b).key)
    (other : x.pairs.get? (server.lock b).handle ≠ some (x.space.lock k).handle) {m : Mode}
    (held' : (x.space.lock k).grantedMode = some m) : m.compatible mode = true := by
  obtain ⟨h, paired⟩ := mirrors.followed k m own held'
  obtain ⟨j, b', linked, same, named⟩ := mirrors.linked h _ paired
  obtain rfl := mirrors.orderly.resting.distinct j k linked.own.1 own.1 same
  have apart : b' ≠ b := by
    rintro rfl
    exact other (named ▸ paired)
  have linked' : x.Linked server' j b' := linked.change mirrors.orderly serving serving' (.of_eq rfl)
    (Nat.le_refl _) (remote.spared b' apart) (Nat.le_of_eq remote.size.symm)
    remote.steady.deliveries rfl fun _ _ => Iff.rfl
  obtain ⟨s', holds, covers'⟩ := linked'.backed.held m held'
  exact covers'.compatible covers (serving'.exclude linked'.remote alive apart
    (linked'.key.symm.trans key) holds held)

end Mirrors
end Client
end LockManager
