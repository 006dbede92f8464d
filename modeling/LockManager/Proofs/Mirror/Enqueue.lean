import LockManager.Proofs.Mirror.Steps

set_option autoImplicit false

/-!
A client that asks for a lock makes one of its own first, and lets it follow the server's lock once it
has been answered. Neither handle has been issued before, so no other pair is touched, and nothing on its
way concerns the new one.
-/

namespace LockManager

open Namespace (Adds Deals Enrols Puts Spared)

theorem Namespace.Gone.enrols {ns ns' : Namespace} {h : Handle} (gone : ns.Gone h) {req : LockRequest}
    {standing : Standing} (enrols : Enrols ns req standing ns') : ns'.Gone h := by
  obtain ⟨k, known, named, retired⟩ := gone
  have spared := enrols.old k known
  exact ⟨k, enrols.size ▸ Nat.lt_succ_of_lt known,
    (congrArg Claim.handle spared.served.claim_eq).trans named, spared.retired.trans retired⟩

namespace Client

variable {x : Client} {server server' made space : Namespace} {req asked : LockRequest}
  {standing : Standing}

/-- The client with other own locks, the last of which follows the server's lock under `remote`. -/
def pairUp (x : Client) (space : Namespace) (remote : Handle) : Client :=
  { x with
    space, nextSeq := x.nextSeq + 1
    pairs := x.pairs.insert remote x.space.handles.upcoming }

theorem get?_pairUp (x : Client) (space : Namespace) (remote h : Handle) :
    (x.pairUp space remote).pairs.get? h =
      if h = remote then some x.space.handles.upcoming else x.pairs.get? h :=
  Index.get?_insert ..

/-- An operation that has dealt with a lock just made has spared those made before. -/
theorem spared_of_adds (adds : Adds x.space req made) (deals : Deals made x.space.locks.size space)
    {k : LockId} (below : k < x.space.locks.size) : Spared x.space space k :=
  Spared.trans (.of_eq (adds.old k below)) adds.steady (deals.spared k (Nat.ne_of_lt below))

theorem alive_of_adds (adds : Adds x.space req made) (deals : Deals made x.space.locks.size space)
    {k : LockId} (other : k ≠ x.space.locks.size) (alive : space.Alive k) : x.space.Alive k := by
  have below : k < x.space.locks.size + 1 := Nat.lt_of_lt_of_eq alive.1 (deals.size.trans adds.size)
  have before := Nat.lt_of_le_of_ne (Nat.le_of_lt_succ below) other
  exact ⟨before, (spared_of_adds adds deals before).retired.symm.trans alive.2⟩

/-- A client has made an own lock, which is new or granted now, and used up a number. -/
theorem Orderly.enrol (orderly : x.Orderly) (adds : Adds x.space req made)
    (deals : Deals made x.space.locks.size space)
    (simple : (space.lock x.space.locks.size).state = .new ∨
      (space.lock x.space.locks.size).state = .granted) (pairs : Index Handle Handle) :
    Orderly { x with space, nextSeq := x.nextSeq + 1, pairs } := by
  refine ⟨deals.resting, deals.steady.stopping.trans (adds.steady.stopping.trans orderly.running),
    (congrArg Config.role (deals.steady.config.trans adds.steady.config)).trans orderly.role,
    fun k alive => ?_, fun named => ?_⟩
  · by_cases here : k = x.space.locks.size
    · rw [here]
      exact simple
    · have before := alive_of_adds adds deals here alive
      have same := (spared_of_adds adds deals before.1).served.standing_eq (orderly.rests before)
      rw [show (space.lock k).state = (x.space.lock k).state from congrArg Standing.state same]
      exact orderly.simple k before
  · dsimp only
    rw [orderly.numbered named, deals.size, adds.size]
    exact (UInt64.ofNat_add (x.space.locks.size + 1) 1).symm

/-- An own lock is made for a request, and then bound where the server has bound its lock. -/
theorem exists_made (rest : x.space.Resting) (running : x.space.stopping = false)
    (client : x.space.config.role = .client) (fresh : x.space.Fresh)
    (named : x.owner.name.isEmpty = false) (key : Key) (mode : Mode) : ∃ made space,
      x.space.createLock { key := unboundKey, mode, owner := x.owner } =
        (.ok x.space.handles.upcoming, made) ∧
      made.rebind x.space.handles.upcoming key = (.ok (), space) ∧
      Adds x.space { key := unboundKey, mode, owner := x.owner } made ∧
      Deals made x.space.locks.size space ∧ space.Alive x.space.locks.size ∧
      (space.lock x.space.locks.size).handle = x.space.handles.upcoming ∧
      (space.lock x.space.locks.size).key = key ∧
      (space.lock x.space.locks.size).standing = ⟨.new, mode, none⟩ := by
  obtain ⟨made, created, adds⟩ : ∃ made,
      x.space.createLock { key := unboundKey, mode, owner := x.owner } =
        (.ok x.space.handles.upcoming, made) ∧
      Adds x.space { key := unboundKey, mode, owner := x.owner } made :=
    rest.createLock running fresh rfl named rfl
  obtain ⟨q, new⟩ := adds.new
  have role : made.config.role = .client :=
    (congrArg Config.role adds.steady.config).trans client
  obtain ⟨space, rebound, deals, r, moved⟩ :=
    adds.resting.rebind adds.alive (by rw [new]; rfl) role key
  rw [new] at moved
  rw [show (made.lock x.space.locks.size).handle = x.space.handles.upcoming by
    rw [new]; rfl] at rebound
  refine ⟨made, space, created, rebound, adds, deals, ⟨deals.size ▸ adds.alive.1, ?_⟩, ?_, ?_, ?_⟩
  all_goals rw [moved]
  all_goals rfl

theorem createLock_unnamed (running : x.space.stopping = false) (unnamed : x.owner.name.isEmpty = true)
    (mode : Mode) : x.space.createLock { key := unboundKey, mode, owner := x.owner } =
      (.error (.invalidRequest "owner is required"), x.space) := by
  unfold Namespace.createLock Namespace.register Namespace.ensureRunning
  rw [running]
  simp only [unnamed]
  rfl

/-- An own lock that has been made is bound to the resource and granted if the server's lock is. -/
theorem adopt_eq {own : Handle} {key : Key} {reply : Reply} {moved : Namespace}
    (rebound : x.space.rebind own key = (.ok (), moved))
    (settled : reply.state = .granted ∧ (∃ r, moved.enqueueLock own = (.ok r, space)) ∨
      reply.state ≠ .granted ∧ space = moved) :
    x.adopt own key reply = (.ok ⟨own, reply.handle, reply.state⟩,
      { x with space, pairs := x.pairs.insert reply.handle own }) := by
  unfold adopt
  rw [rebound]
  dsimp only [takeOver, Except.mapError]
  rcases settled with ⟨granted, r, done⟩ | ⟨waits, rfl⟩
  · rw [if_pos granted, done]
  · rw [if_neg waits]

namespace Mirrors

/-- Nothing on its way concerns a lock that has just been made. -/
theorem unread_new (serving : server.Serving) (fresh : server.Fresh)
    (known : ∀ n ∈ x.inbox, ∃ l < server.locks.size, n.handle = (server.lock l).handle)
    (enrols : Enrols server req standing server') (m : Mode) :
    m ∉ x.unread server' (server'.lock server.locks.size).handle := by
  intro unread
  have handle : (server'.lock server.locks.size).handle = server.handles.upcoming :=
    congrArg Claim.handle enrols.claim
  obtain ⟨n, place, mine, completion, told⟩ := mem_unread.mp unread
  rw [enrols.resting.mem_underway enrols.alive, enrols.steady.deliveries] at place
  rw [handle] at mine
  rcases place with read | ⟨d, sent, rfl⟩ | pending
  · obtain ⟨l, below, named⟩ := known n read
    exact fresh.2 l below (named.symm.trans mine)
  · obtain ⟨below, named⟩ := serving.sent d sent
    exact fresh.2 d.lock below (named.symm.trans mine)
  · have heard : m ∈ completions (server'.lock server.locks.size).pending :=
      mem_completions.mpr ⟨n, pending, completion, told⟩
    rw [(enrols.heard serving.opened).2.1] at heard
    cases heard

theorem unpaired_of_fresh (mirrors : x.Mirrors server) (fresh : server.Fresh) {h g : Handle}
    (paired : x.pairs.get? h = some g) : h ≠ server.handles.upcoming := by
  obtain ⟨a, b, linked, -, rfl⟩ := mirrors.linked h g paired
  exact fresh.2 b linked.remote.1

/-- The two locks that have been made for a request become a pair. -/
theorem enrol (mirrors : x.Mirrors server) (serving : server.Serving) (fresh : server.Fresh)
    (known : ∀ n ∈ x.inbox, ∃ l < server.locks.size, n.handle = (server.lock l).handle)
    (named : x.owner.name.isEmpty = false) (enrols : Enrols server req standing server')
    (plain : req.policy = .plain) (owner : req.owner = x.owner)
    (seq : req.clientSeq = some x.nextSeq) (still : standing.state ≠ .converting)
    (adds : Adds x.space asked made) (deals : Deals made x.space.locks.size space)
    (alive : space.Alive x.space.locks.size) (key : (space.lock x.space.locks.size).key = req.key)
    (simple : (space.lock x.space.locks.size).state = .new ∨
      (space.lock x.space.locks.size).state = .granted)
    (backed : Backed (space.lock x.space.locks.size).standing standing []) :
    Did x server (x.pairUp space server.handles.upcoming) server' := by
  have serving' := serving.enrols enrols plain still
  have grown : space.locks.size = x.space.locks.size + 1 := deals.size.trans adds.size
  have pairs := x.get?_pairUp space server.handles.upcoming
  have mine : (space.lock x.space.locks.size).handle = x.space.handles.upcoming := by
    obtain ⟨r, new⟩ := adds.new
    rw [Lock.handle, deals.claim, new]
    rfl
  have claim (b : LockId) (below : b < server.locks.size) :
      (server'.lock b).claim = (server.lock b).claim := (enrols.old b below).served.claim_eq
  have larger : server.locks.size ≤ server'.locks.size := enrols.size ▸ Nat.le_succ _
  have current : x.Mirrors server' := mirrors.served serving serving'
    (fun b alive _ => enrols.old b alive.1) larger enrols.steady.deliveries
  have linked : (x.pairUp space server.handles.upcoming).Linked server' x.space.locks.size
      server.locks.size := by
    refine ⟨alive, enrols.alive, ?_, key.trans enrols.key.symm, ?_⟩
    · rw [enrols.claim]
      exact owner
    · rw [enrols.standing]
      refine backed.congr fun m => ⟨fun unread => ?_, fun none => absurd none List.not_mem_nil⟩
      exact absurd unread (unread_new (x := x) serving fresh known enrols m)
  have handle : (server'.lock server.locks.size).handle = server.handles.upcoming :=
    congrArg Claim.handle enrols.claim
  have exchange : Exchange x (x.pairUp space server.handles.upcoming) server' server'
      x.space.locks.size server.handles.upcoming := by
    refine ⟨rfl, fun k _ alive => spared_of_adds adds deals alive.1,
      fun k other => alive_of_adds adds deals other, grown ▸ Nat.le_succ _, fun _ _ _ => .of_eq rfl,
      Nat.le_refl _, rfl, fun _ _ => Iff.rfl, fun h other => (pairs h).trans (if_neg other),
      fun h k alive paired => ⟨fun last => ?_, fun last => ?_⟩⟩
    · exact absurd last (Nat.ne_of_lt alive.1)
    · exact absurd last (mirrors.unpaired_of_fresh fresh paired)
  refine ⟨current.exchange exchange serving' serving' (mirrors.orderly.enrol adds deals simple _)
      (fun g paired => ⟨?_, server.locks.size, linked, handle⟩) fun _ _ _ => ?_,
    serving', rfl, fun _ => id, fun h g paired => .inl ?_, fun h gone => (gone.adds adds).deals deals
      adds.alive, fun h gone => gone.enrols enrols, fun b alive _ => enrols.old b alive.1,
    fun b below => ⟨Nat.lt_of_lt_of_le below larger, claim b below⟩, enrols.steady.deliveries,
    grown ▸ Nat.le_succ _, fun k h found => (enrols.replays k h found).imp_right ?_⟩
  · rw [pairs, if_pos rfl, Option.some.injEq] at paired
    exact mine.trans paired
  · exact (pairs _).trans ((if_pos rfl).trans (congrArg some mine.symm))
  · exact (pairs h).trans ((if_neg (mirrors.unpaired_of_fresh fresh paired)).trans paired)
  · rintro ⟨number, numbered, rfl⟩
    rw [seq, Option.some.injEq] at numbered
    refine ⟨owner, x.space.locks.size, grown ▸ Nat.lt_succ_self _, ?_⟩
    rw [← numbered, mirrors.orderly.numbered named]

/-- A request without an owner is refused on the spot. -/
theorem enqueue_unnamed (mirrors : x.Mirrors server) (serving : server.Serving)
    (unnamed : x.owner.name.isEmpty = true) (key : Key) (mode : Mode) :
    (∃ e, (x.enqueue server key mode).1 = .error e) ∧
      Did x server (x.enqueue server key mode).2.1 (x.enqueue server key mode).2.2 := by
  have refused := createLock_unnamed mirrors.orderly.running unnamed mode
  have o := mirrors.orderly
  have renumbered : Mirrors { x with nextSeq := x.nextSeq + 1 } server := by
    refine ⟨⟨o.resting, o.running, o.role, o.simple, fun named => ?_⟩, fun h g paired => ?_,
      mirrors.once, mirrors.followed⟩
    · cases unnamed.symm.trans named
    · obtain ⟨a, b, l, own, remote⟩ := mirrors.linked h g paired
      exact ⟨a, b, ⟨l.own, l.remote, l.owner, l.key, l.backed⟩, own, remote⟩
  unfold Client.enqueue
  dsimp only
  rw [refused]
  exact ⟨⟨_, rfl⟩, .of_same renumbered serving rfl (fun _ => id) (fun _ _ => id) rfl⟩

/-- The other own locks leave room for what the server's new lock is granted. -/
theorem room_new (mirrors : x.Mirrors server) (serving : server.Serving) (serving' : server'.Serving)
    (fresh : server.Fresh) (enrols : Enrols server req standing server') {mode : Mode}
    (granted : standing.held = some mode) {k : LockId} (alive : x.space.Alive k)
    (key : (x.space.lock k).key = req.key) {m : Mode}
    (held : (x.space.lock k).grantedMode = some m) : m.compatible mode = true := by
  have current : x.Mirrors server' := mirrors.served serving serving'
    (fun b alive _ => enrols.old b alive.1) (enrols.size ▸ Nat.le_succ _) enrols.steady.deliveries
  have handle : (server'.lock server.locks.size).handle = server.handles.upcoming :=
    congrArg Claim.handle enrols.claim
  refine current.beside serving' serving' (.refl serving'.resting _) enrols.alive
    ((congrArg Standing.held enrols.standing).trans granted) (.refl mode) alive
    (key.trans enrols.key.symm) (fun paired => ?_) held
  exact mirrors.unpaired_of_fresh fresh paired handle

/-- The own lock of a new pair is left where it is bound, or granted what the server has granted. -/
theorem exists_adopted (mirrors : x.Mirrors server) (serving : server.Serving) (fresh : server.Fresh)
    {key : Key} {mode : Mode}
    (enrols : Enrols server { key, mode, owner := x.owner, clientSeq := some x.nextSeq } standing server')
    (outcome : standing = ⟨.granted, mode, some mode⟩ ∨ standing = ⟨.waiting, mode, none⟩)
    (adds : Adds x.space asked made) (deals : Deals made x.space.locks.size space)
    (alive : space.Alive x.space.locks.size)
    (own : (space.lock x.space.locks.size).handle = x.space.handles.upcoming)
    (bound : (space.lock x.space.locks.size).key = key)
    (new : (space.lock x.space.locks.size).standing = ⟨.new, mode, none⟩) : ∃ final,
      ((server'.lock server.locks.size).state = .granted ∧
          (∃ r, space.enqueueLock x.space.handles.upcoming = (.ok r, final)) ∨
        (server'.lock server.locks.size).state ≠ .granted ∧ final = space) ∧
      Deals made x.space.locks.size final ∧ final.Alive x.space.locks.size ∧
      (final.lock x.space.locks.size).key = key ∧
      Backed (final.lock x.space.locks.size).standing standing [] ∧
      ((final.lock x.space.locks.size).state = .new ∨
        (final.lock x.space.locks.size).state = .granted) := by
  have state : (space.lock x.space.locks.size).state = .new := congrArg Standing.state new
  have wanted : (space.lock x.space.locks.size).requestedMode = mode :=
    congrArg Standing.wanted new
  rcases outcome with granted | waits
  · have serving' := serving.enrols enrols rfl (by rw [granted]; exact LockState.noConfusion)
    have orderly := mirrors.orderly.enrol adds deals (.inl state) x.pairs
    -- nobody on the own side is in the way of what the server has granted
    obtain ⟨final, done, puts⟩ := orderly.enqueueLock alive state fun k other lives key m held => by
      have before := alive_of_adds adds deals other lives
      have spared := spared_of_adds adds deals before.1
      have same := spared.served.standing_eq (mirrors.orderly.rests before)
      rw [wanted]
      exact mirrors.room_new serving serving' fresh enrols (congrArg Standing.held granted) before
        (spared.key.symm.trans (key.trans bound))
        ((congrArg Standing.held same).symm.trans held)
    rw [own] at done
    rw [wanted] at puts
    refine ⟨final, .inl ⟨?_, _, done⟩, deals.trans puts.toDeals, puts.alive, puts.key.trans bound,
      ?_, .inr (congrArg Standing.state puts.standing)⟩
    · exact congrArg Standing.state (enrols.standing.trans granted)
    · rw [puts.standing, granted]
      exact ⟨fun m same => ⟨m, same, .refl m⟩, nofun, nofun⟩
  · refine ⟨space, .inr ⟨?_, rfl⟩, deals, alive, bound, ?_, .inl state⟩
    · rw [show (server'.lock server.locks.size).state = .waiting from
        congrArg Standing.state (enrols.standing.trans waits)]
      decide
    · rw [new, waits]
      exact ⟨nofun, nofun, fun _ => .inl rfl⟩

/-- A client that asks for a lock gets a pair, if neither side issues a handle twice. -/
theorem enqueue_named (mirrors : x.Mirrors server) (serving : server.Serving) (fresh : server.Fresh)
    (fresh' : x.space.Fresh) (named : x.owner.name.isEmpty = false)
    (first : server.replays.get? (x.owner, x.nextSeq) = none)
    (known : ∀ n ∈ x.inbox, ∃ l < server.locks.size, n.handle = (server.lock l).handle) (key : Key)
    (mode : Mode) : ∃ state x' server',
      x.enqueue server key mode =
        (.ok ⟨x.space.handles.upcoming, server.handles.upcoming, state⟩, x', server') ∧
      Did x server x' server' ∧
      x'.pairs.get? server.handles.upcoming = some x.space.handles.upcoming := by
  obtain ⟨made, space, created, rebound, adds, deals, alive, own, bound, new⟩ :=
    exists_made mirrors.orderly.resting mirrors.orderly.running mirrors.orderly.role fresh' named key mode
  obtain ⟨server', standing, served, enrols, outcome⟩ :=
    serving.resting.serve_enqueue serving.running fresh named first key mode
  obtain ⟨final, adopted, deals', alive', bound', backed, simple⟩ :=
    mirrors.exists_adopted serving fresh enrols outcome adds deals alive own bound new
  have handle : (server'.lock server.locks.size).handle = server.handles.upcoming :=
    congrArg Claim.handle enrols.claim
  have still : standing.state ≠ .converting := by
    rcases outcome with rfl | rfl <;> exact LockState.noConfusion
  refine ⟨(server'.lock server.locks.size).state, _, server', ?_,
    mirrors.enrol serving fresh known named enrols rfl rfl rfl still adds deals' alive' bound' simple
      backed, (get?_pairUp ..).trans (if_pos rfl)⟩
  have answered : adopt { x with space := made, nextSeq := x.nextSeq + 1 } x.space.handles.upcoming key
      (server'.reply server.locks.size) = _ := adopt_eq rebound adopted
  unfold Client.enqueue
  dsimp only
  rw [created]
  dsimp only [takeOver, Except.mapError]
  rw [served]
  dsimp only
  rw [answered, ← handle]
  rfl

/-- A client that asks for a lock stays in step, if neither side issues a handle twice and the number of
the request has not been used. -/
theorem enqueue (mirrors : x.Mirrors server) (serving : server.Serving) (fresh : server.Fresh)
    (fresh' : x.space.Fresh)
    (first : x.owner.name.isEmpty = false → server.replays.get? (x.owner, x.nextSeq) = none)
    (known : ∀ n ∈ x.inbox, ∃ l < server.locks.size, n.handle = (server.lock l).handle) (key : Key)
    (mode : Mode) :
    Did x server (x.enqueue server key mode).2.1 (x.enqueue server key mode).2.2 ∧
      ∀ pair, (x.enqueue server key mode).1 = .ok pair →
        (x.enqueue server key mode).2.1.pairs.get? pair.remote = some pair.own := by
  cases named : x.owner.name.isEmpty with
  | true =>
    obtain ⟨⟨e, refused⟩, did⟩ := mirrors.enqueue_unnamed serving named key mode
    refine ⟨did, fun pair answered => ?_⟩
    rw [refused] at answered
    cases answered
  | false =>
    obtain ⟨state, x', server', done, did, paired⟩ :=
      mirrors.enqueue_named serving fresh fresh' named (first named) known key mode
    rw [done]
    refine ⟨did, fun pair answered => ?_⟩
    obtain rfl := Except.ok.inj answered
    exact paired

end Mirrors
end Client
end LockManager
