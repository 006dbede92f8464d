import LockManager.Cluster.Scene
import LockManager.Proofs.Mirror.Enqueue
import LockManager.Proofs.Mirror.Mail

set_option autoImplicit false

/-!
Clients of different owners and their server. Each act concerns one client at most, and the others stay in
step because none of their locks is dealt with.
-/

namespace LockManager

open Namespace (Forwards)

/-! ### The server by itself -/

namespace Cluster

/-- Time has passed and messages have been handed over. None has come to a client. -/
structure Elapses (c c' : Cluster) : Prop where
  clients : c'.clients = c.clients
  partitioned : c'.partitioned = c.partitioned
  forwards : Forwards c.server [] c'.server

variable {c c' c'' : Cluster}

theorem Elapses.refl (c : Cluster) : Elapses c c :=
  ⟨rfl, rfl, c.server.forwards_clock c.server.clock⟩

theorem Elapses.trans (first : Elapses c c') (second : Elapses c' c'') : Elapses c c'' :=
  ⟨second.clients.trans first.clients, second.partitioned.trans first.partitioned,
    first.forwards.trans second.forwards⟩

theorem elapses_sweep (rest : c.server.Resting) (t : Nat) : Elapses c (c.sweep t) := by
  have clock := c.server.forwards_clock t
  exact ⟨rfl, rfl, clock.trans (clock.resting rest).forwards_checkTimeouts⟩

theorem elapses_sweeps (rest : c.server.Resting) (times : List Nat) :
    Elapses c (times.foldl sweep c) := by
  induction times generalizing c with
  | nil => exact .refl c
  | cons t times ih =>
    have first := elapses_sweep rest t
    exact first.trans (ih (first.forwards.resting rest))

theorem elapses_catchUp (rest : c.server.Resting) : Elapses c c.catchUp := by
  unfold catchUp
  split
  · obtain ⟨clients, partitioned, forwards⟩ := elapses_sweep rest c.server.clock
    exact ⟨clients, partitioned, forwards⟩
  · exact .refl c

theorem elapses_pass (rest : c.server.Resting) (duration : Nat) : Elapses c (c.pass duration) := by
  unfold pass
  split
  · exact .refl c
  · have caught := elapses_catchUp rest
    refine caught.trans ?_
    dsimp only
    obtain ⟨clients, partitioned, forwards⟩ :=
      elapses_sweeps (caught.forwards.resting rest) (List.filter _ _)
    exact ⟨clients, partitioned, forwards.trans (Namespace.forwards_clock _ _)⟩

/-- The messages for the owner of a client come to it if nobody else has connected as that owner. -/
theorem recipient?_owner {i : ClientId} (inside : i < c.clients.size)
    (apart : ∀ j < c.clients.size, (c.client j).owner = (c.client i).owner → j = i) :
    c.recipient? (c.client i).owner = some i := by
  unfold recipient?
  cases found : (List.range c.clients.size).reverse.find? fun j =>
      (c.client j).owner = (c.client i).owner with
  | none =>
    have all := List.find?_eq_none.mp found i (List.mem_reverse.mpr (List.mem_range.mpr inside))
    exact absurd (decide_eq_true rfl) all
  | some j =>
    have place := List.mem_range.mp (List.mem_reverse.mp (List.mem_of_find?_eq_some found))
    have owner := List.find?_some found
    exact congrArg some (apart j place (by simpa using owner))

theorem route_whole (whole : c.partitioned = []) (owner : Owner) :
    c.route owner = match c.recipient? owner with
      | some i => .ok i
      | none => .error .noRoute := by
  unfold route
  rw [whole]
  rfl

/-- A message comes to one client at most, and to the one it is for if nobody is cut off. -/
theorem deliver_cases (whole : c.partitioned = []) (d : Delivery) :
    (c.deliver d).server = c.server.finish d ∧ (c.deliver d).partitioned = [] ∧
      (c.deliver d).clients.size = c.clients.size ∧
      ∀ i < c.clients.size, ∃ inbox, (c.deliver d).client i = { c.client i with inbox } ∧
        (inbox = (c.client i).inbox ++ [d.notification] ∨
          inbox = (c.client i).inbox ∧ c.recipient? (c.server.lock d.lock).claim.owner ≠ some i) := by
  unfold Cluster.deliver
  dsimp only
  rw [route_whole whole]
  cases recipient : c.recipient? (c.server.lock d.lock).claim.owner with
  | none => exact ⟨rfl, whole, rfl, fun i _ => ⟨_, rfl, .inr ⟨rfl, (Option.some_ne_none i).symm⟩⟩⟩
  | some j =>
    refine ⟨rfl, whole, Arena.size_modify .., fun i inside => ?_⟩
    by_cases here : j = i
    · subst here
      exact ⟨_, Arena.get_modify_self _ _ inside, .inl rfl⟩
    · exact ⟨_, Arena.get_modify_of_ne _ _ here, .inr ⟨rfl, fun same => here (Option.some.inj same)⟩⟩

/-- A server that can be created starts without any locks. -/
theorem start_ok {config : Config} (started : start config = .ok c) :
    Namespace.create { config with role := .server } = .ok c.server ∧
      c = { server := { config := { config with role := .server } } } := by
  unfold start at started
  cases created : Namespace.create { config with role := .server } with
  | error e =>
    rw [created] at started
    cases started
  | ok server =>
    rw [created] at started
    obtain rfl := Except.ok.inj started
    obtain ⟨-, rfl⟩ := Namespace.create_eq_ok.mp created
    exact ⟨rfl, rfl⟩

end Cluster

/-! ### Handles and numbers -/

namespace Namespace

variable {ns ns' : Namespace}

theorem resting_create {config : Config} (created : create config = .ok ns) : ns.Resting := by
  have sound := sound_create created
  obtain ⟨-, rfl⟩ := create_eq_ok.mp created
  have unused (r : ResourceId) : (resource { config } r).refs = 0 := by
    simp only [resource, Arena.get]
    rfl
  have unindexed (k : Key) (r : ResourceId)
      (found : ({ config } : Namespace).index.get? k = some r) : False :=
    Option.some_ne_none r found.symm
  have nobody (l : LockId) (known : l < ({ config } : Namespace).locks.size) : False :=
    Nat.not_lt_zero l known
  have counted : Counted { config } 0 fun _ => False := by
    refine ⟨fun k r found => (unindexed k r found).elim, fun r => ?_, fun r used => ?_,
      fun l known => (nobody l known).elim, fun k r found => (unindexed k r found).elim⟩
    · rw [unused]
      rfl
    · rw [unused] at used
      cases used
  exact ⟨sound, fun l known => (nobody l known).elim, counted, Nat.zero_le _,
    fun k l known => (nobody k known).elim, HandleTable.numbered_empty⟩

/-- There are no more locks than handles. -/
theorem Resting.size_le (rest : ns.Resting) : ns.locks.size ≤ 2 ^ 64 := by
  have inside (k : Nat) (_ : k ∈ Finset.range ns.locks.size) :
      (ns.lock k).handle.cookie.toNat ∈ Finset.range (2 ^ 64) :=
    Finset.mem_range.mpr (UInt64.toNat_lt _)
  have distinct (k : Nat) (known : k ∈ Finset.range ns.locks.size) (l : Nat)
      (known' : l ∈ Finset.range ns.locks.size)
      (same : (ns.lock k).handle.cookie.toNat = (ns.lock l).handle.cookie.toNat) : k = l := by
    have handle := congrArg Handle.ofCookie (UInt64.toNat_inj.mp same)
    rw [Handle.ofCookie_cookie, Handle.ofCookie_cookie] at handle
    exact rest.distinct k l (Finset.mem_range.mp known) (Finset.mem_range.mp known') handle
  have card := Finset.card_le_card_of_injOn _ inside distinct
  rwa [Finset.card_range, Finset.card_range] at card

theorem Resting.size_lt (rest : ns.Resting) (fresh : ns.Fresh) : ns.locks.size < 2 ^ 64 := by
  have adds : Adds ns { key := default, mode := .null, owner := default } _ := rest.addLock fresh rfl
  exact Nat.lt_of_succ_le (adds.size.symm.trans_le adds.resting.size_le)

theorem Gone.forwards {h : Handle} (gone : ns.Gone h) {out : List Notification}
    (forwards : Forwards ns out ns') : ns'.Gone h := by
  obtain ⟨l, known, named, retired⟩ := gone
  exact ⟨l, Nat.lt_of_lt_of_eq known forwards.alike.size.symm, (forwards.handle l).trans named,
    (congrArg Lock.retired (forwards.alike.lock l) :).trans retired⟩

end Namespace

/-- Numbers of requests do not come round before handles do. -/
theorem number_ne {a n : Nat} (less : a < n) (bound : n < 2 ^ 64) :
    UInt64.ofNat (a + 1) ≠ UInt64.ofNat (n + 1) := by
  intro same
  have values := congrArg UInt64.toNat same
  simp only [UInt64.toNat_ofNat'] at values
  omega

/-! ### Clients -/

theorem Client.orderly_connect (owner : Owner) : (Client.connect owner).Orderly := by
  have created : Namespace.create (config owner) = .ok { config := config owner } :=
    Namespace.create_eq_ok.mpr ⟨config_fault? owner, rfl⟩
  have closed := (Namespace.resting_create created).alike (Namespace.alike_closeDispatcher _)
    (Namespace.catalog_of_books (Namespace.books_closeDispatcher _))
  exact ⟨closed, rfl, rfl, nofun, fun _ => rfl⟩

/-- A client that has no locks is in step with any server. -/
theorem Client.mirrors_connect (owner : Owner) (server : Namespace) :
    (Client.connect owner).Mirrors server :=
  ⟨orderly_connect owner, nofun, nofun, nofun⟩

namespace Scene

theorem ok_of_toOption {ε α : Type} {answer : Except ε α} {x : α}
    (answered : answer.toOption = some x) : answer = .ok x := by
  cases answer with
  | ok y => exact congrArg Except.ok (Option.some.inj answered)
  | error e => cases answered

/-- Client `i` has become `x` and the server `server`. -/
def become (s : Scene) (i : ClientId) (x : Client) (server : Namespace)
    (given : List (ClientId × LockPair)) : Scene :=
  { cluster := { s.cluster with server, clients := s.cluster.clients.modify i fun _ => x }, given }

theorem size_become (s : Scene) (i : ClientId) (x : Client) (server : Namespace)
    (given : List (ClientId × LockPair)) :
    (s.become i x server given).cluster.clients.size = s.cluster.clients.size :=
  Arena.size_modify ..

theorem client_become (s : Scene) {i : ClientId} (inside : i < s.cluster.clients.size) (x : Client)
    (server : Namespace) (given : List (ClientId × LockPair)) (j : ClientId) :
    (s.become i x server given).client j = if i = j then x else s.client j := by
  refine (Arena.get_modify ..).trans ?_
  simp only [inside, and_true]
  rfl

section

variable (s : Scene) (owner : Owner)

theorem size_connect :
    (s.act (.connect owner)).cluster.clients.size = s.cluster.clients.size + 1 :=
  Arena.size_alloc ..

theorem client_connect (i : ClientId) : (s.act (.connect owner)).client i =
    if i = s.cluster.clients.size then .connect owner else s.client i :=
  Arena.get_alloc ..

theorem client_connect_self :
    (s.act (.connect owner)).client s.cluster.clients.size = .connect owner :=
  (s.client_connect owner _).trans (if_pos rfl)

variable {s} {i : ClientId}

theorem client_connect_of_lt (inside : i < s.cluster.clients.size) :
    (s.act (.connect owner)).client i = s.client i :=
  (s.client_connect owner i).trans (if_neg (Nat.ne_of_lt inside))

theorem lt_connect (inside : i < s.cluster.clients.size) :
    i < (s.act (.connect owner)).cluster.clients.size :=
  (Nat.lt_succ_of_lt inside).trans_eq (s.size_connect owner).symm

variable {owner} in
theorem lt_or_last_of_connect (inside : i < (s.act (.connect owner)).cluster.clients.size) :
    i < s.cluster.clients.size ∨ i = s.cluster.clients.size :=
  Nat.lt_succ_iff_lt_or_eq.mp (Nat.lt_of_lt_of_eq inside (s.size_connect owner))

end

/-! ### Owners, answers and pairs -/

/-- Owners have connected once. Whatever the server answers again has been asked for by a client. The
locks that clients have been given are pairs of theirs or gone on both sides. -/
structure Tally (s : Scene) : Prop where
  apart : ∀ i < s.cluster.clients.size, ∀ j < s.cluster.clients.size,
    (s.client j).owner = (s.client i).owner → j = i
  replays : ∀ k h, s.cluster.server.replays.get? k = some h → ∃ i < s.cluster.clients.size,
    k.1 = (s.client i).owner ∧ ∃ a < (s.client i).space.locks.size, k.2 = UInt64.ofNat (a + 1)
  given : ∀ p ∈ s.given, p.1 < s.cluster.clients.size ∧
    ((s.client p.1).pairs.get? p.2.remote = some p.2.own ∨
      s.cluster.server.Gone p.2.remote ∧ (s.client p.1).space.Gone p.2.own)

namespace Tally

variable {s : Scene} {c : Cluster} {i : ClientId}

/-- Messages have gone on. -/
theorem onward (tally : s.Tally) (size : c.clients.size = s.cluster.clients.size)
    (clients : ∀ i < s.cluster.clients.size, ∃ inbox, c.client i = { s.client i with inbox })
    (replays : ∀ k h, c.server.replays.get? k = some h → s.cluster.server.replays.get? k = some h)
    (gone : ∀ h, s.cluster.server.Gone h → c.server.Gone h) : Tally { s with cluster := c } := by
  have same {i : ClientId} (inside : i < s.cluster.clients.size) :
      (c.client i).owner = (s.client i).owner ∧ (c.client i).space = (s.client i).space ∧
        (c.client i).pairs = (s.client i).pairs := by
    obtain ⟨inbox, client⟩ := clients i inside
    rw [client]
    exact ⟨rfl, rfl, rfl⟩
  refine ⟨fun i inside j inside' owner => ?_, fun k h found => ?_, fun p token => ?_⟩
  · rw [size] at inside inside'
    exact tally.apart i inside j inside' ((same inside').1.symm.trans (owner.trans (same inside).1))
  · obtain ⟨i, inside, owner, numbered⟩ := tally.replays k h (replays k h found)
    obtain ⟨owner', space, -⟩ := same inside
    refine ⟨i, size ▸ inside, owner.trans owner'.symm, ?_⟩
    rw [show (Scene.client { s with cluster := c } i).space = _ from space]
    exact numbered
  · obtain ⟨inside, pair⟩ := tally.given p token
    obtain ⟨-, space, pairs⟩ := same inside
    refine ⟨size ▸ inside, ?_⟩
    rw [show (Scene.client { s with cluster := c } p.1).space = _ from space,
      show (Scene.client { s with cluster := c } p.1).pairs = _ from pairs]
    exact pair.imp_right fun ⟨lost, own⟩ => ⟨gone _ lost, own⟩

/-- Client `i` has done something with the server. -/
theorem become (tally : s.Tally) (inside : i < s.cluster.clients.size) {x : Client}
    {server : Namespace} (proceeds : Client.Proceeds (s.client i) s.cluster.server x server)
    {given : List (ClientId × LockPair)} (news : ∀ p ∈ given,
      p ∈ s.given ∨ p.1 = i ∧ x.pairs.get? p.2.remote = some p.2.own) :
    (s.become i x server given).Tally := by
  have size := s.size_become i x server given
  have client := s.client_become inside x server given
  have owner (j : ClientId) : ((s.become i x server given).client j).owner = (s.client j).owner := by
    rw [client]
    split
    · next here => rw [← here, proceeds.owner]
    · rfl
  have grown (j : ClientId) : (s.client j).space.locks.size ≤
      ((s.become i x server given).client j).space.locks.size := by
    rw [client]
    split
    · next here => exact here ▸ proceeds.grown
    · exact Nat.le_refl _
  have gone (j : ClientId) (h : Handle) (gone : (s.client j).space.Gone h) :
      ((s.become i x server given).client j).space.Gone h := by
    rw [client]
    split
    · next here => exact proceeds.gone h (here ▸ gone)
    · exact gone
  refine ⟨?_, fun k h found => ?_, fun p token => ?_⟩
  · simp only [owner, size]
    exact tally.apart
  · rcases proceeds.replays k h found with old | ⟨mine, a, below, number⟩
    · obtain ⟨j, inside', mine, a, below, number⟩ := tally.replays k h old
      exact ⟨j, size ▸ inside', mine.trans (owner j).symm, a, Nat.lt_of_lt_of_le below (grown j), number⟩
    · refine ⟨i, size ▸ inside, mine.trans (owner i).symm, a, ?_, number⟩
      rw [client, if_pos rfl]
      exact below
  · rw [size]
    rcases news p token with old | ⟨mine, paired⟩
    · obtain ⟨inside', pair⟩ := tally.given p old
      refine ⟨inside', ?_⟩
      rcases pair with paired | ⟨lost, lost'⟩
      · by_cases here : i = p.1
        · subst here
          rw [client, if_pos rfl]
          exact proceeds.paired _ _ paired
        · rw [client, if_neg here]
          exact .inl paired
      · exact .inr ⟨proceeds.gone' _ lost, gone p.1 _ lost'⟩
    · rw [client, if_pos mine.symm]
      exact ⟨mine ▸ inside, .inl paired⟩

theorem connect (tally : s.Tally) {owner : Owner}
    (new : ∀ i < s.cluster.clients.size, (s.client i).owner ≠ owner) :
    (s.act (.connect owner)).Tally := by
  refine ⟨fun i inside j inside' same => ?_, fun k h found => ?_, fun p token => ?_⟩
  · rcases lt_or_last_of_connect inside with before | rfl <;>
      rcases lt_or_last_of_connect inside' with before' | rfl
    · rw [client_connect_of_lt owner before, client_connect_of_lt owner before'] at same
      exact tally.apart i before j before' same
    · rw [client_connect_of_lt owner before, client_connect_self] at same
      exact absurd same.symm (new i before)
    · rw [client_connect_of_lt owner before', client_connect_self] at same
      exact absurd same (new j before')
    · rfl
  · obtain ⟨i, inside, numbered⟩ := tally.replays k h found
    refine ⟨i, lt_connect owner inside, ?_⟩
    rw [client_connect_of_lt owner inside]
    exact numbered
  · obtain ⟨inside, pair⟩ := tally.given p token
    refine ⟨lt_connect owner inside, ?_⟩
    rw [client_connect_of_lt owner inside]
    exact pair

/-- The number of a client's next request has not been used. -/
theorem first (tally : s.Tally) (inside : i < s.cluster.clients.size)
    (numbered : (s.client i).nextSeq = UInt64.ofNat ((s.client i).space.locks.size + 1))
    (bound : (s.client i).space.locks.size < 2 ^ 64) :
    s.cluster.server.replays.get? ((s.client i).owner, (s.client i).nextSeq) = none := by
  apply Option.eq_none_iff_forall_ne_some.mpr
  intro h found
  obtain ⟨j, inside', owner, a, below, number⟩ := tally.replays _ h found
  obtain rfl := tally.apart i inside j inside' owner.symm
  rw [numbered] at number
  exact number_ne below bound number.symm

end Tally

/-! ### In step -/

/-- The server serves, each client is in step with it, and the locks that clients have been given are pairs
of theirs or gone on both sides. -/
structure Synced (s : Scene) : Prop where
  serving : s.cluster.server.Serving
  whole : s.cluster.partitioned = []
  apart : ∀ i < s.cluster.clients.size, ∀ j < s.cluster.clients.size,
    (s.client j).owner = (s.client i).owner → j = i
  mirrors : ∀ i < s.cluster.clients.size, (s.client i).Mirrors s.cluster.server
  known : ∀ i < s.cluster.clients.size, ∀ n ∈ (s.client i).inbox,
    ∃ l < s.cluster.server.locks.size, n.handle = (s.cluster.server.lock l).handle
  replays : ∀ k h, s.cluster.server.replays.get? k = some h → ∃ i < s.cluster.clients.size,
    k.1 = (s.client i).owner ∧ ∃ a < (s.client i).space.locks.size, k.2 = UInt64.ofNat (a + 1)
  given : ∀ p ∈ s.given, p.1 < s.cluster.clients.size ∧
    ((s.client p.1).pairs.get? p.2.remote = some p.2.own ∨
      s.cluster.server.Gone p.2.remote ∧ (s.client p.1).space.Gone p.2.own)

namespace Synced

variable {s : Scene} {c : Cluster}

theorem tally (synced : s.Synced) : s.Tally := ⟨synced.apart, synced.replays, synced.given⟩

/-- Messages have gone on. Those that have left the server and concern the locks of a client have come to
that client. -/
theorem forwards (synced : s.Synced) {out : List Notification}
    (forwards : Forwards s.cluster.server out c.server) (whole : c.partitioned = [])
    (size : c.clients.size = s.cluster.clients.size)
    (origin : ∀ n ∈ out, ∃ l < s.cluster.server.locks.size,
      n.handle = (s.cluster.server.lock l).handle)
    (clients : ∀ i < s.cluster.clients.size, ∃ inbox, c.client i = { s.client i with inbox } ∧
      (∀ n ∈ inbox, n ∈ (s.client i).inbox ∨ n ∈ out) ∧
      ∀ b, s.cluster.server.Alive b →
        (s.cluster.server.lock b).claim.owner = (s.client i).owner →
        ∀ n : Notification, n.handle = (s.cluster.server.lock b).handle →
          (n ∈ inbox ↔ n ∈ (s.client i).inbox ∨ n ∈ out)) :
    Synced { s with cluster := c } := by
  have tally : Tally { s with cluster := c } := by
    refine synced.tally.onward size (fun i inside => ?_) (fun k h found => ?_) fun h gone => ?_
    · obtain ⟨inbox, client, -⟩ := clients i inside
      exact ⟨inbox, client⟩
    · rwa [show c.server.replays = _ from Namespace.replays_of_books forwards.books] at found
    · exact gone.forwards forwards
  refine ⟨synced.serving.forwards forwards, whole, tally.apart, fun i inside => ?_,
    fun i inside n read => ?_, tally.replays, tally.given⟩
  · rw [size] at inside
    obtain ⟨inbox, client, -, comes⟩ := clients i inside
    rw [show Scene.client { s with cluster := c } i = _ from client]
    exact (synced.mirrors i inside).forwards forwards comes
  · rw [size] at inside
    rw [forwards.alike.size]
    simp only [forwards.handle]
    obtain ⟨inbox, client, received, -⟩ := clients i inside
    rw [show Scene.client { s with cluster := c } i = _ from client] at read
    exact (received n read).elim (synced.known i inside n) (origin n)

theorem elapses (synced : s.Synced) (elapses : s.cluster.Elapses c) :
    Synced { s with cluster := c } := by
  obtain ⟨clients, partitioned, forwards⟩ := elapses
  refine synced.forwards forwards (partitioned.trans synced.whole) (congrArg Arena.size clients) nofun
    fun i _ => ⟨_, congrArg (·.get i) clients, fun _ => .inl, fun _ _ _ _ _ => ?_⟩
  exact (or_iff_left List.not_mem_nil).symm

/-- A message is delivered to the client that its lock's owner has connected as, if there is one. -/
theorem deliver (synced : s.Synced) {d : Delivery}
    (busy : d ∈ s.cluster.server.dispatcher.deliveries) :
    Synced { s with cluster := s.cluster.deliver d } := by
  obtain ⟨below, named⟩ := synced.serving.sent d busy
  obtain ⟨server, whole, size, clients⟩ := Cluster.deliver_cases synced.whole d
  refine synced.forwards (server ▸ synced.serving.forwards_finish busy) whole size (fun n out => ?_)
    fun i inside => ?_
  · exact ⟨d.lock, below, (congrArg Notification.handle (List.mem_singleton.mp out)).trans named⟩
  · obtain ⟨inbox, client, received⟩ := clients i inside
    refine ⟨inbox, client, ?_⟩
    rcases received with rfl | ⟨rfl, other⟩
    · exact ⟨fun n => List.mem_append.mp, fun _ _ _ _ _ => List.mem_append⟩
    · -- the message is about a lock of another owner
      refine ⟨fun n => .inl, fun b alive owner n mine => (or_iff_left fun here => other ?_).symm⟩
      obtain rfl := List.mem_singleton.mp here
      obtain rfl := synced.serving.resting.distinct b d.lock alive.1 below (mine.symm.trans named)
      rw [owner]
      exact Cluster.recipient?_owner inside fun j inside' => synced.apart i inside j inside'

/-- Client `i` has done something with the server. -/
theorem did (synced : s.Synced) {i : ClientId} (inside : i < s.cluster.clients.size) {x : Client}
    {server : Namespace} (did : Client.Did (s.client i) s.cluster.server x server)
    {given : List (ClientId × LockPair)} (news : ∀ p ∈ given,
      p ∈ s.given ∨ p.1 = i ∧ x.pairs.get? p.2.remote = some p.2.own) :
    (s.become i x server given).Synced := by
  have size := s.size_become i x server given
  have client := s.client_become inside x server given
  have tally := synced.tally.become inside did.proceeds news
  refine ⟨did.serving, synced.whole, tally.apart, fun j inside' => ?_, fun j inside' n read => ?_,
    tally.replays, tally.given⟩
  · rw [size] at inside'
    rw [client]
    split
    · exact did.mirrors
    · next other =>
      refine (synced.mirrors j inside').served synced.serving did.serving (fun b alive owned => ?_)
        did.larger did.deliveries
      refine did.others b alive fun same => other ?_
      exact (synced.apart i inside j inside' (owned.symm.trans same)).symm
  · rw [size] at inside'
    have before : n ∈ (s.client j).inbox := by
      rw [client] at read
      split at read
      · next here => exact here ▸ did.inbox n read
      · exact read
    obtain ⟨l, below, named⟩ := synced.known j inside' n before
    obtain ⟨below', claim⟩ := did.claims l below
    exact ⟨l, below', named.trans (congrArg Claim.handle claim).symm⟩

theorem start {config : Config} (started : Cluster.start config = .ok c) :
    Synced { cluster := c } := by
  obtain ⟨created, rfl⟩ := Cluster.start_ok started
  have rest := Namespace.resting_create created
  exact ⟨⟨rest, rfl, rfl, nofun, nofun⟩, rfl, nofun, nofun, nofun, nofun, nofun⟩

theorem connect (synced : s.Synced) {owner : Owner}
    (new : ∀ i < s.cluster.clients.size, (s.client i).owner ≠ owner) :
    (s.act (.connect owner)).Synced := by
  have tally := synced.tally.connect new
  refine ⟨synced.serving, synced.whole, tally.apart, fun i inside => ?_, fun i inside n read => ?_,
    tally.replays, tally.given⟩
  · rcases lt_or_last_of_connect inside with before | rfl
    · rw [client_connect_of_lt owner before]
      exact synced.mirrors i before
    · rw [client_connect_self]
      exact Client.mirrors_connect owner _
  · rcases lt_or_last_of_connect inside with before | rfl
    · rw [client_connect_of_lt owner before] at read
      exact synced.known i before n read
    · rw [client_connect_self] at read
      cases read

/-- The number of a client's next request has not been used. -/
theorem first (synced : s.Synced) {i : ClientId} (inside : i < s.cluster.clients.size)
    (fresh : (s.client i).space.Fresh) (named : (s.client i).owner.name.isEmpty = false) :
    s.cluster.server.replays.get? ((s.client i).owner, (s.client i).nextSeq) = none := by
  have orderly := (synced.mirrors i inside).orderly
  exact synced.tally.first inside (orderly.numbered named) (orderly.resting.size_lt fresh)

end Synced

/-! ### Schedules -/

variable {config : Config} {may : Scene → Act → Prop} {s : Scene}

section

variable [∀ s a, Decidable (may s a)]

/-- Acts one after another. What is not allowed at its turn or may not be done is passed by. -/
def follow (may : Scene → Act → Prop) [∀ s a, Decidable (may s a)] (s : Scene) (acts : List Act) :
    Scene :=
  acts.foldl (fun s a => if s.Allows a ∧ may s a then s.act a else s) s

theorem Reached.follow (reached : Reached config may s) (acts : List Act) :
    Reached config may (s.follow may acts) := by
  unfold Scene.follow
  induction acts generalizing s with
  | nil => exact reached
  | cons a acts ih =>
    rw [List.foldl_cons]
    apply ih
    split
    · next both => exact .act reached a both.1 both.2
    · exact reached

/-- A server and no clients. -/
def fresh (config : Config) : Scene :=
  { cluster := { server := { config := { config with role := .server } } } }

theorem start_fresh (usable : { config with role := Role.server }.fault? = none) :
    Cluster.start config = .ok (fresh config).cluster := by
  unfold Cluster.start Namespace.create
  rw [usable]
  rfl

theorem reached_follow (usable : { config with role := Role.server }.fault? = none) (acts : List Act) :
    Reached config may ((fresh config).follow may acts) :=
  Reached.follow (.start (start_fresh usable)) acts

end

end Scene
end LockManager
