import LockManager.Proofs.Cluster
import LockManager.Proofs.Mirror.Pairing

set_option autoImplicit false

/-!
What the clients of a server know of their locks. For each client the pairs are a one-to-one
correspondence between the locks that the server has for it and its own, as long as handles do not come
round: whatever its clients do, and however far apart they are with the messages that they read.
-/

namespace LockManager

open Namespace (Besides Unmoved)

/-- The pairs are one-to-one between the client's live locks on the server and its live own locks. The
locks of a pair have the same owner and the same key. -/
structure Client.OneToOne (x : Client) (server : Namespace) : Prop where
  named : ∀ h g, x.pairs.get? h = some g → ∃ b ∈ server.live, ∃ a ∈ x.space.live,
    (server.lock b).handle = h ∧ (x.space.lock a).handle = g ∧
      (server.lock b).claim.owner = x.owner ∧ (x.space.lock a).claim.owner = x.owner ∧
      (server.lock b).key = (x.space.lock a).key
  remote : ∀ b ∈ server.live, (server.lock b).claim.owner = x.owner →
    ∃! a, a ∈ x.space.live ∧ x.pairs.get? (server.lock b).handle = some (x.space.lock a).handle
  own : ∀ a ∈ x.space.live, ∃! b, b ∈ server.live ∧ (server.lock b).claim.owner = x.owner ∧
    x.pairs.get? (server.lock b).handle = some (x.space.lock a).handle

theorem Namespace.Open.mem_live_iff {ns : Namespace} {n : Nat} (opened : ns.Open n) {l : LockId} :
    l ∈ ns.live ↔ ns.Alive l := opened.resting.sound.mem_live_iff opened.resting.room

theorem Client.Corresponds.oneToOne {x : Client} {server : Namespace} {n : Nat}
    (c : x.Corresponds server) (kept : x.Kept n) (opened : server.Open n) : x.OneToOne server := by
  have distinct {a a' : LockId} (alive : x.space.Alive a) (alive' : x.space.Alive a') :=
    kept.opened.resting.distinct a a' alive.1 alive'.1
  have distinct' {b b' : LockId} (alive : server.Alive b) (alive' : server.Alive b') :=
    opened.resting.distinct b b' alive.1 alive'.1
  refine ⟨fun h g found => ?_, fun b live mine => ?_, fun a live => ?_⟩
  · obtain ⟨a, b, alive, own, alive', remote, owned, key⟩ := c.linked h g found
    exact ⟨b, opened.mem_live_iff.mpr alive', a, kept.opened.mem_live_iff.mpr alive, remote, own, owned,
      kept.owned a alive, key⟩
  · obtain ⟨g, found⟩ := c.served b (opened.mem_live_iff.mp live) mine
    obtain ⟨a, b', alive, rfl, -⟩ := c.linked _ g found
    refine ⟨a, ⟨kept.opened.mem_live_iff.mpr alive, found⟩, fun a' both => ?_⟩
    obtain ⟨live', found'⟩ := both
    exact distinct (kept.opened.mem_live_iff.mp live') alive (Option.some.inj (found'.symm.trans found))
  · have alive := kept.opened.mem_live_iff.mp live
    obtain ⟨h, found⟩ := c.followed a alive
    obtain ⟨a', b, -, -, alive', rfl, owned, -⟩ := c.linked h _ found
    refine ⟨b, ⟨opened.mem_live_iff.mpr alive', owned, found⟩, fun b' both => ?_⟩
    obtain ⟨live', -, found'⟩ := both
    exact distinct' (opened.mem_live_iff.mp live') alive' (c.once _ _ _ found' found)

theorem Namespace.open_create {config : Config} {ns : Namespace} (created : create config = .ok ns) :
    ns.Open 0 := by
  have rest := resting_create created
  obtain ⟨-, rfl⟩ := create_eq_ok.mp created
  exact ⟨rest, rfl, ⟨[], rfl, .refl _⟩, Nat.le_refl 0⟩

theorem Client.kept_connect (owner : Owner) : (Client.connect owner).Kept 0 := by
  have orderly := orderly_connect owner
  exact ⟨⟨orderly.resting, orderly.running, ⟨[], rfl, .refl _⟩, Nat.le_refl 0⟩, orderly.role, nofun,
    orderly.numbered⟩

/-! ### Runs -/

def Act.isCancel : Act → Bool
  | .cancel .. => true
  | _ => false

namespace Scene

/-- What is asked for has room for a handle, on both sides. -/
def HasRoom (s : Scene) : Act → Prop
  | .enqueue i _ _ => s.cluster.server.HasRoom ∧ (s.client i).space.HasRoom
  | _ => True

instance (s : Scene) : (a : Act) → Decidable (s.HasRoom a)
  | .enqueue i _ _ =>
    inferInstanceAs (Decidable (s.cluster.server.HasRoom ∧ (s.client i).space.HasRoom))
  | .connect _ | .convert .. | .cancel .. | .next .. | .takeUp | .deliver _ | .catchUp | .pass _ =>
    inferInstanceAs (Decidable True)

/-- What the acts lead to with a server that was created with `config`. -/
inductive Led (config : Config) : List Act → Scene → Prop where
  | start {c : Cluster} (started : Cluster.start config = .ok c) : Led config [] { cluster := c }
  | act {acts : List Act} {s : Scene} (before : Led config acts s) (a : Act) (allowed : s.Allows a)
      (room : s.HasRoom a) : Led config (acts ++ [a]) (s.act a)

/-- Each client corresponds to the server. At most `n` locks are done with on either side. -/
structure Paired (s : Scene) (n : Nat) : Prop where
  tally : s.Tally
  opened : s.cluster.server.Open n
  owners : ∀ b, s.cluster.server.Alive b → ∃ i < s.cluster.clients.size,
    (s.cluster.server.lock b).claim.owner = (s.client i).owner
  kept : ∀ i < s.cluster.clients.size, (s.client i).Kept n
  corresponds : ∀ i < s.cluster.clients.size, (s.client i).Corresponds s.cluster.server

namespace Paired

variable {s : Scene} {c : Cluster} {n n' : Nat} {i : ClientId}

/-- Messages have gone on, or time has passed. -/
theorem unmoved (paired : s.Paired n) (server : Unmoved s.cluster.server c.server)
    (size : c.clients.size = s.cluster.clients.size)
    (clients : ∀ i < s.cluster.clients.size, ∃ inbox, c.client i = { s.client i with inbox }) :
    Paired { s with cluster := c } n := by
  have own {i : ClientId} (inside : i < s.cluster.clients.size) :
      Unmoved (s.client i).space (s.client i).space := .refl (paired.kept i inside).opened.resting
  refine ⟨paired.tally.onward size clients server.replays fun h gone => gone.unmoved server,
    paired.opened.unmoved server, fun b alive => ?_, fun i inside => ?_, fun i inside => ?_⟩
  · obtain ⟨i, inside, owner⟩ := paired.owners b (server.alive.mp alive)
    obtain ⟨inbox, client⟩ := clients i inside
    refine ⟨i, size ▸ inside, ?_⟩
    rw [server.claim, owner, show Scene.client { s with cluster := c } i = _ from client]
  · rw [size] at inside
    obtain ⟨inbox, client⟩ := clients i inside
    rw [show Scene.client { s with cluster := c } i = _ from client]
    exact (paired.kept i inside).unmoved (own inside) rfl rfl
  · rw [size] at inside
    obtain ⟨inbox, client⟩ := clients i inside
    rw [show Scene.client { s with cluster := c } i = _ from client]
    exact (paired.corresponds i inside).unmoved (own inside) server rfl fun _ => rfl

theorem elapses (paired : s.Paired n) (elapses : s.cluster.Elapses c) :
    Paired { s with cluster := c } n := by
  obtain ⟨clients, -, forwards⟩ := elapses
  exact paired.unmoved
    (.of_alike paired.opened.resting forwards.alike forwards.books forwards.stopping)
    (congrArg Arena.size clients) fun i _ => ⟨_, congrArg (·.get i) clients⟩

/-- Client `i` has done something with the server. -/
theorem traded (paired : s.Paired n) (inside : i < s.cluster.clients.size) {x : Client}
    {server : Namespace} (traded : Client.Traded (s.client i) s.cluster.server x server n')
    (more : n ≤ n') {given : List (ClientId × LockPair)} (news : ∀ p ∈ given,
      p ∈ s.given ∨ p.1 = i ∧ x.pairs.get? p.2.remote = some p.2.own) :
    (s.become i x server given).Paired n' := by
  have size := s.size_become i x server given
  have client := s.client_become inside x server given
  refine ⟨paired.tally.become inside traded.proceeds news, traded.opened, fun b alive => ?_,
    fun j inside' => ?_, fun j inside' => ?_⟩
  · by_cases mine : (server.lock b).claim.owner = (s.client i).owner
    · refine ⟨i, size ▸ inside, ?_⟩
      rw [client, if_pos rfl, traded.proceeds.owner]
      exact mine
    · obtain ⟨before, claim⟩ := traded.besides.old b alive mine
      obtain ⟨j, inside', owned⟩ := paired.owners b before
      have claim : (server.lock b).claim.owner = (s.client j).owner :=
        (congrArg Claim.owner claim).trans owned
      have apart : i ≠ j := by
        rintro rfl
        exact mine claim
      refine ⟨j, size ▸ inside', ?_⟩
      rw [client, if_neg apart]
      exact claim
  · rw [size] at inside'
    rw [client]
    split
    · exact traded.kept
    · exact (paired.kept j inside').mono more
  · rw [size] at inside'
    rw [client]
    split
    · exact traded.corresponds
    · next other =>
      exact (paired.corresponds j inside').besides traded.besides fun same =>
        other (paired.tally.apart i inside j inside' same).symm

theorem start {config : Config} (started : Cluster.start config = .ok c) :
    Paired { cluster := c } 0 := by
  obtain ⟨created, rfl⟩ := Cluster.start_ok started
  exact ⟨⟨nofun, nofun, nofun⟩, Namespace.open_create created, nofun, nofun, nofun⟩

theorem connect (paired : s.Paired n) {owner : Owner}
    (new : ∀ i < s.cluster.clients.size, (s.client i).owner ≠ owner) :
    (s.act (.connect owner)).Paired n := by
  refine ⟨paired.tally.connect new, paired.opened, fun b alive => ?_, fun i inside => ?_,
    fun i inside => ?_⟩
  · obtain ⟨i, inside, owned⟩ := paired.owners b alive
    refine ⟨i, lt_connect owner inside, ?_⟩
    rw [client_connect_of_lt owner inside]
    exact owned
  · rcases lt_or_last_of_connect inside with before | rfl
    · rw [client_connect_of_lt owner before]
      exact paired.kept i before
    · rw [client_connect_self]
      exact (Client.kept_connect owner).mono (Nat.zero_le n)
  · rcases lt_or_last_of_connect inside with before | rfl
    · rw [client_connect_of_lt owner before]
      exact paired.corresponds i before
    · -- whoever has not connected yet has no locks on the server
      rw [client_connect_self]
      refine ⟨nofun, nofun, nofun, fun b alive mine => ?_⟩
      obtain ⟨i, inside, owned⟩ := paired.owners b alive
      exact absurd (owned.symm.trans mine) (new i inside)

/-! ### Acts -/

theorem enqueue (paired : s.Paired n) (few : n < generations) (inside : i < s.cluster.clients.size)
    (room : s.cluster.server.HasRoom) (room' : (s.client i).space.HasRoom) (key : Key) (mode : Mode) :
    (s.act (.enqueue i key mode)).Paired n := by
  have kept := paired.kept i inside
  have fresh := kept.opened.issued.fresh kept.opened.resting few room'
  obtain ⟨traded, found⟩ := Client.Traded.enqueue kept paired.opened (paired.corresponds i inside) few
    room room' (fun named => paired.tally.first inside (kept.numbered named)
      (kept.opened.resting.size_lt fresh)) key mode
  refine paired.traded inside traded (Nat.le_refl n) fun p token => ?_
  rcases List.mem_append.mp token with new | old
  · obtain ⟨pair, answered, rfl⟩ := Option.map_eq_some_iff.mp (Option.mem_toList.mp new)
    exact .inr ⟨rfl, found pair (ok_of_toOption answered)⟩
  · exact .inl old

theorem convert (paired : s.Paired n) {lock : LockPair} (given : (i, lock) ∈ s.given) (mode : Mode) :
    (s.act (.convert i lock mode)).Paired n := by
  obtain ⟨inside, found | ⟨gone, -⟩⟩ := paired.tally.given _ given
  · have traded := Client.Traded.convert (paired.kept i inside) paired.opened
      (paired.corresponds i inside) found mode
    exact paired.traded inside traded (Nat.le_refl n) fun p token => .inl token
  · have traded := Client.Traded.convert_gone (paired.kept i inside) paired.opened
      (paired.corresponds i inside) gone mode
    exact paired.traded inside traded (Nat.le_refl n) fun p token => .inl token

theorem cancel (paired : s.Paired n) {lock : LockPair} (given : (i, lock) ∈ s.given) :
    (s.act (.cancel i lock)).Paired (n + 1) := by
  obtain ⟨inside, found | ⟨gone, gone'⟩⟩ := paired.tally.given _ given
  · have traded := Client.Traded.cancel (paired.kept i inside) paired.opened
      (paired.corresponds i inside) found
    exact paired.traded inside traded (Nat.le_succ n) fun p token => .inl token
  · have traded := Client.Traded.cancel_gone ((paired.kept i inside).mono (Nat.le_succ n))
      (paired.opened.mono (Nat.le_succ n)) (paired.corresponds i inside) gone gone'
    exact paired.traded inside traded (Nat.le_succ n) fun p token => .inl token

theorem next (paired : s.Paired n) (inside : i < s.cluster.clients.size) (wait : Nat) :
    (s.act (.next i wait)).Paired n := by
  have passed := paired.elapses (Cluster.elapses_pass paired.opened.resting wait)
  unfold Scene.act Cluster.next
  dsimp only
  split
  · next answer x read =>
    have traded := Client.Traded.read (paired.kept i inside) paired.opened
      (paired.corresponds i inside) read
    exact paired.traded inside traded (Nat.le_refl n) fun p token => .inl token
  · split
    · exact passed
    · exact paired

theorem takeUp (paired : s.Paired n) : (s.act .takeUp).Paired n := by
  refine paired.unmoved (c := { s.cluster with server := _ }) ?_ rfl fun i _ => ⟨_, rfl⟩
  cases taken : s.cluster.server.takeUp? with
  | none => exact .refl paired.opened.resting
  | some server => exact paired.opened.resting.unmoved_takeUp taken

/-- A message comes to one client at most. -/
theorem deliver (paired : s.Paired n) (d : Delivery) : (s.act (.deliver d)).Paired n := by
  have server := paired.opened.resting.unmoved_finish d
  unfold Scene.act Cluster.deliver
  dsimp only
  split
  · next j _ =>
    refine paired.unmoved (c := { s.cluster with clients := _, delivered := _, server := _ }) server
      (Arena.size_modify ..) fun i inside => ?_
    by_cases here : j = i
    · subst here
      exact ⟨_, Arena.get_modify_self _ _ inside⟩
    · exact ⟨_, Arena.get_modify_of_ne _ _ here⟩
  · exact paired.unmoved (c := { s.cluster with reports := _, server := _ }) server rfl
      fun i _ => ⟨_, rfl⟩

theorem act (paired : s.Paired n) (few : n < generations) {a : Act} (allowed : s.Allows a)
    (room : s.HasRoom a) : (s.act a).Paired (n + [a].countP Act.isCancel) := by
  cases a with
  | connect owner => exact paired.connect allowed
  | enqueue i key mode => exact paired.enqueue few allowed room.1 room.2 key mode
  | convert i lock mode => exact paired.convert allowed mode
  | cancel i lock => exact paired.cancel allowed
  | next i wait => exact paired.next allowed wait
  | takeUp => exact paired.takeUp
  | deliver d => exact paired.deliver d
  | catchUp => exact paired.elapses (Cluster.elapses_catchUp paired.opened.resting)
  | pass duration => exact paired.elapses (Cluster.elapses_pass paired.opened.resting duration)

end Paired

variable {config : Config} {acts : List Act} {s : Scene}

theorem Led.paired (led : Led config acts s) (few : acts.countP Act.isCancel < generations) :
    s.Paired (acts.countP Act.isCancel) := by
  induction led with
  | start started => exact .start started
  | @act acts s before a allowed room ih =>
    rw [List.countP_append] at few ⊢
    have fewer := Nat.lt_of_le_of_lt (Nat.le_add_right _ _) few
    exact (ih fewer).act fewer allowed room

/-- What comes of `acts` with those passed by that are not allowed or have no room. -/
theorem Led.follow {done : List Act} (led : Led config done s) (acts : List Act) :
    ∃ more, more.Sublist acts ∧ Led config (done ++ more) (s.follow HasRoom acts) := by
  unfold Scene.follow
  induction acts generalizing done s with
  | nil => exact ⟨[], .slnil, by simpa using led⟩
  | cons a acts ih =>
    rw [List.foldl_cons]
    split
    · next both =>
      obtain ⟨more, sub, led'⟩ := ih (.act led a both.1 both.2)
      exact ⟨a :: more, sub.cons_cons a, by simpa using led'⟩
    · obtain ⟨more, sub, led'⟩ := ih led
      exact ⟨more, sub.cons a, led'⟩

theorem led_follow (usable : { config with role := Role.server }.fault? = none) (acts : List Act) :
    ∃ done, done.Sublist acts ∧ Led config done ((fresh config).follow HasRoom acts) :=
  (Led.start (start_fresh usable)).follow acts

/-- While fewer locks have been canceled than a slot has generations, every client knows each of its
locks on the server by one lock of its own, and the other way round. -/
theorem pairs_one_to_one (led : Led config acts s) (few : acts.countP Act.isCancel < 2 ^ 32 - 1) :
    ∀ i < s.cluster.clients.size, (s.client i).OneToOne s.cluster.server := by
  intro i inside
  have paired := led.paired few
  exact (paired.corresponds i inside).oneToOne (paired.kept i inside) paired.opened

/-- A cancels, twice, and gets the same slot again. B was waiting, has read that it is granted, and waits
for more. -/
theorem pairs_one_to_one_slot_reused :
    let s := (fresh {}).follow HasRoom
      [.connect ⟨"a"⟩, .connect ⟨"b"⟩, .enqueue 0 ⟨1, 0⟩ .exclusive, .enqueue 1 ⟨1, 0⟩ .protectedRead,
        .cancel 0 ⟨⟨0, 1⟩, ⟨0, 1⟩, .granted⟩, .cancel 0 ⟨⟨0, 1⟩, ⟨0, 1⟩, .granted⟩, .takeUp, .takeUp,
        .deliver ⟨1, ⟨.completion, ⟨1, 1⟩, ⟨1, 0⟩, .protectedRead, none⟩, 0⟩, .next 1 0,
        .enqueue 0 ⟨1, 0⟩ .concurrentRead, .convert 1 ⟨⟨0, 1⟩, ⟨1, 1⟩, .waiting⟩ .exclusive]
    (s.client 0).pairs.entries = [(⟨0, 2⟩, ⟨0, 2⟩)] ∧ (s.client 1).pairs.entries = [(⟨1, 1⟩, ⟨0, 1⟩)] ∧
      (s.cluster.server.lock 1).state = .converting ∧ ((s.client 1).space.lock 0).state = .granted ∧
      (s.client 0).OneToOne s.cluster.server ∧ (s.client 1).OneToOne s.cluster.server := by
  intro s
  obtain ⟨done, sub, led⟩ : ∃ done, _ ∧ Led {} done s := led_follow rfl _
  have pairs := pairs_one_to_one led (Nat.lt_of_le_of_lt sub.countP_le (by decide))
  exact ⟨by decide +kernel, by decide +kernel, by decide +kernel, by decide +kernel,
    pairs 0 (by decide +kernel), pairs 1 (by decide +kernel)⟩

end Scene
end LockManager
