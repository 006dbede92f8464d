import LockManager.Cluster.Incident
import LockManager.Proofs.Cluster.Pairing
import LockManager.Proofs.Mirror.Refused

set_option autoImplicit false

/-!
Operations of clients that end in errors. Whatever has happened to the cluster, such an operation has
changed nothing; but a client that has not read of a grant can be refused by its own locks what the server
has done for it.
-/

namespace LockManager

open Namespace (Intact)

/-! ### What does not concern the clients -/

namespace Cluster

variable (c : Cluster)

theorem clients_sweeps (times : List Nat) : (times.foldl sweep c).clients = c.clients := by
  induction times generalizing c with
  | nil => rfl
  | cons t times ih => exact ih (c.sweep t)

theorem clients_catchUp : c.catchUp.clients = c.clients := by
  unfold catchUp
  split <;> rfl

theorem clients_pass (duration : Nat) : (c.pass duration).clients = c.clients := by
  unfold pass
  split
  · rfl
  · exact (clients_sweeps _ _).trans c.clients_catchUp

/-- A message comes to one client at most. -/
theorem deliver_clients (d : Delivery) : (c.deliver d).clients.size = c.clients.size ∧
    ∀ i, ∃ inbox, (c.deliver d).client i = { c.client i with inbox } := by
  unfold deliver
  dsimp only
  split
  · next j _ =>
    refine ⟨Arena.size_modify .., fun i => ?_⟩
    have client := Arena.get_modify c.clients j i fun x =>
      { x with inbox := x.inbox ++ [d.notification] }
    split at client
    · exact ⟨_, client⟩
    · exact ⟨_, client⟩
  · exact ⟨rfl, fun i => ⟨_, rfl⟩⟩

/-- The server and the other clients are as they were, and so are the client's own locks and its pairs. -/
structure AsBefore (c c' : Cluster) (i : ClientId) : Prop where
  server : c'.server = c.server
  own : Intact (c.client i).space (c'.client i).space
  pairs : (c'.client i).pairs = (c.client i).pairs
  others : ∀ j, j ≠ i → c'.client j = c.client j

theorem asBefore_exchange {α : Type} {i : ClientId} (inside : i < c.clients.size)
    {f : Client → Namespace → α × Client × Namespace} (server : (f (c.client i) c.server).2.2 = c.server)
    (pairs : (f (c.client i) c.server).2.1.pairs = (c.client i).pairs)
    (own : Intact (c.client i).space (f (c.client i) c.server).2.1.space) :
    c.AsBefore (c.exchange i f).2 i := by
  have self : (c.exchange i f).2.client i = (f (c.client i) c.server).2.1 :=
    Arena.get_modify_self _ _ inside
  exact ⟨server, self ▸ own, self ▸ pairs, fun j other => Arena.get_modify_of_ne _ _ other.symm⟩

end Cluster

theorem Client.sparing_connect (owner : Owner) : (Client.connect owner).Sparing 0 :=
  ⟨kept_connect owner, Nat.le_refl 0⟩

namespace Scene

/-- The clients' own locks are in order, and so are those that clients have been given. At most `n` times
has a lock been asked for or canceled. -/
structure Tidy (s : Scene) (n : Nat) : Prop where
  sparing : ∀ i < s.cluster.clients.size, (s.client i).Sparing n
  given : ∀ p ∈ s.given, p.1 < s.cluster.clients.size ∧ (s.client p.1).space.Knows p.2.own

namespace Tidy

variable {s : Scene} {c : Cluster} {n n' : Nat} {i : ClientId}

/-- The clients have received messages at most. -/
theorem onward (tidy : s.Tidy n) (size : c.clients.size = s.cluster.clients.size)
    (clients : ∀ i, ∃ inbox, c.client i = { s.client i with inbox }) :
    Tidy { s with cluster := c } n := by
  refine ⟨fun i inside => ?_, fun p token => ?_⟩
  · have before := tidy.sparing i (size ▸ inside)
    obtain ⟨inbox, client⟩ := clients i
    rw [show Scene.client { s with cluster := c } i = _ from client]
    have same : (s.client i).Advances { s.client i with inbox } n :=
      before.unmoved (.refl before.opened.resting) rfl rfl
    exact same.sparing
  · obtain ⟨inside, knows⟩ := tidy.given p token
    obtain ⟨inbox, client⟩ := clients p.1
    refine ⟨size.symm ▸ inside, ?_⟩
    rw [show Scene.client { s with cluster := c } p.1 = _ from client]
    exact knows

theorem of_clients (tidy : s.Tidy n) (same : c.clients = s.cluster.clients) :
    Tidy { s with cluster := c } n :=
  tidy.onward (congrArg Arena.size same) fun i => ⟨_, congrArg (·.get i) same⟩

/-- Client `i` has done something with the server. -/
theorem become (tidy : s.Tidy n) (inside : i < s.cluster.clients.size) {x : Client}
    {server : Namespace} (advances : Client.Advances (s.client i) x n') (more : n ≤ n')
    {given : List (ClientId × LockPair)}
    (news : ∀ p ∈ given, p ∈ s.given ∨ p.1 = i ∧ x.space.Knows p.2.own) :
    (s.become i x server given).Tidy n' := by
  have size := s.size_become i x server given
  have client := s.client_become inside x server given
  refine ⟨fun j inside' => ?_, fun p token => ?_⟩
  · rw [client]
    split
    · exact advances.sparing
    · exact (tidy.sparing j (size ▸ inside')).mono more
  · rw [size, client]
    rcases news p token with old | ⟨mine, knows⟩
    · obtain ⟨inside', knows⟩ := tidy.given p old
      refine ⟨inside', ?_⟩
      split
      · next here => exact advances.knows _ (here ▸ knows)
      · exact knows
    · rw [if_pos mine.symm]
      exact ⟨mine ▸ inside, knows⟩

theorem connect (tidy : s.Tidy n) (owner : Owner) : (s.act (.connect owner)).Tidy n := by
  refine ⟨fun i inside => ?_, fun p token => ?_⟩
  · rcases lt_or_last_of_connect inside with before | rfl
    · rw [client_connect_of_lt owner before]
      exact tidy.sparing i before
    · rw [client_connect_self]
      exact (Client.sparing_connect owner).mono (Nat.zero_le n)
  · obtain ⟨inside, knows⟩ := tidy.given p token
    refine ⟨lt_connect owner inside, ?_⟩
    rw [client_connect_of_lt owner inside]
    exact knows

theorem enqueue (tidy : s.Tidy n) (few : n < generations) (inside : i < s.cluster.clients.size)
    (key : Key) (mode : Mode) : (s.act (.enqueue i key mode)).Tidy (n + 1) := by
  obtain ⟨advances, knows⟩ := (tidy.sparing i inside).enqueue few s.cluster.server key mode
  refine tidy.become inside advances (Nat.le_succ n) fun p token => ?_
  rcases List.mem_append.mp token with new | old
  · obtain ⟨pair, answered, rfl⟩ := Option.map_eq_some_iff.mp (Option.mem_toList.mp new)
    exact .inr ⟨rfl, knows pair (ok_of_toOption answered)⟩
  · exact .inl old

theorem next (tidy : s.Tidy n) (inside : i < s.cluster.clients.size) (wait : Nat) :
    (s.act (.next i wait)).Tidy n := by
  unfold Scene.act Cluster.next
  dsimp only
  split
  · next answer x read =>
    exact tidy.become inside ((tidy.sparing i inside).read read) (Nat.le_refl n) fun p => .inl
  · split
    · exact tidy.of_clients (s.cluster.clients_pass wait)
    · exact tidy

theorem act (tidy : s.Tidy n) (few : n < generations) {a : Act} (allowed : s.Allows a) :
    (s.act a).Tidy (n + [Incident.act a].countP Incident.isTrade) := by
  cases a with
  | connect owner => exact tidy.connect owner
  | enqueue i key mode => exact tidy.enqueue few allowed key mode
  | convert i lock mode =>
    obtain ⟨inside, -⟩ := tidy.given _ allowed
    exact tidy.become inside ((tidy.sparing i inside).convert s.cluster.server lock mode) (Nat.le_refl n)
      fun p => .inl
  | cancel i lock =>
    obtain ⟨inside, knows⟩ := tidy.given _ allowed
    exact tidy.become inside ((tidy.sparing i inside).cancel few knows s.cluster.server) (Nat.le_succ n)
      fun p => .inl
  | next i wait => exact tidy.next allowed wait
  | takeUp => exact tidy.of_clients rfl
  | deliver d =>
    obtain ⟨size, clients⟩ := s.cluster.deliver_clients d
    exact tidy.onward size clients
  | catchUp => exact tidy.of_clients s.cluster.clients_catchUp
  | pass duration => exact tidy.of_clients (s.cluster.clients_pass duration)

theorem undergo (tidy : s.Tidy n) (few : n < generations) {x : Incident} (permitted : s.Permits x) :
    (s.undergo x).Tidy (n + [x].countP Incident.isTrade) := by
  cases x with
  | act a => exact tidy.act few permitted
  | _ => exact tidy.of_clients rfl

end Tidy

variable {config : Config} {xs : List Incident} {s : Scene} {i : ClientId}

theorem Story.tidy (story : Story config xs s) (few : xs.countP Incident.isTrade < generations) :
    s.Tidy (xs.countP Incident.isTrade) := by
  induction story with
  | start started =>
    obtain ⟨-, rfl⟩ := Cluster.start_ok started
    exact ⟨nofun, nofun⟩
  | @next xs s before x permitted ih =>
    rw [List.countP_append] at few ⊢
    have fewer := Nat.lt_of_le_of_lt (Nat.le_add_right _ _) few
    exact (ih fewer).undergo fewer permitted

/-! ### Stories -/

/-- Incidents one after another. What is not permitted at its turn is passed by. -/
def tell (s : Scene) (xs : List Incident) : Scene :=
  xs.foldl (fun s x => if s.Permits x then s.undergo x else s) s

theorem Story.tell {ys : List Incident} (story : Story config ys s) (xs : List Incident) :
    ∃ zs, zs.Sublist xs ∧ Story config (ys ++ zs) (s.tell xs) := by
  unfold Scene.tell
  induction xs generalizing ys s with
  | nil => exact ⟨[], .slnil, by simpa using story⟩
  | cons x xs ih =>
    rw [List.foldl_cons]
    split
    · next permitted =>
      obtain ⟨zs, sub, later⟩ := ih (story.next x permitted)
      exact ⟨x :: zs, sub.cons_cons x, by simpa using later⟩
    · obtain ⟨zs, sub, later⟩ := ih story
      exact ⟨zs, sub.cons x, later⟩

theorem story_tell (usable : { config with role := Role.server }.fault? = none) (xs : List Incident) :
    ∃ zs, zs.Sublist xs ∧ Story config zs ((fresh config).tell xs) :=
  (Story.start (start_fresh usable)).tell xs

/-- Some incidents, none of which is a trade, lead on to `c`. -/
def Story.Leads (config : Config) (xs : List Incident) (s : Scene) (c : Cluster) : Prop :=
  ∃ ys, ys.countP Incident.isTrade = 0 ∧ Story config (xs ++ ys) { s with cluster := c }

namespace Story.Leads

variable {c c' : Cluster}

theorem here (story : Story config xs s) : Story.Leads config xs s s.cluster :=
  ⟨[], rfl, by rw [List.append_nil]; exact story⟩

/-- One more incident, and then what comes after it. -/
theorem before {x : Incident} (calm : x.isTrade = false)
    (later : Story.Leads config (xs ++ [x]) { s with cluster := c } c') :
    Story.Leads config xs s c' := by
  obtain ⟨ys, none, story⟩ := later
  refine ⟨x :: ys, ?_, by simpa using story⟩
  rw [List.countP_cons_of_neg (by simp [calm]), none]

/-- One incident more at the end. -/
theorem next (leads : Story.Leads config xs s c) {x : Incident} (calm : x.isTrade = false)
    (permitted : Scene.Permits { s with cluster := c } x)
    (after : Scene.undergo { s with cluster := c } x = { s with cluster := c' }) :
    Story.Leads config xs s c' := by
  obtain ⟨ys, none, story⟩ := leads
  refine ⟨ys ++ [x], ?_, ?_⟩
  · rw [List.countP_append, none, List.countP_cons_of_neg (by simp [calm])]
    rfl
  · rw [← List.append_assoc, ← after]
    exact story.next x permitted

end Story.Leads

theorem Story.leads_workOff (story : Story config xs s) (fuel : Nat) :
    Story.Leads config xs s (s.cluster.workOff fuel) := by
  induction fuel generalizing xs s with
  | zero => exact .here story
  | succ fuel ih =>
    unfold Cluster.workOff
    cases work : s.cluster.work? with
    | none => exact .here story
    | some c =>
      unfold Cluster.work? at work
      split at work
      · next d _ busy =>
        obtain rfl := Option.some.inj work
        have sent : d ∈ s.cluster.server.dispatcher.deliveries := by
          rw [busy]
          exact List.mem_cons_self
        exact .before rfl (ih (story.next (.act (.deliver d)) sent))
      · obtain ⟨server, taken, rfl⟩ := Option.map_eq_some_iff.mp work
        have after : s.undergo (.act .takeUp) = { s with cluster := { s.cluster with server } } := by
          simp only [undergo, act, taken, Option.getD_some]
        exact .before rfl (ih (after ▸ story.next (.act .takeUp) trivial))

theorem Story.leads_settle (story : Story config xs s) :
    Story.Leads config xs s s.cluster.settle := by
  unfold Cluster.settle
  split
  · exact .here story
  · exact .before rfl ((story.next (.act .catchUp) trivial).leads_workOff _)

/-- A shutdown is made of incidents. -/
theorem Story.leads_shutdown (story : Story config xs s) :
    Story.Leads config xs s s.cluster.shutdown := by
  unfold Cluster.shutdown
  split
  · exact .here story
  · exact .before rfl (.next (x := .close) (story.next .stop trivial).leads_settle rfl trivial rfl)

/-- An operation of a client that has ended in an error has changed nothing. For a request this is so if
something stands against each of the pending conversions among the client's own locks that are bound
where a request begins, and for a conversion unless the client lags behind. -/
theorem unchanged_by_failure (story : Story config xs s) (few : xs.countP Incident.isTrade < 2 ^ 32 - 1) :
    (∀ i < s.cluster.clients.size, ∀ key mode e, (s.cluster.enqueue i key mode).1 = .error e →
      (∀ q, (s.client i).space.queuesUnder Client.unboundKey = some q →
        ∀ x ∈ q.converting, q.Opposed x) →
      s.cluster.AsBefore (s.cluster.enqueue i key mode).2 i) ∧
    ∀ i lock, (i, lock) ∈ s.given →
      (∀ mode e, (s.cluster.convert i lock mode).1 = .error e →
        ¬(s.client i).LagsBehind s.cluster.server lock mode →
        s.cluster.AsBefore (s.cluster.convert i lock mode).2 i) ∧
      ∀ e, (s.cluster.cancel i lock).1 = .error e →
        s.cluster.AsBefore (s.cluster.cancel i lock).2 i := by
  have tidy := story.tidy few
  refine ⟨fun i inside key mode e error opposed => ?_, fun i lock token => ?_⟩
  · obtain ⟨server, pairs, own⟩ := (tidy.sparing i inside).enqueue_error few opposed error
    exact s.cluster.asBefore_exchange inside server pairs own
  · obtain ⟨inside, knows⟩ := tidy.given _ token
    have sparing := tidy.sparing i inside
    refine ⟨fun mode e error level => ?_, fun e error => ?_⟩
    · have refused := sparing.convert_error level error
      refine s.cluster.asBefore_exchange inside ?_ ?_ ?_ <;> dsimp only [Scene.client] at * <;> rw [refused]
      exact .refl _
    · have refused := sparing.cancel_error few knows error
      refine s.cluster.asBefore_exchange inside ?_ ?_ ?_ <;> dsimp only [Scene.client] at * <;> rw [refused]
      exact .refl _

/-- A holds the resource, B waits for it and is cut off, and the server goes down. -/
def serverDown : Scene :=
  (fresh {}).tell
    [.act (.connect ⟨"a"⟩), .act (.connect ⟨"b"⟩), .act (.enqueue 0 ⟨1, 0⟩ .exclusive),
      .act (.enqueue 1 ⟨1, 0⟩ .protectedRead), .partition ⟨"b"⟩, .stop]

/-- What the clients ask for then is refused. -/
theorem unchanged_by_failure_down :
    (∃ e, (serverDown.cluster.enqueue 0 ⟨2, 0⟩ .exclusive).1 = .error e) ∧
      serverDown.cluster.AsBefore (serverDown.cluster.enqueue 0 ⟨2, 0⟩ .exclusive).2 0 ∧
      (∃ e, (serverDown.cluster.convert 1 ⟨⟨0, 1⟩, ⟨1, 1⟩, .waiting⟩ .exclusive).1 = .error e) ∧
      serverDown.cluster.AsBefore
        (serverDown.cluster.convert 1 ⟨⟨0, 1⟩, ⟨1, 1⟩, .waiting⟩ .exclusive).2 1 := by
  obtain ⟨zs, sub, story⟩ : ∃ zs, _ ∧ Story {} zs serverDown := story_tell rfl _
  obtain ⟨requests, tokens⟩ :=
    unchanged_by_failure story (Nat.lt_of_le_of_lt sub.countP_le (by decide))
  have refused : (serverDown.cluster.enqueue 0 ⟨2, 0⟩ .exclusive).1 =
      .error (.rejected .shuttingDown "Namespace shutting down: default") := by decide +kernel
  have refused' : (serverDown.cluster.convert 1 ⟨⟨0, 1⟩, ⟨1, 1⟩, .waiting⟩ .exclusive).1 =
      .error (.rejected .invalidHandle "Invalid lock handle: 0x100000001") := by decide +kernel
  refine ⟨⟨_, refused⟩, requests 0 (by decide +kernel) _ _ _ refused fun q there => ?_, ⟨_, refused'⟩,
    (tokens 1 _ (by decide +kernel)).1 _ _ refused' fun lags => ?_⟩
  · have nothing : (serverDown.client 0).space.queuesUnder Client.unboundKey = none := by decide +kernel
    cases nothing.symm.trans there
  · have stopped : (serverDown.cluster.server.convert ⟨1, 1⟩ .exclusive).1 ≠ .ok .granted := by
      decide +kernel
    exact stopped lags.1

/-- B has waited for A, and has not read that it is granted. It asks for a weaker mode, which the server
gives it at once; but its own lock is new and cannot be converted. -/
theorem refused_when_granted :
    let s := (fresh {}).tell
      [.act (.connect ⟨"a"⟩), .act (.connect ⟨"b"⟩), .act (.enqueue 0 ⟨1, 0⟩ .exclusive),
        .act (.enqueue 1 ⟨1, 0⟩ .exclusive), .act (.cancel 0 ⟨⟨0, 1⟩, ⟨0, 1⟩, .granted⟩)]
    let lock : LockPair := ⟨⟨0, 1⟩, ⟨1, 1⟩, .waiting⟩
    (∃ xs, Story {} xs s) ∧ (1, lock) ∈ s.given ∧
      (s.cluster.convert 1 lock .protectedRead).1 =
        .error (.refused (.protocolViolation ⟨0, 1⟩ .new .convert)) ∧
      (s.cluster.server.lock 1).grantedMode = some .exclusive ∧
      ((s.cluster.convert 1 lock .protectedRead).2.server.lock 1).grantedMode = some .protectedRead ∧
      ¬s.cluster.server.Intact (s.cluster.convert 1 lock .protectedRead).2.server := by
  intro s lock
  obtain ⟨zs, -, story⟩ : ∃ zs, _ ∧ Story {} zs s := story_tell rfl _
  refine ⟨⟨zs, story⟩, by decide +kernel, by decide +kernel, by decide +kernel, by decide +kernel,
    fun intact => ?_⟩
  have same := congrArg Lock.grantedMode (intact.lock ⟨1, 1⟩ 1 (by decide +kernel))
  revert same
  decide +kernel

end Scene
end LockManager
