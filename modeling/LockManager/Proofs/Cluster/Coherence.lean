import LockManager.Proofs.Cluster

set_option autoImplicit false

/-!
Coherence across clients: what one client holds locally goes with what another holds. It rests on the order
in which a client reads its completions and asks for modes. A completion that is read after the client has
asked for a weaker mode brings back the stronger one, and a conversion between the two modes that are not
comparable takes a mode away on the server before the client knows.
-/

namespace LockManager
namespace Scene

/-! ### Prudent clients -/

/-- What the server answers when client `i` asks for another mode. -/
def answer (s : Scene) (i : ClientId) (lock : LockPair) (mode : Mode) : Response :=
  (s.cluster.send i (.convert lock.remote mode)).1

/-- A client waits for nothing but modes that cover what its lock holds on the server. It gets no mode at
once that does not cover what the completions tell of that it has not read. No handle is issued twice. -/
def Prudent (s : Scene) : Act → Prop
  | .enqueue i _ _ => s.cluster.server.Fresh ∧ (s.client i).space.Fresh
  | .convert i lock mode =>
    (s.answer i lock mode = .converted .pending → ∀ l ∈ s.cluster.server.handles.get? lock.remote,
      ∀ held ∈ (s.cluster.server.lock l).grantedMode, mode.Covers held) ∧
    (s.answer i lock mode = .converted .granted →
      ∀ m ∈ (s.client i).unread s.cluster.server lock.remote, mode.Covers m)
  | _ => True

instance (s : Scene) : (a : Act) → Decidable (s.Prudent a)
  | .enqueue i _ _ =>
    inferInstanceAs (Decidable (s.cluster.server.Fresh ∧ (s.client i).space.Fresh))
  | .convert i lock mode => inferInstanceAs (Decidable ((s.answer i lock mode = .converted .pending →
      ∀ l ∈ s.cluster.server.handles.get? lock.remote,
        ∀ held ∈ (s.cluster.server.lock l).grantedMode, mode.Covers held) ∧ (_ → _)))
  | .connect _ | .cancel .. | .next .. | .takeUp | .deliver _ | .catchUp | .pass _ =>
    inferInstanceAs (Decidable True)

variable {config : Config} {s : Scene}

namespace Synced

theorem enqueue (synced : s.Synced) {i : ClientId} (inside : i < s.cluster.clients.size)
    (fresh : s.cluster.server.Fresh) (fresh' : (s.client i).space.Fresh) (key : Key) (mode : Mode) :
    (s.act (.enqueue i key mode)).Synced := by
  obtain ⟨did, paired⟩ := (synced.mirrors i inside).enqueue synced.serving fresh fresh'
    (synced.first inside fresh') (synced.known i inside) key mode
  refine synced.did inside did fun p token => ?_
  rcases List.mem_append.mp token with new | old
  · obtain ⟨pair, answered, rfl⟩ := Option.map_eq_some_iff.mp (Option.mem_toList.mp new)
    exact .inr ⟨rfl, paired pair (ok_of_toOption answered)⟩
  · exact .inl old

theorem convert (synced : s.Synced) {i : ClientId} {lock : LockPair} {mode : Mode}
    (given : (i, lock) ∈ s.given) (prudent : s.Prudent (.convert i lock mode)) :
    (s.act (.convert i lock mode)).Synced := by
  obtain ⟨inside, paired | ⟨gone, -⟩⟩ := synced.given _ given
  · have did := (synced.mirrors i inside).convert synced.serving paired
      (fun waits l held found holds => prudent.1 waits l found held holds) prudent.2
    exact synced.did inside did fun p token => .inl token
  · have did := (synced.mirrors i inside).convert_gone synced.serving gone mode
    exact synced.did inside did fun p token => .inl token

theorem cancel (synced : s.Synced) {i : ClientId} {lock : LockPair} (given : (i, lock) ∈ s.given) :
    (s.act (.cancel i lock)).Synced := by
  obtain ⟨inside, paired | ⟨gone, gone'⟩⟩ := synced.given _ given
  · have did := (synced.mirrors i inside).cancel synced.serving paired
    exact synced.did inside did fun p token => .inl token
  · have did := (synced.mirrors i inside).cancel_gone synced.serving gone gone'
    exact synced.did inside did fun p token => .inl token

theorem next (synced : s.Synced) {i : ClientId} (inside : i < s.cluster.clients.size) (wait : Nat) :
    (s.act (.next i wait)).Synced := by
  have passed := synced.elapses (Cluster.elapses_pass synced.serving.resting wait)
  unfold act Cluster.next
  dsimp only
  split
  · next answer x read =>
    have did := (synced.mirrors i inside).read synced.serving read
    exact synced.did inside did fun p token => .inl token
  · split
    · exact passed
    · exact synced

theorem takeUp (synced : s.Synced) : (s.act .takeUp).Synced := by
  refine synced.elapses ⟨rfl, rfl, ?_⟩
  cases taken : s.cluster.server.takeUp? with
  | none => exact (Cluster.Elapses.refl s.cluster).forwards
  | some server => exact synced.serving.forwards_takeUp taken

theorem act (synced : s.Synced) {a : Act} (allowed : s.Allows a) (prudent : s.Prudent a) :
    (s.act a).Synced := by
  cases a with
  | connect owner => exact synced.connect allowed
  | enqueue i key mode => exact synced.enqueue allowed prudent.1 prudent.2 key mode
  | convert i lock mode => exact synced.convert allowed prudent
  | cancel i lock => exact synced.cancel allowed
  | next i wait => exact synced.next allowed wait
  | takeUp => exact synced.takeUp
  | deliver d => exact synced.deliver allowed
  | catchUp => exact synced.elapses (Cluster.elapses_catchUp synced.serving.resting)
  | pass duration => exact synced.elapses (Cluster.elapses_pass synced.serving.resting duration)

end Synced

theorem Reached.synced (reached : Reached config Prudent s) : s.Synced := by
  induction reached with
  | start started => exact .start started
  | act _ a allowed prudent ih => exact ih.act allowed prudent

/-! ### Coherence -/

end Scene

/-- The client has a lock of its own on `key` that is granted `mode`. -/
def Client.Holds (x : Client) (key : Key) (mode : Mode) : Prop :=
  ∃ l ∈ x.space.live, (x.space.lock l).key = key ∧
    ((x.space.lock l).state = .granted ∨ (x.space.lock l).state = .converting) ∧
    (x.space.lock l).grantedMode = some mode

instance (x : Client) (key : Key) (mode : Mode) : Decidable (x.Holds key mode) :=
  inferInstanceAs (Decidable (∃ l ∈ x.space.live, _))

/-- A mode that a client in step holds is covered by one that a lock of its owner holds on the server. -/
theorem Client.Mirrors.covered {x : Client} {server : Namespace} (mirrors : x.Mirrors server)
    {key : Key} {mode : Mode} (holds : x.Holds key mode) :
    ∃ b s, server.Alive b ∧ (server.lock b).claim.owner = x.owner ∧ (server.lock b).key = key ∧
      (server.lock b).grantedMode = some s ∧ s.Covers mode := by
  obtain ⟨a, live, rfl, state, held⟩ := holds
  have sound := mirrors.orderly.resting.sound
  have alive : x.space.Alive a := sound.alive (sound.listed a live) fun canceled => by
    rcases state with state | state <;> cases state.symm.trans canceled
  obtain ⟨h, paired⟩ := mirrors.followed a mode alive held
  obtain ⟨k, b, linked, own, -⟩ := mirrors.linked h _ paired
  obtain rfl := mirrors.orderly.resting.distinct k a linked.own.1 alive.1 own
  obtain ⟨s, held', covers⟩ := linked.backed.held mode held
  exact ⟨b, s, linked.remote, linked.owner, linked.key.symm, held', covers⟩

namespace Scene

variable {config : Config} {s : Scene}

/-- What different clients hold locally on one key goes together. -/
def Coherent (s : Scene) : Prop :=
  ∀ i < s.cluster.clients.size, ∀ j < s.cluster.clients.size, i ≠ j → ∀ key mode mode',
    (s.client i).Holds key mode → (s.client j).Holds key mode' → mode.compatible mode' = true

theorem Synced.coherent (synced : s.Synced) : s.Coherent := by
  intro i inside j inside' other key mode mode' holds holds'
  obtain ⟨b, m, alive, owner, here, held, covers⟩ := (synced.mirrors i inside).covered holds
  obtain ⟨b', m', alive', owner', here', held', covers'⟩ :=
    (synced.mirrors j inside').covered holds'
  have apart : b ≠ b' := by
    rintro rfl
    exact other (synced.apart j inside' i inside (owner.symm.trans owner'))
  exact covers.compatible covers'
    (synced.serving.exclude alive alive' apart (here.trans here'.symm) held held')

/-- What clients hold locally goes together if they are prudent. -/
theorem own_locks_compatible (reached : Reached config Prudent s) : s.Coherent :=
  reached.synced.coherent

/-- A waits for a stronger mode until B cancels, and reads of it when B has the same mode again. -/
theorem own_locks_compatible_upgrade :
    let s := (fresh {}).follow Prudent
      [.connect ⟨"a"⟩, .connect ⟨"b"⟩, .enqueue 0 ⟨1, 0⟩ .concurrentRead,
        .enqueue 1 ⟨1, 0⟩ .protectedRead, .convert 0 ⟨⟨0, 1⟩, ⟨0, 1⟩, .granted⟩ .concurrentWrite,
        .cancel 1 ⟨⟨0, 1⟩, ⟨1, 1⟩, .granted⟩, .takeUp, .takeUp,
        .deliver ⟨0, ⟨.completion, ⟨0, 1⟩, ⟨1, 0⟩, .concurrentWrite, none⟩, 0⟩,
        .enqueue 1 ⟨1, 0⟩ .concurrentWrite, .next 0 0]
    (s.client 0).Holds ⟨1, 0⟩ .concurrentWrite ∧ (s.client 1).Holds ⟨1, 0⟩ .concurrentWrite ∧
      s.Coherent :=
  ⟨by decide +kernel, by decide +kernel, own_locks_compatible (reached_follow rfl _)⟩

/-- A reads of its exclusive mode only after it has gone back to reading, which B does by then. -/
theorem stale_completion_incompatible :
    let s := (fresh {}).follow (fun _ _ => True)
      [.connect ⟨"a"⟩, .connect ⟨"b"⟩, .enqueue 0 ⟨1, 0⟩ .protectedRead,
        .enqueue 1 ⟨1, 0⟩ .protectedRead, .convert 0 ⟨⟨0, 1⟩, ⟨0, 1⟩, .granted⟩ .exclusive,
        .cancel 1 ⟨⟨0, 1⟩, ⟨1, 1⟩, .granted⟩, .takeUp, .takeUp,
        .deliver ⟨0, ⟨.completion, ⟨0, 1⟩, ⟨1, 0⟩, .exclusive, none⟩, 0⟩,
        .convert 0 ⟨⟨0, 1⟩, ⟨0, 1⟩, .granted⟩ .protectedRead, .enqueue 1 ⟨1, 0⟩ .protectedRead,
        .next 0 0]
    Reached {} (fun _ _ => True) s ∧ (s.client 0).Holds ⟨1, 0⟩ .exclusive ∧
      (s.client 1).Holds ⟨1, 0⟩ .protectedRead ∧ ¬s.Coherent := by
  refine ⟨reached_follow rfl _, by decide +kernel, by decide +kernel, fun coherent => ?_⟩
  have beside : Mode.exclusive.compatible .protectedRead = true :=
    coherent 0 (by decide +kernel) 1 (by decide +kernel) (by decide) ⟨1, 0⟩ .exclusive .protectedRead
      (by decide +kernel) (by decide +kernel)
  cases beside

end Scene
end LockManager
