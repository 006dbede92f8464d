import LockManager.Proofs.Mirror.Pairing
import LockManager.Proofs.Namespace.Intact

set_option autoImplicit false

/-!
A client by itself, whatever becomes of the server. Its own locks stay in order with all that it does, and
when the server refuses something they are left as they were.
-/

namespace LockManager

open Namespace (Adds Deals Intact Joined Open Unmoved)

theorem HandleTable.size_insertWith_le_succ {α : Type} (t : HandleTable α) (build : Handle → α) :
    (t.insertWith build).slots.size ≤ t.slots.size + 1 := by
  unfold insertWith
  cases t.free <;> simp

namespace Namespace

/-! ### Done or refused -/

section

variable (ns : Namespace) (peer : Owner) (h : Handle) (mode : Mode)

theorem enqueue_done_or_refused (req : LockRequest) :
    (∃ reply ns', ns.enqueue req = (.ok reply, ns')) ∨ ∃ e, ns.enqueue req = (.error e, ns) := by
  rcases ns.register_cases req with ⟨e, refused⟩ | ⟨l, -, answered⟩ | ⟨-, entered⟩
  · refine .inr ⟨e, ?_⟩
    unfold enqueue
    rw [refused]
  · refine .inl ⟨ns.reply l, ns, ?_⟩
    unfold enqueue
    rw [answered]
  · obtain ⟨ns', done⟩ :=
      submit_addLock (unopposed_iff.mp (refusal?_of_register entered)).1 req
    exact .inl ⟨_, ns', enqueue_of_submit entered done⟩

theorem convert_done_or_refused :
    (∃ status ns', ns.convert h mode = (.ok status, ns')) ∨
      ∃ e, ns.convert h mode = (.error e, ns) := by
  unfold convert
  split
  · exact .inr ⟨_, rfl⟩
  · exact .inr ⟨_, rfl⟩
  · split
    · exact .inl ⟨_, _, rfl⟩
    · exact .inr ⟨_, rfl⟩

theorem convert_of_held {l : LockId} {status : ConvertStatus} {ns' : Namespace}
    (found : ns.handles.get? h = some l) (held : (ns.lock l).grantedMode = some mode)
    (done : ns.convert h mode = (.ok status, ns')) : ns' = ns := by
  have named : ns.lookup h = .ok l := by
    unfold lookup
    rw [found]
  unfold convert at done
  rw [named] at done
  cases running : ns.ensureRunning with
  | error e =>
    rw [running] at done
    cases done
  | ok _ =>
    rw [running] at done
    dsimp only at done
    split at done
    · next changed =>
      cases done
      exact Namespace.changeMode_of_held held changed
    · cases done

theorem cancel_done_or_refused :
    (∃ ns', ns.cancel h = (.ok .canceled, ns')) ∨ ∃ e, ns.cancel h = (.error e, ns) := by
  unfold cancel
  split
  · exact .inl ⟨_, rfl⟩
  · exact .inl ⟨_, rfl⟩
  · exact .inr ⟨_, rfl⟩

/-- A request is turned away, or the operation that it asks for is carried out. -/
theorem serve_cases (req : Request) :
    (∃ code message, ns.serve peer req = (.error code message, ns)) ∨
      ns.serve peer req = (.ofOutcome (ns.perform (req.operation peer)).1,
        (ns.perform (req.operation peer)).2) := by
  unfold serve
  cases asked : ns.operationOf peer req with
  | error e => exact .inl ⟨e.code, e.message, rfl⟩
  | ok op =>
    obtain rfl := operationOf_ok asked
    exact .inr rfl

theorem serve_enqueue_cases (key : Key) (policy : Policy) (seq : Option UInt64) :
    (∃ reply ns', ns.serve peer (.enqueue key mode policy seq) = (.enqueued reply, ns')) ∨
      ∃ code message, ns.serve peer (.enqueue key mode policy seq) = (.error code message, ns) := by
  rcases ns.serve_cases peer (.enqueue key mode policy seq) with refused | served
  · exact .inr refused
  · rw [served]
    dsimp only [Request.operation, perform]
    rcases ns.enqueue_done_or_refused { key, mode, policy, owner := peer, clientSeq := seq } with
      ⟨reply, ns', done⟩ | ⟨e, refused⟩
    · rw [done]
      exact .inl ⟨reply, ns', rfl⟩
    · rw [refused]
      exact .inr ⟨e.code, e.message, rfl⟩

theorem serve_convert_cases :
    (∃ status ns', ns.convert h mode = (.ok status, ns') ∧
        ns.serve peer (.convert h mode) = (.converted status, ns')) ∨
      ∃ code message, ns.serve peer (.convert h mode) = (.error code message, ns) := by
  rcases ns.serve_cases peer (.convert h mode) with refused | served
  · exact .inr refused
  · rw [served]
    dsimp only [Request.operation, perform]
    rcases ns.convert_done_or_refused h mode with ⟨status, ns', done⟩ | ⟨e, refused⟩
    · rw [done]
      exact .inl ⟨status, ns', rfl, rfl⟩
    · rw [refused]
      exact .inr ⟨e.code, e.message, rfl⟩

theorem serve_cancel_cases :
    (∃ ns', ns.serve peer (.cancel h) = (.canceled .canceled, ns')) ∨
      ∃ code message, ns.serve peer (.cancel h) = (.error code message, ns) := by
  rcases ns.serve_cases peer (.cancel h) with refused | served
  · exact .inr refused
  · rw [served]
    dsimp only [Request.operation, perform]
    rcases ns.cancel_done_or_refused h with ⟨ns', done⟩ | ⟨e, refused⟩
    · rw [done]
      exact .inl ⟨ns', rfl⟩
    · rw [refused]
      exact .inr ⟨e.code, e.message, rfl⟩

end

/-! ### Handles that have been issued -/

/-- The handle has been issued, and to one lock only. -/
def Knows (ns : Namespace) (h : Handle) : Prop := ∃ l < ns.locks.size, (ns.lock l).handle = h

variable {ns ns' : Namespace} {n : Nat} {h : Handle}

theorem Knows.unmoved (knows : ns.Knows h) (unmoved : Unmoved ns ns') : ns'.Knows h := by
  obtain ⟨l, known, rfl⟩ := knows
  exact ⟨l, unmoved.size ▸ known, unmoved.handle l⟩

/-- Whatever comes of it, no lock comes, goes or moves. -/
theorem Open.unmoved_convert (opened : ns.Open n) (h : Handle) (mode : Mode) :
    Unmoved ns (ns.convert h mode).2 := by
  cases found : ns.handles.get? h with
  | some l =>
    obtain ⟨alive, rfl⟩ := opened.resting.get?_iff.mp found
    exact opened.resting.unmoved_convert alive opened.running mode
  | none =>
    have same : (ns.convert h mode).2 = ns := by
      unfold convert lookup ensureRunning
      rw [found, opened.running]
      rfl
    rw [same]
    exact .refl opened.resting

/-- A lock of which the handle is known is canceled, or has been canceled before. -/
theorem Open.cancel (opened : ns.Open n) (few : n < generations) (knows : ns.Knows h) :
    ∃ ns', ns.cancel h = (.ok .canceled, ns') ∧
      ((∃ l, ns.Alive l ∧ ns' = ns.cancelLock l) ∨ ns' = ns) := by
  obtain ⟨l, known, rfl⟩ := knows
  have rest := opened.resting
  cases gone : (ns.lock l).retired with
  | false => exact ⟨_, rest.cancel ⟨known, gone⟩, .inl ⟨l, ⟨known, gone⟩, rfl⟩⟩
  | true =>
    obtain ⟨calls, recalls⟩ := opened.issued.recalled
    have dead : ¬ns.Alive l := fun alive => Bool.false_ne_true (alive.2.symm.trans gone)
    have spent : ns.spent (ns.lock l).handle.index < generations :=
      Nat.lt_of_le_of_lt (Nat.le_trans (List.length_filter_le _ _) opened.issued.few) few
    refine ⟨ns, ?_, .inr rfl⟩
    unfold Namespace.cancel
    rw [recalls.status_of_gone rest.room known dead spent]

end Namespace

namespace Client

variable {x x' : Client} {server server' : Namespace} {n : Nat} {lock : LockPair} {key : Key}
  {mode : Mode}

/-! ### What comes of a request -/

theorem convert_cases (x : Client) (server : Namespace) (lock : LockPair) (mode : Mode) :
    (∃ e, x.convert server lock mode = (.error e, x, server)) ∨
      (∃ server', x.convert server lock mode = (.ok .pending, x, server')) ∨
        ∃ server', server.convert lock.remote mode = (.ok .granted, server') ∧
          x.convert server lock mode =
            (((x.space.convert lock.own mode).1.mapError ClientError.refused).map fun _ => .granted,
              { x with space := (x.space.convert lock.own mode).2 }, server') := by
  obtain ⟨own, remote, first⟩ := lock
  rcases server.serve_convert_cases x.owner remote mode with
    ⟨status, server', done, served⟩ | ⟨code, message, refused⟩
  · cases status with
    | granted => exact .inr (.inr ⟨server', done, Mirrors.convert_of_granted first served⟩)
    | pending => exact .inr (.inl ⟨server', Mirrors.convert_of_pending first served⟩)
  · refine .inl ⟨.rejected code message, ?_⟩
    unfold Client.convert
    rw [refused]
    rfl

theorem cancel_cases (x : Client) (server : Namespace) {lock : LockPair} {space : Namespace}
    (canceled : x.space.cancel lock.own = (.ok .canceled, space)) :
    (∃ e, x.cancel server lock = (.error e, x, server)) ∨
      ∃ server', x.cancel server lock =
        (.ok .canceled, { x with space, pairs := x.pairs.erase lock.remote }, server') := by
  unfold Client.cancel
  rcases server.serve_cancel_cases x.owner lock.remote with
    ⟨server', served⟩ | ⟨code, message, refused⟩
  · rw [served]
    dsimp only [takeOver]
    rw [canceled]
    exact .inr ⟨server', rfl⟩
  · rw [refused]
    exact .inl ⟨_, rfl⟩

/-- The own lock that a request begins with. -/
def draft (x : Client) (mode : Mode) : LockRequest :=
  { key := unboundKey, mode, owner := x.owner }

/-- A request without an owner is not begun; one that the server turns away is taken back; and the own lock
of any other is bound where the server's is. -/
theorem enqueue_cases (kept : x.Kept n) (few : n < generations) (room : x.space.HasRoom)
    (server : Namespace) (key : Key) (mode : Mode) :
    (x.owner.name.isEmpty = true ∧
        ∃ e, x.enqueue server key mode = (.error e, { x with nextSeq := x.nextSeq + 1 }, server)) ∨
      (∃ e, x.enqueue server key mode =
        (.error e, { x with
          nextSeq := x.nextSeq + 1
          space := (x.space.addLock (x.draft mode)).2.cancelLock x.space.locks.size }, server)) ∨
      ∃ state h server' space, x.enqueue server key mode =
          (.ok ⟨x.space.handles.upcoming, h, state⟩, x.pairUp space h, server') ∧
        Joined x.space x.owner key space ∧ space.Open n ∧ space.config.role = .client ∧
        space.handles = (x.space.addLock (x.draft mode)).2.handles := by
  cases named : x.owner.name.isEmpty with
  | true =>
    refine .inl ⟨rfl, .refused (.invalidRequest "owner is required"), ?_⟩
    unfold Client.enqueue
    dsimp only
    rw [createLock_unnamed kept.opened.running named]
    rfl
  | false =>
    have rest := kept.opened.resting
    have made : x.space.createLock (x.draft mode) = _ :=
      Namespace.Resting.createLock_fresh kept.opened.running rfl named rfl
    have adds : Adds x.space (x.draft mode) _ :=
      rest.addLock (kept.opened.issued.fresh rest few room) rfl
    have handle : ((x.space.addLock (x.draft mode)).2.lock x.space.locks.size).handle =
        x.space.handles.upcoming := by
      obtain ⟨r, new⟩ := adds.new
      rw [new]
      rfl
    unfold Client.enqueue
    dsimp only [takeOver]
    rw [show x.space.createLock { key := unboundKey, mode, owner := x.owner } = _ from made]
    dsimp only [Except.mapError]
    rcases server.serve_enqueue_cases x.owner mode key .plain (some x.nextSeq) with
      ⟨reply, server', served⟩ | ⟨code, message, refused⟩
    · obtain ⟨made', space, created, rebound, own, opened, client, new⟩ :=
        exists_joined kept few room named key mode
      obtain rfl : (x.space.addLock (x.draft mode)).2 = made' :=
        congrArg Prod.snd (made.symm.trans created)
      obtain ⟨final, adopted, unmoved⟩ := exists_granted opened own new reply.state
      have moved := Namespace.handles_rebind (x.space.addLock (x.draft mode)).2
        x.space.handles.upcoming key
      rw [rebound] at moved
      refine .inr (.inr ⟨reply.state, reply.handle, server', final, ?_, own.unmoved unmoved,
        opened.unmoved unmoved, unmoved.role.trans client, unmoved.handles.trans moved⟩)
      have answered : adopt { x with
          space := (x.space.addLock (x.draft mode)).2, nextSeq := x.nextSeq + 1 }
            x.space.handles.upcoming key reply = _ := adopt_eq rebound adopted
      rw [served]
      dsimp only
      rw [answered]
      rfl
    · refine .inr (.inl ⟨.ofResponse (.error code message), ?_⟩)
      rw [refused]
      dsimp only [abandon, takeOver]
      rw [← handle, adds.resting.cancel adds.alive]
      rfl

/-- The server grants another mode at once, while the own lock has not been granted anything that could be
converted. -/
def LagsBehind (x : Client) (server : Namespace) (lock : LockPair) (mode : Mode) : Prop :=
  (server.convert lock.remote mode).1 = .ok .granted ∧
    (∀ l, server.handles.get? lock.remote = some l → (server.lock l).grantedMode ≠ some mode) ∧
    ∀ a, x.space.handles.get? lock.own = some a → (x.space.lock a).state ≠ .granted

/-! ### Own locks in order -/

/-- What holds of a client's own locks when it has asked for locks and canceled them `n` times at most. -/
structure Sparing (x : Client) (n : Nat) : Prop extends Kept x n where
  slots : x.space.handles.slots.size ≤ n

/-- The client has gone on, and has not forgotten the handles of its own locks. -/
structure Advances (x x' : Client) (n : Nat) : Prop where
  sparing : x'.Sparing n
  owner : x'.owner = x.owner
  knows : ∀ h, x.space.Knows h → x'.space.Knows h

namespace Sparing

theorem mono (sparing : x.Sparing n) {n' : Nat} (more : n ≤ n') : x.Sparing n' :=
  ⟨sparing.toKept.mono more, Nat.le_trans sparing.slots more⟩

theorem room (sparing : x.Sparing n) (few : n < generations) : x.space.HasRoom := fun _ =>
  Nat.lt_of_le_of_lt sparing.slots (Nat.lt_of_lt_of_le few (Nat.sub_le _ _))

theorem advances (sparing : x.Sparing n) : Advances x x n := ⟨sparing, rfl, fun _ => id⟩

theorem unmoved (sparing : x.Sparing n) (own : Unmoved x.space x'.space) (owner : x'.owner = x.owner)
    (nextSeq : x'.nextSeq = x.nextSeq) : Advances x x' n := by
  refine ⟨⟨sparing.toKept.unmoved own owner nextSeq, ?_⟩, owner, fun h knows => knows.unmoved own⟩
  rw [own.handles]
  exact sparing.slots

theorem read (sparing : x.Sparing n) {answer : Except ClientError Notification}
    (done : x.read? = some (answer, x')) : Advances x x' n := by
  obtain ⟨own, owner, -, nextSeq⟩ := unmoved_read sparing.opened done
  exact sparing.unmoved own owner nextSeq

theorem convert (sparing : x.Sparing n) (server : Namespace) (lock : LockPair) (mode : Mode) :
    Advances x (x.convert server lock mode).2.1 n := by
  rcases x.convert_cases server lock mode with ⟨e, done⟩ | ⟨server', done⟩ | ⟨server', -, done⟩ <;>
    rw [done]
  · exact sparing.advances
  · exact sparing.advances
  · exact sparing.unmoved (sparing.opened.unmoved_convert lock.own mode) rfl rfl

/-- One of the own locks is done with. -/
theorem of_cancelLock (kept : x.Kept n) (slots : x.space.handles.slots.size ≤ n + 1) {l : LockId}
    (alive : x.space.Alive l) (pairs : Index Handle Handle) :
    Advances x { x with space := x.space.cancelLock l, pairs } (n + 1) := by
  have rest := kept.opened.resting
  obtain ⟨deals, retired⟩ := rest.cancelLock alive
  have dead : ¬(x.space.cancelLock l).Alive l := fun lives =>
    Bool.false_ne_true (lives.2.symm.trans retired)
  refine ⟨⟨kept.deals deals (kept.opened.cancelLock alive) fun lives => absurd lives dead, ?_⟩, rfl,
    fun h knows => ?_⟩
  · rw [show _ = x.space.handles.remove _ from rest.handles_cancelLock alive, HandleTable.size_remove]
    exact slots
  · obtain ⟨k, known, rfl⟩ := knows
    exact ⟨k, deals.size.symm ▸ known, congrArg Claim.handle (deals.claim k)⟩

theorem cancel (sparing : x.Sparing n) (few : n < generations) (knows : x.space.Knows lock.own)
    (server : Namespace) : Advances x (x.cancel server lock).2.1 (n + 1) := by
  have later := sparing.mono (Nat.le_succ n)
  obtain ⟨space, canceled, ways⟩ := sparing.opened.cancel few knows
  rcases x.cancel_cases server canceled with ⟨e, done⟩ | ⟨server', done⟩ <;> rw [done]
  · exact later.advances
  · rcases ways with ⟨l, alive, rfl⟩ | rfl
    · exact of_cancelLock sparing.toKept later.slots alive _
    · exact ⟨⟨later.toKept.unmoved (.refl later.opened.resting) rfl rfl, later.slots⟩, rfl, fun _ => id⟩

/-- The own lock that a request begins with has been made, and nothing else has happened. -/
theorem drafted (sparing : x.Sparing n)
    (adds : Adds x.space (x.draft mode) (x.space.addLock (x.draft mode)).2) :
    Kept { x with nextSeq := x.nextSeq + 1, space := (x.space.addLock (x.draft mode)).2 } n ∧
      (x.space.addLock (x.draft mode)).2.handles.slots.size ≤ n + 1 ∧
      ∀ h, x.space.Knows h → (x.space.addLock (x.draft mode)).2.Knows h := by
  have slots : (x.space.addLock (x.draft mode)).2.handles.slots.size ≤ n + 1 := by
    rw [Namespace.handles_addLock]
    exact Nat.le_trans (HandleTable.size_insertWith_le_succ ..) (Nat.succ_le_succ sparing.slots)
  have issued : (x.space.addLock (x.draft mode)).2.Issued n :=
    sparing.opened.issued.addLock sparing.opened.resting rfl
  generalize (x.space.addLock (x.draft mode)).2 = made at *
  obtain ⟨r, new⟩ := adds.new
  refine ⟨⟨⟨adds.resting, adds.steady.stopping.trans sparing.opened.running, issued⟩, ?_,
    fun k alive => ?_, fun named => ?_⟩, slots, ?_⟩
  · exact (congrArg Config.role adds.steady.config).trans sparing.role
  · rcases Nat.lt_succ_iff_lt_or_eq.mp (Nat.lt_of_lt_of_eq alive.1 adds.size) with before | rfl
    · have same := adds.old k before
      exact (congrArg (·.claim.owner) same).trans (sparing.owned k ⟨before, same ▸ alive.2⟩)
    · exact congrArg (·.claim.owner) new
  · show x.nextSeq + 1 = UInt64.ofNat (made.locks.size + 1)
    rw [sparing.numbered named, adds.size]
    exact (UInt64.ofNat_add (x.space.locks.size + 1) 1).symm
  · rintro h ⟨k, known, rfl⟩
    exact ⟨k, adds.size ▸ Nat.lt_succ_of_lt known, congrArg Lock.handle (adds.old k known)⟩

theorem enqueue (sparing : x.Sparing n) (few : n < generations) (server : Namespace) (key : Key)
    (mode : Mode) : Advances x (x.enqueue server key mode).2.1 (n + 1) ∧
      ∀ pair, (x.enqueue server key mode).1 = .ok pair →
        (x.enqueue server key mode).2.1.space.Knows pair.own := by
  have rest := sparing.opened.resting
  have adds : Adds x.space (x.draft mode) _ :=
    rest.addLock (sparing.opened.issued.fresh rest few (sparing.room few)) rfl
  obtain ⟨kept, slots, knows⟩ := sparing.drafted adds
  rcases enqueue_cases sparing.toKept few (sparing.room few) server key mode with
    ⟨unnamed, e, done⟩ | ⟨e, done⟩ | ⟨state, h, server', space, done, own, opened, client, handles⟩ <;>
    rw [done]
  · have later := sparing.mono (Nat.le_succ n)
    refine ⟨⟨⟨⟨later.opened, later.role, later.owned, fun named => ?_⟩, later.slots⟩, rfl, fun _ => id⟩,
      nofun⟩
    cases unnamed.symm.trans named
  · have back := of_cancelLock kept slots adds.alive x.pairs
    exact ⟨⟨back.sparing, rfl, fun h known => back.knows h (knows h known)⟩, nofun⟩
  · refine ⟨⟨⟨(sparing.toKept.pairUp opened client own h).mono (Nat.le_succ n), ?_⟩, rfl, ?_⟩,
      fun pair answered => ?_⟩
    · exact handles ▸ slots
    · rintro g ⟨k, known, rfl⟩
      exact ⟨k, own.size ▸ Nat.lt_succ_of_lt known, congrArg Claim.handle (own.old k known).1⟩
    · obtain rfl := Except.ok.inj answered
      exact ⟨x.space.locks.size, own.alive.1, own.handle⟩

/-! ### Errors -/

variable {e : ClientError}

/-- A request that ends in an error has left the server alone, and the client's own locks unless one of
their conversions has been left pending with nothing against it. -/
theorem enqueue_error (sparing : x.Sparing n) (few : n < generations)
    (opposed : ∀ q, x.space.queuesUnder unboundKey = some q → ∀ e ∈ q.converting, q.Opposed e)
    (error : (x.enqueue server key mode).1 = .error e) :
    (x.enqueue server key mode).2.2 = server ∧ (x.enqueue server key mode).2.1.pairs = x.pairs ∧
      Intact x.space (x.enqueue server key mode).2.1.space := by
  have rest := sparing.opened.resting
  rcases enqueue_cases sparing.toKept few (sparing.room few) server key mode with
    ⟨-, e, done⟩ | ⟨e, done⟩ | ⟨state, h, server', space, done, -⟩ <;> rw [done] at error ⊢
  · exact ⟨rfl, rfl, .refl _⟩
  · refine ⟨rfl, rfl, ?_⟩
    exact rest.intact_taken_back (sparing.opened.issued.fresh rest few (sparing.room few)) rfl opposed
  · cases error

/-- A conversion that ends in an error has changed nothing, unless the client lags behind. -/
theorem convert_error (sparing : x.Sparing n) (level : ¬x.LagsBehind server lock mode)
    (error : (x.convert server lock mode).1 = .error e) :
    x.convert server lock mode = (.error e, x, server) := by
  rcases x.convert_cases server lock mode with
    ⟨e', done⟩ | ⟨server', done⟩ | ⟨server', granted, done⟩ <;> rw [done] at error ⊢
  · obtain rfl := Except.error.inj error
    rfl
  · cases error
  · have rest := sparing.opened.resting
    rcases x.space.convert_done_or_refused lock.own mode with ⟨status, space, own⟩ | ⟨e', own⟩
    · rw [own] at error
      cases error
    · have unchanged : server' = server := by
        by_contra changed
        refine level ⟨congrArg Prod.fst granted, fun l found held => ?_, fun a found state => ?_⟩
        · exact changed (server.convert_of_held _ _ found held granted)
        · -- a granted lock can be converted
          obtain ⟨alive, named⟩ := rest.get?_iff.mp found
          have holds := (rest.settled alive).holds state
          have standing : (x.space.lock a).standing = ⟨.granted, (x.space.lock a).requestedMode,
              some (x.space.lock a).requestedMode⟩ := congrArg₂ (Standing.mk · _ ·) state holds
          rw [← named] at own
          rcases rest.convert alive sparing.opened.running standing mode with
            ⟨-, ok⟩ | ⟨space, ⟨ok, -⟩ | ⟨ok, -⟩⟩ <;> cases own.symm.trans ok
      rw [own] at error ⊢
      rw [unchanged, ← error]

theorem cancel_error (sparing : x.Sparing n) (few : n < generations)
    (knows : x.space.Knows lock.own) (error : (x.cancel server lock).1 = .error e) :
    x.cancel server lock = (.error e, x, server) := by
  obtain ⟨space, canceled, -⟩ := sparing.opened.cancel few knows
  rcases x.cancel_cases server canceled with ⟨e', done⟩ | ⟨server', done⟩ <;> rw [done] at error ⊢
  · obtain rfl := Except.error.inj error
    rfl
  · cases error

end Sparing
end Client
end LockManager
