import LockManager.Proofs.Mirror.Exchange

set_option autoImplicit false

/-!
Each thing that a client does with a server leaves it in step, if completions are read before other
modes are asked for.
-/

namespace LockManager
namespace Client

open Namespace (Adds Deals Puts Spared)

variable {x x' : Client} {server server' : Namespace} {a b : LockId} {h : Handle}

namespace Mirrors

/-! ### Reading -/

theorem follower?_of_linked (mirrors : x.Mirrors server) (linked : x.Linked server a b)
    (paired : x.pairs.get? h = some (x.space.lock a).handle) :
    x.follower? h = some (x.space.lock a) := by
  unfold follower?
  rw [paired]
  dsimp only [bind, Option.bind]
  rw [mirrors.orderly.resting.get?_iff.mpr ⟨linked.own, rfl⟩]
  rfl

/-- The other own locks leave room for what the server's lock covers. -/
theorem room (mirrors : x.Mirrors server) (serving : server.Serving) (serving' : server'.Serving)
    (remote : Deals server b server') (linked : x.Linked server a b)
    (paired : x.pairs.get? (server.lock b).handle = some (x.space.lock a).handle)
    (alive : server'.Alive b) (same : (server'.lock b).key = (server.lock b).key) {s mode : Mode}
    (held : (server'.lock b).grantedMode = some s) (covers : s.Covers mode) (k : LockId)
    (other : k ≠ a) (own : x.space.Alive k) (key : (x.space.lock k).key = (x.space.lock a).key)
    (m : Mode) (held' : (x.space.lock k).grantedMode = some m) : m.compatible mode = true := by
  refine mirrors.beside serving serving' remote alive held covers own
    ((key.trans linked.key).trans same.symm) ?_ held'
  rw [paired]
  intro same
  exact other (mirrors.orderly.resting.distinct a k linked.own.1 own.1 (Option.some.inj same)).symm

/-- The own lock has been granted a mode after a message about its lock has been read. -/
theorem settle_read (mirrors : x.Mirrors server) (serving : server.Serving) {n : Notification}
    {inbox : List Notification} (first : x.inbox = n :: inbox) (linked : x.Linked server a b)
    (named : (server.lock b).handle = n.handle)
    (paired : x.pairs.get? n.handle = some (x.space.lock a).handle) {s mode : Mode}
    (held : (server.lock b).grantedMode = some s) (covers : s.Covers mode) {space : Namespace}
    (puts : Puts x.space a ⟨.granted, mode, some mode⟩ space) :
    Did x server { x with inbox, space } server := by
  have same := Deals.refl serving.resting b
  have exchange : Exchange x { x with inbox, space } server server a (server.lock b).handle := by
    refine .of_deals mirrors linked (named ▸ paired) puts.toDeals same rfl (fun n' other => ?_)
      fun _ _ => rfl
    rw [first, List.mem_cons]
    refine ⟨.inr, fun here => here.resolve_left ?_⟩
    rintro rfl
    exact other named.symm
  have told (m : Mode) (heard : m ∈ unread { x with inbox, space } server (server.lock b).handle) :
      s.Covers m := by
    obtain ⟨n', place, rest⟩ := mem_unread.mp heard
    have before : m ∈ x.unread server (server.lock b).handle :=
      mem_unread.mpr ⟨n', place.imp_left fun here => first ▸ List.mem_cons_of_mem n here, rest⟩
    obtain ⟨s', held', covers'⟩ := linked.backed.told m before
    exact Option.some.inj (held'.symm.trans held) ▸ covers'
  have settled : Linked { x with inbox, space } server a b :=
    linked.settle puts same linked.remote rfl rfl held covers told
  have orderly := mirrors.orderly.deals puts.toDeals fun _ =>
    .inr (congrArg Standing.state puts.standing)
  have own : (space.lock a).handle = (x.space.lock a).handle := congrArg Claim.handle (puts.claim a)
  refine .of_deals linked puts.toDeals same
    (mirrors.exchange exchange serving serving ⟨orderly.resting, orderly.running, orderly.role,
      orderly.simple, orderly.numbered⟩ (fun g found => ⟨?_, b, settled, rfl⟩) fun _ _ _ => ?_)
    serving rfl (fun n' here => first ▸ List.mem_cons_of_mem n here) fun _ _ => .inl
  · rw [named, paired] at found
    exact own.trans (Option.some.inj found)
  · rw [named, own]
    exact paired

/-- A completion that has been read is carried over to the own lock. -/
theorem follow (mirrors : x.Mirrors server) (serving : server.Serving) {n : Notification}
    {inbox : List Notification} (first : x.inbox = n :: inbox) (completion : n.kind = .completion)
    (linked : x.Linked server a b) (named : (server.lock b).handle = n.handle)
    (paired : x.pairs.get? n.handle = some (x.space.lock a).handle) :
    Did x server (Client.follow { x with inbox } n).2 server := by
  have news : n.mode ∈ x.unread server (server.lock b).handle :=
    mem_unread.mpr ⟨n, .inl (first ▸ List.mem_cons_self), named.symm, completion, rfl⟩
  obtain ⟨s, held, covers⟩ := linked.backed.told _ news
  have follower : follower? { x with inbox } n.handle = some (x.space.lock a) :=
    mirrors.follower?_of_linked linked paired
  have room {mode : Mode} (covers : s.Covers mode) :=
    mirrors.room serving serving (.refl serving.resting b) linked (named ▸ paired) linked.remote rfl
      held covers
  unfold Client.follow
  rw [if_pos completion, follower]
  dsimp only
  rcases mirrors.orderly.simple a linked.own with state | state
  · have wanted : s.Covers (x.space.lock a).requestedMode := by
      rcases linked.backed.new state with waits | ⟨m, coming, covers'⟩
      · rw [waits] at held
        cases held
      · obtain ⟨s', held', above⟩ := linked.backed.told m coming
        exact Option.some.inj (held'.symm.trans held) ▸ above.trans covers'
    obtain ⟨space, done, puts⟩ := mirrors.orderly.enqueueLock linked.own state (room wanted)
    rw [state]
    dsimp only
    rw [done]
    exact mirrors.settle_read serving first linked named paired held wanted puts
  · obtain ⟨space, done, puts⟩ := mirrors.orderly.convert linked.own state (room covers)
    rw [state]
    dsimp only
    rw [done]
    exact mirrors.settle_read serving first linked named paired held covers puts

/-- Other messages are read and change nothing. -/
theorem skip (mirrors : x.Mirrors server) (serving : server.Serving) {n : Notification}
    {inbox : List Notification} (first : x.inbox = n :: inbox)
    (other : n.kind = .completion → x.pairs.get? n.handle = none) :
    Did x server { x with inbox } server := by
  have after : Mirrors { x with inbox } server := by
    refine mirrors.pass inbox (fun b alive => ⟨alive, rfl, rfl, rfl⟩) fun b alive mine ⟨g, paired⟩ m => ?_
    rw [mem_unread, mem_unread, first]
    constructor
    · rintro ⟨n', place, rest⟩
      exact ⟨n', place.imp_left (List.mem_cons_of_mem n), rest⟩
    · rintro ⟨n', here | sent, named, completion, told⟩
      · rcases List.mem_cons.mp here with rfl | later
        · rw [← named, other completion] at paired
          cases paired
        · exact ⟨n', .inl later, named, completion, told⟩
      · exact ⟨n', .inr sent, named, completion, told⟩
  exact .of_same after serving rfl (fun n' here => first ▸ List.mem_cons_of_mem n here)
    (fun _ _ => id) rfl

/-- A client that reads its next message stays in step. -/
theorem read (mirrors : x.Mirrors server) (serving : server.Serving)
    {answer : Except ClientError Notification} (done : x.read? = some (answer, x')) :
    Did x server x' server := by
  unfold read? at done
  split at done
  · cases done
  · next n inbox first =>
    obtain rfl : (Client.follow { x with inbox } n).2 = x' := congrArg Prod.snd (Option.some.inj done)
    by_cases completion : n.kind = .completion
    · cases paired : x.pairs.get? n.handle with
      | some g =>
        obtain ⟨a, b, linked, rfl, named⟩ := mirrors.linked n.handle g paired
        exact mirrors.follow serving first completion linked named paired
      | none =>
        have still : (Client.follow { x with inbox } n).2 = { x with inbox } := by
          unfold Client.follow follower?
          rw [if_pos completion]
          dsimp only
          rw [paired]
          rfl
        rw [still]
        exact mirrors.skip serving first fun _ => paired
    · have still : (Client.follow { x with inbox } n).2 = { x with inbox } := by
        unfold Client.follow
        rw [if_neg completion]
      rw [still]
      exact mirrors.skip serving first fun same => absurd same completion

/-! ### Converting -/

/-- A lock that has been told nothing leaves its owner nothing more to read. -/
theorem unread_of_puts (serving : server.Serving) (serving' : server'.Serving)
    (alive : server.Alive b) {standing : Standing} (puts : Puts server b standing server') (m : Mode) :
    m ∈ x.unread server' (server.lock b).handle ↔ m ∈ x.unread server (server.lock b).handle := by
  obtain ⟨more, later, mine, none⟩ :=
    (puts.hears serving.opened).pending (serving.regular b alive).heard
  have same : m ∈ x.unread server' (server.lock b).handle ↔
      m ∈ x.unread server (server.lock b).handle ++ completions more :=
    mem_unread_append serving.resting serving'.resting alive puts.alive
      (congrArg Claim.handle (puts.claim b)) puts.steady.deliveries later mine (fun _ _ => Iff.rfl) m
  rwa [none, List.append_nil] at same

/-- The server has granted the mode, and the own lock gets it too. -/
theorem convert_granted (mirrors : x.Mirrors server) (serving : server.Serving)
    (serving' : server'.Serving) (linked : x.Linked server a b)
    (paired : x.pairs.get? (server.lock b).handle = some (x.space.lock a).handle) {mode : Mode}
    (covers : ∀ m ∈ x.unread server (server.lock b).handle, mode.Covers m)
    (granted : (x.space.lock a).state = .granted)
    (puts : Puts server b ⟨.granted, mode, some mode⟩ server') :
    ∃ space, x.space.convert (x.space.lock a).handle mode = (.ok .granted, space) ∧
      Did x server { x with space } server' := by
  have held : (server'.lock b).grantedMode = some mode := congrArg Standing.held puts.standing
  obtain ⟨space, done, own⟩ := mirrors.orderly.convert linked.own granted
    (mirrors.room serving serving' puts.toDeals linked paired puts.alive puts.key held (.refl mode))
  have handle : (server'.lock b).handle = (server.lock b).handle :=
    congrArg Claim.handle (puts.claim b)
  have mine : (space.lock a).handle = (x.space.lock a).handle := congrArg Claim.handle (own.claim a)
  have settled : Linked { x with space } server' a b := by
    refine linked.settle own puts.toDeals puts.alive puts.key rfl held (.refl mode) fun m heard => ?_
    rw [handle] at heard
    exact covers m ((unread_of_puts (x := x) serving serving' linked.remote puts m).mp heard)
  have orderly := mirrors.orderly.deals own.toDeals fun _ =>
    .inr (congrArg Standing.state own.standing)
  have exchange : Exchange x { x with space } server server' a (server.lock b).handle :=
    .of_deals mirrors linked paired own.toDeals puts.toDeals rfl (fun _ _ => Iff.rfl) fun _ _ => rfl
  refine ⟨space, done, .of_deals linked own.toDeals puts.toDeals
    (mirrors.exchange exchange serving serving' orderly (fun g found => ⟨?_, b, settled, handle⟩)
      fun _ _ _ => ?_) serving' rfl (fun _ => id) fun _ _ => .inl⟩
  · exact mine.trans (Option.some.inj (paired.symm.trans found))
  · rw [mine]
    exact paired

/-- The server's lock stands otherwise, and the own lock is left as it is. -/
theorem stay (mirrors : x.Mirrors server) (serving : server.Serving) (serving' : server'.Serving)
    (linked : x.Linked server a b)
    (paired : x.pairs.get? (server.lock b).handle = some (x.space.lock a).handle)
    {standing : Standing} (puts : Puts server b standing server')
    (backed : Backed (x.space.lock a).standing standing (x.unread server (server.lock b).handle)) :
    Did x server x server' := by
  have handle : (server'.lock b).handle = (server.lock b).handle :=
    congrArg Claim.handle (puts.claim b)
  have linked' : x.Linked server' a b := by
    refine ⟨linked.own, puts.alive, ?_, linked.key.trans puts.key.symm, ?_⟩
    · rw [puts.claim, linked.owner]
    · rw [puts.standing, handle]
      exact backed.congr (unread_of_puts serving serving' linked.remote puts)
  have same := Deals.refl mirrors.orderly.resting a
  have exchange : Exchange x x server server' a (server.lock b).handle :=
    .of_deals mirrors linked paired same puts.toDeals rfl (fun _ _ => Iff.rfl) fun _ _ => rfl
  refine .of_deals linked same puts.toDeals (mirrors.exchange exchange serving serving'
    mirrors.orderly (fun g found => ⟨?_, b, linked', handle⟩) fun _ _ _ => paired) serving' rfl
    (fun _ => id) fun _ _ => .inl
  exact Option.some.inj (paired.symm.trans found)

/-- The server's lock waits for a stronger mode. -/
theorem convert_pending (mirrors : x.Mirrors server) (serving : server.Serving)
    (linked : x.Linked server a b)
    (paired : x.pairs.get? (server.lock b).handle = some (x.space.lock a).handle) {held mode : Mode}
    (holds : (server.lock b).grantedMode = some held) (covers : mode.Covers held)
    (puts : Puts server b ⟨.converting, mode, some held⟩ server') : Did x server x server' := by
  have serving' : server'.Serving := by
    refine serving.deals puts.toDeals fun _ =>
      (serving.regular b linked.remote).hears (puts.hears serving.opened) fun _ m holds' => ?_
    rw [show (server'.lock b).grantedMode = some held from congrArg Standing.held puts.standing,
      Option.some.injEq] at holds'
    rw [show (server'.lock b).requestedMode = mode from congrArg Standing.wanted puts.standing]
    exact holds' ▸ covers
  refine mirrors.stay serving serving' linked paired puts ⟨fun m own => ?_, fun m heard => ?_, fun new => ?_⟩
  · exact holds ▸ linked.backed.held m own
  · exact holds ▸ linked.backed.told m heard
  · refine .inr ((linked.backed.new new).resolve_left fun waits => ?_)
    rw [show (server.lock b).grantedMode = none from congrArg Standing.held waits] at holds
    cases holds

section

variable {own remote : Handle} {mode : Mode} (first : LockState)

theorem convert_of_granted
    (served : server.serve x.owner (.convert remote mode) = (.converted .granted, server')) :
    x.convert server ⟨own, remote, first⟩ mode =
      (((x.space.convert own mode).1.mapError ClientError.refused).map fun _ => .granted,
        { x with space := (x.space.convert own mode).2 }, server') := by
  unfold Client.convert takeOver
  rw [served]
  dsimp only
  cases (x.space.convert own mode).1 <;> rfl

theorem convert_of_pending
    (served : server.serve x.owner (.convert remote mode) = (.converted .pending, server')) :
    x.convert server ⟨own, remote, first⟩ mode = (.ok .pending, x, server') := by
  unfold Client.convert
  rw [served]

end

/-- The server has granted the mode. An own lock that is new cannot be converted and stays new. -/
theorem convert_at_once (mirrors : x.Mirrors server) (serving : server.Serving)
    (linked : x.Linked server a b)
    (paired : x.pairs.get? (server.lock b).handle = some (x.space.lock a).handle) {mode : Mode}
    (granted : (server.lock b).state = .granted)
    (covers : ∀ m ∈ x.unread server (server.lock b).handle, mode.Covers m)
    (puts : Puts server b ⟨.granted, mode, some mode⟩ server') :
    Did x server { x with space := (x.space.convert (x.space.lock a).handle mode).2 } server' := by
  have serving' : server'.Serving := by
    refine serving.deals puts.toDeals fun _ =>
      (serving.regular b linked.remote).hears (puts.hears serving.opened) fun state => ?_
    rw [show (server'.lock b).state = .granted from congrArg Standing.state puts.standing] at state
    cases state
  rcases mirrors.orderly.simple a linked.own with new | own
  · have other : (x.space.lock a).state ≠ .granted := by rw [new]; exact LockState.noConfusion
    obtain ⟨e, refused⟩ := mirrors.orderly.resting.convert_refused linked.own mirrors.orderly.running
      other mode
    rw [refused]
    refine mirrors.stay serving serving' linked paired puts ⟨fun m holds => ?_, fun m heard => ?_,
      fun _ => ?_⟩
    · rw [show (x.space.lock a).standing.held = none from
        (mirrors.orderly.resting.settled linked.own).holds_none new] at holds
      cases holds
    · exact ⟨mode, rfl, covers m heard⟩
    · refine .inr ((linked.backed.new new).resolve_left fun waits => ?_)
      rw [show (server.lock b).state = .waiting from congrArg Standing.state waits] at granted
      cases granted
  · obtain ⟨space, done, did⟩ :=
      mirrors.convert_granted serving serving' linked paired covers own puts
    rw [done]
    exact did

/-- A client that asks for another mode stays in step if it waits for nothing but modes that cover the one
held, and gets nothing at once but what covers the modes that it has not read of yet. -/
theorem convert (mirrors : x.Mirrors server) (serving : server.Serving) {lock : LockPair} {mode : Mode}
    (paired : x.pairs.get? lock.remote = some lock.own)
    (waits : (server.serve x.owner (.convert lock.remote mode)).1 = .converted .pending → ∀ l held,
      server.handles.get? lock.remote = some l → (server.lock l).grantedMode = some held →
        mode.Covers held)
    (gets : (server.serve x.owner (.convert lock.remote mode)).1 = .converted .granted →
      ∀ m ∈ x.unread server lock.remote, mode.Covers m) :
    Did x server (x.convert server lock mode).2.1 (x.convert server lock mode).2.2 := by
  obtain ⟨own, remote, first⟩ := lock
  dsimp only at paired waits gets
  obtain ⟨a, b, linked, rfl, rfl⟩ := mirrors.linked remote own paired
  have served := serving.resting.serve_convert linked.remote mode
  rw [linked.owner] at served
  by_cases granted : (server.lock b).state = .granted
  · have holds := (serving.resting.settled linked.remote).holds granted
    have standing : (server.lock b).standing = ⟨.granted, (server.lock b).requestedMode,
        some (server.lock b).requestedMode⟩ := by
      unfold Lock.standing
      rw [granted, holds]
    have answered {status : ConvertStatus} {server' : Namespace}
        (done : server.convert (server.lock b).handle mode = (.ok status, server')) :
        server.serve x.owner (.convert (server.lock b).handle mode) = (.converted status, server') := by
      rw [served, done]
      rfl
    have at_once {server' : Namespace}
        (done : server.convert (server.lock b).handle mode = (.ok .granted, server'))
        (puts : Puts server b ⟨.granted, mode, some mode⟩ server') :
        Did x server (x.convert server ⟨(x.space.lock a).handle, (server.lock b).handle, first⟩ mode).2.1
          (x.convert server ⟨(x.space.lock a).handle, (server.lock b).handle, first⟩ mode).2.2 := by
      rw [convert_of_granted first (answered done)]
      exact mirrors.convert_at_once serving linked paired granted
        (gets (congrArg Prod.fst (answered done))) puts
    rcases serving.resting.convert linked.remote serving.running standing mode with
      ⟨same, done⟩ | ⟨server', ⟨done, puts⟩ | ⟨done, puts, -⟩⟩
    · have still := Puts.refl serving.resting linked.remote
      rw [standing, same] at still
      exact at_once done still
    · exact at_once done puts
    · rw [convert_of_pending first (answered done)]
      exact mirrors.convert_pending serving linked paired holds
        (waits (congrArg Prod.fst (answered done)) b _
          (serving.resting.get?_iff.mpr ⟨linked.remote, rfl⟩) holds) puts
  · obtain ⟨e, refused⟩ := serving.resting.convert_refused linked.remote serving.running granted mode
    unfold Client.convert
    rw [served, refused]
    exact .refl mirrors serving

/-! ### Canceling -/

/-- Both locks of a pair are done with, and the pair is forgotten. -/
theorem drop (mirrors : x.Mirrors server) (serving : server.Serving) (linked : x.Linked server a b)
    (paired : x.pairs.get? (server.lock b).handle = some (x.space.lock a).handle) {space : Namespace}
    (own : Deals x.space a space) (retired : (space.lock a).retired = true)
    (remote : Deals server b server') (retired' : (server'.lock b).retired = true) :
    Did x server { x with space, pairs := x.pairs.erase (server.lock b).handle } server' := by
  have dead : ¬space.Alive a := fun alive => Bool.false_ne_true (alive.2.symm.trans retired)
  have dead' : ¬server'.Alive b := fun alive => Bool.false_ne_true (alive.2.symm.trans retired')
  have serving' := serving.deals remote fun alive => absurd alive dead'
  have orderly := mirrors.orderly.deals own fun alive => absurd alive dead
  have pairs (h : Handle) : (x.pairs.erase (server.lock b).handle).get? h =
      if h = (server.lock b).handle then none else x.pairs.get? h := Index.get?_erase ..
  have exchange : Exchange x { x with space, pairs := x.pairs.erase (server.lock b).handle } server
      server' a (server.lock b).handle :=
    .of_deals mirrors linked paired own remote rfl (fun _ _ => Iff.rfl) fun h other =>
      (pairs h).trans (if_neg other)
  have gone : space.Gone (x.space.lock a).handle :=
    ⟨a, own.size.symm ▸ linked.own.1, congrArg Claim.handle (own.claim a), retired⟩
  have gone' : server'.Gone (server.lock b).handle :=
    ⟨b, remote.size.symm ▸ linked.remote.1, congrArg Claim.handle (remote.claim b), retired'⟩
  refine .of_deals linked own remote (mirrors.exchange exchange serving serving'
    ⟨orderly.resting, orderly.running, orderly.role, orderly.simple, orderly.numbered⟩
    (fun g found => ?_) fun _ alive => absurd alive dead) serving' rfl (fun _ => id)
    fun h g found => ?_
  · rw [pairs, if_pos rfl] at found
    cases found
  · by_cases here : h = (server.lock b).handle
    · rw [here, paired, Option.some.injEq] at found
      exact .inr ⟨here ▸ gone', found ▸ gone⟩
    · exact .inl (((pairs h).trans (if_neg here)).trans found)

/-- A client that cancels a lock is done with it and with the own lock. -/
theorem cancel (mirrors : x.Mirrors server) (serving : server.Serving) {lock : LockPair}
    (paired : x.pairs.get? lock.remote = some lock.own) :
    Did x server (x.cancel server lock).2.1 (x.cancel server lock).2.2 := by
  obtain ⟨own, remote, first⟩ := lock
  dsimp only at paired
  obtain ⟨a, b, linked, rfl, rfl⟩ := mirrors.linked remote own paired
  have served := serving.resting.serve_cancel linked.remote
  rw [linked.owner] at served
  obtain ⟨deals, retired⟩ := mirrors.orderly.resting.cancelLock linked.own
  obtain ⟨deals', retired'⟩ := serving.resting.cancelLock linked.remote
  unfold Client.cancel
  dsimp only
  rw [served]
  dsimp only
  rw [mirrors.orderly.resting.cancel linked.own]
  exact mirrors.drop serving linked paired deals retired deals' retired'

/-! ### Locks that are gone -/

/-- There is nothing to ask for with a lock that is gone. -/
theorem convert_gone (mirrors : x.Mirrors server) (serving : server.Serving) {lock : LockPair}
    (gone : server.Gone lock.remote) (mode : Mode) :
    Did x server (x.convert server lock mode).2.1 (x.convert server lock mode).2.2 := by
  obtain ⟨⟨e, refused⟩, -⟩ :=
    serving.resting.serve_gone (serving.resting.get?_of_gone gone) x.owner mode
  unfold Client.convert
  rw [refused]
  exact .refl mirrors serving

theorem cancel_gone (mirrors : x.Mirrors server) (serving : server.Serving) {lock : LockPair}
    (gone : server.Gone lock.remote) (gone' : x.space.Gone lock.own) :
    Did x server (x.cancel server lock).2.1 (x.cancel server lock).2.2 := by
  have unpaired : x.pairs.get? lock.remote = none := by
    apply Option.eq_none_iff_forall_ne_some.mpr
    intro g paired
    obtain ⟨a, b, linked, -, named⟩ := mirrors.linked _ g paired
    have found := serving.resting.get?_iff.mpr ⟨linked.remote, named⟩
    rw [serving.resting.get?_of_gone gone] at found
    cases found
  have pairs (h : Handle) : (x.pairs.erase lock.remote).get? h = x.pairs.get? h := by
    rw [Index.get?_erase]
    split
    · next here => rw [here, unpaired]
    · rfl
  have forgot : Did x server { x with pairs := x.pairs.erase lock.remote } server :=
    .of_same (mirrors.repair pairs) serving rfl (fun _ => id) (fun h g => (pairs h).trans) rfl
  have canceled := mirrors.orderly.resting.cancel_gone
    (mirrors.orderly.resting.get?_of_gone gone')
  have same := (serving.resting.serve_gone (serving.resting.get?_of_gone gone) x.owner .null).2
  unfold Client.cancel takeOver
  generalize server.serve x.owner (.cancel lock.remote) = served at same ⊢
  generalize x.space.cancel lock.own = answered at canceled ⊢
  obtain ⟨response, server'⟩ := served
  obtain ⟨answer, space⟩ := answered
  dsimp only at same canceled
  subst same canceled
  cases response with
  | canceled state =>
    cases answer with
    | ok _ => exact forgot
    | error e => exact .refl mirrors serving
  | _ => exact .refl mirrors serving

end Mirrors
end Client
end LockManager
