import LockManager.Proofs.Mirror.Enqueue
import LockManager.Proofs.Namespace.Unmoved

set_option autoImplicit false

/-!
Each own lock of a client follows one lock of the server, and each lock that the server has made for the
client is followed by one own lock. Whatever modes are asked for and whatever is read, that stays so:
locks come in pairs, and go in pairs.
-/

namespace LockManager

open Namespace (Adds Deals Enrols Spared Unmoved)

namespace Namespace

variable {ns ns' : Namespace} {n : Nat} {l : LockId}

/-- The namespace is open to requests, with nothing going on. At most `n` of its locks are done with. -/
structure Open (ns : Namespace) (n : Nat) : Prop where
  resting : ns.Resting
  running : ns.stopping = false
  issued : ns.Issued n

theorem Open.unmoved (opened : ns.Open n) (unmoved : Unmoved ns ns') : ns'.Open n :=
  ⟨unmoved.resting, unmoved.stopping.trans opened.running, unmoved.issued opened.issued⟩

theorem Open.mono (opened : ns.Open n) {n' : Nat} (more : n ≤ n') : ns.Open n' :=
  ⟨opened.resting, opened.running, opened.issued.mono more⟩

theorem Open.cancelLock (opened : ns.Open n) (alive : ns.Alive l) :
    (ns.cancelLock l).Open (n + 1) := by
  obtain ⟨deals, -⟩ := opened.resting.cancelLock alive
  exact ⟨deals.resting, deals.steady.stopping.trans opened.running,
    opened.issued.cancelLock opened.resting alive⟩

theorem Gone.unmoved {h : Handle} (gone : ns.Gone h) (unmoved : Unmoved ns ns') : ns'.Gone h := by
  obtain ⟨k, known, named, retired⟩ := gone
  exact ⟨k, unmoved.size ▸ known, (unmoved.handle k).trans named, (unmoved.retired k).trans retired⟩

/-- Only locks of `o` have come, gone or moved. -/
structure Besides (o : Owner) (ns ns' : Namespace) : Prop where
  stays : ∀ b, ns.Alive b → (ns.lock b).claim.owner ≠ o →
    ns'.Alive b ∧ (ns'.lock b).claim = (ns.lock b).claim ∧ (ns'.lock b).key = (ns.lock b).key
  old : ∀ b, ns'.Alive b → (ns'.lock b).claim.owner ≠ o →
    ns.Alive b ∧ (ns'.lock b).claim = (ns.lock b).claim

variable {o : Owner}

theorem Besides.of_unmoved (unmoved : Unmoved ns ns') : Besides o ns ns' :=
  ⟨fun b alive _ => ⟨unmoved.alive.mpr alive, unmoved.claim b, unmoved.key b⟩,
    fun b alive _ => ⟨unmoved.alive.mp alive, unmoved.claim b⟩⟩

theorem Besides.of_deals (deals : Deals ns l ns') (mine : (ns.lock l).claim.owner = o) :
    Besides o ns ns' := by
  have spared {b : LockId} (theirs : (ns.lock b).claim.owner ≠ o) : Spared ns ns' b :=
    deals.spared b fun here => theirs (here ▸ mine)
  refine ⟨fun b alive theirs => ⟨⟨deals.size ▸ alive.1, ?_⟩, deals.claim b, (spared theirs).key⟩,
    fun b alive theirs => ⟨⟨deals.size ▸ alive.1, ?_⟩, deals.claim b⟩⟩
  · exact (spared theirs).retired.trans alive.2
  · rw [deals.claim] at theirs
    exact (spared theirs).retired.symm.trans alive.2

/-- One lock has come, under the handle that was to come next. -/
structure Joined (ns : Namespace) (o : Owner) (key : Key) (ns' : Namespace) : Prop where
  size : ns'.locks.size = ns.locks.size + 1
  old : ∀ k < ns.locks.size, (ns'.lock k).claim = (ns.lock k).claim ∧
    (ns'.lock k).key = (ns.lock k).key ∧ (ns'.lock k).retired = (ns.lock k).retired
  alive : ns'.Alive ns.locks.size
  handle : (ns'.lock ns.locks.size).handle = ns.handles.upcoming
  owner : (ns'.lock ns.locks.size).claim.owner = o
  place : (ns'.lock ns.locks.size).key = key

namespace Joined

variable {key : Key}

theorem of_enrols {req : LockRequest} {standing : Standing} (enrols : Enrols ns req standing ns') :
    Joined ns req.owner req.key ns' := by
  refine ⟨enrols.size, fun k below => ?_, enrols.alive, congrArg Claim.handle enrols.claim,
    congrArg Claim.owner enrols.claim, enrols.key⟩
  have spared := enrols.old k below
  exact ⟨spared.served.claim_eq, spared.key, spared.retired⟩

theorem unmoved {ns'' : Namespace} (joined : Joined ns o key ns') (unmoved : Unmoved ns' ns'') :
    Joined ns o key ns'' := by
  refine ⟨unmoved.size.trans joined.size, fun k below => ?_, unmoved.alive.mpr joined.alive,
    (unmoved.handle _).trans joined.handle, ?_, (unmoved.key _).trans joined.place⟩
  · obtain ⟨claim, key, retired⟩ := joined.old k below
    exact ⟨(unmoved.claim k).trans claim, (unmoved.key k).trans key, (unmoved.retired k).trans retired⟩
  · rw [unmoved.claim]
    exact joined.owner

theorem alive_old (joined : Joined ns o key ns') (alive : ns.Alive l) : ns'.Alive l :=
  ⟨joined.size ▸ Nat.lt_succ_of_lt alive.1, (joined.old l alive.1).2.2.trans alive.2⟩

theorem cases (joined : Joined ns o key ns') (alive : ns'.Alive l) : l = ns.locks.size ∨ ns.Alive l := by
  rcases Nat.lt_succ_iff_lt_or_eq.mp (joined.size ▸ alive.1) with below | last
  · exact .inr ⟨below, (joined.old l below).2.2.symm.trans alive.2⟩
  · exact .inl last

theorem gone (joined : Joined ns o key ns') {h : Handle} (gone : ns.Gone h) : ns'.Gone h := by
  obtain ⟨k, known, named, retired⟩ := gone
  obtain ⟨claim, -, same⟩ := joined.old k known
  exact ⟨k, joined.size ▸ Nat.lt_succ_of_lt known, (congrArg Claim.handle claim).trans named,
    same.trans retired⟩

theorem besides (joined : Joined ns o key ns') : Besides o ns ns' := by
  refine ⟨fun b alive _ => ?_, fun b alive theirs => ?_⟩
  · obtain ⟨claim, key, -⟩ := joined.old b alive.1
    exact ⟨joined.alive_old alive, claim, key⟩
  · rcases joined.cases alive with rfl | before
    · exact absurd joined.owner theirs
    · exact ⟨before, (joined.old b before.1).1⟩

end Joined

end Namespace

namespace Client

open Namespace (Besides Joined)

/-- What holds of a client's own locks by themselves. At most `n` of them are done with. -/
structure Kept (x : Client) (n : Nat) : Prop where
  opened : x.space.Open n
  role : x.space.config.role = .client
  owned : ∀ a, x.space.Alive a → (x.space.lock a).claim.owner = x.owner
  numbered : x.owner.name.isEmpty = false → x.nextSeq = UInt64.ofNat (x.space.locks.size + 1)

/-- The pairs are one for each own lock and one for each lock of the server's that is the client's. -/
structure Corresponds (x : Client) (server : Namespace) : Prop where
  linked : ∀ h g, x.pairs.get? h = some g → ∃ a b, x.space.Alive a ∧ (x.space.lock a).handle = g ∧
    server.Alive b ∧ (server.lock b).handle = h ∧ (server.lock b).claim.owner = x.owner ∧
    (server.lock b).key = (x.space.lock a).key
  once : ∀ h h' g, x.pairs.get? h = some g → x.pairs.get? h' = some g → h = h'
  followed : ∀ a, x.space.Alive a → ∃ h, x.pairs.get? h = some (x.space.lock a).handle
  served : ∀ b, server.Alive b → (server.lock b).claim.owner = x.owner →
    ∃ g, x.pairs.get? (server.lock b).handle = some g

variable {x x' : Client} {server server' space made : Namespace} {n n' : Nat} {a b : LockId}
  {h : Handle} {lock : LockPair} {req asked : LockRequest} {standing : Standing}

theorem Kept.mono (kept : x.Kept n) (more : n ≤ n') : x.Kept n' :=
  ⟨kept.opened.mono more, kept.role, kept.owned, kept.numbered⟩

/-- The own locks are where they were, and no request has been made. -/
theorem Kept.unmoved (kept : x.Kept n) (own : Unmoved x.space x'.space) (owner : x'.owner = x.owner)
    (nextSeq : x'.nextSeq = x.nextSeq) : x'.Kept n := by
  refine ⟨kept.opened.unmoved own, own.role.trans kept.role, fun a alive => ?_, fun named => ?_⟩
  · rw [own.claim, owner]
    exact kept.owned a (own.alive.mp alive)
  · rw [nextSeq, own.size]
    exact kept.numbered (owner ▸ named)

/-- One own lock has been dealt with. -/
theorem Kept.deals (kept : x.Kept n) (deals : Deals x.space a space) (opened : space.Open n')
    (alive : space.Alive a → x.space.Alive a) {pairs : Index Handle Handle} :
    Kept { x with space, pairs } n' := by
  refine ⟨opened, (congrArg Config.role deals.steady.config).trans kept.role, fun k lives => ?_,
    fun named => (kept.numbered named).trans (congrArg (fun n => UInt64.ofNat (n + 1)) deals.size.symm)⟩
  refine (congrArg Claim.owner (deals.claim k)).trans (kept.owned k ?_)
  by_cases here : k = a
  · exact here ▸ alive (here ▸ lives)
  · exact ⟨deals.size ▸ lives.1, (deals.spared k here).retired.symm.trans lives.2⟩

namespace Corresponds

theorem unmoved (c : x.Corresponds server) (own : Unmoved x.space x'.space)
    (remote : Unmoved server server') (owner : x'.owner = x.owner)
    (pairs : ∀ h, x'.pairs.get? h = x.pairs.get? h) : x'.Corresponds server' := by
  refine ⟨fun h g found => ?_, fun h h' g found found' => ?_, fun a alive => ?_, fun b alive mine => ?_⟩
  · obtain ⟨a, b, alive, mine, alive', named, owned, key⟩ := c.linked h g (pairs h ▸ found)
    refine ⟨a, b, own.alive.mpr alive, (own.handle a).trans mine, remote.alive.mpr alive',
      (remote.handle b).trans named, ?_, ?_⟩
    · rw [remote.claim, owner, owned]
    · rw [remote.key, own.key, key]
  · exact c.once h h' g (pairs h ▸ found) (pairs h' ▸ found')
  · obtain ⟨h, found⟩ := c.followed a (own.alive.mp alive)
    exact ⟨h, (pairs h).trans (found.trans (congrArg some (own.handle a).symm))⟩
  · rw [remote.claim, owner] at mine
    obtain ⟨g, found⟩ := c.served b (remote.alive.mp alive) mine
    refine ⟨g, (pairs _).trans ?_⟩
    rw [remote.handle]
    exact found

/-- What another owner does is no concern of the client's. -/
theorem besides (c : x.Corresponds server) {o : Owner} (besides : Besides o server server')
    (other : x.owner ≠ o) : x.Corresponds server' := by
  refine ⟨fun h g found => ?_, c.once, c.followed, fun b alive mine => ?_⟩
  · obtain ⟨a, b, alive, mine, alive', rfl, owned, key⟩ := c.linked h g found
    obtain ⟨stays, claim, same⟩ := besides.stays b alive' (owned ▸ other)
    exact ⟨a, b, alive, mine, stays, congrArg Claim.handle claim, by rw [claim, owned], same.trans key⟩
  · obtain ⟨before, claim⟩ := besides.old b alive (mine ▸ other)
    rw [claim] at mine
    rw [Lock.handle, claim]
    exact c.served b before mine

end Corresponds

/-! ### Getting on -/

/-- A client has done something with the server. -/
structure Traded (x : Client) (server : Namespace) (x' : Client) (server' : Namespace) (n : Nat) :
    Prop where
  kept : x'.Kept n
  opened : server'.Open n
  corresponds : x'.Corresponds server'
  besides : Besides x.owner server server'
  proceeds : Proceeds x server x' server'

/-- No lock has come, gone or moved on either side. -/
theorem Traded.of_unmoved (kept : x'.Kept n) (opened : server.Open n) (c : x.Corresponds server)
    (own : Unmoved x.space x'.space) (remote : Unmoved server server') (owner : x'.owner = x.owner)
    (pairs : ∀ h, x'.pairs.get? h = x.pairs.get? h) : Traded x server x' server' n := by
  refine ⟨kept, opened.unmoved remote, c.unmoved own remote owner pairs, .of_unmoved remote, owner,
    fun h _ found => .inl ((pairs h).trans found), fun _ gone => gone.unmoved own,
    fun _ gone => gone.unmoved remote, Nat.le_of_eq own.size.symm, fun k h found => .inl ?_⟩
  exact remote.replays k h found

/-! ### Reading -/

/-- Whatever is read, the own locks stay where they are. -/
theorem unmoved_read (opened : x.space.Open n) {answer : Except ClientError Notification}
    (done : x.read? = some (answer, x')) : Unmoved x.space x'.space ∧ x'.owner = x.owner ∧
      x'.pairs = x.pairs ∧ x'.nextSeq = x.nextSeq := by
  have same := Unmoved.refl opened.resting
  unfold read? at done
  split at done
  · cases done
  · next first inbox _ =>
    obtain rfl : (Client.follow { x with inbox } first).2 = x' :=
      congrArg Prod.snd (Option.some.inj done)
    unfold Client.follow
    split
    · exact ⟨same, rfl, rfl, rfl⟩
    · next y followed =>
      obtain ⟨l, alive, rfl⟩ : ∃ l, x.space.Alive l ∧ x.space.lock l = y := by
        split at followed
        · obtain ⟨own, -, followed⟩ := Option.bind_eq_some_iff.mp followed
          obtain ⟨l, found, followed⟩ := Option.bind_eq_some_iff.mp followed
          exact ⟨l, (opened.resting.get?_iff.mp found).1, Option.some.inj followed⟩
        · cases followed
      split
      · next new =>
        obtain ⟨reply, space, done, unmoved⟩ :=
          opened.resting.unmoved_enqueueLock alive new opened.running
        dsimp only
        rw [done]
        exact ⟨unmoved, rfl, rfl, rfl⟩
      · exact ⟨opened.resting.unmoved_convert alive opened.running first.mode, rfl, rfl, rfl⟩
      · exact ⟨same, rfl, rfl, rfl⟩

theorem Traded.read (kept : x.Kept n) (opened : server.Open n) (c : x.Corresponds server)
    {answer : Except ClientError Notification} (done : x.read? = some (answer, x')) :
    Traded x server x' server n := by
  obtain ⟨own, owner, pairs, nextSeq⟩ := unmoved_read kept.opened done
  exact .of_unmoved (kept.unmoved own owner nextSeq) opened c own (.refl opened.resting) owner
    fun h => congrArg (·.get? h) pairs

/-! ### Converting -/

/-- Whatever comes of it on either side, the locks of a pair stay where they are. -/
theorem Traded.convert (kept : x.Kept n) (opened : server.Open n) (c : x.Corresponds server)
    (paired : x.pairs.get? lock.remote = some lock.own) (mode : Mode) :
    Traded x server (x.convert server lock mode).2.1 (x.convert server lock mode).2.2 n := by
  obtain ⟨own, remote, first⟩ := lock
  obtain ⟨a, b, alive, rfl, alive', rfl, owned, -⟩ := c.linked remote own paired
  have served := opened.resting.serve_convert alive' mode
  rw [owned] at served
  have remote := opened.resting.unmoved_convert alive' opened.running mode
  have own := kept.opened.resting.unmoved_convert alive kept.opened.running mode
  have still := Unmoved.refl kept.opened.resting
  unfold Client.convert takeOver
  rw [served]
  generalize server.convert (server.lock b).handle mode = done at remote ⊢
  obtain ⟨answer, server'⟩ := done
  split
  · next came =>
    obtain rfl : server' = _ := congrArg Prod.snd came
    generalize x.space.convert (x.space.lock a).handle mode = moved at own ⊢
    obtain ⟨answer, space⟩ := moved
    cases answer <;> exact .of_unmoved (kept.unmoved own rfl rfl) opened c own remote rfl fun _ => rfl
  · next came =>
    obtain rfl : server' = _ := congrArg Prod.snd came
    exact .of_unmoved kept opened c still remote rfl fun _ => rfl
  · next came =>
    obtain rfl : server' = _ := congrArg Prod.snd came
    exact .of_unmoved kept opened c still remote rfl fun _ => rfl

theorem Traded.convert_gone (kept : x.Kept n) (opened : server.Open n) (c : x.Corresponds server)
    (gone : server.Gone lock.remote) (mode : Mode) :
    Traded x server (x.convert server lock mode).2.1 (x.convert server lock mode).2.2 n := by
  obtain ⟨⟨e, refused⟩, -⟩ :=
    opened.resting.serve_gone (opened.resting.get?_of_gone gone) x.owner mode
  unfold Client.convert
  rw [refused]
  exact .of_unmoved kept opened c (.refl kept.opened.resting) (.refl opened.resting) rfl fun _ => rfl

/-! ### Canceling -/

/-- Both locks of a pair go, and the pair with them. -/
theorem Corresponds.drop (c : x.Corresponds server) (rest : server.Resting) (rest' : x.space.Resting)
    (alive : x.space.Alive a) (alive' : server.Alive b)
    (paired : x.pairs.get? (server.lock b).handle = some (x.space.lock a).handle)
    (own : Deals x.space a space) (gone : ¬space.Alive a) (remote : Deals server b server')
    (gone' : ¬server'.Alive b) :
    Corresponds { x with space, pairs := x.pairs.erase (server.lock b).handle } server' := by
  have pairs (h : Handle) : (x.pairs.erase (server.lock b).handle).get? h =
      if h = (server.lock b).handle then none else x.pairs.get? h := Index.get?_erase ..
  have left {h g : Handle} (found : (x.pairs.erase (server.lock b).handle).get? h = some g) :
      h ≠ (server.lock b).handle ∧ x.pairs.get? h = some g := by
    rw [pairs] at found
    split at found
    · cases found
    · next other => exact ⟨other, found⟩
  have handle (k : LockId) : (space.lock k).handle = (x.space.lock k).handle :=
    congrArg Claim.handle (own.claim k)
  have handle' (k : LockId) : (server'.lock k).handle = (server.lock k).handle :=
    congrArg Claim.handle (remote.claim k)
  have before {k : LockId} (lives : space.Alive k) : k ≠ a ∧ x.space.Alive k := by
    have other : k ≠ a := fun here => gone (here ▸ lives)
    exact ⟨other, own.size ▸ lives.1, (own.spared k other).retired.symm.trans lives.2⟩
  have before' {k : LockId} (lives : server'.Alive k) : k ≠ b ∧ server.Alive k := by
    have other : k ≠ b := fun here => gone' (here ▸ lives)
    exact ⟨other, remote.size ▸ lives.1, (remote.spared k other).retired.symm.trans lives.2⟩
  refine ⟨fun h g found => ?_, fun h h' g found found' => c.once h h' g (left found).2 (left found').2,
    fun k lives => ?_, fun k lives mine => ?_⟩
  · obtain ⟨apart, found⟩ := left found
    obtain ⟨i, j, lives, rfl, lives', rfl, owned, key⟩ := c.linked h g found
    have other : j ≠ b := fun here => apart (congrArg (fun k => (server.lock k).handle) here)
    have other' : i ≠ a := by
      rintro rfl
      exact apart (c.once _ _ _ found paired)
    have spared := own.spared i other'
    have spared' := remote.spared j other
    refine ⟨i, j, ⟨own.size ▸ lives.1, spared.retired.trans lives.2⟩, handle i,
      ⟨remote.size ▸ lives'.1, spared'.retired.trans lives'.2⟩, handle' j, ?_,
      spared'.key.trans (key.trans spared.key.symm)⟩
    rw [remote.claim, owned]
  · obtain ⟨other, lives⟩ := before lives
    obtain ⟨h, found⟩ := c.followed k lives
    refine ⟨h, (pairs h).trans ?_⟩
    rw [if_neg, handle, found]
    rintro rfl
    rw [paired] at found
    exact other (rest'.distinct a k alive.1 lives.1 (Option.some.inj found)).symm
  · obtain ⟨other, lives⟩ := before' lives
    rw [remote.claim] at mine
    obtain ⟨g, found⟩ := c.served k lives mine
    refine ⟨g, (pairs _).trans ?_⟩
    rw [handle', if_neg, found]
    exact fun same => other (rest.distinct k b lives.1 alive'.1 same)

theorem Traded.cancel (kept : x.Kept n) (opened : server.Open n) (c : x.Corresponds server)
    (paired : x.pairs.get? lock.remote = some lock.own) :
    Traded x server (x.cancel server lock).2.1 (x.cancel server lock).2.2 (n + 1) := by
  obtain ⟨own, remote, first⟩ := lock
  dsimp only at paired
  obtain ⟨a, b, alive, rfl, alive', rfl, owned, -⟩ := c.linked remote own paired
  have served := opened.resting.serve_cancel alive'
  rw [owned] at served
  obtain ⟨deals, retired⟩ := kept.opened.resting.cancelLock alive
  obtain ⟨deals', retired'⟩ := opened.resting.cancelLock alive'
  have dead : ¬(x.space.cancelLock a).Alive a := fun lives =>
    Bool.false_ne_true (lives.2.symm.trans retired)
  have dead' : ¬(server.cancelLock b).Alive b := fun lives =>
    Bool.false_ne_true (lives.2.symm.trans retired')
  have opened' := kept.opened.cancelLock alive
  have opened'' := opened.cancelLock alive'
  unfold Client.cancel
  dsimp only
  rw [served]
  dsimp only
  rw [kept.opened.resting.cancel alive]
  generalize x.space.cancelLock a = space at deals retired dead opened' ⊢
  generalize server.cancelLock b = server' at deals' retired' dead' opened'' ⊢
  have gone : space.Gone (x.space.lock a).handle :=
    ⟨a, deals.size ▸ alive.1, congrArg Claim.handle (deals.claim a), retired⟩
  have gone' : server'.Gone (server.lock b).handle :=
    ⟨b, deals'.size ▸ alive'.1, congrArg Claim.handle (deals'.claim b), retired'⟩
  refine ⟨kept.deals deals opened' fun lives => absurd lives dead, opened'',
    c.drop opened.resting kept.opened.resting alive alive' paired deals dead deals' dead',
    .of_deals deals' owned, rfl, fun h g found => ?_, fun h gone => gone.deals deals alive,
    fun h gone => gone.deals deals' alive', Nat.le_of_eq deals.size.symm,
    fun k h found => .inl (deals'.replays k h found)⟩
  · by_cases here : h = (server.lock b).handle
    · rw [here, paired, Option.some.injEq] at found
      exact .inr ⟨here ▸ gone', found ▸ gone⟩
    · exact .inl ((Index.get?_erase ..).trans ((if_neg here).trans found))

/-- To cancel a pair that has gone changes nothing, on either side. -/
theorem Traded.cancel_gone (kept : x.Kept n) (opened : server.Open n) (c : x.Corresponds server)
    (gone : server.Gone lock.remote) (gone' : x.space.Gone lock.own) :
    Traded x server (x.cancel server lock).2.1 (x.cancel server lock).2.2 n := by
  have unpaired : x.pairs.get? lock.remote = none := by
    apply Option.eq_none_iff_forall_ne_some.mpr
    intro g paired
    obtain ⟨a, b, -, -, alive, named, -⟩ := c.linked _ g paired
    have found := opened.resting.get?_iff.mpr ⟨alive, named⟩
    rw [opened.resting.get?_of_gone gone] at found
    cases found
  have pairs (h : Handle) : (x.pairs.erase lock.remote).get? h = x.pairs.get? h := by
    rw [Index.get?_erase]
    split
    · next here => rw [here, unpaired]
    · rfl
  have remote := (opened.resting.serve_gone (opened.resting.get?_of_gone gone) x.owner .null).2
  have own := kept.opened.resting.cancel_gone (kept.opened.resting.get?_of_gone gone')
  have still := Unmoved.refl kept.opened.resting
  have still' := Unmoved.refl opened.resting
  unfold Client.cancel takeOver
  generalize server.serve x.owner (.cancel lock.remote) = served at remote ⊢
  obtain ⟨response, server'⟩ := served
  obtain rfl : server' = server := remote
  generalize x.space.cancel lock.own = done at own ⊢
  obtain ⟨answer, space⟩ := done
  obtain rfl : space = x.space := own
  cases response with
  | canceled state =>
    cases answer with
    | error e => exact .of_unmoved kept opened c still still' rfl fun _ => rfl
    | ok _ => exact .of_unmoved (kept.unmoved still rfl rfl) opened c still still' rfl pairs
  | _ => exact .of_unmoved kept opened c still still' rfl fun _ => rfl

/-! ### Enqueueing -/

/-- Two locks have come, one on each side, and are a pair. -/
theorem Corresponds.join (c : x.Corresponds server) (fresh : server.Fresh) (fresh' : x.space.Fresh)
    {key : Key} (own : Joined x.space x.owner key space) (remote : Joined server x.owner key server') :
    (x.pairUp space server.handles.upcoming).Corresponds server' := by
  have pairs := x.get?_pairUp space server.handles.upcoming
  have unpaired {h g : Handle} (found : x.pairs.get? h = some g) :
      h ≠ server.handles.upcoming ∧ g ≠ x.space.handles.upcoming := by
    obtain ⟨a, b, alive, rfl, alive', rfl, -⟩ := c.linked h g found
    exact ⟨fresh.2 b alive'.1, fresh'.2 a alive.1⟩
  have kept {h g : Handle} (found : x.pairs.get? h = some g) :
      (x.pairUp space server.handles.upcoming).pairs.get? h = some g :=
    (pairs h).trans ((if_neg (unpaired found).1).trans found)
  have cases {h g : Handle} (found : (x.pairUp space server.handles.upcoming).pairs.get? h = some g) :
      h = server.handles.upcoming ∧ g = x.space.handles.upcoming ∨ x.pairs.get? h = some g := by
    rw [pairs] at found
    split at found
    · next here => exact .inl ⟨here, (Option.some.inj found).symm⟩
    · exact .inr found
  refine ⟨fun h g found => ?_, fun h h' g found found' => ?_, fun a alive => ?_, fun b alive mine => ?_⟩
  · rcases cases found with ⟨rfl, rfl⟩ | found
    · exact ⟨_, _, own.alive, own.handle, remote.alive, remote.handle, remote.owner,
        remote.place.trans own.place.symm⟩
    · obtain ⟨a, b, alive, rfl, alive', rfl, owned, same⟩ := c.linked h g found
      obtain ⟨claim, place, -⟩ := own.old a alive.1
      obtain ⟨claim', place', -⟩ := remote.old b alive'.1
      refine ⟨a, b, own.alive_old alive, congrArg Claim.handle claim, remote.alive_old alive',
        congrArg Claim.handle claim', ?_, place'.trans (same.trans place.symm)⟩
      rw [claim']
      exact owned
  · rcases cases found with ⟨here, last⟩ | old <;> rcases cases found' with ⟨here', last'⟩ | old'
    · exact here.trans here'.symm
    · exact absurd last (unpaired old').2
    · exact absurd last' (unpaired old).2
    · exact c.once h h' g old old'
  · rcases own.cases alive with rfl | before
    · refine ⟨server.handles.upcoming, (pairs _).trans ((if_pos rfl).trans ?_)⟩
      exact congrArg some own.handle.symm
    · obtain ⟨h, found⟩ := c.followed a before
      have same : (space.lock a).handle = (x.space.lock a).handle :=
        congrArg Claim.handle (own.old a before.1).1
      exact ⟨h, (kept found).trans (congrArg some same.symm)⟩
  · rcases remote.cases alive with rfl | before
    · exact ⟨_, (pairs _).trans (if_pos remote.handle)⟩
    · obtain ⟨claim, -, -⟩ := remote.old b before.1
      rw [claim] at mine
      obtain ⟨g, found⟩ := c.served b before mine
      exact ⟨g, (congrArg _ (congrArg Claim.handle claim)).trans (kept found)⟩

theorem Traded.enqueue_unnamed (kept : x.Kept n) (opened : server.Open n) (c : x.Corresponds server)
    (unnamed : x.owner.name.isEmpty = true) (key : Key) (mode : Mode) :
    (∃ e, (x.enqueue server key mode).1 = .error e) ∧
      Traded x server (x.enqueue server key mode).2.1 (x.enqueue server key mode).2.2 n := by
  have refused := createLock_unnamed kept.opened.running unnamed mode
  unfold Client.enqueue
  dsimp only
  rw [refused]
  refine ⟨⟨_, rfl⟩, .of_unmoved ⟨kept.opened, kept.role, kept.owned, fun named => ?_⟩ opened c
    (.refl kept.opened.resting) (.refl opened.resting) rfl fun _ => rfl⟩
  cases unnamed.symm.trans named

/-- The own lock that is made for a request, once it is bound where the server's lock is, and granted if
that is granted. -/
theorem exists_joined (kept : x.Kept n) (few : n < generations) (room : x.space.HasRoom)
    (named : x.owner.name.isEmpty = false) (key : Key) (mode : Mode) : ∃ made space,
      x.space.createLock { key := unboundKey, mode, owner := x.owner } =
        (.ok x.space.handles.upcoming, made) ∧
      made.rebind x.space.handles.upcoming key = (.ok (), space) ∧
      Joined x.space x.owner key space ∧ space.Open n ∧ space.config.role = .client ∧
      (space.lock x.space.locks.size).state = .new := by
  have rest := kept.opened.resting
  have running := kept.opened.running
  have fresh := kept.opened.issued.fresh rest few room
  obtain ⟨made, space, created, rebound, adds, deals, alive, own, bound, new⟩ :=
    exists_made rest running kept.role fresh named key mode
  have issued : (x.space.createLock { key := unboundKey, mode, owner := x.owner }).2.Issued n :=
    kept.opened.issued.createLock rest running rfl named rfl
  rw [created] at issued
  have issued' := issued.rebind (k := key) (h := x.space.handles.upcoming) (l := x.space.locks.size)
  rw [rebound] at issued'
  obtain ⟨q, first⟩ := adds.new
  refine ⟨made, space, created, rebound, ⟨deals.size.trans adds.size, fun k below => ?_, alive, own,
      ?_, bound⟩, ⟨deals.resting, ?_, issued' deals adds.alive alive⟩, ?_, congrArg Standing.state new⟩
  · have spared := spared_of_adds adds deals below
    exact ⟨spared.served.claim_eq, spared.key, spared.retired⟩
  · rw [deals.claim, first]
    rfl
  · exact deals.steady.stopping.trans (adds.steady.stopping.trans running)
  · exact (congrArg Config.role (deals.steady.config.trans adds.steady.config)).trans kept.role

/-- The own lock is granted as well if the server's is. -/
theorem exists_granted {key : Key} (opened : space.Open n)
    (own : Joined x.space x.owner key space) (new : (space.lock x.space.locks.size).state = .new)
    (state : LockState) : ∃ final,
      (state = .granted ∧ (∃ r, space.enqueueLock x.space.handles.upcoming = (.ok r, final)) ∨
        state ≠ .granted ∧ final = space) ∧ Unmoved space final := by
  by_cases granted : state = .granted
  · obtain ⟨reply, final, done, unmoved⟩ :=
      opened.resting.unmoved_enqueueLock own.alive new opened.running
    rw [own.handle] at done
    exact ⟨final, .inl ⟨granted, reply, done⟩, unmoved⟩
  · exact ⟨space, .inr ⟨granted, rfl⟩, .refl opened.resting⟩

theorem Kept.pairUp {key : Key} (kept : x.Kept n) (opened : space.Open n)
    (client : space.config.role = .client) (own : Joined x.space x.owner key space) (h : Handle) :
    (x.pairUp space h).Kept n := by
  refine ⟨opened, client, fun a alive => ?_, fun named => ?_⟩
  · rcases own.cases alive with rfl | before
    · exact own.owner
    · exact (congrArg Claim.owner (own.old a before.1).1).trans (kept.owned a before)
  · have size : space.locks.size = x.space.locks.size + 1 := own.size
    show x.nextSeq + 1 = UInt64.ofNat (space.locks.size + 1)
    rw [kept.numbered named, size]
    exact (UInt64.ofNat_add (x.space.locks.size + 1) 1).symm

/-- A client that asks for a lock gets a pair. -/
theorem Traded.enqueue_named (kept : x.Kept n) (opened : server.Open n) (c : x.Corresponds server)
    (few : n < generations) (room : server.HasRoom) (room' : x.space.HasRoom)
    (named : x.owner.name.isEmpty = false)
    (first : server.replays.get? (x.owner, x.nextSeq) = none) (key : Key) (mode : Mode) :
    ∃ state x' server',
      x.enqueue server key mode =
        (.ok ⟨x.space.handles.upcoming, server.handles.upcoming, state⟩, x', server') ∧
      Traded x server x' server' n ∧
      x'.pairs.get? server.handles.upcoming = some x.space.handles.upcoming := by
  have fresh := opened.issued.fresh opened.resting few room
  have fresh' := kept.opened.issued.fresh kept.opened.resting few room'
  obtain ⟨made, space, created, rebound, own, opened', client, new⟩ :=
    exists_joined kept few room' named key mode
  obtain ⟨server', standing, served, enrols, -⟩ :=
    opened.resting.serve_enqueue opened.running fresh named first key mode
  have remote := Joined.of_enrols enrols
  have issued : server'.Issued n := by
    have last : (server.serve x.owner (.enqueue key mode .plain (some x.nextSeq))).2.Issued n :=
      opened.issued.enqueue opened.resting fresh opened.running rfl named
        (by simp [Namespace.replayOf?, first])
    rwa [served] at last
  obtain ⟨final, adopted, unmoved⟩ :=
    exists_granted opened' own new (server'.lock server.locks.size).state
  have own := own.unmoved unmoved
  have pairs := x.get?_pairUp final server.handles.upcoming
  have answered : adopt { x with space := made, nextSeq := x.nextSeq + 1 } x.space.handles.upcoming key
      (server'.reply server.locks.size) = _ := adopt_eq rebound adopted
  refine ⟨(server'.lock server.locks.size).state, x.pairUp final server.handles.upcoming, server', ?_,
    ⟨kept.pairUp (opened'.unmoved unmoved) (unmoved.role.trans client) own _,
      ⟨enrols.resting, enrols.steady.stopping.trans opened.running, issued⟩,
      c.join fresh fresh' own remote, remote.besides, rfl, fun h g found => .inl ?_,
      fun h gone => own.gone gone, fun h gone => remote.gone gone, own.size ▸ Nat.le_succ _,
      fun k h found => (enrols.replays k h found).imp_right ?_⟩, (pairs _).trans (if_pos rfl)⟩
  · unfold Client.enqueue
    dsimp only
    rw [created]
    dsimp only [takeOver, Except.mapError]
    rw [served]
    dsimp only
    rw [answered, ← remote.handle]
    rfl
  · obtain ⟨a, b, -, -, alive, rfl, -⟩ := c.linked h g found
    exact (pairs _).trans ((if_neg (fresh.2 b alive.1)).trans found)
  · rintro ⟨number, numbered, rfl⟩
    refine ⟨rfl, x.space.locks.size, own.size ▸ Nat.lt_succ_self _, ?_⟩
    rw [← Option.some.inj numbered, kept.numbered named]

theorem Traded.enqueue (kept : x.Kept n) (opened : server.Open n) (c : x.Corresponds server)
    (few : n < generations) (room : server.HasRoom) (room' : x.space.HasRoom)
    (first : x.owner.name.isEmpty = false → server.replays.get? (x.owner, x.nextSeq) = none)
    (key : Key) (mode : Mode) :
    Traded x server (x.enqueue server key mode).2.1 (x.enqueue server key mode).2.2 n ∧
      ∀ pair, (x.enqueue server key mode).1 = .ok pair →
        (x.enqueue server key mode).2.1.pairs.get? pair.remote = some pair.own := by
  cases named : x.owner.name.isEmpty with
  | true =>
    obtain ⟨⟨e, refused⟩, traded⟩ := Traded.enqueue_unnamed kept opened c named key mode
    refine ⟨traded, fun pair answered => ?_⟩
    rw [refused] at answered
    cases answered
  | false =>
    obtain ⟨state, x', server', done, traded, paired⟩ :=
      Traded.enqueue_named kept opened c few room room' named (first named) key mode
    rw [done]
    refine ⟨traded, fun pair answered => ?_⟩
    obtain rfl := Except.ok.inj answered
    exact paired

end Client
end LockManager
