import LockManager.Proofs.Namespace.References
import LockManager.Proofs.System.Quiet
import LockManager.Proofs.System.Schedule
import LockManager.Proofs.Task.Opening
import Mathlib.Algebra.Order.BigOperators.Group.Finset

set_option autoImplicit false

/-!
Every reference to a resource is counted at every moment. A stage lets go of at most one reference,
which it had, so no count ever goes below zero; and once no operation is in progress the locks alone
refer to resources, and the index holds exactly what they refer to.
-/

namespace LockManager

open Namespace (reference catalog_of_books)

namespace Stage

/-- The reference that the stage has, and lets go of when it is carried out. -/
def claims : Stage → ResourceId → Nat
  | .ask r _ | .move _ r => reference r
  | _ => 0

def claimsOf (stages : List Stage) (r : ResourceId) : Nat := (stages.map (·.claims r)).sum

theorem claimsOf_append (before after : List Stage) :
    claimsOf (before ++ after) = claimsOf before + claimsOf after := by
  funext r
  simp [claimsOf]

theorem claimsOf_singleton (stage : Stage) : claimsOf [stage] = stage.claims := by
  funext r
  simp [claimsOf]

end Stage

namespace Namespace.Counted

variable {ns : Namespace} {claims : ResourceId → Nat} {due : ResourceId → Prop} {r : ResourceId}
  {l : LockId}

/-- Dropping a reference leaves it to a later stage that the resource goes. -/
theorem releasing (c : ns.Counted (claims + reference r) due) (outcome : Option Outcome) :
    (Progress.releasing ns r outcome).space.Counted claims
      fun q => due q ∨ .reclaim q ∈ (Progress.releasing ns r outcome).next := by
  refine c.dropRef.mono fun q => Or.imp_right ?_
  rintro ⟨rfl, unused⟩
  simp [Progress.releasing, unused]

/-- A lock that leaves hands its reference to whoever took it out of the queues. -/
theorem of_left {ns' : Namespace} {b : Ledger} (c : ns.Counted claims due)
    (left : Left ns l ns' b) (same : ns'.catalog = ns.catalog) (alive : ns.Alive l)
    (bound : (ns.lock l).resource = r) : ns'.Counted (claims + reference r) due := by
  have size : ns'.locks.size = ns.locks.size :=
    (congrArg Ledger.size left.ledger).trans left.keeps.size
  have self := left.lock l
  rw [Ledger.lock_set_self] at self
  have stays := left.keeps.lock l
  rw [Ledger.leave, Ledger.lock_seat_self] at stays
  have gone : (ns'.lock l).retired = true := (congrArg Lock.retired self :)
  have place : (ns'.lock l).resource = (ns.lock l).resource :=
    (congrArg Lock.resource self :).trans stays.resource
  have name : (ns'.lock l).key = (ns.lock l).key := (congrArg Lock.key self :).trans stays.key
  refine c.change (l := l) same (fun k other => ?_) (fun _ => ?_) fun q => ?_
  · have still := left.stays other
    exact ⟨by rw [size], still.retired, still.resource, still.key⟩
  · rw [name, place, c.named l alive.1]
    exact (congrFun (congrArg Catalog.key same) _).symm
  · have absent : l ∉ ns'.binders q := by
      rw [mem_binders, Alive, gone]
      simp
    rw [if_neg absent, Pi.add_apply, reference]
    simp only [mem_binders, alive, true_and, bound, eq_comm (a := q)]
    rfl

/-- A lock whose cancel begins keeps its reference. -/
theorem mark {ns' : Namespace} (c : ns.Counted claims due) (marked : ns.mark? l = some ns') :
    ns'.Counted claims due := by
  obtain ⟨x, entered, rfl⟩ := Option.map_eq_some_iff.mp marked
  refine c.of_same rfl (Arena.size_modify ..) fun k => ?_
  unfold Lock.advance? at entered
  split at entered
  · cases entered
    unfold Namespace.lock modifyLock
    rw [Arena.get_modify]
    split
    · next here =>
      rw [← here.1]
      exact ⟨rfl, rfl, rfl⟩
    · exact ⟨rfl, rfl, rfl⟩
  · cases entered

/-- Whoever drops the last reference lets the resource go. -/
theorem release (c : ns.Counted (claims + reference r) due) (sound : ns.Sound) :
    (ns.release r).Counted claims due := by
  unfold Namespace.release
  dsimp only
  split
  · exact (c.dropRef.mono fun q => Or.imp_right And.left).reclaim (sound.alike (ns.alike_dropRef r))
  · next used => exact c.dropRef.mono fun q => Or.rec id fun last => absurd last.2 used

/-- A lock that moves swaps its reference for the one that was taken to the target. -/
theorem move {target : ResourceId} (c : ns.Counted (claims + reference target) due)
    (sound : ns.Sound) (known : l < ns.locks.size) :
    (ns.move l target).2.2.Counted (claims + reference (ns.move l target).2.1) due := by
  unfold Namespace.move
  dsimp only
  split
  · next new =>
    have alive := sound.alive known (by rw [new]; simp)
    have lock : ∀ k, (ns.modifyLock l
        ({ · with resource := target, key := (ns.resource target).key })).lock k =
        if k = l then { ns.lock k with resource := target, key := (ns.resource target).key }
        else ns.lock k := by
      intro k
      unfold Namespace.lock modifyLock
      rw [Arena.get_modify]
      simp only [known, and_true, eq_comm (a := l)]
    have size : (ns.modifyLock l
        ({ · with resource := target, key := (ns.resource target).key })).locks.size =
        ns.locks.size := Arena.size_modify ..
    refine c.change (l := l) rfl (fun k other => ?_) (fun _ => ?_) fun q => ?_
    · rw [lock, if_neg other, size]
      exact ⟨Iff.rfl, rfl, rfl, rfl⟩
    · rw [lock, if_pos rfl]
      rfl
    · simp only [mem_binders, Alive, lock, size, if_true, alive.1, alive.2, true_and, Pi.add_apply,
        reference, eq_comm (a := q)]
      omega
  · exact c

/-- A new lock takes over the reference that was taken for it. -/
theorem addLock (c : ns.Counted claims due) (sound : ns.Sound) (req : LockRequest) :
    (ns.addLock req).2.Counted claims due := by
  obtain ⟨taken, name⟩ := c.findOrCreate sound req.key
  have lock := (ns.findOrCreate req.key).2.locks.get_alloc (.create
    { id := (ns.findOrCreate req.key).2.locks.size
      handle := (ns.findOrCreate req.key).2.handles.upcoming
      owner := req.owner, policy := req.policy, clientSeq := req.clientSeq }
    req.mode (ns.findOrCreate req.key).1 req.key (ns.findOrCreate req.key).2.config.historyDepth)
  have size : (ns.addLock req).2.locks.size = (ns.findOrCreate req.key).2.locks.size + 1 :=
    Arena.size_alloc ..
  have here : (ns.addLock req).2.lock (ns.findOrCreate req.key).2.locks.size = _ :=
    (lock _).trans (if_pos rfl)
  refine taken.change (l := (ns.findOrCreate req.key).2.locks.size) rfl (fun k other => ?_)
    (fun _ => ?_) fun q => ?_
  · have old : (ns.addLock req).2.lock k = (ns.findOrCreate req.key).2.lock k :=
      (lock k).trans (if_neg other)
    rw [old, size]
    exact ⟨⟨fun below => Nat.lt_of_le_of_ne (Nat.le_of_lt_succ below) other, Nat.lt_succ_of_lt⟩,
      rfl, rfl, rfl⟩
  · rw [here]
    exact name.symm
  · have before : (ns.findOrCreate req.key).2.locks.size ∉
        (ns.findOrCreate req.key).2.binders q := by
      rw [mem_binders, Alive]
      simp
    have after : (ns.findOrCreate req.key).2.locks.size ∈ (ns.addLock req).2.binders q ↔
        q = (ns.findOrCreate req.key).1 := by
      rw [mem_binders, Alive, here, size, eq_comm (a := q)]
      simp [Lock.create]
    simp only [before, after, if_false, Pi.add_apply, reference, Nat.add_zero]

end Namespace.Counted

/-! ### Stages -/

namespace Stage

variable {ns : Namespace} {claims : ResourceId → Nat} {due : ResourceId → Prop} {r : ResourceId}

theorem counted_submit {l : LockId} (discard : Bool) (sound : ns.Sound) (known : l < ns.locks.size)
    (bound : (ns.lock l).resource = r)
    (c : ns.Counted claims due) : ((submit l discard).carryOut ns r).space.Counted claims due := by
  simp only [carryOut]
  split
  · next done =>
    exact c.onward (sound.submit known bound done) (catalog_of_books (ns.books_submit done))
  · cases discard with
    | true => exact c.alike (ns.alike_silence [l]) (catalog_of_books (ns.books_silence [l]))
    | false => exact c

theorem counted_mark {l : LockId} (join : Bool) (c : ns.Counted claims due) :
    ((mark l join).carryOut ns r).space.Counted claims due := by
  simp only [carryOut]
  split
  · next marked => exact c.mark marked
  · exact c

/-- What a stage leaves to be done has no references. -/
theorem claimsOf_next (ns : Namespace) (r : ResourceId) (stage : Stage) :
    claimsOf (stage.carryOut ns r).next = 0 := by
  funext q
  apply List.sum_eq_zero
  intro n member
  obtain ⟨next, inside, rfl⟩ := List.mem_map.mp member
  cases yields_of_mem_next inside <;> rfl

/-- Carrying out a stage, with its own reference among those counted, leaves all counted. -/
theorem Ready.counted {stage : Stage} (ready : stage.Ready ns r) (sound : ns.Sound)
    (c : ns.Counted (claims + stage.claims) fun q => due q ∨ stage = .reclaim q) :
    (stage.carryOut ns r).space.Counted claims
      fun q => due q ∨ .reclaim q ∈ (stage.carryOut ns r).next := by
  -- all stages but `ask`, `move` and `reclaim` have no part in the references before them
  have plain (none : stage.claims = 0) (other : ∀ q, stage ≠ .reclaim q) :
      ns.Counted claims due := by
    rw [none] at c
    exact c.mono fun q => Or.rec id fun same => absurd same (other q)
  obtain ⟨fits, bound, going⟩ := ready
  cases stage with
  | submit l discard =>
    have done := counted_submit discard sound fits (bound l _ rfl)
      (plain rfl (by simp))
    exact done.mono fun _ => .inl
  | changeMode l mode =>
    simp only [carryOut]
    split
    · next done =>
      have onward := sound.changeMode fits (bound l _ rfl) done
      have same := catalog_of_books (ns.books_changeMode done)
      exact ((plain rfl (by simp)).onward onward same).mono fun _ => .inl
    · exact (plain rfl (by simp)).mono fun _ => .inl
  | mark l join =>
    exact (counted_mark join (plain rfl (by simp))).mono fun _ => .inl
  | leave l =>
    have here := bound l _ rfl
    have canceling := going l rfl
    obtain ⟨b, left⟩ := sound.leave fits here canceling
    have alive := sound.alive fits (by rw [canceling]; simp)
    exact (plain rfl (by simp)).of_left left (ns.catalog_leave l r) alive here |>.releasing none
  | ask q requester =>
    have before := c.mono fun _ => Or.rec id fun same => by cases same
    have same := catalog_of_books (ns.books_conclude q ((ns.arbiter q).glimpse requester).1)
    exact (before.onward (sound.ask fits requester) same).releasing _
  | reclaim q =>
    have before : ns.Counted claims fun x => due x ∨ x = q :=
      c.mono fun x => Or.imp_right fun same => (Stage.reclaim.inj same).symm
    exact (before.reclaim sound).mono fun _ => .inl
  | move l target =>
    have before := c.mono fun _ => Or.rec id fun same => by cases same
    exact (before.move sound fits.1).releasing _
  | forget owner =>
    exact ((plain rfl (by simp)).alike (ns.alike_forget owner) rfl).mono fun _ => .inl
  | close =>
    have same := catalog_of_books ns.books_closeDispatcher
    exact ((plain rfl (by simp)).alike ns.alike_closeDispatcher same).mono fun _ => .inl
  | look q others seen =>
    cases others <;> exact (plain rfl (by simp)).mono fun _ => .inl
  | _ => exact (plain rfl (by simp)).mono fun _ => .inl

/-- The resource that loses a reference by the stage, with the queues of `r` held. -/
def drops? (ns : Namespace) (r : ResourceId) : Stage → Option ResourceId
  | .leave _ => some r
  | .ask q _ => some q
  | .move l target => some (ns.move l target).2.1
  | _ => none

/-- What the stage changes of the index and of the counts: a reference is dropped, or a resource goes that
nobody refers to. -/
def clears (ns : Namespace) (r : ResourceId) : Stage → Namespace
  | .reclaim q => ns.reclaim q
  | stage => (stage.drops? ns r).elim ns ns.dropRef

theorem catalog_dropRef {ns' : Namespace} (same : ns'.catalog = ns.catalog) (q : ResourceId) :
    (ns'.dropRef q).catalog = (ns.dropRef q).catalog := by
  have refs : ∀ x, (ns'.resource x).refs = (ns.resource x).refs :=
    congrFun (congrArg Namespace.Catalog.refs same)
  have key : ∀ x, (ns'.resource x).key = (ns.resource x).key :=
    congrFun (congrArg Namespace.Catalog.key same)
  simp only [Namespace.catalog, Namespace.Counted.resource_dropRef, refs, key]
  exact congrArg (Namespace.Catalog.mk · _ _) (congrArg Namespace.Catalog.index same)

/-- Nothing else about them changes. -/
theorem catalog_carryOut (stage : Stage) :
    (stage.carryOut ns r).space.catalog = (stage.clears ns r).catalog := by
  cases stage with
  | submit l discard =>
    simp only [carryOut]
    split
    · next done => exact catalog_of_books (ns.books_submit done)
    · cases discard with
      | true => exact catalog_of_books (ns.books_silence [l])
      | false => rfl
  | changeMode l mode =>
    simp only [carryOut]
    split
    · next done => exact catalog_of_books (ns.books_changeMode done)
    · rfl
  | mark l join =>
    simp only [carryOut]
    split
    · next ns' marked =>
      obtain ⟨x, -, rfl⟩ := Option.map_eq_some_iff.mp marked
      rfl
    · rfl
  | leave l => exact catalog_dropRef (ns.catalog_leave l r) r
  | ask q requester => exact catalog_dropRef (catalog_of_books (ns.books_conclude ..)) q
  | move l target => exact catalog_dropRef (catalog_of_books (ns.books_move l target)) _
  | close => exact catalog_of_books ns.books_closeDispatcher
  | look q others seen => cases others <;> rfl
  | _ => rfl

/-- Every other count stays. -/
theorem refs_carryOut (stage : Stage) (x : ResourceId) :
    ((stage.carryOut ns r).space.resource x).refs =
      (ns.resource x).refs - if stage.drops? ns r = some x then 1 else 0 := by
  have same : ((stage.carryOut ns r).space.resource x).refs = ((stage.clears ns r).resource x).refs :=
    congrFun (congrArg Namespace.Catalog.refs (catalog_carryOut stage)) x
  have drop (q : ResourceId) : ((ns.dropRef q).resource x).refs =
      (ns.resource x).refs - if some q = some x then 1 else 0 := by
    simp only [Option.some.injEq, eq_comm (a := q)]
    exact (Namespace.Counted.resource_dropRef ns q x).1
  rw [same]
  cases stage with
  | leave l => exact drop r
  | ask q requester => exact drop q
  | move l target => exact drop _
  | reclaim q =>
    simp only [clears, drops?, reduceCtorEq, if_false, Nat.sub_zero]
    unfold Namespace.reclaim
    dsimp only
    split <;> rfl
  | _ => rfl

/-- Whoever drops a reference has it. -/
theorem Ready.refs_pos {stage : Stage} (ready : stage.Ready ns r) (sound : ns.Sound)
    (c : ns.Counted (claims + stage.claims) due) {x : ResourceId}
    (drops : stage.drops? ns r = some x) : 0 < (ns.resource x).refs := by
  have held {l : LockId} (known : l < ns.locks.size) (stays : (ns.lock l).state ≠ .canceled)
      (here : (ns.lock l).resource = x) : 0 < (ns.resource x).refs := by
    rw [c.count]
    have binder := Namespace.mem_binders.mpr ⟨sound.alive known stays, here⟩
    exact Nat.add_pos_left (Finset.card_pos.mpr ⟨l, binder⟩) _
  have claimed (mine : stage.claims = reference x) : 0 < (ns.resource x).refs := by
    rw [c.count, Pi.add_apply, mine, reference, if_pos rfl]
    omega
  obtain ⟨fits, bound, going⟩ := ready
  cases stage with
  | leave l =>
    cases drops
    exact held fits (by rw [going l rfl]; simp) (bound l _ rfl)
  | ask q requester =>
    cases drops
    exact claimed rfl
  | move l target =>
    by_cases new : (ns.lock l).state = .new
    · simp only [drops?, Namespace.move, new, if_true, Option.some.injEq] at drops
      exact held fits.1 (by rw [new]; simp) drops
    · simp only [drops?, Namespace.move, new, if_false, Option.some.injEq] at drops
      exact claimed (drops ▸ rfl)
  | _ => cases drops

end Stage

/-! ### Operations that begin -/

namespace Opening

variable {ns ns' : Namespace} {todo : List Stage} {claims : ResourceId → Nat}
  {due : ResourceId → Prop}

theorem claimsOf_plain (plain : ∀ stage ∈ todo, stage.Plain) : Stage.claimsOf todo = 0 := by
  funext r
  apply List.sum_eq_zero
  intro n member
  obtain ⟨stage, inside, rfl⟩ := List.mem_map.mp member
  have light := plain stage inside
  cases stage <;> first | rfl | exact light.elim

theorem claimsOf_sweep (ls : List LockId) {last : Stage} (none : last.claims = 0) :
    Stage.claimsOf (ls.map (.mark · true) ++ [last]) = 0 := by
  rw [Stage.claimsOf_append, Stage.claimsOf_singleton, none, add_zero]
  exact claimsOf_plain fun stage inside => by
    obtain ⟨l, -, rfl⟩ := List.mem_map.mp inside
    trivial

/-- A reference that has been taken is one of a stage to come, or of a new lock. -/
theorem counted (opening : Opening ns todo ns') (sound : ns.Sound) (c : ns.Counted claims due) :
    ns'.Counted (claims + Stage.claimsOf todo) due := by
  cases opening with
  | still plain =>
    rw [claimsOf_plain plain]
    exact c
  | @register req _ _ _ _ plain =>
    rw [claimsOf_plain plain]
    exact c.addLock sound req
  | @rebind _ k _ _ =>
    rw [Stage.claimsOf_singleton]
    exact (c.findOrCreate sound k).1
  | @glimpse k r there requester =>
    rw [Stage.claimsOf_singleton]
    exact c.addRef (sound.indexed k r there) there
  | evict owner =>
    rw [claimsOf_sweep _ rfl]
    exact c.alike (ns.alike_silence _) (catalog_of_books (ns.books_silence _))
  | shutdown _ =>
    rw [claimsOf_sweep _ rfl]
    exact c.alike ns.alike_beginShutdown (catalog_of_books (ns.books_silence _))

end Opening

/-! ### Systems -/

namespace System

/-- The references to `r` of the operations in progress. -/
def claims (s : System) (r : ResourceId) : Nat :=
  ∑ i ∈ Finset.range s.tasks.size, Stage.claimsOf (s.task i).todo r

/-- Some operation is to see whether `r` goes. -/
def Due (s : System) (r : ResourceId) : Prop := ∃ i, Stage.reclaim r ∈ (s.task i).todo

/-- Every reference is counted. -/
abbrev Counted (s : System) : Prop := s.space.Counted s.claims s.Due

variable {s t : System}

theorem claims_congr (size : t.tasks.size = s.tasks.size)
    (todo : ∀ i, (t.task i).todo = (s.task i).todo) : t.claims = s.claims := by
  funext r
  unfold claims
  rw [size]
  exact Finset.sum_congr rfl fun i _ => by rw [todo]

namespace Counted

theorem begun (c : s.Counted) (sound : s.Sound) {ns : Namespace} {task : Task}
    (opening : Opening s.space task.todo ns) :
    System.Counted { space := ns, tasks := s.tasks.alloc task } := by
  have tasks : ∀ i, System.task { space := ns, tasks := s.tasks.alloc task } i =
      if i = s.tasks.size then task else s.task i := s.tasks.get_alloc task
  have claims : System.claims { space := ns, tasks := s.tasks.alloc task } =
      s.claims + Stage.claimsOf task.todo := by
    funext r
    unfold System.claims
    rw [Arena.size_alloc, Finset.sum_range_succ, tasks, if_pos rfl, Pi.add_apply]
    congr 1
    apply Finset.sum_congr rfl
    intro i inside
    rw [tasks, if_neg (Nat.ne_of_lt (Finset.mem_range.mp inside))]
  have counted := opening.counted sound.space c
  rw [← claims] at counted
  refine counted.mono fun r => ?_
  rintro ⟨i, inside⟩
  refine ⟨i, ?_⟩
  rw [tasks, if_neg (Nat.ne_of_lt (lt_size_of_todo inside))]
  exact inside

theorem take (c : s.Counted) {i : TaskId} (taken : s.take? i = some t) : t.Counted := by
  obtain ⟨p, -, -, rfl⟩ := take?_eq taken
  have todo := s.todo_hand i p
  have claims := claims_congr (t := s.hand i p) (Arena.size_modify ..) todo
  have counted : (s.hand i p).space.Counted s.claims s.Due := c
  rw [← claims] at counted
  exact counted.mono fun r ⟨j, inside⟩ => ⟨j, (todo j).symm ▸ inside⟩

/-- A stage's reference is among those that are counted. -/
theorem split (c : s.Counted) {i : TaskId} {stage : Stage} {rest : List Stage}
    (todo : (s.task i).todo = stage :: rest) :
    ∃ others, s.claims = others + stage.claims ∧ s.space.Counted (others + stage.claims) s.Due := by
  have inside : i < s.tasks.size := lt_size_of_todo (todo ▸ List.mem_cons_self)
  have mine : ∀ r, stage.claims r ≤ s.claims r := by
    intro r
    calc
      stage.claims r ≤ Stage.claimsOf (s.task i).todo r := by
        rw [todo]
        simp [Stage.claimsOf]
      _ ≤ s.claims r := Finset.single_le_sum
        (f := fun j => Stage.claimsOf (s.task j).todo r) (fun _ _ => Nat.zero_le _)
        (Finset.mem_range.mpr inside)
  have whole : s.claims = (fun r => s.claims r - stage.claims r) + stage.claims :=
    funext fun r => (Nat.sub_add_cancel (mine r)).symm
  exact ⟨_, whole, whole ▸ c⟩

theorem carryOut (c : s.Counted) (sound : s.Sound) {i : TaskId} (done : s.carryOut? i = some t) :
    t.Counted := by
  obtain ⟨stage, rest, q, todo, prepared, space, tasks⟩ := Sound.carryOut_cases done
  have inside : i < s.tasks.size := lt_size_of_todo (todo ▸ List.mem_cons_self)
  have mine : (t.task i).todo = (stage.carryOut s.space q).next ++ rest :=
    congrArg Task.todo (task_of_modify tasks inside)
  have others : ∀ j, j ≠ i → t.task j = s.task j := fun j => task_of_ne tasks
  obtain ⟨claims, whole, counted⟩ := c.split todo
  have now : t.claims = claims := by
    funext r
    have change := Sound.sum_range_change (f := fun j => Stage.claimsOf (s.task j).todo r)
      (g := fun j => Stage.claimsOf (t.task j).todo r) inside
      fun j other => by simp only [others j other]
    have before : s.claims r = claims r + stage.claims r := congrFun whole r
    simp only [mine, todo, Stage.claimsOf_append, Stage.claimsOf_next, zero_add] at change
    rw [show Stage.claimsOf (stage :: rest) r = stage.claims r + Stage.claimsOf rest r from rfl]
      at change
    unfold System.claims at before ⊢
    rw [tasks, Arena.size_modify]
    omega
  have due : s.space.Counted (claims + stage.claims)
      fun r => (∃ j, j ≠ i ∧ .reclaim r ∈ (s.task j).todo ∨ .reclaim r ∈ rest) ∨
        stage = .reclaim r := by
    refine counted.mono fun r ⟨j, member⟩ => ?_
    by_cases same : j = i
    · rw [same, todo] at member
      rcases List.mem_cons.mp member with here | later
      · exact .inr here.symm
      · exact .inl ⟨j, .inr later⟩
    · exact .inl ⟨j, .inl ⟨same, member⟩⟩
  have after := (sound.ready todo prepared).counted sound.space due
  unfold System.Counted
  rw [space, now]
  refine after.mono fun r => ?_
  rintro (⟨j, ⟨other, member⟩ | later⟩ | next)
  · exact ⟨j, (others j other).symm ▸ member⟩
  · exact ⟨i, mine ▸ List.mem_append_right _ later⟩
  · exact ⟨i, mine ▸ List.mem_append_left _ next⟩

theorem step (c : s.Counted) (sound : s.Sound) (step : Step s t) : t.Counted := by
  cases step with
  | start op => exact c.begun sound (Task.opening_start s.space op)
  | hold found => exact c.begun sound (.still (by simp [Stage.Plain]))
  | take i taken => exact c.take taken
  | carryOut i done => exact c.carryOut sound done
  | takeUp taken =>
    exact c.alike (Namespace.alike_takeUp taken) (catalog_of_books (Namespace.books_takeUp taken))
  | finish busy =>
    exact c.alike (Namespace.alike_finish _ _) (catalog_of_books (Namespace.books_finish _ _))
  | checkTimeouts =>
    exact c.alike (Namespace.alike_checkTimeouts _)
      (catalog_of_books (Namespace.books_checkTimeouts _))
  | pass duration => exact c.alike (Namespace.alike_pass _ duration) rfl

end Counted

theorem counted_create {config : Config} {ns : Namespace}
    (created : Namespace.create config = .ok ns) : System.Counted { space := ns } := by
  obtain ⟨-, rfl⟩ := Namespace.create_eq_ok.mp created
  refine ⟨nofun, fun r => ?_, fun r used => ?_, fun l below => ?_, nofun⟩
  · rfl
  · cases used
  · exact absurd below (Nat.not_lt_zero l)

theorem Reachable.counted {config : Config} {s : System} (reachable : Reachable config s) :
    s.Counted := by
  induction reachable using Reachable.induction with
  | create created => exact counted_create created
  | step before last ih => exact ih.step before.sound last

theorem claims_of_quiet {s : System} (quiet : s.quiet = true) : s.claims = 0 := by
  funext r
  apply Finset.sum_eq_zero
  intro i _
  rw [todo_of_quiet quiet]
  rfl

/-- At every moment a live lock is bound to the resource that the index holds under its key, so
locks under one key have their queues in common. A stage lowers no count but that of the resource it
lets go of, which it lowers by one. With no operation in progress each resource is referred to by
the live locks bound to it, and the index holds the keys of live locks. -/
theorem references_counted {config : Config} {s : System} (reachable : Reachable config s) :
    (∀ l, s.space.Alive l →
        s.space.index.get? (s.space.lock l).key = some (s.space.lock l).resource ∧
          (s.space.resource (s.space.lock l).resource).key = (s.space.lock l).key) ∧
      (∀ k l, s.space.Alive k → s.space.Alive l → (s.space.lock k).key = (s.space.lock l).key →
        (s.space.lock k).resource = (s.space.lock l).resource) ∧
      (∀ i stage rest q, (s.task i).todo = stage :: rest → s.prepared? i = some q →
        ∀ r, ((stage.carryOut s.space q).space.resource r).refs +
            (if stage.drops? s.space q = some r then 1 else 0) =
          (s.space.resource r).refs) ∧
      (s.quiet = true →
        (∀ r, (s.space.resource r).refs = (s.space.binders r).card) ∧
          ∀ k, (∃ r, s.space.index.get? k = some r) ↔
            ∃ l, s.space.Alive l ∧ (s.space.lock l).key = k) ∧
      (s.space.handles.slots.size ≤ UInt32.size → ∀ l, l ∈ s.space.live ↔ s.space.Alive l) := by
  have sound := reachable.sound
  have c := reachable.counted
  refine ⟨fun l alive => ⟨c.indexed alive, (c.named l alive.1).symm⟩,
    fun k l alive alive' same => ?_, fun i stage rest q todo prepared r => ?_, fun quiet => ⟨fun r => ?_, fun k => ⟨?_, ?_⟩⟩,
    fun room l => sound.space.mem_live_iff room⟩
  · have found := c.indexed alive
    rw [same, c.indexed alive'] at found
    exact (Option.some.inj found).symm
  · obtain ⟨claims, -, mine⟩ := c.split todo
    rw [Stage.refs_carryOut]
    split
    · next drops =>
      have positive := (sound.ready todo prepared).refs_pos sound.space mine drops
      exact Nat.sub_add_cancel positive
    · rfl
  · rw [c.count, claims_of_quiet quiet]
    rfl
  · rintro ⟨r, there⟩
    have used : (s.space.resource r).refs ≠ 0 := by
      intro none
      obtain ⟨i, pending⟩ := c.unused k r there none
      rw [todo_of_quiet quiet] at pending
      cases pending
    rw [c.count, claims_of_quiet quiet, Pi.zero_apply, Nat.add_zero] at used
    obtain ⟨l, binder⟩ := Finset.card_ne_zero.mp used
    obtain ⟨alive, here⟩ := Namespace.mem_binders.mp binder
    exact ⟨l, alive, by rw [c.named l alive.1, here, c.keyed k r there]⟩
  · rintro ⟨l, alive, rfl⟩
    exact ⟨_, c.indexed alive⟩

/-- The only lock of a resource is canceled, and another lock comes before the resource goes. -/
theorem references_counted_revived :
    let s := (fresh {}).follow
      (Move.through (.enqueue { key := ⟨1, 0⟩, mode := .exclusive, owner := ⟨"a"⟩ }) 0 ++
        [.start (.cancel (HandleTable.upcoming ({} : HandleTable LockId))), .carryOut 1, .take 1,
          .take 1, .carryOut 1] ++
        Move.through (.enqueue { key := ⟨1, 0⟩, mode := .exclusive, owner := ⟨"b"⟩ }) 2 ++
        [.take 1, .carryOut 1])
    s.space.live = [1] ∧ s.space.index.get? ⟨1, 0⟩ = some 0 ∧ (s.space.resource 0).refs = 1 ∧
      (s.space.resource 0).refs = (s.space.binders 0).card ∧ s.space.Alive 1 := by
  intro s
  have reachable : Reachable {} s := reachable_follow rfl _
  have quiet : s.quiet = true := by decide +kernel
  obtain ⟨-, -, -, settled, live⟩ := references_counted reachable
  exact ⟨by decide +kernel, by decide +kernel, by decide +kernel, (settled quiet).1 0,
    (live (by decide +kernel) 1).mp (by decide +kernel)⟩

end System
end LockManager
