import LockManager.Proofs.Namespace.Books
import LockManager.Proofs.Task.Opening

set_option autoImplicit false

/-!
Copies of numbered requests. The lock that a request made answers its copies until it leaves, unless
its owner's requests are forgotten before; and no other lock is made for the request meanwhile.
-/

namespace LockManager
namespace Namespace

/-- Copies of the request that made the lock are answered with it. -/
def Answers (ns : Namespace) (l : LockId) : Prop :=
  ∀ seq, (ns.lock l).claim.clientSeq = some seq →
    ns.replays.get? ((ns.lock l).claim.owner, seq) = some (ns.lock l).handle

/-- The two locks were made for one numbered request. -/
def Copies (ns : Namespace) (k l : LockId) : Prop :=
  (ns.lock k).claim.owner = (ns.lock l).claim.owner ∧
    ∃ seq, (ns.lock k).claim.clientSeq = some seq ∧ (ns.lock l).claim.clientSeq = some seq

/-- The slots of the handle table have numbers that fit a handle. -/
abbrev Room (ns : Namespace) : Prop := ns.handles.slots.size ≤ UInt32.size

/-- There are the same locks, for the same requests, and only those `gone` are done with besides. -/
structure Records (ns ns' : Namespace) (gone : LockId → Prop) : Prop where
  size : ns'.locks.size = ns.locks.size
  claim : ∀ k, (ns'.lock k).claim = (ns.lock k).claim
  retired : ∀ k, (ns'.lock k).retired = true ↔ (ns.lock k).retired = true ∨ gone k

variable {ns ns' : Namespace} {l k : LockId} {r : ResourceId}

namespace Records

variable {gone gone' : LockId → Prop}

theorem alive_iff (records : Records ns ns' gone) : ns'.Alive k ↔ ns.Alive k ∧ ¬gone k := by
  have same := records.retired k
  unfold Alive
  rw [records.size, ← Bool.not_eq_true, same, not_or, ← Bool.not_eq_true, and_assoc]

theorem of_outline (size : ns'.locks.size = ns.locks.size)
    (lock : ∀ k, (ns'.lock k).outline = (ns.lock k).outline) (none : ∀ k, ¬gone k) :
    Records ns ns' gone := by
  refine ⟨size, fun k => (congrArg Lock.claim (lock k) :), fun k => ?_⟩
  rw [show (ns'.lock k).retired = (ns.lock k).retired from (congrArg Lock.retired (lock k) :)]
  exact (or_iff_left (none k)).symm

theorem of_alike (same : Alike ns ns') (none : ∀ k, ¬gone k) : Records ns ns' gone :=
  of_outline same.size same.lock none

theorem of_onward (onward : Onward ns ns') (none : ∀ k, ¬gone k) : Records ns ns' gone := by
  refine ⟨onward.keeps.size, fun k => (onward.keeps.lock k).claim, fun k => ?_⟩
  rw [show (ns'.lock k).retired = (ns.lock k).retired from (onward.keeps.lock k).retired]
  exact (or_iff_left (none k)).symm

theorem of_left {b : Ledger} (left : Left ns l ns' b) : Records ns ns' (l = ·) := by
  have self := left.lock l
  rw [Ledger.lock_set_self] at self
  have size : ns'.locks.size = b.size := congrArg Ledger.size left.ledger
  refine ⟨size.trans left.keeps.size, fun k => ?_, fun k => ?_⟩
  · by_cases here : k = l
    · rw [here, ← Lock.outline_claim, self]
      exact left.keeps.left_of_leave.1
    · exact (left.stays here).claim
  · by_cases here : k = l
    · rw [here]
      exact iff_of_true (congrArg Lock.retired self :) (.inr rfl)
    · rw [show (ns'.lock k).retired = (ns.lock k).retired from (left.stays here).retired]
      exact (or_iff_left (Ne.symm here)).symm

theorem of_modifyLock {f : Lock → Lock} (claim : (f (ns.lock l)).claim = (ns.lock l).claim)
    (retired : (f (ns.lock l)).retired = (ns.lock l).retired) (none : ∀ k, ¬gone k) :
    Records ns (ns.modifyLock l f) gone := by
  have lock : ∀ k, ((ns.modifyLock l f).lock k).claim = (ns.lock k).claim ∧
      ((ns.modifyLock l f).lock k).retired = (ns.lock k).retired := by
    intro k
    unfold Namespace.lock modifyLock
    rw [Arena.get_modify]
    split
    · next here =>
      rw [← here.1]
      exact ⟨claim, retired⟩
    · exact ⟨rfl, rfl⟩
  refine ⟨Arena.size_modify .., fun k => (lock k).1, fun k => ?_⟩
  rw [(lock k).2]
  exact (or_iff_left (none k)).symm

theorem releasing (records : Records ns ns' gone) (q : ResourceId) (outcome : Option Outcome) :
    Records ns (Progress.releasing ns' q outcome).space gone :=
  ⟨records.size, records.claim, records.retired⟩

end Records

theorem records_mark (marked : ns.mark? l = some ns') {gone : LockId → Prop}
    (none : ∀ k, ¬gone k) : Records ns ns' gone := by
  obtain ⟨x, entered, rfl⟩ := Option.map_eq_some_iff.mp marked
  unfold Lock.advance? at entered
  split at entered
  · cases entered
    exact .of_modifyLock rfl rfl none
  · cases entered

theorem records_move (target : ResourceId) {gone : LockId → Prop} (none : ∀ k, ¬gone k) :
    Records ns (ns.move l target).2.2 gone := by
  unfold Namespace.move
  dsimp only
  split
  · exact .of_modifyLock rfl rfl none
  · exact .of_alike (.refl ns) none

/-! ### Answering copies -/

theorem Copies.symm (copies : ns.Copies k l) : ns.Copies l k := by
  obtain ⟨owner, seq, first, second⟩ := copies
  exact ⟨owner.symm, seq, second, first⟩

theorem Copies.congr {k' l' : LockId} (copies : ns.Copies k l)
    (first : (ns'.lock k').claim = (ns.lock k).claim)
    (second : (ns'.lock l').claim = (ns.lock l).claim) : ns'.Copies k' l' := by
  unfold Copies
  rw [first, second]
  exact copies

theorem Answers.congr (answers : ns.Answers l) (claim : (ns'.lock l).claim = (ns.lock l).claim)
    (replays : ns'.replays = ns.replays) : ns'.Answers l := by
  unfold Answers Lock.handle
  rw [claim, replays]
  exact answers

/-- A handle names one lock. -/
theorem Sound.eq_of_handle (sound : ns.Sound) (room : ns.Room) (alive : ns.Alive k)
    (alive' : ns.Alive l) (same : (ns.lock k).handle = (ns.lock l).handle) : k = l := by
  obtain ⟨-, resolves⟩ := sound.handles room
  have first := (resolves _ k).mpr ⟨alive.1, rfl, alive.2⟩
  have second := (resolves _ l).mpr ⟨alive'.1, rfl, alive'.2⟩
  rw [same, second] at first
  exact (Option.some.inj first).symm

/-- A request that makes a lock is no copy of one whose lock answers. -/
theorem Sound.not_answers (sound : ns.Sound) (room : ns.Room) {req : LockRequest}
    (new : ns.replayOf? req = none) (alive : ns.Alive l)
    (owner : (ns.lock l).claim.owner = req.owner) {seq : UInt64}
    (asked : req.clientSeq = some seq) (made : (ns.lock l).claim.clientSeq = some seq) :
    ¬ns.Answers l := by
  intro answers
  have answer := answers seq made
  have named := ((sound.handles room).2 _ l).mpr ⟨alive.1, rfl, alive.2⟩
  unfold replayOf? at new
  rw [owner] at answer
  simp [asked, answer, named] at new

/-- When one lock leaves, another still answers. -/
theorem Answers.leave (answers : ns.Answers k) (sound : ns.Sound) (room : ns.Room)
    (alive : ns.Alive k) (alive' : ns.Alive l) (other : k ≠ l)
    (claim : (ns'.lock k).claim = (ns.lock k).claim)
    (replays : ns'.replays = (ns.dropReplay (ns.lock l).claim).replays) : ns'.Answers k := by
  intro seq made
  unfold Lock.handle
  rw [claim] at made ⊢
  have answer := answers seq made
  rw [replays]
  unfold dropReplay
  split
  · next seq' _ =>
    split
    · next mine =>
      have apart : ((ns.lock k).claim.owner, seq) ≠ ((ns.lock l).claim.owner, seq') := by
        intro same
        rw [same, mine] at answer
        exact other (sound.eq_of_handle room alive alive' (Option.some.inj answer).symm)
      exact (Index.get?_erase ..).trans ((if_neg apart).trans answer)
    · exact answer
  · exact answer

theorem Answers.forget {owner : Owner} (answers : ns.Answers k)
    (other : (ns.lock k).claim.owner ≠ owner) : (ns.forget owner).Answers k := by
  intro seq made
  refine (Index.get?_restrict ..).trans ((if_pos ?_).trans (answers seq made))
  exact decide_eq_true other

/-! ### New locks -/

theorem claim_addLock (req : LockRequest) :
    ((ns.addLock req).2.lock ns.locks.size).claim =
      { id := ns.locks.size, handle := ns.handles.upcoming, owner := req.owner
        policy := req.policy, clientSeq := req.clientSeq } := by
  have same := ns.alike_findOrCreate req.key
  have size : (ns.findOrCreate req.key).2.locks.size = ns.locks.size := same.size
  have self : ((ns.addLock req).2.lock (ns.findOrCreate req.key).2.locks.size).claim =
      { id := (ns.findOrCreate req.key).2.locks.size
        handle := (ns.findOrCreate req.key).2.handles.upcoming
        owner := req.owner, policy := req.policy, clientSeq := req.clientSeq } :=
    congrArg Lock.claim (Arena.get_alloc_size ..)
  rwa [size, same.handles] at self

theorem replays_findOrCreate (key : Key) : (ns.findOrCreate key).2.replays = ns.replays := by
  unfold findOrCreate
  split <;> rfl

theorem replays_addLock (req : LockRequest) : (ns.addLock req).2.replays =
    match req.clientSeq with
    | some seq => ns.replays.insert (req.owner, seq) ns.handles.upcoming
    | none => ns.replays := by
  have replays := ns.replays_findOrCreate req.key
  have handles := (ns.alike_findOrCreate req.key).handles
  unfold addLock
  cases req.clientSeq with
  | none => exact replays
  | some seq =>
    dsimp only
    rw [replays, handles]

/-- A new lock answers copies of its request. -/
theorem answers_addLock (req : LockRequest) : (ns.addLock req).2.Answers ns.locks.size := by
  intro seq made
  unfold Lock.handle
  rw [claim_addLock] at made ⊢
  have asked : req.clientSeq = some seq := made
  rw [replays_addLock, asked]
  exact (Index.get?_insert ..).trans (if_pos rfl)

/-- The other locks answer copies of theirs. -/
theorem Answers.addLock (answers : ns.Answers k) (sound : ns.Sound) (room : ns.Room)
    {req : LockRequest} (new : ns.replayOf? req = none) (alive : ns.Alive k)
    (claim : ((ns.addLock req).2.lock k).claim = (ns.lock k).claim) :
    (ns.addLock req).2.Answers k := by
  intro seq made
  unfold Lock.handle
  rw [claim] at made ⊢
  have answer := answers seq made
  rw [replays_addLock]
  split
  · next seq' asked =>
    have apart : ((ns.lock k).claim.owner, seq) ≠ (req.owner, seq') := by
      intro same
      obtain ⟨owner, rfl⟩ := Prod.mk.inj same
      exact sound.not_answers room new alive owner asked made answers
    exact (Index.get?_insert ..).trans ((if_neg apart).trans answer)
  · exact answer

end Namespace

/-! ### Stages -/

theorem Progress.answers_releasing (ns : Namespace) (r : ResourceId) (outcome : Option Outcome) :
    (releasing ns r outcome).space.handles = ns.handles ∧
      (releasing ns r outcome).space.replays = ns.replays := ⟨rfl, rfl⟩

namespace Stage

open Namespace (Records)

variable {ns : Namespace} {r : ResourceId}

/-- No stage but `leave` is done with a lock, and none changes what a lock was made for. -/
theorem Ready.records {stage : Stage} (ready : stage.Ready ns r) (sound : ns.Sound) :
    Records ns (stage.carryOut ns r).space fun k => stage = .leave k := by
  obtain ⟨fits, bound, going⟩ := ready
  cases stage with
  | submit l discard =>
    simp only [carryOut]
    split
    · next done => exact .of_onward (sound.submit fits (bound l _ rfl) done) (by simp)
    · cases discard with
      | true => exact .of_alike (ns.alike_silence [l]) (by simp)
      | false => exact .of_alike (.refl ns) (by simp)
  | changeMode l mode =>
    simp only [carryOut]
    split
    · next done => exact .of_onward (sound.changeMode fits (bound l _ rfl) done) (by simp)
    · exact .of_alike (.refl ns) (by simp)
  | mark l join =>
    simp only [carryOut]
    split
    · next marked => exact ns.records_mark marked (by simp)
    · exact .of_alike (.refl ns) (by simp)
  | leave l =>
    obtain ⟨b, left⟩ := sound.leave fits (bound l _ rfl) (going l rfl)
    have records := Records.of_left left
    simp only [Stage.leave.injEq]
    exact records.releasing r none
  | ask q requester =>
    have records : Records ns (ns.ask q requester).2 fun k => ask q requester = .leave k :=
      .of_onward (sound.ask fits requester) (by simp)
    exact records.releasing q _
  | reclaim q => exact .of_alike (ns.alike_reclaim q) (by simp)
  | move l target =>
    have records : Records ns (ns.move l target).2.2 fun k => Stage.move l target = .leave k :=
      ns.records_move target (by simp)
    exact records.releasing _ _
  | forget owner => exact .of_alike (ns.alike_forget owner) (by simp)
  | close => exact .of_alike ns.alike_closeDispatcher (by simp)
  | look q others seen => cases others <;> exact .of_alike (.refl ns) (by simp)
  | _ => exact .of_alike (.refl ns) (by simp)

/-- All but `leave` and `forget` leave handles and answers alone. -/
theorem answers_carryOut {stage : Stage} (stays : ∀ l, stage ≠ .leave l)
    (keeps : ∀ owner, stage ≠ .forget owner) :
    (stage.carryOut ns r).space.handles = ns.handles ∧
      (stage.carryOut ns r).space.replays = ns.replays := by
  have of_books {ns' : Namespace} (same : ns'.books = ns.books) :
      ns'.handles = ns.handles ∧ ns'.replays = ns.replays :=
    ⟨Namespace.handles_of_books same, Namespace.replays_of_books same⟩
  have of_releasing {ns' : Namespace} (same : ns'.books = ns.books) (q : ResourceId)
      (outcome : Option Outcome) :
      (Progress.releasing ns' q outcome).space.handles = ns.handles ∧
        (Progress.releasing ns' q outcome).space.replays = ns.replays := by
    obtain ⟨handles, replays⟩ := Progress.answers_releasing ns' q outcome
    rw [handles, replays]
    exact of_books same
  cases stage with
  | submit l discard =>
    simp only [carryOut]
    split
    · next done => exact of_books (ns.books_submit done)
    · cases discard with
      | true => exact of_books (ns.books_silence [l])
      | false => exact ⟨rfl, rfl⟩
  | changeMode l mode =>
    simp only [carryOut]
    split
    · next done => exact of_books (ns.books_changeMode done)
    · exact ⟨rfl, rfl⟩
  | mark l join =>
    simp only [carryOut]
    split
    · next marked =>
      obtain ⟨x, -, rfl⟩ := Option.map_eq_some_iff.mp marked
      exact ⟨rfl, rfl⟩
    · exact ⟨rfl, rfl⟩
  | leave l => exact absurd rfl (stays l)
  | ask q requester =>
    exact of_releasing (ns.books_conclude q ((ns.arbiter q).glimpse requester).1) q _
  | reclaim q =>
    simp only [carryOut]
    unfold Namespace.reclaim
    dsimp only
    split <;> exact ⟨rfl, rfl⟩
  | move l target => exact of_releasing (ns.books_move l target) _ _
  | forget owner => exact absurd rfl (keeps owner)
  | close => exact of_books ns.books_closeDispatcher
  | look q others seen => cases others <;> exact ⟨rfl, rfl⟩
  | _ => exact ⟨rfl, rfl⟩

end Stage
end LockManager
