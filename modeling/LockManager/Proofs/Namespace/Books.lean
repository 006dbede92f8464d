import LockManager.Proofs.Namespace.Sound

set_option autoImplicit false

/-!
The books of a namespace: what is in the index, how often each resource is referred to, which
handles are out and which numbered requests they answered. Deciding on a resource and handing over
messages leave the books alone.
-/

namespace LockManager
namespace Namespace

/-- The index, and of each resource its key and the count of references to it. -/
structure Catalog where
  index : Index Key ResourceId
  refs : ResourceId → Nat
  key : ResourceId → Key

def catalog (ns : Namespace) : Catalog :=
  { index := ns.index
    refs := fun r => (ns.resource r).refs
    key := fun r => (ns.resource r).key }

/-- The catalog, the handles that are out, and what numbered requests have been answered with. -/
structure Books where
  catalog : Catalog
  handles : HandleTable LockId
  replays : Index (Owner × UInt64) Handle

def books (ns : Namespace) : Books :=
  { catalog := ns.catalog, handles := ns.handles, replays := ns.replays }

variable {ns ns' : Namespace}

theorem catalog_of_books (same : ns'.books = ns.books) : ns'.catalog = ns.catalog :=
  congrArg Books.catalog same

theorem index_of_books (same : ns'.books = ns.books) : ns'.index = ns.index :=
  congrArg Catalog.index (catalog_of_books same)

theorem handles_of_books (same : ns'.books = ns.books) : ns'.handles = ns.handles :=
  congrArg Books.handles same

theorem replays_of_books (same : ns'.books = ns.books) : ns'.replays = ns.replays :=
  congrArg Books.replays same

/-! ### What leaves the books alone -/

section

variable (ns : Namespace)

theorem books_foldl {β : Type} {f : Namespace → β → Namespace}
    (keeps : ∀ ns x, (f ns x).books = ns.books) (xs : List β) (ns : Namespace) :
    (xs.foldl f ns).books = ns.books := by
  induction xs generalizing ns with
  | nil => rfl
  | cons x xs ih => rw [List.foldl_cons, ih, keeps]

theorem books_schedule (l : LockId) : (ns.schedule l).books = ns.books := by
  unfold schedule
  dsimp only
  split
  · rfl
  · split <;> rfl

theorem books_drain (l : LockId) : (ns.drain l).books = ns.books := by
  unfold drain
  dsimp only
  split <;> rfl

theorem books_takeUp {ns ns' : Namespace} (taken : ns.takeUp? = some ns') :
    ns'.books = ns.books := by
  obtain ⟨-, l, rest, -, rfl⟩ := takeUp?_eq taken
  rw [books_drain]
  rfl

theorem books_finish (d : Delivery) : (ns.finish d).books = ns.books := by
  unfold finish
  rw [books_drain]
  rfl

theorem books_closeDispatcher : ns.closeDispatcher.books = ns.books :=
  books_foldl (f := abandon) (fun _ _ => rfl) ns.dispatcher.queue ns

theorem books_silence (ls : List LockId) : (ns.silence ls).books = ns.books :=
  books_foldl (f := fun ns l => ns.modifyLock l Lock.suppress) (fun _ _ => rfl) ls ns

theorem books_checkTimeouts : ns.checkTimeouts.2.books = ns.books :=
  ns.checkTimeouts_induction (P := (·.books = ns.books)) rfl fun _ _ same => same

/-- Deciding on a resource concerns its queues alone. -/
theorem books_conclude (r : ResourceId) (a : Arbiter) :
    (ns.conclude r a).books = ns.books := by
  have each : ∀ q, ((ns.resources.modify r ({ · with queues := a.queues })).get q).refs =
        (ns.resource q).refs ∧
      ((ns.resources.modify r ({ · with queues := a.queues })).get q).key =
        (ns.resource q).key := by
    intro q
    rw [Arena.get_modify]
    split <;> exact ⟨rfl, rfl⟩
  unfold conclude dispatch
  rw [books_foldl books_schedule]
  simp only [books, catalog, resource, each]

theorem books_submit {l : LockId} {r : ResourceId} {reply : Reply} {ns' : Namespace}
    (done : ns.submit l r = .ok (reply, ns')) : ns'.books = ns.books := by
  rcases submit_ok done with rfl | ⟨-, rfl⟩
  · rfl
  · exact ns.books_conclude _ _

theorem books_changeMode {l : LockId} {mode : Mode} {r : ResourceId} {status : ConvertStatus}
    {ns' : Namespace} (done : ns.changeMode l mode r = .ok (status, ns')) :
    ns'.books = ns.books := by
  rcases changeMode_ok done with rfl | ⟨-, ⟨-, rfl⟩ | ⟨-, a, -, rfl⟩⟩
  · rfl
  · exact ns.books_conclude _ _
  · exact ns.books_conclude _ _

theorem catalog_dropReplay (claim : Claim) : (ns.dropReplay claim).catalog = ns.catalog := by
  unfold dropReplay
  split
  · split <;> rfl
  · rfl

theorem catalog_leave (l : LockId) (r : ResourceId) : (ns.leave l r).catalog = ns.catalog := by
  unfold Namespace.leave
  dsimp only
  generalize Arbiter.modifyLock _ l _ = a
  rw [← catalog_of_books (ns.books_conclude r a.reprocess)]
  generalize ns.conclude r a.reprocess = ns'
  exact ns'.catalog_dropReplay (ns'.lock l).claim

theorem books_move (l : LockId) (target : ResourceId) :
    (ns.move l target).2.2.books = ns.books := by
  unfold Namespace.move
  dsimp only
  split <;> rfl

end

/-! ### Leaving -/

theorem handles_dropReplay (ns : Namespace) (claim : Claim) :
    (ns.dropReplay claim).handles = ns.handles := by
  unfold dropReplay
  split
  · split <;> rfl
  · rfl

theorem replays_dropReplay (same : ns'.replays = ns.replays) (claim : Claim) :
    (ns'.dropReplay claim).replays = (ns.dropReplay claim).replays := by
  unfold dropReplay
  rw [same]
  split
  · split
    · rfl
    · exact same
  · exact same

/-- A lock that leaves gives its handle back and answers no more copies of its request. -/
theorem Sound.books_leave (sound : ns.Sound) {l : LockId} {r : ResourceId}
    (known : l < ns.locks.size) (bound : (ns.lock l).resource = r)
    (canceling : (ns.lock l).state = .canceling) :
    (ns.leave l r).handles = ns.handles.remove (ns.lock l).handle ∧
      (ns.leave l r).replays = (ns.dropReplay (ns.lock l).claim).replays := by
  subst bound
  have departing := ledger_departing known rfl canceling
  unfold Namespace.leave
  dsimp only at departing ⊢
  generalize Arbiter.modifyLock _ l _ = a at departing ⊢
  have claim : ((ns.conclude (ns.lock l).resource a.reprocess).lock l).claim =
      (ns.lock l).claim := by
    obtain ⟨awards, -⟩ := Arbiter.reprocess_settles ns.ledger.queues
      (departing ▸ sound.ledger.coherent.leave known)
    rw [departing] at awards
    have keeps := Ledger.Keeps.grants awards.grants
    have taken := ns.becomes_conclude (sound.placed l known) keeps.config rfl
    rw [← Lock.outline_claim, taken.lock]
    exact keeps.left_of_leave.1
  have same := ns.books_conclude (ns.lock l).resource a.reprocess
  generalize ns.conclude (ns.lock l).resource a.reprocess = ns' at claim same ⊢
  rw [claim]
  rw [handles_dropReplay, handles_of_books same]
  exact ⟨rfl, replays_dropReplay (replays_of_books same) _⟩

end Namespace
end LockManager
