import LockManager.Proofs.References

set_option autoImplicit false

/-!
The index of the resources. A key is stored when a resource is made under it, and none is stored twice, so
whatever is in the index is found under its key.
-/

namespace LockManager

namespace Namespace

variable {ns : Namespace}

theorem distinct_findOrCreate (distinct : ns.index.Distinct) (k : Key) :
    (ns.findOrCreate k).2.index.Distinct := by
  unfold findOrCreate
  split
  · exact distinct
  · exact distinct.insert k _

theorem distinct_reclaim (distinct : ns.index.Distinct) (r : ResourceId) :
    (ns.reclaim r).index.Distinct := by
  unfold reclaim
  dsimp only
  split
  · exact distinct.erase _
  · exact distinct

end Namespace

theorem Stage.distinct_carryOut {ns : Namespace} (distinct : ns.index.Distinct) (r : ResourceId)
    (stage : Stage) : (stage.carryOut ns r).space.index.Distinct := by
  have same : (stage.carryOut ns r).space.index = (stage.clears ns r).index :=
    congrArg Namespace.Catalog.index (catalog_carryOut stage)
  rw [same]
  cases stage with
  | reclaim q => exact Namespace.distinct_reclaim distinct q
  | _ => exact distinct

theorem Opening.distinct {ns ns' : Namespace} {todo : List Stage} (opening : Opening ns todo ns')
    (distinct : ns.index.Distinct) : ns'.index.Distinct := by
  cases opening with
  | still _ => exact distinct
  | @register req _ _ _ _ _ => exact Namespace.distinct_findOrCreate distinct req.key
  | @rebind _ k _ _ => exact Namespace.distinct_findOrCreate distinct k
  | glimpse _ _ => exact distinct
  | evict owner => exact (Namespace.index_of_books (ns.books_silence _)).symm ▸ distinct
  | shutdown _ => exact (Namespace.index_of_books (ns.books_silence _)).symm ▸ distinct

namespace System

variable {s t : System}

theorem Step.distinct (step : Step s t) (distinct : s.space.index.Distinct) :
    t.space.index.Distinct := by
  cases step with
  | start op => exact (Task.opening_start s.space op).distinct distinct
  | hold _ => exact distinct
  | take i taken =>
    obtain ⟨p, -, -, rfl⟩ := take?_eq taken
    exact distinct
  | carryOut i done =>
    obtain ⟨stage, -, q, -, -, space, -⟩ := Sound.carryOut_cases done
    exact space ▸ stage.distinct_carryOut distinct q
  | takeUp taken => exact (Namespace.index_of_books (Namespace.books_takeUp taken)).symm ▸ distinct
  | finish _ => exact (Namespace.index_of_books (Namespace.books_finish _ _)).symm ▸ distinct
  | checkTimeouts =>
    exact (Namespace.index_of_books (Namespace.books_checkTimeouts _)).symm ▸ distinct
  | pass duration => exact distinct

theorem Reachable.distinct {config : Config} (reachable : Reachable config s) :
    s.space.index.Distinct := by
  induction reachable using Reachable.induction with
  | create created =>
    obtain ⟨-, rfl⟩ := Namespace.create_eq_ok.mp created
    exact List.nodup_nil
  | step _ last ih => exact last.distinct ih

end System
end LockManager
