import LockManager.System

set_option autoImplicit false

/-!
Everything that can happen to a system, one step at a time and in any order: operations begin, take
what they need and go on; messages are handed over and answered for; time passes.
-/

namespace LockManager
namespace System

inductive Step : System → System → Prop where
  | start (s : System) (op : Operation) : Step s (s.start op)
  /-- Someone begins to take the queues of a live lock's resource. -/
  | hold {s : System} {h : Handle} {l : LockId} (found : s.space.lookup h = .ok l) :
      Step s (s.startHold l s.role)
  | take {s t : System} (i : TaskId) (taken : s.take? i = some t) : Step s t
  | carryOut {s t : System} (i : TaskId) (done : s.carryOut? i = some t) : Step s t
  | takeUp {s : System} {ns : Namespace} (taken : s.space.takeUp? = some ns) :
      Step s { s with space := ns }
  /-- The transport has answered, for better or worse. -/
  | finish {s : System} {d : Delivery} (busy : d ∈ s.space.dispatcher.deliveries) :
      Step s { s with space := s.space.finish d }
  | checkTimeouts (s : System) : Step s { s with space := s.space.checkTimeouts.2 }
  | pass (s : System) (duration : Nat) :
      Step s { s with space := { s.space with clock := s.space.clock + duration } }

/-- Some number of steps leads from one system to the other. -/
inductive Reaches (s : System) : System → Prop where
  | refl : Reaches s s
  | step {t u : System} (before : Reaches s t) (last : Step t u) : Reaches s u

theorem Reaches.trans {s t u : System} (h : Reaches s t) (h' : Reaches t u) : Reaches s u := by
  induction h' with
  | refl => exact h
  | step _ last ih => exact .step ih last

theorem Reaches.single {s t : System} (h : Step s t) : Reaches s t := .step .refl h

/-- What can come about in a namespace that was created with `config`. -/
def Reachable (config : Config) (s : System) : Prop :=
  ∃ ns, Namespace.create config = .ok ns ∧ Reaches { space := ns } s

/-- No operation is in progress. -/
def quiet (s : System) : Bool := s.taskIds.all fun i => (s.task i).finished

end System
end LockManager
