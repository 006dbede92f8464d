import LockManager.Proofs.System

set_option autoImplicit false

/-!
Schedules: which operation begins and which task goes on, move by move. What cannot be done at its
turn is passed by, so every schedule is a run.
-/

namespace LockManager
namespace System

inductive Move where
  | start (op : Operation)
  | take (i : TaskId)
  | carryOut (i : TaskId)

def move (s : System) : Move → System
  | .start op => s.start op
  | .take i => (s.take? i).getD s
  | .carryOut i => (s.carryOut? i).getD s

def follow (s : System) (moves : List Move) : System := moves.foldl move s

theorem reaches_move (s : System) (m : Move) : s.Reaches (s.move m) := by
  cases m with
  | start op => exact .single (.start s op)
  | take i =>
    simp only [move]
    cases taken : s.take? i with
    | none => exact .refl
    | some t => exact .single (.take i taken)
  | carryOut i =>
    simp only [move]
    cases done : s.carryOut? i with
    | none => exact .refl
    | some t => exact .single (.carryOut i done)

theorem reaches_follow (s : System) (moves : List Move) : s.Reaches (s.follow moves) := by
  unfold follow
  induction moves generalizing s with
  | nil => exact .refl
  | cons m moves ih => exact (s.reaches_move m).trans (ih (s.move m))

/-- Nothing has happened yet. -/
def fresh (config : Config) : System := { space := { config } }

theorem reachable_follow {config : Config} (usable : config.fault? = none) (moves : List Move) :
    Reachable config ((fresh config).follow moves) :=
  ⟨{ config }, Namespace.create_eq_ok.mpr ⟨usable, rfl⟩, reaches_follow _ moves⟩

/-- The moves of task `i` when all it has to do needs the queues of one lock's resource. -/
def Move.through (op : Operation) (i : TaskId) : List Move :=
  [.start op, .take i, .take i, .carryOut i]

theorem reaches_through (s : System) (op : Operation) (i : TaskId) :
    Reaches (s.start op) (s.follow (Move.through op i)) :=
  reaches_follow (s.start op) [.take i, .take i, .carryOut i]

end System
end LockManager
