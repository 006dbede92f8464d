import LockManager.Proofs.Alone
import LockManager.Proofs.Namespace.Asked

set_option autoImplicit false

/-!
Whether those who stand in the way of others have been asked to give way. Whoever waits asks the holders
that it finds, and whenever a resource is looked at again everyone is asked; only a lock that is granted
as it comes, past somebody who waits already, is not.
-/

namespace LockManager

open Namespace (Minding Undecided)

namespace System

variable {config : Config} {s t : System} {r : ResourceId} {w g : Entry}

theorem Sound.minding (sound : s.Sound) (step : Step s t) : Minding s.space t.space := by
  cases step with
  | start op => exact (Task.opening_start s.space op).minding
  | hold found => exact (Undecided.refl s.space).minding
  | take i taken =>
    obtain ⟨p, -, -, rfl⟩ := take?_eq taken
    exact (Undecided.refl s.space).minding
  | carryOut i done =>
    obtain ⟨stage, rest, q, todo, prepared, space, -⟩ := Sound.carryOut_cases done
    rw [space]
    exact (sound.ready todo prepared).minding sound.space
  | takeUp taken => exact (Namespace.undecided_takeUp taken).minding
  | finish busy => exact (Namespace.undecided_finish _ _).minding
  | checkTimeouts => exact (Namespace.undecided_checkTimeouts _).minding
  | pass duration => exact (Undecided.of_same rfl rfl).minding

/-- The lock of `g` was granted as it came to `r`, while `w` was there already, and since then nobody
has left `r` and no conversion there has been completed. -/
inductive Unasked (config : Config) (r : ResourceId) (w g : Entry) : System → Prop where
  | passed {s t : System} (reachable : Reachable config s) (step : Step s t)
      (wants : (s.queues r).Wants w) (new : (s.space.lock g.claim.id).state = .new)
      (granted : g ∈ (t.queues r).granted) : Unasked config r w g t
  | later {s t : System} (before : Unasked config r w g s) (step : Step s t)
      (kept : (s.queues r).entries ⊆ (t.queues r).entries) : Unasked config r w g t

/-- Whoever stands in the way of somebody who stays has been asked to give way, if it can be, or was
granted past the other. -/
theorem Reachable.heeded (reachable : Reachable config s) (wants : (s.queues r).Wants w)
    (holds : g ∈ (s.queues r).granted) (against : g.opposes w.claim w.mode = true) :
    Heeded s.space.lock w g ∨ Unasked config r w g s := by
  induction reachable using Reachable.induction with
  | create created =>
    obtain ⟨-, rfl⟩ := Namespace.create_eq_ok.mp created
    exact absurd holds List.not_mem_nil
  | step before last ih =>
    rcases before.sound.minding last r w g wants holds against with heeded |
      ⟨wanted, held, heeds, kept⟩ | ⟨wanted, new⟩
    · exact .inl heeded
    · rcases ih wanted held with heeded | unasked
      · exact .inl (heeds heeded)
      · exact .inr (.later unasked last kept)
    · exact .inr (.passed before last wanted new holds)

/-- With no operation in progress, every holder that stands in the way of somebody has been asked to
give way since it was last granted something, but one that was granted past the other as it came. -/
theorem holder_asked (reachable : Reachable config s) (quiet : s.quiet = true)
    (wants : w ∈ (s.queues r).converting ∨ w ∈ (s.queues r).waiting)
    (holds : g ∈ (s.queues r).granted) (against : g.opposes w.claim w.mode = true) :
    (s.space.lock g.claim.id).blockingSent = true ∨ Unasked config r w g s := by
  have stays {e : Entry} (inside : e ∈ (s.queues r).entries) :=
    reachable.sound.stays quiet inside
  have placed : g ∈ (s.queues r).entries := Queues.mem_entries.mpr (.inl (.inl holds))
  refine (reachable.heeded wants holds against).imp_left fun heeded => ?_
  rcases heeded with leaving | sent | suppressed | leaving
  · rw [stays (Queues.mem_entries.mpr (wants.imp .inr id))] at leaving
    cases leaving
  · exact sent
  · have alive := (reachable.sound.space.alive_of_mem placed).1
    rw [(reachable.calm quiet).heard _ alive] at suppressed
    cases suppressed
  · rw [stays placed] at leaving
    cases leaving

/-- A reader holds the resource and a writer waits for it. -/
def writerKeptWaiting : System :=
  (fresh {}).follow
    (Move.through (.enqueue { key := ⟨1, 0⟩, mode := .protectedRead, owner := ⟨"a"⟩ }) 0 ++
      Move.through (.enqueue { key := ⟨1, 0⟩, mode := .exclusive, owner := ⟨"b"⟩ }) 1)

/-- Somebody who reads beside writers has come, and was granted past the writer. -/
def writerPassed : System :=
  writerKeptWaiting.follow
    (Move.through (.enqueue { key := ⟨1, 0⟩, mode := .concurrentRead, owner := ⟨"c"⟩ }) 2)

theorem reachable_writerPassed : Reachable {} writerPassed :=
  Reachable.reaches (reachable_follow rfl _) (writerKeptWaiting.reaches_follow _)

/-- The reader has been asked to give way. The newcomer has not, as it was granted past the writer. -/
theorem holder_asked_reader :
    ∃ w ∈ (writerPassed.queues 0).waiting,
      (∃ g ∈ (writerPassed.queues 0).granted, g.opposes w.claim w.mode = true ∧
        (writerPassed.space.lock g.claim.id).blockingSent = true) ∧
      ∃ g ∈ (writerPassed.queues 0).granted, g.opposes w.claim w.mode = true ∧
        Unasked {} 0 w g writerPassed := by
  obtain ⟨w, waits, asked, g, holds, against, unsent⟩ :
      ∃ w ∈ (writerPassed.queues 0).waiting,
        (∃ g ∈ (writerPassed.queues 0).granted, g.opposes w.claim w.mode = true ∧
          (writerPassed.space.lock g.claim.id).blockingSent = true) ∧
        ∃ g ∈ (writerPassed.queues 0).granted, g.opposes w.claim w.mode = true ∧
          (writerPassed.space.lock g.claim.id).blockingSent = false := by
    decide +kernel
  have passed := (holder_asked reachable_writerPassed (by decide +kernel) (.inr waits) holds
    against).resolve_left (by simp [unsent])
  exact ⟨w, waits, asked, g, holds, against, passed⟩

/-- Once everything is at rest, the newcomer stands in the way of the writer and has not been asked. -/
theorem newcomer_not_asked :
    Reachable {} writerPassed ∧ writerPassed.quiet = true ∧
      ∃ w ∈ (writerPassed.queues 0).waiting, ∃ g ∈ (writerPassed.queues 0).granted,
        g.opposes w.claim w.mode = true ∧
          (writerPassed.space.lock g.claim.id).blockingSent = false :=
  ⟨reachable_writerPassed, by decide +kernel, by decide +kernel⟩

end System
end LockManager
