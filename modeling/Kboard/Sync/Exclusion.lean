import Kboard.Sync.Solution1Properties
import Kboard.Sync.Solution2Properties
import Kboard.Sync.Solution3Grants

/-!
# What a solution is for

A writer alone in its critical section, or readers among themselves. Two of the
solutions keep to this in every run, the third in the runs in which no reader
on its way in is overlooked. What the operations may rely on is the same for
all of them, whatever they do to get there.
-/

set_option autoImplicit false

namespace Kboard.Sync

open Concurrency

section

variable {S : SyncSolution} {B : Operations}

/-- The body of a writer operation is running. -/
def writing : Phase S B → Bool
  | .criticalWriter _ _ => true
  | _ => false

def reading : Phase S B → Bool
  | .criticalReader _ _ => true
  | _ => false

structure Exclusive {ι : Type} (config : Config ι (Shared S B) (Phase S B)) : Prop where
  writers : ∀ {i j}, writing (config.thread i) → writing (config.thread j) → j = i
  readers : ∀ {i j}, writing (config.thread i) → ¬ reading (config.thread j)

end

/-- A solution that keeps writers alone in every run. -/
structure ReadersWriters extends SyncSolution where
  exclusive : ∀ {ι : Type} [Fintype ι] [DecidableEq ι] {B : Operations} {data : B.Data}
    {config : Config ι (Shared toSyncSolution B) (Phase toSyncSolution B)},
    Reachable (program toSyncSolution B) (initial toSyncSolution data) config → Exclusive config

variable {ι : Type} [Fintype ι] [DecidableEq ι] {B : Operations} {data : B.Data}

namespace Solution1

private theorem writerInside_of_writing {phase : Phase solution1 B} (inside : writing phase) :
    writerInside phase := by
  cases phase with
  | criticalWriter => rfl
  | idle | enterWriter | leaveWriter | enterReader | criticalReader | leaveReader => cases inside

private theorem readerInside_of_reading {phase : Phase solution1 B} (inside : reading phase) :
    readerInside phase := by
  cases phase with
  | criticalReader => rfl
  | idle | enterWriter | criticalWriter | leaveWriter | enterReader | leaveReader => cases inside

theorem exclusive_of_reachable {config : Config ι (Shared solution1 B) (Phase solution1 B)}
    (reachable : Reachable (program solution1 B) (initial solution1 data) config) :
    Exclusive config where
  writers inside other :=
    writerInside_unique reachable (writerInside_of_writing inside) (writerInside_of_writing other)
  readers inside reader :=
    writerInside_excludes_readerInside reachable (writerInside_of_writing inside)
      (readerInside_of_reading reader)

end Solution1

namespace Solution2

private theorem readerStage_of_writing {phase : Phase solution2 B} (inside : writing phase) :
    readerStage phase = .occupying := by
  cases phase with
  | criticalWriter => rfl
  | idle | enterWriter | leaveWriter | enterReader | criticalReader | leaveReader => cases inside

private theorem readerStage_of_reading {phase : Phase solution2 B} (inside : reading phase) :
    readerStage phase = .inside := by
  cases phase with
  | criticalReader => rfl
  | idle | enterWriter | criticalWriter | leaveWriter | enterReader | leaveReader => cases inside

theorem exclusive_of_reachable {config : Config ι (Shared solution2 B) (Phase solution2 B)}
    (reachable : Reachable (program solution2 B) (initial solution2 data) config) :
    Exclusive config where
  writers inside other :=
    (readerSwitch_invariant reachable).occupying_unique (readerStage_of_writing other)
      (readerStage_of_writing inside)
  readers {i j} inside reader := by
    have none : (readerStage (config.thread j)).settled = 0 :=
      (readerSwitch_invariant reachable).not_settled (readerStage_of_writing inside)
    rw [readerStage_of_reading reader] at none
    cases none

end Solution2

namespace Solution3

end Solution3

abbrev ReadersWriters.solution1 : ReadersWriters where
  toSyncSolution := Solution1.solution1
  exclusive := Solution1.exclusive_of_reachable

abbrev ReadersWriters.solution2 : ReadersWriters where
  toSyncSolution := Solution2.solution2
  exclusive := Solution2.exclusive_of_reachable

end Kboard.Sync
