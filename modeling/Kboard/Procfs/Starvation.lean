import Kboard.Procfs.Serialization

/-!
# Who may wait forever

Readers that follow each other closely enough keep every writer out under
`SYNC_SOLUTION 1`, and writers keep every reader out under `SYNC_SOLUTION 2`.
The one who waits could not take a step at any moment, so no fairness of the
scheduler is of any help. Each round of the others leads back to where it began.
-/

set_option autoImplicit false

namespace Kboard.Procfs.Starvation

open Concurrency Sync

/-- The thread is in an operation and has to wait. -/
def waits {S : SyncSolution} {B : Operations} (s : Shared S B) : Phase S B → Bool
  | .idle => false
  | phase => !ready s phase

private theorem not_enabled_of_waits {S : SyncSolution} {B : Operations} {ι : Type}
    {config : Config ι (Shared S B) (Phase S B)} {thread : ι}
    (waiting : waits config.shared (config.thread thread)) :
    ¬ config.Enabled (program S B) thread := by
  rintro ⟨shared, target, action, taken⟩
  generalize config.thread thread = phase at waiting taken
  cases phase with
  | idle => cases waiting
  | enterWriter | criticalWriter | leaveWriter | enterReader | criticalReader | leaveReader =>
      cases action with
      | advance => simp [waits, ready, taken] at waiting
      | callWriter call | callReader call => cases taken

abbrev Waiting {S : SyncSolution}
    (config : Config Thread (Shared S kboardOperations) (Phase S kboardOperations))
    (_ : Move Thread (Phase S kboardOperations)) : Prop :=
  waits config.shared (config.thread .t2)

/-- Steps that are taken while thread 2 has to wait. -/
abbrev Starving {S : SyncSolution}
    (config : Config Thread (Shared S kboardOperations) (Phase S kboardOperations))
    (_ : Move Thread (Phase S kboardOperations)) : Prop :=
  ¬ config.Enabled (program S kboardOperations) .t2

/-! ## Writers under SYNC_SOLUTION 1 -/

section

open Solution1

/-- Thread 0 is reading and thread 2 waits to write. -/
def readerInside (k : Board) :
    Config Thread (Shared solution1 kboardOperations) (Phase solution1 kboardOperations) where
  shared := ⟨{ semaphoreMutex := 1, semaphoreWriter := 0, readerCount := 1 }, k⟩
  thread
    | .t0 => .criticalReader 0 (readerStart 0)
    | .t1 | .t3 => .idle
    | .t2 => .enterWriter (.write 7 2) .downWriter

/-- Thread 1 comes in before thread 0 leaves, and the other way round. -/
def readersSchedule : List (Thread × Action kboardOperations) :=
  (.t1, .callReader 0) :: steps .t1 5 ++ steps .t0 8 ++ (.t0, .callReader 0) :: steps .t0 5 ++
    steps .t1 8

theorem readers_round (k : Board) :
    ∃ moves k', Run (program solution1 kboardOperations) Starving (readerInside k) moves
        (readerInside k') ∧
      ∀ thread ∈ [Thread.t0, .t1], (returns (ofThread thread moves)).length = 1 := by
  let counted : Board := { k with performReader := k.performReader + 1 + 1 }
  have done : (execute step Waiting (readerInside k) readersSchedule).isSome := rfl
  have same : (execute step Waiting (readerInside k) readersSchedule).get done =
      readerInside counted := Config.eq_of_threads rfl rfl rfl rfl rfl
  refine ⟨_, counted, (run_of_done done same).mono fun _ _ => not_enabled_of_waits, ?_⟩
  intro thread member
  rcases List.mem_pair.mp member with rfl | rfl <;> rfl

def firstReaderSchedule : List (Thread × Action kboardOperations) :=
  (.t0, .callReader 0) :: steps .t0 6 ++ [(.t2, .callWriter (.write 7 2))]

theorem reachable_readerInside (k : Board) :
    Reachable (program solution1 kboardOperations) (initial solution1 k) (readerInside k) := by
  have done : (execute step (fun _ _ => True) (initial (B := kboardOperations) solution1 k)
      firstReaderSchedule).isSome := rfl
  have same : (execute step (fun _ _ => True) (initial (B := kboardOperations) solution1 k)
      firstReaderSchedule).get done = readerInside k := Config.eq_of_threads rfl rfl rfl rfl rfl
  rw [← same]
  exact reachable_get done

/-- However many operations two readers complete, a writer may be kept waiting at
`down(&SemaphoreWriter)` all the while. -/
theorem solution1_starves_writers (k : Board) (n : Nat) :
    ∃ (config : Config Thread _ _) (moves : _) (final : Config Thread _ _),
      Reachable (program solution1 kboardOperations) (initial solution1 (initializeKboard k))
        config ∧
      config.thread .t2 = .enterWriter (.write 7 2) .downWriter ∧
      Run (program solution1 kboardOperations) Starving config moves final ∧
      ∀ reader ∈ [Thread.t0, .t1], (returns (ofThread reader moves)).length = n := by
  obtain ⟨moves, last, run, completed⟩ := Run.rounds readers_round n (initializeKboard k)
  exact ⟨_, moves, _, reachable_readerInside _, rfl, run, completed⟩

end

/-! ## Readers under SYNC_SOLUTION 2 -/

section

open Solution2

/-- Thread 0 is about to copy and thread 2 waits to read. -/
def writerInside (k : Board) :
    Config Thread (Shared solution2 kboardOperations) (Phase solution2 kboardOperations) where
  shared := ⟨{
    semaphoreWriterMutex := 1
    semaphoreReaderMutex := 1
    semaphoreWriter := 0
    semaphoreReader := 0
    writerCount := 1
    readerCount := 0 }, { k with ringBufferCount := 0 }⟩
  thread
    | .t0 => .criticalWriter (.write 7 2) (writerStart (.write 7 2))
    | .t1 | .t3 => .idle
    | .t2 => .enterReader 0 .downReader

/-- Thread 1 waits to paste before thread 0 leaves, and thread 0 waits to copy
again before thread 1 leaves. -/
def writersSchedule : List (Thread × Action kboardOperations) :=
  (.t1, .callWriter .read) :: steps .t1 5 ++ steps .t0 14 ++
    (.t0, .callWriter (.write 7 2)) :: steps .t0 5 ++ steps .t1 18 ++ steps .t0 1

/-- 7 has gone through the slot at the current index. -/
def copiedAndPasted (k : Board) : Board where
  ringBuffer := Function.update
    (Function.update k.ringBuffer ((k.ringBufferCurrentIndex + 0).tmod ringBufferSize) (7 : Nat))
    k.ringBufferCurrentIndex ringBufferInitValue
  ringBufferCount := 0
  ringBufferCurrentIndex := (k.ringBufferCurrentIndex + 1).tmod ringBufferSize
  performWriter := k.performWriter + 1 + 1
  performReader := k.performReader

theorem writers_round (k : Board) :
    ∃ moves k', Run (program solution2 kboardOperations) Starving (writerInside k) moves
        (writerInside k') ∧
      ∀ thread ∈ [Thread.t0, .t1], (returns (ofThread thread moves)).length = 1 := by
  have done : (execute step Waiting (writerInside k) writersSchedule).isSome := rfl
  have same : (execute step Waiting (writerInside k) writersSchedule).get done =
      writerInside (copiedAndPasted k) := Config.eq_of_threads rfl rfl rfl rfl rfl
  refine ⟨_, _, (run_of_done done same).mono fun _ _ => not_enabled_of_waits, ?_⟩
  intro thread member
  rcases List.mem_pair.mp member with rfl | rfl <;> rfl

def firstWriterSchedule : List (Thread × Action kboardOperations) :=
  (.t0, .callWriter (.write 7 2)) :: steps .t0 7 ++ [(.t2, .callReader 0)]

theorem reachable_writerInside (k : Board) :
    Reachable (program solution2 kboardOperations)
      (initial solution2 { k with ringBufferCount := 0 }) (writerInside k) := by
  let start : Board := { k with ringBufferCount := 0 }
  have done : (execute step (fun _ _ => True) (initial (B := kboardOperations) solution2 start)
      firstWriterSchedule).isSome := rfl
  have same : (execute step (fun _ _ => True) (initial (B := kboardOperations) solution2 start)
      firstWriterSchedule).get done = writerInside k := Config.eq_of_threads rfl rfl rfl rfl rfl
  rw [← same]
  exact reachable_get done

/-- However many operations two writers complete, a reader may be kept waiting at
`down(&SemaphoreReader)` all the while. -/
theorem solution2_starves_readers (k : Board) (n : Nat) :
    ∃ (config : Config Thread _ _) (moves : _) (final : Config Thread _ _),
      Reachable (program solution2 kboardOperations) (initial solution2 (initializeKboard k))
        config ∧
      config.thread .t2 = .enterReader 0 .downReader ∧
      Run (program solution2 kboardOperations) Starving config moves final ∧
      ∀ writer ∈ [Thread.t0, .t1], (returns (ofThread writer moves)).length = n := by
  obtain ⟨moves, last, run, completed⟩ := Run.rounds writers_round n (initializeKboard k)
  exact ⟨_, moves, _, reachable_writerInside (initializeKboard k), rfl, run, completed⟩

end

end Kboard.Procfs.Starvation
