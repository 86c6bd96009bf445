import Kboard.Sync.Solution1Properties
import Kboard.Sync.Solution2Properties

/-! What an operation takes of the synchronization state it gives back, possibly
through another thread: with nobody between an Enter and its Leave, the first
two solutions stand as `InitializeSyncSolution` set them up. -/

set_option autoImplicit false

namespace Kboard.Sync

open Concurrency
open Procfs (steps)

variable {B : Operations} {ι : Type} [Fintype ι] [DecidableEq ι] {data : B.Data}

/-! ## SYNC_SOLUTION 1 -/

namespace Solution1

variable {config : Config ι (Shared solution1 B) (Phase solution1 B)}

private theorem view_of_outside {phase : Phase solution1 B} (outside : phase.Outside) :
    view phase = .outside := by
  cases phase with
  | idle | enterWriter => rfl
  | enterReader call point => cases outside; rfl
  | criticalWriter | leaveWriter | criticalReader | leaveReader => exact absurd outside id

theorem sync_restored
    (reachable : Reachable (program solution1 B) (initial solution1 data) config)
    (outside : ∀ thread, (config.thread thread).Outside) :
    config.shared.sync = initializeSyncSolution := by
  have restored : share config.shared = Lightswitch.Shared.initial :=
    (lightswitch_invariant reachable).restored fun thread => view_of_outside (outside thread)
  cases stored : config.shared.sync with
  | mk semaphoreMutex semaphoreWriter readerCount =>
      simp only [share, stored, Lightswitch.Shared.initial,
        Lightswitch.Shared.mk.injEq] at restored
      obtain ⟨mutex, writer, count⟩ := restored
      rw [mutex, writer, count]
      rfl

end Solution1

/-! ## SYNC_SOLUTION 2 -/

namespace Solution2

variable {config : Config ι (Shared solution2 B) (Phase solution2 B)}

private theorem stages_of_outside {phase : Phase solution2 B} (outside : phase.Outside) :
    readerStage phase = .outside ∧ gateStage phase = .outside := by
  cases phase with
  | idle => exact ⟨rfl, rfl⟩
  | enterWriter call point | enterReader call point => cases outside; exact ⟨rfl, rfl⟩
  | criticalWriter | leaveWriter | criticalReader | leaveReader => exact absurd outside id

theorem sync_restored
    (reachable : Reachable (program solution2 B) (initial solution2 data) config)
    (outside : ∀ thread, (config.thread thread).Outside) :
    config.shared.sync = initializeSyncSolution := by
  have readers : readerSwitch config.shared = Lightswitch.Shared.initial :=
    (readerSwitch_invariant reachable).restored
      fun thread => (stages_of_outside (outside thread)).1
  have gate : gateSwitch config.shared = Lightswitch.Shared.initial :=
    (gateSwitch_invariant reachable).restored fun thread => (stages_of_outside (outside thread)).2
  cases stored : config.shared.sync with
  | mk semaphoreWriterMutex semaphoreReaderMutex semaphoreWriter semaphoreReader writerCount
      readerCount =>
      simp only [readerSwitch, gateSwitch, stored, Lightswitch.Shared.initial,
        Lightswitch.Shared.mk.injEq] at readers gate
      obtain ⟨readerMutex, writer, readerCounted⟩ := readers
      obtain ⟨writerMutex, reader, writerCounted⟩ := gate
      rw [readerMutex, writer, readerCounted, writerMutex, reader, writerCounted]
      rfl

end Solution2

/-- With no thread between the first step of an Enter and the last of its
Leave, all semaphores and counters are as initialised; at any time no semaphore
exceeds 1. -/
theorem sync_state_restored (data : B.Data) :
    (∀ config : Config ι _ _,
      Reachable (program Solution1.solution1 B) (initial Solution1.solution1 data) config →
      ((∀ thread, (config.thread thread).Outside) →
        config.shared.sync = Solution1.initializeSyncSolution) ∧
      config.shared.sync.semaphoreMutex ≤ 1 ∧ config.shared.sync.semaphoreWriter ≤ 1) ∧
    ∀ config : Config ι _ _,
      Reachable (program Solution2.solution2 B) (initial Solution2.solution2 data) config →
      ((∀ thread, (config.thread thread).Outside) →
        config.shared.sync = Solution2.initializeSyncSolution) ∧
      config.shared.sync.semaphoreWriterMutex ≤ 1 ∧
      config.shared.sync.semaphoreReaderMutex ≤ 1 ∧
      config.shared.sync.semaphoreWriter ≤ 1 ∧ config.shared.sync.semaphoreReader ≤ 1 := by
  constructor
  · intro config reachable
    have valid := Solution1.lightswitch_invariant reachable
    exact ⟨Solution1.sync_restored reachable, valid.value_le_one, valid.room_le_one⟩
  · intro config reachable
    have readers := Solution2.readerSwitch_invariant reachable
    have gate := Solution2.gateSwitch_invariant reachable
    exact ⟨Solution2.sync_restored reachable, gate.value_le_one, readers.value_le_one,
      readers.room_le_one, gate.room_le_one⟩

/-- A read of `/proc/kboard/writer` that finds the ring empty, then a read of
`/proc/kboard/reader`. -/
def emptySchedule (writer reader : Nat) : List (Thread × Action Procfs.kboardOperations) :=
  (.t0, .callWriter .read) :: steps .t0 writer ++ (.t1, .callReader 2) :: steps .t1 reader

def emptyRun (S : SyncSolution) (writer reader : Nat) :
    Option (Config Thread (Shared S Procfs.kboardOperations) (Phase S Procfs.kboardOperations)) :=
  execute step (fun _ _ => True) (initial S (Procfs.initializeKboard Procfs.Board.zero))
    (emptySchedule writer reader)

theorem sync_state_restored_empty :
    ((emptyRun Solution1.solution1 5 15).get rfl).shared.sync =
        Solution1.initializeSyncSolution ∧
      ((emptyRun Solution2.solution2 17 17).get rfl).shared.sync =
        Solution2.initializeSyncSolution := by
  have restored := sync_state_restored (ι := Thread) (B := Procfs.kboardOperations)
    (Procfs.initializeKboard Procfs.Board.zero)
  constructor
  · refine (restored.1 _ (reachable_get _)).1 ?_
    intro thread
    cases thread <;> trivial
  · refine (restored.2 _ (reachable_get _)).1 ?_
    intro thread
    cases thread <;> trivial

end Kboard.Sync
