import Kboard.Concurrency.Lightswitch
import Kboard.Procfs.Operations
import Kboard.Sync.Solution1

/-! `SYNC_SOLUTION 1` is one lightswitch: the readers are its members, the
writers the single occupants of its room `SemaphoreWriter`. -/

set_option autoImplicit false

namespace Kboard.Sync.Solution1

open Concurrency
open Procfs (steps)

variable {B : Operations}

def share (s : Shared solution1 B) : Lightswitch.Shared :=
  ⟨s.sync.semaphoreMutex, s.sync.semaphoreWriter, s.sync.readerCount⟩

def view : Phase solution1 B → Lightswitch.Stage
  | .idle | .enterWriter _ _ | .enterReader _ .downMutex => .outside
  | .criticalWriter _ _ | .leaveWriter _ _ _ => .occupying
  | .enterReader _ .loadReaderCount => .enterLoad
  | .enterReader _ (.storeReaderCount loaded) => .enterStore loaded
  | .enterReader _ .testReaderCount => .enterTest
  | .enterReader _ .downWriter => .enterRoom
  | .enterReader _ .upMutex => .enterDone
  | .criticalReader _ _ | .leaveReader _ _ .downMutex => .inside
  | .leaveReader _ _ .loadReaderCount => .leaveLoad
  | .leaveReader _ _ (.storeReaderCount loaded) => .leaveStore loaded
  | .leaveReader _ _ .testReaderCount => .leaveTest
  | .leaveReader _ _ .upWriter => .leaveRoom
  | .leaveReader _ _ .upMutex => .leaveDone

private theorem view_workedWriter (call : B.WriterCall)
    (control : Control B.WriterBody B.WriterResult) :
    view (Phase.workedWriter call control : Phase solution1 B) = .occupying := by
  cases control <;> rfl

private theorem view_workedReader (call : B.ReaderCall)
    (control : Control B.ReaderBody B.ReaderResult) :
    view (Phase.workedReader call control : Phase solution1 B) = .inside := by
  cases control <;> rfl

/-- Every step of the solution is the lightswitch step of the same name, or
moves a thread within its critical section. -/
theorem simulates : Simulates (program solution1 B) Lightswitch.Step share view := by
  intro shared source shared' target stepped
  cases transition_of_program stepped with
  | callWriter | callReader => exact .inr ⟨rfl, rfl⟩
  | criticalWriter => exact .inr ⟨rfl, view_workedWriter _ _⟩
  | criticalReader => exact .inr ⟨rfl, view_workedReader _ _⟩
  | @enterWriter _ call point sync control taken =>
      cases point
      obtain ⟨semaphoreWriter, positive, same⟩ := down_map_eq_some_iff.mp taken
      cases same
      exact .inl (.occupy positive)
  | @leaveWriter _ call result point sync control taken =>
      cases point
      cases taken
      exact .inl .vacate
  | @enterReader _ call point sync control taken =>
      left
      cases point with
      | downMutex =>
          obtain ⟨semaphoreMutex, positive, same⟩ := down_map_eq_some_iff.mp taken
          cases same
          exact .lockToEnter positive
      | loadReaderCount => cases taken; exact .loadToEnter
      | storeReaderCount loaded => cases taken; exact .storeToEnter
      | testReaderCount =>
          cases taken
          split
          · next first => exact .firstMember first
          · next later => exact .laterMember later
      | downWriter =>
          obtain ⟨semaphoreWriter, positive, same⟩ := down_map_eq_some_iff.mp taken
          cases same
          exact .takeRoom positive
      | upMutex => cases taken; exact .unlockInside
  | @leaveReader _ call result point sync control taken =>
      left
      cases point with
      | downMutex =>
          obtain ⟨semaphoreMutex, positive, same⟩ := down_map_eq_some_iff.mp taken
          cases same
          exact .lockToLeave positive
      | loadReaderCount => cases taken; exact .loadToLeave
      | storeReaderCount loaded => cases taken; exact .storeToLeave
      | testReaderCount =>
          cases taken
          split
          · next last => exact .lastMember last
          · next earlier => exact .earlierMember earlier
      | upWriter => cases taken; exact .giveRoom
      | upMutex => cases taken; exact .unlockOutside

variable {ι : Type} [Fintype ι] [DecidableEq ι]
  {data : B.Data} {config : Config ι (Shared solution1 B) (Phase solution1 B)}

theorem lightswitch_invariant
    (reachable : Reachable (program solution1 B) (initial solution1 data) config) :
    Lightswitch.Invariant (config.map share view) :=
  Lightswitch.invariant_of_reachable (simulates.reachable reachable)

theorem readerCount_bounds
    (reachable : Reachable (program solution1 B) (initial solution1 data) config) :
    0 ≤ config.shared.sync.readerCount ∧ config.shared.sync.readerCount ≤ Fintype.card ι :=
  (lightswitch_invariant reachable).count_bounds

theorem view_of_writerInside {phase : Phase solution1 B} (inside : writerInside phase) :
    view phase = .occupying := by
  cases phase with
  | criticalWriter | leaveWriter => rfl
  | idle | enterWriter | enterReader | criticalReader | leaveReader => cases inside

theorem settled_of_readerInside {phase : Phase solution1 B} (inside : readerInside phase) :
    (view phase).settled = 1 := by
  cases phase with
  | criticalReader => rfl
  | leaveReader call result point =>
      cases point with
      | downMutex | loadReaderCount | storeReaderCount => rfl
      | testReaderCount | upWriter | upMutex => cases inside
  | idle | enterWriter | enterReader | criticalWriter | leaveWriter => cases inside

theorem writerInside_unique
    (reachable : Reachable (program solution1 B) (initial solution1 data) config)
    {writer other : ι} (inside : writerInside (config.thread writer))
    (otherInside : writerInside (config.thread other)) : other = writer :=
  (lightswitch_invariant reachable).occupying_unique (view_of_writerInside otherInside)
    (view_of_writerInside inside)

theorem writerInside_excludes_readerInside
    (reachable : Reachable (program solution1 B) (initial solution1 data) config)
    {writer reader : ι} (inside : writerInside (config.thread writer)) :
    ¬ readerInside (config.thread reader) := by
  intro readerInside
  have none : (view (config.thread reader)).settled = 0 :=
    (lightswitch_invariant reachable).not_settled (view_of_writerInside inside)
  rw [settled_of_readerInside readerInside] at none
  cases none

/-- While a writer is in its critical section, no other writer and no reader is. -/
theorem solution1_mutual_exclusion
    (reachable : Reachable (program solution1 B) (initial solution1 data) config)
    {writer : ι} (inside : writerInside (config.thread writer)) :
    (∀ other, other ≠ writer → ¬ writerInside (config.thread other)) ∧
      ∀ reader, ¬ readerInside (config.thread reader) := by
  constructor
  · intro other different otherInside
    exact different (writerInside_unique reachable inside otherInside)
  · intro reader
    exact writerInside_excludes_readerInside reachable inside

/-- Thread 0 reads `/proc/kboard/writer`; thread 1 reads `/proc/kboard/reader`
and is left waiting for `SemaphoreWriter`. -/
def writingSchedule : List (Thread × Action Procfs.kboardOperations) :=
  (.t0, .callWriter .read) :: (.t1, .callReader 0) :: steps .t0 1 ++ steps .t1 4

theorem solution1_mutual_exclusion_writing :
    ∃ config : Config Thread _ _,
      Reachable (program solution1 Procfs.kboardOperations)
        (initial solution1 Procfs.Board.zero) config ∧
      writerInside (config.thread .t0) ∧ ∀ reader, ¬ readerInside (config.thread reader) := by
  obtain ⟨config, reachable, inside⟩ := reachable_of_execute solution1 Procfs.Board.zero
    writingSchedule (fun config => writerInside (config.thread .t0)) rfl
  exact ⟨config, reachable, inside, (solution1_mutual_exclusion reachable inside).2⟩

end Kboard.Sync.Solution1
