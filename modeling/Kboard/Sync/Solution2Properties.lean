import Kboard.Concurrency.Lightswitch
import Kboard.Procfs.Operations
import Kboard.Sync.Solution2

/-! `SYNC_SOLUTION 2` is two lightswitches in one program. In the reader switch
the readers are the members and the writers the occupants of
`SemaphoreWriter`. In the gate switch the writers are the members, and a
reader occupies `SemaphoreReader` while it passes the gate. -/

set_option autoImplicit false

namespace Kboard.Sync.Solution2

open Concurrency
open Procfs (steps)

variable {B : Operations}

/-! ## The reader switch -/

def readerSwitch (s : Shared solution2 B) : Lightswitch.Shared :=
  ⟨s.sync.semaphoreReaderMutex, s.sync.semaphoreWriter, s.sync.readerCount⟩

def readerStage : Phase solution2 B → Lightswitch.Stage
  | .idle | .enterWriter _ _ => .outside
  | .criticalWriter _ _ | .leaveWriter _ _ .upWriter => .occupying
  | .leaveWriter _ _ _ => .outside
  | .enterReader _ .downReader | .enterReader _ .upReader
  | .enterReader _ .downReaderMutex => .outside
  | .enterReader _ .loadReaderCount => .enterLoad
  | .enterReader _ (.storeReaderCount loaded) => .enterStore loaded
  | .enterReader _ .testReaderCount => .enterTest
  | .enterReader _ .downWriter => .enterRoom
  | .enterReader _ .upReaderMutex => .enterDone
  | .criticalReader _ _ | .leaveReader _ _ .downReaderMutex => .inside
  | .leaveReader _ _ .loadReaderCount => .leaveLoad
  | .leaveReader _ _ (.storeReaderCount loaded) => .leaveStore loaded
  | .leaveReader _ _ .testReaderCount => .leaveTest
  | .leaveReader _ _ .upWriter => .leaveRoom
  | .leaveReader _ _ .upReaderMutex => .leaveDone

private theorem readerStage_workedWriter (call : B.WriterCall)
    (control : Control B.WriterBody B.WriterResult) :
    readerStage (Phase.workedWriter call control : Phase solution2 B) = .occupying := by
  cases control <;> rfl

private theorem readerStage_workedReader (call : B.ReaderCall)
    (control : Control B.ReaderBody B.ReaderResult) :
    readerStage (Phase.workedReader call control : Phase solution2 B) = .inside := by
  cases control <;> rfl

theorem readerSwitch_simulates :
    Simulates (program solution2 B) Lightswitch.Step readerSwitch readerStage := by
  intro shared source shared' target stepped
  cases transition_of_program stepped with
  | callWriter | callReader => exact .inr ⟨rfl, rfl⟩
  | criticalWriter => exact .inr ⟨rfl, readerStage_workedWriter _ _⟩
  | criticalReader => exact .inr ⟨rfl, readerStage_workedReader _ _⟩
  | @enterWriter _ call point sync control taken =>
      cases point with
      | downWriterMutex | downReader =>
          obtain ⟨rest, positive, same⟩ := down_map_eq_some_iff.mp taken
          cases same
          exact .inr ⟨rfl, rfl⟩
      | testWriterCount =>
          cases taken
          split <;> exact .inr ⟨rfl, rfl⟩
      | loadWriterCount | storeWriterCount loaded | upWriterMutex =>
          cases taken
          exact .inr ⟨rfl, rfl⟩
      | downWriter =>
          obtain ⟨rest, positive, same⟩ := down_map_eq_some_iff.mp taken
          cases same
          exact .inl (.occupy positive)
  | @leaveWriter _ call result point sync control taken =>
      cases point with
      | upWriter => cases taken; exact .inl .vacate
      | downWriterMutex =>
          obtain ⟨rest, positive, same⟩ := down_map_eq_some_iff.mp taken
          cases same
          exact .inr ⟨rfl, rfl⟩
      | testWriterCount =>
          cases taken
          split <;> exact .inr ⟨rfl, rfl⟩
      | loadWriterCount | storeWriterCount loaded | upReader | upWriterMutex =>
          cases taken
          exact .inr ⟨rfl, rfl⟩
  | @enterReader _ call point sync control taken =>
      cases point with
      | downReader =>
          obtain ⟨rest, positive, same⟩ := down_map_eq_some_iff.mp taken
          cases same
          exact .inr ⟨rfl, rfl⟩
      | upReader => cases taken; exact .inr ⟨rfl, rfl⟩
      | downReaderMutex =>
          obtain ⟨rest, positive, same⟩ := down_map_eq_some_iff.mp taken
          cases same
          exact .inl (.lockToEnter positive)
      | loadReaderCount => cases taken; exact .inl .loadToEnter
      | storeReaderCount loaded => cases taken; exact .inl .storeToEnter
      | testReaderCount =>
          cases taken
          split
          · next first => exact .inl (.firstMember first)
          · next later => exact .inl (.laterMember later)
      | downWriter =>
          obtain ⟨rest, positive, same⟩ := down_map_eq_some_iff.mp taken
          cases same
          exact .inl (.takeRoom positive)
      | upReaderMutex => cases taken; exact .inl .unlockInside
  | @leaveReader _ call result point sync control taken =>
      left
      cases point with
      | downReaderMutex =>
          obtain ⟨rest, positive, same⟩ := down_map_eq_some_iff.mp taken
          cases same
          exact .lockToLeave positive
      | loadReaderCount => cases taken; exact .loadToLeave
      | storeReaderCount loaded => cases taken; exact .storeToLeave
      | testReaderCount =>
          cases taken
          split
          · next last => exact .lastMember last
          · next earlier => exact .earlierMember earlier
      | upWriter => cases taken; exact .giveRoom
      | upReaderMutex => cases taken; exact .unlockOutside

/-! ## The gate switch -/

def gateSwitch (s : Shared solution2 B) : Lightswitch.Shared :=
  ⟨s.sync.semaphoreWriterMutex, s.sync.semaphoreReader, s.sync.writerCount⟩

def gateStage : Phase solution2 B → Lightswitch.Stage
  | .idle | .enterWriter _ .downWriterMutex => .outside
  | .enterWriter _ .loadWriterCount => .enterLoad
  | .enterWriter _ (.storeWriterCount loaded) => .enterStore loaded
  | .enterWriter _ .testWriterCount => .enterTest
  | .enterWriter _ .downReader => .enterRoom
  | .enterWriter _ .upWriterMutex => .enterDone
  | .enterWriter _ .downWriter | .criticalWriter _ _ | .leaveWriter _ _ .upWriter
  | .leaveWriter _ _ .downWriterMutex => .inside
  | .leaveWriter _ _ .loadWriterCount => .leaveLoad
  | .leaveWriter _ _ (.storeWriterCount loaded) => .leaveStore loaded
  | .leaveWriter _ _ .testWriterCount => .leaveTest
  | .leaveWriter _ _ .upReader => .leaveRoom
  | .leaveWriter _ _ .upWriterMutex => .leaveDone
  | .enterReader _ .upReader => .occupying
  | .enterReader _ _ | .criticalReader _ _ | .leaveReader _ _ _ => .outside

private theorem gateStage_workedWriter (call : B.WriterCall)
    (control : Control B.WriterBody B.WriterResult) :
    gateStage (Phase.workedWriter call control : Phase solution2 B) = .inside := by
  cases control <;> rfl

private theorem gateStage_workedReader (call : B.ReaderCall)
    (control : Control B.ReaderBody B.ReaderResult) :
    gateStage (Phase.workedReader call control : Phase solution2 B) = .outside := by
  cases control <;> rfl

theorem gateSwitch_simulates :
    Simulates (program solution2 B) Lightswitch.Step gateSwitch gateStage := by
  intro shared source shared' target stepped
  cases transition_of_program stepped with
  | callWriter | callReader => exact .inr ⟨rfl, rfl⟩
  | criticalWriter => exact .inr ⟨rfl, gateStage_workedWriter _ _⟩
  | criticalReader => exact .inr ⟨rfl, gateStage_workedReader _ _⟩
  | @enterWriter _ call point sync control taken =>
      cases point with
      | downWriterMutex =>
          obtain ⟨rest, positive, same⟩ := down_map_eq_some_iff.mp taken
          cases same
          exact .inl (.lockToEnter positive)
      | loadWriterCount => cases taken; exact .inl .loadToEnter
      | storeWriterCount loaded => cases taken; exact .inl .storeToEnter
      | testWriterCount =>
          cases taken
          split
          · next first => exact .inl (.firstMember first)
          · next later => exact .inl (.laterMember later)
      | downReader =>
          obtain ⟨rest, positive, same⟩ := down_map_eq_some_iff.mp taken
          cases same
          exact .inl (.takeRoom positive)
      | upWriterMutex => cases taken; exact .inl .unlockInside
      | downWriter =>
          obtain ⟨rest, positive, same⟩ := down_map_eq_some_iff.mp taken
          cases same
          exact .inr ⟨rfl, rfl⟩
  | @leaveWriter _ call result point sync control taken =>
      cases point with
      | upWriter => cases taken; exact .inr ⟨rfl, rfl⟩
      | downWriterMutex =>
          obtain ⟨rest, positive, same⟩ := down_map_eq_some_iff.mp taken
          cases same
          exact .inl (.lockToLeave positive)
      | loadWriterCount => cases taken; exact .inl .loadToLeave
      | storeWriterCount loaded => cases taken; exact .inl .storeToLeave
      | testWriterCount =>
          cases taken
          split
          · next last => exact .inl (.lastMember last)
          · next earlier => exact .inl (.earlierMember earlier)
      | upReader => cases taken; exact .inl .giveRoom
      | upWriterMutex => cases taken; exact .inl .unlockOutside
  | @enterReader _ call point sync control taken =>
      cases point with
      | downReader =>
          obtain ⟨rest, positive, same⟩ := down_map_eq_some_iff.mp taken
          cases same
          exact .inl (.occupy positive)
      | upReader => cases taken; exact .inl .vacate
      | downReaderMutex | downWriter =>
          obtain ⟨rest, positive, same⟩ := down_map_eq_some_iff.mp taken
          cases same
          exact .inr ⟨rfl, rfl⟩
      | testReaderCount =>
          cases taken
          split <;> exact .inr ⟨rfl, rfl⟩
      | loadReaderCount | storeReaderCount loaded | upReaderMutex =>
          cases taken
          exact .inr ⟨rfl, rfl⟩
  | @leaveReader _ call result point sync control taken =>
      cases point with
      | downReaderMutex =>
          obtain ⟨rest, positive, same⟩ := down_map_eq_some_iff.mp taken
          cases same
          exact .inr ⟨rfl, rfl⟩
      | testReaderCount =>
          cases taken
          split <;> exact .inr ⟨rfl, rfl⟩
      | loadReaderCount | storeReaderCount loaded | upWriter | upReaderMutex =>
          cases taken
          exact .inr ⟨rfl, rfl⟩

section

variable {ι : Type} [Fintype ι] [DecidableEq ι]
  {data : B.Data} {config : Config ι (Shared solution2 B) (Phase solution2 B)}

theorem readerSwitch_invariant
    (reachable : Reachable (program solution2 B) (initial solution2 data) config) :
    Lightswitch.Invariant (config.map readerSwitch readerStage) :=
  Lightswitch.invariant_of_reachable (readerSwitch_simulates.reachable reachable)

theorem gateSwitch_invariant
    (reachable : Reachable (program solution2 B) (initial solution2 data) config) :
    Lightswitch.Invariant (config.map gateSwitch gateStage) :=
  Lightswitch.invariant_of_reachable (gateSwitch_simulates.reachable reachable)

theorem readerCount_bounds
    (reachable : Reachable (program solution2 B) (initial solution2 data) config) :
    0 ≤ config.shared.sync.readerCount ∧ config.shared.sync.readerCount ≤ Fintype.card ι :=
  (readerSwitch_invariant reachable).count_bounds

theorem writerCount_bounds
    (reachable : Reachable (program solution2 B) (initial solution2 data) config) :
    0 ≤ config.shared.sync.writerCount ∧ config.shared.sync.writerCount ≤ Fintype.card ι :=
  (gateSwitch_invariant reachable).count_bounds

/-! ## Mutual exclusion -/

private theorem readerStage_of_writerInside {phase : Phase solution2 B}
    (inside : writerInside phase) :
    readerStage phase = .occupying := by
  cases phase with
  | criticalWriter => rfl
  | leaveWriter call result point =>
      cases point with
      | upWriter => rfl
      | downWriterMutex | loadWriterCount | storeWriterCount | testWriterCount | upReader
      | upWriterMutex => cases inside
  | idle | enterWriter | enterReader | criticalReader | leaveReader => cases inside

theorem settled_of_readerInside {phase : Phase solution2 B} (inside : readerInside phase) :
    (readerStage phase).settled = 1 := by
  cases phase with
  | criticalReader => rfl
  | leaveReader call result point =>
      cases point with
      | downReaderMutex | loadReaderCount | storeReaderCount => rfl
      | testReaderCount | upWriter | upReaderMutex => cases inside
  | idle | enterWriter | enterReader | criticalWriter | leaveWriter => cases inside

/-- While a writer is in its critical section, no other writer and no reader is. -/
theorem solution2_mutual_exclusion
    (reachable : Reachable (program solution2 B) (initial solution2 data) config)
    {writer : ι} (inside : writerInside (config.thread writer)) :
    (∀ other, other ≠ writer → ¬ writerInside (config.thread other)) ∧
      ∀ reader, ¬ readerInside (config.thread reader) := by
  have valid := readerSwitch_invariant reachable
  have occupied := readerStage_of_writerInside inside
  constructor
  · intro other different otherInside
    exact different (valid.occupying_unique (readerStage_of_writerInside otherInside) occupied)
  · intro reader readerInside
    have none : (readerStage (config.thread reader)).settled = 0 := valid.not_settled occupied
    rw [settled_of_readerInside readerInside] at none
    cases none

/-- Thread 0 writes and enters; thread 1 reads and is left at the gate. -/
def writingSchedule : List (Thread × Action Procfs.kboardOperations) :=
  (.t1, .callReader 0) :: (.t0, .callWriter (.write 7 2)) :: steps .t0 7

theorem solution2_mutual_exclusion_writing :
    ∃ config : Config Thread _ _,
      Reachable (program solution2 Procfs.kboardOperations)
        (initial solution2 Procfs.Board.zero) config ∧
      writerInside (config.thread .t0) ∧ ∀ reader, ¬ readerInside (config.thread reader) := by
  obtain ⟨config, reachable, inside⟩ := reachable_of_execute solution2 Procfs.Board.zero
    writingSchedule (fun config => writerInside (config.thread .t0)) rfl
  exact ⟨config, reachable, inside, (solution2_mutual_exclusion reachable inside).2⟩

/-! ## Progress -/

variable {s : Shared solution2 B} {phase : Phase solution2 B}

private theorem ready_of_gate_owner (owner : (gateStage phase).Owns)
    (room : gateStage phase = .enterRoom → 0 < s.sync.semaphoreReader) : ready s phase := by
  cases phase with
  | enterWriter call point =>
      cases point with
      | downReader =>
          simp [ready, step, enterCriticalSectionWriter, down_isSome_iff, room rfl]
      | downWriterMutex | downWriter => exact absurd owner id
      | loadWriterCount | storeWriterCount | testWriterCount | upWriterMutex => rfl
  | leaveWriter call result point =>
      cases point with
      | upWriter | downWriterMutex => exact absurd owner id
      | loadWriterCount | storeWriterCount | testWriterCount | upReader | upWriterMutex => rfl
  | enterReader call point => cases point <;> exact absurd owner id
  | idle | criticalWriter | criticalReader | leaveReader => exact absurd owner id

private theorem ready_of_gate_occupying (occupying : gateStage phase = .occupying) :
    ready s phase := by
  cases phase with
  | enterReader call point => cases point <;> first | rfl | cases occupying
  | enterWriter call point => cases point <;> cases occupying
  | leaveWriter call result point => cases point <;> cases occupying
  | idle | criticalWriter | criticalReader | leaveReader => cases occupying

private theorem ready_of_reader_owner (owner : (readerStage phase).Owns)
    (room : readerStage phase = .enterRoom → 0 < s.sync.semaphoreWriter) : ready s phase := by
  cases phase with
  | enterReader call point =>
      cases point with
      | downWriter =>
          simp [ready, step, enterCriticalSectionReader, down_isSome_iff, room rfl]
      | downReader | upReader | downReaderMutex => exact absurd owner id
      | loadReaderCount | storeReaderCount | testReaderCount | upReaderMutex => rfl
  | leaveReader call result point =>
      cases point with
      | downReaderMutex => exact absurd owner id
      | loadReaderCount | storeReaderCount | testReaderCount | upWriter | upReaderMutex => rfl
  | leaveWriter call result point => cases point <;> exact absurd owner id
  | idle | enterWriter | criticalWriter | criticalReader => exact absurd owner id

private theorem ready_of_reader_occupying (occupying : readerStage phase = .occupying) :
    ready s phase := by
  cases phase with
  | criticalWriter => rfl
  | leaveWriter call result point => cases point <;> first | rfl | cases occupying
  | enterReader call point => cases point <;> cases occupying
  | leaveReader call result point => cases point <;> cases occupying
  | idle | enterWriter | criticalReader => cases occupying

private theorem ready_of_reader_inside (inside : readerStage phase = .inside)
    (free : 0 < s.sync.semaphoreReaderMutex) : ready s phase := by
  cases phase with
  | criticalReader => rfl
  | leaveReader call result point =>
      cases point with
      | downReaderMutex => simp [ready, step, leaveCriticalSectionReader, down_isSome_iff, free]
      | loadReaderCount | storeReaderCount | testReaderCount | upWriter | upReaderMutex =>
          cases inside
  | leaveWriter call result point => cases point <;> cases inside
  | enterReader call point => cases point <;> cases inside
  | idle | enterWriter | criticalWriter => cases inside

private theorem ready_of_gate_inside (inside : gateStage phase = .inside)
    (free : 0 < s.sync.semaphoreWriterMutex) (room : 0 < s.sync.semaphoreWriter) :
    ready s phase := by
  cases phase with
  | criticalWriter => rfl
  | enterWriter call point =>
      cases point with
      | downWriter => simp [ready, step, enterCriticalSectionWriter, down_isSome_iff, room]
      | downWriterMutex | loadWriterCount | storeWriterCount | testWriterCount | downReader
      | upWriterMutex => cases inside
  | leaveWriter call result point =>
      cases point with
      | upWriter => rfl
      | downWriterMutex => simp [ready, step, leaveCriticalSectionWriter, down_isSome_iff, free]
      | loadWriterCount | storeWriterCount | testWriterCount | upReader | upWriterMutex =>
          cases inside
  | enterReader call point => cases point <;> cases inside
  | idle | criticalReader | leaveReader => cases inside

theorem ready_of_free (inside : phase.Inside) (writerMutex : 0 < s.sync.semaphoreWriterMutex)
    (readerMutex : 0 < s.sync.semaphoreReaderMutex) (writer : 0 < s.sync.semaphoreWriter)
    (reader : 0 < s.sync.semaphoreReader) : ready s phase := by
  cases phase with
  | idle => exact absurd rfl inside
  | criticalWriter | criticalReader => rfl
  | enterWriter call point =>
      cases point <;>
        simp [ready, step, enterCriticalSectionWriter, down_isSome_iff, writerMutex, writer, reader]
  | leaveWriter call result point =>
      cases point <;> simp [ready, step, leaveCriticalSectionWriter, down_isSome_iff, writerMutex]
  | enterReader call point =>
      cases point <;>
        simp [ready, step, enterCriticalSectionReader, down_isSome_iff, readerMutex, writer, reader]
  | leaveReader call result point =>
      cases point <;> simp [ready, step, leaveCriticalSectionReader, down_isSome_iff, readerMutex]

theorem exists_ready
    (reachable : Reachable (program solution2 B) (initial solution2 data) config)
    {thread : ι} (inside : (config.thread thread).Inside) :
    ∃ other, ready config.shared (config.thread other) := by
  have gate := (gateSwitch_invariant reachable).progress
  have readers := (readerSwitch_invariant reachable).progress
  simp only [Config.map, gateSwitch, readerSwitch] at gate readers
  rcases gate with ⟨i, owner, room⟩ | ⟨i, occupying⟩ | ⟨writerMutex, gate⟩
  · exact ⟨i, ready_of_gate_owner owner room⟩
  · exact ⟨i, ready_of_gate_occupying occupying⟩
  rcases readers with ⟨i, owner, room⟩ | ⟨i, occupying⟩ | ⟨readerMutex, writer | ⟨i, settled⟩⟩
  · exact ⟨i, ready_of_reader_owner owner room⟩
  · exact ⟨i, ready_of_reader_occupying occupying⟩
  · rcases gate with reader | ⟨i, settled⟩
    · exact ⟨thread, ready_of_free inside (by omega) (by omega) writer reader⟩
    · exact ⟨i, ready_of_gate_inside settled (by omega) writer⟩
  · exact ⟨i, ready_of_reader_inside settled (by omega)⟩

/-- Whenever some thread is in an operation, one such thread can take a step. -/
theorem solution2_no_deadlock
    (reachable : Reachable (program solution2 B) (initial solution2 data) config)
    {thread : ι} (inside : (config.thread thread).Inside) :
    ∃ other, (config.thread other).Inside ∧ config.Enabled (program solution2 B) other := by
  obtain ⟨other, goesOn⟩ := exists_ready reachable inside
  exact ⟨other, enabled_of_ready goesOn⟩

theorem solution2_no_deadlock_at_gate :
    ∃ config : Config Thread _ _,
      Reachable (program solution2 Procfs.kboardOperations)
        (initial solution2 Procfs.Board.zero) config ∧
      ¬ ready config.shared (config.thread .t1) ∧
      ∃ other, (config.thread other).Inside ∧
        config.Enabled (program solution2 Procfs.kboardOperations) other := by
  obtain ⟨config, reachable, checked⟩ := reachable_of_execute solution2 Procfs.Board.zero
    writingSchedule (fun config => ready config.shared (config.thread .t0) &&
      !ready config.shared (config.thread .t1)) rfl
  simp only [Bool.and_eq_true, Bool.not_eq_true'] at checked
  exact ⟨config, reachable, by simp [checked.2],
    solution2_no_deadlock reachable (enabled_of_ready checked.1).1⟩

end

end Kboard.Sync.Solution2
