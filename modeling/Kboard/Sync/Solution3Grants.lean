import Kboard.Procfs.Operations
import Kboard.Sync.Solution3Ledger

/-! Exclusion and balance of `SYNC_SOLUTION 3`. The last reader to leave wakes
a writer when `ReaderCount` is 0, but the readers an earlier writer has posted
units for are not in `ReaderCount` until they have the mutex again. If one of
them is still on its way, a reader and a writer may be inside together and a
unit may be left over. Everything else the solution does is sound: as long as
no such reader is there when `LeaveCriticalSection_Reader` posts, writers are
alone and the synchronization variables come back to their first values. -/

set_option autoImplicit false

namespace Kboard.Sync.Solution3

open Concurrency
open Procfs (steps)

variable {B : Operations}

/-- Each unit is one that a waiting thread will use up. -/
def Ledger.Backed (l : Ledger) : Prop :=
  l.writerUnits ≤ l.writerWaitingCount ∧ l.readerUnits ≤ l.readerWaitingCount

def Ledger.NoWriter (l : Ledger) : Prop := l.writerCount + l.writerUnits = 0

def Ledger.Vacant (l : Ledger) : Prop := l.NoWriter ∧ l.readerCount + l.readerUnits = 0

/-- Writers are alone, those that have been let in included. -/
def Ledger.Exclusive (l : Ledger) : Prop :=
  l.writerCount + l.writerUnits ≤ 1 ∧
    (0 < l.writerCount + l.writerUnits → l.readerCount + l.readerUnits = 0)

def Ledger.Safe (l : Ledger) : Prop := l.Counted ∧ l.Backed ∧ l.Exclusive

/-- What the owner of the mutex knows on the way to releasing it with `Safe`. -/
def Permits (l : Ledger) : Phase solution3 B → Prop
  | .enterWriter _ point =>
      match point with
      | .testWriterCount | .loadWaiting | .upMutexWaiting | .loadGranted | .upMutex => l.Safe
      | .testReaderCount => l.Safe ∧ l.writerCount ≤ 0
      | .testWriterWaitingCount => l.Safe ∧ l.writerCount ≤ 0 ∧ l.readerCount ≤ 0
      | .testReaderWaitingCount =>
          l.Safe ∧ l.writerCount ≤ 0 ∧ l.readerCount ≤ 0 ∧ l.writerWaitingCount ≤ 0
      | .storeWaiting loaded | .storeGranted loaded => loaded = l.writerWaitingCount ∧ l.Safe
      | .loadWriterCount => l.Counted ∧ l.Backed ∧ l.Vacant
      | .storeWriterCount loaded => loaded = l.writerCount ∧ l.Counted ∧ l.Backed ∧ l.Vacant
      | .downMutex | .downWriter | .downMutexGranted => True
  | .enterReader _ point =>
      match point with
      | .testWriterWaitingCount | .loadWaiting | .upMutexWaiting | .loadGranted
      | .upMutex => l.Safe
      | .testWriterCount => l.Safe ∧ l.writerWaitingCount ≤ 0
      | .storeWaiting loaded | .storeGranted loaded => loaded = l.readerWaitingCount ∧ l.Safe
      | .loadReaderCount => l.Counted ∧ l.Backed ∧ l.NoWriter
      | .storeReaderCount loaded => loaded = l.readerCount ∧ l.Counted ∧ l.Backed ∧ l.NoWriter
      | .downMutex | .downReader | .downMutexGranted => True
  | .leaveWriter _ _ point =>
      match point with
      | .loadWriterCount | .upMutex => l.Safe
      | .storeWriterCount loaded => loaded = l.writerCount ∧ l.Safe
      | .testReaderWaitingCount | .testWriterWaitingCount => l.Counted ∧ l.Backed ∧ l.Vacant
      -- All outstanding units of `SemaphoreReader` are those of this very loop.
      | .testIndex index =>
          l.Counted ∧ l.Backed ∧ l.NoWriter ∧ l.readerCount = 0 ∧ l.readerUnits = index
      | .upReader index => l.Counted ∧ l.Backed ∧ l.NoWriter ∧ l.readerCount = 0 ∧
          l.readerUnits = index ∧ index < l.readerWaitingCount
      | .upWriter => l.Counted ∧ l.Backed ∧ l.Vacant ∧ 0 < l.writerWaitingCount
      | .downMutex => True
  | .leaveReader _ _ point =>
      match point with
      | .loadReaderCount | .upMutex => l.Safe
      | .storeReaderCount loaded => loaded = l.readerCount ∧ l.Safe
      | .testReaderCount => l.Counted ∧ l.Backed ∧ l.NoWriter
      | .testWriterWaitingCount => l.Counted ∧ l.Backed ∧ l.NoWriter ∧ l.readerCount = 0
      | .upWriter => l.Counted ∧ l.Backed ∧ l.NoWriter ∧ l.readerCount = 0 ∧
          0 < l.writerWaitingCount
      | .downMutex => True
  | .idle | .criticalWriter _ _ | .criticalReader _ _ => True

variable {s s' : Variables} {n : Census}

theorem enterWriter_keepsPermits {call : B.WriterCall} {point : EnterWriter}
    {control : Control EnterWriter Unit}
    (taken : enterCriticalSectionWriter s point = some (s', control))
    (covers : n.Covers (standing (.enterWriter call point : Phase solution3 B))) :
    Keeps Ledger.Safe Permits s s' n (.enterWriter call point : Phase solution3 B)
      (.enteredWriter call control) := by
  obtain ⟨writers, readers, queuedWriters, queuedReaders, grantedWriters, grantedReaders⟩ := covers
  cases point with
  | downMutex | downMutexGranted =>
      obtain ⟨rest, positive, same⟩ := down_map_eq_some_iff.mp taken
      cases same
      exact .acquire positive trivial rfl fun _ safe => safe
  | testWriterCount =>
      cases taken
      split
      · exact .look trivial trivial rfl id
      · next zero => exact .look trivial trivial rfl fun safe => ⟨safe, not_lt.mp zero⟩
  | testReaderCount =>
      cases taken
      split
      · exact .look trivial trivial rfl fun known => known.1
      · next zero =>
          exact .look trivial trivial rfl fun known => ⟨known.1, known.2, not_lt.mp zero⟩
  | testWriterWaitingCount =>
      cases taken
      split
      · exact .look trivial trivial rfl fun known => known.1
      · next zero =>
          exact .look trivial trivial rfl fun known =>
            ⟨known.1, known.2.1, known.2.2, not_lt.mp zero⟩
  | testReaderWaitingCount =>
      cases taken
      split
      · exact .look trivial trivial rfl fun known => known.1
      -- All four counters are 0, so no unit can be outstanding either.
      · next zero =>
          refine .look trivial trivial rfl ?_
          intro known
          obtain ⟨⟨counted, backed, _⟩, noWriter, noReader, noWaiting⟩ := known
          refine ⟨counted, backed, ?_⟩
          simp only [ledger, Ledger.Counted, Ledger.Backed, Ledger.Vacant, Ledger.NoWriter] at *
          omega
  | loadWaiting | loadGranted | loadWriterCount =>
      cases taken
      exact .look trivial trivial rfl fun known => ⟨rfl, known⟩
  | storeWaiting loaded =>
      cases taken
      refine .work trivial trivial rfl ?_
      intro known
      obtain ⟨rfl, safe⟩ := known
      simp only [Phase.enteredWriter, standing, Census.move, ledger, Permits, Ledger.Safe,
        Ledger.Counted, Ledger.Backed, Ledger.Exclusive] at *
      omega
  | upMutexWaiting | upMutex =>
      cases taken
      exact .release trivial id rfl fun _ safe => safe
  | downWriter =>
      obtain ⟨rest, positive, same⟩ := down_map_eq_some_iff.mp taken
      cases same
      exact .downWriter positive
  | storeGranted loaded =>
      cases taken
      refine .work trivial trivial rfl ?_
      intro known
      obtain ⟨rfl, safe⟩ := known
      simp only [Phase.enteredWriter, standing, Census.move, ledger, Permits, Ledger.Safe,
        Ledger.Counted, Ledger.Backed, Ledger.Exclusive, Ledger.Vacant, Ledger.NoWriter] at *
      omega
  | storeWriterCount loaded =>
      cases taken
      refine .work trivial trivial rfl ?_
      intro known
      obtain ⟨rfl, vacant⟩ := known
      simp only [Phase.enteredWriter, standing, Census.move, ledger, Permits, Ledger.Safe,
        Ledger.Counted, Ledger.Backed, Ledger.Exclusive, Ledger.Vacant, Ledger.NoWriter] at *
      omega

theorem enterReader_keepsPermits {call : B.ReaderCall} {point : EnterReader}
    {control : Control EnterReader Unit}
    (taken : enterCriticalSectionReader s point = some (s', control))
    (covers : n.Covers (standing (.enterReader call point : Phase solution3 B))) :
    Keeps Ledger.Safe Permits s s' n (.enterReader call point : Phase solution3 B)
      (.enteredReader call control) := by
  obtain ⟨writers, readers, queuedWriters, queuedReaders, grantedWriters, grantedReaders⟩ := covers
  cases point with
  | downMutex | downMutexGranted =>
      obtain ⟨rest, positive, same⟩ := down_map_eq_some_iff.mp taken
      cases same
      exact .acquire positive trivial rfl fun _ safe => safe
  | testWriterWaitingCount =>
      cases taken
      split
      · exact .look trivial trivial rfl id
      · next zero => exact .look trivial trivial rfl fun safe => ⟨safe, not_lt.mp zero⟩
  | testWriterCount =>
      cases taken
      split
      · exact .look trivial trivial rfl fun known => known.1
      · next zero =>
          refine .look trivial trivial rfl ?_
          intro known
          obtain ⟨⟨counted, backed, _⟩, noWaiting⟩ := known
          refine ⟨counted, backed, ?_⟩
          simp only [ledger, Ledger.Counted, Ledger.Backed, Ledger.NoWriter] at *
          omega
  | loadWaiting | loadGranted | loadReaderCount =>
      cases taken
      exact .look trivial trivial rfl fun known => ⟨rfl, known⟩
  | storeWaiting loaded =>
      cases taken
      refine .work trivial trivial rfl ?_
      intro known
      obtain ⟨rfl, safe⟩ := known
      simp only [Phase.enteredReader, standing, Census.move, ledger, Permits, Ledger.Safe,
        Ledger.Counted, Ledger.Backed, Ledger.Exclusive] at *
      omega
  | upMutexWaiting | upMutex =>
      cases taken
      exact .release trivial id rfl fun _ safe => safe
  | downReader =>
      obtain ⟨rest, positive, same⟩ := down_map_eq_some_iff.mp taken
      cases same
      exact .downReader positive
  -- The reader's own unit shows that no writer has been let in.
  | storeGranted loaded =>
      cases taken
      refine .work trivial trivial rfl ?_
      intro known
      obtain ⟨rfl, safe⟩ := known
      simp only [Phase.enteredReader, standing, Census.move, ledger, Permits, Ledger.Safe,
        Ledger.Counted, Ledger.Backed, Ledger.Exclusive, Ledger.NoWriter] at *
      omega
  | storeReaderCount loaded =>
      cases taken
      refine .work trivial trivial rfl ?_
      intro known
      obtain ⟨rfl, noWriter⟩ := known
      simp only [Phase.enteredReader, standing, Census.move, ledger, Permits, Ledger.Safe,
        Ledger.Counted, Ledger.Backed, Ledger.Exclusive, Ledger.NoWriter] at *
      omega

theorem leaveWriter_keepsPermits {call : B.WriterCall} {result : B.WriterResult}
    {point : LeaveWriter} {control : Control LeaveWriter Unit}
    (taken : leaveCriticalSectionWriter s point = some (s', control))
    (covers : n.Covers (standing (.leaveWriter call result point : Phase solution3 B))) :
    Keeps Ledger.Safe Permits s s' n (.leaveWriter call result point : Phase solution3 B)
      (.leftWriter call result control) := by
  obtain ⟨writers, readers, queuedWriters, queuedReaders, grantedWriters, grantedReaders⟩ := covers
  cases point with
  | downMutex =>
      obtain ⟨rest, positive, same⟩ := down_map_eq_some_iff.mp taken
      cases same
      exact .acquire positive trivial rfl fun _ safe => safe
  | loadWriterCount =>
      cases taken
      exact .look trivial trivial rfl fun known => ⟨rfl, known⟩
  | storeWriterCount loaded =>
      cases taken
      refine .work trivial trivial rfl ?_
      intro known
      obtain ⟨rfl, safe⟩ := known
      simp only [Phase.leftWriter, standing, Census.move, ledger, Permits, Ledger.Safe,
        Ledger.Counted, Ledger.Backed, Ledger.Exclusive, Ledger.Vacant, Ledger.NoWriter] at *
      omega
  | testReaderWaitingCount =>
      cases taken
      split
      · refine .look trivial trivial rfl ?_
        intro known
        obtain ⟨counted, backed, vacant⟩ := known
        refine ⟨counted, backed, vacant.1, ?_⟩
        simp only [ledger, Ledger.Counted, Ledger.Vacant] at *
        omega
      · exact .look trivial trivial rfl id
  | testIndex index =>
      cases taken
      split
      · next before =>
          refine .look trivial trivial rfl ?_
          intro known
          obtain ⟨counted, backed, noWriter, noReader, posted⟩ := known
          exact ⟨counted, backed, noWriter, noReader, posted, before⟩
      · refine .look trivial trivial rfl ?_
        intro known
        obtain ⟨counted, backed, noWriter, noReader, posted⟩ := known
        refine ⟨counted, backed, ?_⟩
        simp only [Ledger.Exclusive, Ledger.NoWriter] at *
        omega
  | upReader index =>
      cases taken
      refine .work trivial trivial rfl ?_
      intro known
      obtain ⟨counted, backed, noWriter, noReader, posted, before⟩ := known
      simp only [Phase.leftWriter, standing, Census.move, ledger, Permits, Ledger.Counted,
        Ledger.Backed, Ledger.NoWriter, up] at *
      omega
  | testWriterWaitingCount =>
      cases taken
      split
      · next positive =>
          refine .look trivial trivial rfl ?_
          intro known
          obtain ⟨counted, backed, vacant⟩ := known
          exact ⟨counted, backed, vacant, positive⟩
      · refine .look trivial trivial rfl ?_
        intro known
        obtain ⟨counted, backed, vacant⟩ := known
        refine ⟨counted, backed, ?_⟩
        simp only [Ledger.Exclusive, Ledger.Vacant, Ledger.NoWriter] at *
        omega
  | upWriter =>
      cases taken
      refine .work trivial trivial rfl ?_
      intro known
      obtain ⟨counted, backed, vacant, positive⟩ := known
      simp only [Phase.leftWriter, standing, Census.move, ledger, Permits, Ledger.Safe,
        Ledger.Counted, Ledger.Backed, Ledger.Exclusive, Ledger.Vacant, Ledger.NoWriter, up] at *
      omega
  | upMutex =>
      cases taken
      exact .release trivial id rfl fun _ safe => safe

theorem leaveReader_keepsPermits {call : B.ReaderCall} {result : B.ReaderResult}
    {point : LeaveReader} {control : Control LeaveReader Unit}
    (taken : leaveCriticalSectionReader s point = some (s', control))
    (covers : n.Covers (standing (.leaveReader call result point : Phase solution3 B)))
    (clean : point = .upWriter → (ledger s n).readerUnits = 0) :
    Keeps Ledger.Safe Permits s s' n (.leaveReader call result point : Phase solution3 B)
      (.leftReader call result control) := by
  obtain ⟨writers, readers, queuedWriters, queuedReaders, grantedWriters, grantedReaders⟩ := covers
  cases point with
  | downMutex =>
      obtain ⟨rest, positive, same⟩ := down_map_eq_some_iff.mp taken
      cases same
      exact .acquire positive trivial rfl fun _ safe => safe
  | loadReaderCount =>
      cases taken
      exact .look trivial trivial rfl fun known => ⟨rfl, known⟩
  | storeReaderCount loaded =>
      cases taken
      refine .work trivial trivial rfl ?_
      intro known
      obtain ⟨rfl, safe⟩ := known
      simp only [Phase.leftReader, standing, Census.move, ledger, Permits, Ledger.Safe,
        Ledger.Counted, Ledger.Backed, Ledger.Exclusive, Ledger.NoWriter] at *
      omega
  | testReaderCount =>
      cases taken
      split
      · next zero =>
          refine .look trivial trivial rfl ?_
          intro known
          obtain ⟨counted, backed, noWriter⟩ := known
          exact ⟨counted, backed, noWriter, zero⟩
      · refine .look trivial trivial rfl ?_
        intro known
        obtain ⟨counted, backed, noWriter⟩ := known
        refine ⟨counted, backed, ?_⟩
        simp only [Ledger.Exclusive, Ledger.NoWriter] at *
        omega
  | testWriterWaitingCount =>
      cases taken
      split
      · next positive =>
          refine .look trivial trivial rfl ?_
          intro known
          obtain ⟨counted, backed, noWriter, noReader⟩ := known
          exact ⟨counted, backed, noWriter, noReader, positive⟩
      · refine .look trivial trivial rfl ?_
        intro known
        obtain ⟨counted, backed, noWriter, noReader⟩ := known
        refine ⟨counted, backed, ?_⟩
        simp only [Ledger.Exclusive, Ledger.NoWriter] at *
        omega
  -- Only here the condition is needed.
  | upWriter =>
      have noUnits := clean rfl
      cases taken
      refine .work trivial trivial rfl ?_
      intro known
      obtain ⟨counted, backed, noWriter, noReader, positive⟩ := known
      simp only [Phase.leftReader, standing, Census.move, ledger, Permits, Ledger.Safe,
        Ledger.Counted, Ledger.Backed, Ledger.Exclusive, Ledger.NoWriter, up] at *
      omega
  | upMutex =>
      cases taken
      exact .release trivial id rfl fun _ safe => safe

/-! ## Guarded runs -/

def wakesWriter : Phase solution3 B → Bool
  | .leaveReader _ _ .upWriter => true
  | _ => false

section

variable {ι : Type}

/-- When the step is the `up(&SemaphoreWriter)` of a leaving reader, no unit of
`SemaphoreReader` is posted or held by a reader on its way in. -/
def HandsOver (config : Config ι (Shared solution3 B) (Phase solution3 B))
    (move : Move ι (Phase solution3 B)) : Prop :=
  wakesWriter move.source → config.shared.sync.semaphoreReader = 0 ∧
    ∀ i, ¬ readerGranted (config.thread i)

instance [Fintype ι] (config : Config ι (Shared solution3 B) (Phase solution3 B))
    (move : Move ι (Phase solution3 B)) : Decidable (HandsOver config move) :=
  inferInstanceAs (Decidable (wakesWriter move.source → _ ∧ ∀ i, ¬ readerGranted (config.thread i)))

end

private theorem grantedReaders_eq_zero {phase : Phase solution3 B} (none : ¬ readerGranted phase) :
    (standing phase).grantedReaders = 0 := by
  unfold standing
  split <;> first | rfl | exact absurd rfl none

variable {ι : Type} [Fintype ι] {data : B.Data} {moves : List (Move ι (Phase solution3 B))}
  {config : Config ι (Shared solution3 B) (Phase solution3 B)}

private theorem readerUnits_eq_zero (posted : config.shared.sync.semaphoreReader = 0)
    (none : ∀ i, ¬ readerGranted (config.thread i)) :
    (ledger config.shared.sync (census config.thread)).readerUnits = 0 := by
  have noGranted : (census config.thread).grantedReaders = 0 :=
    tally_eq_zero fun i => grantedReaders_eq_zero (none i)
  simp only [ledger, posted, noGranted]
  rfl

theorem permits_of_run [DecidableEq ι]
    (run : Run (program solution3 B) HandsOver (initial solution3 data) moves config) :
    MutexInvariant Ledger.Safe Permits config := by
  have safe : (ledger initializeSyncSolution {}).Safe := by
    simp [Ledger.Safe, Ledger.Counted, Ledger.Backed, Ledger.Exclusive, ledger,
      initializeSyncSolution]
  refine run.preserves (fun _ config => MutexInvariant Ledger.Safe Permits config)
    (.initial safe) ?_
  intro moves config move next valid handsOver taken
  obtain @⟨thread, shared, target, stepped⟩ := taken
  have covers := census_covers config.thread thread
  refine valid.of_program stepped
    (fun source taken => enterWriter_keepsPermits taken (source ▸ covers))
    (fun source taken => enterReader_keepsPermits taken (source ▸ covers))
    (fun source taken => leaveWriter_keepsPermits taken (source ▸ covers))
    (fun source taken => leaveReader_keepsPermits taken (source ▸ covers) ?_)
  intro waking
  subst waking
  have wakes : wakesWriter (config.thread thread) := by
    rw [source]
    rfl
  exact readerUnits_eq_zero (handsOver wakes).1 (handsOver wakes).2

/-! ## Exclusion -/

/-- What is left of `Safe` when the owner of the mutex is half way. -/
def Ledger.Excludes (l : Ledger) : Prop :=
  l.Counted ∧ l.writerCount ≤ 1 ∧ (0 < l.writerCount → l.readerCount ≤ 0)

theorem Ledger.Safe.excludes {l : Ledger} (writerUnits : 0 ≤ l.writerUnits)
    (readerUnits : 0 ≤ l.readerUnits) (safe : l.Safe) : l.Excludes := by
  obtain ⟨counted, backed, exclusive⟩ := safe
  refine ⟨counted, ?_⟩
  simp only [Ledger.Exclusive] at exclusive
  omega

theorem Ledger.NoWriter.excludes {l : Ledger} (writerUnits : 0 ≤ l.writerUnits)
    (counted : l.Counted) (noWriter : l.NoWriter) : l.Excludes := by
  refine ⟨counted, ?_⟩
  simp only [Ledger.NoWriter] at noWriter
  omega

theorem Permits.excludes {l : Ledger} {phase : Phase solution3 B} (writerUnits : 0 ≤ l.writerUnits)
    (readerUnits : 0 ≤ l.readerUnits) (owner : Owns phase) (permits : Permits l phase) :
    l.Excludes := by
  cases phase with
  | idle | criticalWriter | criticalReader => exact owner.elim
  | enterWriter call point =>
      cases point with
      | downMutex | downWriter | downMutexGranted => exact owner.elim
      | testWriterCount | loadWaiting | upMutexWaiting | loadGranted | upMutex =>
          exact Ledger.Safe.excludes writerUnits readerUnits permits
      | testReaderCount | testWriterWaitingCount | testReaderWaitingCount =>
          exact permits.1.excludes writerUnits readerUnits
      | storeWaiting | storeGranted => exact permits.2.excludes writerUnits readerUnits
      | loadWriterCount => exact permits.2.2.1.excludes writerUnits permits.1
      | storeWriterCount => exact permits.2.2.2.1.excludes writerUnits permits.2.1
  | enterReader call point =>
      cases point with
      | downMutex | downReader | downMutexGranted => exact owner.elim
      | testWriterWaitingCount | loadWaiting | upMutexWaiting | loadGranted | upMutex =>
          exact Ledger.Safe.excludes writerUnits readerUnits permits
      | testWriterCount => exact permits.1.excludes writerUnits readerUnits
      | storeWaiting | storeGranted => exact permits.2.excludes writerUnits readerUnits
      | loadReaderCount => exact permits.2.2.excludes writerUnits permits.1
      | storeReaderCount => exact permits.2.2.2.excludes writerUnits permits.2.1
  | leaveWriter call result point =>
      cases point with
      | downMutex => exact owner.elim
      | loadWriterCount | upMutex =>
          exact Ledger.Safe.excludes writerUnits readerUnits permits
      | storeWriterCount => exact permits.2.excludes writerUnits readerUnits
      | testReaderWaitingCount | testWriterWaitingCount =>
          exact permits.2.2.1.excludes writerUnits permits.1
      | upWriter => exact permits.2.2.1.1.excludes writerUnits permits.1
      | testIndex | upReader => exact permits.2.2.1.excludes writerUnits permits.1
  | leaveReader call result point =>
      cases point with
      | downMutex => exact owner.elim
      | loadReaderCount | upMutex =>
          exact Ledger.Safe.excludes writerUnits readerUnits permits
      | storeReaderCount => exact permits.2.excludes writerUnits readerUnits
      | testReaderCount => exact permits.2.2.excludes writerUnits permits.1
      | testWriterWaitingCount | upWriter => exact permits.2.2.1.excludes writerUnits permits.1

theorem excludes_of_run [DecidableEq ι]
    (run : Run (program solution3 B) HandsOver (initial solution3 data) moves config) :
    (ledger config.shared.sync (census config.thread)).Excludes := by
  have writerUnits := writerUnits_nonneg config.shared.sync config.thread
  have readerUnits := readerUnits_nonneg config.shared.sync config.thread
  rcases permits_of_run run with ⟨_, _, safe⟩ | ⟨_, thread, owner, _, permits⟩
  · exact safe.excludes writerUnits readerUnits
  · exact permits.excludes writerUnits readerUnits owner

private theorem standing_of_writerInside {phase : Phase solution3 B} (inside : writerInside phase) :
    (standing phase).writers = 1 := by
  unfold writerInside at inside
  split at inside <;> first | rfl | cases inside

private theorem standing_of_readerInside {phase : Phase solution3 B} (inside : readerInside phase) :
    (standing phase).readers = 1 := by
  unfold readerInside at inside
  split at inside <;> first | rfl | cases inside

/-- In every run in which leaving readers post `SemaphoreWriter` only when no
reader has been let in, at most one writer is in its critical section, and when
one is, no reader is. -/
theorem solution3_mutual_exclusion [DecidableEq ι]
    (run : Run (program solution3 B) HandsOver (initial solution3 data) moves config) :
    (∀ writer other, writerInside (config.thread writer) → writerInside (config.thread other) →
        other = writer) ∧
      (∀ writer reader, writerInside (config.thread writer) →
        ¬ readerInside (config.thread reader)) ∧
      config.shared.sync.writerCount ≤ 1 ∧
      ¬ (0 < config.shared.sync.writerCount ∧ 0 < config.shared.sync.readerCount) := by
  obtain ⟨⟨writers, readers, _⟩, atMostOne, alone⟩ := excludes_of_run run
  simp only [ledger] at writers readers atMostOne alone
  refine ⟨?_, ?_, atMostOne, fun both => absurd (alone both.1) (not_le.mpr both.2)⟩
  · intro writer other inside otherInside
    by_contra different
    have both := weight_add_weight_le_tally (fun phase => (standing_nonneg phase).1)
      config.thread different
    rw [standing_of_writerInside inside, standing_of_writerInside otherInside] at both
    simp only [census] at writers
    omega
  · intro writer reader inside readerInside
    have writerCounted := (census_covers config.thread writer).writers.2
    have readerCounted := (census_covers config.thread reader).readers.2
    rw [standing_of_writerInside inside] at writerCounted
    rw [standing_of_readerInside readerInside] at readerCounted
    omega

/-- Reader 0 is inside when writer 1 comes, and wakes it on leaving. -/
def wakingSchedule : List (Thread × Action Procfs.kboardOperations) :=
  (.t0, .callReader 0) :: steps .t0 6 ++ (.t1, .callWriter .read) :: steps .t1 6 ++
    steps .t0 10 ++ steps .t1 7

theorem solution3_mutual_exclusion_waking :
    ∃ (moves : _) (config : Config Thread _ _),
      Run (program solution3 Procfs.kboardOperations) HandsOver
        (initial solution3 Procfs.Board.zero) moves config ∧
      writerInside (config.thread .t1) ∧ ∀ reader, ¬ readerInside (config.thread reader) := by
  obtain ⟨moves, config, run, inside⟩ := run_of_execute solution3 Procfs.Board.zero HandsOver
    wakingSchedule (fun config => writerInside (config.thread .t1)) rfl
  exact ⟨moves, config, run, inside,
    fun reader => (solution3_mutual_exclusion run).2.1 .t1 reader inside⟩

/-- Readers 1 and 2 wait for writer 0, which posts a unit for each when it
leaves; both take theirs. Writer 3 comes and has to wait. Reader 1 enters and,
as the last one in `ReaderCount`, posts a unit for writer 3 when it leaves, so
writer 3 enters, while reader 2 has yet to take the mutex again. -/
def handOverSchedule : List (Thread × Action Procfs.kboardOperations) :=
  (.t0, .callWriter .read) :: steps .t0 8 ++ (.t1, .callReader 0) :: steps .t1 6 ++
    (.t2, .callReader 0) :: steps .t2 6 ++ steps .t0 13 ++ steps .t1 1 ++ steps .t2 1 ++
    (.t3, .callWriter .read) :: steps .t3 8 ++ steps .t1 16 ++ steps .t3 7

theorem solution3_mutual_exclusion_fails :
    ∃ config : Config Thread _ _,
      Reachable (program solution3 Procfs.kboardOperations)
        (initial solution3 Procfs.Board.zero) config ∧
      writerInside (config.thread .t3) ∧ readerInside (config.thread .t2) ∧
      config.shared.sync.writerCount = 1 ∧ config.shared.sync.readerCount = 1 := by
  obtain ⟨config, reachable, checked⟩ := reachable_of_execute solution3 Procfs.Board.zero
    (handOverSchedule ++ steps .t2 6) (fun config => writerInside (config.thread .t3) &&
      readerInside (config.thread .t2) && config.shared.sync.writerCount == 1 &&
      config.shared.sync.readerCount == 1) rfl
  simp only [Bool.and_eq_true, beq_iff_eq] at checked
  obtain ⟨⟨⟨writer, reader⟩, writerCount⟩, readerCount⟩ := checked
  exact ⟨config, reachable, writer, reader, writerCount, readerCount⟩

/-! ## Balance -/

private theorem standing_of_outside {phase : Phase solution3 B} (outside : phase.Outside) :
    ¬ Owns phase ∧ standing phase = {} := by
  cases phase with
  | idle => exact ⟨id, rfl⟩
  | enterWriter call point => cases outside; exact ⟨id, rfl⟩
  | enterReader call point => cases outside; exact ⟨id, rfl⟩
  | criticalWriter | leaveWriter | criticalReader | leaveReader => exact outside.elim

/-- In the same runs, whenever no thread is between the first step of an Enter
and the last step of its Leave, all seven variables have their initial values. -/
theorem solution3_no_leaked_wakeups [DecidableEq ι]
    (run : Run (program solution3 B) HandsOver (initial solution3 data) moves config)
    (outside : ∀ thread, (config.thread thread).Outside) :
    config.shared.sync = initializeSyncSolution := by
  obtain ⟨free, ⟨writers, readers, queuedWriters, queuedReaders⟩, ⟨writerUnits, readerUnits⟩, _⟩ :=
    (permits_of_run run).free fun thread => (standing_of_outside (outside thread)).1
  have nobody : census config.thread = {} :=
    census_eq_zero fun thread => (standing_of_outside (outside thread)).2
  rw [nobody] at writers readers queuedWriters queuedReaders writerUnits readerUnits
  simp only [ledger] at writers readers queuedWriters queuedReaders writerUnits readerUnits
  ext
  · exact free
  · simp only [initializeSyncSolution]
    omega
  · simp only [initializeSyncSolution]
    omega
  · exact writers
  · exact readers
  · exact queuedWriters
  · exact queuedReaders

def isIdle : Phase solution3 B → Bool
  | .idle => true
  | _ => false

private theorem outside_of_isIdle {phase : Phase solution3 B} (idle : isIdle phase) :
    phase.Outside := by
  cases phase with
  | idle => trivial
  | enterWriter | criticalWriter | leaveWriter | enterReader | criticalReader | leaveReader =>
      cases idle

theorem solution3_no_leaked_wakeups_waking :
    ∃ (moves : _) (config : Config Thread _ _),
      Run (program solution3 Procfs.kboardOperations) HandsOver
        (initial solution3 Procfs.Board.zero) moves config ∧
      config.shared.data.performReader = 1 ∧ config.shared.sync = initializeSyncSolution := by
  obtain ⟨moves, config, run, checked⟩ := run_of_execute solution3 Procfs.Board.zero HandsOver
    (wakingSchedule ++ steps .t1 9) (fun config =>
      decide (∀ thread, isIdle (config.thread thread)) && config.shared.data.performReader == 1) rfl
  simp only [Bool.and_eq_true, beq_iff_eq, decide_eq_true_eq] at checked
  exact ⟨moves, config, run, checked.2,
    solution3_no_leaked_wakeups run fun thread => outside_of_isIdle (checked.1 thread)⟩

/-- Writer 3 leaves before reader 2 enters and posts a second unit for it.
When everyone is done, that unit is left in `SemaphoreReader`. -/
theorem solution3_leaks_wakeup :
    ∃ config : Config Thread _ _,
      Reachable (program solution3 Procfs.kboardOperations)
        (initial solution3 Procfs.Board.zero) config ∧
      (∀ thread, (config.thread thread).Outside) ∧ config.shared.sync.semaphoreReader = 1 := by
  obtain ⟨config, reachable, checked⟩ := reachable_of_execute solution3 Procfs.Board.zero
    (handOverSchedule ++ steps .t3 11 ++ steps .t2 15) (fun config =>
      decide (∀ thread, isIdle (config.thread thread)) &&
        config.shared.sync.semaphoreReader == 1) rfl
  simp only [Bool.and_eq_true, beq_iff_eq, decide_eq_true_eq] at checked
  exact ⟨config, reachable, fun thread => outside_of_isIdle (checked.1 thread), checked.2⟩

end Kboard.Sync.Solution3
