import Kboard.Procfs.Operations
import Kboard.Sync.Solution3Ledger

/-! `SYNC_SOLUTION 3` never gets stuck. Wake-ups are posted only by threads
that leave, on counters that lag behind the units already posted. The mutex
nevertheless protects a promise: whenever someone waits without a unit, a
thread that will leave later, or one that has a unit to enter with, is there.
This does not depend on mutual exclusion. -/

set_option autoImplicit false

namespace Kboard.Sync.Solution3

open Concurrency
open Procfs (steps)

variable {B : Operations}

/-- A reader that waits without a unit has a writer before it. -/
def Ledger.ReadersHeard (l : Ledger) : Prop :=
  l.readerUnits < l.readerWaitingCount → 0 < l.writerWaitingCount ∨ 0 < l.writerCount

/-- A waiting writer has a thread inside, or a unit for someone who waits. -/
def Ledger.WritersHeard (l : Ledger) : Prop :=
  0 < l.writerWaitingCount → 0 < l.writerCount ∨ 0 < l.readerCount ∨ 0 < l.writerUnits ∨
    0 < l.readerWaitingCount ∧ 0 < l.readerUnits

def Ledger.Live (l : Ledger) : Prop := l.Counted ∧ l.ReadersHeard ∧ l.WritersHeard

/-- What the owner of the mutex knows on the way to releasing it with `Live`. -/
def Promises (l : Ledger) : Phase solution3 B → Prop
  | .enterWriter _ point =>
      match point with
      | .testWriterCount | .testReaderCount | .testWriterWaitingCount | .testReaderWaitingCount
      | .upMutexWaiting | .loadGranted => l.Live
      | .loadWaiting => l.Live ∧ (0 < l.writerCount ∨ 0 < l.readerCount ∨
          0 < l.writerWaitingCount ∨ 0 < l.readerWaitingCount)
      | .storeWaiting loaded => loaded = l.writerWaitingCount ∧ l.Live ∧ (0 < l.writerCount ∨
          0 < l.readerCount ∨ 0 < l.writerWaitingCount ∨ 0 < l.readerWaitingCount)
      | .storeGranted loaded => loaded = l.writerWaitingCount ∧ l.Live
      | .loadWriterCount => l.Counted
      | .storeWriterCount loaded => loaded = l.writerCount ∧ l.Counted
      | .upMutex => l.Counted ∧ 0 < l.writerCount
      | .downMutex | .downWriter | .downMutexGranted => True
  | .enterReader _ point =>
      match point with
      | .testWriterWaitingCount | .testWriterCount | .upMutexWaiting | .loadGranted => l.Live
      | .loadWaiting => l.Live ∧ (0 < l.writerWaitingCount ∨ 0 < l.writerCount)
      | .storeWaiting loaded => loaded = l.readerWaitingCount ∧ l.Live ∧
          (0 < l.writerWaitingCount ∨ 0 < l.writerCount)
      | .storeGranted loaded => loaded = l.readerWaitingCount ∧ l.Live
      | .loadReaderCount => l.Counted ∧ l.ReadersHeard
      | .storeReaderCount loaded => loaded = l.readerCount ∧ l.Counted ∧ l.ReadersHeard
      | .upMutex => l.Counted ∧ l.ReadersHeard ∧ 0 < l.readerCount
      | .downMutex | .downReader | .downMutexGranted => True
  | .leaveWriter _ _ point =>
      match point with
      | .loadWriterCount | .testReaderWaitingCount => l.Counted
      | .storeWriterCount loaded => loaded = l.writerCount ∧ l.Counted
      -- Every turn of the loop has posted one unit that nobody can have used up.
      | .testIndex index => l.Counted ∧ 0 < l.readerWaitingCount ∧ index ≤ l.readerUnits
      | .upReader index => l.Counted ∧ 0 < l.readerWaitingCount ∧ index ≤ l.readerUnits
      | .testWriterWaitingCount | .upWriter => l.Counted ∧ l.readerWaitingCount ≤ 0
      | .upMutex => l.Live
      | .downMutex => True
  | .leaveReader _ _ point =>
      match point with
      | .loadReaderCount | .testReaderCount | .testWriterWaitingCount
      | .upWriter => l.Counted ∧ l.ReadersHeard
      | .storeReaderCount loaded => loaded = l.readerCount ∧ l.Counted ∧ l.ReadersHeard
      | .upMutex => l.Live
      | .downMutex => True
  | .idle | .criticalWriter _ _ | .criticalReader _ _ => True

theorem Promises.counted {l : Ledger} {phase : Phase solution3 B} (owner : Owns phase)
    (promises : Promises l phase) : l.Counted := by
  cases phase with
  | idle | criticalWriter | criticalReader => exact absurd owner id
  | enterWriter call point =>
      cases point with
      | downMutex | downWriter | downMutexGranted => exact absurd owner id
      | testWriterCount | testReaderCount | testWriterWaitingCount | testReaderWaitingCount
      | upMutexWaiting | loadGranted | upMutex => exact promises.1
      | loadWaiting => exact promises.1.1
      | storeWaiting => exact promises.2.1.1
      | storeGranted => exact promises.2.1
      | loadWriterCount => exact promises
      | storeWriterCount => exact promises.2
  | enterReader call point =>
      cases point with
      | downMutex | downReader | downMutexGranted => exact absurd owner id
      | testWriterWaitingCount | testWriterCount | upMutexWaiting | loadGranted | loadReaderCount
      | upMutex => exact promises.1
      | loadWaiting => exact promises.1.1
      | storeWaiting => exact promises.2.1.1
      | storeGranted | storeReaderCount => exact promises.2.1
  | leaveWriter call result point =>
      cases point with
      | downMutex => exact absurd owner id
      | loadWriterCount | testReaderWaitingCount => exact promises
      | storeWriterCount => exact promises.2
      | testIndex | upReader | testWriterWaitingCount | upWriter | upMutex => exact promises.1
  | leaveReader call result point =>
      cases point with
      | downMutex => exact absurd owner id
      | loadReaderCount | testReaderCount | testWriterWaitingCount | upWriter | upMutex =>
          exact promises.1
      | storeReaderCount => exact promises.2.1

variable {s s' : Variables} {n : Census}

theorem enterWriter_keepsPromises {call : B.WriterCall} {point : EnterWriter}
    {control : Control EnterWriter Unit}
    (taken : enterCriticalSectionWriter s point = some (s', control))
    (covers : n.Covers (standing (.enterWriter call point : Phase solution3 B))) :
    Keeps Ledger.Live Promises s s' n (.enterWriter call point : Phase solution3 B)
      (.enteredWriter call control) := by
  obtain ⟨writers, readers, queuedWriters, queuedReaders, grantedWriters, grantedReaders⟩ := covers
  cases point with
  | downMutex | downMutexGranted =>
      obtain ⟨rest, positive, same⟩ := down_map_eq_some_iff.mp taken
      cases same
      exact .acquire positive trivial rfl fun _ live => live
  | testWriterCount =>
      cases taken
      split
      · next positive => exact .look trivial trivial rfl fun live => ⟨live, .inl positive⟩
      · exact .look trivial trivial rfl id
  | testReaderCount =>
      cases taken
      split
      · next positive => exact .look trivial trivial rfl fun live => ⟨live, .inr (.inl positive)⟩
      · exact .look trivial trivial rfl id
  | testWriterWaitingCount =>
      cases taken
      split
      · next positive =>
          exact .look trivial trivial rfl fun live => ⟨live, .inr (.inr (.inl positive))⟩
      · exact .look trivial trivial rfl id
  | testReaderWaitingCount =>
      cases taken
      split
      · next positive =>
          exact .look trivial trivial rfl fun live => ⟨live, .inr (.inr (.inr positive))⟩
      · exact .look trivial trivial rfl fun live => live.1
  | loadWaiting | loadGranted | loadWriterCount =>
      cases taken
      exact .look trivial trivial rfl fun known => ⟨rfl, known⟩
  | storeWaiting loaded =>
      cases taken
      refine .work trivial trivial rfl ?_
      intro known
      obtain ⟨rfl, live, someone⟩ := known
      simp only [Phase.enteredWriter, standing, Census.move, ledger, Promises, Ledger.Live,
        Ledger.Counted, Ledger.ReadersHeard, Ledger.WritersHeard] at *
      omega
  | upMutexWaiting =>
      cases taken
      exact .release trivial id rfl fun _ live => live
  | downWriter =>
      obtain ⟨rest, positive, same⟩ := down_map_eq_some_iff.mp taken
      cases same
      exact .downWriter positive
  | storeGranted loaded =>
      cases taken
      refine .work trivial trivial rfl ?_
      intro known
      obtain ⟨rfl, counted, _⟩ := known
      simp only [Phase.enteredWriter, standing, Census.move, ledger, Promises,
        Ledger.Counted] at *
      omega
  | storeWriterCount loaded =>
      cases taken
      refine .work trivial trivial rfl ?_
      intro known
      obtain ⟨rfl, counted⟩ := known
      simp only [Phase.enteredWriter, standing, Census.move, ledger, Promises,
        Ledger.Counted] at *
      omega
  | upMutex =>
      cases taken
      refine .release trivial id rfl ?_
      intro l known
      obtain ⟨counted, positive⟩ := known
      exact ⟨counted, fun _ => .inr positive, fun _ => .inl positive⟩

theorem enterReader_keepsPromises {call : B.ReaderCall} {point : EnterReader}
    {control : Control EnterReader Unit}
    (taken : enterCriticalSectionReader s point = some (s', control))
    (covers : n.Covers (standing (.enterReader call point : Phase solution3 B))) :
    Keeps Ledger.Live Promises s s' n (.enterReader call point : Phase solution3 B)
      (.enteredReader call control) := by
  obtain ⟨writers, readers, queuedWriters, queuedReaders, grantedWriters, grantedReaders⟩ := covers
  cases point with
  | downMutex | downMutexGranted =>
      obtain ⟨rest, positive, same⟩ := down_map_eq_some_iff.mp taken
      cases same
      exact .acquire positive trivial rfl fun _ live => live
  | testWriterWaitingCount =>
      cases taken
      split
      · next positive => exact .look trivial trivial rfl fun live => ⟨live, .inl positive⟩
      · exact .look trivial trivial rfl id
  | testWriterCount =>
      cases taken
      split
      · next positive => exact .look trivial trivial rfl fun live => ⟨live, .inr positive⟩
      · exact .look trivial trivial rfl fun live => ⟨live.1, live.2.1⟩
  | loadWaiting | loadGranted | loadReaderCount =>
      cases taken
      exact .look trivial trivial rfl fun known => ⟨rfl, known⟩
  | storeWaiting loaded =>
      cases taken
      refine .work trivial trivial rfl ?_
      intro known
      obtain ⟨rfl, live, writer⟩ := known
      simp only [Phase.enteredReader, standing, Census.move, ledger, Promises, Ledger.Live,
        Ledger.Counted, Ledger.ReadersHeard, Ledger.WritersHeard] at *
      omega
  | upMutexWaiting =>
      cases taken
      exact .release trivial id rfl fun _ live => live
  | downReader =>
      obtain ⟨rest, positive, same⟩ := down_map_eq_some_iff.mp taken
      cases same
      exact .downReader positive
  | storeGranted loaded =>
      cases taken
      refine .work trivial trivial rfl ?_
      intro known
      obtain ⟨rfl, counted, readersHeard, _⟩ := known
      simp only [Phase.enteredReader, standing, Census.move, ledger, Promises,
        Ledger.Counted, Ledger.ReadersHeard] at *
      omega
  | storeReaderCount loaded =>
      cases taken
      refine .work trivial trivial rfl ?_
      intro known
      obtain ⟨rfl, counted, readersHeard⟩ := known
      simp only [Phase.enteredReader, standing, Census.move, ledger, Promises,
        Ledger.Counted, Ledger.ReadersHeard] at *
      omega
  | upMutex =>
      cases taken
      refine .release trivial id rfl ?_
      intro l known
      obtain ⟨counted, readersHeard, positive⟩ := known
      exact ⟨counted, readersHeard, fun _ => .inr (.inl positive)⟩

theorem leaveWriter_keepsPromises {call : B.WriterCall} {result : B.WriterResult}
    {point : LeaveWriter} {control : Control LeaveWriter Unit}
    (taken : leaveCriticalSectionWriter s point = some (s', control))
    (covers : n.Covers (standing (.leaveWriter call result point : Phase solution3 B))) :
    Keeps Ledger.Live Promises s s' n (.leaveWriter call result point : Phase solution3 B)
      (.leftWriter call result control) := by
  obtain ⟨writers, readers, queuedWriters, queuedReaders, grantedWriters, grantedReaders⟩ := covers
  cases point with
  | downMutex =>
      obtain ⟨rest, positive, same⟩ := down_map_eq_some_iff.mp taken
      cases same
      exact .acquire positive trivial rfl fun _ live => live.1
  | loadWriterCount =>
      cases taken
      exact .look trivial trivial rfl fun known => ⟨rfl, known⟩
  | storeWriterCount loaded =>
      cases taken
      refine .work trivial trivial rfl ?_
      intro known
      obtain ⟨rfl, counted⟩ := known
      simp only [Phase.leftWriter, standing, Census.move, ledger, Promises, Ledger.Counted] at *
      omega
  | testReaderWaitingCount =>
      cases taken
      split
      · next positive =>
          refine .look trivial trivial rfl fun counted => ⟨counted, positive, ?_⟩
          simp only [ledger]
          omega
      · next empty => exact .look trivial trivial rfl fun counted => ⟨counted, not_lt.mp empty⟩
  | testIndex index =>
      cases taken
      split
      · exact .look trivial trivial rfl id
      -- The loop has posted a unit for every waiting reader.
      · next past =>
          refine .look trivial trivial rfl ?_
          intro known
          obtain ⟨counted, positive, posted⟩ := known
          have enough : (ledger s n).readerWaitingCount ≤ (ledger s n).readerUnits :=
            (not_lt.mp past).trans posted
          exact ⟨counted, fun short => absurd enough (not_le.mpr short),
            fun _ => .inr (.inr (.inr ⟨positive, positive.trans_le enough⟩))⟩
  | upReader index =>
      cases taken
      refine .work trivial trivial rfl ?_
      intro known
      obtain ⟨counted, positive, posted⟩ := known
      simp only [Phase.leftWriter, standing, Census.move, ledger, Promises, Ledger.Counted, up] at *
      omega
  | testWriterWaitingCount =>
      cases taken
      split
      · exact .look trivial trivial rfl id
      · next empty =>
          refine .look trivial trivial rfl ?_
          intro known
          obtain ⟨counted, noReader⟩ := known
          refine ⟨counted, ?_, fun positive => absurd positive empty⟩
          simp only [Ledger.ReadersHeard, ledger] at *
          omega
  | upWriter =>
      cases taken
      refine .work trivial trivial rfl ?_
      intro known
      obtain ⟨counted, noReader⟩ := known
      simp only [Phase.leftWriter, standing, Census.move, ledger, Promises, Ledger.Live,
        Ledger.Counted, Ledger.ReadersHeard, Ledger.WritersHeard, up] at *
      omega
  | upMutex =>
      cases taken
      exact .release trivial id rfl fun _ live => live

theorem leaveReader_keepsPromises {call : B.ReaderCall} {result : B.ReaderResult}
    {point : LeaveReader} {control : Control LeaveReader Unit}
    (taken : leaveCriticalSectionReader s point = some (s', control))
    (covers : n.Covers (standing (.leaveReader call result point : Phase solution3 B))) :
    Keeps Ledger.Live Promises s s' n (.leaveReader call result point : Phase solution3 B)
      (.leftReader call result control) := by
  obtain ⟨writers, readers, queuedWriters, queuedReaders, grantedWriters, grantedReaders⟩ := covers
  cases point with
  | downMutex =>
      obtain ⟨rest, positive, same⟩ := down_map_eq_some_iff.mp taken
      cases same
      exact .acquire positive trivial rfl fun _ live => ⟨live.1, live.2.1⟩
  | loadReaderCount =>
      cases taken
      exact .look trivial trivial rfl fun known => ⟨rfl, known⟩
  | storeReaderCount loaded =>
      cases taken
      refine .work trivial trivial rfl ?_
      intro known
      obtain ⟨rfl, counted, readersHeard⟩ := known
      simp only [Phase.leftReader, standing, Census.move, ledger, Promises, Ledger.Counted,
        Ledger.ReadersHeard] at *
      omega
  | testReaderCount =>
      cases taken
      split
      · exact .look trivial trivial rfl id
      · next others =>
          refine .look trivial trivial rfl ?_
          intro known
          obtain ⟨counted, readersHeard⟩ := known
          refine ⟨counted, readersHeard, fun _ => .inr (.inl ?_)⟩
          simp only [ledger, Ledger.Counted] at *
          omega
  | testWriterWaitingCount =>
      cases taken
      split
      · exact .look trivial trivial rfl id
      · next empty =>
          refine .look trivial trivial rfl ?_
          intro known
          obtain ⟨counted, readersHeard⟩ := known
          exact ⟨counted, readersHeard, fun positive => absurd positive empty⟩
  | upWriter =>
      cases taken
      refine .work trivial trivial rfl ?_
      intro known
      obtain ⟨counted, readersHeard⟩ := known
      simp only [Phase.leftReader, standing, Census.move, ledger, Promises, Ledger.Live,
        Ledger.Counted, Ledger.ReadersHeard, Ledger.WritersHeard, up] at *
      omega
  | upMutex =>
      cases taken
      exact .release trivial id rfl fun _ live => live

variable {ι : Type} [Fintype ι] {data : B.Data}
  {config : Config ι (Shared solution3 B) (Phase solution3 B)}

theorem promises_of_reachable [DecidableEq ι]
    (reachable : Reachable (program solution3 B) (initial solution3 data) config) :
    MutexInvariant Ledger.Live Promises config := by
  have live : (ledger initializeSyncSolution {}).Live := by
    simp [Ledger.Live, Ledger.Counted, Ledger.ReadersHeard, Ledger.WritersHeard, ledger,
      initializeSyncSolution]
  refine reachable.preserves _ (.initial live) ?_
  intro config thread shared target valid stepped
  have covers := census_covers config.thread thread
  exact valid.of_program stepped
    (fun source taken => enterWriter_keepsPromises taken (source ▸ covers))
    (fun source taken => enterReader_keepsPromises taken (source ▸ covers))
    (fun source taken => leaveWriter_keepsPromises taken (source ▸ covers))
    (fun source taken => leaveReader_keepsPromises taken (source ▸ covers))

theorem counters_bounded [DecidableEq ι]
    (reachable : Reachable (program solution3 B) (initial solution3 data) config) :
    CountersBounded config.shared.sync (Fintype.card ι) := by
  rcases promises_of_reachable reachable with ⟨_, _, live⟩ | ⟨_, holder, owner, _, promises⟩
  · exact live.1.bounded
  · exact (promises.counted owner).bounded

/-! ## Progress -/

/-- The thread waits for a unit that has not been posted. -/
def Waits (s : Variables) : Phase solution3 B → Prop
  | .enterWriter _ .downWriter => s.semaphoreWriter = 0
  | .enterReader _ .downReader => s.semaphoreReader = 0
  | _ => False

private theorem ready_of_owns {s : Shared solution3 B} {phase : Phase solution3 B}
    (owner : Owns phase) :
    ready s phase := by
  cases phase with
  | idle | criticalWriter | criticalReader => exact absurd owner id
  | enterWriter call point => cases point <;> first | rfl | exact absurd owner id
  | enterReader call point => cases point <;> first | rfl | exact absurd owner id
  | leaveWriter call result point => cases point <;> first | rfl | exact absurd owner id
  | leaveReader call result point => cases point <;> first | rfl | exact absurd owner id

theorem ready_or_waits {s : Shared solution3 B} {phase : Phase solution3 B}
    (inside : phase.Inside) (free : 0 < s.sync.semaphoreMutex) :
    ready s phase ∨ Waits s.sync phase := by
  cases phase with
  | idle => exact absurd rfl inside
  | criticalWriter | criticalReader => exact .inl rfl
  | enterWriter call point =>
      cases point with
      | downWriter =>
          simp [ready, step, enterCriticalSectionWriter, down_isSome_iff, Waits]
          omega
      | _ => simp [ready, step, enterCriticalSectionWriter, down_isSome_iff, free]
  | enterReader call point =>
      cases point with
      | downReader =>
          simp [ready, step, enterCriticalSectionReader, down_isSome_iff, Waits]
          omega
      | _ => simp [ready, step, enterCriticalSectionReader, down_isSome_iff, free]
  | leaveWriter call result point =>
      cases point <;> simp [ready, step, leaveCriticalSectionWriter, down_isSome_iff, free]
  | leaveReader call result point =>
      cases point <;> simp [ready, step, leaveCriticalSectionReader, down_isSome_iff, free]

private theorem not_waits_of_ready {s : Shared solution3 B} {phase : Phase solution3 B}
    (goesOn : ready s phase) : ¬ Waits s.sync phase := by
  intro waits
  unfold Waits at waits
  split at waits
  · simp [ready, step, enterCriticalSectionWriter, waits, down] at goesOn
  · simp [ready, step, enterCriticalSectionReader, waits, down] at goesOn
  · exact waits

private theorem standing_of_waits {s : Variables} {phase : Phase solution3 B}
    (waits : phase.Inside → Waits s phase) :
    (standing phase).writers = 0 ∧ (standing phase).readers = 0 ∧
      (standing phase).grantedWriters = 0 ∧ (standing phase).grantedReaders = 0 ∧
      (0 < (standing phase).queuedWriters → s.semaphoreWriter = 0) ∧
      (0 < (standing phase).queuedReaders → s.semaphoreReader = 0) := by
  by_cases idle : phase = .idle
  · subst idle
    simp [standing]
  · have missing := waits idle
    unfold Waits at missing
    split at missing
    · simp [standing, missing]
    · simp [standing, missing]
    · exact missing.elim

theorem not_all_waiting
    (live : (ledger config.shared.sync (census config.thread)).Live)
    {thread : ι} (inside : (config.thread thread).Inside)
    (waits : ∀ i, (config.thread i).Inside → Waits config.shared.sync (config.thread i)) :
    False := by
  obtain ⟨⟨writerCount, readerCount, writerWaitingCount, readerWaitingCount⟩, readersHeard,
    writersHeard⟩ := live
  have noWriters : (census config.thread).writers = 0 :=
    tally_eq_zero fun i => (standing_of_waits (waits i)).1
  have noReaders : (census config.thread).readers = 0 :=
    tally_eq_zero fun i => (standing_of_waits (waits i)).2.1
  have noGrantedWriters : (census config.thread).grantedWriters = 0 :=
    tally_eq_zero fun i => (standing_of_waits (waits i)).2.2.1
  have noGrantedReaders : (census config.thread).grantedReaders = 0 :=
    tally_eq_zero fun i => (standing_of_waits (waits i)).2.2.2.1
  have writerMissing : 0 < (census config.thread).queuedWriters →
      config.shared.sync.semaphoreWriter = 0 := by
    intro queued
    obtain ⟨i, waiting⟩ := exists_pos_of_tally_pos queued
    exact (standing_of_waits (waits i)).2.2.2.2.1 waiting
  have readerMissing : 0 < (census config.thread).queuedReaders →
      config.shared.sync.semaphoreReader = 0 := by
    intro queued
    obtain ⟨i, waiting⟩ := exists_pos_of_tally_pos queued
    exact (standing_of_waits (waits i)).2.2.2.2.2 waiting
  have someone : 0 < (census config.thread).queuedWriters ∨
      0 < (census config.thread).queuedReaders := by
    have covers := census_covers config.thread thread
    have waiting := waits thread inside
    unfold Waits at waiting
    split at waiting
    · next same =>
        have counted := covers.queuedWriters.2
        rw [same] at counted
        exact .inl counted
    · next same =>
        have counted := covers.queuedReaders.2
        rw [same] at counted
        exact .inr counted
    · exact waiting.elim
  simp only [Ledger.ReadersHeard, Ledger.WritersHeard, ledger] at *
  omega

variable [DecidableEq ι]

theorem exists_ready
    (reachable : Reachable (program solution3 B) (initial solution3 data) config)
    {thread : ι} (inside : (config.thread thread).Inside) :
    ∃ other, ready config.shared (config.thread other) := by
  by_contra stuck
  have notReady : ∀ i, ¬ ready config.shared (config.thread i) := not_exists.mp stuck
  have nobody : ∀ i, ¬ Owns (config.thread i) := fun i owner => notReady i (ready_of_owns owner)
  obtain ⟨free, live⟩ := (promises_of_reachable reachable).free nobody
  refine not_all_waiting live inside fun i insideToo => ?_
  exact (ready_or_waits insideToo (by omega)).resolve_left (notReady i)

/-- Whenever some thread is in an operation, one such thread can take a step.
So the threads in an operation never all wait for units. -/
theorem solution3_no_deadlock
    (reachable : Reachable (program solution3 B) (initial solution3 data) config)
    {thread : ι} (inside : (config.thread thread).Inside) :
    (∃ other, (config.thread other).Inside ∧ config.Enabled (program solution3 B) other) ∧
      ¬ ∀ i, (config.thread i).Inside → Waits config.shared.sync (config.thread i) := by
  obtain ⟨other, goesOn⟩ := exists_ready reachable inside
  refine ⟨⟨other, enabled_of_ready goesOn⟩, ?_⟩
  intro waiting
  exact not_waits_of_ready goesOn (waiting other (enabled_of_ready goesOn).1)

/-- Thread 0 is a writer in its critical section, thread 1 a reader that has
counted itself as waiting. -/
def waitingSchedule : List (Thread × Action Procfs.kboardOperations) :=
  (.t0, .callWriter .read) :: steps .t0 8 ++ (.t1, .callReader 0) :: steps .t1 6

theorem solution3_no_deadlock_waiting :
    ∃ config : Config Thread _ _,
      Reachable (program solution3 Procfs.kboardOperations)
        (initial solution3 Procfs.Board.zero) config ∧
      ¬ ready config.shared (config.thread .t1) ∧
      ∃ other, (config.thread other).Inside ∧
        config.Enabled (program solution3 Procfs.kboardOperations) other := by
  obtain ⟨config, reachable, checked⟩ := reachable_of_execute solution3 Procfs.Board.zero
    waitingSchedule (fun config => ready config.shared (config.thread .t0) &&
      !ready config.shared (config.thread .t1)) rfl
  simp only [Bool.and_eq_true, Bool.not_eq_true'] at checked
  exact ⟨config, reachable, by simp [checked.2],
    (solution3_no_deadlock reachable (enabled_of_ready checked.1).1).1⟩

end Kboard.Sync.Solution3
