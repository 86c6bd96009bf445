import Kboard.Concurrency.Tally
import Kboard.Sync.Solution3

/-! What `SemaphoreMutex` protects in `SYNC_SOLUTION 3`: the four counters, and
how many threads stand in the regions they count. The units posted to a
waiting semaphore move from the semaphore to the threads that take them
without the mutex, so it protects only their sum. -/

set_option autoImplicit false

namespace Kboard.Sync.Solution3

open Concurrency

variable {B : Operations}

def Owns : Phase solution3 B → Prop
  | .enterWriter _ .downMutex | .enterWriter _ .downWriter | .enterWriter _ .downMutexGranted
  | .enterReader _ .downMutex | .enterReader _ .downReader | .enterReader _ .downMutexGranted
  | .leaveWriter _ _ .downMutex | .leaveReader _ _ .downMutex => False
  | .enterWriter _ _ | .enterReader _ _ | .leaveWriter _ _ _ | .leaveReader _ _ _ => True
  | .idle | .criticalWriter _ _ | .criticalReader _ _ => False

/-- Numbers of threads: inside their critical section, counted as waiting, and
counted as waiting with a unit already taken. -/
structure Census where
  writers : ℤ := 0
  readers : ℤ := 0
  queuedWriters : ℤ := 0
  queuedReaders : ℤ := 0
  grantedWriters : ℤ := 0
  grantedReaders : ℤ := 0

def standing : Phase solution3 B → Census
  | .enterWriter _ .upMutex | .criticalWriter _ _ | .leaveWriter _ _ .downMutex
  | .leaveWriter _ _ .loadWriterCount | .leaveWriter _ _ (.storeWriterCount _) => { writers := 1 }
  | .enterReader _ .upMutex | .criticalReader _ _ | .leaveReader _ _ .downMutex
  | .leaveReader _ _ .loadReaderCount | .leaveReader _ _ (.storeReaderCount _) => { readers := 1 }
  | .enterWriter _ .upMutexWaiting | .enterWriter _ .downWriter => { queuedWriters := 1 }
  | .enterReader _ .upMutexWaiting | .enterReader _ .downReader => { queuedReaders := 1 }
  | .enterWriter _ .downMutexGranted | .enterWriter _ .loadGranted
  | .enterWriter _ (.storeGranted _) => { queuedWriters := 1, grantedWriters := 1 }
  | .enterReader _ .downMutexGranted | .enterReader _ .loadGranted
  | .enterReader _ (.storeGranted _) => { queuedReaders := 1, grantedReaders := 1 }
  | _ => {}

private theorem owns_workedWriter (call : B.WriterCall)
    (control : Control B.WriterBody B.WriterResult) :
    ¬ Owns (Phase.workedWriter call control : Phase solution3 B) := by
  cases control <;> exact id

private theorem owns_workedReader (call : B.ReaderCall)
    (control : Control B.ReaderBody B.ReaderResult) :
    ¬ Owns (Phase.workedReader call control : Phase solution3 B) := by
  cases control <;> exact id

private theorem standing_workedWriter (call : B.WriterCall)
    (control : Control B.WriterBody B.WriterResult) :
    standing (Phase.workedWriter call control : Phase solution3 B) = { writers := 1 } := by
  cases control <;> rfl

private theorem standing_workedReader (call : B.ReaderCall)
    (control : Control B.ReaderBody B.ReaderResult) :
    standing (Phase.workedReader call control : Phase solution3 B) = { readers := 1 } := by
  cases control <;> rfl

def Census.move (n source target : Census) : Census where
  writers := n.writers + (target.writers - source.writers)
  readers := n.readers + (target.readers - source.readers)
  queuedWriters := n.queuedWriters + (target.queuedWriters - source.queuedWriters)
  queuedReaders := n.queuedReaders + (target.queuedReaders - source.queuedReaders)
  grantedWriters := n.grantedWriters + (target.grantedWriters - source.grantedWriters)
  grantedReaders := n.grantedReaders + (target.grantedReaders - source.grantedReaders)

@[simp] theorem Census.move_self (n m : Census) : n.move m m = n := by
  simp [Census.move]

/-- No number is negative, and each counts at least `m`. -/
structure Census.Covers (n m : Census) : Prop where
  writers : 0 ≤ n.writers ∧ m.writers ≤ n.writers
  readers : 0 ≤ n.readers ∧ m.readers ≤ n.readers
  queuedWriters : 0 ≤ n.queuedWriters ∧ m.queuedWriters ≤ n.queuedWriters
  queuedReaders : 0 ≤ n.queuedReaders ∧ m.queuedReaders ≤ n.queuedReaders
  grantedWriters : 0 ≤ n.grantedWriters ∧ m.grantedWriters ≤ n.grantedWriters
  grantedReaders : 0 ≤ n.grantedReaders ∧ m.grantedReaders ≤ n.grantedReaders

section

variable {ι : Type} [Fintype ι]

def census (thread : ι → Phase solution3 B) : Census where
  writers := tally (fun phase => (standing phase).writers) thread
  readers := tally (fun phase => (standing phase).readers) thread
  queuedWriters := tally (fun phase => (standing phase).queuedWriters) thread
  queuedReaders := tally (fun phase => (standing phase).queuedReaders) thread
  grantedWriters := tally (fun phase => (standing phase).grantedWriters) thread
  grantedReaders := tally (fun phase => (standing phase).grantedReaders) thread

private theorem census_update [DecidableEq ι] (thread : ι → Phase solution3 B) (i : ι)
    (target : Phase solution3 B) :
    census (Function.update thread i target) =
      (census thread).move (standing (thread i)) (standing target) := by
  simp [census, Census.move]

theorem standing_nonneg (phase : Phase solution3 B) :
    0 ≤ (standing phase).writers ∧ 0 ≤ (standing phase).readers ∧
      0 ≤ (standing phase).queuedWriters ∧ 0 ≤ (standing phase).queuedReaders ∧
      0 ≤ (standing phase).grantedWriters ∧ 0 ≤ (standing phase).grantedReaders := by
  unfold standing
  split <;> decide

private theorem standing_le_one (phase : Phase solution3 B) :
    (standing phase).writers ≤ 1 ∧ (standing phase).readers ≤ 1 ∧
      (standing phase).queuedWriters ≤ 1 ∧ (standing phase).queuedReaders ≤ 1 := by
  unfold standing
  split <;> decide

theorem census_covers (thread : ι → Phase solution3 B) (i : ι) :
    (census thread).Covers (standing (thread i)) where
  writers := tally_bounds (fun phase => (standing_nonneg phase).1) thread i
  readers := tally_bounds (fun phase => (standing_nonneg phase).2.1) thread i
  queuedWriters := tally_bounds (fun phase => (standing_nonneg phase).2.2.1) thread i
  queuedReaders := tally_bounds (fun phase => (standing_nonneg phase).2.2.2.1) thread i
  grantedWriters := tally_bounds (fun phase => (standing_nonneg phase).2.2.2.2.1) thread i
  grantedReaders := tally_bounds (fun phase => (standing_nonneg phase).2.2.2.2.2) thread i

theorem census_eq_zero {thread : ι → Phase solution3 B}
    (nowhere : ∀ i, standing (thread i) = {}) : census thread = {} := by
  simp only [census, Census.mk.injEq]
  refine ⟨?_, ?_, ?_, ?_, ?_, ?_⟩ <;> exact tally_eq_zero fun i => by rw [nowhere i]

private theorem census_initial : census (fun _ : ι => (Phase.idle : Phase solution3 B)) = {} :=
  census_eq_zero fun _ => rfl

end

/-- What the mutex protects: the counters, the numbers of threads they are
about, and the units of the two waiting semaphores that have been posted and
not yet turned into an entry, whoever has them. -/
structure Ledger where
  writerCount : ℤ
  readerCount : ℤ
  writerWaitingCount : ℤ
  readerWaitingCount : ℤ
  writers : ℤ
  readers : ℤ
  queuedWriters : ℤ
  queuedReaders : ℤ
  writerUnits : ℤ
  readerUnits : ℤ

def ledger (s : Variables) (n : Census) : Ledger where
  writerCount := s.writerCount
  readerCount := s.readerCount
  writerWaitingCount := s.writerWaitingCount
  readerWaitingCount := s.readerWaitingCount
  writers := n.writers
  readers := n.readers
  queuedWriters := n.queuedWriters
  queuedReaders := n.queuedReaders
  writerUnits := s.semaphoreWriter + n.grantedWriters
  readerUnits := s.semaphoreReader + n.grantedReaders

theorem writerUnits_nonneg {ι : Type} [Fintype ι] (s : Variables) (thread : ι → Phase solution3 B) :
    0 ≤ (ledger s (census thread)).writerUnits := by
  have granted : 0 ≤ (census thread).grantedWriters :=
    tally_nonneg (fun phase => (standing_nonneg phase).2.2.2.2.1) thread
  simp only [ledger]
  omega

theorem readerUnits_nonneg {ι : Type} [Fintype ι] (s : Variables) (thread : ι → Phase solution3 B) :
    0 ≤ (ledger s (census thread)).readerUnits := by
  have granted : 0 ≤ (census thread).grantedReaders :=
    tally_nonneg (fun phase => (standing_nonneg phase).2.2.2.2.2) thread
  simp only [ledger]
  omega

def Ledger.Counted (l : Ledger) : Prop :=
  l.writerCount = l.writers ∧ l.readerCount = l.readers ∧
    l.writerWaitingCount = l.queuedWriters ∧ l.readerWaitingCount = l.queuedReaders

/-- No counter is negative or exceeds the number of threads. -/
structure CountersBounded (s : Variables) (threads : ℕ) : Prop where
  writerCount : 0 ≤ s.writerCount ∧ s.writerCount ≤ threads
  readerCount : 0 ≤ s.readerCount ∧ s.readerCount ≤ threads
  writerWaitingCount : 0 ≤ s.writerWaitingCount ∧ s.writerWaitingCount ≤ threads
  readerWaitingCount : 0 ≤ s.readerWaitingCount ∧ s.readerWaitingCount ≤ threads

theorem Ledger.Counted.bounded {ι : Type} [Fintype ι] {s : Variables}
    {thread : ι → Phase solution3 B} (counted : (ledger s (census thread)).Counted) :
    CountersBounded s (Fintype.card ι) := by
  obtain ⟨writers, readers, queuedWriters, queuedReaders⟩ := counted
  simp only [ledger] at writers readers queuedWriters queuedReaders
  constructor
  · rw [writers]
    exact ⟨tally_nonneg (fun phase => (standing_nonneg phase).1) thread,
      tally_le_card (fun phase => (standing_le_one phase).1) thread⟩
  · rw [readers]
    exact ⟨tally_nonneg (fun phase => (standing_nonneg phase).2.1) thread,
      tally_le_card (fun phase => (standing_le_one phase).2.1) thread⟩
  · rw [queuedWriters]
    exact ⟨tally_nonneg (fun phase => (standing_nonneg phase).2.2.1) thread,
      tally_le_card (fun phase => (standing_le_one phase).2.2.1) thread⟩
  · rw [queuedReaders]
    exact ⟨tally_nonneg (fun phase => (standing_nonneg phase).2.2.2.1) thread,
      tally_le_card (fun phase => (standing_le_one phase).2.2.2) thread⟩

/-! ## Assertions under the mutex

`resource` is what holds of the ledger while the mutex is free, `knows` what
the owner of the mutex knows of it at each of its program points. -/

section

variable {resource : Ledger → Prop} {knows : Ledger → Phase solution3 B → Prop}
  {s s' : Variables} {n : Census} {source target : Phase solution3 B}

def Keeps (resource : Ledger → Prop) (knows : Ledger → Phase solution3 B → Prop)
    (s s' : Variables) (n : Census) (source target : Phase solution3 B) : Prop :=
  LockStep Owns s.semaphoreMutex s'.semaphoreMutex (resource (ledger s n))
    (resource (ledger s' (n.move (standing source) (standing target)))) (knows (ledger s n))
    (knows (ledger s' (n.move (standing source) (standing target)))) source target

theorem Keeps.acquire {semaphoreMutex : Nat} (taken : s.semaphoreMutex = semaphoreMutex + 1)
    (owner : Owns target) (sameStanding : standing target = standing source)
    (learns : ∀ l, resource l → knows l target) :
    Keeps resource knows s { s with semaphoreMutex } n source target := by
  refine LockStep.acquire taken owner fun held => ?_
  rw [sameStanding, Census.move_self]
  exact learns _ held

theorem Keeps.release (owner : Owns source) (left : ¬ Owns target)
    (sameStanding : standing target = standing source)
    (restores : ∀ l, knows l source → resource l) :
    Keeps resource knows s { s with semaphoreMutex := up s.semaphoreMutex } n source target := by
  refine LockStep.release owner left rfl fun known => ?_
  rw [sameStanding, Census.move_self]
  exact restores _ known

theorem Keeps.look (owner : Owns source) (stays : Owns target)
    (sameStanding : standing target = standing source)
    (learns : knows (ledger s n) source → knows (ledger s n) target) :
    Keeps resource knows s s n source target := by
  refine LockStep.work owner stays rfl fun known => ?_
  rw [sameStanding, Census.move_self]
  exact learns known

theorem Keeps.bystander (before : ¬ Owns source) (after : ¬ Owns target)
    (sameMutex : s'.semaphoreMutex = s.semaphoreMutex)
    (sameLedger : ledger s' (n.move (standing source) (standing target)) = ledger s n) :
    Keeps resource knows s s' n source target := by
  refine LockStep.bystander before after sameMutex ?_ ?_
  · rw [sameLedger]
    exact id
  · rw [sameLedger]
    exact fun _ => id

theorem Keeps.outside (before : ¬ Owns source) (after : ¬ Owns target)
    (sameStanding : standing target = standing source) :
    Keeps resource knows s s n source target := by
  refine .bystander before after rfl ?_
  rw [sameStanding, Census.move_self]

/-- A posted unit moves from the semaphore to the thread that takes it. -/
theorem Keeps.downWriter {call : B.WriterCall} {semaphoreWriter : Nat}
    (taken : s.semaphoreWriter = semaphoreWriter + 1) :
    Keeps resource knows s { s with semaphoreWriter } n
      (.enterWriter call .downWriter) (.enterWriter call .downMutexGranted) := by
  refine .bystander id id rfl ?_
  simp only [ledger, Census.move, standing, taken, Ledger.mk.injEq, true_and]
  refine ⟨?_, ?_, ?_, ?_, ?_, ?_⟩ <;> omega

theorem Keeps.downReader {call : B.ReaderCall} {semaphoreReader : Nat}
    (taken : s.semaphoreReader = semaphoreReader + 1) :
    Keeps resource knows s { s with semaphoreReader } n
      (.enterReader call .downReader) (.enterReader call .downMutexGranted) := by
  refine .bystander id id rfl ?_
  simp only [ledger, Census.move, standing, taken, Ledger.mk.injEq, true_and]
  refine ⟨?_, ?_, ?_, ?_, ?_, ?_⟩ <;> omega

end

section

variable {ι : Type} [Fintype ι]

def MutexInvariant (resource : Ledger → Prop) (knows : Ledger → Phase solution3 B → Prop)
    (config : Config ι (Shared solution3 B) (Phase solution3 B)) : Prop :=
  LockInvariant config.shared.sync.semaphoreMutex Owns
    (resource (ledger config.shared.sync (census config.thread)))
    (knows (ledger config.shared.sync (census config.thread))) config.thread

variable {resource : Ledger → Prop} {knows : Ledger → Phase solution3 B → Prop}
  {config : Config ι (Shared solution3 B) (Phase solution3 B)}

theorem MutexInvariant.step [DecidableEq ι] (valid : MutexInvariant resource knows config)
    {thread : ι} {shared : Shared solution3 B} {target : Phase solution3 B}
    (keeps : Keeps resource knows config.shared.sync shared.sync (census config.thread)
      (config.thread thread) target) :
    MutexInvariant resource knows (config.advance thread shared target) := by
  simp only [MutexInvariant, Config.advance_shared, Config.advance_thread, census_update]
  exact LockInvariant.step valid keeps

/-- Operations and their bodies run outside the mutex, so only the steps of the
four functions have something to show. -/
theorem MutexInvariant.of_program [DecidableEq ι] (valid : MutexInvariant resource knows config)
    {thread : ι} {shared : Shared solution3 B} {target : Phase solution3 B}
    (stepped : program solution3 B config.shared (config.thread thread) shared target)
    (enterWriter : ∀ {call point sync control}, config.thread thread = .enterWriter call point →
      enterCriticalSectionWriter config.shared.sync point = some (sync, control) →
      Keeps resource knows config.shared.sync sync (census config.thread)
        (.enterWriter call point) (.enteredWriter call control))
    (enterReader : ∀ {call point sync control}, config.thread thread = .enterReader call point →
      enterCriticalSectionReader config.shared.sync point = some (sync, control) →
      Keeps resource knows config.shared.sync sync (census config.thread)
        (.enterReader call point) (.enteredReader call control))
    (leaveWriter : ∀ {call result point sync control},
      config.thread thread = .leaveWriter call result point →
      leaveCriticalSectionWriter config.shared.sync point = some (sync, control) →
      Keeps resource knows config.shared.sync sync (census config.thread)
        (.leaveWriter call result point) (.leftWriter call result control))
    (leaveReader : ∀ {call result point sync control},
      config.thread thread = .leaveReader call result point →
      leaveCriticalSectionReader config.shared.sync point = some (sync, control) →
      Keeps resource knows config.shared.sync sync (census config.thread)
        (.leaveReader call result point) (.leftReader call result control)) :
    MutexInvariant resource knows (config.advance thread shared target) := by
  apply valid.step
  generalize source : config.thread thread = phase at stepped ⊢
  cases transition_of_program stepped with
  | callWriter | callReader => exact .outside id id rfl
  | criticalWriter => exact .outside id (owns_workedWriter _ _) (standing_workedWriter _ _)
  | criticalReader => exact .outside id (owns_workedReader _ _) (standing_workedReader _ _)
  | enterWriter taken => exact enterWriter source taken
  | enterReader taken => exact enterReader source taken
  | leaveWriter taken => exact leaveWriter source taken
  | leaveReader taken => exact leaveReader source taken

theorem MutexInvariant.initial {data : B.Data}
    (held : resource (ledger initializeSyncSolution {})) :
    MutexInvariant resource knows
      (Sync.initial solution3 data : Config ι (Shared solution3 B) (Phase solution3 B)) := by
  refine .inl ⟨rfl, fun _ => id, ?_⟩
  simp only [Sync.initial, Config.uniform, census_initial]
  exact held

end

end Kboard.Sync.Solution3
