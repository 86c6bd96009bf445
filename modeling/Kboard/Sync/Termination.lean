import Kboard.Concurrency.Termination
import Kboard.Sync.Restoration
import Kboard.Sync.Solution1Progress
import Kboard.Sync.Solution3Progress

/-!
# Operations come to an end

Under each of the three solutions, threads that call nothing new all come back
from what they have called, within a number of steps that only depends on how
many they are. There is no order of steps in which they get in each other's way
for ever, and none in which they get stuck.
-/

set_option autoImplicit false

namespace Kboard.Sync

open Concurrency
open Procfs (kboardOperations steps)

/-- The rank goes down, and a function that returns has not run out of it. -/
def Lowers {P R : Type} (rank : P → ℕ) (point : P) : Control P R → Prop
  | .goto further => rank further < rank point
  | .ret _ => 0 < rank point

/-- How many steps the bodies of the operations have still to take at most. -/
structure Bounds (B : Operations) where
  writerRank : B.WriterBody → ℕ
  readerRank : B.ReaderBody → ℕ
  longestWriter : ℕ
  longestReader : ℕ
  writerRank_le : ∀ body, writerRank body ≤ longestWriter
  readerRank_le : ∀ body, readerRank body ≤ longestReader
  writerStep_lowers : ∀ data body, Lowers writerRank body (B.writerStep data body).2
  readerStep_lowers : ∀ data body, Lowers readerRank body (B.readerStep data body).2

/-- The same for the functions that enter and leave. -/
structure Pace (S : SyncSolution) where
  enterWriter : S.EnterWriter → ℕ
  enterReader : S.EnterReader → ℕ
  leaveWriter : S.LeaveWriter → ℕ
  leaveReader : S.LeaveReader → ℕ

section

variable {S : SyncSolution} {B : Operations}

def Idle (phase : Phase S B) : Prop := phase = .idle

instance (phase : Phase S B) : Decidable (Idle phase) :=
  match phase with
  | .idle => .isTrue rfl
  | .enterWriter _ _ | .criticalWriter _ _ | .leaveWriter _ _ _ | .enterReader _ _
  | .criticalReader _ _ | .leaveReader _ _ _ => .isFalse nofun

def rank (pace : Pace S) (bounds : Bounds B) : Phase S B → ℕ
  | .idle => 0
  | .enterWriter _ point =>
      pace.enterWriter point + bounds.longestWriter + pace.leaveWriter S.leaveWriterEntry
  | .criticalWriter _ body => bounds.writerRank body + pace.leaveWriter S.leaveWriterEntry
  | .leaveWriter _ _ point => pace.leaveWriter point
  | .enterReader _ point =>
      pace.enterReader point + bounds.longestReader + pace.leaveReader S.leaveReaderEntry
  | .criticalReader _ body => bounds.readerRank body + pace.leaveReader S.leaveReaderEntry
  | .leaveReader _ _ point => pace.leaveReader point

/-- Whoever is in an operation moves on in it, if the four functions do. -/
theorem rank_lt_of_step {pace : Pace S} {bounds : Bounds B} {s s' : Shared S B}
    {source target : Phase S B} (stepped : program S B s source s' target) (busy : ¬ Idle source)
    (enterWriter : ∀ {call point sync control}, source = .enterWriter call point →
      S.enterCriticalSectionWriter s.sync point = some (sync, control) →
      Lowers pace.enterWriter point control)
    (leaveWriter : ∀ {call result point sync control}, source = .leaveWriter call result point →
      S.leaveCriticalSectionWriter s.sync point = some (sync, control) →
      Lowers pace.leaveWriter point control)
    (enterReader : ∀ {call point sync control}, source = .enterReader call point →
      S.enterCriticalSectionReader s.sync point = some (sync, control) →
      Lowers pace.enterReader point control)
    (leaveReader : ∀ {call result point sync control}, source = .leaveReader call result point →
      S.leaveCriticalSectionReader s.sync point = some (sync, control) →
      Lowers pace.leaveReader point control) :
    rank pace bounds target < rank pace bounds source := by
  cases transition_of_program stepped with
  | callWriter | callReader => exact absurd rfl busy
  | @enterWriter _ call point sync control taken =>
      have lower := enterWriter rfl taken
      cases control with
      | goto further =>
          simp only [Lowers] at lower
          simp only [Phase.enteredWriter, rank]
          omega
      | ret =>
          have started := bounds.writerRank_le (B.writerStart call)
          simp only [Lowers] at lower
          simp only [Phase.enteredWriter, rank]
          omega
  | @criticalWriter _ call body =>
      have lower := bounds.writerStep_lowers s.data body
      generalize (B.writerStep s.data body).2 = control at lower
      cases control with
      | goto further =>
          simp only [Lowers] at lower
          simp only [Phase.workedWriter, rank]
          omega
      | ret result =>
          simp only [Lowers] at lower
          simp only [Phase.workedWriter, rank]
          omega
  | @leaveWriter _ call result point sync control taken =>
      have lower := leaveWriter rfl taken
      cases control with
      | goto further => exact lower
      | ret => exact lower
  | @enterReader _ call point sync control taken =>
      have lower := enterReader rfl taken
      cases control with
      | goto further =>
          simp only [Lowers] at lower
          simp only [Phase.enteredReader, rank]
          omega
      | ret =>
          have started := bounds.readerRank_le (B.readerStart call)
          simp only [Lowers] at lower
          simp only [Phase.enteredReader, rank]
          omega
  | @criticalReader _ call body =>
      have lower := bounds.readerStep_lowers s.data body
      generalize (B.readerStep s.data body).2 = control at lower
      cases control with
      | goto further =>
          simp only [Lowers] at lower
          simp only [Phase.workedReader, rank]
          omega
      | ret result =>
          simp only [Lowers] at lower
          simp only [Phase.workedReader, rank]
          omega
  | @leaveReader _ call result point sync control taken =>
      have lower := leaveReader rfl taken
      cases control with
      | goto further => exact lower
      | ret => exact lower

end

/-! ## The bodies of the kboard operations -/

def writePointRank : Procfs.WritePoint → ℕ
  | .loadPerformWriter => 8
  | .storePerformWriter _ => 7
  | .testCount => 6
  | .loadCurrentIndex => 5
  | .loadTailCount _ => 4
  | .storeItem _ => 3
  | .loadCount => 2
  | .storeCount _ => 1

def showPointRank : Procfs.ShowPoint → ℕ
  | .loadPerformWriter => 11
  | .storePerformWriter _ => 10
  | .testCount => 9
  | .loadItemIndex => 8
  | .loadItem _ => 7
  | .loadClearIndex _ => 6
  | .clearSlot _ _ => 5
  | .loadCount _ => 4
  | .storeCount _ _ => 3
  | .loadCurrentIndex _ => 2
  | .storeCurrentIndex _ _ => 1

def readerPointRank : Procfs.ReaderPoint → ℕ
  | .loadPerformReader => 3
  | .storePerformReader _ => 2
  | .loadItem => 1

def writerBodyRank : Procfs.WriterBody → ℕ
  | .write _ _ point => writePointRank point
  | .read point => showPointRank point

theorem writerStep_lowers (k : Procfs.Board) (body : Procfs.WriterBody) :
    Lowers writerBodyRank body (Procfs.writerStep k body).2 := by
  cases body with
  | write item length point =>
      cases point with
      | testCount =>
          simp only [Procfs.writerStep, Procfs.kboardWriterWrite]
          split
          · next returned => split at returned <;> cases returned; exact Nat.lt_succ_self 5
          · exact Nat.zero_lt_succ 5
      | loadPerformWriter | storePerformWriter | loadCurrentIndex | loadTailCount | storeItem
      | loadCount | storeCount => exact Nat.lt_succ_self _
  | read point =>
      cases point with
      | testCount =>
          simp only [Procfs.writerStep, Procfs.kboardWriterShow]
          split
          · next returned => split at returned <;> cases returned; exact Nat.lt_succ_self 8
          · exact Nat.zero_lt_succ 8
      | loadPerformWriter | storePerformWriter | loadItemIndex | loadItem | loadClearIndex
      | clearSlot | loadCount | storeCount | loadCurrentIndex | storeCurrentIndex =>
          exact Nat.lt_succ_self _

private theorem writerBodyRank_le (body : Procfs.WriterBody) : writerBodyRank body ≤ 11 := by
  cases body with
  | write item length point => cases point <;> simp [writerBodyRank, writePointRank]
  | read point => cases point <;> simp [writerBodyRank, showPointRank]

def kboardBounds : Bounds kboardOperations where
  writerRank := writerBodyRank
  readerRank body := readerPointRank body.point
  longestWriter := 11
  longestReader := 3
  writerRank_le := writerBodyRank_le
  readerRank_le body := by
    obtain ⟨randomIndex, point⟩ := body
    cases point <;> simp [readerPointRank]
  writerStep_lowers := writerStep_lowers
  readerStep_lowers k body := by
    obtain ⟨randomIndex, point⟩ := body
    cases point <;> exact Nat.lt_succ_self _

/-! ## The solutions -/

section

variable {S : SyncSolution} {B : Operations} {ι : Type} [DecidableEq ι] {data : B.Data}
  {pace : Pace S} {bounds : Bounds B}

theorem settles_of_ready
    (lowers : ∀ {config : Config ι (Shared S B) (Phase S B)} {thread shared target},
      Reachable (program S B) (initial S data) config →
      program S B config.shared (config.thread thread) shared target →
      ¬ Idle (config.thread thread) →
      rank pace bounds target < rank pace bounds (config.thread thread))
    (existsReady : ∀ {config : Config ι (Shared S B) (Phase S B)} {thread},
      Reachable (program S B) (initial S data) config → (config.thread thread).Inside →
      ∃ other, ready config.shared (config.thread other)) :
    Settles (program S B) Idle (rank pace bounds)
      (Reachable (ι := ι) (program S B) (initial S data)) where
  keeps reachable stepped := reachable.step (.intro stepped)
  lowers := lowers
  progress := by
    intro config thread reachable busy
    obtain ⟨other, goesOn⟩ := existsReady reachable busy
    exact ⟨other, enabled_of_ready goesOn⟩

theorem drains_of_settles [Fintype ι]
    (settles : Settles (program S B) Idle (rank pace bounds)
      (Reachable (ι := ι) (program S B) (initial S data)))
    {bound : ℕ} (low : ∀ phase, rank pace bounds phase ≤ bound)
    {start config : Config ι (Shared S B) (Phase S B)} {moves : List (Move ι (Phase S B))}
    (reachable : Reachable (program S B) (initial S data) start)
    (run : Run (program S B) (BeginsNothing Idle) start moves config) :
    moves.length ≤ Fintype.card ι * bound ∧
      ∃ further final, Run (program S B) (BeginsNothing Idle) config further final ∧
        (∀ thread, final.thread thread = .idle) ∧
        Reachable (program S B) (initial S data) final := by
  obtain ⟨bounded, further, final, continued, idle⟩ := settles.drains run reachable
  exact ⟨bounded.trans (work_le fun thread => low _), further, final, continued, idle,
    (reachable.run run).run continued⟩

end

namespace Solution1

variable {B : Operations} {s s' : Variables}

def pace : Pace solution1 where
  enterWriter
    | .downWriter => 1
  enterReader
    | .downMutex => 6
    | .loadReaderCount => 5
    | .storeReaderCount _ => 4
    | .testReaderCount => 3
    | .downWriter => 2
    | .upMutex => 1
  leaveWriter
    | .upWriter => 1
  leaveReader
    | .downMutex => 6
    | .loadReaderCount => 5
    | .storeReaderCount _ => 4
    | .testReaderCount => 3
    | .upWriter => 2
    | .upMutex => 1

theorem enterWriter_lowers {point : EnterWriter} {control : Control EnterWriter Unit}
    (taken : enterCriticalSectionWriter s point = some (s', control)) :
    Lowers pace.enterWriter point control := by
  cases point with
  | downWriter =>
      obtain ⟨rest, _, same⟩ := down_map_eq_some_iff.mp taken
      cases same
      exact Nat.one_pos

theorem leaveWriter_lowers {point : LeaveWriter} {control : Control LeaveWriter Unit}
    (taken : leaveCriticalSectionWriter s point = some (s', control)) :
    Lowers pace.leaveWriter point control := by
  cases point with
  | upWriter =>
      cases taken
      exact Nat.one_pos

theorem enterReader_lowers {point : EnterReader} {control : Control EnterReader Unit}
    (taken : enterCriticalSectionReader s point = some (s', control)) :
    Lowers pace.enterReader point control := by
  cases point with
  | downMutex | downWriter =>
      obtain ⟨rest, _, same⟩ := down_map_eq_some_iff.mp taken
      cases same
      exact Nat.lt_succ_self _
  | testReaderCount =>
      cases taken
      split <;> simp [Lowers, pace]
  | loadReaderCount | storeReaderCount | upMutex =>
      cases taken
      exact Nat.lt_succ_self _

theorem leaveReader_lowers {point : LeaveReader} {control : Control LeaveReader Unit}
    (taken : leaveCriticalSectionReader s point = some (s', control)) :
    Lowers pace.leaveReader point control := by
  cases point with
  | downMutex =>
      obtain ⟨rest, _, same⟩ := down_map_eq_some_iff.mp taken
      cases same
      exact Nat.lt_succ_self _
  | testReaderCount =>
      cases taken
      split <;> simp [Lowers, pace]
  | loadReaderCount | storeReaderCount | upWriter | upMutex =>
      cases taken
      exact Nat.lt_succ_self _

variable {ι : Type} [Fintype ι] [DecidableEq ι] {data : B.Data}

theorem settles (bounds : Bounds B) (data : B.Data) :
    Settles (program solution1 B) Idle (rank pace bounds)
      (Reachable (ι := ι) (program solution1 B) (initial solution1 data)) :=
  settles_of_ready
    (fun _ stepped busy => rank_lt_of_step stepped busy (fun _ => enterWriter_lowers)
      (fun _ => leaveWriter_lowers) (fun _ => enterReader_lowers) fun _ => leaveReader_lowers)
    fun reachable inside => exists_ready reachable inside

theorem rank_le (phase : Phase solution1 kboardOperations) : rank pace kboardBounds phase ≤ 15 := by
  cases phase with
  | idle => exact Nat.zero_le 15
  | enterWriter call point => cases point; simp [rank, kboardBounds, pace]
  | criticalWriter call body =>
      have short := writerBodyRank_le body
      simp only [rank, kboardBounds, pace]
      omega
  | leaveWriter call result point => cases point; simp [rank, pace]
  | enterReader call point => cases point <;> simp [rank, kboardBounds, pace]
  | criticalReader call body =>
      have short := kboardBounds.readerRank_le body
      simp only [rank, kboardBounds, pace] at short ⊢
      omega
  | leaveReader call result point => cases point <;> simp [rank, pace]

/-- Thread 0 is a writer in its critical section, thread 1 a reader that waits
for it, and thread 2 a reader that waits for thread 1. -/
def waitingSchedule : List (Thread × Action kboardOperations) :=
  (.t0, .callWriter .read) :: steps .t0 1 ++ (.t1, .callReader 0) :: steps .t1 4 ++
    [(.t2, .callReader 1)]

end Solution1

namespace Solution2

variable {B : Operations} {s s' : Variables}

def pace : Pace solution2 where
  enterWriter
    | .downWriterMutex => 7
    | .loadWriterCount => 6
    | .storeWriterCount _ => 5
    | .testWriterCount => 4
    | .downReader => 3
    | .upWriterMutex => 2
    | .downWriter => 1
  enterReader
    | .downReader => 8
    | .upReader => 7
    | .downReaderMutex => 6
    | .loadReaderCount => 5
    | .storeReaderCount _ => 4
    | .testReaderCount => 3
    | .downWriter => 2
    | .upReaderMutex => 1
  leaveWriter
    | .upWriter => 7
    | .downWriterMutex => 6
    | .loadWriterCount => 5
    | .storeWriterCount _ => 4
    | .testWriterCount => 3
    | .upReader => 2
    | .upWriterMutex => 1
  leaveReader
    | .downReaderMutex => 6
    | .loadReaderCount => 5
    | .storeReaderCount _ => 4
    | .testReaderCount => 3
    | .upWriter => 2
    | .upReaderMutex => 1

theorem enterWriter_lowers {point : EnterWriter} {control : Control EnterWriter Unit}
    (taken : enterCriticalSectionWriter s point = some (s', control)) :
    Lowers pace.enterWriter point control := by
  cases point with
  | downWriterMutex | downReader | downWriter =>
      obtain ⟨rest, _, same⟩ := down_map_eq_some_iff.mp taken
      cases same
      exact Nat.lt_succ_self _
  | testWriterCount =>
      cases taken
      split <;> simp [Lowers, pace]
  | loadWriterCount | storeWriterCount | upWriterMutex =>
      cases taken
      exact Nat.lt_succ_self _

theorem leaveWriter_lowers {point : LeaveWriter} {control : Control LeaveWriter Unit}
    (taken : leaveCriticalSectionWriter s point = some (s', control)) :
    Lowers pace.leaveWriter point control := by
  cases point with
  | downWriterMutex =>
      obtain ⟨rest, _, same⟩ := down_map_eq_some_iff.mp taken
      cases same
      exact Nat.lt_succ_self _
  | testWriterCount =>
      cases taken
      split <;> simp [Lowers, pace]
  | upWriter | loadWriterCount | storeWriterCount | upReader | upWriterMutex =>
      cases taken
      exact Nat.lt_succ_self _

theorem enterReader_lowers {point : EnterReader} {control : Control EnterReader Unit}
    (taken : enterCriticalSectionReader s point = some (s', control)) :
    Lowers pace.enterReader point control := by
  cases point with
  | downReader | downReaderMutex | downWriter =>
      obtain ⟨rest, _, same⟩ := down_map_eq_some_iff.mp taken
      cases same
      exact Nat.lt_succ_self _
  | testReaderCount =>
      cases taken
      split <;> simp [Lowers, pace]
  | upReader | loadReaderCount | storeReaderCount | upReaderMutex =>
      cases taken
      exact Nat.lt_succ_self _

theorem leaveReader_lowers {point : LeaveReader} {control : Control LeaveReader Unit}
    (taken : leaveCriticalSectionReader s point = some (s', control)) :
    Lowers pace.leaveReader point control := by
  cases point with
  | downReaderMutex =>
      obtain ⟨rest, _, same⟩ := down_map_eq_some_iff.mp taken
      cases same
      exact Nat.lt_succ_self _
  | testReaderCount =>
      cases taken
      split <;> simp [Lowers, pace]
  | loadReaderCount | storeReaderCount | upWriter | upReaderMutex =>
      cases taken
      exact Nat.lt_succ_self _

variable {ι : Type} [Fintype ι] [DecidableEq ι] {data : B.Data}

theorem settles (bounds : Bounds B) (data : B.Data) :
    Settles (program solution2 B) Idle (rank pace bounds)
      (Reachable (ι := ι) (program solution2 B) (initial solution2 data)) :=
  settles_of_ready
    (fun _ stepped busy => rank_lt_of_step stepped busy (fun _ => enterWriter_lowers)
      (fun _ => leaveWriter_lowers) (fun _ => enterReader_lowers) fun _ => leaveReader_lowers)
    fun reachable inside => exists_ready reachable inside

theorem rank_le (phase : Phase solution2 kboardOperations) : rank pace kboardBounds phase ≤ 25 := by
  cases phase with
  | idle => exact Nat.zero_le 25
  | enterWriter call point => cases point <;> simp [rank, kboardBounds, pace]
  | criticalWriter call body =>
      have short := writerBodyRank_le body
      simp only [rank, kboardBounds, pace]
      omega
  | leaveWriter call result point => cases point <;> simp [rank, pace]
  | enterReader call point => cases point <;> simp [rank, kboardBounds, pace]
  | criticalReader call body =>
      have short := kboardBounds.readerRank_le body
      simp only [rank, kboardBounds, pace] at short ⊢
      omega
  | leaveReader call result point => cases point <;> simp [rank, pace]

/-- Thread 0 is a reader in its critical section, thread 1 a writer that waits for
it, and thread 2 a reader that waits in front of the gate. -/
def waitingSchedule : List (Thread × Action kboardOperations) :=
  (.t0, .callReader 0) :: steps .t0 8 ++ (.t1, .callWriter .read) :: steps .t1 6 ++
    [(.t2, .callReader 1)]

end Solution2

namespace Solution3

variable {B : Operations} {s s' : Variables}

/-- A writer that leaves posts at most one unit for each of `n` threads. -/
def pace (n : ℕ) : Pace solution3 where
  enterWriter
    | .downMutex => 15
    | .testWriterCount => 14
    | .testReaderCount => 13
    | .testWriterWaitingCount => 12
    | .testReaderWaitingCount => 11
    | .loadWaiting => 10
    | .storeWaiting _ => 9
    | .upMutexWaiting => 8
    | .downWriter => 7
    | .downMutexGranted => 6
    | .loadGranted => 5
    | .storeGranted _ => 4
    | .loadWriterCount => 3
    | .storeWriterCount _ => 2
    | .upMutex => 1
  enterReader
    | .downMutex => 13
    | .testWriterWaitingCount => 12
    | .testWriterCount => 11
    | .loadWaiting => 10
    | .storeWaiting _ => 9
    | .upMutexWaiting => 8
    | .downReader => 7
    | .downMutexGranted => 6
    | .loadGranted => 5
    | .storeGranted _ => 4
    | .loadReaderCount => 3
    | .storeReaderCount _ => 2
    | .upMutex => 1
  leaveWriter
    | .downMutex => 2 * n + 7
    | .loadWriterCount => 2 * n + 6
    | .storeWriterCount _ => 2 * n + 5
    | .testReaderWaitingCount => 2 * n + 4
    | .testIndex index => 2 * (n - index.toNat) + 2
    | .upReader index => 2 * (n - index.toNat) + 1
    | .testWriterWaitingCount => 3
    | .upWriter => 2
    | .upMutex => 1
  leaveReader
    | .downMutex => 7
    | .loadReaderCount => 6
    | .storeReaderCount _ => 5
    | .testReaderCount => 4
    | .testWriterWaitingCount => 3
    | .upWriter => 2
    | .upMutex => 1

theorem enterWriter_lowers {n : ℕ} {point : EnterWriter} {control : Control EnterWriter Unit}
    (taken : enterCriticalSectionWriter s point = some (s', control)) :
    Lowers (pace n).enterWriter point control := by
  cases point with
  | downMutex | downWriter | downMutexGranted =>
      obtain ⟨rest, _, same⟩ := down_map_eq_some_iff.mp taken
      cases same
      exact Nat.lt_succ_self _
  | testWriterCount | testReaderCount | testWriterWaitingCount | testReaderWaitingCount =>
      cases taken
      split <;> simp [Lowers, pace]
  | loadWaiting | storeWaiting | upMutexWaiting | loadGranted | storeGranted | loadWriterCount
  | storeWriterCount | upMutex =>
      cases taken
      exact Nat.lt_succ_self _

theorem enterReader_lowers {n : ℕ} {point : EnterReader} {control : Control EnterReader Unit}
    (taken : enterCriticalSectionReader s point = some (s', control)) :
    Lowers (pace n).enterReader point control := by
  cases point with
  | downMutex | downReader | downMutexGranted =>
      obtain ⟨rest, _, same⟩ := down_map_eq_some_iff.mp taken
      cases same
      exact Nat.lt_succ_self _
  | testWriterWaitingCount | testWriterCount =>
      cases taken
      split <;> simp [Lowers, pace]
  | loadWaiting | storeWaiting | upMutexWaiting | loadGranted | storeGranted | loadReaderCount
  | storeReaderCount | upMutex =>
      cases taken
      exact Nat.lt_succ_self _

theorem leaveReader_lowers {n : ℕ} {point : LeaveReader} {control : Control LeaveReader Unit}
    (taken : leaveCriticalSectionReader s point = some (s', control)) :
    Lowers (pace n).leaveReader point control := by
  cases point with
  | downMutex =>
      obtain ⟨rest, _, same⟩ := down_map_eq_some_iff.mp taken
      cases same
      exact Nat.lt_succ_self _
  | testReaderCount | testWriterWaitingCount =>
      cases taken
      split <;> simp [Lowers, pace]
  | loadReaderCount | storeReaderCount | upWriter | upMutex =>
      cases taken
      exact Nat.lt_succ_self _

/-- The loop over the waiting readers makes no more turns than there are threads. -/
def InLoop (n : ℕ) : Phase solution3 B → Prop
  | .leaveWriter _ _ (.testIndex index) => 0 ≤ index
  | .leaveWriter _ _ (.upReader index) => 0 ≤ index ∧ index < n
  | _ => True

theorem leaveWriter_lowers {n : ℕ} {call : B.WriterCall} {result : B.WriterResult}
    {point : LeaveWriter} {control : Control LeaveWriter Unit}
    (inLoop : InLoop n (.leaveWriter call result point : Phase solution3 B))
    (taken : leaveCriticalSectionWriter s point = some (s', control)) :
    Lowers (pace n).leaveWriter point control := by
  cases point with
  | downMutex =>
      obtain ⟨rest, _, same⟩ := down_map_eq_some_iff.mp taken
      cases same
      exact Nat.lt_succ_self _
  | testReaderWaitingCount | testIndex | testWriterWaitingCount =>
      cases taken
      split <;> simp [Lowers, pace]
  | upReader index =>
      cases taken
      obtain ⟨nonneg, below⟩ := inLoop
      simp only [Lowers, pace]
      omega
  | loadWriterCount | storeWriterCount | upWriter | upMutex =>
      cases taken
      exact Nat.lt_succ_self _

theorem inLoop_of_step {n : ℕ} {s s' : Shared solution3 B} {source target : Phase solution3 B}
    (inLoop : InLoop n source) (stepped : program solution3 B s source s' target)
    (few : s.sync.readerWaitingCount ≤ n) : InLoop n target := by
  cases transition_of_program stepped with
  | callWriter | callReader => trivial
  | @enterWriter _ call point sync control taken => cases control <;> trivial
  | @criticalWriter _ call body =>
      generalize (B.writerStep s.data body).2 = control
      cases control <;> trivial
  | @leaveWriter _ call result point sync control taken =>
      cases point with
      | downMutex =>
          obtain ⟨rest, _, same⟩ := down_map_eq_some_iff.mp taken
          cases same
          trivial
      | testReaderWaitingCount | testWriterWaitingCount =>
          cases taken
          split <;> simp [InLoop, Phase.leftWriter]
      | testIndex index =>
          cases taken
          split
          · next below => exact ⟨inLoop, below.trans_le few⟩
          · trivial
      | upReader index =>
          cases taken
          exact inLoop.1.trans (Int.le_add_one le_rfl)
      | loadWriterCount | storeWriterCount | upWriter | upMutex =>
          cases taken
          trivial
  | @enterReader _ call point sync control taken => cases control <;> trivial
  | @criticalReader _ call body =>
      generalize (B.readerStep s.data body).2 = control
      cases control <;> trivial
  | @leaveReader _ call result point sync control taken => cases control <;> trivial

variable {ι : Type} [Fintype ι] [DecidableEq ι] {data : B.Data}

theorem inLoop_of_reachable {config : Config ι (Shared solution3 B) (Phase solution3 B)}
    (reachable : Reachable (program solution3 B) (initial solution3 data) config) (i : ι) :
    InLoop (Fintype.card ι) (config.thread i) := by
  refine (reachable.preserves (fun config =>
    Reachable (program solution3 B) (initial solution3 data) config ∧
      ∀ i, InLoop (Fintype.card ι) (config.thread i)) ⟨.refl, fun _ => trivial⟩ ?_).2 i
  intro config thread shared target known stepped
  obtain ⟨before, inLoop⟩ := known
  refine ⟨before.step (.intro stepped), ?_⟩
  intro j
  by_cases moved : j = thread
  · subst moved
    rw [Config.advance_thread, Function.update_self]
    exact inLoop_of_step (inLoop j) stepped (counters_bounded before).readerWaitingCount.2
  · rw [Config.advance_thread, Function.update_of_ne moved]
    exact inLoop j

theorem settles (bounds : Bounds B) (data : B.Data) :
    Settles (program solution3 B) Idle (rank (pace (Fintype.card ι)) bounds)
      (Reachable (ι := ι) (program solution3 B) (initial solution3 data)) :=
  settles_of_ready
    (fun reachable stepped busy => rank_lt_of_step stepped busy (fun _ => enterWriter_lowers)
      (fun here => leaveWriter_lowers (here ▸ inLoop_of_reachable reachable _))
      (fun _ => enterReader_lowers) fun _ => leaveReader_lowers)
    fun reachable inside => exists_ready reachable inside

theorem rank_le (n : ℕ) (phase : Phase solution3 kboardOperations) :
    rank (pace n) kboardBounds phase ≤ 2 * n + 33 := by
  cases phase with
  | idle => exact Nat.zero_le _
  | enterWriter call point => cases point <;> simp only [rank, kboardBounds, pace] <;> omega
  | criticalWriter call body =>
      have short := writerBodyRank_le body
      simp only [rank, kboardBounds, pace]
      omega
  | leaveWriter call result point => cases point <;> simp only [rank, pace] <;> omega
  | enterReader call point => cases point <;> simp only [rank, kboardBounds, pace] <;> omega
  | criticalReader call body =>
      have short := kboardBounds.readerRank_le body
      simp only [rank, kboardBounds, pace] at short ⊢
      omega
  | leaveReader call result point => cases point <;> simp only [rank, pace] <;> omega

/-- With nobody in an operation, only the two waiting semaphores may hold more
than they did at the start. -/
theorem counters_restored {config : Config ι (Shared solution3 B) (Phase solution3 B)}
    (reachable : Reachable (program solution3 B) (initial solution3 data) config)
    (idle : ∀ thread, config.thread thread = .idle) :
    config.shared.sync = { initializeSyncSolution with
      semaphoreWriter := config.shared.sync.semaphoreWriter
      semaphoreReader := config.shared.sync.semaphoreReader } := by
  have nobody : ∀ i, ¬ Owns (config.thread i) := by
    intro i
    rw [idle i]
    exact id
  obtain ⟨free, ⟨writers, readers, queuedWriters, queuedReaders⟩, _⟩ :=
    (promises_of_reachable reachable).free nobody
  have nowhere : census config.thread = {} := census_eq_zero fun i => by rw [idle i]; rfl
  simp only [ledger, nowhere] at writers readers queuedWriters queuedReaders
  exact Variables.ext free rfl rfl writers readers queuedWriters queuedReaders

/-- The loop that wakes the readers does not keep `SYNC_SOLUTION 3` from coming
to an end, not even in the runs in which readers and writers overlap. -/
theorem solution3_drains {data : Procfs.Board}
    {start config : Config ι (Shared solution3 kboardOperations) (Phase solution3 kboardOperations)}
    {moves : List (Move ι (Phase solution3 kboardOperations))}
    (reachable : Reachable (program solution3 kboardOperations) (initial solution3 data) start)
    (run : Run (program solution3 kboardOperations) (BeginsNothing Idle) start moves config) :
    moves.length ≤ Fintype.card ι * (2 * Fintype.card ι + 33) ∧
      ∃ further final, Run (program solution3 kboardOperations) (BeginsNothing Idle) config
          further final ∧
        (∀ thread, final.thread thread = .idle) ∧
        final.shared.sync = { initializeSyncSolution with
          semaphoreWriter := final.shared.sync.semaphoreWriter
          semaphoreReader := final.shared.sync.semaphoreReader } := by
  obtain ⟨bounded, further, final, continued, idle, reached⟩ :=
    drains_of_settles (settles kboardBounds data) (rank_le _) reachable run
  exact ⟨bounded, further, final, continued, idle, counters_restored reached idle⟩

/-- Thread 0 is a writer in its critical section, threads 1 and 2 are readers
that have counted themselves as waiting. -/
def queueingSchedule : List (Thread × Action kboardOperations) :=
  (.t0, .callWriter .read) :: steps .t0 8 ++ (.t1, .callReader 0) :: steps .t1 6 ++
    (.t2, .callReader 1) :: steps .t2 6

def queueingConfig : Config Thread (Shared solution3 kboardOperations)
    (Phase solution3 kboardOperations) :=
  (execute step (fun _ _ => True) (initial solution3 Procfs.Board.zero) queueingSchedule).get rfl

theorem solution3_drains_queueing :
    ¬ ready queueingConfig.shared (queueingConfig.thread .t1) ∧
      ∃ moves config, Run (program solution3 kboardOperations) (BeginsNothing Idle) queueingConfig
          moves config ∧
        moves.length ≤ 164 ∧
        ∃ further final, Run (program solution3 kboardOperations) (BeginsNothing Idle) config
            further final ∧
          (∀ thread, final.thread thread = .idle) ∧
          final.shared.sync = { initializeSyncSolution with
            semaphoreWriter := final.shared.sync.semaphoreWriter
            semaphoreReader := final.shared.sync.semaphoreReader } := by
  have run := execute_sound (Option.some_get (show (execute step (BeginsNothing Idle)
    queueingConfig (steps .t0 3)).isSome = true from rfl)).symm
  exact ⟨Bool.false_ne_true, _, _, run, solution3_drains (reachable_get _) run⟩

end Solution3

end Kboard.Sync
