import Kboard.Concurrency.Lock
import Kboard.Sync.System

/-!
# SYNC_SOLUTION 3

All four counters are accessed under `SemaphoreMutex`. A thread that may not
enter counts itself as waiting, lets go of the mutex and waits for a unit of
`SemaphoreWriter` or `SemaphoreReader`, which a leaving thread posts for it.
Once it has the unit it takes the mutex again before it updates the counters.
Each test and each half of `++` and `--` is a load or store of its own; `||`
and `&&` load their operands from left to right and stop early. The counters
are plain variables, `Int` here because they are never negative and never exceed
the number of threads (`counters_bounded`).
-/

set_option autoImplicit false

namespace Kboard.Sync.Solution3

open Concurrency

@[ext] structure Variables where
  semaphoreMutex : Nat
  semaphoreWriter : Nat
  semaphoreReader : Nat
  writerCount : Int
  readerCount : Int
  writerWaitingCount : Int
  readerWaitingCount : Int

def initializeSyncSolution : Variables where
  semaphoreMutex := 1
  semaphoreWriter := 0
  semaphoreReader := 0
  writerCount := 0
  readerCount := 0
  writerWaitingCount := 0
  readerWaitingCount := 0

/-- The points from `loadWaiting` to `storeGranted` are the waiting branch. -/
inductive EnterWriter where
  | downMutex
  | testWriterCount
  | testReaderCount
  | testWriterWaitingCount
  | testReaderWaitingCount
  | loadWaiting
  | storeWaiting (loaded : Int)
  | upMutexWaiting
  | downWriter
  | downMutexGranted
  | loadGranted
  | storeGranted (loaded : Int)
  | loadWriterCount
  | storeWriterCount (loaded : Int)
  | upMutex

inductive EnterReader where
  | downMutex
  | testWriterWaitingCount
  | testWriterCount
  | loadWaiting
  | storeWaiting (loaded : Int)
  | upMutexWaiting
  | downReader
  | downMutexGranted
  | loadGranted
  | storeGranted (loaded : Int)
  | loadReaderCount
  | storeReaderCount (loaded : Int)
  | upMutex

inductive LeaveWriter where
  | downMutex
  | loadWriterCount
  | storeWriterCount (loaded : Int)
  | testReaderWaitingCount
  | testIndex (index : Int)
  | upReader (index : Int)
  | testWriterWaitingCount
  | upWriter
  | upMutex

inductive LeaveReader where
  | downMutex
  | loadReaderCount
  | storeReaderCount (loaded : Int)
  | testReaderCount
  | testWriterWaitingCount
  | upWriter
  | upMutex

def enterCriticalSectionWriter (s : Variables) :
    EnterWriter → Option (Variables × Control EnterWriter Unit)
  | .downMutex => (down s.semaphoreMutex).map fun semaphoreMutex =>
      ({ s with semaphoreMutex }, .goto .testWriterCount)
  | .testWriterCount =>
      some (s, .goto (if s.writerCount > 0 then .loadWaiting else .testReaderCount))
  | .testReaderCount =>
      some (s, .goto (if s.readerCount > 0 then .loadWaiting else .testWriterWaitingCount))
  | .testWriterWaitingCount =>
      some (s, .goto (if s.writerWaitingCount > 0 then .loadWaiting else .testReaderWaitingCount))
  | .testReaderWaitingCount =>
      some (s, .goto (if s.readerWaitingCount > 0 then .loadWaiting else .loadWriterCount))
  | .loadWaiting => some (s, .goto (.storeWaiting s.writerWaitingCount))
  | .storeWaiting loaded =>
      some ({ s with writerWaitingCount := loaded + 1 }, .goto .upMutexWaiting)
  | .upMutexWaiting => some ({ s with semaphoreMutex := up s.semaphoreMutex }, .goto .downWriter)
  | .downWriter => (down s.semaphoreWriter).map fun semaphoreWriter =>
      ({ s with semaphoreWriter }, .goto .downMutexGranted)
  | .downMutexGranted => (down s.semaphoreMutex).map fun semaphoreMutex =>
      ({ s with semaphoreMutex }, .goto .loadGranted)
  | .loadGranted => some (s, .goto (.storeGranted s.writerWaitingCount))
  | .storeGranted loaded =>
      some ({ s with writerWaitingCount := loaded - 1 }, .goto .loadWriterCount)
  | .loadWriterCount => some (s, .goto (.storeWriterCount s.writerCount))
  | .storeWriterCount loaded => some ({ s with writerCount := loaded + 1 }, .goto .upMutex)
  | .upMutex => some ({ s with semaphoreMutex := up s.semaphoreMutex }, .ret ())

def enterCriticalSectionReader (s : Variables) :
    EnterReader → Option (Variables × Control EnterReader Unit)
  | .downMutex => (down s.semaphoreMutex).map fun semaphoreMutex =>
      ({ s with semaphoreMutex }, .goto .testWriterWaitingCount)
  | .testWriterWaitingCount =>
      some (s, .goto (if s.writerWaitingCount > 0 then .loadWaiting else .testWriterCount))
  | .testWriterCount =>
      some (s, .goto (if s.writerCount > 0 then .loadWaiting else .loadReaderCount))
  | .loadWaiting => some (s, .goto (.storeWaiting s.readerWaitingCount))
  | .storeWaiting loaded =>
      some ({ s with readerWaitingCount := loaded + 1 }, .goto .upMutexWaiting)
  | .upMutexWaiting => some ({ s with semaphoreMutex := up s.semaphoreMutex }, .goto .downReader)
  | .downReader => (down s.semaphoreReader).map fun semaphoreReader =>
      ({ s with semaphoreReader }, .goto .downMutexGranted)
  | .downMutexGranted => (down s.semaphoreMutex).map fun semaphoreMutex =>
      ({ s with semaphoreMutex }, .goto .loadGranted)
  | .loadGranted => some (s, .goto (.storeGranted s.readerWaitingCount))
  | .storeGranted loaded =>
      some ({ s with readerWaitingCount := loaded - 1 }, .goto .loadReaderCount)
  | .loadReaderCount => some (s, .goto (.storeReaderCount s.readerCount))
  | .storeReaderCount loaded => some ({ s with readerCount := loaded + 1 }, .goto .upMutex)
  | .upMutex => some ({ s with semaphoreMutex := up s.semaphoreMutex }, .ret ())

def leaveCriticalSectionWriter (s : Variables) :
    LeaveWriter → Option (Variables × Control LeaveWriter Unit)
  | .downMutex => (down s.semaphoreMutex).map fun semaphoreMutex =>
      ({ s with semaphoreMutex }, .goto .loadWriterCount)
  | .loadWriterCount => some (s, .goto (.storeWriterCount s.writerCount))
  | .storeWriterCount loaded =>
      some ({ s with writerCount := loaded - 1 }, .goto .testReaderWaitingCount)
  | .testReaderWaitingCount =>
      some (s, .goto (if s.readerWaitingCount > 0 then .testIndex 0 else .testWriterWaitingCount))
  | .testIndex index =>
      some (s, .goto (if index < s.readerWaitingCount then .upReader index else .upMutex))
  | .upReader index =>
      some ({ s with semaphoreReader := up s.semaphoreReader }, .goto (.testIndex (index + 1)))
  | .testWriterWaitingCount =>
      some (s, .goto (if s.writerWaitingCount > 0 then .upWriter else .upMutex))
  | .upWriter => some ({ s with semaphoreWriter := up s.semaphoreWriter }, .goto .upMutex)
  | .upMutex => some ({ s with semaphoreMutex := up s.semaphoreMutex }, .ret ())

def leaveCriticalSectionReader (s : Variables) :
    LeaveReader → Option (Variables × Control LeaveReader Unit)
  | .downMutex => (down s.semaphoreMutex).map fun semaphoreMutex =>
      ({ s with semaphoreMutex }, .goto .loadReaderCount)
  | .loadReaderCount => some (s, .goto (.storeReaderCount s.readerCount))
  | .storeReaderCount loaded => some ({ s with readerCount := loaded - 1 }, .goto .testReaderCount)
  | .testReaderCount =>
      some (s, .goto (if s.readerCount = 0 then .testWriterWaitingCount else .upMutex))
  | .testWriterWaitingCount =>
      some (s, .goto (if s.writerWaitingCount > 0 then .upWriter else .upMutex))
  | .upWriter => some ({ s with semaphoreWriter := up s.semaphoreWriter }, .goto .upMutex)
  | .upMutex => some ({ s with semaphoreMutex := up s.semaphoreMutex }, .ret ())

abbrev solution3 : SyncSolution where
  Variables := Variables
  EnterWriter := EnterWriter
  EnterReader := EnterReader
  LeaveWriter := LeaveWriter
  LeaveReader := LeaveReader
  initializeSyncSolution := initializeSyncSolution
  enterWriterEntry := .downMutex
  enterReaderEntry := .downMutex
  leaveWriterEntry := .downMutex
  leaveReaderEntry := .downMutex
  enterCriticalSectionWriter := enterCriticalSectionWriter
  enterCriticalSectionReader := enterCriticalSectionReader
  leaveCriticalSectionWriter := leaveCriticalSectionWriter
  leaveCriticalSectionReader := leaveCriticalSectionReader

variable {B : Operations}

/-! ## Critical sections -/

/-- A writer is in its critical section from the store of its `WriterCount++`
until the store of the matching decrement. -/
def writerInside : Phase solution3 B → Bool
  | .enterWriter _ .upMutex | .criticalWriter _ _ | .leaveWriter _ _ .downMutex
  | .leaveWriter _ _ .loadWriterCount | .leaveWriter _ _ (.storeWriterCount _) => true
  | _ => false

/-- A reader is in its critical section from the store of its `ReaderCount++`
until the store of the matching decrement. -/
def readerInside : Phase solution3 B → Bool
  | .enterReader _ .upMutex | .criticalReader _ _ | .leaveReader _ _ .downMutex
  | .leaveReader _ _ .loadReaderCount | .leaveReader _ _ (.storeReaderCount _) => true
  | _ => false

/-- A reader that has taken a unit of `SemaphoreReader` and still counts itself
as waiting. -/
def readerGranted : Phase solution3 B → Bool
  | .enterReader _ .downMutexGranted | .enterReader _ .loadGranted
  | .enterReader _ (.storeGranted _) => true
  | _ => false

end Kboard.Sync.Solution3
