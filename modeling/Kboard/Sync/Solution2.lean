import Kboard.Concurrency.Lock
import Kboard.Sync.System

/-!
# SYNC_SOLUTION 2

Writers first count themselves under `SemaphoreWriterMutex`; the first of them
closes the gate `SemaphoreReader` in front of new readers and the last opens
it. Readers pass the gate, then count themselves under `SemaphoreReaderMutex`
and hold `SemaphoreWriter` together. Both counters are plain variables, `Int`
here because they are never negative and never exceed the number of threads
(`readerCount_bounds`, `writerCount_bounds`).
-/

set_option autoImplicit false

namespace Kboard.Sync.Solution2

open Concurrency

structure Variables where
  semaphoreWriterMutex : Nat
  semaphoreReaderMutex : Nat
  semaphoreWriter : Nat
  semaphoreReader : Nat
  writerCount : Int
  readerCount : Int

def initializeSyncSolution : Variables where
  semaphoreWriterMutex := 1
  semaphoreReaderMutex := 1
  semaphoreWriter := 1
  semaphoreReader := 1
  writerCount := 0
  readerCount := 0

inductive EnterWriter where
  | downWriterMutex
  | loadWriterCount
  | storeWriterCount (loaded : Int)
  | testWriterCount
  | downReader
  | upWriterMutex
  | downWriter

inductive EnterReader where
  | downReader
  | upReader
  | downReaderMutex
  | loadReaderCount
  | storeReaderCount (loaded : Int)
  | testReaderCount
  | downWriter
  | upReaderMutex

inductive LeaveWriter where
  | upWriter
  | downWriterMutex
  | loadWriterCount
  | storeWriterCount (loaded : Int)
  | testWriterCount
  | upReader
  | upWriterMutex

inductive LeaveReader where
  | downReaderMutex
  | loadReaderCount
  | storeReaderCount (loaded : Int)
  | testReaderCount
  | upWriter
  | upReaderMutex

def enterCriticalSectionWriter (s : Variables) :
    EnterWriter → Option (Variables × Control EnterWriter Unit)
  | .downWriterMutex => (down s.semaphoreWriterMutex).map fun semaphoreWriterMutex =>
      ({ s with semaphoreWriterMutex }, .goto .loadWriterCount)
  | .loadWriterCount => some (s, .goto (.storeWriterCount s.writerCount))
  | .storeWriterCount loaded => some ({ s with writerCount := loaded + 1 }, .goto .testWriterCount)
  | .testWriterCount => some (s, .goto (if s.writerCount = 1 then .downReader else .upWriterMutex))
  | .downReader => (down s.semaphoreReader).map fun semaphoreReader =>
      ({ s with semaphoreReader }, .goto .upWriterMutex)
  | .upWriterMutex =>
      some ({ s with semaphoreWriterMutex := up s.semaphoreWriterMutex }, .goto .downWriter)
  | .downWriter => (down s.semaphoreWriter).map fun semaphoreWriter =>
      ({ s with semaphoreWriter }, .ret ())

def enterCriticalSectionReader (s : Variables) :
    EnterReader → Option (Variables × Control EnterReader Unit)
  | .downReader => (down s.semaphoreReader).map fun semaphoreReader =>
      ({ s with semaphoreReader }, .goto .upReader)
  | .upReader => some ({ s with semaphoreReader := up s.semaphoreReader }, .goto .downReaderMutex)
  | .downReaderMutex => (down s.semaphoreReaderMutex).map fun semaphoreReaderMutex =>
      ({ s with semaphoreReaderMutex }, .goto .loadReaderCount)
  | .loadReaderCount => some (s, .goto (.storeReaderCount s.readerCount))
  | .storeReaderCount loaded => some ({ s with readerCount := loaded + 1 }, .goto .testReaderCount)
  | .testReaderCount => some (s, .goto (if s.readerCount = 1 then .downWriter else .upReaderMutex))
  | .downWriter => (down s.semaphoreWriter).map fun semaphoreWriter =>
      ({ s with semaphoreWriter }, .goto .upReaderMutex)
  | .upReaderMutex => some ({ s with semaphoreReaderMutex := up s.semaphoreReaderMutex }, .ret ())

def leaveCriticalSectionWriter (s : Variables) :
    LeaveWriter → Option (Variables × Control LeaveWriter Unit)
  | .upWriter => some ({ s with semaphoreWriter := up s.semaphoreWriter }, .goto .downWriterMutex)
  | .downWriterMutex => (down s.semaphoreWriterMutex).map fun semaphoreWriterMutex =>
      ({ s with semaphoreWriterMutex }, .goto .loadWriterCount)
  | .loadWriterCount => some (s, .goto (.storeWriterCount s.writerCount))
  | .storeWriterCount loaded => some ({ s with writerCount := loaded - 1 }, .goto .testWriterCount)
  | .testWriterCount => some (s, .goto (if s.writerCount = 0 then .upReader else .upWriterMutex))
  | .upReader => some ({ s with semaphoreReader := up s.semaphoreReader }, .goto .upWriterMutex)
  | .upWriterMutex => some ({ s with semaphoreWriterMutex := up s.semaphoreWriterMutex }, .ret ())

def leaveCriticalSectionReader (s : Variables) :
    LeaveReader → Option (Variables × Control LeaveReader Unit)
  | .downReaderMutex => (down s.semaphoreReaderMutex).map fun semaphoreReaderMutex =>
      ({ s with semaphoreReaderMutex }, .goto .loadReaderCount)
  | .loadReaderCount => some (s, .goto (.storeReaderCount s.readerCount))
  | .storeReaderCount loaded => some ({ s with readerCount := loaded - 1 }, .goto .testReaderCount)
  | .testReaderCount => some (s, .goto (if s.readerCount = 0 then .upWriter else .upReaderMutex))
  | .upWriter => some ({ s with semaphoreWriter := up s.semaphoreWriter }, .goto .upReaderMutex)
  | .upReaderMutex => some ({ s with semaphoreReaderMutex := up s.semaphoreReaderMutex }, .ret ())

abbrev solution2 : SyncSolution where
  Variables := Variables
  EnterWriter := EnterWriter
  EnterReader := EnterReader
  LeaveWriter := LeaveWriter
  LeaveReader := LeaveReader
  initializeSyncSolution := initializeSyncSolution
  enterWriterEntry := .downWriterMutex
  enterReaderEntry := .downReader
  leaveWriterEntry := .upWriter
  leaveReaderEntry := .downReaderMutex
  enterCriticalSectionWriter := enterCriticalSectionWriter
  enterCriticalSectionReader := enterCriticalSectionReader
  leaveCriticalSectionWriter := leaveCriticalSectionWriter
  leaveCriticalSectionReader := leaveCriticalSectionReader

variable {B : Operations}

/-! ## Critical sections -/

/-- A writer is in its critical section from the return of its Enter until its
Leave executes `up(&SemaphoreWriter)`. -/
def writerInside : Phase solution2 B → Bool
  | .criticalWriter _ _ | .leaveWriter _ _ .upWriter => true
  | _ => false

/-- A reader is in its critical section from the return of its Enter until its
Leave stores the decremented `ReaderCount`. -/
def readerInside : Phase solution2 B → Bool
  | .criticalReader _ _ | .leaveReader _ _ .downReaderMutex | .leaveReader _ _ .loadReaderCount
  | .leaveReader _ _ (.storeReaderCount _) => true
  | _ => false

end Kboard.Sync.Solution2
