import Kboard.Concurrency.Lock
import Kboard.Sync.System

/-!
# SYNC_SOLUTION 1

Writers hold `SemaphoreWriter` for the whole critical section. Readers count
themselves under `SemaphoreMutex`; the first takes `SemaphoreWriter` for all of
them and the last gives it back. `ReaderCount` is a plain variable: `++`, `--`
and the comparisons are separate loads and stores.

The C counter is an `int`. It is never negative and never exceeds the number of
threads (`readerCount_bounds`), so it is an `Int` here.
-/

set_option autoImplicit false

namespace Kboard.Sync.Solution1

open Concurrency

structure Variables where
  semaphoreMutex : Nat
  semaphoreWriter : Nat
  readerCount : Int

def initializeSyncSolution : Variables where
  semaphoreMutex := 1
  semaphoreWriter := 1
  readerCount := 0

inductive EnterWriter where
  | downWriter

inductive EnterReader where
  | downMutex
  | loadReaderCount
  | storeReaderCount (loaded : Int)
  | testReaderCount
  | downWriter
  | upMutex

inductive LeaveWriter where
  | upWriter

inductive LeaveReader where
  | downMutex
  | loadReaderCount
  | storeReaderCount (loaded : Int)
  | testReaderCount
  | upWriter
  | upMutex

def enterCriticalSectionWriter (s : Variables) :
    EnterWriter → Option (Variables × Control EnterWriter Unit)
  | .downWriter => (down s.semaphoreWriter).map fun semaphoreWriter =>
      ({ s with semaphoreWriter }, .ret ())

def enterCriticalSectionReader (s : Variables) :
    EnterReader → Option (Variables × Control EnterReader Unit)
  | .downMutex => (down s.semaphoreMutex).map fun semaphoreMutex =>
      ({ s with semaphoreMutex }, .goto .loadReaderCount)
  | .loadReaderCount => some (s, .goto (.storeReaderCount s.readerCount))
  | .storeReaderCount loaded => some ({ s with readerCount := loaded + 1 }, .goto .testReaderCount)
  | .testReaderCount => some (s, .goto (if s.readerCount = 1 then .downWriter else .upMutex))
  | .downWriter => (down s.semaphoreWriter).map fun semaphoreWriter =>
      ({ s with semaphoreWriter }, .goto .upMutex)
  | .upMutex => some ({ s with semaphoreMutex := up s.semaphoreMutex }, .ret ())

def leaveCriticalSectionWriter (s : Variables) :
    LeaveWriter → Option (Variables × Control LeaveWriter Unit)
  | .upWriter => some ({ s with semaphoreWriter := up s.semaphoreWriter }, .ret ())

def leaveCriticalSectionReader (s : Variables) :
    LeaveReader → Option (Variables × Control LeaveReader Unit)
  | .downMutex => (down s.semaphoreMutex).map fun semaphoreMutex =>
      ({ s with semaphoreMutex }, .goto .loadReaderCount)
  | .loadReaderCount => some (s, .goto (.storeReaderCount s.readerCount))
  | .storeReaderCount loaded => some ({ s with readerCount := loaded - 1 }, .goto .testReaderCount)
  | .testReaderCount => some (s, .goto (if s.readerCount = 0 then .upWriter else .upMutex))
  | .upWriter => some ({ s with semaphoreWriter := up s.semaphoreWriter }, .goto .upMutex)
  | .upMutex => some ({ s with semaphoreMutex := up s.semaphoreMutex }, .ret ())

abbrev solution1 : SyncSolution where
  Variables := Variables
  EnterWriter := EnterWriter
  EnterReader := EnterReader
  LeaveWriter := LeaveWriter
  LeaveReader := LeaveReader
  initializeSyncSolution := initializeSyncSolution
  enterWriterEntry := .downWriter
  enterReaderEntry := .downMutex
  leaveWriterEntry := .upWriter
  leaveReaderEntry := .downMutex
  enterCriticalSectionWriter := enterCriticalSectionWriter
  enterCriticalSectionReader := enterCriticalSectionReader
  leaveCriticalSectionWriter := leaveCriticalSectionWriter
  leaveCriticalSectionReader := leaveCriticalSectionReader

variable {B : Operations}

/-! ## Critical sections -/

/-- A writer is in its critical section from the return of its Enter until its
Leave executes `up(&SemaphoreWriter)`. -/
def writerInside : Phase solution1 B → Bool
  | .criticalWriter _ _ | .leaveWriter _ _ .upWriter => true
  | _ => false

theorem not_writerInside_enteredReader (call : B.ReaderCall) (control : Control EnterReader Unit) :
    ¬ writerInside (Phase.enteredReader call control : Phase solution1 B) := by
  cases control <;> exact Bool.false_ne_true

theorem not_writerInside_workedReader (call : B.ReaderCall)
    (control : Control B.ReaderBody B.ReaderResult) :
    ¬ writerInside (Phase.workedReader call control : Phase solution1 B) := by
  cases control <;> exact Bool.false_ne_true

theorem not_writerInside_leftReader (call : B.ReaderCall) (result : B.ReaderResult)
    (control : Control LeaveReader Unit) :
    ¬ writerInside (Phase.leftReader call result control : Phase solution1 B) := by
  cases control <;> exact Bool.false_ne_true

/-- A reader is in its critical section from the return of its Enter until its
Leave stores the decremented `ReaderCount`. -/
def readerInside : Phase solution1 B → Bool
  | .criticalReader _ _ | .leaveReader _ _ .downMutex | .leaveReader _ _ .loadReaderCount
  | .leaveReader _ _ (.storeReaderCount _) => true
  | _ => false

end Kboard.Sync.Solution1
