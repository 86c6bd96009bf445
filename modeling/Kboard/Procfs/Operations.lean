import Kboard.Sync.Observer
import Mathlib.Logic.Function.Basic

/-!
# The operations of the kboard module

`KboardWriter_Write`, `KboardWriter_Show` and `KboardReader_Show` between their
Enter and their Leave, one load or store at a time. `RingBuffer` is addressed
by integers as in C, so an index outside the array would be visible as such.
The statistics counters are `int`s that wrap around. `mdelay` and `printk` have
no effect on the data and are left out.
-/

set_option autoImplicit false

namespace Kboard.Procfs

open Concurrency Sync

def ringBufferSize : Int := 5
def ringBufferInitValue : Int := -1
def eperm : Int := 1

structure Board where
  ringBuffer : Int → Int
  ringBufferCount : Int
  ringBufferCurrentIndex : Int
  performWriter : BitVec 32
  performReader : BitVec 32

def Board.zero : Board := ⟨fun _ => 0, 0, 0, 0, 0⟩

/-- The loop of `InitializeKboard` over the slots, then its assignments. -/
def initializeKboard (k : Board) : Board where
  ringBuffer := (List.range ringBufferSize.toNat).foldl
    (fun ring index => Function.update ring (index : Int) ringBufferInitValue) k.ringBuffer
  ringBufferCount := 0
  ringBufferCurrentIndex := 0
  performWriter := 0
  performReader := 0

def SameRing (k k' : Board) : Prop :=
  k'.ringBuffer = k.ringBuffer ∧ k'.ringBufferCount = k.ringBufferCount ∧
    k'.ringBufferCurrentIndex = k.ringBufferCurrentIndex

theorem SameRing.refl (k : Board) : SameRing k k := ⟨rfl, rfl, rfl⟩

theorem SameRing.trans {k k' k'' : Board} (first : SameRing k k') (second : SameRing k' k'') :
    SameRing k k'' :=
  ⟨second.1.trans first.1, second.2.1.trans first.2.1, second.2.2.trans first.2.2⟩

/-- What a writer operation returns, and the item `KboardWriter_Show` prints. -/
structure WriterResult where
  status : Int
  item : Option Int
  deriving DecidableEq

/-! ## KboardWriter_Show -/

inductive ShowPoint where
  | loadPerformWriter
  | storePerformWriter (loaded : BitVec 32)
  | testCount
  | loadItemIndex
  | loadItem (index : Int)
  | loadClearIndex (item : Int)
  | clearSlot (item index : Int)
  | loadCount (item : Int)
  | storeCount (item loaded : Int)
  | loadCurrentIndex (item : Int)
  | storeCurrentIndex (item loaded : Int)

def kboardWriterShow (k : Board) : ShowPoint → Board × Control ShowPoint WriterResult
  | .loadPerformWriter => (k, .goto (.storePerformWriter k.performWriter))
  | .storePerformWriter loaded => ({ k with performWriter := loaded + 1 }, .goto .testCount)
  | .testCount =>
      (k, if k.ringBufferCount ≤ 0 then .ret ⟨-eperm, none⟩ else .goto .loadItemIndex)
  | .loadItemIndex => (k, .goto (.loadItem k.ringBufferCurrentIndex))
  | .loadItem index => (k, .goto (.loadClearIndex (k.ringBuffer index)))
  | .loadClearIndex item => (k, .goto (.clearSlot item k.ringBufferCurrentIndex))
  | .clearSlot item index =>
      ({ k with ringBuffer := Function.update k.ringBuffer index ringBufferInitValue },
        .goto (.loadCount item))
  | .loadCount item => (k, .goto (.storeCount item k.ringBufferCount))
  | .storeCount item loaded =>
      ({ k with ringBufferCount := loaded - 1 }, .goto (.loadCurrentIndex item))
  | .loadCurrentIndex item => (k, .goto (.storeCurrentIndex item k.ringBufferCurrentIndex))
  | .storeCurrentIndex item loaded =>
      ({ k with ringBufferCurrentIndex := (loaded + 1).tmod ringBufferSize }, .ret ⟨0, some item⟩)

/-! ## KboardWriter_Write

From the point where `item` has been parsed and found not to be negative. -/

inductive WritePoint where
  | loadPerformWriter
  | storePerformWriter (loaded : BitVec 32)
  | testCount
  | loadCurrentIndex
  | loadTailCount (index : Int)
  | storeItem (slot : Int)
  | loadCount
  | storeCount (loaded : Int)

def kboardWriterWrite (item length : Nat) (k : Board) :
    WritePoint → Board × Control WritePoint WriterResult
  | .loadPerformWriter => (k, .goto (.storePerformWriter k.performWriter))
  | .storePerformWriter loaded => ({ k with performWriter := loaded + 1 }, .goto .testCount)
  | .testCount =>
      (k, if k.ringBufferCount ≥ ringBufferSize then .ret ⟨-eperm, none⟩
        else .goto .loadCurrentIndex)
  | .loadCurrentIndex => (k, .goto (.loadTailCount k.ringBufferCurrentIndex))
  | .loadTailCount index =>
      (k, .goto (.storeItem ((index + k.ringBufferCount).tmod ringBufferSize)))
  | .storeItem slot =>
      ({ k with ringBuffer := Function.update k.ringBuffer slot item }, .goto .loadCount)
  | .loadCount => (k, .goto (.storeCount k.ringBufferCount))
  | .storeCount loaded => ({ k with ringBufferCount := loaded + 1 }, .ret ⟨length, none⟩)

/-! ## KboardReader_Show -/

structure ReaderResult where
  index : Int
  item : Int
  deriving DecidableEq

inductive ReaderPoint where
  | loadPerformReader
  | storePerformReader (loaded : BitVec 32)
  | loadItem

def kboardReaderShow (randomIndex : Int) (k : Board) :
    ReaderPoint → Board × Control ReaderPoint ReaderResult
  | .loadPerformReader => (k, .goto (.storePerformReader k.performReader))
  | .storePerformReader loaded => ({ k with performReader := loaded + 1 }, .goto .loadItem)
  | .loadItem => (k, .ret ⟨randomIndex, k.ringBuffer randomIndex⟩)

/-! ## The operations together -/

inductive WriterCall where
  | write (item length : Nat)
  | read
  deriving DecidableEq

inductive WriterBody where
  | write (item length : Nat) (point : WritePoint)
  | read (point : ShowPoint)

structure ReaderBody where
  randomIndex : Int
  point : ReaderPoint

def writerStart : WriterCall → WriterBody
  | .write item length => .write item length .loadPerformWriter
  | .read => .read .loadPerformWriter

/-- The random bytes are drawn and reduced before the Enter. -/
def readerStart (randomBytes : BitVec 32) : ReaderBody :=
  ⟨randomBytes.toNat % ringBufferSize.toNat, .loadPerformReader⟩

def writerStep (k : Board) : WriterBody → Board × Control WriterBody WriterResult
  | .write item length point =>
      match kboardWriterWrite item length k point with
      | (k, .goto point) => (k, .goto (.write item length point))
      | (k, .ret result) => (k, .ret result)
  | .read point =>
      match kboardWriterShow k point with
      | (k, .goto point) => (k, .goto (.read point))
      | (k, .ret result) => (k, .ret result)

theorem writerStep_write_data (k : Board) (item length : Nat) (point : WritePoint) :
    (writerStep k (.write item length point)).1 = (kboardWriterWrite item length k point).1 := by
  simp only [writerStep]
  generalize kboardWriterWrite item length k point = outcome
  obtain ⟨next, control⟩ := outcome
  cases control <;> rfl

theorem writerStep_read_data (k : Board) (point : ShowPoint) :
    (writerStep k (.read point)).1 = (kboardWriterShow k point).1 := by
  simp only [writerStep]
  generalize kboardWriterShow k point = outcome
  obtain ⟨next, control⟩ := outcome
  cases control <;> rfl

def readerStep (k : Board) (body : ReaderBody) : Board × Control ReaderBody ReaderResult :=
  match kboardReaderShow body.randomIndex k body.point with
  | (k, .goto point) => (k, .goto { body with point })
  | (k, .ret result) => (k, .ret result)

abbrev kboardOperations : Operations where
  Data := Board
  WriterCall := WriterCall
  ReaderCall := BitVec 32
  WriterBody := WriterBody
  ReaderBody := ReaderBody
  WriterResult := WriterResult
  ReaderResult := ReaderResult
  writerStart := writerStart
  readerStart := readerStart
  writerStep := writerStep
  readerStep := readerStep

/-- A piece of a schedule: the thread takes that many steps of its operation. -/
def steps (thread : Thread) (count : Nat) : List (Thread × Action kboardOperations) :=
  List.replicate count (thread, .advance)

/-- The same beside an observer, and that many steps of the observer. -/
def operates (thread : Thread) (count : Nat) : List (Thread × CallerAction kboardOperations) :=
  List.replicate count (thread, .operation .advance)

def observes (thread : Thread) (count : Nat) : List (Thread × CallerAction kboardOperations) :=
  List.replicate count (thread, .observe)

end Kboard.Procfs
