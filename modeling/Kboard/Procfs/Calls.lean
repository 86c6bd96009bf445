import Kboard.Procfs.Operations
import Kboard.Text.Decimal

/-!
# KboardWriter_Write and KboardWriter_Show as a user sees them

A write hands over bytes. `KboardWriter_Write` copies them to the start of a
buffer on its stack and lets `sscanf` look for a number there. The buffer is
not initialised, and nothing marks the end of what was copied: the scan goes on
into whatever the stack held before. The operation itself runs by itself here,
between its Enter and its Leave, by the steps it takes among others.
-/

set_option autoImplicit false

namespace Kboard.Procfs

open Concurrency Text

def writerBufferSize : Nat := 20
def e2big : Int := 7
def efault : Int := 14
def einval : Int := 22

/-! ## The scan -/

/-- `isspace` of the kernel's character table. -/
def isSpace (b : UInt8) : Bool := 9 ≤ b.toNat && b.toNat ≤ 13 || b.toNat == 32 || b.toNat == 160

def minus : UInt8 := 45

def dropSign : List UInt8 → List UInt8
  | [] => []
  | b :: rest => if b = minus then rest else b :: rest

def signed (text : List UInt8) : Bool := text.head? == some minus

/-- The 64-bit value of the sign and the digits, truncated to an `int`. -/
def scannedInt (negative : Bool) (digits : List UInt8) : Int :=
  ((if negative then -accumulate 64 digits else accumulate 64 digits).setWidth 32).toInt

/-- `sscanf(buffer, "%d", &item)` on the memory from `buffer` on, with `none`
for a return value other than 1. The end of the list stands for a NUL, which is
neither white space nor a digit and so ends the scan like any other byte. -/
def sscanf (memory : List UInt8) : Option Int :=
  let text := memory.dropWhile isSpace
  let digits := (dropSign text).takeWhile isDigit
  if digits = [] then none else some (scannedInt (signed text) digits)

/-! ## The calls -/

/-- What the stack holds from the address of `buffer` on. -/
structure Stack where
  bytes : List UInt8
  holdsBuffer : writerBufferSize ≤ bytes.length

def copyFromUser (stack : Stack) (data : List UInt8) : List UInt8 :=
  data ++ stack.bytes.drop data.length

/-- Run a writer operation from a point of its body to its end. -/
def runWriter : Nat → Board → WriterBody → Option (Board × WriterResult)
  | 0, _, _ => none
  | fuel + 1, k, body =>
      match writerStep k body with
      | (k, .ret result) => some (k, result)
      | (k, .goto body) => runWriter fuel k body

/-- No operation takes more than 11 steps between its Enter and its Leave. -/
def callWriter (k : Board) (call : WriterCall) : Option (Board × WriterResult) :=
  runWriter 11 k (writerStart call)

/-- `KboardWriter_Write`; `copies` says whether `copy_from_user` copies all bytes. -/
def kboardWriterWriteCall (k : Board) (stack : Stack) (data : List UInt8) (copies : Bool) :
    Option (Board × Int) :=
  if data.length > writerBufferSize then some (k, -e2big)
  else if copies = false then some (k, -efault)
  else
    match sscanf (copyFromUser stack data) with
    | none => some (k, -einval)
    | some item =>
        if item < 0 then some (k, -einval)
        else (callWriter k (.write item.toNat data.length)).map fun (k, result) =>
          (k, result.status)

/-- `%d` of `seq_printf`. -/
def formatInt (item : Int) : List UInt8 :=
  if item < 0 then minus :: numeral item.natAbs else numeral item.natAbs

def bytes (text : String) : List UInt8 := text.toList.map fun c => UInt8.ofNat c.toNat

/-- `seq_printf(file, "Paste: '%d'\n", item)`. -/
def pasteText (item : Int) : List UInt8 := bytes "Paste: \x27" ++ formatInt item ++ bytes "\x27\n"

/-- `KboardWriter_Show`, with its return value and what it prints. -/
def kboardWriterShowCall (k : Board) : Option (Board × Int × List UInt8) :=
  (callWriter k .read).map fun (k, result) =>
    (k, result.status, (result.item.map pasteText).getD [])

end Kboard.Procfs
