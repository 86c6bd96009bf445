import Kboard.Procfs.Calls
import Kboard.Syscall.Reinitialisation
import Kboard.Syscall.SyncTest
import Mathlib.Data.List.TakeWhile

/-!
# The programs copy, paste and init

Users run the three programs from any number of shells at once. Each makes one
system call by way of the library in `kboard.c`, prints a line and ends. What is
local to a program (reading its argument, choosing what to print) happens in the
step before the call and in the step after it.
-/

set_option autoImplicit false

namespace Kboard.Syscall.Programs

open Concurrency Queue Text
open Procfs (bytes formatInt minus)
open SyncTest (syscallResult syscallResult_eq_zero_iff step_running serve_answered)

/-! ## The library functions -/

/-- `isspace` of the C locale. -/
def isSpace (b : UInt8) : Bool := 9 ≤ b.toNat && b.toNat ≤ 13 || b.toNat == 32

def plus : UInt8 := 43

def dropSign : List UInt8 → List UInt8
  | [] => []
  | b :: rest => if b = minus ∨ b = plus then rest else b :: rest

/-- `strtol(text, NULL, 10)`, which stops at the ends of a 64-bit `long`. -/
def strtol (text : List UInt8) : Int :=
  let text := text.dropWhile isSpace
  let number : Int := value ((dropSign text).takeWhile isDigit)
  if text.head? = some minus then max (-2 ^ 63) (-number) else min number (2 ^ 63 - 1)

/-- `atoi` keeps the lower 32 bits of that. -/
def atoi (text : List UInt8) : Int := (strtol text).bmod (2 ^ 32)

/-! ## The programs -/

/-- A program with its arguments. `clipBoardValue` is what the stack holds in the
variable of that name before it is assigned, and `copies` says whether
`copy_to_user` will succeed for it. -/
inductive Command where
  | copy (arguments : List (List UInt8))
  | paste (clipBoardValue : Int) (copies : Bool)
  | init

/-- What a program prints and the status with which it ends. -/
structure Report where
  output : List UInt8
  status : Int
  deriving DecidableEq

def copyUsage : Report := ⟨bytes "Insert value for copy to clip board\n", -1⟩

def copyFailure : Report := ⟨bytes "Copy failed, KBoard is full or invalid clip\n", -1⟩

def copySuccess (userInput : Int) : Report :=
  ⟨bytes "Copy success, value: \x27" ++ formatInt userInput ++ bytes "\x27\n", 0⟩

def pasteFailure : Report := ⟨bytes "Paste failed, KBoard is empty\n", -1⟩

def pasteInvalid (clipBoardValue : Int) : Report :=
  ⟨bytes "Paste failed, Invalid value received, value: \x27" ++ formatInt clipBoardValue ++
    bytes "\x27\n", -1⟩

def pasteSuccess (clipBoardValue : Int) : Report :=
  ⟨bytes "Paste success, value: \x27" ++ formatInt clipBoardValue ++ bytes "\x27\n", 0⟩

def copyReport (userInput copyResult : Int) : Report :=
  if copyResult ≠ 0 then copyFailure else copySuccess userInput

def pasteReport (clipBoardValue pasteResult : Int) : Report :=
  if pasteResult ≠ 0 then pasteFailure
  else if clipBoardValue < 0 then pasteInvalid clipBoardValue
  else pasteSuccess clipBoardValue

namespace Command

/-- The system call that the program makes; `copy` needs an argument for it. -/
def call : Command → Option Call
  | .copy [] => none
  | .copy (argument :: _) => some (.enqueue (atoi argument))
  | .paste _ copies => some (.dequeue copies)
  | .init => some .init

/-- What the program makes of the result of its call. -/
def report : Command → Result → Report
  | .copy [], _ => copyUsage
  | .copy (argument :: _), result => copyReport (atoi argument) (syscallResult result.status)
  | .paste clipBoardValue _, result =>
      pasteReport (result.item.getD clipBoardValue) (syscallResult result.status)
  | .init, _ => ⟨[], 0⟩

end Command

/-! ## Processes -/

inductive Process where
  | shell
  | running (command : Command) (phase : Phase)
  | exited (command : Command) (report : Report)

inductive ProcessAction where
  | run (command : Command)
  | advance

def main (command : Command) : Process :=
  match command.call with
  | none => .exited command copyUsage
  | some call => .running command (start call)

def step (s : Variables) : Process → ProcessAction → Option (Variables × Process)
  | .shell, .run command => some (s, main command)
  | .running command (.returned _ result), .advance =>
      some (s, .exited command (command.report result))
  | .running command phase, .advance => (Syscall.step s phase .advance).map fun (s, phase) =>
      (s, .running command phase)
  | .exited _ _, .advance => some (s, .shell)
  | _, _ => none

def program : Program Variables Process := Program.ofStep step

def initial {ι : Type} (origin : Variables) : Config ι Variables Process :=
  Config.uniform origin .shell

/-- What the kernel sees of a process. -/
def view : Process → Phase
  | .running _ phase => phase
  | .shell | .exited _ _ => .idle

/-! ## What a step can do -/

/-- The item that a copy is about to store in `Ring`. -/
def storedBy : Process → Option Int
  | .running (.copy (argument :: _)) (.running (.enqueue _ (.storeItem _))) => some (atoi argument)
  | _ => none

/-- The item that `kboard_copy` is back from with 0. -/
def copiedBy : Process → Option Int
  | .running (.copy (argument :: _)) (.returned _ result) =>
      if result.status = 0 then some (atoi argument) else none
  | _ => none

/-- The item that `kboard_paste` has brought. -/
def pastedBy : Process → Option Int
  | .running (.paste _ _) (.returned _ result) => result.item
  | _ => none

section

variable {ι : Type} {moves : List (Move ι Process)} {config : Config ι Variables Process}
  {origin : Variables}

def stored (moves : List (Move ι Process)) : List Int :=
  moves.filterMap fun move => storedBy move.source

/-- In the order in which `kboard_copy` returns. -/
def copied (moves : List (Move ι Process)) : List Int :=
  moves.filterMap fun move => copiedBy move.target

def pasted (moves : List (Move ι Process)) : List Int :=
  moves.filterMap fun move => pastedBy move.target

/-- The calls that have returned, with their results. -/
def answers (moves : List (Move ι Process)) : List (Call × Result) :=
  moves.filterMap fun move => outcome (view move.target)

/-- What is known of the programs that have got a result. -/
def Reported (answers : List (Call × Result)) : Process → Prop
  | .running _ (.returned call result) => (call, result) ∈ answers
  | .exited command report => command.call = none ∧ report = copyUsage ∨
      ∃ call result, command.call = some call ∧ (call, result) ∈ answers ∧
        report = command.report result
  | _ => True

theorem Reported.mono {earlier later : List (Call × Result)} {process : Process}
    (reported : Reported earlier process) (more : ∀ entry ∈ earlier, entry ∈ later) :
    Reported later process := by
  cases process with
  | shell => trivial
  | running command phase =>
      cases phase with
      | idle | running => trivial
      | returned call result => exact more _ reported
  | exited command report =>
      rcases reported with usage | ⟨call, result, made, member, same⟩
      · exact .inl usage
      · exact .inr ⟨call, result, made, more _ member, same⟩

variable [DecidableEq ι]

variable {permitted : Config ι Variables Phase → Move ι Phase → Prop}

/-- A piece of a schedule: the process takes that many steps of its program. -/
def advances (thread : Thread) (count : Nat) : List (Thread × ProcessAction) :=
  List.replicate count (thread, .advance)

/-- Thread 1 has copied 7 and is pasting it when thread 0 breaks in with `init`. -/
def brokenSchedule : List (Thread × ProcessAction) :=
  (.t1, .run (.copy [[55]])) :: advances .t1 10 ++
    (.t1, .run (.paste 0 true)) :: advances .t1 3 ++
    (.t0, .run .init) :: advances .t0 7 ++ advances .t1 9

theorem paste_reports_invalid :
    ∃ config : Config Thread _ _, Reachable program (initial boot) config ∧
      config.thread .t1 = .exited (.paste 0 true) (pasteInvalid (-1)) := by
  have run := execute_sound (Option.some_get (show (execute step (fun _ _ => True) (initial boot)
    brokenSchedule).isSome = true from rfl)).symm
  exact ⟨_, run.reachable, rfl⟩

end

/-! ## What reaches the kernel -/

private theorem atoi_of_digits {digits : List UInt8} (allDigits : ∀ b ∈ digits, isDigit b)
    (nonempty : digits ≠ []) :
    atoi digits = (min (value digits : Int) (2 ^ 63 - 1)).bmod (2 ^ 32) ∧
      atoi (minus :: digits) = (max (-2 ^ 63) (-(value digits : Int))).bmod (2 ^ 32) := by
  obtain ⟨first, rest, rfl⟩ := List.exists_cons_of_ne_nil nonempty
  have digit := allDigits first List.mem_cons_self
  simp only [isDigit, Bool.and_eq_true, decide_eq_true_eq] at digit
  have noSpace : ¬ isSpace first := by
    simp only [isSpace, Bool.or_eq_true, Bool.and_eq_true, decide_eq_true_eq, beq_iff_eq]
    omega
  have noSign : ¬ (first = minus ∨ first = plus) := by
    rintro (rfl | rfl)
    · exact absurd digit (by decide)
    · exact absurd digit (by decide)
  have all : (first :: rest).takeWhile isDigit = first :: rest :=
    List.takeWhile_eq_self_iff.mpr allDigits
  constructor
  · rw [atoi, strtol, List.dropWhile_cons_of_neg noSpace, dropSign, if_neg noSign, all]
    simp [mt Or.inl noSign]
  · have noSpaceSign : ¬ isSpace minus := by decide
    have sign : minus = minus ∨ minus = plus := .inl rfl
    rw [atoi, strtol, List.dropWhile_cons_of_neg noSpaceSign, List.head?_cons, if_pos rfl, dropSign,
      if_pos sign, all]

/-- `copy` hands the number it was given to the kernel exactly when that is an
`int`. Any other number is replaced by one that may well be accepted. -/
theorem copy_argument_iff (n : Nat) :
    ((Command.copy [numeral n]).call = some (.enqueue n) ↔ n < 2 ^ 31) ∧
      ((Command.copy [minus :: numeral n]).call = some (.enqueue (-n)) ↔ n ≤ 2 ^ 31) := by
  obtain ⟨positive, negative⟩ := atoi_of_digits (isDigit_of_mem_numeral n) (numeral_ne_nil n)
  rw [value_numeral] at positive negative
  simp only [Command.call, positive, negative, Option.some.injEq, Call.enqueue.injEq]
  constructor
  · constructor
    · intro same
      have small : (min (n : Int) (2 ^ 63 - 1)).bmod (2 ^ 32) < _ := Int.bmod_lt (by decide)
      rw [same] at small
      omega
    · intro fits
      rw [min_eq_left (by omega)]
      exact Int.bmod_eq_of_le (by omega) (by omega)
  · constructor
    · intro same
      have large : _ ≤ (max (-2 ^ 63) (-(n : Int))).bmod (2 ^ 32) := Int.le_bmod (by decide)
      rw [same] at large
      omega
    · intro fits
      rw [max_eq_right (by omega)]
      exact Int.bmod_eq_of_le (by omega) (by omega)

end Kboard.Syscall.Programs
