import Kboard.Procfs.Calls
import Kboard.Procfs.Linearization
import Mathlib.Data.List.TakeWhile

/-! What becomes of the bytes of a write. Where the scan stops inside the copied
bytes, the stack has no say. Where it does not, the stack can make of them any
number it likes. A number that is found is reduced to 32 bits before its sign is
looked at. -/

set_option autoImplicit false

namespace Kboard.Procfs

open Concurrency Queue Sync Sync.Solution1 Text

/-! ## Where the scan stops -/

/-- What is left of the bytes after white space, sign and digits. -/
def unscanned (data : List UInt8) : List UInt8 :=
  (dropSign (data.dropWhile isSpace)).dropWhile isDigit

private theorem dropSign_append {text : List UInt8} (nonempty : text ≠ []) (suffix : List UInt8) :
    dropSign (text ++ suffix) = dropSign text ++ suffix := by
  cases text with
  | nil => exact absurd rfl nonempty
  | cons b rest =>
      simp only [List.cons_append, dropSign]
      split <;> rfl

private theorem signed_append {text : List UInt8} (nonempty : text ≠ []) (suffix : List UInt8) :
    signed (text ++ suffix) = signed text := by
  cases text with
  | nil => exact absurd rfl nonempty
  | cons b rest => rfl

private theorem text_ne_nil_of_unscanned {data : List UInt8} (stops : unscanned data ≠ []) :
    data.dropWhile isSpace ≠ [] := by
  intro empty
  rw [unscanned, empty] at stops
  exact stops rfl

private theorem dropWhile_append_of_ne_nil {p : UInt8 → Bool} {front : List UInt8}
    (stops : front.dropWhile p ≠ []) (suffix : List UInt8) :
    (front ++ suffix).dropWhile p = front.dropWhile p ++ suffix := by
  rw [List.dropWhile_append, if_neg (by simpa using stops)]

private theorem takeWhile_append_of_ne_nil {p : UInt8 → Bool} {front : List UInt8}
    (stops : front.dropWhile p ≠ []) (suffix : List UInt8) :
    (front ++ suffix).takeWhile p = front.takeWhile p := by
  rw [List.takeWhile_append, if_neg]
  intro sameLength
  apply stops
  have parts : (front.takeWhile p).length + (front.dropWhile p).length = front.length := by
    rw [← List.length_append, List.takeWhile_append_dropWhile]
  exact List.eq_nil_of_length_eq_zero (by omega)

/-- A scan that stops inside the bytes does not see what follows them. -/
private theorem sscanf_append {data : List UInt8} (stops : unscanned data ≠ [])
    (suffix : List UInt8) :
    sscanf (data ++ suffix) = sscanf data := by
  have text := text_ne_nil_of_unscanned stops
  simp only [sscanf]
  rw [dropWhile_append_of_ne_nil text, dropSign_append text, signed_append text,
    takeWhile_append_of_ne_nil stops]

private theorem not_isSpace_of_isDigit {b : UInt8} (digit : isDigit b) : ¬ isSpace b := by
  simp only [isDigit, isSpace, Bool.and_eq_true, Bool.or_eq_true, decide_eq_true_eq,
    beq_iff_eq] at digit ⊢
  omega

private theorem ne_minus_of_isDigit {b : UInt8} (digit : isDigit b) : b ≠ minus := by
  intro same
  subst same
  exact absurd digit (by decide)

private theorem takeWhile_digits {digits : List UInt8} (allDigits : ∀ b ∈ digits, isDigit b)
    {stop : UInt8}
    (stops : ¬ isDigit stop) (rest : List UInt8) :
    (digits ++ stop :: rest).takeWhile isDigit = digits := by
  rw [List.takeWhile_append_of_pos allDigits, List.takeWhile_cons_of_neg stops, List.append_nil]

/-- When the scan uses up the bytes, the digits that follow belong to the number. -/
private theorem sscanf_further_digits {data digits : List UInt8} (goesOn : unscanned data = [])
    (allDigits : ∀ b ∈ digits, isDigit b) (nonempty : digits ≠ []) {stop : UInt8}
    (stops : ¬ isDigit stop) (rest : List UInt8) :
    sscanf (data ++ (digits ++ stop :: rest)) = some (scannedInt (signed (data.dropWhile isSpace))
      (dropSign (data.dropWhile isSpace) ++ digits)) := by
  by_cases blank : data.dropWhile isSpace = []
  · obtain ⟨first, others, rfl⟩ := List.exists_cons_of_ne_nil nonempty
    have firstDigit : isDigit first := allDigits first List.mem_cons_self
    have text : (data ++ (first :: others ++ stop :: rest)).dropWhile isSpace =
        first :: others ++ stop :: rest := by
      rw [List.dropWhile_append, if_pos (by simpa using blank), List.cons_append,
        List.dropWhile_cons_of_neg (not_isSpace_of_isDigit firstDigit)]
    have unsigned : dropSign (first :: others ++ stop :: rest) =
        first :: others ++ stop :: rest := by
      rw [List.cons_append, dropSign, if_neg (ne_minus_of_isDigit firstDigit)]
    have sign : signed (first :: others ++ stop :: rest) = false := by
      simp [signed, ne_minus_of_isDigit firstDigit]
    simp only [sscanf]
    rw [text, unsigned, sign, takeWhile_digits allDigits stops, if_neg nonempty, blank]
    rfl
  · have digitsSoFar : ∀ b ∈ dropSign (data.dropWhile isSpace), isDigit b :=
      List.dropWhile_eq_nil_iff.mp goesOn
    have allTogether : ∀ b ∈ dropSign (data.dropWhile isSpace) ++ digits, isDigit b := by
      intro b member
      rcases List.mem_append.mp member with earlier | further
      · exact digitsSoFar b earlier
      · exact allDigits b further
    simp only [sscanf]
    rw [dropWhile_append_of_ne_nil blank, dropSign_append blank, signed_append blank,
      ← List.append_assoc, takeWhile_digits allTogether stops, if_neg (by simp [nonempty])]

/-! ## The number -/

/-- The integer that a sign and digits denote. -/
def denoted (negative : Bool) (digits : List UInt8) : Int :=
  if negative then -(value digits : Int) else value digits

private theorem scannedInt_eq (negative : Bool) (digits : List UInt8) :
    scannedInt negative digits = (denoted negative digits).bmod (2 ^ 32) := by
  cases negative with
  | false =>
      simp only [scannedInt, denoted, accumulate_eq, Bool.false_eq_true, if_false]
      rw [BitVec.setWidth_ofNat_of_le (by decide), BitVec.toInt_ofNat']
  | true =>
      simp only [scannedInt, denoted, accumulate_eq, if_true]
      rw [BitVec.setWidth_neg_of_le (by decide), BitVec.setWidth_ofNat_of_le (by decide),
        BitVec.neg_ofNat_eq_ofInt_neg, BitVec.toInt_ofInt]

/-- Ten further digits can make the number anything modulo `2 ^ 32`. -/
private theorem exists_further_digits (negative : Bool) (digits : List UInt8) (target : Int) :
    ∃ n, scannedInt negative (digits ++ fixedNumeral 10 n) = target.bmod (2 ^ 32) := by
  have same {number : Int} (congruent : number % 4294967296 = target % 4294967296) :
      number.bmod (2 ^ 32) = target.bmod (2 ^ 32) := by
    rw [← Int.emod_bmod number, ← Int.emod_bmod target]
    exact congrArg (Int.bmod · (2 ^ 32)) congruent
  cases negative with
  | false =>
      refine ⟨((target - value digits * 10 ^ 10) % 4294967296).toNat, ?_⟩
      rw [scannedInt_eq, denoted, value_append_fixedNumeral digits (by omega)]
      apply same
      simp only [Bool.false_eq_true, if_false]
      push_cast
      omega
  | true =>
      refine ⟨((-target - value digits * 10 ^ 10) % 4294967296).toNat, ?_⟩
      rw [scannedInt_eq, denoted, value_append_fixedNumeral digits (by omega)]
      apply same
      simp only [if_true]
      push_cast
      omega

/-! ## Whole writes -/

/-- The board after an item was put behind the last one. -/
def Board.appended (k : Board) (item : Int) : Board :=
  { k with
    ringBuffer := Function.update k.ringBuffer
      ((k.ringBufferCurrentIndex + k.ringBufferCount).tmod ringBufferSize) item
    ringBufferCount := k.ringBufferCount + 1
    performWriter := k.performWriter + 1 }

/-- The board after the oldest item was taken out. -/
def Board.popped (k : Board) : Board :=
  { k with
    ringBuffer := Function.update k.ringBuffer k.ringBufferCurrentIndex ringBufferInitValue
    ringBufferCount := k.ringBufferCount - 1
    ringBufferCurrentIndex := (k.ringBufferCurrentIndex + 1).tmod ringBufferSize
    performWriter := k.performWriter + 1 }

/-- The board after an operation that found the ring full or empty. -/
def Board.refused (k : Board) : Board := { k with performWriter := k.performWriter + 1 }

theorem callWriter_write_full {k : Board} (full : k.ringBufferCount ≥ ringBufferSize)
    (item length : Nat) :
    callWriter k (.write item length) = some (k.refused, ⟨-eperm, none⟩) := by
  simp [callWriter, runWriter, writerStart, writerStep, kboardWriterWrite, full, Board.refused]

theorem callWriter_write {k : Board} (room : k.ringBufferCount < ringBufferSize)
    (item length : Nat) :
    callWriter k (.write item length) = some (k.appended item, ⟨length, none⟩) := by
  simp [callWriter, runWriter, writerStart, writerStep, kboardWriterWrite, not_le.mpr room,
    Board.appended]

theorem callWriter_read {k : Board} (nonempty : 0 < k.ringBufferCount) :
    callWriter k .read =
      some (k.popped, ⟨0, some (k.ringBuffer k.ringBufferCurrentIndex)⟩) := by
  simp [callWriter, runWriter, writerStart, writerStep, kboardWriterShow, not_le.mpr nonempty,
    Board.popped]

/-! ## Calls among the threads

A call that runs by itself is a run of the threads in which one of them makes
the call and the others stand still. -/

section

variable {ι : Type} [DecidableEq ι] {call : WriterCall} {k after : Board} {result : WriterResult}

theorem run_of_runWriter (thread : ι)
    (config : Config ι (Shared solution1 kboardOperations) (Phase solution1 kboardOperations))
    (sync : Variables) (call : WriterCall) {fuel : Nat} {body : WriterBody}
    (worked : runWriter fuel k body = some (after, result)) :
    ∃ moves, Run (program solution1 kboardOperations) (fun _ _ => True)
        (config.advance thread ⟨sync, k⟩ (.criticalWriter call body)) moves
        (config.advance thread ⟨sync, after⟩ (.leaveWriter call result .upWriter)) ∧
      history moves = [] := by
  induction fuel generalizing k body with
  | zero => cases worked
  | succ fuel ih =>
      have taken : program solution1 kboardOperations ⟨sync, k⟩ (.criticalWriter call body)
          ⟨sync, (writerStep k body).1⟩ (.workedWriter call (writerStep k body).2) :=
        ⟨.advance, rfl⟩
      rw [runWriter] at worked
      generalize writerStep k body = outcome at taken worked
      obtain ⟨between, control⟩ := outcome
      cases control with
      | ret returned =>
          cases worked
          exact ⟨_, Run.refl.snoc trivial (config.step_advance taken thread), rfl⟩
      | goto point =>
          obtain ⟨moves, run, incomplete⟩ := ih worked
          exact ⟨_, run.cons trivial (config.step_advance taken thread), incomplete⟩

private theorem initial_advance_idle (thread : ι) (k after : Board) :
    (initial (ι := ι) solution1 k).advance thread ⟨initializeSyncSolution, after⟩ .idle =
      initial (B := kboardOperations) solution1 after := by
  let allIdle : ι → Phase solution1 kboardOperations := fun _ => .idle
  have idle : Function.update allIdle thread .idle = allIdle := Function.update_eq_self ..
  let freed : Shared solution1 kboardOperations := ⟨initializeSyncSolution, after⟩
  exact congrArg (Config.mk freed) idle

/-- Between the calls the semaphore is free, so that the Enter of a call that
runs by itself does not have to wait. -/
theorem run_of_callWriter (thread : ι) (called : callWriter k call = some (after, result)) :
    ∃ moves, Run (program solution1 kboardOperations) (fun _ _ => True)
        (initial (ι := ι) solution1 k) moves (initial solution1 after) ∧
      history moves = [(call, result)] := by
  let held : Variables := { initializeSyncSolution with semaphoreWriter := 0 }
  have calls : program solution1 kboardOperations ⟨initializeSyncSolution, k⟩ .idle
      ⟨initializeSyncSolution, k⟩ (.enterWriter call .downWriter) := ⟨.callWriter call, rfl⟩
  have enters : program solution1 kboardOperations ⟨initializeSyncSolution, k⟩
      (.enterWriter call .downWriter) ⟨held, k⟩ (.criticalWriter call (writerStart call)) :=
    ⟨.advance, rfl⟩
  have leaves : program solution1 kboardOperations ⟨held, after⟩
      (.leaveWriter call result .upWriter) ⟨initializeSyncSolution, after⟩ .idle :=
    ⟨.advance, rfl⟩
  let start : Config ι (Shared solution1 kboardOperations) (Phase solution1 kboardOperations) :=
    initial solution1 k
  obtain ⟨moves, run, incomplete⟩ := run_of_runWriter thread start held call called
  have whole := ((run.cons trivial (start.step_advance enters thread)).cons trivial
    (start.step_advance calls thread)).snoc trivial (start.step_advance leaves thread)
  rw [initial_advance_idle, initial_advance_idle] at whole
  refine ⟨_, whole, ?_⟩
  -- Neither the call nor the Enter completes an operation; the Leave does.
  have last : history (moves ++ [⟨thread, .leaveWriter call result .upWriter, .idle⟩]) =
      history moves ++ [(call, result)] := by
    rw [history, List.filterMap_append]
    rfl
  rw [incomplete] at last
  exact last

end

theorem Represents.popped {k : Board} {item : Int} {rest : List Int} {completed : Nat}
    (represents : Represents k (item :: rest) completed) :
    k.ringBuffer k.ringBufferCurrentIndex = item ∧ Represents k.popped rest (completed + 1) := by
  obtain ⟨window, count, performed⟩ := represents
  have nonneg := window.holds.currentNonneg
  refine ⟨window.holds.head, ?_, ?_, performWriter_succ performed⟩
  · simp only [Board.popped]
    rw [Int.tmod_eq_emod_of_nonneg (by omega)]
    exact window.pop
  · simp [Board.popped, count]

section

variable {data : List UInt8} (short : data.length ≤ writerBufferSize) (k : Board) {stack : Stack}

include short

theorem kboardWriterWriteCall_reject
    (rejected : ∀ item, sscanf (copyFromUser stack data) = some item → item < 0) :
    kboardWriterWriteCall k stack data true = some (k, -einval) := by
  rw [kboardWriterWriteCall, if_neg (not_lt.mpr short), if_neg Bool.noConfusion]
  cases scanned : sscanf (copyFromUser stack data) with
  | none => rfl
  | some item => simp only [rejected item scanned, if_true]

/-- A number that is not negative goes to the ring. -/
theorem kboardWriterWriteCall_accept {item : Int}
    (scanned : sscanf (copyFromUser stack data) = some item) (nonneg : 0 ≤ item) :
    kboardWriterWriteCall k stack data true =
      if k.ringBufferCount < ringBufferSize then some (k.appended item, (data.length : Int))
      else some (k.refused, -eperm) := by
  rw [kboardWriterWriteCall, if_neg (not_lt.mpr short), if_neg Bool.noConfusion, scanned]
  simp only [not_lt.mpr nonneg, if_false]
  split
  · next room => rw [callWriter_write room, Int.toNat_of_nonneg nonneg]; rfl
  · next full => rw [callWriter_write_full (not_lt.mp full)]; rfl

/-- An accepted number is never answered with `-EINVAL`. -/
theorem kboardWriterWriteCall_accept_status {item : Int}
    (scanned : sscanf (copyFromUser stack data) = some item) (nonneg : 0 ≤ item)
    {after : Board} {status : Int}
    (returned : kboardWriterWriteCall k stack data true = some (after, status)) :
    status ≠ -einval := by
  rw [kboardWriterWriteCall_accept short k scanned nonneg] at returned
  split at returned
  · cases returned
    simp only [einval]
    omega
  · cases returned
    decide

theorem kboardWriterWriteCall_isSome (stack : Stack) :
    ∃ after status, kboardWriterWriteCall k stack data true = some (after, status) := by
  by_cases rejected : ∀ item, sscanf (copyFromUser stack data) = some item → item < 0
  · exact ⟨_, _, kboardWriterWriteCall_reject short k rejected⟩
  · simp only [not_forall, not_lt] at rejected
    obtain ⟨item, scanned, nonneg⟩ := rejected
    rw [kboardWriterWriteCall_accept short k scanned nonneg]
    split <;> exact ⟨_, _, rfl⟩

end

/-- A stack that puts these bytes, then a NUL, behind the copied ones. -/
def stackBehind (data further : List UInt8) : Stack where
  bytes := List.replicate data.length 0 ++ (further ++ List.replicate 20 0)
  holdsBuffer := by simp [writerBufferSize]; omega

private theorem copyFromUser_stackBehind (data further : List UInt8) :
    copyFromUser (stackBehind data further) data =
      data ++ (further ++ 0 :: List.replicate 19 0) := by
  simp only [copyFromUser, stackBehind]
  rw [List.drop_left' (by simp)]
  rfl

private theorem exists_stack_scanned {data : List UInt8} (goesOn : unscanned data = [])
    (target : Int) :
    ∃ stack, sscanf (copyFromUser stack data) = some (target.bmod (2 ^ 32)) := by
  obtain ⟨n, reached⟩ := exists_further_digits (signed (data.dropWhile isSpace))
    (dropSign (data.dropWhile isSpace)) target
  refine ⟨stackBehind data (fixedNumeral 10 n), ?_⟩
  have nonempty : fixedNumeral 10 n ≠ [] :=
    List.ne_nil_of_length_pos (by rw [length_fixedNumeral]; decide)
  rw [copyFromUser_stackBehind, sscanf_further_digits goesOn
    (isDigit_of_mem_fixedNumeral 10 n) nonempty (by decide), reached]

/-- What a write does depends on nothing but its bytes exactly when the scan
stops at one of them: when white space, an optional sign and digits are followed
by a further byte. -/
theorem write_independent_iff {data : List UInt8} (short : data.length ≤ writerBufferSize)
    (k : Board) :
    (∀ stack stack', ∃ after after' status,
      kboardWriterWriteCall k stack data true = some (after, status) ∧
      kboardWriterWriteCall k stack' data true = some (after', status) ∧
      SameRing after after') ↔ unscanned data ≠ [] := by
  constructor
  · intro independent goesOn
    obtain ⟨stack, zero⟩ := exists_stack_scanned goesOn 0
    obtain ⟨stack', negative⟩ := exists_stack_scanned goesOn (-1)
    obtain ⟨after, after', status, returned, returned', _⟩ := independent stack stack'
    have rejected := kboardWriterWriteCall_reject short k
      fun item scanned => by rw [negative] at scanned; cases scanned; decide
    rw [rejected] at returned'
    cases returned'
    exact kboardWriterWriteCall_accept_status short k zero (by decide) returned rfl
  · intro stops stack stack'
    have same : kboardWriterWriteCall k stack' data true =
        kboardWriterWriteCall k stack data true := by
      simp only [kboardWriterWriteCall, copyFromUser, sscanf_append stops]
    obtain ⟨after, status, returned⟩ := kboardWriterWriteCall_isSome short k stack
    exact ⟨after, after, status, returned, same.trans returned, SameRing.refl after⟩

theorem write_independent_newline :
    unscanned (bytes "12\n") ≠ [] ∧ ∀ stack stack', ∃ after after' status,
      kboardWriterWriteCall (initializeKboard Board.zero) stack (bytes "12\n") true =
        some (after, status) ∧
      kboardWriterWriteCall (initializeKboard Board.zero) stack' (bytes "12\n") true =
        some (after', status) ∧ SameRing after after' := by
  have short : (bytes "12\n").length ≤ writerBufferSize := by decide
  have stops : unscanned (bytes "12\n") ≠ [] := by decide
  exact ⟨stops, (write_independent_iff short (initializeKboard Board.zero)).mpr stops⟩

/-- Without the newline, a digit left on the stack becomes part of the number. -/
theorem write_depends_on_stack :
    (bytes "12").length ≤ writerBufferSize ∧
      ¬ ∃ after after' status,
        kboardWriterWriteCall (initializeKboard Board.zero) (stackBehind (bytes "12") [])
          (bytes "12") true = some (after, status) ∧
        kboardWriterWriteCall (initializeKboard Board.zero)
          (stackBehind (bytes "12") (bytes "3")) (bytes "12") true = some (after', status) ∧
        SameRing after after' := by
  refine ⟨by decide, ?_⟩
  intro same
  obtain ⟨after, after', status, returned, returned', sameRing, _⟩ := same
  cases returned
  cases returned'
  exact absurd (congrFun sameRing 0) (show (123 : Int) ≠ 12 by decide)

/-! ## Written numbers -/

/-- The bytes are optional white space, an optional minus sign, digits that
denote the number with it, and at least one further byte that is not a digit. -/
def Writes (data : List UInt8) (number : Int) : Prop :=
  ∃ spaces negative digits stop rest, (∀ b ∈ spaces, isSpace b) ∧ (∀ b ∈ digits, isDigit b) ∧
    digits ≠ [] ∧ ¬ isDigit stop ∧ number = denoted negative digits ∧
    data = spaces ++ (if negative then [minus] else []) ++ (digits ++ stop :: rest)

theorem Writes.append {data : List UInt8} {number : Int} (writes : Writes data number)
    (suffix : List UInt8) : Writes (data ++ suffix) number := by
  obtain ⟨spaces, negative, digits, stop, rest, blank, allDigits, nonempty, stops, same, rfl⟩ :=
    writes
  refine ⟨spaces, negative, digits, stop, rest ++ suffix, blank, allDigits, nonempty, stops, same,
    ?_⟩
  simp only [List.append_assoc, List.cons_append]

theorem Writes.sscanf {data : List UInt8} {number : Int} (writes : Writes data number) :
    sscanf data = some (number.bmod (2 ^ 32)) := by
  obtain ⟨spaces, negative, digits, stop, rest, blank, allDigits, nonempty, stops, rfl, rfl⟩ :=
    writes
  have text : (spaces ++ if negative then [minus] else []).dropWhile isSpace =
      if negative then [minus] else [] := by
    rw [List.dropWhile_append_of_pos blank]
    cases negative <;> rfl
  have goesOn : unscanned (spaces ++ if negative then [minus] else []) = [] := by
    rw [unscanned, text]
    cases negative <;> rfl
  rw [sscanf_further_digits goesOn allDigits nonempty stops, text, scannedInt_eq]
  cases negative <;> rfl

private theorem bmod_of_inRange {number : Int} (inRange : 0 ≤ number ∧ number ≤ 2 ^ 31 - 1) :
    number.bmod (2 ^ 32) = number :=
  Int.bmod_eq_of_le (by omega) (by omega)

private theorem bmod_neg_iff {number : Int} : number.bmod (2 ^ 32)
    < 0 ↔ 2 ^ 31 ≤ number % 2 ^ 32 := by
  rw [Int.bmod_def]
  omega

/-- The ring has the item behind its last one. -/
structure Appends (k after : Board) (item : Int) : Prop where
  slot : after.ringBuffer = Function.update k.ringBuffer
    ((k.ringBufferCurrentIndex + k.ringBufferCount).tmod ringBufferSize) item
  count : after.ringBufferCount = k.ringBufferCount + 1
  currentIndex : after.ringBufferCurrentIndex = k.ringBufferCurrentIndex
  queue : ∀ queue completed, Represents k queue completed →
    Represents after (queue ++ [item]) (completed + 1)

theorem appends_appended {k : Board} (room : k.ringBufferCount < ringBufferSize) (item : Int) :
    Appends k (k.appended item) item := by
  refine ⟨rfl, rfl, rfl, ?_⟩
  intro queue completed represents
  obtain ⟨window, count, performed⟩ := represents
  have nonneg := window.holds.currentNonneg
  have fits : (queue.length : Int) < ringBufferSize := by rw [← count]; exact room
  have slot : (k.ringBufferCurrentIndex + k.ringBufferCount).tmod ringBufferSize =
      tail ringBufferSize k.ringBufferCurrentIndex queue := by
    rw [count, Int.tmod_eq_emod_of_nonneg (by omega)]
    rfl
  refine ⟨?_, ?_, performWriter_succ performed⟩
  · simp only [Board.appended, slot]
    exact window.push fits
  · simp [Board.appended, count]

/-- A number in range is taken as it was written. -/
theorem kboardWriterWriteCall_inRange {data : List UInt8} {number : Int}
    (short : data.length ≤ writerBufferSize) (writes : Writes data number)
    (inRange : 0 ≤ number ∧ number ≤ 2 ^ 31 - 1) (k : Board) (stack : Stack) :
    kboardWriterWriteCall k stack data true =
      if k.ringBufferCount < ringBufferSize then some (k.appended number, (data.length : Int))
      else some (k.refused, -eperm) := by
  have scanned : sscanf (copyFromUser stack data) = some number := by
    rw [copyFromUser, (writes.append _).sscanf, bmod_of_inRange inRange]
  exact kboardWriterWriteCall_accept short k scanned inRange.1

/-- The number is stored as it was written, or it does not fit an `int` that is
not negative and is turned away. -/
def StoresOrRejects (k : Board) (stack : Stack) (data : List UInt8) (number : Int) : Prop :=
  ∃ after status, kboardWriterWriteCall k stack data true = some (after, status) ∧
    (0 ≤ number ∧ number ≤ 2 ^ 31 - 1 → k.ringBufferCount < ringBufferSize →
      status = data.length ∧ Appends k after number) ∧
    (number < 0 ∨ 2 ^ 31 - 1 < number → status = -einval ∧ SameRing k after)

/-- A write keeps to the number exactly when it is in range, or out of range with
a negative value left of it in 32 bits. -/
theorem write_stores_or_rejects_iff {data : List UInt8} {number : Int}
    (short : data.length ≤ writerBufferSize) (writes : Writes data number) (k : Board)
    (stack : Stack) :
    StoresOrRejects k stack data number ↔
      (0 ≤ number ∧ number ≤ 2 ^ 31 - 1) ∨ 2 ^ 31 ≤ number % 2 ^ 32 := by
  have scanned : sscanf (copyFromUser stack data) = some (number.bmod (2 ^ 32)) :=
    (writes.append _).sscanf
  constructor
  · intro meets
    obtain ⟨after, status, returned, _, rejects⟩ := meets
    by_contra neither
    simp only [not_or, not_and, not_le] at neither
    obtain ⟨outside, wrapped⟩ := neither
    have nonneg : 0 ≤ number.bmod (2 ^ 32) :=
      not_lt.mp fun negative => not_le.mpr wrapped (bmod_neg_iff.mp negative)
    exact kboardWriterWriteCall_accept_status short k scanned nonneg returned
      (rejects (by omega)).1
  · intro holds
    by_cases inRange : 0 ≤ number ∧ number ≤ 2 ^ 31 - 1
    · rw [StoresOrRejects, kboardWriterWriteCall_inRange short writes inRange]
      split
      · next room =>
          exact ⟨_, _, rfl, fun _ _ => ⟨rfl, appends_appended room number⟩, by omega⟩
      · next full => exact ⟨_, _, rfl, fun _ room => absurd room full, by omega⟩
    · have negative := bmod_neg_iff.mpr (holds.resolve_left inRange)
      have rejected : kboardWriterWriteCall k stack data true = some (k, -einval) := by
        apply kboardWriterWriteCall_reject short
        intro item found
        rw [scanned] at found
        cases found
        exact negative
      exact ⟨k, -einval, rejected, fun inside => absurd inside inRange,
        fun _ => ⟨rfl, SameRing.refl k⟩⟩

theorem write_stores_or_rejects_largest :
    Writes (bytes "2147483647\n") 2147483647 ∧ ∀ stack,
      StoresOrRejects (initializeKboard Board.zero) stack (bytes "2147483647\n") 2147483647 := by
  have writes : Writes (bytes "2147483647\n") 2147483647 :=
    ⟨[], false, bytes "2147483647", 10, [], List.forall_mem_nil _, List.all_eq_true.mp (by decide),
      by decide, by decide, by decide, by decide⟩
  refine ⟨writes, ?_⟩
  intro stack
  exact (write_stores_or_rejects_iff (by decide) writes _ stack).mpr (.inl (by decide))

/-- 2 ^ 32 is stored as 0. -/
theorem write_stores_truncated :
    (bytes "4294967296\n").length ≤ writerBufferSize ∧ Writes (bytes "4294967296\n") 4294967296 ∧
      ¬ StoresOrRejects (initializeKboard Board.zero) (stackBehind [] []) (bytes "4294967296\n")
        4294967296 := by
  refine ⟨by decide, ⟨[], false, bytes "4294967296", 10, [], List.forall_mem_nil _,
    List.all_eq_true.mp (by decide), by decide, by decide, by decide, by decide⟩, ?_⟩
  intro meets
  obtain ⟨after, status, returned, _, rejects⟩ := meets
  cases returned
  exact absurd (rejects (.inr (by decide))).1 (show ((11 : Nat) : Int) ≠ -22 by decide)

end Kboard.Procfs
