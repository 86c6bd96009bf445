import Kboard.Procfs.CallsProperties

/-! Numbers written to `/proc/kboard/writer` come back from it as they were
written. The requests follow each other; every write is a line with the
canonical numeral of a number, handed over in full, and finds any stack. -/

set_option autoImplicit false

namespace Kboard.Procfs

open Concurrency Sync Sync.Solution1 Text

inductive Request where
  | write (number : Nat) (stack : Stack)
  | read

structure Response where
  status : Int
  output : List UInt8

def line (number : Nat) : List UInt8 := numeral number ++ [10]

def perform (k : Board) : Request → Option (Board × Response)
  | .write number stack => (kboardWriterWriteCall k stack (line number) true).map
      fun (k, status) => (k, ⟨status, []⟩)
  | .read => (kboardWriterShowCall k).map fun (k, status, output) => (k, ⟨status, output⟩)

/-- Serve the requests one after the other and log what each of them got. -/
def session : Board → List Request → Option (Board × List (Request × Response))
  | k, [] => some (k, [])
  | k, request :: schedule =>
      match perform k request with
      | none => none
      | some (k, response) =>
          (session k schedule).map fun (k, log) => (k, (request, response) :: log)

def InRange : Request → Prop
  | .write number _ => number ≤ 2 ^ 31 - 1
  | .read => True

/-- No write of the schedule finds 5 items queued, and no read finds none. -/
def Admissible : Board → List Request → Prop
  | _, [] => True
  | k, request :: schedule =>
      (match request with
        | .write _ _ => k.ringBufferCount ≠ 5
        | .read => k.ringBufferCount ≠ 0) ∧
      ∀ after response, perform k request = some (after, response) → Admissible after schedule

def written : Request → Option Nat
  | .write number _ => some number
  | .read => none

def printed : Request × Response → Option (List UInt8)
  | (.read, response) => some response.output
  | (.write _ _, _) => none

def pasteLine (number : Nat) : List UInt8 := bytes "Paste: \x27" ++ numeral number ++ bytes "\x27\n"

/-! ## Single requests -/

private theorem pasteText_natCast (number : Nat) : pasteText number = pasteLine number := by
  rw [pasteText, formatInt, if_neg (by omega), Int.natAbs_natCast]
  rfl

private theorem writes_line (number : Nat) : Writes (line number) number := by
  refine ⟨[], false, numeral number, 10, [], by simp, isDigit_of_mem_numeral number,
    numeral_ne_nil number, by decide, ?_, rfl⟩
  simp [denoted, value_numeral]

private theorem length_line_le {number : Nat} (inRange : number ≤ 2 ^ 31 - 1) :
    (line number).length ≤ writerBufferSize := by
  have digits : (numeral number).length ≤ 9 + 1 := length_numeral_le (by omega)
  simp only [line, List.length_append, List.length_singleton, writerBufferSize]
  omega

/-- The operation that a request with a number in range comes to. -/
def writerCall : Request → WriterCall
  | .write number _ => .write number (line number).length
  | .read => .read

def response (result : WriterResult) : Response :=
  ⟨result.status, (result.item.map pasteText).getD []⟩

theorem perform_eq {request : Request} (inRange : InRange request) (k : Board) :
    perform k request = (callWriter k (writerCall request)).map
      fun (k, result) => (k, response result) := by
  cases request with
  | write number stack =>
      rw [perform, kboardWriterWriteCall_inRange (length_line_le inRange) (writes_line number)
        ⟨by omega, Int.ofNat_le.mpr inRange⟩, writerCall]
      split
      · next room => rw [callWriter_write room]; rfl
      · next full => rw [callWriter_write_full (not_lt.mp full)]; rfl
  | read =>
      rw [perform, kboardWriterShowCall, writerCall, Option.map_map]
      rfl

section

variable {k : Board} {completed : Nat}

theorem perform_write {number : Nat} {stack : Stack} (inRange : InRange (.write number stack))
    {pending : List Nat} (represents : Represents k (pending.map Int.ofNat) completed)
    (room : k.ringBufferCount ≠ 5) :
    perform k (.write number stack) = some (k.appended number, ⟨(line number).length, []⟩) ∧
      Represents (k.appended number) ((pending ++ [number]).map Int.ofNat) (completed + 1) := by
  have fits : k.ringBufferCount < ringBufferSize := by
    have lengthLe := represents.1.holds.lengthLe
    have count := represents.2.1
    simp only [ringBufferSize] at lengthLe ⊢
    omega
  constructor
  · rw [perform_eq inRange, writerCall, callWriter_write fits]
    rfl
  · rw [List.map_append]
    exact (appends_appended fits number).queue _ completed represents

theorem perform_read {number : Nat} {rest : List Int}
    (represents : Represents k (number :: rest) completed) :
    perform k .read = some (k.popped, ⟨0, pasteLine number⟩) ∧
      Represents k.popped rest (completed + 1) := by
  obtain ⟨oldest, remaining⟩ := represents.popped
  have nonempty : 0 < k.ringBufferCount := by
    rw [represents.2.1, List.length_cons]
    omega
  refine ⟨?_, remaining⟩
  rw [perform_eq (show InRange .read from trivial), writerCall, callWriter_read nonempty, oldest]
  simp only [Option.map_some, response, Option.getD_some, pasteText_natCast]

end

/-! ## Sessions -/

/-- What a session answers from a board with these numbers pending: it serves
every request, acknowledges every write with its length, and prints the pending
numbers first and the written ones after them, oldest first. -/
structure Answers (pending : List Nat) (schedule : List Request)
    (log : List (Request × Response)) : Prop where
  requests : log.map Prod.fst = schedule
  acknowledged : ∀ number stack response, (.write number stack, response) ∈ log →
    response.status = (line number).length
  pasted : log.filterMap printed <+: (pending ++ schedule.filterMap written).map pasteLine

theorem Answers.write {pending : List Nat} {number : Nat} {schedule : List Request}
    {log : List (Request × Response)} (answers : Answers (pending ++ [number]) schedule log)
    (stack : Stack) :
    Answers pending (.write number stack :: schedule)
      ((.write number stack, ⟨(line number).length, []⟩) :: log) := by
  refine ⟨by rw [List.map_cons, answers.requests], ?_, ?_⟩
  · intro other stack' response member
    rcases List.mem_cons.mp member with first | later
    · cases first
      rfl
    · exact answers.acknowledged other stack' response later
  · have pasted := answers.pasted
    rw [List.append_assoc] at pasted
    exact pasted

theorem Answers.read {pending : List Nat} {number : Nat} {schedule : List Request}
    {log : List (Request × Response)} (answers : Answers pending schedule log) :
    Answers (number :: pending) (.read :: schedule)
      ((.read, ⟨0, pasteLine number⟩) :: log) := by
  refine ⟨by rw [List.map_cons, answers.requests], ?_, ?_⟩
  · intro other stack response member
    rcases List.mem_cons.mp member with first | later
    · cases first
    · exact answers.acknowledged other stack response later
  · exact List.cons_prefix_cons.mpr ⟨rfl, answers.pasted⟩

theorem session_answers {schedule : List Request} (inRange : ∀ request ∈ schedule, InRange request)
    {k : Board} {pending : List Nat} {completed : Nat}
    (represents : Represents k (pending.map Int.ofNat) completed)
    (admissible : Admissible k schedule) :
    ∃ after log, session k schedule = some (after, log) ∧ Answers pending schedule log := by
  induction schedule generalizing k pending completed with
  | nil => exact ⟨k, [], rfl, rfl, by simp, List.nil_prefix⟩
  | cons request schedule ih =>
      rw [List.forall_mem_cons] at inRange
      obtain ⟨inRangeFirst, inRangeLater⟩ := inRange
      obtain ⟨allowed, later⟩ := admissible
      cases request with
      | write number stack =>
          obtain ⟨performed, appended⟩ := perform_write inRangeFirst represents allowed
          obtain ⟨after, log, served, answers⟩ := ih inRangeLater appended (later _ _ performed)
          refine ⟨after, _, ?_, answers.write stack⟩
          simp only [session, performed, served, Option.map_some]
      | read =>
          cases pending with
          | nil => exact absurd represents.2.1 allowed
          | cons number pending =>
              obtain ⟨performed, remaining⟩ := perform_read represents
              obtain ⟨after, log, served, answers⟩ :=
                ih inRangeLater remaining (later _ _ performed)
              refine ⟨after, _, ?_, answers.read⟩
              simp only [session, performed, served, Option.map_some]

/-- The schedule does not overrun the ring with this many numbers in it, as one
can see without the board. -/
def balanced : Nat → List Request → Bool
  | _, [] => true
  | pending, .write _ _ :: schedule => pending != 5 && balanced (pending + 1) schedule
  | 0, .read :: _ => false
  | pending + 1, .read :: schedule => balanced pending schedule

private theorem admissible_of_balanced {schedule : List Request}
    (inRange : ∀ request ∈ schedule, InRange request) {k : Board} {pending : List Nat}
    {completed : Nat} (represents : Represents k (pending.map Int.ofNat) completed)
    (fits : balanced pending.length schedule) : Admissible k schedule := by
  induction schedule generalizing k pending completed with
  | nil => trivial
  | cons request schedule ih =>
      rw [List.forall_mem_cons] at inRange
      obtain ⟨inRangeFirst, inRangeLater⟩ := inRange
      have count : k.ringBufferCount = pending.length := by
        rw [represents.2.1, List.length_map]
      cases request with
      | write number stack =>
          simp only [balanced, Bool.and_eq_true, bne_iff_ne] at fits
          obtain ⟨room, fitsLater⟩ := fits
          have room' : k.ringBufferCount ≠ 5 := by omega
          obtain ⟨performed, appended⟩ := perform_write inRangeFirst represents room'
          refine ⟨room', ?_⟩
          intro after response outcome
          rw [performed] at outcome
          cases outcome
          apply ih inRangeLater appended
          rw [List.length_append]
          exact fitsLater
      | read =>
          cases pending with
          | nil => cases fits
          | cons number pending =>
              obtain ⟨performed, remaining⟩ := perform_read represents
              constructor
              · rw [count, List.length_cons]
                omega
              · intro after response outcome
                rw [performed] at outcome
                cases outcome
                exact ih inRangeLater remaining fits

/-- A session is a run of the threads in which one of them makes all the calls,
and the operations completed in it are those of the log. -/
theorem run_of_session {ι : Type} [DecidableEq ι] (thread : ι) {schedule : List Request}
    (inRange : ∀ request ∈ schedule, InRange request) {k after : Board}
    {log : List (Request × Response)} (served : session k schedule = some (after, log)) :
    ∃ moves, Run (program solution1 kboardOperations) (fun _ _ => True)
        (initial (ι := ι) solution1 k) moves (initial solution1 after) ∧
      (history moves).map (fun (call, result) => (call, response result)) =
        log.map fun (request, response) => (writerCall request, response) := by
  induction schedule generalizing k log with
  | nil =>
      cases served
      exact ⟨[], .refl, rfl⟩
  | cons request schedule ih =>
      rw [List.forall_mem_cons] at inRange
      obtain ⟨inRangeFirst, inRangeLater⟩ := inRange
      rw [session, perform_eq inRangeFirst] at served
      cases called : callWriter k (writerCall request) with
      | none => simp only [called, Option.map_none, reduceCtorEq] at served
      | some outcome =>
          obtain ⟨between, result⟩ := outcome
          simp only [called, Option.map_some] at served
          obtain ⟨⟨_, later⟩, continued, same⟩ := Option.map_eq_some_iff.mp served
          cases same
          obtain ⟨first, firstRun, completed⟩ := run_of_callWriter thread called
          obtain ⟨further, furtherRun, recorded⟩ := ih inRangeLater continued
          refine ⟨first ++ further, firstRun.append furtherRun, ?_⟩
          rw [history, List.filterMap_append, ← history, ← history, completed, List.map_append,
            recorded]
          rfl

/-- Every write of a number in range returns its length, and the i-th read
prints the i-th number written, whatever the stack held. -/
theorem write_read_round_trip (k : Board) {schedule : List Request}
    (inRange : ∀ request ∈ schedule, InRange request)
    (admissible : Admissible (initializeKboard k) schedule) :
    ∃ after log, session (initializeKboard k) schedule = some (after, log) ∧
      log.map Prod.fst = schedule ∧
      (∀ number stack response, (.write number stack, response) ∈ log →
        response.status = (line number).length) ∧
      log.filterMap printed <+: (schedule.filterMap written).map pasteLine := by
  have empty : Represents (initializeKboard k) (([] : List Nat).map Int.ofNat) 0 :=
    initializeKboard_represents k
  obtain ⟨after, log, served, answers⟩ := session_answers inRange empty admissible
  exact ⟨after, log, served, answers.requests, answers.acknowledged, answers.pasted⟩

def nines : Stack := ⟨List.replicate 20 57, by decide⟩

/-- The stack goes on with digits, and the largest number comes back all the same. -/
theorem write_read_round_trip_largest :
    ∃ after log, session (initializeKboard Board.zero)
        [.write 2147483647 nines, .write 0 nines, .read] = some (after, log) ∧
      log.filterMap printed <+: [pasteLine 2147483647, pasteLine 0] := by
  have inRange : ∀ request ∈ [.write 2147483647 nines, .write 0 nines, .read],
      InRange request := by
    simp [InRange]
  have empty : Represents (initializeKboard Board.zero) (([] : List Nat).map Int.ofNat) 0 :=
    initializeKboard_represents Board.zero
  obtain ⟨after, log, served, _, _, pasted⟩ :=
    write_read_round_trip Board.zero inRange (admissible_of_balanced inRange empty (by decide))
  exact ⟨after, log, served, pasted⟩

end Kboard.Procfs
