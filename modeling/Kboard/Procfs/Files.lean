import Kboard.Procfs.Clipboard
import Kboard.Procfs.RoundTrip

/-!
# The files under /proc/kboard

Reads and writes of the files as their callers see them: bytes in, bytes and a
return value out. A write is looked through before its Enter, and may be turned
away there; what a read prints is made after its Leave. In between the calls are
the operations, in any interleaving and under any solution.
-/

set_option autoImplicit false

namespace Kboard.Procfs.Files

open Concurrency Queue Sync Text

/-! ## The calls -/

/-- A write of these bytes to `writer`, for which `copy_from_user` copies all of
them or not, a read of `writer`, or a read of `reader` with what
`get_random_bytes` gives for it. -/
inductive FileCall where
  | writeWriter (stack : Stack) (data : List UInt8) (copies : Bool)
  | readWriter
  | readReader (randomBytes : BitVec 32)

/-- What the function behind a file returns, and what it prints. -/
structure Reply where
  status : Int
  output : List UInt8
  deriving DecidableEq

def readerText (index item : Int) : List UInt8 :=
  bytes "Read random value from Kboard: index: \x27" ++ formatInt index ++
    bytes "\x27, value: \x27" ++ formatInt item ++ bytes "\x27\n"

def reply : Answer → Reply
  | .writer result => ⟨result.status, (result.item.map pasteText).getD []⟩
  | .reader result => ⟨0, readerText result.index result.item⟩

/-- What `KboardWriter_Write` makes of its arguments before its Enter. -/
def checkInput (stack : Stack) (data : List UInt8) (copies : Bool) : Except Reply WriterCall :=
  if data.length > writerBufferSize then .error ⟨-e2big, []⟩
  else if copies = false then .error ⟨-efault, []⟩
  else
    match sscanf (copyFromUser stack data) with
    | none => .error ⟨-einval, []⟩
    | some item =>
        if item < 0 then .error ⟨-einval, []⟩ else .ok (.write item.toNat data.length)

/-- The operation between Enter and Leave, or the reply of a call that has none. -/
def FileCall.operation : FileCall → Except Reply Call
  | .writeWriter stack data copies => (checkInput stack data copies).map .writer
  | .readWriter => .ok (.writer .read)
  | .readReader randomBytes => .ok (.reader randomBytes)

/-- By itself the write is the call on bytes that it was before. -/
theorem kboardWriterWriteCall_eq (k : Board) (stack : Stack) (data : List UInt8) (copies : Bool) :
    kboardWriterWriteCall k stack data copies =
      match checkInput stack data copies with
      | .error reply => some (k, reply.status)
      | .ok call => (callWriter k call).map fun (k, result) => (k, result.status) := by
  unfold kboardWriterWriteCall checkInput
  by_cases long : data.length > writerBufferSize
  · rw [if_pos long, if_pos long]
  · rw [if_neg long, if_neg long]
    by_cases fault : copies = false
    · rw [if_pos fault, if_pos fault]
    · rw [if_neg fault, if_neg fault]
      cases sscanf (copyFromUser stack data) with
      | none => rfl
      | some item =>
          by_cases negative : item < 0
          · simp only [if_pos negative]
          · simp only [if_neg negative]

private theorem checkInput_error {stack : Stack} {data : List UInt8} {copies : Bool} {reply : Reply}
    (refused : checkInput stack data copies = .error reply) :
    reply.status < 0 ∧ reply.output = [] := by
  unfold checkInput at refused
  split at refused
  · cases refused; exact ⟨by decide, rfl⟩
  · split at refused
    · cases refused; exact ⟨by decide, rfl⟩
    · split at refused
      · cases refused; exact ⟨by decide, rfl⟩
      · split at refused
        · cases refused; exact ⟨by decide, rfl⟩
        · cases refused

private theorem checkInput_ok {stack : Stack} {data : List UInt8} {copies : Bool}
    {call : WriterCall}
    (accepted : checkInput stack data copies = .ok call) :
    ∃ item : Nat, sscanf (copyFromUser stack data) = some (item : Int) ∧
      call = .write item data.length := by
  unfold checkInput at accepted
  split at accepted
  · cases accepted
  · split at accepted
    · cases accepted
    · split at accepted
      · cases accepted
      · next item scanned =>
          split at accepted
          · cases accepted
          · next nonneg =>
              cases accepted
              exact ⟨item.toNat, by rw [scanned, Int.toNat_of_nonneg (not_lt.mp nonneg)], rfl⟩

/-- What `echo` prints for an integer. -/
def intLine (item : Int) : List UInt8 := formatInt item ++ [10]

def IsInt (item : Int) : Prop := -2 ^ 31 ≤ item ∧ item ≤ 2 ^ 31 - 1

private theorem writes_intLine (item : Int) : Writes (intLine item) item := by
  by_cases negative : item < 0
  · refine ⟨[], true, numeral item.natAbs, 10, [], by simp, isDigit_of_mem_numeral _,
      numeral_ne_nil _, by decide, ?_, ?_⟩
    · simp only [denoted, value_numeral, if_true]
      omega
    · simp [intLine, formatInt, negative]
  · refine ⟨[], false, numeral item.natAbs, 10, [], by simp, isDigit_of_mem_numeral _,
      numeral_ne_nil _, by decide, ?_, ?_⟩
    · simp only [denoted, value_numeral, Bool.false_eq_true, if_false]
      omega
    · simp [intLine, formatInt, negative]

private theorem length_intLine_le {item : Int} (isInt : IsInt item) :
    (intLine item).length ≤ writerBufferSize := by
  have range : -2 ^ 31 ≤ item ∧ item ≤ 2 ^ 31 - 1 := isInt
  have digits : (numeral item.natAbs).length ≤ 9 + 1 := length_numeral_le (by omega)
  simp only [intLine, formatInt, writerBufferSize]
  split
  · simp only [List.length_append, List.length_cons, List.length_nil]
    omega
  · simp only [List.length_append, List.length_cons, List.length_nil]
    omega

theorem checkInput_intLine {item : Int} (isInt : IsInt item) (stack : Stack) (copies : Bool) :
    checkInput stack (intLine item) copies =
      if copies = false then .error ⟨-efault, []⟩
      else if item < 0 then .error ⟨-einval, []⟩
      else .ok (.write item.toNat (intLine item).length) := by
  have range : -2 ^ 31 ≤ item ∧ item ≤ 2 ^ 31 - 1 := isInt
  have scanned : sscanf (copyFromUser stack (intLine item)) = some item := by
    rw [copyFromUser, ((writes_intLine item).append _).sscanf, Int.bmod_eq_of_le] <;> omega
  rw [checkInput, if_neg (not_lt.mpr (length_intLine_le isInt)), scanned]

/-! ## The callers -/

section

variable (S : SyncSolution)

inductive Caller where
  | idle
  | busy (call : FileCall) (phase : Phase S kboardOperations)
  | done (call : FileCall) (reply : Reply)

end

inductive CallerAction where
  | call (call : FileCall)
  | advance

variable {S : SyncSolution}

def enter : Call → Phase S kboardOperations
  | .writer call => .enterWriter call S.enterWriterEntry
  | .reader randomBytes => .enterReader randomBytes S.enterReaderEntry

def begin (call : FileCall) : Caller S :=
  match call.operation with
  | .error reply => .done call reply
  | .ok operation => .busy call (enter operation)

/-- The operation goes on, or the call is done when the operation has returned. -/
def goOn (call : FileCall) (source target : Phase S kboardOperations) : Caller S :=
  match returned source target with
  | some (_, answer) => .done call (reply answer)
  | none => .busy call target

def step (s : Shared S kboardOperations) :
    Caller S → CallerAction → Option (Shared S kboardOperations × Caller S)
  | .idle, .call call => some (s, begin call)
  | .busy call phase, .advance => (Sync.step s phase .advance).map fun (s, target) =>
      (s, goOn call phase target)
  | .done _ _, .advance => some (s, .idle)
  | _, _ => none

def program (S : SyncSolution) : Program (Shared S kboardOperations) (Caller S) :=
  Program.ofStep step

def initial {ι : Type} (S : SyncSolution) (k : Board) :
    Config ι (Shared S kboardOperations) (Caller S) :=
  Config.uniform ⟨S.initializeSyncSolution, initializeKboard k⟩ .idle

def view : Caller S → Phase S kboardOperations
  | .busy _ phase => phase
  | .idle | .done _ _ => .idle

/-- A call has its place among the others where the body of its operation ends,
or where it is turned away. -/
def event : Caller S → Caller S → Option (FileCall × Reply)
  | .idle, .done call reply => some (call, reply)
  | .busy call source, .busy _ target =>
      (answered source target).map fun (_, answer) => (call, reply answer)
  | _, _ => none

/-! ## What a step can do -/

inductive CallerTransition : Program (Shared S kboardOperations) (Caller S) where
  | refuse {s : Shared S kboardOperations} {call : FileCall} {reply : Reply}
      (refused : call.operation = .error reply) :
      CallerTransition s .idle s (.done call reply)
  | call {s : Shared S kboardOperations} {call : FileCall} {operation : Call}
      (admitted : call.operation = .ok operation) :
      CallerTransition s .idle s (.busy call (enter operation))
  | work {s s' : Shared S kboardOperations} {call : FileCall}
      {source target : Phase S kboardOperations}
      (stepped : Sync.program S kboardOperations s source s' target) (busy : source ≠ .idle)
      (stays : returned source target = none) :
      CallerTransition s (.busy call source) s' (.busy call target)
  | finish {s s' : Shared S kboardOperations} {call : FileCall}
      {source : Phase S kboardOperations} {operation : Call} {answer : Answer}
      (stepped : Sync.program S kboardOperations s source s' .idle)
      (owes : owed source = [(operation, answer)]) :
      CallerTransition s (.busy call source) s' (.done call (reply answer))
  | collect {s : Shared S kboardOperations} {call : FileCall} {reply : Reply} :
      CallerTransition s (.done call reply) s .idle

private theorem returned_eq_some {source target : Phase S kboardOperations} {entry : Call × Answer}
    (back : returned source target = some entry) : target = .idle ∧ owed source = [entry] := by
  unfold returned at back
  split at back
  · cases back; exact ⟨rfl, rfl⟩
  · cases back; exact ⟨rfl, rfl⟩
  · cases back

theorem transition_of_caller {s s' : Shared S kboardOperations} {source target : Caller S}
    (taken : program S s source s' target) : CallerTransition s source s' target := by
  obtain ⟨action, taken⟩ := taken
  cases source with
  | idle =>
      cases action with
      | advance => cases taken
      | call call =>
          simp only [step, begin] at taken
          cases admitted : call.operation with
          | error reply =>
              rw [admitted] at taken
              cases taken
              exact .refuse admitted
          | ok operation =>
              rw [admitted] at taken
              cases taken
              exact .call admitted
  | busy call phase =>
      cases action with
      | call other => cases taken
      | advance =>
          obtain ⟨⟨next, further⟩, stepped, same⟩ := Option.map_eq_some_iff.mp taken
          have moved : Sync.program S kboardOperations s phase next further := ⟨.advance, stepped⟩
          have busy : phase ≠ .idle := by
            rintro rfl
            cases stepped
          simp only [goOn] at same
          cases back : returned phase further with
          | none =>
              rw [back] at same
              cases same
              exact .work moved busy back
          | some entry =>
              obtain ⟨rfl, owes⟩ := returned_eq_some back
              rw [back] at same
              cases same
              exact .finish moved owes
  | done call reply =>
      cases action with
      | call other => cases taken
      | advance => cases taken; exact .collect

theorem caller_simulates : Simulates (program S) (Sync.program S kboardOperations) id view := by
  intro s source s' target taken
  cases transition_of_caller taken with
  | refuse | collect => exact .inr ⟨rfl, rfl⟩
  | @call _ _ operation =>
      cases operation with
      | writer call => exact .inl ⟨.callWriter call, rfl⟩
      | reader randomBytes => exact .inl ⟨.callReader randomBytes, rfl⟩
  | work stepped | finish stepped => exact .inl stepped

/-- The operation that a thread is in. -/
def current : Phase S kboardOperations → Option Call
  | .enterWriter call _ | .criticalWriter call _ | .leaveWriter call _ _ => some (.writer call)
  | .enterReader randomBytes _ | .criticalReader randomBytes _ | .leaveReader randomBytes _ _ =>
      some (.reader randomBytes)
  | .idle => none

theorem current_of_step {s s' : Shared S kboardOperations}
    {source target : Phase S kboardOperations}
    (stepped : Sync.program S kboardOperations s source s' target) (busy : source ≠ .idle)
    (stays : returned source target = none) : current target = current source := by
  cases transition_of_program stepped with
  | callWriter | callReader => exact absurd rfl busy
  | @enterWriter _ call point sync control taken => cases control <;> rfl
  | @criticalWriter _ call body =>
      generalize (kboardOperations.writerStep s.data body).2 = control
      cases control <;> rfl
  | @leaveWriter _ call result point sync control taken =>
      cases control with
      | goto further => rfl
      | ret => cases stays
  | @enterReader _ call point sync control taken => cases control <;> rfl
  | @criticalReader _ call body =>
      generalize (kboardOperations.readerStep s.data body).2 = control
      cases control <;> rfl
  | @leaveReader _ call result point sync control taken =>
      cases control with
      | goto further => rfl
      | ret => cases stays

private theorem current_of_answered {source target : Phase S kboardOperations}
    {entry : Call × Answer}
    (ends : answered source target = some entry) : current source = some entry.1 := by
  unfold answered at ends
  split at ends
  · cases ends; rfl
  · cases ends; rfl
  · cases ends

/-- The operation is the one that the call is for. -/
def Runs : Caller S → Prop
  | .busy call phase => ∃ operation, call.operation = .ok operation ∧ current phase = some operation
  | .idle | .done _ _ => True

theorem runs_of_step {s s' : Shared S kboardOperations} {source target : Caller S}
    (runs : Runs source) (taken : program S s source s' target) : Runs target := by
  cases transition_of_caller taken with
  | refuse | finish | collect => trivial
  | @call _ _ operation admitted => exact ⟨operation, admitted, by cases operation <;> rfl⟩
  | work stepped busy stays =>
      obtain ⟨operation, admitted, same⟩ := runs
      exact ⟨operation, admitted, (current_of_step stepped busy stays).trans same⟩

/-- An operation takes place for the call it is made by, and a call that takes
place without one has been turned away. -/
structure Fits (source target : Caller S) : Prop where
  operation : ∀ {operation answer}, answered (view source) (view target) =
    some (operation, answer) → ∃ call, call.operation = .ok operation ∧
      event source target = some (call, reply answer)
  refused : ∀ {call reply}, answered (view source) (view target) = none →
    event source target = some (call, reply) → call.operation = .error reply

theorem fits_of_step {s s' : Shared S kboardOperations} {source target : Caller S}
    (runs : Runs source) (taken : program S s source s' target) : Fits source target := by
  cases transition_of_caller taken with
  | refuse turned =>
      refine ⟨nofun, ?_⟩
      rintro call reply - ⟨⟩
      exact turned
  | @call _ _ operation => cases operation <;> exact ⟨nofun, nofun⟩
  | @work _ _ call source target stepped busy stays =>
      constructor
      · intro operation answer ends
        have ends : answered source target = some (operation, answer) := ends
        obtain ⟨made, admitted, same⟩ := runs
        rw [current_of_answered ends] at same
        cases same
        exact ⟨call, admitted, by rw [event, ends]; rfl⟩
      · intro other reply quiet ends
        have quiet : answered source target = none := quiet
        rw [event, quiet] at ends
        cases ends
  | @finish _ _ call source operation answer stepped owes =>
      have quiet : answered source .idle = none := by cases source <;> rfl
      constructor
      · intro operation answer ends
        have ends : answered source .idle = some (operation, answer) := ends
        rw [quiet] at ends
        cases ends
      · exact nofun
  | collect => exact ⟨nofun, nofun⟩

/-- The end of a call, with what it gives its caller. -/
def finished : Caller S → Caller S → Option (FileCall × Reply)
  | .idle, .done call reply | .busy _ _, .done call reply => some (call, reply)
  | _, _ => none

def pending : Caller S → List (FileCall × Reply)
  | .busy call phase => (owed phase).map fun (_, answer) => (call, reply answer)
  | .idle | .done _ _ => []

theorem pending_step {s s' : Shared S kboardOperations} {source target : Caller S}
    (taken : program S s source s' target) :
    pending source ++ (event source target).toList =
      (finished source target).toList ++ pending target := by
  cases transition_of_caller taken with
  | refuse | collect => rfl
  | @call _ _ operation => cases operation <;> rfl
  | @work _ _ call source target stepped busy stays =>
      have account := owed_step stepped
      rw [stays, Option.toList_none, List.nil_append] at account
      simp only [pending, finished, event, Option.toList_none, List.nil_append]
      rw [← account, List.map_append]
      cases answered source target <;> rfl
  | @finish _ _ call source operation answer stepped owes =>
      simp only [pending, owes]
      rfl

section

variable {ι : Type}

def events (moves : List (Move ι (Caller S))) : List (FileCall × Reply) :=
  moves.filterMap fun move => event move.source move.target

def replies (moves : List (Move ι (Caller S))) : List (FileCall × Reply) :=
  moves.filterMap fun move => finished move.source move.target

variable [DecidableEq ι] {k : Board} {moves : List (Move ι (Caller S))}
  {config : Config ι (Shared S kboardOperations) (Caller S)}
  {allowed : Config ι (Shared S kboardOperations) (Caller S) → Move ι (Caller S) → Prop}

private theorem events_ofThread (run : Run (program S) allowed (initial S k) moves config)
    (thread : ι) :
    events (ofThread thread moves) =
      replies (ofThread thread moves) ++ pending (config.thread thread) :=
  run.account pending_step thread rfl

theorem mem_events_of_mem_replies (run : Run (program S) allowed (initial S k) moves config)
    {entry : FileCall × Reply} (replied : entry ∈ replies moves) : entry ∈ events moves := by
  obtain ⟨move, member, ends⟩ := List.mem_filterMap.mp replied
  have own : move ∈ ofThread move.thread moves :=
    List.mem_filter.mpr ⟨member, decide_eq_true rfl⟩
  have placed : entry ∈ events (ofThread move.thread moves) := by
    rw [events_ofThread run move.thread]
    exact List.mem_append_left _ (List.mem_filterMap.mpr ⟨move, own, ends⟩)
  exact (List.filter_sublist.filterMap _).subset placed

theorem fits_of_run (run : Run (program S) allowed (initial S k) moves config) :
    (∀ i, Runs (config.thread i)) ∧ ∀ move ∈ moves, Fits move.source move.target := by
  induction run with
  | refl => exact ⟨fun _ => trivial, fun _ member => absurd member List.not_mem_nil⟩
  | @snoc moves config next move run _ taken ih =>
      obtain ⟨runs, fits⟩ := ih
      obtain @⟨thread, shared, target, stepped⟩ := taken
      constructor
      · intro i
        by_cases moved : i = thread
        · rw [moved, Config.advance_thread, Function.update_self]
          exact runs_of_step (runs thread) stepped
        · rw [Config.advance_thread, Function.update_of_ne moved]
          exact runs i
      · intro move member
        rcases List.mem_append.mp member with earlier | last
        · exact fits move earlier
        · rw [List.mem_singleton.mp last]
          exact fits_of_step (runs thread) stepped

end

/-! ## The clipboard behind the files -/

def serveFile (c : Clipboard) (call : FileCall) : Reply × Clipboard :=
  match call.operation with
  | .error reply => (reply, c)
  | .ok operation => (reply (c.serve operation).1, (c.serve operation).2)

/-- A call by itself. -/
def callFile (k : Board) : FileCall → Option (Board × Reply)
  | .writeWriter stack data copies =>
      (kboardWriterWriteCall k stack data copies).map fun (k, status) => (k, ⟨status, []⟩)
  | .readWriter => (kboardWriterShowCall k).map fun (k, status, output) => (k, ⟨status, output⟩)
  | .readReader randomBytes => (callReader k randomBytes).map fun (k, result) =>
      (k, reply (.reader result))

private theorem serve_write_item (c : Clipboard) (item length : Nat) :
    ∃ result, (c.serve (.writer (.write item length))).1 = .writer result ∧
      result.item = none := by
  rw [Clipboard.serve]
  split
  · exact ⟨_, rfl, rfl⟩
  · exact ⟨_, rfl, rfl⟩

/-- By itself a call does to the board what it does to the clipboard. -/
theorem callFile_of_shows {k : Board} {c : Clipboard} {completed : Nat}
    (shown : Shows k c completed) (call : FileCall) :
    ∃ after further, callFile k call = some (after, (serveFile c call).1) ∧
      Shows after (serveFile c call).2 further := by
  cases call with
  | writeWriter stack data copies =>
      simp only [callFile, kboardWriterWriteCall_eq, serveFile, FileCall.operation]
      cases checked : checkInput stack data copies with
      | error refusal =>
          obtain ⟨status, output⟩ := refusal
          obtain rfl : output = [] := (checkInput_error checked).2
          exact ⟨k, completed, by simp [Except.map], shown⟩
      | ok operation =>
          obtain ⟨item, _, rfl⟩ := checkInput_ok checked
          obtain ⟨after, called, shownAfter⟩ := shown.write item data.length
          obtain ⟨result, answered, none⟩ := serve_write_item c item data.length
          obtain ⟨⟨_, _⟩, alone, same⟩ := Option.map_eq_some_iff.mp called
          rw [answered] at same
          cases same
          refine ⟨after, completed + 1, ?_, shownAfter⟩
          simp [alone, Except.map, answered, Files.reply, none]
  | readWriter =>
      obtain ⟨after, called, shownAfter⟩ := shown.read
      obtain ⟨⟨_, result⟩, alone, same⟩ := Option.map_eq_some_iff.mp called
      refine ⟨after, completed + 1, ?_, shownAfter⟩
      simp only [Prod.mk.injEq] at same
      obtain ⟨rfl, answered⟩ := same
      simp [callFile, kboardWriterShowCall, alone, serveFile, FileCall.operation, ← answered,
        Files.reply]
  | readReader randomBytes =>
      obtain ⟨after, called, shownAfter⟩ := shown.peek randomBytes
      rw [callAlone] at called
      obtain ⟨⟨_, result⟩, alone, same⟩ := Option.map_eq_some_iff.mp called
      refine ⟨after, completed, ?_, shownAfter⟩
      simp only [Prod.mk.injEq] at same
      obtain ⟨rfl, answered⟩ := same
      simp [callFile, alone, serveFile, FileCall.operation, ← answered]

theorem legal_events {ι : Type} {moves : List (Move ι (Caller S))} {start c : Clipboard}
    (fits : ∀ move ∈ moves, Fits move.source move.target)
    (legal : Legal Clipboard.serve start
      (moves.filterMap fun move => answered (view move.source) (view move.target)) c) :
    Legal serveFile start (events moves) c := by
  induction moves using List.reverseRecOn generalizing c with
  | nil =>
      rw [legal.eq_start]
      exact .nil
  | append_singleton moves move ih =>
      have earlier := fun other member => fits other (List.mem_append_left _ member)
      obtain ⟨operation, refused⟩ := fits move (List.mem_append_right _ (List.mem_singleton_self _))
      rw [events, List.filterMap_append]
      rw [List.filterMap_append] at legal
      cases ends : answered (view move.source) (view move.target) with
      | none =>
          simp only [List.filterMap_cons, ends, List.filterMap_nil, List.append_nil] at legal
          have before := ih earlier legal
          cases here : event move.source move.target with
          | none => simpa [events, here] using before
          | some entry =>
              have turned := refused ends here
              simp only [List.filterMap_cons, here, List.filterMap_nil]
              exact before.snoc (by rw [serveFile, turned])
      | some entry =>
          obtain ⟨call, admitted, here⟩ := operation ends
          simp only [List.filterMap_cons, ends, List.filterMap_nil] at legal
          obtain ⟨previous, before, served⟩ := legal.last
          simp only [List.filterMap_cons, here, List.filterMap_nil]
          exact (ih earlier before).snoc (by rw [serveFile, admitted]; simp only [served])

/-! ## What is written and what is pasted -/

/-- The line that the item of an accepted write is pasted as. -/
def acceptedText : FileCall × Reply → Option (List UInt8)
  | (.writeWriter stack data _, reply) =>
      if 0 ≤ reply.status then (sscanf (copyFromUser stack data)).map pasteText else none
  | _ => none

def pastedText : FileCall × Reply → Option (List UInt8)
  | (.readWriter, reply) => if reply.status = 0 then some reply.output else none
  | _ => none

def texts (c : Clipboard) : List (List UInt8) := c.items.map fun item : Nat => pasteText item

theorem serveFile_accounts {c next : Clipboard} {call : FileCall} {reply : Reply}
    (served : serveFile c call = (reply, next)) :
    texts c ++ (acceptedText (call, reply)).toList =
      (pastedText (call, reply)).toList ++ texts next := by
  cases call with
  | writeWriter stack data copies =>
      cases checked : checkInput stack data copies with
      | error refusal =>
          rw [serveFile, FileCall.operation, checked] at served
          cases served
          have negative := (checkInput_error checked).1
          simp only [acceptedText, if_neg (not_le.mpr negative), pastedText, Option.toList_none,
            List.append_nil, List.nil_append]
      | ok operation =>
          obtain ⟨item, scanned, rfl⟩ := checkInput_ok checked
          rw [serveFile, FileCall.operation, checked] at served
          cases served
          by_cases room : c.items.length < 5
          · simp [Clipboard.serve, room, Files.reply, acceptedText, scanned, pastedText, texts]
          · simp [Clipboard.serve, room, Files.reply, acceptedText, eperm, pastedText]
  | readWriter =>
      obtain ⟨items, oldest, bounded⟩ := c
      cases items with
      | nil => cases served; rfl
      | cons item rest =>
          cases served
          simp [acceptedText, pastedText, texts, Files.reply, Clipboard.serve]
  | readReader randomBytes =>
      cases served
      simp [acceptedText, pastedText, Clipboard.serve]

/-! ## Every interleaving -/

section

variable {ι : Type} [DecidableEq ι]

/-- The calls take place one after the other, on one clipboard, each thread's in
the order it makes them; the lines pasted and those still to be pasted are the
ones written, in the same order; and with no writer at work the board shows what
is left. -/
structure Linearized (moves : List (Move ι (Caller S)))
    (config : Config ι (Shared S kboardOperations) (Caller S)) (c : Clipboard) : Prop where
  legal : Legal serveFile .empty (events moves) c
  threads : ∀ thread, events (ofThread thread moves) =
    replies (ofThread thread moves) ++ pending (config.thread thread)
  conserved : (events moves).filterMap acceptedText =
    (events moves).filterMap pastedText ++ texts c
  shown : (∀ i, ¬ writing (view (config.thread i))) →
    ∃ completed, Shows config.shared.data c completed

variable {k : Board} {moves : List (Move ι (Caller S))}
  {config : Config ι (Shared S kboardOperations) (Caller S)}

theorem files_of_exclusive
    {permitted : Config ι (Shared S kboardOperations) (Phase S kboardOperations) →
      Move ι (Phase S kboardOperations) → Prop}
    (run : Run (program S) (Permits id view permitted) (initial S k) moves config)
    (exclusive : ∀ {moves config}, Run (Sync.program S kboardOperations) permitted
      (Sync.initial S (initializeKboard k)) moves config → Exclusive config) :
    ∃ c, Linearized moves config c := by
  obtain ⟨seen, operations, selects⟩ := caller_simulates.run run
  obtain ⟨c, linearized⟩ := linearized_of_exclusive operations exclusive
  have selected := selects (fun move => answered move.source move.target) fun _ same => by
    rw [same]
    exact answered_self _
  have legal := linearized.legal
  rw [order, selected] at legal
  have files := legal_events (fits_of_run run).2 legal
  refine ⟨c, files, events_ofThread run, ?_, fun nobody => ⟨_, linearized.shown nobody⟩⟩
  exact files.conserves_content texts _ _ fun _ => serveFile_accounts

end

section

variable {ι : Type} [Fintype ι] [DecidableEq ι] {k : Board}

theorem files_linearizable (S : ReadersWriters) {moves : List (Move ι (Caller S.toSyncSolution))}
    {config : Config ι (Shared S.toSyncSolution kboardOperations) (Caller S.toSyncSolution)}
    (run : Run (program S.toSyncSolution) (fun _ _ => True) (initial S.toSyncSolution k)
      moves config) :
    ∃ c, Linearized moves config c := by
  have operating : Run (program S.toSyncSolution) (Permits id view fun _ _ => True)
      (initial S.toSyncSolution k) moves config := run
  exact files_of_exclusive operating fun run => S.exclusive run.reachable

def advances (thread : Thread) (count : Nat) : List (Thread × CallerAction) :=
  List.replicate count (thread, .advance)

/-- Thread 1 wants to paste while thread 0 is writing 7, and thread 2 is turned
away with -1. -/
def pastingSchedule : List (Thread × CallerAction) :=
  (.t0, .call (.writeWriter nines [55, 10] true)) :: advances .t0 3 ++
    (.t1, .call .readWriter) :: (.t2, .call (.writeWriter nines [45, 49, 10] true)) ::
    advances .t0 7 ++ advances .t1 13

def statusOf : Caller S → Option Int
  | .done _ reply => some reply.status
  | .idle | .busy _ _ => none

theorem files_linearizable_pasting :
    ∃ (moves : _) (config : Config Thread _ (Caller Solution1.solution1)),
      Run (program Solution1.solution1) (fun _ _ => True)
        (initial Solution1.solution1 Board.zero) moves config ∧
      (statusOf (config.thread .t1) == some 0 && statusOf (config.thread .t2) == some (-22)) ∧
      ∃ c, Linearized moves config c := by
  have passed : (execute step (fun _ _ => True) (initial Solution1.solution1 Board.zero)
      pastingSchedule).any (fun config => statusOf (config.thread .t1) == some 0 &&
        statusOf (config.thread .t2) == some (-22)) = true := rfl
  obtain ⟨moves, config, run, checked⟩ := execute_any passed
  exact ⟨moves, config, run, checked, files_linearizable ReadersWriters.solution1 run⟩

end

end Kboard.Procfs.Files
