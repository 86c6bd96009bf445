import Kboard.Concurrency.Interleaving

/-!
# Operations around a critical section

The kboard module compiles one of three Readers-Writers solutions in, selected
by `SYNC_SOLUTION`. A solution is its synchronization variables and the four
functions that enter and leave the critical section; the operations it
protects only see their own data. Both are parameters here, so what is proved
of a solution holds for every body run under it.
-/

set_option autoImplicit false

namespace Kboard.Sync

open Concurrency

/-- One choice of `SYNC_SOLUTION`: the synchronization variables, the state
`InitializeSyncSolution` leaves, and the enter and leave functions as atomic
steps between program points. A step is `none` while it has to wait. -/
structure SyncSolution where
  Variables : Type
  EnterWriter : Type
  EnterReader : Type
  LeaveWriter : Type
  LeaveReader : Type
  initializeSyncSolution : Variables
  enterWriterEntry : EnterWriter
  enterReaderEntry : EnterReader
  leaveWriterEntry : LeaveWriter
  leaveReaderEntry : LeaveReader
  enterCriticalSectionWriter : Variables → EnterWriter →
    Option (Variables × Control EnterWriter Unit)
  enterCriticalSectionReader : Variables → EnterReader →
    Option (Variables × Control EnterReader Unit)
  leaveCriticalSectionWriter : Variables → LeaveWriter →
    Option (Variables × Control LeaveWriter Unit)
  leaveCriticalSectionReader : Variables → LeaveReader →
    Option (Variables × Control LeaveReader Unit)

/-- The operations run under a solution: the data they share, their calls and
the atomic steps of their bodies. A body never waits. -/
structure Operations where
  Data : Type
  WriterCall : Type
  ReaderCall : Type
  WriterBody : Type
  ReaderBody : Type
  WriterResult : Type
  ReaderResult : Type
  writerStart : WriterCall → WriterBody
  readerStart : ReaderCall → ReaderBody
  writerStep : Data → WriterBody → Data × Control WriterBody WriterResult
  readerStep : Data → ReaderBody → Data × Control ReaderBody ReaderResult

structure Shared (S : SyncSolution) (B : Operations) where
  sync : S.Variables
  data : B.Data

/-- Where a thread stands. `critical` means that its Enter has returned and
its Leave has not been called. -/
inductive Phase (S : SyncSolution) (B : Operations) where
  | idle
  | enterWriter (call : B.WriterCall) (point : S.EnterWriter)
  | criticalWriter (call : B.WriterCall) (body : B.WriterBody)
  | leaveWriter (call : B.WriterCall) (result : B.WriterResult) (point : S.LeaveWriter)
  | enterReader (call : B.ReaderCall) (point : S.EnterReader)
  | criticalReader (call : B.ReaderCall) (body : B.ReaderBody)
  | leaveReader (call : B.ReaderCall) (result : B.ReaderResult) (point : S.LeaveReader)

inductive Action (B : Operations) where
  | callWriter (call : B.WriterCall)
  | callReader (call : B.ReaderCall)
  | advance

variable {S : SyncSolution} {B : Operations}

namespace Phase

def enteredWriter (call : B.WriterCall) : Control S.EnterWriter Unit → Phase S B
  | .goto point => .enterWriter call point
  | .ret () => .criticalWriter call (B.writerStart call)

def workedWriter (call : B.WriterCall) : Control B.WriterBody B.WriterResult → Phase S B
  | .goto body => .criticalWriter call body
  | .ret result => .leaveWriter call result S.leaveWriterEntry

def leftWriter (call : B.WriterCall) (result : B.WriterResult) :
    Control S.LeaveWriter Unit → Phase S B
  | .goto point => .leaveWriter call result point
  | .ret () => .idle

def enteredReader (call : B.ReaderCall) : Control S.EnterReader Unit → Phase S B
  | .goto point => .enterReader call point
  | .ret () => .criticalReader call (B.readerStart call)

def workedReader (call : B.ReaderCall) : Control B.ReaderBody B.ReaderResult → Phase S B
  | .goto body => .criticalReader call body
  | .ret result => .leaveReader call result S.leaveReaderEntry

def leftReader (call : B.ReaderCall) (result : B.ReaderResult) :
    Control S.LeaveReader Unit → Phase S B
  | .goto point => .leaveReader call result point
  | .ret () => .idle

/-- The thread has called an operation and has not come back from it. -/
def Inside (phase : Phase S B) : Prop := phase ≠ .idle

/-- The thread has not taken the first step of an Enter, or has taken the last
step of its Leave. -/
def Outside : Phase S B → Prop
  | .idle => True
  | .enterWriter _ point => point = S.enterWriterEntry
  | .enterReader _ point => point = S.enterReaderEntry
  | _ => False

end Phase

def step (s : Shared S B) : Phase S B → Action B → Option (Shared S B × Phase S B)
  | .idle, .callWriter call => some (s, .enterWriter call S.enterWriterEntry)
  | .idle, .callReader call => some (s, .enterReader call S.enterReaderEntry)
  | .enterWriter call point, .advance =>
      (S.enterCriticalSectionWriter s.sync point).map fun (sync, control) =>
        ({ s with sync }, .enteredWriter call control)
  | .criticalWriter call body, .advance =>
      let (data, control) := B.writerStep s.data body
      some ({ s with data }, .workedWriter call control)
  | .leaveWriter call result point, .advance =>
      (S.leaveCriticalSectionWriter s.sync point).map fun (sync, control) =>
        ({ s with sync }, .leftWriter call result control)
  | .enterReader call point, .advance =>
      (S.enterCriticalSectionReader s.sync point).map fun (sync, control) =>
        ({ s with sync }, .enteredReader call control)
  | .criticalReader call body, .advance =>
      let (data, control) := B.readerStep s.data body
      some ({ s with data }, .workedReader call control)
  | .leaveReader call result point, .advance =>
      (S.leaveCriticalSectionReader s.sync point).map fun (sync, control) =>
        ({ s with sync }, .leftReader call result control)
  | _, _ => none

def program (S : SyncSolution) (B : Operations) : Program (Shared S B) (Phase S B) :=
  Program.ofStep step

def initial {ι : Type} (S : SyncSolution) (data : B.Data) : Config ι (Shared S B) (Phase S B) :=
  Config.uniform ⟨S.initializeSyncSolution, data⟩ .idle

theorem run_of_execute {ι : Type} [DecidableEq ι] (S : SyncSolution) (data : B.Data)
    (allowed : Config ι (Shared S B) (Phase S B) → Move ι (Phase S B) → Prop)
    [∀ config move, Decidable (allowed config move)]
    (schedule : List (ι × Action B)) (check : Config ι (Shared S B) (Phase S B) → Bool)
    (passed : (execute step allowed (initial S data) schedule).any check = true) :
    ∃ moves config, Run (program S B) allowed (initial S data) moves config ∧
      check config = true :=
  execute_any passed

theorem reachable_of_execute {ι : Type} [DecidableEq ι] (S : SyncSolution) (data : B.Data)
    (schedule : List (ι × Action B)) (check : Config ι (Shared S B) (Phase S B) → Bool)
    (passed : (execute step (fun _ _ => True) (initial S data) schedule).any check = true) :
    ∃ config, Reachable (program S B) (initial S data) config ∧ check config = true := by
  obtain ⟨moves, config, run, checked⟩ := run_of_execute S data _ schedule check passed
  exact ⟨config, run.reachable, checked⟩

theorem reachable_get {ι : Type} [DecidableEq ι] {S : SyncSolution} {data : B.Data}
    {schedule : List (ι × Action B)}
    (done : (execute step (fun _ _ => True) (initial S data) schedule).isSome = true) :
    Reachable (program S B) (initial S data)
      ((execute step (fun _ _ => True) (initial S data) schedule).get done) :=
  (execute_sound (Option.some_get done).symm).reachable

/-! ## What a step can do -/

inductive Transition : Program (Shared S B) (Phase S B) where
  | callWriter {s : Shared S B} {call : B.WriterCall} :
      Transition s .idle s (.enterWriter call S.enterWriterEntry)
  | callReader {s : Shared S B} {call : B.ReaderCall} :
      Transition s .idle s (.enterReader call S.enterReaderEntry)
  | enterWriter {s : Shared S B} {call : B.WriterCall} {point : S.EnterWriter}
      {sync : S.Variables} {control : Control S.EnterWriter Unit}
      (taken : S.enterCriticalSectionWriter s.sync point = some (sync, control)) :
      Transition s (.enterWriter call point) { s with sync } (.enteredWriter call control)
  | criticalWriter {s : Shared S B} {call : B.WriterCall} {body : B.WriterBody} :
      Transition s (.criticalWriter call body) { s with data := (B.writerStep s.data body).1 }
        (.workedWriter call (B.writerStep s.data body).2)
  | leaveWriter {s : Shared S B} {call : B.WriterCall} {result : B.WriterResult}
      {point : S.LeaveWriter} {sync : S.Variables} {control : Control S.LeaveWriter Unit}
      (taken : S.leaveCriticalSectionWriter s.sync point = some (sync, control)) :
      Transition s (.leaveWriter call result point) { s with sync }
        (.leftWriter call result control)
  | enterReader {s : Shared S B} {call : B.ReaderCall} {point : S.EnterReader}
      {sync : S.Variables} {control : Control S.EnterReader Unit}
      (taken : S.enterCriticalSectionReader s.sync point = some (sync, control)) :
      Transition s (.enterReader call point) { s with sync } (.enteredReader call control)
  | criticalReader {s : Shared S B} {call : B.ReaderCall} {body : B.ReaderBody} :
      Transition s (.criticalReader call body) { s with data := (B.readerStep s.data body).1 }
        (.workedReader call (B.readerStep s.data body).2)
  | leaveReader {s : Shared S B} {call : B.ReaderCall} {result : B.ReaderResult}
      {point : S.LeaveReader} {sync : S.Variables} {control : Control S.LeaveReader Unit}
      (taken : S.leaveCriticalSectionReader s.sync point = some (sync, control)) :
      Transition s (.leaveReader call result point) { s with sync }
        (.leftReader call result control)

theorem transition_of_program {s s' : Shared S B} {source target : Phase S B}
    (taken : program S B s source s' target) : Transition s source s' target := by
  obtain ⟨action, taken⟩ := taken
  cases source with
  | idle =>
      cases action with
      | callWriter call => cases taken; exact .callWriter
      | callReader call => cases taken; exact .callReader
      | advance => cases taken
  | enterWriter call point =>
      cases action with
      | callWriter call | callReader call => cases taken
      | advance =>
          obtain ⟨⟨sync, control⟩, entered, same⟩ := Option.map_eq_some_iff.mp taken
          cases same
          exact .enterWriter entered
  | criticalWriter call body =>
      cases action with
      | callWriter call | callReader call => cases taken
      | advance => cases taken; exact .criticalWriter
  | leaveWriter call result point =>
      cases action with
      | callWriter call | callReader call => cases taken
      | advance =>
          obtain ⟨⟨sync, control⟩, left, same⟩ := Option.map_eq_some_iff.mp taken
          cases same
          exact .leaveWriter left
  | enterReader call point =>
      cases action with
      | callWriter call | callReader call => cases taken
      | advance =>
          obtain ⟨⟨sync, control⟩, entered, same⟩ := Option.map_eq_some_iff.mp taken
          cases same
          exact .enterReader entered
  | criticalReader call body =>
      cases action with
      | callWriter call | callReader call => cases taken
      | advance => cases taken; exact .criticalReader
  | leaveReader call result point =>
      cases action with
      | callWriter call | callReader call => cases taken
      | advance =>
          obtain ⟨⟨sync, control⟩, left, same⟩ := Option.map_eq_some_iff.mp taken
          cases same
          exact .leaveReader left

/-- The thread is in an operation and does not have to wait. -/
def ready (s : Shared S B) (phase : Phase S B) : Bool := (step s phase .advance).isSome

theorem enabled_of_ready {ι : Type} {config : Config ι (Shared S B) (Phase S B)} {thread : ι}
    (goesOn : ready config.shared (config.thread thread)) :
    (config.thread thread).Inside ∧ config.Enabled (program S B) thread := by
  obtain ⟨⟨shared, target⟩, taken⟩ := Option.isSome_iff_exists.mp goesOn
  constructor
  · intro idle
    rw [idle] at taken
    cases taken
  · exact ⟨shared, target, .advance, taken⟩

end Kboard.Sync
