import Kboard.Sync.System

/-!
# Observers

A function that only loads the data, one load after the other, and never enters
the critical section. Threads run it beside the operations under a solution;
what it returns is known from the values it has loaded.
-/

set_option autoImplicit false

namespace Kboard.Sync

open Concurrency

structure Observer (Data : Type) where
  Point : Type
  Reading : Type
  entry : Point
  load : Data → Point → Control Point Reading

section

variable (S : SyncSolution) (B : Operations) (O : Observer B.Data)

/-- A thread that runs one of the operations or the observer. -/
inductive Caller where
  | operation (phase : Phase S B)
  | observing (point : O.Point)
  | observed (reading : O.Reading)

end

inductive CallerAction (B : Operations) where
  | operation (action : Action B)
  | observe

variable {S : SyncSolution} {B : Operations} {O : Observer B.Data}

def Caller.after : Control O.Point O.Reading → Caller S B O
  | .goto point => .observing point
  | .ret reading => .observed reading

/-- A thread in an observer takes no part in the protocol. -/
def Caller.phase : Caller S B O → Phase S B
  | .operation phase => phase
  | .observing _ | .observed _ => .idle

def callerStep (s : Shared S B) :
    Caller S B O → CallerAction B → Option (Shared S B × Caller S B O)
  | .operation .idle, .observe => some (s, .observing O.entry)
  | .operation phase, .operation action =>
      (step s phase action).map fun (s, phase) => (s, .operation phase)
  | .observing point, .observe => some (s, .after (O.load s.data point))
  | .observed _, .observe => some (s, .operation .idle)
  | _, _ => none

def callerProgram (S : SyncSolution) (B : Operations) (O : Observer B.Data) :
    Program (Shared S B) (Caller S B O) :=
  Program.ofStep callerStep

def callerInitial {ι : Type} (S : SyncSolution) (O : Observer B.Data) (data : B.Data) :
    Config ι (Shared S B) (Caller S B O) :=
  Config.uniform ⟨S.initializeSyncSolution, data⟩ (.operation .idle)

/-! ## What a step can do -/

inductive CallerTransition : Program (Shared S B) (Caller S B O) where
  | operation {s s' : Shared S B} {source target : Phase S B}
      (stepped : program S B s source s' target) :
      CallerTransition s (.operation source) s' (.operation target)
  | call {s : Shared S B} : CallerTransition s (.operation .idle) s (.observing O.entry)
  | load {s : Shared S B} {point : O.Point} :
      CallerTransition s (.observing point) s (.after (O.load s.data point))
  | collect {s : Shared S B} {reading : O.Reading} :
      CallerTransition s (.observed reading) s (.operation .idle)

theorem transition_of_callerProgram {s s' : Shared S B} {source target : Caller S B O}
    (taken : callerProgram S B O s source s' target) : CallerTransition s source s' target := by
  obtain ⟨action, taken⟩ := taken
  cases source with
  | operation phase =>
      cases action with
      | operation action =>
          have mapped : (step s phase action).map
              (fun (s, phase) => (s, Caller.operation phase)) = some (s', target) := by
            cases phase <;> exact taken
          obtain ⟨⟨next, phase'⟩, stepped, same⟩ := Option.map_eq_some_iff.mp mapped
          cases same
          exact .operation ⟨action, stepped⟩
      | observe =>
          cases phase with
          | idle => cases taken; exact .call
          | enterWriter | criticalWriter | leaveWriter | enterReader | criticalReader
          | leaveReader => cases taken
  | observing point =>
      cases action with
      | operation action => cases taken
      | observe => cases taken; exact .load
  | observed reading =>
      cases action with
      | operation action => cases taken
      | observe => cases taken; exact .collect

private theorem phase_after (control : Control O.Point O.Reading) :
    (Caller.after control : Caller S B O).phase = .idle := by
  cases control <;> rfl

theorem caller_simulates : Simulates (callerProgram S B O) (program S B) id Caller.phase := by
  intro s source s' target taken
  cases transition_of_callerProgram taken with
  | operation stepped => exact .inl stepped
  | call | collect => exact .inr ⟨rfl, rfl⟩
  | load => exact .inr ⟨rfl, phase_after _⟩

end Kboard.Sync
