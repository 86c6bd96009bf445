import Kboard.Syscall.Linearization
import Mathlib.Algebra.Group.Nat.Defs

/-!
# The synchronization test of the system calls

`copy_sync_test` copies 0, 1, 2, ... to the clipboard and `paste_sync_test`
checks that it gets them back in that order. Each program is its loop, one
statement at a time; a system call is taken step by step as the kernel runs it.
The variables of the programs are `int`s that wrap around.
-/

set_option autoImplicit false

namespace Kboard.Syscall.SyncTest

open Concurrency Queue

/-- `x++` on an `int`. -/
def increment (x : Int) : Int := (x + 1).bmod (2 ^ 32)

/-- What the library's `syscall` makes of the number a system call returns. -/
def syscallResult (status : Int) : Int := if status < 0 then -1 else status

inductive CopyPoint where
  | top
  | kboardCopy (phase : Phase)
  | incrementValue

structure PasteLocals where
  clipBoardValue : Int
  expectValue : Int
  iteration : Int

inductive PastePoint where
  | top
  | callKboardPaste
  | kboardPaste (phase : Phase)
  | testClipBoardValue
  | incrementExpectValue
  | validationFault

inductive Client where
  | copySyncTest (value : Int) (point : CopyPoint)
  | pasteSyncTest (locals : PasteLocals) (point : PastePoint)

def copySyncTest (s : Variables) (value : Int) : CopyPoint → Option (Variables × Client)
  | .top => some (s, .copySyncTest value (.kboardCopy (start (.enqueue value))))
  | .kboardCopy (.returned _ result) =>
      some (s, .copySyncTest value
        (if syscallResult result.status ≠ 0 then .top else .incrementValue))
  | .kboardCopy phase => (Syscall.step s phase .advance).map fun (s, phase) =>
      (s, .copySyncTest value (.kboardCopy phase))
  | .incrementValue => some (s, .copySyncTest (increment value) .top)

/-- The loop of `paste_sync_test`. `copies` says whether `copy_to_user` will
succeed for the call that is made here. What a failed call leaves in
`clipBoardValue` is never read. -/
def pasteSyncTest (s : Variables) (locals : PasteLocals) (copies : Bool) :
    PastePoint → Option (Variables × Client)
  | .top => some (s, .pasteSyncTest { locals with iteration := increment locals.iteration }
      .callKboardPaste)
  | .callKboardPaste => some (s, .pasteSyncTest locals (.kboardPaste (start (.dequeue copies))))
  | .kboardPaste (.returned _ result) =>
      some (s, .pasteSyncTest
        { locals with clipBoardValue := result.item.getD locals.clipBoardValue }
        (if syscallResult result.status ≠ 0 then .top else .testClipBoardValue))
  | .kboardPaste phase => (Syscall.step s phase .advance).map fun (s, phase) =>
      (s, .pasteSyncTest locals (.kboardPaste phase))
  | .testClipBoardValue =>
      some (s, .pasteSyncTest locals
        (if locals.clipBoardValue ≠ locals.expectValue then .validationFault
          else .incrementExpectValue))
  | .incrementExpectValue =>
      some (s, .pasteSyncTest { locals with expectValue := increment locals.expectValue } .top)
  | .validationFault => none

def step (s : Variables) : Client → Bool → Option (Variables × Client)
  | .copySyncTest value point, _ => copySyncTest s value point
  | .pasteSyncTest locals point, copies => pasteSyncTest s locals copies point

def program : Program Variables Client := Program.ofStep step

inductive Process where
  | producer
  | consumer
  deriving DecidableEq

/-- Both programs are about to enter their loops. `clipBoardValue` is not
initialised. -/
def initial (origin : Variables) (clipBoardValue : Int) : Config Process Variables Client where
  shared := origin
  thread
    | .producer => .copySyncTest 0 .top
    | .consumer => .pasteSyncTest ⟨clipBoardValue, 0, 0⟩ .top

/-- `kboard_copy` is back with 0. -/
def copied : Client → Bool
  | .copySyncTest _ (.kboardCopy (.returned _ result)) => result.status == 0
  | _ => false

def successfulCopies (moves : List (Move Process Client)) : Nat :=
  moves.countP fun move => copied move.target

def faulted : Client → Bool
  | .pasteSyncTest _ .validationFault => true
  | _ => false

/-! ## The calls of the clients

Seen from the kernel, a client outside a call is idle. -/

def view : Client → Phase
  | .copySyncTest _ (.kboardCopy phase) | .pasteSyncTest _ (.kboardPaste phase) => phase
  | .copySyncTest _ _ | .pasteSyncTest _ _ => .idle

def accepted {ι : Type} (moves : List (Move ι Phase)) : List Int :=
  (history moves).filterMap accepts

def delivered {ι : Type} (moves : List (Move ι Phase)) : List Int :=
  (history moves).filterMap delivers

/-- The items that a call adds when a thread comes to stand here. -/
def newlyAccepted (phase : Phase) : List Int := ((outcome phase).bind accepts).toList

def newlyDelivered (phase : Phase) : List Int := ((outcome phase).bind delivers).toList

private theorem accepted_append {ι : Type} (moves : List (Move ι Phase)) (move : Move ι Phase) :
    accepted (moves ++ [move]) = accepted moves ++ newlyAccepted move.target := by
  simp only [accepted, history, newlyAccepted, List.filterMap_append]
  cases ended : outcome move.target with
  | none => simp [ended]
  | some entry => cases taken : accepts entry <;> simp [ended, taken]

private theorem delivered_append {ι : Type} (moves : List (Move ι Phase)) (move : Move ι Phase) :
    delivered (moves ++ [move]) = delivered moves ++ newlyDelivered move.target := by
  simp only [delivered, history, newlyDelivered, List.filterMap_append]
  cases ended : outcome move.target with
  | none => simp [ended]
  | some entry => cases taken : delivers entry <;> simp [ended, taken]

/-- An item comes back exactly with a dequeue that returns 0. -/
def Answered : Call × Result → Prop
  | (.dequeue _, result) => if result.status = 0 then ∃ item, result.item = some item
      else result.item = none
  | (.enqueue _, result) | (.init, result) => result.item = none

theorem serve_answered {queue next : List Int} {call : Call} {result : Result}
    (served : serve queue call = (result, next)) : Answered (call, result) := by
  cases call with
  | enqueue item =>
      simp only [serve] at served
      split at served
      · cases served; rfl
      · split at served <;> cases served <;> rfl
  | dequeue copies =>
      cases queue with
      | nil => cases served; rfl
      | cons item rest =>
          cases copies with
          | true => cases served; exact ⟨item, rfl⟩
          | false => cases served; rfl
  | init => cases served; rfl

/-- A step of a call stays in the call or returns from it. -/
theorem step_running {s s' : Variables} {point : Point} {phase : Phase}
    (taken : Syscall.step s (.running point) .advance = some (s', phase)) :
    (∃ next : Point, next.call = point.call ∧ phase = .running next) ∨
      ∃ result, phase = .returned point.call result := by
  cases point with
  | enqueue item point =>
      obtain ⟨⟨next, control⟩, worked, same⟩ := Option.map_eq_some_iff.mp taken
      cases same
      cases control with
      | goto further => exact .inl ⟨.enqueue item further, rfl, rfl⟩
      | ret result => exact .inr ⟨result, rfl⟩
  | dequeue copies point =>
      obtain ⟨⟨next, control⟩, worked, same⟩ := Option.map_eq_some_iff.mp taken
      cases same
      cases control with
      | goto further => exact .inl ⟨.dequeue copies further, rfl, rfl⟩
      | ret result => exact .inr ⟨result, rfl⟩
  | init point =>
      obtain ⟨⟨next, control⟩, worked, same⟩ := Option.map_eq_some_iff.mp taken
      cases same
      cases control with
      | goto further => exact .inl ⟨.init further, rfl, rfl⟩
      | ret result => exact .inr ⟨result, rfl⟩

private theorem not_inInit_running {point : Point} (other : point.call ≠ .init) :
    ¬ inInit (.running point) := by
  cases point with
  | enqueue | dequeue => exact Bool.false_ne_true
  | init => exact absurd rfl other

private theorem not_inInit_returned {call : Call} {result : Result} (other : call ≠ .init) :
    ¬ inInit (.returned call result) := by
  cases call with
  | enqueue | dequeue => exact Bool.false_ne_true
  | init => exact absurd rfl other

/-! ## What the clients know -/

/-- The producer after `count` accepted copies. -/
def CopyKnows (count : Nat) (value : Int) : CopyPoint → Prop
  | .top => value = count
  | .kboardCopy (.running point) => value = count ∧ point.call = .enqueue value
  | .kboardCopy (.returned call result) =>
      call = .enqueue value ∧ if result.status = 0 then value + 1 = count else value = count
  | .kboardCopy .idle => False
  | .incrementValue => value + 1 = count

/-- The consumer after these items were delivered. -/
def PasteKnows (items : List Int) (locals : PasteLocals) : PastePoint → Prop
  | .top | .callKboardPaste => locals.expectValue = items.length
  | .kboardPaste (.running point) =>
      locals.expectValue = items.length ∧ ∃ copies, point.call = .dequeue copies
  | .kboardPaste (.returned call result) => (∃ copies, call = .dequeue copies) ∧
      ∃ earlier, locals.expectValue = earlier.length ∧
        if result.status = 0 then ∃ item, result.item = some item ∧ items = earlier ++ [item]
        else items = earlier
  | .kboardPaste .idle => False
  | .testClipBoardValue => ∃ earlier, locals.expectValue = earlier.length ∧
      items = earlier ++ [locals.clipBoardValue]
  | .incrementExpectValue => locals.expectValue + 1 = items.length
  | .validationFault => False

private theorem increment_of_lt {x : Int} (nonneg : 0 ≤ x + 1) (bounded : x + 1 < 2 ^ 31) :
    increment x = x + 1 := by
  unfold increment
  exact Int.bmod_eq_of_le (by omega) (by omega)

theorem syscallResult_eq_zero_iff {status : Int} : syscallResult status = 0 ↔ status = 0 := by
  unfold syscallResult
  split <;> omega

/-- The kernel sees a step of a client as a step of its own, or not at all. -/
structure Follows (s : Variables) (source : Phase) (s' : Variables) (target : Phase) : Prop where
  kernel : Syscall.program s source s' target ∨ s' = s ∧ source = .idle ∧ target = .idle
  noInit : ¬ inInit target

theorem Follows.within {s s' : Variables} {point : Point} {phase : Phase}
    (taken : Syscall.step s (.running point) .advance = some (s', phase))
    (other : point.call ≠ .init) : Follows s (.running point) s' phase := by
  refine ⟨.inl ⟨.advance, taken⟩, ?_⟩
  rcases step_running taken with ⟨next, same, rfl⟩ | ⟨result, rfl⟩
  · exact not_inInit_running (same.trans_ne other)
  · exact not_inInit_returned other

theorem Follows.start (s : Variables) (call : Call) (other : call ≠ .init) :
    Follows s .idle s (Syscall.start call) := by
  refine ⟨.inl ⟨.call call, rfl⟩, ?_⟩
  cases call with
  | enqueue item =>
      simp only [Syscall.start]
      split <;> exact Bool.false_ne_true
  | dequeue copies => exact Bool.false_ne_true
  | init => exact absurd rfl other

theorem Follows.collect (s : Variables) (call : Call) (result : Result) :
    Follows s (.returned call result) s .idle :=
  ⟨.inl ⟨.advance, rfl⟩, Bool.false_ne_true⟩

theorem Follows.silent (s : Variables) : Follows s .idle s .idle :=
  ⟨.inr ⟨rfl, rfl, rfl⟩, Bool.false_ne_true⟩

variable {s s' : Variables} {client : Client}

/-- What a step of `copy_sync_test` adds to the accepted items. -/
def Copies (count : Nat) (client : Client) (value : Int) (point : CopyPoint) : Prop :=
  copied client = true ∧ newlyAccepted (view client) = [(count : Int)] ∧
      CopyKnows (count + 1) value point ∨
    copied client = false ∧ newlyAccepted (view client) = [] ∧ CopyKnows count value point

private theorem copySyncTest_returned {count : Nat} {value : Int} {result : Result}
    (counted : value = count) :
    Copies count (.copySyncTest value (.kboardCopy (.returned (.enqueue value) result))) value
      (.kboardCopy (.returned (.enqueue value) result)) := by
  by_cases success : result.status = 0
  · refine .inl ⟨?_, ?_, rfl, ?_⟩
    · simp [copied, success]
    · simp [newlyAccepted, view, outcome, accepts, success, counted]
    · rw [if_pos success, counted]
      rfl
  · refine .inr ⟨?_, ?_, rfl, ?_⟩
    · simp [copied, success]
    · simp [newlyAccepted, view, outcome, accepts, success]
    · rw [if_neg success, counted]

/-- One step of `copy_sync_test`. -/
private theorem copySyncTest_step {count : Nat} {value : Int} {point : CopyPoint}
    (known : CopyKnows count value point) (bounded : count < 2 ^ 31)
    (taken : copySyncTest s value point = some (s', client)) :
    Follows s (view (.copySyncTest value point)) s' (view client) ∧
      ∃ value' point', client = .copySyncTest value' point' ∧
        Copies count client value' point' := by
  cases point with
  | top =>
      cases taken
      refine ⟨.start s (.enqueue value) Call.noConfusion, value, _, rfl, ?_⟩
      simp only [start]
      split
      · exact copySyncTest_returned known
      · exact .inr ⟨rfl, rfl, known, rfl⟩
  | kboardCopy phase =>
      cases phase with
      | idle => exact absurd known id
      | running point =>
          obtain ⟨counted, call⟩ := known
          obtain ⟨⟨next, phase⟩, advanced, same⟩ := Option.map_eq_some_iff.mp taken
          cases same
          refine ⟨.within advanced (by rw [call]; exact Call.noConfusion), value, _, rfl, ?_⟩
          rcases step_running advanced with ⟨further, sameCall, rfl⟩ | ⟨result, rfl⟩
          · exact .inr ⟨rfl, rfl, counted, sameCall.trans call⟩
          · rw [call]
            exact copySyncTest_returned counted
      | returned call result =>
          obtain ⟨_, counted⟩ := known
          cases taken
          by_cases success : result.status = 0
          · rw [if_pos success] at counted
            rw [if_neg (not_not.mpr (syscallResult_eq_zero_iff.mpr success))]
            exact ⟨.collect s call result, value, _, rfl, .inr ⟨rfl, rfl, counted⟩⟩
          · rw [if_neg success] at counted
            rw [if_pos (syscallResult_eq_zero_iff.not.mpr success)]
            exact ⟨.collect s call result, value, _, rfl, .inr ⟨rfl, rfl, counted⟩⟩
  | incrementValue =>
      cases taken
      have counted : value + 1 = count := known
      refine ⟨.silent s, _, _, rfl, .inr ⟨rfl, rfl, ?_⟩⟩
      rw [increment_of_lt (by omega) (by omega)]
      exact counted

/-- What a step of `paste_sync_test` adds to the delivered items. -/
def Pastes (items : List Int) (client : Client) : Prop :=
  copied client = false ∧ newlyAccepted (view client) = [] ∧
    ∃ locals point, client = .pasteSyncTest locals point ∧
      ((∀ entry, outcome (view client) = some entry → Answered entry) →
        PasteKnows (items ++ newlyDelivered (view client)) locals point)

theorem Pastes.quiet {items : List Int} {locals : PasteLocals} {point : PastePoint}
    (noOutcome : outcome (view (.pasteSyncTest locals point)) = none)
    (known : PasteKnows items locals point) : Pastes items (.pasteSyncTest locals point) := by
  refine ⟨rfl, ?_, locals, point, rfl, fun _ => ?_⟩
  · simp [newlyAccepted, noOutcome]
  · simpa [newlyDelivered, noOutcome] using known

theorem Pastes.returned {items : List Int} {locals : PasteLocals} (copies : Bool)
    (result : Result) (expected : locals.expectValue = items.length) :
    Pastes items (.pasteSyncTest locals (.kboardPaste (.returned (.dequeue copies) result))) := by
  refine ⟨rfl, rfl, locals, _, rfl, fun answered => ⟨⟨copies, rfl⟩, items, expected, ?_⟩⟩
  have answer := answered _ rfl
  simp only [Answered] at answer
  by_cases success : result.status = 0
  · rw [if_pos success] at answer ⊢
    obtain ⟨item, copied⟩ := answer
    exact ⟨item, copied, by simp [newlyDelivered, view, outcome, delivers, copied]⟩
  · rw [if_neg success] at answer ⊢
    simp [newlyDelivered, view, outcome, delivers, answer]

/-- One step of `paste_sync_test`. The items come back in the order of their
values, so the test succeeds. -/
private theorem pasteSyncTest_step {items : List Int} {locals : PasteLocals} {copies : Bool}
    {point : PastePoint} (known : PasteKnows items locals point)
    (bounded : items.length < 2 ^ 31)
    (ordered : ∀ earlier item, items = earlier ++ [item] → item = earlier.length)
    (taken : pasteSyncTest s locals copies point = some (s', client)) :
    Follows s (view (.pasteSyncTest locals point)) s' (view client) ∧ Pastes items client := by
  cases point with
  | top =>
      cases taken
      exact ⟨.silent s, .quiet rfl known⟩
  | callKboardPaste =>
      cases taken
      exact ⟨.start s (.dequeue copies) Call.noConfusion, .quiet rfl ⟨known, copies, rfl⟩⟩
  | kboardPaste phase =>
      cases phase with
      | idle => exact absurd known id
      | running point =>
          obtain ⟨expected, copies, call⟩ := known
          obtain ⟨⟨next, phase⟩, advanced, same⟩ := Option.map_eq_some_iff.mp taken
          cases same
          refine ⟨.within advanced (by rw [call]; exact Call.noConfusion), ?_⟩
          rcases step_running advanced with ⟨further, sameCall, rfl⟩ | ⟨result, rfl⟩
          · exact .quiet rfl ⟨expected, copies, sameCall.trans call⟩
          · rw [call]
            exact .returned copies result expected
      | returned call result =>
          obtain ⟨_, earlier, expected, answered⟩ := known
          cases taken
          by_cases success : result.status = 0
          · rw [if_pos success] at answered
            obtain ⟨item, copied, rfl⟩ := answered
            rw [if_neg (not_not.mpr (syscallResult_eq_zero_iff.mpr success)), copied]
            exact ⟨.collect s call result, .quiet rfl ⟨earlier, expected, rfl⟩⟩
          · rw [if_neg success] at answered
            rw [if_pos (syscallResult_eq_zero_iff.not.mpr success), answered]
            exact ⟨.collect s call result, .quiet rfl expected⟩
  | testClipBoardValue =>
      cases taken
      obtain ⟨earlier, expected, rfl⟩ := known
      have same : locals.clipBoardValue = locals.expectValue :=
        (ordered earlier locals.clipBoardValue rfl).trans expected.symm
      rw [if_neg (not_not.mpr same)]
      refine ⟨.silent s, .quiet rfl ?_⟩
      simp [PasteKnows, expected]
  | incrementExpectValue =>
      cases taken
      have expected : locals.expectValue + 1 = items.length := known
      exact ⟨.silent s, .quiet rfl ((increment_of_lt (by omega) (by omega)).trans expected)⟩
  | validationFault => exact absurd known id

/-! ## Whole runs -/

/-- The values of the first successful copies. -/
def firstValues (count : Nat) : List Int :=
  (List.range count).map fun (value : Nat) => (value : Int)

private theorem firstValues_succ (count : Nat) :
    firstValues (count + 1) = firstValues count ++ [(count : Int)] := by
  simp [firstValues, List.range_succ]

private theorem eq_length_of_firstValues {count : Nat} {earlier rest : List Int} {item : Int}
    (split : firstValues count = earlier ++ item :: rest) : item = earlier.length := by
  have found : (firstValues count)[earlier.length]? = some item := by simp [split]
  rw [firstValues, List.getElem?_map] at found
  obtain ⟨value, counted, rfl⟩ := Option.map_eq_some_iff.mp found
  obtain ⟨_, same⟩ := List.getElem?_eq_some_iff.mp counted
  rw [← same, List.getElem_range]

private theorem length_le_of_firstValues {count : Nat} {items queue : List Int}
    (conserved : firstValues count = items ++ queue) : items.length ≤ count := by
  have lengths := congrArg List.length conserved
  simp only [firstValues, List.length_map, List.length_range, List.length_append] at lengths
  omega

private theorem queue_of_firstValues {count : Nat} {items queue : List Int}
    (conserved : firstValues count = items ++ queue) :
    queue = (List.range (count - items.length)).map fun (offset : Nat) =>
      (items.length : Int) + offset := by
  have lengths := congrArg List.length conserved
  simp only [firstValues, List.length_map, List.length_range, List.length_append] at lengths
  apply List.ext_getElem
  · simp only [List.length_map, List.length_range]
    omega
  · intro offset inQueue _
    have found : (firstValues count)[items.length + offset]? = some queue[offset] := by
      rw [conserved, List.getElem?_append_right (by omega)]
      simp [inQueue]
    rw [firstValues, List.getElem?_map] at found
    obtain ⟨value, counted, same⟩ := Option.map_eq_some_iff.mp found
    obtain ⟨_, position⟩ := List.getElem?_eq_some_iff.mp counted
    rw [List.getElem_range] at position
    simp only [List.getElem_map, List.getElem_range]
    omega

/-- The kernel has run the calls of the clients, and both clients know how far
they have come. -/
def Tracked (origin : Variables) (count : Nat) (config : Config Process Variables Client) : Prop :=
  ∃ moves, Run Syscall.program NoInit (Syscall.initial origin) moves (config.map id view) ∧
    accepted moves = firstValues count ∧
    (∃ value point, config.thread .producer = .copySyncTest value point ∧
      CopyKnows count value point) ∧
    ∃ locals point, config.thread .consumer = .pasteSyncTest locals point ∧
      PasteKnows (delivered moves) locals point

private theorem newlyDelivered_of_copyKnows {count : Nat} {value : Int} {point : CopyPoint}
    (known : CopyKnows count value point)
    (answered : ∀ entry, outcome (view (.copySyncTest value point)) = some entry →
      Answered entry) : newlyDelivered (view (.copySyncTest value point)) = [] := by
  cases point with
  | top | incrementValue => rfl
  | kboardCopy phase =>
      cases phase with
      | idle | running => rfl
      | returned call result =>
          obtain ⟨rfl, _⟩ := known
          have noItem : result.item = none := answered _ rfl
          simp [newlyDelivered, view, outcome, delivers, noItem]

variable {origin : Variables} {count : Nat} {config : Config Process Variables Client}

/-- The kernel's run goes along with a step of a client. -/
theorem Follows.extend {process : Process} {moves : List (Move Process Phase)}
    (follows : Follows config.shared (view (config.thread process)) s' (view client))
    (run : Run Syscall.program NoInit (Syscall.initial origin) moves (config.map id view)) :
    ∃ further, Run Syscall.program NoInit (Syscall.initial origin) further
        ((config.advance process s' client).map id view) ∧
      accepted further = accepted moves ++ newlyAccepted (view client) ∧
      delivered further = delivered moves ++ newlyDelivered (view client) ∧
      ∀ entry, outcome (view client) = some entry → entry ∈ history further := by
  rcases follows.kernel with stepped | ⟨rfl, before, after⟩
  · refine ⟨moves ++ [⟨process, view (config.thread process), view client⟩], ?_,
      accepted_append .., delivered_append .., ?_⟩
    · rw [Config.map_advance]
      exact run.snoc follows.noInit (.intro stepped)
    · intro entry ended
      simp [history, ended]
  · refine ⟨moves, ?_, ?_, ?_, ?_⟩
    · rw [Config.map_advance_of_same rfl (after.trans before.symm)]
      exact run
    · simp [newlyAccepted, after, outcome]
    · simp [newlyDelivered, after, outcome]
    · simp [after, outcome]

theorem answered_of_run {moves : List (Move Process Phase)}
    {kernel : Config Process Variables Phase}
    (fresh : origin = boot ∨ ∃ s, origin = completedInit s)
    (run : Run Syscall.program NoInit (Syscall.initial origin) moves kernel) :
    ∀ entry ∈ history moves, Answered entry := by
  obtain ⟨queue, legal, _⟩ := linearized_of_noInit fresh run
  exact legal.forall_mem serve_answered

theorem Tracked.produce (tracked : Tracked origin count config)
    (fresh : origin = boot ∨ ∃ s, origin = completedInit s) (bounded : count < 2 ^ 31)
    {copies : Bool}
    (stepped : step config.shared (config.thread .producer) copies = some (s', client)) :
    Tracked origin (count + if copied client then 1 else 0)
      (config.advance .producer s' client) := by
  obtain ⟨moves, run, counted, ⟨value, point, here, known⟩, locals, pastePoint, there, expected⟩ :=
    tracked
  rw [here] at stepped
  obtain ⟨follows, value', point', rfl, added⟩ := copySyncTest_step known bounded stepped
  rw [← here] at follows
  obtain ⟨further, onward, nowAccepted, nowDelivered, ended⟩ := follows.extend run
  have answered := answered_of_run fresh onward
  have consumer : (config.advance .producer s' (.copySyncTest value' point')).thread .consumer =
      .pasteSyncTest locals pastePoint := by
    rw [Config.advance_thread, Function.update_of_ne Process.noConfusion, there]
  have producer : (config.advance .producer s' (.copySyncTest value' point')).thread .producer =
      .copySyncTest value' point' := by simp
  rcases added with ⟨success, item, known'⟩ | ⟨failed, item, known'⟩
  · have quiet := newlyDelivered_of_copyKnows known' fun entry here => answered _ (ended _ here)
    rw [quiet, List.append_nil] at nowDelivered
    rw [← nowDelivered] at expected
    rw [if_pos success]
    refine ⟨further, onward, ?_, ⟨value', point', producer, known'⟩, locals, pastePoint, consumer,
      expected⟩
    rw [nowAccepted, counted, item, firstValues_succ]
  · have quiet := newlyDelivered_of_copyKnows known' fun entry here => answered _ (ended _ here)
    rw [quiet, List.append_nil] at nowDelivered
    rw [← nowDelivered] at expected
    rw [failed]
    refine ⟨further, onward, ?_, ⟨value', point', producer, known'⟩, locals, pastePoint, consumer,
      expected⟩
    rw [nowAccepted, counted, item, List.append_nil]
    rfl

theorem Tracked.consume (tracked : Tracked origin count config)
    (fresh : origin = boot ∨ ∃ s, origin = completedInit s) (bounded : count < 2 ^ 31)
    {copies : Bool}
    (stepped : step config.shared (config.thread .consumer) copies = some (s', client)) :
    Tracked origin (count + if copied client then 1 else 0)
      (config.advance .consumer s' client) := by
  obtain ⟨moves, run, counted, ⟨value, point, here, known⟩, locals, pastePoint, there, expected⟩ :=
    tracked
  obtain ⟨queue, legal, _⟩ := linearized_of_noInit fresh run
  have conserved : firstValues count = delivered moves ++ queue :=
    counted.symm.trans (conserved_of_noInit run legal)
  have fewer := length_le_of_firstValues conserved
  rw [there] at stepped
  have ordered : ∀ earlier item, delivered moves = earlier ++ [item] → item = earlier.length := by
    intro earlier item last
    apply eq_length_of_firstValues
    rw [conserved, last, List.append_assoc, List.singleton_append]
  obtain ⟨follows, failed, item, locals', point', rfl, learns⟩ :=
    pasteSyncTest_step expected (by omega) ordered stepped
  rw [← there] at follows
  obtain ⟨further, onward, nowAccepted, nowDelivered, ended⟩ := follows.extend run
  have answered := answered_of_run fresh onward
  rw [failed]
  refine ⟨further, onward, ?_, ⟨value, point, ?_, known⟩, locals', point', by simp, ?_⟩
  · rw [nowAccepted, counted, item, List.append_nil]
    rfl
  · rw [Config.advance_thread, Function.update_of_ne Process.noConfusion, here]
  · rw [nowDelivered]
    exact learns fun entry here => answered _ (ended _ here)

theorem tracked_of_run (fresh : origin = boot ∨ ∃ s, origin = completedInit s)
    {clipBoardValue : Int} {moves : List (Move Process Client)}
    (run : Run program (fun _ _ => True) (initial origin clipBoardValue) moves config)
    (bounded : successfulCopies moves < 2 ^ 31) :
    Tracked origin (successfulCopies moves) config := by
  induction run with
  | refl =>
      refine ⟨[], ?_, rfl, ⟨0, .top, rfl, rfl⟩, _, .top, rfl, rfl⟩
      have idle : (initial origin clipBoardValue).map id view = Syscall.initial origin := by
        simp only [Config.map, Syscall.initial, Config.uniform, Config.mk.injEq]
        refine ⟨rfl, ?_⟩
        funext process
        cases process <;> rfl
      rw [idle]
      exact .refl
  | @snoc moves config next move _ _ taken ih =>
      have split : successfulCopies (moves ++ [move]) =
          successfulCopies moves + if copied move.target then 1 else 0 := by
        simp [successfulCopies, List.countP_append, List.countP_singleton]
      rw [split] at bounded ⊢
      have earlier := ih (by omega)
      obtain @⟨process, shared, client, copies, stepped⟩ := taken
      cases process with
      | producer => exact earlier.produce fresh (by omega) stepped
      | consumer => exact earlier.consume fresh (by omega) stepped

theorem Tracked.not_faulted (tracked : Tracked origin count config) (process : Process) :
    ¬ faulted (config.thread process) := by
  obtain ⟨_, _, _, ⟨value, point, producer, _⟩, locals, pastePoint, consumer, expected⟩ := tracked
  intro fault
  cases process with
  | producer =>
      rw [producer] at fault
      cases fault
  | consumer =>
      rw [consumer] at fault
      cases pastePoint with
      | validationFault => exact expected
      | top | callKboardPaste | kboardPaste | testClipBoardValue | incrementExpectValue =>
          cases fault

/-- With both clients outside their calls the lock is free, and the ring holds
what was accepted and not delivered. -/
theorem Tracked.represents (tracked : Tracked origin count config)
    (fresh : origin = boot ∨ ∃ s, origin = completedInit s) {value : Int} {locals : PasteLocals}
    (producer : config.thread .producer = .copySyncTest value .top)
    (consumer : config.thread .consumer = .pasteSyncTest locals .top) :
    ∃ expected : Nat, locals.expectValue = expected ∧ value = count ∧ expected ≤ count ∧
      Represents config.shared ((List.range (count - expected)).map
        fun (offset : Nat) => (expected : Int) + offset) := by
  obtain ⟨moves, run, counted, ⟨_, _, here, known⟩, _, _, there, expected⟩ := tracked
  cases producer.symm.trans here
  cases consumer.symm.trans there
  obtain ⟨queue, legal, valid⟩ := linearized_of_noInit fresh run
  have conserved : firstValues count = delivered moves ++ queue :=
    counted.symm.trans (conserved_of_noInit run legal)
  have nobody : ∀ process, ¬ Owns ((config.map id view).thread process) := by
    intro process
    simp only [Config.map]
    cases process with
    | producer => rw [producer]; exact id
    | consumer => rw [consumer]; exact id
  obtain ⟨_, represents⟩ := valid.free nobody
  rw [queue_of_firstValues conserved] at represents
  exact ⟨(delivered moves).length, expected, known, length_le_of_firstValues conserved, represents⟩

/-- The test never reports a fault, and with both programs at the top of their
loops the clipboard holds what has been copied and not yet expected. -/
theorem sync_test_never_faults (fresh : origin = boot ∨ ∃ s, origin = completedInit s)
    {clipBoardValue : Int} {moves : List (Move Process Client)}
    (run : Run program (fun _ _ => True) (initial origin clipBoardValue) moves config)
    (bounded : successfulCopies moves < 2 ^ 31) :
    (∀ process, ¬ faulted (config.thread process)) ∧
      ∀ value locals, config.thread .producer = .copySyncTest value .top →
        config.thread .consumer = .pasteSyncTest locals .top →
        Represents config.shared ((List.range (value - locals.expectValue).toNat).map
          fun (offset : Nat) => locals.expectValue + offset) ∧
        0 ≤ value - locals.expectValue ∧ value - locals.expectValue ≤ 5 := by
  have tracked := tracked_of_run fresh run bounded
  refine ⟨tracked.not_faulted, ?_⟩
  intro value locals producer consumer
  obtain ⟨expected, expectedValue, copiedValue, fewer, represents⟩ :=
    tracked.represents fresh producer consumer
  have room := represents.1.lengthLe
  simp only [List.length_map, List.length_range, maxClip] at room
  rw [copiedValue, expectedValue]
  refine ⟨?_, by omega, by omega⟩
  rw [Int.toNat_sub]
  exact represents

/-- The producer copies two values while the consumer, after a paste that finds
the clipboard empty, pastes one of them. -/
def testSchedule : List (Process × Bool) :=
  List.replicate 6 (.consumer, true) ++ List.replicate 22 (.producer, true) ++
    List.replicate 16 (.consumer, true)

def testConfig : Config Process Variables Client :=
  (execute step (fun _ _ => True) (initial boot 9) testSchedule).get rfl

theorem sync_test_never_faults_pasting :
    Represents testConfig.shared [1] ∧ testConfig.thread .producer = .copySyncTest 2 .top := by
  have run := execute_sound
    (show execute step (fun _ _ => True) (initial boot 9) testSchedule = some testConfig from rfl)
  have two : successfulCopies (trace step (initial boot 9) testSchedule) = 2 := rfl
  obtain ⟨_, queued⟩ := sync_test_never_faults (.inl rfl) run (by rw [two]; decide)
  exact ⟨(queued 2 ⟨0, 1, 2⟩ rfl rfl).1, rfl⟩

end Kboard.Syscall.SyncTest
