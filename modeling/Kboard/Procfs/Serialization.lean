import Kboard.Concurrency.Serialization
import Kboard.Procfs.CallsProperties
import Kboard.Sync.Exclusion

/-!
# The operations one after the other

Whatever solution the module is compiled with, as long as it keeps writers
alone the threads get what they would get from calling the operations one after
the other, each by itself. Only the statistics of the readers are not part of
this: their increments may overlap.
-/

set_option autoImplicit false

namespace Kboard.Procfs

open Concurrency Sync

inductive Call where
  | writer (call : WriterCall)
  | reader (randomBytes : BitVec 32)

inductive Answer where
  | writer (result : WriterResult)
  | reader (result : ReaderResult)

/-! ## Calls by themselves -/

def runReader : Nat → Board → ReaderBody → Option (Board × ReaderResult)
  | 0, _, _ => none
  | fuel + 1, k, body =>
      match readerStep k body with
      | (k, .ret result) => some (k, result)
      | (k, .goto body) => runReader fuel k body

def callReader (k : Board) (randomBytes : BitVec 32) : Option (Board × ReaderResult) :=
  runReader 3 k (readerStart randomBytes)

def callAlone (k : Board) : Call → Option (Board × Answer)
  | .writer call => (callWriter k call).map fun (k, result) => (k, .writer result)
  | .reader randomBytes => (callReader k randomBytes).map fun (k, result) => (k, .reader result)

def callsAlone : Board → List Call → Option (Board × List Answer)
  | k, [] => some (k, [])
  | k, call :: calls =>
      match callAlone k call with
      | none => none
      | some (k, answer) => (callsAlone k calls).map fun (k, answers) => (k, answer :: answers)

/-- What the writer operations work on. -/
def Board.writerPart (k : Board) : Board := { k with performReader := 0 }

private theorem writerStep_writerPart (k : Board) (body : WriterBody) :
    writerStep k.writerPart body = ((writerStep k body).1.writerPart, (writerStep k body).2) := by
  cases body with
  | write item length point =>
      cases point with
      | testCount =>
          by_cases full : k.ringBufferCount ≥ ringBufferSize <;>
            simp [writerStep, kboardWriterWrite, Board.writerPart, full]
      | loadPerformWriter | storePerformWriter | loadCurrentIndex | loadTailCount | storeItem
      | loadCount | storeCount => rfl
  | read point =>
      cases point with
      | testCount =>
          by_cases empty : k.ringBufferCount ≤ 0 <;>
            simp [writerStep, kboardWriterShow, Board.writerPart, empty]
      | loadPerformWriter | storePerformWriter | loadItemIndex | loadItem | loadClearIndex
      | clearSlot | loadCount | storeCount | loadCurrentIndex | storeCurrentIndex => rfl

private theorem readerStep_writerPart (k : Board) (body : ReaderBody) :
    (readerStep k body).1.writerPart = k.writerPart := by
  obtain ⟨performReader, same⟩ := readerStep_eq k body
  rw [same]
  rfl

private theorem runWriter_writerPart (fuel : Nat) (k : Board) (body : WriterBody) :
    runWriter fuel k.writerPart body =
      (runWriter fuel k body).map fun (k, result) => (k.writerPart, result) := by
  induction fuel generalizing k body with
  | zero => rfl
  | succ fuel ih =>
      rw [runWriter, runWriter, writerStep_writerPart]
      generalize writerStep k body = outcome
      obtain ⟨next, control⟩ := outcome
      cases control with
      | goto further => exact ih next further
      | ret result => rfl

theorem callReader_eq (k : Board) (randomBytes : BitVec 32) :
    callReader k randomBytes = some ({ k with performReader := k.performReader + 1 },
      ⟨(readerStart randomBytes).randomIndex,
        k.ringBuffer (readerStart randomBytes).randomIndex⟩) := rfl

theorem callWriter_read_empty {k : Board} (empty : k.ringBufferCount ≤ 0) :
    callWriter k .read = some (k.refused, ⟨-eperm, none⟩) := by
  simp [callWriter, runWriter, writerStart, writerStep, kboardWriterShow, empty, Board.refused]

private theorem callWriter_isSome (k : Board) (call : WriterCall) : (callWriter k call).isSome := by
  cases call with
  | write item length =>
      by_cases room : k.ringBufferCount < ringBufferSize
      · rw [callWriter_write room]
        rfl
      · rw [callWriter_write_full (not_lt.mp room)]
        rfl
  | read =>
      by_cases nonempty : 0 < k.ringBufferCount
      · rw [callWriter_read nonempty]
        rfl
      · rw [callWriter_read_empty (not_lt.mp nonempty)]
        rfl

private theorem runWriter_unique {fuel fuel' : Nat} {k : Board} {body : WriterBody}
    {outcome outcome' : Board × WriterResult} (ran : runWriter fuel k body = some outcome)
    (ran' : runWriter fuel' k body = some outcome') : outcome' = outcome := by
  induction fuel generalizing fuel' k body with
  | zero => cases ran
  | succ fuel ih =>
      cases fuel' with
      | zero => cases ran'
      | succ fuel' =>
          rw [runWriter] at ran ran'
          generalize writerStep k body = stepped at ran ran'
          obtain ⟨next, control⟩ := stepped
          cases control with
          | ret result =>
              cases ran
              cases ran'
              rfl
          | goto further => exact ih ran ran'

private theorem runWriter_of_completes {k after : Board} {body : WriterBody} {result : WriterResult}
    (completes : Completes writerStep k body after result) :
    ∃ fuel, runWriter fuel k body = some (after, result) := by
  induction completes with
  | ret worked => exact ⟨1, by rw [runWriter, worked]⟩
  | goto worked _ ih =>
      obtain ⟨fuel, ran⟩ := ih
      exact ⟨fuel + 1, by rw [runWriter, worked]; exact ran⟩

private theorem callWriter_of_completes {k after : Board} {call : WriterCall}
    {result : WriterResult}
    (completes : Completes writerStep k (writerStart call) after result) :
    callWriter k call = some (after, result) := by
  obtain ⟨fuel, ran⟩ := runWriter_of_completes completes
  obtain ⟨outcome, called⟩ := Option.isSome_iff_exists.mp (callWriter_isSome k call)
  rw [called, runWriter_unique ran called]

theorem callsAlone_snoc {k after final : Board} {calls : List Call} {answers : List Answer}
    {call : Call} {answer : Answer} (called : callsAlone k calls = some (after, answers))
    (last : callAlone after call = some (final, answer)) :
    callsAlone k (calls ++ [call]) = some (final, answers ++ [answer]) := by
  induction calls generalizing k answers with
  | nil =>
      cases called
      simp [callsAlone, last]
  | cons first calls ih =>
      rw [callsAlone] at called
      cases outcome : callAlone k first with
      | none => simp only [outcome, reduceCtorEq] at called
      | some reached =>
          obtain ⟨next, firstAnswer⟩ := reached
          simp only [outcome] at called
          obtain ⟨⟨_, others⟩, continued, same⟩ := Option.map_eq_some_iff.mp called
          cases same
          simp only [List.cons_append, callsAlone, outcome, ih continued, Option.map_some]

/-! ## The threads -/

variable {S : SyncSolution}

/-- An operation has its place among the others where its body ends. -/
def answered : Phase S kboardOperations → Phase S kboardOperations → Option (Call × Answer)
  | .criticalWriter call _, .leaveWriter _ result _ => some (.writer call, .writer result)
  | .criticalReader randomBytes _, .leaveReader _ result _ =>
      some (.reader randomBytes, .reader result)
  | _, _ => none

theorem answered_self (phase : Phase S kboardOperations) : answered phase phase = none := by
  cases phase <;> rfl

def writerBody : Phase S kboardOperations → Option (WriterCall × WriterBody)
  | .criticalWriter call body => some (call, body)
  | _ => none

/-- The call leads from the one board to the other, but for the readers' statistics. -/
def Leads (k : Board) (event : Call × Answer) (next : Board) : Prop :=
  ∃ after, callAlone k event.1 = some (after, event.2) ∧ after.writerPart = next

def kboardView (S : SyncSolution) : SerialView (Shared S kboardOperations)
    (Phase S kboardOperations) Board WriterCall WriterBody WriterResult (Call × Answer) where
  part s := s.data.writerPart
  work := writerStep
  first := writerStart
  body := writerBody
  looks := reading
  event := answered
  finished call result := (.writer call, .writer result)
  effect := Leads

theorem working_kboardView (phase : Phase S kboardOperations) :
    (kboardView S).working phase = writing phase := by
  cases phase <;> rfl

theorem leads_of_completes {k next : Board} {call : WriterCall} {result : WriterResult}
    (completes : Completes writerStep k.writerPart (writerStart call) next result) :
    Leads k.writerPart (.writer call, .writer result) next := by
  have called := callWriter_of_completes completes
  refine ⟨next, by rw [callAlone, called]; rfl, ?_⟩
  rw [callWriter, runWriter_writerPart] at called
  obtain ⟨⟨after, _⟩, _, same⟩ := Option.map_eq_some_iff.mp called
  cases same
  rfl

theorem leads_load (k : Board) (randomBytes : BitVec 32) {index : Int}
    (drawn : index = (readerStart randomBytes).randomIndex) :
    Leads k.writerPart (.reader randomBytes, .reader ⟨index, k.ringBuffer index⟩) k.writerPart := by
  subst drawn
  exact ⟨{ k.writerPart with performReader := k.writerPart.performReader + 1 }, rfl, rfl⟩

/-- The readers' statistics make no difference to a call. -/
theorem Leads.of_writerPart {k next : Board} {event : Call × Answer}
    (leads : Leads k.writerPart event next) : Leads k event next := by
  obtain ⟨call, answer⟩ := event
  obtain ⟨after, called, rfl⟩ := leads
  cases call with
  | writer call =>
      rw [callAlone, callWriter, runWriter_writerPart, Option.map_map] at called
      obtain ⟨⟨reached, result⟩, ran, same⟩ := Option.map_eq_some_iff.mp called
      cases same
      exact ⟨reached, by rw [callAlone, callWriter, ran]; rfl, rfl⟩
  | reader randomBytes =>
      rw [callAlone, callReader_eq] at called
      cases called
      exact ⟨{ k with performReader := k.performReader + 1 }, rfl, rfl⟩

theorem callsAlone_of_serial {k final : Board} {events : List (Call × Answer)}
    (serial : Serial Leads k.writerPart events final) :
    ∃ after, callsAlone k (events.map Prod.fst) = some (after, events.map Prod.snd) ∧
      after.writerPart = final := by
  induction serial with
  | nil => exact ⟨k, rfl, rfl⟩
  | snoc _ leads ih =>
      obtain ⟨after, called, rfl⟩ := ih
      obtain ⟨next, last, same⟩ := leads.of_writerPart
      refine ⟨next, ?_, same⟩
      rw [List.map_append, List.map_append]
      exact callsAlone_snoc called last

/-- The index that was drawn stays with the reader. -/
def DrawnIndex : Phase S kboardOperations → Prop
  | .criticalReader randomBytes body => body.randomIndex = (readerStart randomBytes).randomIndex
  | _ => True

private theorem readerStep_randomIndex {k : Board} {body further : ReaderBody}
    (goes : (readerStep k body).2 = .goto further) : further.randomIndex = body.randomIndex := by
  obtain ⟨randomIndex, point⟩ := body
  cases point with
  | loadPerformReader | storePerformReader => cases goes; rfl
  | loadItem => cases goes

theorem drawnIndex_of_step {s s' : Shared S kboardOperations}
    {source target : Phase S kboardOperations} (drawn : DrawnIndex source)
    (stepped : program S kboardOperations s source s' target) : DrawnIndex target := by
  cases transition_of_program stepped with
  | callWriter | callReader => trivial
  | @enterWriter _ call point sync control taken => cases control <;> trivial
  | @criticalWriter _ call body =>
      generalize (kboardOperations.writerStep s.data body).2 = control
      cases control <;> trivial
  | @leaveWriter _ call result point sync control taken => cases control <;> trivial
  | @enterReader _ call point sync control taken =>
      cases control with
      | goto further => trivial
      | ret => exact rfl
  | @criticalReader _ call body =>
      cases worked : (kboardOperations.readerStep s.data body).2 with
      | goto further => exact (readerStep_randomIndex worked).trans drawn
      | ret result => trivial
  | @leaveReader _ call result point sync control taken => cases control <;> trivial

section

variable {ι : Type} [DecidableEq ι] {k : Board}
  {moves : List (Move ι (Phase S kboardOperations))}
  {config : Config ι (Shared S kboardOperations) (Phase S kboardOperations)}

theorem drawnIndex_of_reachable
    (reachable : Reachable (program S kboardOperations) (initial S k) config) (i : ι) :
    DrawnIndex (config.thread i) := by
  refine reachable.preserves (fun config => ∀ i, DrawnIndex (config.thread i))
    (fun _ => trivial) ?_ i
  intro config thread shared target drawn stepped i
  by_cases moved : i = thread
  · subst moved
    rw [Config.advance_thread, Function.update_self]
    exact drawnIndex_of_step (drawn i) stepped
  · rw [Config.advance_thread, Function.update_of_ne moved]
    exact drawn i

theorem kboardView_step {s s' : Shared S kboardOperations}
    {source target : Phase S kboardOperations} (drawn : DrawnIndex source)
    (stepped : program S kboardOperations s source s' target) :
    (kboardView S).Step s source s' target := by
  cases transition_of_program stepped with
  | callWriter | callReader => exact .silent Bool.false_ne_true Bool.false_ne_true rfl rfl
  | @enterWriter _ call point sync control taken =>
      cases control with
      | goto further => exact .silent Bool.false_ne_true Bool.false_ne_true rfl rfl
      | ret => exact .start Bool.false_ne_true rfl rfl rfl leads_of_completes
  | @criticalWriter _ call body =>
      have worked := writerStep_writerPart s.data body
      change (kboardView S).Step s _ ⟨s.sync, (writerStep s.data body).1⟩
        (.workedWriter call (writerStep s.data body).2)
      cases ends : (writerStep s.data body).2 with
      | goto further =>
          rw [ends] at worked
          exact .goto rfl worked rfl rfl
      | ret result =>
          rw [ends] at worked
          exact .ret rfl worked Bool.false_ne_true rfl
  | @leaveWriter _ call result point sync control taken =>
      cases control <;> exact .silent Bool.false_ne_true Bool.false_ne_true rfl rfl
  | @enterReader _ call point sync control taken =>
      cases control <;> exact .silent Bool.false_ne_true Bool.false_ne_true rfl rfl
  | @criticalReader _ randomBytes body =>
      have same := readerStep_writerPart s.data body
      change (kboardView S).Step s _ ⟨s.sync, (readerStep s.data body).1⟩
        (.workedReader randomBytes (readerStep s.data body).2)
      obtain ⟨randomIndex, point⟩ := body
      cases point with
      | loadPerformReader | storePerformReader =>
          exact .silent Bool.false_ne_true Bool.false_ne_true same rfl
      | loadItem =>
          exact .look rfl Bool.false_ne_true Bool.false_ne_true same rfl
            (leads_load s.data randomBytes drawn)
  | @leaveReader _ call result point sync control taken =>
      cases control <;> exact .silent Bool.false_ne_true Bool.false_ne_true rfl rfl

/-- The calls in the order in which their bodies ended, with their answers. -/
def order {ι : Type} (moves : List (Move ι (Phase S kboardOperations))) : List (Call × Answer) :=
  moves.filterMap fun move => answered move.source move.target

omit [DecidableEq ι] in
theorem exclusive_kboardView (exclusive : Sync.Exclusive config) :
    (kboardView S).Exclusive config where
  alone inside other := by
    rw [working_kboardView] at inside other
    exact exclusive.writers inside other
  unseen inside := by
    rw [working_kboardView] at inside
    exact exclusive.readers inside

theorem serialized
    {allowed : Config ι (Shared S kboardOperations) (Phase S kboardOperations) →
      Move ι (Phase S kboardOperations) → Prop}
    (run : Run (program S kboardOperations) allowed (initial S (initializeKboard k)) moves config)
    (exclusive : ∀ {moves config}, Run (program S kboardOperations) allowed
      (initial S (initializeKboard k)) moves config → Sync.Exclusive config) :
    (kboardView S).Serialized (initializeKboard k).writerPart moves config :=
  SerialView.serialized_of_run run (fun _ => Bool.false_ne_true)
    (fun reachable => kboardView_step (drawnIndex_of_reachable reachable _))
    fun run => exclusive_kboardView (exclusive run)

omit [DecidableEq ι] in
theorem not_working {config : Config ι (Shared S kboardOperations) (Phase S kboardOperations)}
    (nobody : ∀ i, ¬ writing (config.thread i)) (i : ι) :
    ¬ (kboardView S).working (config.thread i) := by
  rw [working_kboardView]
  exact nobody i

/-- What the threads get is what the calls give one after the other, and with no
writer at work the board is the one these calls leave. -/
theorem serializable
    {allowed : Config ι (Shared S kboardOperations) (Phase S kboardOperations) →
      Move ι (Phase S kboardOperations) → Prop}
    (run : Run (program S kboardOperations) allowed (initial S (initializeKboard k)) moves config)
    (exclusive : ∀ {moves config}, Run (program S kboardOperations) allowed
      (initial S (initializeKboard k)) moves config → Sync.Exclusive config) :
    ∃ after, callsAlone (initializeKboard k) ((order moves).map Prod.fst) =
        some (after, (order moves).map Prod.snd) ∧
      ((∀ i, ¬ writing (config.thread i)) →
        config.shared.data.writerPart = after.writerPart) := by
  obtain ⟨state, guard, serial, valid⟩ := serialized run exclusive
  obtain ⟨after, called, same⟩ := callsAlone_of_serial serial
  refine ⟨after, called, ?_⟩
  intro nobody
  rw [same]
  exact (valid.free (not_working nobody)).2

/-! ## Each thread -/

/-- The last step of a Leave, with what the operation returns. -/
def returned : Phase S kboardOperations → Phase S kboardOperations → Option (Call × Answer)
  | .leaveWriter call result _, .idle => some (.writer call, .writer result)
  | .leaveReader randomBytes result _, .idle => some (.reader randomBytes, .reader result)
  | _, _ => none

/-- An operation has its place in the order and has not returned. -/
def owed : Phase S kboardOperations → List (Call × Answer)
  | .leaveWriter call result _ => [(.writer call, .writer result)]
  | .leaveReader randomBytes result _ => [(.reader randomBytes, .reader result)]
  | _ => []

def returns {ι : Type} (moves : List (Move ι (Phase S kboardOperations))) :
    List (Call × Answer) :=
  moves.filterMap fun move => returned move.source move.target

theorem owed_step {s s' : Shared S kboardOperations} {source target : Phase S kboardOperations}
    (stepped : program S kboardOperations s source s' target) :
    owed source ++ (answered source target).toList =
      (returned source target).toList ++ owed target := by
  cases transition_of_program stepped with
  | callWriter | callReader => rfl
  | @enterWriter _ call point sync control taken => cases control <;> rfl
  | @criticalWriter _ call body =>
      generalize (kboardOperations.writerStep s.data body).2 = control
      cases control <;> rfl
  | @leaveWriter _ call result point sync control taken => cases control <;> rfl
  | @enterReader _ call point sync control taken => cases control <;> rfl
  | @criticalReader _ call body =>
      generalize (kboardOperations.readerStep s.data body).2 = control
      cases control <;> rfl
  | @leaveReader _ call result point sync control taken => cases control <;> rfl

/-- Each thread has its operations in the order in which it called them, with
the results they return to it. -/
theorem order_ofThread
    {allowed : Config ι (Shared S kboardOperations) (Phase S kboardOperations) →
      Move ι (Phase S kboardOperations) → Prop}
    (run : Run (program S kboardOperations) allowed (initial S k) moves config) (thread : ι) :
    order (ofThread thread moves) =
      returns (ofThread thread moves) ++ owed (config.thread thread) := by
  exact run.account owed_step thread rfl

end

end Kboard.Procfs
