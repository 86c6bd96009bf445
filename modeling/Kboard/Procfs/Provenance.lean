import Kboard.Concurrency.Increments
import Kboard.Procfs.Bodies
import Kboard.Procfs.Statistics

/-!
# Where the values come from

What holds whatever the synchronization does, and so also in the runs of
`SYNC_SOLUTION 3` in which writers meet: nothing is ever pasted or shown but -1
and the items that some thread has come to write. The current index stays in the
ring, and with it every slot that is read.
-/

set_option autoImplicit false

namespace Kboard.Procfs

open Concurrency Sync

variable {S : SyncSolution} {origin : Int → Prop}

/-! ## Values of one origin -/

structure BoardFrom (origin : Int → Prop) (k : Board) : Prop where
  slots : ∀ slot, InRing slot → origin (k.ringBuffer slot)
  current : InRing k.ringBufferCurrentIndex

def CallFrom (origin : Int → Prop) : WriterCall → Prop
  | .write item _ => origin item
  | .read => True

def BodyFrom (origin : Int → Prop) : WriterBody → Prop
  | .write item _ _ => origin item
  | .read (.loadItem index) => InRing index
  | .read (.loadClearIndex item) | .read (.clearSlot item _) | .read (.loadCount item)
  | .read (.storeCount item _) | .read (.loadCurrentIndex item) => origin item
  | .read (.storeCurrentIndex item loaded) => origin item ∧ InRing loaded
  | .read .loadPerformWriter | .read (.storePerformWriter _) | .read .testCount
  | .read .loadItemIndex => True

def AnswerFrom (origin : Int → Prop) : Answer → Prop
  | .writer result => ∀ item, result.item = some item → origin item
  | .reader result => InRing result.index ∧ origin result.item

private theorem AnswerFrom.without_item {result : WriterResult} (without : result.item = none) :
    AnswerFrom origin (.writer result) := by
  intro item here
  rw [without] at here
  cases here

def PhaseFrom (origin : Int → Prop) : Phase S kboardOperations → Prop
  | .enterWriter call _ => CallFrom origin call
  | .criticalWriter _ body => BodyFrom origin body
  | .leaveWriter _ result _ => AnswerFrom origin (.writer result)
  | .criticalReader _ body => InRing body.randomIndex
  | .leaveReader _ result _ => AnswerFrom origin (.reader result)
  | .idle | .enterReader _ _ => True

section

variable {origin' : Int → Prop} (grows : ∀ value, origin value → origin' value)
include grows

theorem BoardFrom.mono {k : Board} (board : BoardFrom origin k) : BoardFrom origin' k :=
  ⟨fun slot inRing => grows _ (board.slots slot inRing), board.current⟩

theorem AnswerFrom.mono {answer : Answer} (answerFrom : AnswerFrom origin answer) :
    AnswerFrom origin' answer := by
  cases answer with
  | writer result => exact fun item here => grows item (answerFrom item here)
  | reader result => exact ⟨answerFrom.1, grows _ answerFrom.2⟩

theorem BodyFrom.mono {body : WriterBody} (bodyFrom : BodyFrom origin body) :
    BodyFrom origin' body := by
  cases body with
  | write item length point => exact grows _ bodyFrom
  | read point =>
      cases point with
      | loadPerformWriter | storePerformWriter | testCount | loadItemIndex => trivial
      | loadItem => exact bodyFrom
      | loadClearIndex | clearSlot | loadCount | storeCount | loadCurrentIndex =>
          exact grows _ bodyFrom
      | storeCurrentIndex => exact ⟨grows _ bodyFrom.1, bodyFrom.2⟩

theorem PhaseFrom.mono {phase : Phase S kboardOperations} (phaseFrom : PhaseFrom origin phase) :
    PhaseFrom origin' phase := by
  cases phase with
  | enterWriter call point =>
      cases call with
      | write => exact grows _ phaseFrom
      | read => trivial
  | criticalWriter => exact BodyFrom.mono grows phaseFrom
  | leaveWriter call result point =>
      have answerFrom : AnswerFrom origin (.writer result) := phaseFrom
      exact answerFrom.mono grows
  | leaveReader randomBytes result point =>
      have answerFrom : AnswerFrom origin (.reader result) := phaseFrom
      exact answerFrom.mono grows
  | criticalReader => exact phaseFrom
  | idle | enterReader => trivial

end

/-! ## Steps -/

theorem inRing_next {loaded : Int} (inRing : InRing loaded) :
    InRing ((loaded + 1).tmod ringBufferSize) := by
  have nonneg := inRing.1
  rw [Int.tmod_eq_emod_of_nonneg (by omega)]
  exact ⟨Int.emod_nonneg _ (by decide), Int.emod_lt_of_pos _ (by decide)⟩

section

variable {k : Board} (board : BoardFrom origin k)
include board

theorem BoardFrom.store {slot item : Int} (stored : origin item) :
    BoardFrom origin { k with ringBuffer := Function.update k.ringBuffer slot item } := by
  refine ⟨?_, board.current⟩
  intro other inRing
  by_cases same : other = slot
  · rw [same]
    simpa using stored
  · simpa [Function.update_of_ne same] using board.slots other inRing

theorem BoardFrom.writer (blank : origin ringBufferInitValue) {call : WriterCall}
    {body : WriterBody} (bodyFrom : BodyFrom origin body) :
    BoardFrom origin (writerStep k body).1 ∧
      PhaseFrom origin (.workedWriter call (writerStep k body).2 : Phase S kboardOperations) := by
  cases body with
  | write item length point =>
      cases point with
      | testCount =>
          by_cases full : k.ringBufferCount ≥ ringBufferSize
          · simp only [writerStep, kboardWriterWrite, if_pos full]
            exact ⟨board, AnswerFrom.without_item rfl⟩
          · simp only [writerStep, kboardWriterWrite, if_neg full]
            exact ⟨board, bodyFrom⟩
      | loadPerformWriter | storePerformWriter | loadCurrentIndex | loadTailCount | loadCount =>
          exact ⟨⟨board.slots, board.current⟩, bodyFrom⟩
      | storeItem => exact ⟨board.store bodyFrom, bodyFrom⟩
      | storeCount => exact ⟨⟨board.slots, board.current⟩, AnswerFrom.without_item rfl⟩
  | read point =>
      cases point with
      | testCount =>
          by_cases empty : k.ringBufferCount ≤ 0
          · simp only [writerStep, kboardWriterShow, if_pos empty]
            exact ⟨board, AnswerFrom.without_item rfl⟩
          · simp only [writerStep, kboardWriterShow, if_neg empty]
            exact ⟨board, trivial⟩
      | loadPerformWriter | storePerformWriter =>
          exact ⟨⟨board.slots, board.current⟩, trivial⟩
      | loadItemIndex => exact ⟨board, board.current⟩
      | loadItem index => exact ⟨board, board.slots index bodyFrom⟩
      | clearSlot => exact ⟨board.store blank, bodyFrom⟩
      | loadClearIndex | loadCount | storeCount =>
          exact ⟨⟨board.slots, board.current⟩, bodyFrom⟩
      | loadCurrentIndex => exact ⟨board, bodyFrom, board.current⟩
      | storeCurrentIndex item loaded =>
          refine ⟨⟨board.slots, inRing_next bodyFrom.2⟩, ?_⟩
          rintro _ ⟨⟩
          exact bodyFrom.1

theorem BoardFrom.reader {randomBytes : BitVec 32} {body : ReaderBody}
    (drawn : InRing body.randomIndex) :
    BoardFrom origin (readerStep k body).1 ∧
      PhaseFrom origin (.workedReader randomBytes (readerStep k body).2 :
        Phase S kboardOperations) := by
  obtain ⟨randomIndex, point⟩ := body
  cases point with
  | loadPerformReader | storePerformReader => exact ⟨⟨board.slots, board.current⟩, drawn⟩
  | loadItem => exact ⟨board, drawn, board.slots randomIndex drawn⟩

end

private theorem inRing_readerStart (randomBytes : BitVec 32) :
    InRing (readerStart randomBytes).randomIndex := by
  have same : (readerStart randomBytes).randomIndex = (randomBytes.toNat % 5 : Nat) := rfl
  rw [same, InRing, ringBufferSize]
  omega

/-- The item that a thread comes to write. -/
def asked : Phase S kboardOperations → Phase S kboardOperations → Option Nat
  | .idle, .enterWriter (.write item _) _ => some item
  | _, _ => none

theorem from_of_step {s s' : Shared S kboardOperations} {source target : Phase S kboardOperations}
    (blank : origin ringBufferInitValue) (board : BoardFrom origin s.data)
    (phaseFrom : PhaseFrom origin source)
    (comes : ∀ item : Nat, asked source target = some item → origin item)
    (stepped : program S kboardOperations s source s' target) :
    BoardFrom origin s'.data ∧ PhaseFrom origin target := by
  cases transition_of_program stepped with
  | @callWriter _ call =>
      cases call with
      | write item length => exact ⟨board, comes item rfl⟩
      | read => exact ⟨board, trivial⟩
  | callReader => exact ⟨board, trivial⟩
  | @enterWriter _ call point sync control taken =>
      refine ⟨board, ?_⟩
      cases control with
      | goto further => exact phaseFrom
      | ret =>
          cases call with
          | write => exact phaseFrom
          | read => trivial
  | criticalWriter => exact board.writer blank phaseFrom
  | @leaveWriter _ call result point sync control taken =>
      refine ⟨board, ?_⟩
      cases control with
      | goto further => exact phaseFrom
      | ret => trivial
  | @enterReader _ randomBytes point sync control taken =>
      refine ⟨board, ?_⟩
      cases control with
      | goto further => trivial
      | ret => exact inRing_readerStart randomBytes
  | criticalReader => exact board.reader phaseFrom
  | @leaveReader _ call result point sync control taken =>
      refine ⟨board, ?_⟩
      cases control with
      | goto further => exact phaseFrom
      | ret => trivial

private theorem answerFrom_of_answered {source target : Phase S kboardOperations}
    {entry : Call × Answer}
    (ends : answered source target = some entry) (phaseFrom : PhaseFrom origin target) :
    AnswerFrom origin entry.2 := by
  unfold answered at ends
  split at ends
  · cases ends; exact phaseFrom
  · cases ends; exact phaseFrom
  · cases ends

/-! ## Runs -/

section

variable {ι : Type} {moves : List (Move ι (Phase S kboardOperations))}

/-- -1, or an item that a thread has come to write. -/
def Written (moves : List (Move ι (Phase S kboardOperations))) (value : Int) : Prop :=
  value = ringBufferInitValue ∨
    ∃ item ∈ moves.filterMap fun move => asked move.source move.target, value = (item : Nat)

theorem Written.mono {later : List (Move ι (Phase S kboardOperations))} {value : Int}
    (written : Written moves value) : Written (moves ++ later) value := by
  rcases written with blank | ⟨item, member, same⟩
  · exact .inl blank
  · refine .inr ⟨item, ?_, same⟩
    rw [List.filterMap_append]
    exact List.mem_append_left _ member

/-- Under any synchronization at all, what is pasted, shown and held in the ring
is -1 or has been written. -/
structure Traced (moves : List (Move ι (Phase S kboardOperations)))
    (config : Config ι (Shared S kboardOperations) (Phase S kboardOperations)) : Prop where
  board : BoardFrom (Written moves) config.shared.data
  threads : ∀ i, PhaseFrom (Written moves) (config.thread i)
  answers : ∀ entry ∈ order moves, AnswerFrom (Written moves) entry.2

theorem written_of_run [DecidableEq ι] (S : SyncSolution) {k : Board}
    {moves : List (Move ι (Phase S kboardOperations))}
    {config : Config ι (Shared S kboardOperations) (Phase S kboardOperations)}
    (run : Run (program S kboardOperations) (fun _ _ => True) (initial S (initializeKboard k))
      moves config) : Traced moves config := by
  induction run with
  | refl =>
      have empty := (initializeKboard_represents k).1
      have current : InRing 0 := ⟨le_refl 0, by decide⟩
      refine ⟨⟨?_, current⟩, fun _ => trivial, fun _ member => absurd member List.not_mem_nil⟩
      intro slot inRing
      exact .inl (empty.cleared slot inRing.1 inRing.2 (Nat.zero_le _))
  | @snoc moves config next move run _ taken ih =>
      obtain @⟨thread, shared, target, stepped⟩ := taken
      have grows (value : Int) (written : Written moves value) :
          Written (moves ++ [⟨thread, config.thread thread, target⟩]) value := written.mono
      have comes (item : Nat) (here : asked (config.thread thread) target = some item) :
          Written (moves ++ [⟨thread, config.thread thread, target⟩]) item := by
        refine .inr ⟨item, ?_, rfl⟩
        rw [select_append, here]
        exact List.mem_append_right _ (List.mem_singleton_self _)
      obtain ⟨board, moved⟩ := from_of_step (.inl rfl) (ih.board.mono grows)
        ((ih.threads thread).mono grows) comes stepped
      refine ⟨board, ?_, ?_⟩
      · intro i
        by_cases own : i = thread
        · rw [own, Config.advance_thread, Function.update_self]
          exact moved
        · rw [Config.advance_thread, Function.update_of_ne own]
          exact (ih.threads i).mono grows
      · intro entry member
        rw [order, select_append] at member
        rcases List.mem_append.mp member with earlier | last
        · exact (ih.answers entry earlier).mono grows
        · exact answerFrom_of_answered (Option.mem_toList.mp last) moved

set_option maxRecDepth 4000 in
/-- Also in the run in which a write leaves the ring. -/
theorem written_of_run_last_item :
    ∃ (moves : _) (config : Config Thread _ _),
      Run (program Solution3.solution3 kboardOperations) (fun _ _ => True)
        (initial Solution3.solution3 (initializeKboard Board.zero)) moves config ∧
      accesses (config.thread .t1) = [-1] ∧ Traced moves config := by
  obtain ⟨moves, config, run, checked⟩ := run_of_execute Solution3.solution3
    (initializeKboard Board.zero) (fun _ _ => True) lastItemSchedule
    (fun config => accesses (config.thread .t1) == [-1]) rfl
  exact ⟨moves, config, run, eq_of_beq checked, written_of_run _ run⟩

end

/-! ## The statistics -/

end Kboard.Procfs
