import Kboard.Procfs.Counter
import Kboard.Procfs.Dumper
import Kboard.Procfs.Provenance

/-!
# What a dump is good for

A dump need not show the ring as it ever was. But each of its values by itself
is one that the ring, the count or the current index has had.
-/

set_option autoImplicit false

namespace Kboard.Procfs

open Concurrency Queue Sync

def SlotsFrom (origin : Int → Prop) (slots : List Int) : Prop := ∀ value ∈ slots, origin value

def CountFits (count : Int) : Prop := 0 ≤ count ∧ count ≤ ringBufferSize

/-- What the dump has loaded so far. -/
def PointFrom (origin : Int → Prop) : DumpPoint → Prop
  | .loadSlot index slots =>
      (index : Int) < ringBufferSize ∧ slots.length = index ∧ SlotsFrom origin slots
  | .loadCount slots => slots.length = ringBufferSize ∧ SlotsFrom origin slots
  | .loadCurrentIndex slots count =>
      slots.length = ringBufferSize ∧ SlotsFrom origin slots ∧ CountFits count
  | .loadPerformWriter slots count currentIndex
  | .loadPerformReader slots count currentIndex _ =>
      slots.length = ringBufferSize ∧ SlotsFrom origin slots ∧ CountFits count ∧
        InRing currentIndex

structure DumpFrom (origin : Int → Prop) (dump : Dump) : Prop where
  length : dump.slots.length = ringBufferSize
  slots : SlotsFrom origin dump.slots
  count : CountFits dump.count
  currentIndex : InRing dump.currentIndex

def CallerFrom {S : SyncSolution} (origin : Int → Prop) : DumperCaller S → Prop
  | .operation _ => True
  | .observing point => PointFrom origin point
  | .observed dump => DumpFrom origin dump

section

variable {S : SyncSolution} {origin origin' : Int → Prop}

private theorem CallerFrom.mono {caller : DumperCaller S} (callerFrom : CallerFrom origin caller)
    (grows : ∀ value, origin value → origin' value) : CallerFrom origin' caller := by
  have slots {values : List Int} (slotsFrom : SlotsFrom origin values) : SlotsFrom origin' values :=
    fun value member => grows value (slotsFrom value member)
  cases caller with
  | operation => trivial
  | observed dump =>
      have dumpFrom : DumpFrom origin dump := callerFrom
      exact ⟨dumpFrom.length, slots dumpFrom.slots, dumpFrom.count, dumpFrom.currentIndex⟩
  | observing point =>
      cases point with
      | loadSlot => exact ⟨callerFrom.1, callerFrom.2.1, slots callerFrom.2.2⟩
      | loadCount => exact ⟨callerFrom.1, slots callerFrom.2⟩
      | loadCurrentIndex | loadPerformWriter | loadPerformReader =>
          exact ⟨callerFrom.1, slots callerFrom.2.1, callerFrom.2.2⟩

private theorem pointFrom_dumpLoop {index : Nat} {slots : List Int}
    (inside : (index : Int) ≤ ringBufferSize) (length : slots.length = index)
    (slotsFrom : SlotsFrom origin slots) : PointFrom origin (dumpLoop index slots) := by
  unfold dumpLoop
  split
  · next more => exact ⟨more, length, slotsFrom⟩
  · next all => exact ⟨by omega, slotsFrom⟩

private theorem from_of_dump {k : Board} {point : DumpPoint} (pointFrom : PointFrom origin point)
    (board : BoardFrom origin k) (count : CountFits k.ringBufferCount) :
    CallerFrom origin (.after (kboardDumperShow k point) : DumperCaller S) := by
  cases point with
  | loadSlot index slots =>
      obtain ⟨inside, length, slotsFrom⟩ := pointFrom
      refine pointFrom_dumpLoop (by omega) (by simp [length]) ?_
      intro value member
      rcases List.mem_append.mp member with earlier | last
      · exact slotsFrom value earlier
      · rw [List.mem_singleton.mp last]
        exact board.slots index ⟨by omega, inside⟩
  | loadCount slots => exact ⟨pointFrom.1, pointFrom.2, count⟩
  | loadCurrentIndex slots loaded =>
      exact ⟨pointFrom.1, pointFrom.2.1, pointFrom.2.2, board.current⟩
  | loadPerformWriter => exact pointFrom
  | loadPerformReader =>
      obtain ⟨length, slotsFrom, fits, current⟩ := pointFrom
      exact ⟨length, slotsFrom, fits, current⟩

end

/-! ## Runs -/

section

variable {ι : Type} [Fintype ι] [DecidableEq ι] {k : Board}

/-- -1, or an item that a thread has come to write. -/
def WrittenBy {S : SyncSolution} (moves : List (Move ι (DumperCaller S))) (value : Int) : Prop :=
  value = ringBufferInitValue ∨
    ∃ item ∈ moves.filterMap fun move => asked move.source.phase move.target.phase,
      value = (item : Nat)

variable {S : ReadersWriters} {moves : List (Move ι (DumperCaller S.toSyncSolution))}
  {config : Config ι (Shared S.toSyncSolution kboardOperations) (DumperCaller S.toSyncSolution)}

private theorem board_of_run
    (run : Run (dumperProgram S.toSyncSolution) (fun _ _ => True)
      (dumperInitial S.toSyncSolution k) moves config) :
    BoardFrom (WrittenBy moves) config.shared.data ∧
      CountFits config.shared.data.ringBufferCount := by
  have viewed : Run (dumperProgram S.toSyncSolution) (Permits id Caller.phase fun _ _ => True)
      (dumperInitial S.toSyncSolution k) moves config := run
  obtain ⟨seen, operations, selects⟩ := caller_simulates.run viewed
  obtain ⟨c, _, count⟩ := Counter.count_of_run operations fun run => S.exclusive run.reachable
  have counted : config.shared.data.ringBufferCount = c.items.length := count
  have bounded := c.bounded
  constructor
  · have traced := (written_of_run S.toSyncSolution operations).board
    refine traced.mono fun value written => ?_
    rw [Written, selects (fun move => asked move.source move.target) ?_] at written
    · exact written
    · intro _ _ source _ target _ same
      rw [same]
      generalize source.phase = phase
      cases phase <;> rfl
  · rw [counted, CountFits, ringBufferSize]
    omega

private theorem callers_from
    (run : Run (dumperProgram S.toSyncSolution) (fun _ _ => True)
      (dumperInitial S.toSyncSolution k) moves config) (i : ι) :
    CallerFrom (WrittenBy moves) (config.thread i) := by
  induction run generalizing i with
  | refl => trivial
  | @snoc moves config next move run _ taken ih =>
      obtain ⟨board, count⟩ := board_of_run run
      obtain @⟨thread, shared, target, stepped⟩ := taken
      have grows (value : Int) (written : WrittenBy moves value) :
          WrittenBy (moves ++ [⟨thread, config.thread thread, target⟩]) value := by
        rcases written with blank | ⟨item, member, same⟩
        · exact .inl blank
        · refine .inr ⟨item, ?_, same⟩
          rw [List.filterMap_append]
          exact List.mem_append_left _ member
      have moved : CallerFrom (WrittenBy moves) target := by
        have before := ih thread
        generalize config.thread thread = source at stepped before
        cases transition_of_callerProgram stepped with
        | operation | collect => trivial
        | call => exact pointFrom_dumpLoop (by decide) rfl (fun _ member =>
            absurd member List.not_mem_nil)
        | load => exact from_of_dump before board count
      by_cases own : i = thread
      · rw [own, Config.advance_thread, Function.update_self]
        exact moved.mono grows
      · rw [Config.advance_thread, Function.update_of_ne own]
        exact (ih i).mono grows

/-- Torn or not, a dump prints five slots with -1 or an item that a thread has
come to write, a count from 0 to 5 and an index of the ring. -/
theorem dump_values (S : ReadersWriters) {moves : List (Move ι (DumperCaller S.toSyncSolution))}
    {config : Config ι (Shared S.toSyncSolution kboardOperations) (DumperCaller S.toSyncSolution)}
    (run : Run (dumperProgram S.toSyncSolution) (fun _ _ => True)
      (dumperInitial S.toSyncSolution k) moves config)
    {i : ι} {dump : Dump} (dumped : config.thread i = .observed dump) :
    DumpFrom (WrittenBy moves) dump := by
  have known := callers_from run i
  rw [dumped] at known
  exact known

/-- Thread 1 dumps the ring while thread 0 takes 7 out and thread 2 waits to write. -/
def midPasteSchedule : List (Thread × CallerAction kboardOperations) :=
  (.t0, .operation (.callWriter (.write 7 2))) :: operates .t0 10 ++
    (.t0, .operation (.callWriter .read)) :: (.t2, .operation (.callWriter (.write 8 2))) ::
    operates .t0 3 ++ observes .t1 5 ++ operates .t0 8 ++ observes .t1 5

def emptiedDump : DumperCaller Solution1.solution1 → Bool
  | .observed dump => dump.slots == [7, -1, -1, -1, -1] && dump.count == 0
  | .operation _ | .observing _ => false

theorem dump_values_mid_paste :
    ∃ moves config, Run (dumperProgram Solution1.solution1) (fun _ _ => True)
        (dumperInitial Solution1.solution1 Board.zero) moves (config : Config Thread _ _) ∧
      ∃ dump, config.thread .t1 = .observed dump ∧ dump.slots = [7, -1, -1, -1, -1] ∧
        dump.count = 0 ∧ DumpFrom (WrittenBy moves) dump := by
  have passed : (execute callerStep (fun _ _ => True)
      (dumperInitial Solution1.solution1 Board.zero) midPasteSchedule).any
        (fun config => emptiedDump (config.thread .t1)) = true := rfl
  obtain ⟨moves, config, run, checked⟩ := execute_any passed
  cases dumped : config.thread .t1 with
  | operation | observing =>
      rw [dumped] at checked
      cases checked
  | observed dump =>
      rw [dumped] at checked
      obtain ⟨slots, count⟩ := Bool.and_eq_true_iff.mp checked
      exact ⟨moves, config, run, dump, dumped, eq_of_beq slots, eq_of_beq count,
        dump_values ReadersWriters.solution1 run dumped⟩

end

end Kboard.Procfs
