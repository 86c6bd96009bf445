import Kboard.Procfs.Bodies

/-!
# KboardCounter_Show

The counter loads `RingBufferCount` without entering the critical section, also
while a writer is in the middle of its operation. One load is all it makes. An
operation has its place among the counter's loads at the store of the count,
before the rest of its body.
-/

set_option autoImplicit false

namespace Kboard.Procfs.Counter

open Concurrency Queue Sync

def kboardCounterShow (k : Board) : Int := k.ringBufferCount

/-- `seq_printf(file, "Kboard Count: '%d'\n", RingBufferCount)`. -/
def counterText (count : Int) : List UInt8 :=
  bytes "Kboard Count: \x27" ++ formatInt count ++ bytes "\x27\n"

abbrev kboardCounter : Observer kboardOperations.Data where
  Point := Unit
  Reading := Int
  entry := ()
  load k _ := .ret (kboardCounterShow k)

abbrev CounterCaller (S : SyncSolution) := Caller S kboardOperations kboardCounter

abbrev counterProgram (S : SyncSolution) : Program (Shared S kboardOperations) (CounterCaller S) :=
  callerProgram S kboardOperations kboardCounter

def counterInitial {ι : Type} (S : SyncSolution) (k : Board) :
    Config ι (Shared S kboardOperations) (CounterCaller S) :=
  callerInitial S kboardCounter (initializeKboard k)

variable {S : SyncSolution}

/-! ## The store of the count -/

/-- A paste has its place where it stores the count, any other operation where
its body ends. -/
def commit : Phase S kboardOperations → Phase S kboardOperations → Option (Call × Answer)
  | .criticalWriter call (.read (.storeCount item _)), _ =>
      some (.writer call, .writer ⟨0, some item⟩)
  | .criticalWriter _ (.read (.loadCurrentIndex _)), _
  | .criticalWriter _ (.read (.storeCurrentIndex _ _)), _ => none
  | source, target => answered source target

def ahead : Phase S kboardOperations → List (Call × Answer)
  | .criticalWriter call (.read (.loadCurrentIndex item))
  | .criticalWriter call (.read (.storeCurrentIndex item _)) =>
      [(.writer call, .writer ⟨0, some item⟩)]
  | _ => []

private theorem ahead_step {s s' : Shared S kboardOperations}
    {source target : Phase S kboardOperations}
    (stepped : Sync.program S kboardOperations s source s' target) :
    ahead source ++ (commit source target).toList =
      (answered source target).toList ++ ahead target := by
  cases transition_of_program stepped with
  | callWriter | callReader => rfl
  | @enterWriter _ call point sync control taken =>
      cases control with
      | goto further => rfl
      | ret => cases call <;> rfl
  | @criticalWriter _ call body =>
      cases body with
      | write item length point =>
          cases point with
          | testCount =>
              by_cases full : s.data.ringBufferCount ≥ ringBufferSize
              · simp only [writerStep, kboardWriterWrite, if_pos full]
                rfl
              · simp only [writerStep, kboardWriterWrite, if_neg full]
                rfl
          | loadPerformWriter | storePerformWriter | loadCurrentIndex | loadTailCount | storeItem
          | loadCount | storeCount => rfl
      | read point =>
          cases point with
          | testCount =>
              by_cases empty : s.data.ringBufferCount ≤ 0
              · simp only [writerStep, kboardWriterShow, if_pos empty]
                rfl
              · simp only [writerStep, kboardWriterShow, if_neg empty]
                rfl
          | loadPerformWriter | storePerformWriter | loadItemIndex | loadItem | loadClearIndex
          | clearSlot | loadCount | storeCount | loadCurrentIndex | storeCurrentIndex => rfl
  | @leaveWriter _ call result point sync control taken => cases control <;> rfl
  | @enterReader _ call point sync control taken => cases control <;> rfl
  | @criticalReader _ call body =>
      generalize (kboardOperations.readerStep s.data body).2 = control
      cases control <;> rfl
  | @leaveReader _ call result point sync control taken => cases control <;> rfl

private theorem ahead_outside {phase : Phase S kboardOperations} (outside : ¬ writing phase) :
    ahead phase = [] := by
  cases phase with
  | criticalWriter => exact absurd rfl outside
  | idle | enterWriter | leaveWriter | enterReader | criticalReader | leaveReader => rfl

theorem commits : (kboardView S).Commits (Sync.program S kboardOperations) commit ahead where
  outside outside := by
    rw [working_kboardView] at outside
    exact ahead_outside outside
  accounts := ahead_step

/-! ## The count in the middle of an operation -/

theorem count_of_write {k : Board} {queue : List Int} {completed item length : Nat}
    {point : WritePoint} (known : WriteKnows k queue completed item point)
    (loaded : CountLoaded k (.write item length point)) : k.ringBufferCount = queue.length := by
  cases point with
  | loadPerformWriter | testCount => exact known.2.1
  | storePerformWriter => exact known.2.2.1
  | loadCurrentIndex => exact known.1.2.1
  | loadTailCount | storeItem => exact known.2.1.2.1
  | loadCount => exact known.2.1
  | storeCount => exact loaded.symm.trans known.2.1

/-- Past the store of the count the oldest item is gone. -/
theorem count_of_show {k : Board} {queue : List Int} {completed : Nat} {point : ShowPoint}
    (known : ShowKnows k queue completed point) (loaded : CountLoaded k (.read point)) :
    (ahead (.criticalWriter .read (.read point) : Phase S kboardOperations) = [] ∧
        k.ringBufferCount = queue.length) ∨
      ∃ item rest, queue = item :: rest ∧ k.ringBufferCount = rest.length ∧
        ahead (.criticalWriter .read (.read point) : Phase S kboardOperations) =
          [(.writer .read, .writer ⟨0, some item⟩)] := by
  cases point with
  | loadPerformWriter | testCount => exact .inl ⟨rfl, known.2.1⟩
  | storePerformWriter => exact .inl ⟨rfl, known.2.2.1⟩
  | loadItemIndex | loadClearIndex => exact .inl ⟨rfl, known.1.2.1⟩
  | loadItem | clearSlot => exact .inl ⟨rfl, known.2.1.2.1⟩
  | loadCount item =>
      obtain ⟨rest, _, count⟩ := known
      exact .inl ⟨rfl, count⟩
  | storeCount item value =>
      obtain ⟨rest, _, count⟩ := known
      exact .inl ⟨rfl, loaded.symm.trans count⟩
  | loadCurrentIndex item =>
      obtain ⟨rest, popping, count⟩ := known
      exact .inr ⟨item, rest, popping.1, count, rfl⟩
  | storeCurrentIndex item value =>
      obtain ⟨rest, popping, count, _⟩ := known
      exact .inr ⟨item, rest, popping.1, count, rfl⟩

theorem count_of_body {k : Board} {c : Clipboard} {completed : Nat} {call : WriterCall}
    {body : WriterBody}
    (known : Knows k (c.items.map Int.ofNat) completed (.criticalWriter call body))
    (loaded : CountLoaded k body) :
    ∃ c',
      Legal Clipboard.serve c (ahead (.criticalWriter call body : Phase S kboardOperations)) c' ∧
        k.ringBufferCount = c'.items.length := by
  cases body with
  | write item length point =>
      obtain ⟨rfl, known⟩ := known
      refine ⟨c, .nil, ?_⟩
      rw [count_of_write known loaded, List.length_map]
  | read point =>
      obtain ⟨rfl, known⟩ := known
      rcases count_of_show (S := S) known loaded with
        ⟨none, count⟩ | ⟨item, rest, queue, count, one⟩
      · rw [none]
        exact ⟨c, .nil, by rw [count, List.length_map]⟩
      · rw [one]
        obtain ⟨items, oldest, bounded⟩ := c
        cases items with
        | nil => cases queue
        | cons first others =>
            cases queue
            refine ⟨_, .single rfl, ?_⟩
            rw [count, List.length_map]
            rfl

section

variable {ι : Type} [DecidableEq ι] {k : Board}

def committed (moves : List (Move ι (Phase S kboardOperations))) : List (Call × Answer) :=
  moves.filterMap fun move => commit move.source move.target

/-- At every moment the count is the number of items that the operations with a
place so far have left. -/
theorem count_of_run {moves : List (Move ι (Phase S kboardOperations))}
    {config : Config ι (Shared S kboardOperations) (Phase S kboardOperations)}
    {allowed : Config ι (Shared S kboardOperations) (Phase S kboardOperations) →
      Move ι (Phase S kboardOperations) → Prop}
    (run : Run (Sync.program S kboardOperations) allowed (Sync.initial S (initializeKboard k))
      moves config)
    (exclusive : ∀ {moves config}, Run (Sync.program S kboardOperations) allowed
      (Sync.initial S (initializeKboard k)) moves config → Exclusive config) :
    ∃ c, Legal Clipboard.serve .empty (committed moves) c ∧
      config.shared.data.ringBufferCount = c.items.length := by
  have placed {i : ι} (alone : ∀ {j}, (kboardView S).working (config.thread j) → j = i) :
      committed moves = order moves ++ ahead (config.thread i) :=
    SerialView.committed_of_run commits run (fun _ => Bool.false_ne_true)
      (fun reachable => kboardView_step (drawnIndex_of_reachable reachable _))
      (fun run => exclusive_kboardView (exclusive run)) alone
  have serial := serialized run exclusive
  by_cases working : ∃ i, writing (config.thread i)
  · obtain ⟨i, inside⟩ := working
    rw [placed fun other => (exclusive run).writers inside (by
      rw [working_kboardView] at other
      exact other)]
    cases phase : config.thread i with
    | criticalWriter call body =>
        have here : (kboardView S).body (config.thread i) = some (call, body) := by
          rw [phase]
          rfl
        obtain ⟨state, before, underway⟩ := serial.underway here
        obtain ⟨c, legal, shown⟩ := legal_of_serial before
        obtain ⟨known, loaded⟩ := knows_of_reaches underway.reaches shown
        obtain ⟨c', further, count⟩ := count_of_body (S := S) known loaded
        exact ⟨c', legal.append further, count⟩
    | idle | enterWriter | leaveWriter | enterReader | criticalReader | leaveReader =>
        rw [phase] at inside
        cases inside
  · have nobody (i : ι) : ¬ writing (config.thread i) := fun inside => working ⟨i, inside⟩
    obtain ⟨c, legal, shown⟩ := legal_of_serial (serial.free (not_working nobody))
    have same : committed moves = order moves := by
      cases moves with
      | nil => rfl
      | cons move later =>
          rw [placed fun {j} inside => absurd inside (not_working nobody j),
            ahead_outside (nobody move.thread), List.append_nil]
    rw [same]
    exact ⟨c, legal, shown.count⟩

end

/-! ## Operations and counts together -/

inductive Request where
  | operation (call : Call)
  | count

inductive Response where
  | operation (answer : Answer)
  | count (text : List UInt8)

def serve (c : Clipboard) : Request → Response × Clipboard
  | .operation call => (.operation (c.serve call).1, (c.serve call).2)
  | .count => (.count (counterText c.items.length), c)

def lift (entry : Call × Answer) : Request × Response := (.operation entry.1, .operation entry.2)

/-- A reading of the count has its place where it loads the count. -/
def event : CounterCaller S → CounterCaller S → Option (Request × Response)
  | .operation source, .operation target => (commit source target).map lift
  | .observing _, .observed count => some (.count, .count (counterText count))
  | _, _ => none

/-- The end of an operation or of a reading of the count, with what it gives. -/
def finished : CounterCaller S → CounterCaller S → Option (Request × Response)
  | .operation source, .operation target => (returned source target).map lift
  | .observed count, .operation _ => some (.count, .count (counterText count))
  | _, _ => none

def pending : CounterCaller S → List (Request × Response)
  | .operation phase => (owed phase ++ ahead phase).map lift
  | .observing _ => []
  | .observed count => [(.count, .count (counterText count))]

theorem pending_step {s s' : Shared S kboardOperations} {source target : CounterCaller S}
    (taken : counterProgram S s source s' target) :
    pending source ++ (event source target).toList =
      (finished source target).toList ++ pending target := by
  cases transition_of_callerProgram taken with
  | call | load | collect => rfl
  | @operation _ _ source target stepped =>
      have entries : owed source ++ ahead source ++ (commit source target).toList =
          (returned source target).toList ++ (owed target ++ ahead target) := by
        rw [List.append_assoc, ahead_step stepped, ← List.append_assoc, owed_step stepped,
          List.append_assoc]
      have lifted := congrArg (List.map lift) entries
      simp only [List.map_append, ← Option.toList_map] at lifted
      simp only [pending, event, finished, List.map_append]
      exact lifted

section

variable {ι : Type}

def events (moves : List (Move ι (CounterCaller S))) : List (Request × Response) :=
  moves.filterMap fun move => event move.source move.target

def finishes (moves : List (Move ι (CounterCaller S))) : List (Request × Response) :=
  moves.filterMap fun move => finished move.source move.target

def operations (moves : List (Move ι (CounterCaller S))) : List (Call × Answer) :=
  moves.filterMap fun move => commit move.source.phase move.target.phase

variable [DecidableEq ι] {k : Board} {moves : List (Move ι (CounterCaller S))}
  {config : Config ι (Shared S kboardOperations) (CounterCaller S)}

private theorem commit_of_unseen {s s' : Shared S kboardOperations}
    {source target : CounterCaller S}
    (taken : counterProgram S s source s' target) (same : target.phase = source.phase) :
    commit source.phase target.phase = none := by
  cases transition_of_callerProgram taken with
  | call | load | collect => rfl
  | @operation _ _ source target stepped =>
      have same : target = source := same
      subst same
      have account := ahead_step stepped
      rw [answered_self, Option.toList_none, List.nil_append] at account
      exact Option.toList_eq_nil_iff.mp (List.append_right_eq_self.mp account)

/-- The operations of a run, without the readings of the count. -/
theorem operations_of_run
    {permitted : Config ι (Shared S kboardOperations) (Phase S kboardOperations) →
      Move ι (Phase S kboardOperations) → Prop}
    (run : Run (counterProgram S) (Permits id Caller.phase permitted) (counterInitial S k) moves
      config)
    (exclusive : ∀ {moves config}, Run (Sync.program S kboardOperations) permitted
      (Sync.initial S (initializeKboard k)) moves config → Exclusive config) :
    ∃ c, Legal Clipboard.serve .empty (operations moves) c ∧
      config.shared.data.ringBufferCount = c.items.length := by
  obtain ⟨seen, simulated, selects⟩ := caller_simulates.run run
  obtain ⟨c, legal, count⟩ := count_of_run simulated exclusive
  refine ⟨c, ?_, count⟩
  rw [committed, selects (fun move => commit move.source move.target) commit_of_unseen] at legal
  exact legal

/-- Between the operations, each reading of the count has its place. -/
theorem legal_of_run
    {permitted : Config ι (Shared S kboardOperations) (Phase S kboardOperations) →
      Move ι (Phase S kboardOperations) → Prop}
    (run : Run (counterProgram S) (Permits id Caller.phase permitted) (counterInitial S k) moves
      config)
    (exclusive : ∀ {moves config}, Run (Sync.program S kboardOperations) permitted
      (Sync.initial S (initializeKboard k)) moves config → Exclusive config)
    {c : Clipboard} (legal : Legal Clipboard.serve .empty (operations moves) c) :
    Legal serve .empty (events moves) c := by
  induction run generalizing c with
  | refl =>
      rw [legal.eq_start]
      exact .nil
  | @snoc moves config next move run permitted taken ih =>
      obtain @⟨thread, shared, target, stepped⟩ := taken
      rw [operations, select_append fun source target : CounterCaller S =>
        commit source.phase target.phase, ← operations] at legal
      rw [events, select_append, ← events]
      generalize config.thread thread = source at stepped legal ⊢
      cases transition_of_callerProgram stepped with
      | @operation _ _ source target _ =>
          cases placed : commit source target with
          | none =>
              simp only [Caller.phase, event, placed, Option.map_none, Option.toList_none,
                List.append_nil] at legal ⊢
              exact ih legal
          | some entry =>
              obtain ⟨call, answer⟩ := entry
              simp only [Caller.phase, event, placed, Option.map_some,
                Option.toList_some] at legal ⊢
              obtain ⟨previous, before, served⟩ := legal.last
              have next : serve previous (.operation call) = (.operation answer, c) := by
                simp only [serve, served]
              exact (ih before).snoc next
      | load =>
          obtain ⟨now, placed, count⟩ := operations_of_run run exclusive
          have legal : Legal Clipboard.serve .empty (operations moves ++ []) c := legal
          rw [List.append_nil] at legal
          obtain rfl := placed.unique legal
          refine (ih legal).snoc ?_
          rw [serve, kboardCounterShow, count]
      | call | collect =>
          have legal : Legal Clipboard.serve .empty (operations moves ++ []) c := legal
          rw [List.append_nil] at legal
          change Legal serve .empty (events moves ++ []) c
          rw [List.append_nil]
          exact ih legal

/-- Operations and readings of the count take place one after the other, on one
clipboard, each thread's in the order it makes them. -/
structure Linearized (moves : List (Move ι (CounterCaller S)))
    (config : Config ι (Shared S kboardOperations) (CounterCaller S)) (c : Clipboard) : Prop where
  legal : Legal serve .empty (events moves) c
  threads : ∀ thread, events (ofThread thread moves) =
    finishes (ofThread thread moves) ++ pending (config.thread thread)
  count : kboardCounterShow config.shared.data = c.items.length

theorem linearized_of_exclusive
    {permitted : Config ι (Shared S kboardOperations) (Phase S kboardOperations) →
      Move ι (Phase S kboardOperations) → Prop}
    (run : Run (counterProgram S) (Permits id Caller.phase permitted) (counterInitial S k) moves
      config)
    (exclusive : ∀ {moves config}, Run (Sync.program S kboardOperations) permitted
      (Sync.initial S (initializeKboard k)) moves config → Exclusive config) :
    ∃ c, Linearized moves config c := by
  obtain ⟨c, legal, count⟩ := operations_of_run run exclusive
  exact ⟨c, legal_of_run run exclusive legal, fun thread => run.account pending_step thread rfl,
    count⟩

end

section

variable {ι : Type} [Fintype ι] [DecidableEq ι] {k : Board}

theorem counter_linearizable (S : ReadersWriters)
    {moves : List (Move ι (CounterCaller S.toSyncSolution))}
    {config : Config ι (Shared S.toSyncSolution kboardOperations) (CounterCaller S.toSyncSolution)}
    (run : Run (counterProgram S.toSyncSolution) (fun _ _ => True)
      (counterInitial S.toSyncSolution k) moves config) :
    ∃ c, Linearized moves config c := by
  have operating : Run (counterProgram S.toSyncSolution) (Permits id Caller.phase fun _ _ => True)
      (counterInitial S.toSyncSolution k) moves config := run
  exact linearized_of_exclusive operating fun run => S.exclusive run.reachable

/-- Thread 1 reads the count while thread 0 is pasting, after the count has been
stored and before the index has. -/
def countingSchedule : List (Thread × CallerAction kboardOperations) :=
  (.t0, .operation (.callWriter (.write 7 2))) :: operates .t0 10 ++
    (.t0, .operation (.callWriter .read)) :: operates .t0 10 ++ observes .t1 2

theorem counter_linearizable_counting :
    ∃ (moves : _) (config : Config Thread _ (CounterCaller Solution1.solution1)),
      Run (counterProgram Solution1.solution1) (fun _ _ => True)
        (counterInitial Solution1.solution1 Board.zero) moves config ∧
      config.shared.data.ringBufferCurrentIndex = 0 ∧
      ∃ c, Linearized moves config c ∧ (c.items.length : Int) = 0 := by
  have passed : (execute callerStep (fun _ _ => True)
      (counterInitial Solution1.solution1 Board.zero) countingSchedule).any
        (fun config => config.shared.data.ringBufferCurrentIndex == 0 &&
          config.shared.data.ringBufferCount == 0) = true := rfl
  obtain ⟨moves, config, run, checked⟩ := execute_any passed
  obtain ⟨index, stored⟩ := Bool.and_eq_true_iff.mp checked
  obtain ⟨c, linearized⟩ := counter_linearizable ReadersWriters.solution1 run
  refine ⟨moves, config, run, eq_of_beq index, c, linearized, ?_⟩
  rw [← linearized.count]
  exact eq_of_beq stored

end

end Kboard.Procfs.Counter
