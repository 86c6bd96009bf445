import Kboard.Procfs.Linearization

/-! The reader statistics under `SYNC_SOLUTION 1`. `PerformReader++` is a load
and a store inside the critical section of the readers, which admits many of
them. An increment is lost exactly when another reader has loaded the counter
before the first has stored it; in the runs where the increments of two readers
never overlap, the counter is exact. -/

set_option autoImplicit false

namespace Kboard.Procfs

open Concurrency Sync Sync.Solution1

/-- The reader executes the load of `PerformReader++` next. -/
def loadsPerformReader : Phase solution1 kboardOperations → Bool
  | .criticalReader _ ⟨_, .loadPerformReader⟩ => true
  | _ => false

/-- What a reader between the load and the store of `PerformReader++` has loaded. -/
def loadedPerformReader : Phase solution1 kboardOperations → Option (BitVec 32)
  | .criticalReader _ ⟨_, .storePerformReader loaded⟩ => some loaded
  | _ => none

/-- A reader that has stored the counter and has not completed its operation. -/
def counted : Phase solution1 kboardOperations → ℤ
  | .criticalReader _ ⟨_, .loadItem⟩ | .leaveReader _ _ _ => 1
  | _ => 0

section

variable {ι : Type}

/-- The step is not the load of an increment while another reader is between
the load and the store of its own. -/
def NoOverlap
    (config : Config ι (Shared solution1 kboardOperations) (Phase solution1 kboardOperations))
    (move : Move ι (Phase solution1 kboardOperations)) : Prop :=
  loadsPerformReader move.source → ∀ other, loadedPerformReader (config.thread other) = none

instance [Fintype ι]
    (config : Config ι (Shared solution1 kboardOperations) (Phase solution1 kboardOperations))
    (move : Move ι (Phase solution1 kboardOperations)) : Decidable (NoOverlap config move) :=
  inferInstanceAs (Decidable (loadsPerformReader move.source →
    ∀ other, loadedPerformReader (config.thread other) = none))

/-- `KboardReader_Show` completes with this step. -/
def completesReader (move : Move ι (Phase solution1 kboardOperations)) : Bool :=
  match move.source, move.target with
  | .leaveReader _ _ _, .idle => true
  | _, _ => false

def completedReaders (moves : List (Move ι (Phase solution1 kboardOperations))) : Nat :=
  moves.countP completesReader

/-- What one step does to the counter and to the place of its thread. -/
inductive CounterStep (before after : BitVec 32)
    (move : Move ι (Phase solution1 kboardOperations)) : Prop where
  | quiet (same : after = before) (source : loadedPerformReader move.source = none)
      (target : loadedPerformReader move.target = none)
      (account : counted move.target + (if completesReader move then 1 else 0) =
        counted move.source)
  | load (loads : loadsPerformReader move.source) (same : after = before)
      (target : loadedPerformReader move.target = some before)
      (account : counted move.target = counted move.source)
      (incomplete : completesReader move = false)
  | store {loaded : BitVec 32} (source : loadedPerformReader move.source = some loaded)
      (stored : after = loaded + 1) (target : loadedPerformReader move.target = none)
      (account : counted move.target = counted move.source + 1)
      (incomplete : completesReader move = false)

theorem performReader_writerStep (k : Board) (body : WriterBody) :
    (writerStep k body).1.performReader = k.performReader := by
  cases body with
  | write item length point =>
      rw [writerStep_write_data]
      cases point <;> rfl
  | read point =>
      rw [writerStep_read_data]
      cases point <;> rfl

private theorem counterStep_of_program {s s' : Shared solution1 kboardOperations} {thread : ι}
    {source target : Phase solution1 kboardOperations}
    (stepped : program solution1 kboardOperations s source s' target) :
    CounterStep s.data.performReader s'.data.performReader
      (⟨thread, source, target⟩ : Move ι _) := by
  cases transition_of_program stepped with
  | callWriter | callReader => exact .quiet rfl rfl rfl rfl
  | @enterWriter _ call point sync control taken => cases control <;> exact .quiet rfl rfl rfl rfl
  | @criticalWriter _ call body =>
      refine .quiet (performReader_writerStep s.data body) rfl ?_ ?_
      · generalize kboardOperations.writerStep s.data body = outcome
        obtain ⟨next, control⟩ := outcome
        cases control <;> rfl
      · generalize kboardOperations.writerStep s.data body = outcome
        obtain ⟨next, control⟩ := outcome
        cases control <;> rfl
  | @leaveWriter _ call result point sync control taken =>
      cases control <;> exact .quiet rfl rfl rfl rfl
  | @enterReader _ call point sync control taken => cases control <;> exact .quiet rfl rfl rfl rfl
  | @criticalReader _ call body =>
      obtain ⟨randomIndex, point⟩ := body
      cases point with
      | loadPerformReader => exact .load rfl rfl rfl rfl rfl
      | storePerformReader loaded => exact .store rfl rfl rfl rfl rfl
      | loadItem => exact .quiet rfl rfl rfl rfl
  | @leaveReader _ call result point sync control taken =>
      cases control <;> exact .quiet rfl rfl rfl rfl

/-- Whoever is about to store the counter has loaded this value and is the only one. -/
def Alone (value : BitVec 32) (thread : ι → Phase solution1 kboardOperations) : Prop :=
  ∀ i loaded, loadedPerformReader (thread i) = some loaded →
    loaded = value ∧ ∀ j, j ≠ i → loadedPerformReader (thread j) = none

section

variable [DecidableEq ι] {value : BitVec 32} {thread : ι → Phase solution1 kboardOperations}
  {mover : ι} {target : Phase solution1 kboardOperations}

theorem Alone.quiet (alone : Alone value thread)
    (source : loadedPerformReader (thread mover) = none)
    (arrived : loadedPerformReader target = none) :
    Alone value (Function.update thread mover target) := by
  have same : ∀ i, loadedPerformReader (Function.update thread mover target i) =
      loadedPerformReader (thread i) := by
    intro i
    by_cases moved : i = mover
    · subst moved
      rw [Function.update_self, source, arrived]
    · rw [Function.update_of_ne moved]
  intro i loaded here
  obtain ⟨present, others⟩ := alone i loaded ((same i).symm.trans here)
  exact ⟨present, fun j different => (same j).trans (others j different)⟩

theorem Alone.load (nobody : ∀ i, loadedPerformReader (thread i) = none)
    (arrived : loadedPerformReader target = some value) :
    Alone value (Function.update thread mover target) := by
  intro i loaded here
  by_cases moved : i = mover
  · subst moved
    rw [Function.update_self, arrived] at here
    refine ⟨(Option.some.inj here).symm, fun j different => ?_⟩
    rw [Function.update_of_ne different]
    exact nobody j
  · rw [Function.update_of_ne moved, nobody i] at here
    cases here

theorem Alone.store (alone : Alone value thread) {loaded : BitVec 32}
    (source : loadedPerformReader (thread mover) = some loaded)
    (arrived : loadedPerformReader target = none) (stored : BitVec 32) :
    Alone stored (Function.update thread mover target) := by
  intro i other here
  by_cases moved : i = mover
  · subst moved
    rw [Function.update_self, arrived] at here
    cases here
  · rw [Function.update_of_ne moved, (alone mover loaded source).2 i moved] at here
    cases here

end

variable [Fintype ι]

/-- The counter is the number of stores, and increments do not overlap. -/
def Exact (moves : List (Move ι (Phase solution1 kboardOperations)))
    (config : Config ι (Shared solution1 kboardOperations) (Phase solution1 kboardOperations)) :
    Prop :=
  config.shared.data.performReader =
      BitVec.ofInt 32 (completedReaders moves + tally counted config.thread) ∧
    Alone config.shared.data.performReader config.thread

variable {moves : List (Move ι (Phase solution1 kboardOperations))}
  {config : Config ι (Shared solution1 kboardOperations) (Phase solution1 kboardOperations)}
  [DecidableEq ι]

theorem Exact.step (exact : Exact moves config)
    {move : Move ι (Phase solution1 kboardOperations)}
    {next : Config ι (Shared solution1 kboardOperations) (Phase solution1 kboardOperations)}
    (noOverlap : NoOverlap config move)
    (taken : config.Step (program solution1 kboardOperations) move next) :
    Exact (moves ++ [move]) next := by
  obtain ⟨counter, alone⟩ := exact
  obtain @⟨thread, shared, target, stepped⟩ := taken
  have total : (completedReaders (moves ++ [⟨thread, config.thread thread, target⟩]) : ℤ) =
      completedReaders moves +
        if completesReader ⟨thread, config.thread thread, target⟩ then 1 else 0 := by
    simp only [completedReaders, List.countP_append, List.countP_singleton, Int.natCast_add]
    split <;> rfl
  unfold Exact
  rw [total, Config.advance_thread, tally_update, Config.advance_shared]
  cases (counterStep_of_program stepped : CounterStep _ _ ⟨thread, _, _⟩) with
  | quiet same source arrived account =>
      simp only at account
      constructor
      · rw [same, counter]
        congr 1
        omega
      · rw [same]
        exact alone.quiet source arrived
  | load loads same arrived account incomplete =>
      simp only at account
      constructor
      · rw [same, counter, incomplete, account]
        simp
      · rw [same]
        exact .load (noOverlap loads) arrived
  | @store loaded source stored arrived account incomplete =>
      simp only at account
      obtain ⟨present, _⟩ := alone thread loaded source
      refine ⟨?_, alone.store source arrived _⟩
      have sum : (completedReaders moves : ℤ) + (if false = true then 1 else 0) +
          (tally counted config.thread +
            (counted (config.thread thread) + 1 - counted (config.thread thread))) =
          completedReaders moves + tally counted config.thread + 1 := by
        simp only [Bool.false_eq_true, if_false]
        omega
      rw [stored, present, counter, incomplete, account, sum]
      exact (BitVec.ofInt_add _ 1).symm

theorem exact_of_run {k : Board}
    (run : Run (program solution1 kboardOperations) NoOverlap
      (initial solution1 (initializeKboard k)) moves config) : Exact moves config := by
  induction run with
  | refl =>
      have nobody : tally counted (fun _ : ι => (.idle : Phase solution1 kboardOperations)) = 0 :=
        tally_eq_zero fun _ => rfl
      refine ⟨?_, fun _ _ here => by cases here⟩
      simp [initial, Config.uniform, initializeKboard, completedReaders, nobody]
  | snoc _ noOverlap taken ih => exact ih.step noOverlap taken

/-- As long as no reader loads the counter inside the increment of another, the
counter is the number of completed operations whenever nobody is in one. -/
theorem solution1_reader_statistics {k : Board}
    (run : Run (program solution1 kboardOperations) NoOverlap
      (initial solution1 (initializeKboard k)) moves config)
    (quiescent : ∀ thread, ¬ (config.thread thread).Inside) :
    config.shared.data.performReader = BitVec.ofNat 32 (completedReaders moves) := by
  obtain ⟨counter, _⟩ := exact_of_run run
  have nobody : tally counted config.thread = 0 := by
    apply tally_eq_zero
    intro thread
    rw [not_not.mp (quiescent thread)]
    rfl
  rw [counter, nobody, Int.add_zero, BitVec.ofInt_natCast]

def isIdle : Phase solution1 kboardOperations → Bool
  | .idle => true
  | _ => false

private theorem not_inside_of_isIdle {phase : Phase solution1 kboardOperations}
    (idle : isIdle phase) :
    ¬ phase.Inside := by
  cases phase with
  | idle => exact not_not.mpr rfl
  | enterWriter | criticalWriter | leaveWriter | enterReader | criticalReader | leaveReader =>
      cases idle

/-- Two readers are inside together and increment one after the other. -/
def readersSchedule : List (Thread × Action kboardOperations) :=
  (.t0, .callReader 0) :: (.t1, .callReader 0) :: steps .t0 6 ++ steps .t1 5 ++ steps .t0 2 ++
    steps .t1 8 ++ steps .t0 7

theorem solution1_reader_statistics_together :
    ∃ moves config, Run (program solution1 kboardOperations) NoOverlap
        (initial solution1 (initializeKboard Board.zero)) moves (config : Config Thread _ _) ∧
      completedReaders moves = 2 ∧ config.shared.data.performReader = 2 := by
  have run := execute_sound (Option.some_get (show (execute step NoOverlap
    (initial solution1 (initializeKboard Board.zero)) readersSchedule).isSome = true from rfl)).symm
  have quiescent := solution1_reader_statistics run fun thread =>
    not_inside_of_isIdle (by cases thread <;> rfl)
  exact ⟨_, _, run, rfl, quiescent⟩

/-- Both readers load the counter before either stores it. -/
def overlappingSchedule : List (Thread × Action kboardOperations) :=
  (.t0, .callReader 0) :: (.t1, .callReader 0) :: steps .t0 6 ++ steps .t1 5 ++ steps .t0 1 ++
    steps .t1 1 ++ steps .t0 7 ++ steps .t1 8

theorem solution1_reader_statistics_lost :
    ∃ moves config, Run (program solution1 kboardOperations) (fun _ _ => True)
        (initial solution1 (initializeKboard Board.zero)) moves (config : Config Thread _ _) ∧
      (∀ thread, ¬ (config.thread thread).Inside) ∧
      config.shared.data.performReader ≠ BitVec.ofNat 32 (completedReaders moves) := by
  have run := execute_sound (Option.some_get (show (execute step (fun _ _ => True)
    (initial solution1 (initializeKboard Board.zero)) overlappingSchedule).isSome = true
      from rfl)).symm
  refine ⟨_, _, run, fun thread => not_inside_of_isIdle (by cases thread <;> rfl), ?_⟩
  exact (show (1 : BitVec 32) ≠ 2 by decide)

end

end Kboard.Procfs
