import Kboard.Sync.Solution2Properties

/-! Writer priority in `SYNC_SOLUTION 2`. The gate `SemaphoreReader` is closed
from the step in which a writer takes it until a last writer gives it back.
Readers that have passed the gate before may still enter while it is closed;
these are fixed when it closes and each enters at most once. -/

set_option autoImplicit false

namespace Kboard.Sync.Solution2

open Concurrency
open Procfs (steps)

variable {B : Operations} {ι : Type}

/-- A writer completes `down(&SemaphoreReader)` in its Enter. -/
def closesGate (move : Move ι (Phase solution2 B)) : Bool :=
  match move.source with
  | .enterWriter _ .downReader => true
  | _ => false

/-- A writer executes `up(&SemaphoreReader)` in its Leave. -/
def opensGate (move : Move ι (Phase solution2 B)) : Bool :=
  match move.source with
  | .leaveWriter _ _ .upReader => true
  | _ => false

/-- A reader completes `down(&SemaphoreReader)` in its Enter. -/
def passesGate (move : Move ι (Phase solution2 B)) : Bool :=
  match move.source with
  | .enterReader _ .downReader => true
  | _ => false

/-- A reader returns from its Enter. -/
def completesEnter (move : Move ι (Phase solution2 B)) : Bool :=
  match move.source, move.target with
  | .enterReader _ _, .criticalReader _ _ => true
  | _, _ => false

/-- A reader between the gate and its critical section: it has executed the
`down` and the `up` of `SemaphoreReader` in its Enter and has not returned. -/
def approaching : Phase solution2 B → Bool
  | .enterReader _ .downReader | .enterReader _ .upReader => false
  | .enterReader _ _ => true
  | _ => false

def entries (moves : List (Move ι (Phase solution2 B))) : List ι :=
  (moves.filter completesEnter).map Move.thread

private theorem entries_append (moves : List (Move ι (Phase solution2 B)))
    (move : Move ι (Phase solution2 B)) :
    entries (moves ++ [move]) =
      entries moves ++ if completesEnter move then [move.thread] else [] := by
  simp only [entries, List.filter_append, List.map_append]
  split <;> simp [*]

/-- The gate has no unit and no reader holds one. -/
def GateClosed (config : Config ι (Shared solution2 B) (Phase solution2 B)) : Prop :=
  config.shared.sync.semaphoreReader = 0 ∧
    ∀ thread, gateStage (config.thread thread) ≠ .occupying

private theorem opensGate_of_leaveRoom {move : Move ι (Phase solution2 B)}
    (giving : gateStage move.source = .leaveRoom) : opensGate move := by
  cases phase : move.source with
  | leaveWriter call result point =>
      cases point <;> simp [phase, gateStage, opensGate] at giving ⊢
  | enterWriter call point => cases point <;> simp [phase, gateStage] at giving
  | enterReader call point => cases point <;> simp [phase, gateStage] at giving
  | idle | criticalWriter | criticalReader | leaveReader => simp [phase, gateStage] at giving

/-- One step of a thread as seen by the readers behind the gate: an Enter is
completed only by one of them, and nobody joins them. -/
private theorem approaching_step (thread : ι) {s s' : Shared solution2 B}
    {source target : Phase solution2 B} (stepped : program solution2 B s source s' target)
    (notPassing : gateStage source ≠ .occupying) :
    (if completesEnter ⟨thread, source, target⟩ then 1 else 0) +
      (if approaching target then 1 else 0) ≤ if approaching source then 1 else 0 := by
  cases transition_of_program stepped with
  | callWriter | callReader => simp [completesEnter, approaching]
  | @criticalWriter _ call body =>
      cases (B.writerStep s.data body).2 <;> simp [Phase.workedWriter, completesEnter, approaching]
  | @criticalReader _ call body =>
      cases (B.readerStep s.data body).2 <;> simp [Phase.workedReader, completesEnter, approaching]
  | @enterWriter _ call point sync control taken =>
      cases control <;> simp [Phase.enteredWriter, completesEnter, approaching]
  | @leaveWriter _ call result point sync control taken =>
      cases control <;> simp [Phase.leftWriter, completesEnter, approaching]
  | @leaveReader _ call result point sync control taken =>
      cases control <;> simp [Phase.leftReader, completesEnter, approaching]
  | @enterReader _ call point sync control taken =>
      cases point with
      | downReader | downReaderMutex | downWriter =>
          obtain ⟨rest, positive, same⟩ := down_map_eq_some_iff.mp taken
          cases same
          simp [Phase.enteredReader, completesEnter, approaching]
      | upReader => exact absurd rfl notPassing
      | testReaderCount =>
          cases taken
          split <;> simp [Phase.enteredReader, completesEnter, approaching]
      | loadReaderCount | storeReaderCount | upReaderMutex =>
          cases taken
          simp [Phase.enteredReader, completesEnter, approaching]

private theorem gateStage_ne_occupying_of_closesGate {move : Move ι (Phase solution2 B)}
    (closes : closesGate move) : gateStage move.source ≠ .occupying := by
  simp only [closesGate] at closes
  split at closes
  · next call atGate => simp [atGate, gateStage]
  · cases closes

variable [DecidableEq ι] {config next : Config ι (Shared solution2 B) (Phase solution2 B)}
  {move : Move ι (Phase solution2 B)}

/-- A closed gate stays closed through every step but a last writer's `up`. -/
theorem GateClosed.step (closed : GateClosed config) (stays : ¬ opensGate move)
    (taken : config.Step (program solution2 B) move next) : GateClosed next := by
  obtain ⟨empty, nobody⟩ := closed
  cases taken with
  | @intro thread shared target taken =>
      have kept : shared.sync.semaphoreReader = 0 ∧ gateStage target ≠ .occupying := by
        rcases gateSwitch_simulates taken with stepped | ⟨sameShared, sameStage⟩
        · exact stepped.room_stays_taken empty (nobody thread)
            fun giving => stays (opensGate_of_leaveRoom giving)
        · have sameRoom := congrArg Lightswitch.Shared.room sameShared
          exact ⟨sameRoom.trans empty, sameStage ▸ nobody thread⟩
      refine ⟨kept.1, fun other => ?_⟩
      rw [Config.advance_thread]
      by_cases moved : other = thread
      · subst moved
        rw [Function.update_self]
        exact kept.2
      · rw [Function.update_of_ne moved]
        exact nobody other

theorem GateClosed.not_passesGate (closed : GateClosed config)
    (taken : config.Step (program solution2 B) move next) : ¬ passesGate move := by
  intro passes
  cases taken with
  | @intro thread shared target stepped =>
      simp only [passesGate] at passes
      split at passes
      · next call atGate =>
          rw [atGate] at stepped
          cases transition_of_program stepped with
          | enterReader taken =>
              obtain ⟨rest, positive, _⟩ := down_map_eq_some_iff.mp taken
              rw [closed.1] at positive
              cases positive
      · cases passes

/-- Over a closed period, the entries of a thread and its place behind the
gate at the end are paid for by its place behind the gate at the start. -/
private theorem entries_count_le {moves : List (Move ι (Phase solution2 B))}
    {closing config : Config ι (Shared solution2 B) (Phase solution2 B)}
    (closed : GateClosed closing)
    (period : Run (program solution2 B) (fun _ move => ¬ opensGate move) closing moves config) :
    GateClosed config ∧ (∀ move ∈ moves, ¬ passesGate move) ∧
      ∀ thread, (entries moves).count thread +
        (if approaching (config.thread thread) then 1 else 0) ≤
          if approaching (closing.thread thread) then 1 else 0 := by
  refine period.preserves (fun moves config => GateClosed config ∧
    (∀ move ∈ moves, ¬ passesGate move) ∧ ∀ thread, (entries moves).count thread +
      (if approaching (config.thread thread) then 1 else 0) ≤
        if approaching (closing.thread thread) then 1 else 0)
    ⟨closed, by simp, by simp [entries]⟩ ?_
  intro moves config move next ⟨closed, notPassing, paid⟩ stays taken
  refine ⟨closed.step stays taken, ?_, ?_⟩
  · intro earlier member
    rcases List.mem_append.mp member with old | new
    · exact notPassing earlier old
    · rw [List.mem_singleton.mp new]
      exact closed.not_passesGate taken
  · intro reader
    have owed := paid reader
    cases taken with
    | @intro thread shared target stepped =>
        have account := approaching_step thread stepped (closed.2 thread)
        rw [entries_append, List.count_append, Config.advance_thread]
        by_cases mine : reader = thread
        · subst mine
          rw [Function.update_self]
          split at account
          · next completes =>
              rw [if_pos completes, List.count_singleton_self]
              omega
          · next continues =>
              rw [if_neg continues, List.count_nil]
              omega
        · rw [Function.update_of_ne mine]
          split <;> simp [Ne.symm mine] <;> omega

/-- The step that closes the gate leaves no unit behind, neither in the
semaphore nor with a reader on its way through. -/
private theorem gateClosed_of_closesGate [Fintype ι] {data : B.Data}
    (reachable : Reachable (program solution2 B) (initial solution2 data) config)
    (closes : closesGate move) (taken : config.Step (program solution2 B) move next) :
    GateClosed next := by
  obtain ⟨atMostOne, _⟩ := (gateSwitch_invariant reachable).exclusion
  simp only [Lightswitch.units, Config.map, gateSwitch] at atMostOne
  cases taken with
  | @intro thread shared target stepped =>
      simp only [closesGate] at closes
      split at closes
      · next call atGate =>
          rw [atGate] at stepped
          cases transition_of_program stepped with
          | enterWriter taken =>
              obtain ⟨rest, positive, same⟩ := down_map_eq_some_iff.mp taken
              cases same
              have occupants := tally_nonneg Lightswitch.Stage.occupant_nonneg
                fun thread => gateStage (config.thread thread)
              refine ⟨by simp only [Config.advance_shared]; omega, fun other occupying => ?_⟩
              have weight := weight_le_tally Lightswitch.Stage.occupant_nonneg
                (fun thread => gateStage (config.thread thread)) other
              rw [Config.advance_thread] at occupying
              by_cases moved : other = thread
              · subst moved
                rw [Function.update_self] at occupying
                cases occupying
              · rw [Function.update_of_ne moved] at occupying
                simp only [occupying, Lightswitch.Stage.occupant] at weight
                omega
      · cases closes

/-- While the gate is closed no reader passes it; whoever completes its Enter
stood behind the gate before it closed and does so once; hence there are at
most as many entries as readers stood there. -/
theorem solution2_bounded_overtaking [Fintype ι] {data : B.Data}
    {before closing config : Config ι (Shared solution2 B) (Phase solution2 B)}
    {moves : List (Move ι (Phase solution2 B))}
    (reachable : Reachable (program solution2 B) (initial solution2 data) before)
    (closes : closesGate move) (taken : before.Step (program solution2 B) move closing)
    (period : Run (program solution2 B) (fun _ move => ¬ opensGate move) closing moves config) :
    (∀ move ∈ moves, ¬ passesGate move) ∧
      (∀ move ∈ moves, completesEnter move → approaching (before.thread move.thread)) ∧
      (entries moves).Nodup ∧
      (entries moves).length ≤
        (Finset.univ.filter fun thread => approaching (before.thread thread)).card := by
  obtain ⟨_, notPassing, paid⟩ :=
    entries_count_le (gateClosed_of_closesGate reachable closes taken) period
  have same : ∀ thread, approaching (closing.thread thread) →
      approaching (before.thread thread) := by
    cases taken with
    | @intro writer shared target stepped =>
        intro thread behind
        rw [Config.advance_thread] at behind
        by_cases moved : thread = writer
        · subst moved
          rw [Function.update_self] at behind
          have account := approaching_step thread stepped
            (gateStage_ne_occupying_of_closesGate closes)
          rw [if_pos behind] at account
          by_contra outside
          rw [if_neg outside] at account
          omega
        · rwa [Function.update_of_ne moved] at behind
  have stood : ∀ thread ∈ entries moves, approaching (before.thread thread) := by
    intro thread member
    have positive := List.count_pos_iff.mpr member
    have owed := paid thread
    apply same
    by_contra outside
    rw [if_neg outside] at owed
    omega
  have once : (entries moves).Nodup := by
    rw [List.nodup_iff_count_le_one]
    intro thread
    have owed := paid thread
    split at owed <;> split at owed <;> omega
  refine ⟨notPassing, ?_, once, ?_⟩
  · intro move member completes
    exact stood _ (List.mem_map_of_mem (List.mem_filter.mpr ⟨member, completes⟩))
  · rw [← List.toFinset_card_of_nodup once]
    apply Finset.card_le_card
    intro thread member
    exact Finset.mem_filter.mpr ⟨Finset.mem_univ thread, stood thread (List.mem_toFinset.mp member)⟩

/-- Thread 0 reads `/proc/kboard/reader` and passes the gate; thread 1 writes
and is about to close it. -/
def passedSchedule : List (Thread × Action Procfs.kboardOperations) :=
  (.t0, .callReader 0) :: steps .t0 2 ++ (.t1, .callWriter (.write 7 2)) :: steps .t1 4

def passedConfig : Config Thread (Shared solution2 Procfs.kboardOperations)
    (Phase solution2 Procfs.kboardOperations) :=
  (execute step (fun _ _ => True) (initial solution2 Procfs.Board.zero) passedSchedule).get rfl

def closingStep : Shared solution2 Procfs.kboardOperations ×
    Phase solution2 Procfs.kboardOperations :=
  (step passedConfig.shared (passedConfig.thread .t1) .advance).get rfl

/-- The reader overtakes the waiting writer once the gate is closed. -/
theorem solution2_bounded_overtaking_once :
    ∃ moves config, Run (program solution2 Procfs.kboardOperations)
        (fun _ move => ¬ opensGate move) (passedConfig.advance .t1 closingStep.1 closingStep.2)
        moves config ∧
      readerInside (config.thread .t0) ∧ (∀ move ∈ moves, ¬ passesGate move) ∧
      (entries moves).length ≤
        (Finset.univ.filter fun thread => approaching (passedConfig.thread thread)).card := by
  have reachable : Reachable (program solution2 Procfs.kboardOperations)
      (initial solution2 Procfs.Board.zero) passedConfig := reachable_get _
  obtain ⟨moves, config, period, entered⟩ := execute_any
    (show (execute step (fun _ move => ¬ opensGate move)
      (passedConfig.advance .t1 closingStep.1 closingStep.2)
      (steps .t0 6)).any (fun config => readerInside (config.thread .t0)) = true from rfl)
  have closing : program solution2 Procfs.kboardOperations passedConfig.shared
      (passedConfig.thread .t1) closingStep.1 closingStep.2 := ⟨.advance, rfl⟩
  obtain ⟨notPassing, _, _, bounded⟩ :=
    solution2_bounded_overtaking reachable rfl (.intro closing) period
  exact ⟨moves, config, period, entered, notPassing, bounded⟩

end Kboard.Sync.Solution2
