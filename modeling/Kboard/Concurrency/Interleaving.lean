import Mathlib.Data.Fintype.Basic
import Mathlib.Data.List.Basic
import Mathlib.Logic.Function.Basic

/-!
# Interleaved threads over shared state

A program is given by the atomic steps of one thread. A configuration holds the
shared state and the local state of every thread; a run lets one thread take
one atomic step at a time, in any order. Nothing here assumes fairness, a fixed
number of threads, or anything about the program.
-/

set_option autoImplicit false

namespace Kboard.Concurrency

universe u v w

/-- The atomic steps of one thread: shared and local state before, then the
shared and local state after. -/
abbrev Program (σ : Type v) (τ : Type w) := σ → τ → σ → τ → Prop

/-- How an atomic step of a function ends: at a further point, or by returning. -/
inductive Control (Point Result : Type) where
  | goto (point : Point)
  | ret (result : Result)

structure Config (ι : Type u) (σ : Type v) (τ : Type w) where
  shared : σ
  thread : ι → τ

/-- What a run records of one step: who moved, and the local states around it. -/
structure Move (ι : Type u) (τ : Type w) where
  thread : ι
  source : τ
  target : τ

def Config.uniform {ι : Type u} {σ : Type v} {τ : Type w} (shared : σ) (start : τ) :
    Config ι σ τ :=
  ⟨shared, fun _ => start⟩

section

variable {ι : Type u} {σ : Type v} {τ : Type w} [DecidableEq ι]

def Config.advance (config : Config ι σ τ) (thread : ι) (shared : σ) (target : τ) :
    Config ι σ τ :=
  ⟨shared, Function.update config.thread thread target⟩

/-- One thread takes one atomic step of the program; all others stand still. -/
inductive Config.Step (program : Program σ τ) (config : Config ι σ τ) :
    Move ι τ → Config ι σ τ → Prop where
  | intro {thread : ι} {shared : σ} {target : τ}
      (taken : program config.shared (config.thread thread) shared target) :
      Step program config ⟨thread, config.thread thread, target⟩
        (config.advance thread shared target)

/-- A finite run that only takes steps satisfying `allowed`, which sees the
configuration before the step. The moves are kept oldest first. -/
inductive Run (program : Program σ τ) (allowed : Config ι σ τ → Move ι τ → Prop)
    (start : Config ι σ τ) : List (Move ι τ) → Config ι σ τ → Prop where
  | refl : Run program allowed start [] start
  | snoc {moves : List (Move ι τ)} {config next : Config ι σ τ} {move : Move ι τ} :
      Run program allowed start moves config → allowed config move →
      config.Step program move next →
      Run program allowed start (moves ++ [move]) next

def Reachable (program : Program σ τ) (start config : Config ι σ τ) : Prop :=
  ∃ moves, Run program (fun _ _ => True) start moves config

def Config.Enabled (program : Program σ τ) (config : Config ι σ τ) (thread : ι) : Prop :=
  ∃ shared target, program config.shared (config.thread thread) shared target

@[simp] theorem Config.advance_shared (config : Config ι σ τ) (thread : ι) (shared : σ)
    (target : τ) : (config.advance thread shared target).shared = shared := rfl

@[simp] theorem Config.advance_thread (config : Config ι σ τ) (thread : ι) (shared : σ)
    (target : τ) :
    (config.advance thread shared target).thread =
      Function.update config.thread thread target := rfl

@[simp] theorem Config.advance_advance (config : Config ι σ τ) (thread : ι) (middle shared : σ)
    (between target : τ) :
    (config.advance thread middle between).advance thread shared target =
      config.advance thread shared target := by
  simp only [Config.advance, Function.update_idem]

theorem Config.step_advance {program : Program σ τ} {shared shared' : σ} {source target : τ}
    (taken : program shared source shared' target) (config : Config ι σ τ) (thread : ι) :
    (config.advance thread shared source).Step program ⟨thread, source, target⟩
      (config.advance thread shared' target) := by
  have here : (config.advance thread shared source).thread thread = source :=
    Function.update_self ..
  have stepped := Config.Step.intro (show program (config.advance thread shared source).shared
    ((config.advance thread shared source).thread thread) shared' target by rw [here]; exact taken)
  rw [here, Config.advance_advance] at stepped
  exact stepped

theorem Config.Step.inversion {program : Program σ τ} {config next : Config ι σ τ} {thread : ι}
    {source target : τ} (taken : config.Step program ⟨thread, source, target⟩ next) :
    config.thread thread = source ∧ ∃ shared,
      program config.shared source shared target ∧ next = config.advance thread shared target := by
  generalize moved : Move.mk thread source target = move at taken
  obtain @⟨_, shared, _, stepped⟩ := taken
  cases moved
  exact ⟨rfl, shared, stepped, rfl⟩

/-! ## Runs -/

variable {program : Program σ τ} {allowed : Config ι σ τ → Move ι τ → Prop}
  {start config : Config ι σ τ} {moves : List (Move ι τ)}

/-- Whatever holds at the start and survives each allowed step holds at the end. -/
theorem Run.preserves (run : Run program allowed start moves config)
    (invariant : List (Move ι τ) → Config ι σ τ → Prop) (initial : invariant [] start)
    (step : ∀ {moves config move next}, invariant moves config → allowed config move →
      config.Step program move next → invariant (moves ++ [move]) next) :
    invariant moves config := by
  induction run with
  | refl => exact initial
  | snoc _ permitted taken ih => exact step ih permitted taken

theorem Run.mono {weaker : Config ι σ τ → Move ι τ → Prop}
    (run : Run program allowed start moves config)
    (weaken : ∀ config move, allowed config move → weaker config move) :
    Run program weaker start moves config := by
  induction run with
  | refl => exact .refl
  | snoc _ permitted taken ih => exact .snoc ih (weaken _ _ permitted) taken

theorem Run.append {further : List (Move ι τ)} {next : Config ι σ τ}
    (run : Run program allowed start moves config)
    (continued : Run program allowed config further next) :
    Run program allowed start (moves ++ further) next := by
  induction continued with
  | refl => simpa using run
  | snoc _ permitted taken ih =>
      rw [← List.append_assoc]
      exact ih.snoc permitted taken

theorem Run.reachable (run : Run program allowed start moves config) :
    Reachable program start config :=
  ⟨moves, run.mono fun _ _ _ => trivial⟩

theorem Reachable.refl : Reachable program start start := ⟨[], .refl⟩

theorem Reachable.step {move : Move ι τ} {next : Config ι σ τ}
    (reachable : Reachable program start config) (taken : config.Step program move next) :
    Reachable program start next := by
  obtain ⟨moves, run⟩ := reachable
  exact ⟨_, run.snoc trivial taken⟩

theorem Reachable.run (reachable : Reachable program start config) {next : Config ι σ τ}
    (run : Run program allowed config moves next) : Reachable program start next := by
  obtain ⟨earlier, earlierRun⟩ := reachable
  exact ⟨_, earlierRun.append (run.mono fun _ _ _ => trivial)⟩

theorem Reachable.preserves (reachable : Reachable program start config)
    (invariant : Config ι σ τ → Prop) (initial : invariant start)
    (step : ∀ {config : Config ι σ τ} {thread shared target}, invariant config →
      program config.shared (config.thread thread) shared target →
      invariant (config.advance thread shared target)) :
    invariant config := by
  obtain ⟨moves, run⟩ := reachable
  exact run.preserves (fun _ config => invariant config) initial
    (fun valid _ ⟨taken⟩ => step valid taken)

end

/-! ## One thread among the others -/

section

variable {ι : Type u} {σ : Type v} {τ : Type w} [DecidableEq ι]

def ofThread (thread : ι) (moves : List (Move ι τ)) : List (Move ι τ) :=
  moves.filter fun move => move.thread = thread

omit [DecidableEq ι] in
theorem select_append {V : Type} (select : τ → τ → Option V) (moves : List (Move ι τ))
    (thread : ι) (source target : τ) :
    (moves ++ [(⟨thread, source, target⟩ : Move ι τ)]).filterMap
        (fun move => select move.source move.target) =
      moves.filterMap (fun move => select move.source move.target) ++
        (select source target).toList := by
  rw [List.filterMap_append]
  cases selected : select source target <;> simp [selected]

theorem ofThread_append_self (moves : List (Move ι τ)) (thread : ι) (source target : τ) :
    ofThread thread (moves ++ [⟨thread, source, target⟩]) =
      ofThread thread moves ++ [⟨thread, source, target⟩] := by
  simp [ofThread]

theorem ofThread_append_of_ne {thread mover : ι} (own : mover ≠ thread) (moves : List (Move ι τ))
    (source target : τ) :
    ofThread thread (moves ++ [⟨mover, source, target⟩]) = ofThread thread moves := by
  simp [ofThread, own]

/-- If every step accounts for what the thread takes up, hands out and still
owes, each thread hands out what it took up, in the same order. -/
theorem Run.account {V : Type} {program : Program σ τ}
    {allowed : Config ι σ τ → Move ι τ → Prop} {start config : Config ι σ τ}
    {moves : List (Move ι τ)} (run : Run program allowed start moves config)
    {takes gives : τ → τ → Option V} {owed : τ → List V}
    (accounts : ∀ {shared source shared' target}, program shared source shared' target →
      owed source ++ (takes source target).toList = (gives source target).toList ++ owed target)
    (thread : ι) (settled : owed (start.thread thread) = []) :
    (ofThread thread moves).filterMap (fun move => takes move.source move.target) =
      (ofThread thread moves).filterMap (fun move => gives move.source move.target) ++
        owed (config.thread thread) := by
  induction run with
  | refl => exact settled.symm
  | @snoc moves config next move run permitted taken ih =>
      obtain @⟨mover, shared, target, stepped⟩ := taken
      by_cases own : mover = thread
      · subst own
        rw [ofThread_append_self, select_append, select_append, ih, List.append_assoc,
          accounts stepped, Config.advance_thread, Function.update_self, List.append_assoc]
      · rw [ofThread_append_of_ne own, ih, Config.advance_thread,
          Function.update_of_ne (Ne.symm own)]

/-- If every configuration of a family leads back to the family while each of
these threads does something once, they can do it any number of times. -/
theorem Run.rounds {K V : Type} {program : Program σ τ}
    {allowed : Config ι σ τ → Move ι τ → Prop} {family : K → Config ι σ τ}
    {select : τ → τ → Option V} {threads : List ι}
    (round : ∀ k, ∃ moves k', Run program allowed (family k) moves (family k') ∧
      ∀ thread ∈ threads, ((ofThread thread moves).filterMap
        fun move => select move.source move.target).length = 1) (n : ℕ) (k : K) :
    ∃ moves k', Run program allowed (family k) moves (family k') ∧
      ∀ thread ∈ threads, ((ofThread thread moves).filterMap
        fun move => select move.source move.target).length = n := by
  induction n with
  | zero => exact ⟨[], k, .refl, fun _ _ => rfl⟩
  | succ n ih =>
      obtain ⟨earlier, between, run, counted⟩ := ih
      obtain ⟨later, after, further, once⟩ := round between
      refine ⟨earlier ++ later, after, run.append further, ?_⟩
      intro thread member
      rw [ofThread, List.filter_append, List.filterMap_append, List.length_append]
      exact congrArg₂ (· + ·) (counted thread member) (once thread member)

end

/-! ## Simulation

An abstraction reads a smaller program off a larger one. Every concrete step
must be an abstract step or leave the abstract states of that thread alone. -/

section

variable {ι : Type u} {σ σ' : Type v} {τ τ' : Type w} [DecidableEq ι]

def Config.map (share : σ → σ') (view : τ → τ') (config : Config ι σ τ) : Config ι σ' τ' :=
  ⟨share config.shared, fun thread => view (config.thread thread)⟩

theorem Config.map_advance (share : σ → σ') (view : τ → τ') (config : Config ι σ τ)
    (thread : ι) (shared : σ) (target : τ) :
    (config.advance thread shared target).map share view =
      (config.map share view).advance thread (share shared) (view target) := by
  simp only [Config.map, Config.advance, Config.mk.injEq, true_and]
  exact Function.comp_update view config.thread thread target

def Simulates (concrete : Program σ τ) (abstract : Program σ' τ')
    (share : σ → σ') (view : τ → τ') : Prop :=
  ∀ {shared source shared' target}, concrete shared source shared' target →
    abstract (share shared) (view source) (share shared') (view target) ∨
      share shared' = share shared ∧ view target = view source

/-- A step that the abstraction does not see leaves the abstract configuration alone. -/
theorem Config.map_advance_of_same {share : σ → σ'} {view : τ → τ'} {config : Config ι σ τ}
    {thread : ι} {shared : σ} {target : τ} (sameShared : share shared = share config.shared)
    (sameView : view target = view (config.thread thread)) :
    (config.advance thread shared target).map share view = config.map share view := by
  rw [Config.map_advance, sameShared, sameView]
  simp only [Config.advance, Config.map, Config.mk.injEq, true_and]
  exact Function.update_eq_self thread fun thread => view (config.thread thread)

theorem Simulates.reachable {concrete : Program σ τ} {abstract : Program σ' τ'}
    {share : σ → σ'} {view : τ → τ'} {start config : Config ι σ τ}
    (simulation : Simulates concrete abstract share view)
    (reachable : Reachable concrete start config) :
    Reachable abstract (start.map share view) (config.map share view) := by
  refine reachable.preserves
    (fun config => Reachable abstract (start.map share view) (config.map share view)) .refl ?_
  intro config thread shared target simulated taken
  rcases simulation taken with abstractStep | ⟨sameShared, sameView⟩
  · rw [Config.map_advance]
    exact simulated.step (.intro abstractStep)
  · rw [Config.map_advance_of_same sameShared sameView]
    exact simulated

def Move.map (view : τ → τ') (move : Move ι τ) : Move ι τ' :=
  ⟨move.thread, view move.source, view move.target⟩

/-- Those steps are allowed that the abstraction sees as permitted. -/
abbrev Permits (share : σ → σ') (view : τ → τ') (permitted : Config ι σ' τ' → Move ι τ' → Prop) :
    Config ι σ τ → Move ι τ → Prop :=
  fun config move => permitted (config.map share view) (move.map view)

/-- A run as the abstraction sees it. What is selected from its moves is what is
selected from the views of all moves, if a move without a change in the view is
never selected. -/
theorem Simulates.run {concrete : Program σ τ} {abstract : Program σ' τ'}
    {share : σ → σ'} {view : τ → τ'} {start config : Config ι σ τ} {moves : List (Move ι τ)}
    {permitted : Config ι σ' τ' → Move ι τ' → Prop}
    (simulation : Simulates concrete abstract share view)
    (run : Run concrete (Permits share view permitted) start moves config) :
    ∃ seen, Run abstract permitted (start.map share view) seen (config.map share view) ∧
      ∀ {V : Type} (select : Move ι τ' → Option V),
        (∀ {thread shared source shared' target}, concrete shared source shared' target →
          view target = view source → select ⟨thread, view source, view target⟩ = none) →
        seen.filterMap select = moves.filterMap fun move => select (move.map view) := by
  induction run with
  | refl => exact ⟨[], .refl, fun _ _ => rfl⟩
  | @snoc moves config next move run allow taken ih =>
      obtain ⟨seen, abstractRun, selects⟩ := ih
      obtain @⟨thread, shared, target, stepped⟩ := taken
      rcases simulation stepped with abstractStep | ⟨sameShared, sameView⟩
      · refine ⟨seen ++ [⟨thread, view (config.thread thread), view target⟩], ?_, ?_⟩
        · rw [Config.map_advance]
          exact abstractRun.snoc allow (.intro abstractStep)
        · intro V select unseen
          rw [List.filterMap_append, List.filterMap_append, selects select unseen]
          rfl
      · refine ⟨seen, ?_, ?_⟩
        · rw [Config.map_advance_of_same sameShared sameView]
          exact abstractRun
        · intro V select unseen
          have last : select (Move.map view ⟨thread, config.thread thread, target⟩) = none :=
            unseen stepped sameView
          rw [List.filterMap_append, selects select unseen]
          simp [last]

end

/-! ## Executable programs -/

/-- Names for the threads of a schedule. -/
inductive Thread where
  | t0
  | t1
  | t2
  | t3
  deriving DecidableEq

instance : Fintype Thread where
  elems := {.t0, .t1, .t2, .t3}
  complete thread := by cases thread <;> simp

theorem Config.eq_of_threads {σ : Type v} {τ : Type w} {config config' : Config Thread σ τ}
    (shared : config.shared = config'.shared) (t0 : config.thread .t0 = config'.thread .t0)
    (t1 : config.thread .t1 = config'.thread .t1) (t2 : config.thread .t2 = config'.thread .t2)
    (t3 : config.thread .t3 = config'.thread .t3) : config = config' := by
  obtain ⟨_, threads⟩ := config
  obtain ⟨_, threads'⟩ := config'
  obtain rfl := shared
  have same : threads = threads' := by
    funext thread
    cases thread with
    | t0 => exact t0
    | t1 => exact t1
    | t2 => exact t2
    | t3 => exact t3
  rw [same]

section

variable {ι : Type u} {σ : Type v} {τ : Type w} {α : Type} [DecidableEq ι]

/-- The program of an executable step function. The action resolves whatever
the code leaves to its environment. -/
def Program.ofStep (step : σ → τ → α → Option (σ × τ)) : Program σ τ :=
  fun shared source shared' target => ∃ action, step shared source action = some (shared', target)

/-- Run a schedule of threads and actions; `none` if one of them has no such
step or the restriction forbids it. -/
def execute (step : σ → τ → α → Option (σ × τ)) (allowed : Config ι σ τ → Move ι τ → Prop)
    [∀ config move, Decidable (allowed config move)] :
    Config ι σ τ → List (ι × α) → Option (Config ι σ τ)
  | config, [] => some config
  | config, (thread, action) :: schedule =>
      match step config.shared (config.thread thread) action with
      | none => none
      | some (shared, target) =>
          if allowed config ⟨thread, config.thread thread, target⟩ then
            execute step allowed (config.advance thread shared target) schedule
          else none

/-- The moves of a schedule, up to a step that cannot be taken. -/
def trace (step : σ → τ → α → Option (σ × τ)) : Config ι σ τ → List (ι × α) → List (Move ι τ)
  | _, [] => []
  | config, (thread, action) :: schedule =>
      match step config.shared (config.thread thread) action with
      | none => []
      | some (shared, target) => ⟨thread, config.thread thread, target⟩ ::
          trace step (config.advance thread shared target) schedule

theorem Run.cons {program : Program σ τ} {allowed : Config ι σ τ → Move ι τ → Prop}
    {start next config : Config ι σ τ} {move : Move ι τ} {moves : List (Move ι τ)}
    (permitted : allowed start move) (taken : start.Step program move next)
    (run : Run program allowed next moves config) :
    Run program allowed start (move :: moves) config := by
  induction run with
  | refl => exact Run.snoc .refl permitted taken
  | snoc _ allowedLast last ih =>
      rw [← List.cons_append]
      exact ih.snoc allowedLast last

theorem execute_sound {step : σ → τ → α → Option (σ × τ)}
    {allowed : Config ι σ τ → Move ι τ → Prop} [∀ config move, Decidable (allowed config move)]
    {schedule : List (ι × α)} {start config : Config ι σ τ}
    (executed : execute step allowed start schedule = some config) :
    Run (Program.ofStep step) allowed start (trace step start schedule) config := by
  induction schedule generalizing start with
  | nil =>
      cases executed
      exact .refl
  | cons entry schedule ih =>
      obtain ⟨thread, action⟩ := entry
      cases taken : step start.shared (start.thread thread) action with
      | none => simp only [execute, taken, reduceCtorEq] at executed
      | some outcome =>
          obtain ⟨shared, target⟩ := outcome
          simp only [execute, taken] at executed
          simp only [trace, taken]
          split at executed
          · next permitted => exact (ih executed).cons permitted (.intro ⟨action, taken⟩)
          · cases executed

theorem run_of_done {step : σ → τ → α → Option (σ × τ)}
    {allowed : Config ι σ τ → Move ι τ → Prop} [∀ config move, Decidable (allowed config move)]
    {schedule : List (ι × α)} {start config : Config ι σ τ}
    (done : (execute step allowed start schedule).isSome)
    (same : (execute step allowed start schedule).get done = config) :
    Run (Program.ofStep step) allowed start (trace step start schedule) config := by
  rw [← same]
  exact execute_sound (Option.some_get done).symm

theorem execute_any {step : σ → τ → α → Option (σ × τ)}
    {allowed : Config ι σ τ → Move ι τ → Prop} [∀ config move, Decidable (allowed config move)]
    {schedule : List (ι × α)} {start : Config ι σ τ} {check : Config ι σ τ → Bool}
    (passed : (execute step allowed start schedule).any check = true) :
    ∃ moves config, Run (Program.ofStep step) allowed start moves config ∧
      check config = true := by
  obtain ⟨config, executed, checked⟩ := (Option.any_eq_true _ _).mp passed
  exact ⟨_, config, execute_sound executed, checked⟩

end

end Kboard.Concurrency
