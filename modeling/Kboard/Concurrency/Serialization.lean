import Kboard.Concurrency.Interleaving
import Kboard.Concurrency.Lock

/-!
# Serialization of exclusive bodies

Operations whose bodies take many atomic steps, in a program that never lets
two of them run at once. What they do to the part of the shared state they work
on is what they would do one after the other, each in one piece, in the order
in which their bodies end. An operation that only looks at that part, while
nobody works on it, has its place in the same order.
-/

set_option autoImplicit false

namespace Kboard.Concurrency

universe u v w

/-- By itself the body runs from here to its end and returns this result. -/
inductive Completes {E L R : Type} (work : E → L → E × Control L R) :
    E → L → E → R → Prop where
  | ret {state next : E} {point : L} {result : R} :
      work state point = (next, .ret result) → Completes work state point next result
  | goto {state next final : E} {point further : L} {result : R} :
      work state point = (next, .goto further) → Completes work next further final result →
      Completes work state point final result

/-- The events lead from one state to the other when they happen one by one. -/
inductive Serial {E V : Type} (effect : E → V → E → Prop) (start : E) : List V → E → Prop where
  | nil : Serial effect start [] start
  | snoc {events : List V} {state next : E} {event : V} :
      Serial effect start events state → effect state event next →
      Serial effect start (events ++ [event]) next

/-- The body has come this far since it began, nobody else having worked. -/
inductive Reaches {E L R : Type} (work : E → L → E × Control L R) (start : E) (first : L) :
    E → L → Prop where
  | refl : Reaches work start first start first
  | snoc {state next : E} {point further : L} :
      Reaches work start first state point → work state point = (next, .goto further) →
      Reaches work start first next further

theorem Reaches.completes {E L R : Type} {work : E → L → E × Control L R} {start state next : E}
    {first point : L} {result : R} (reaches : Reaches work start first state point)
    (completes : Completes work state point next result) :
    Completes work start first next result := by
  induction reaches with
  | refl => exact completes
  | snoc _ worked ih => exact ih (.goto worked completes)

/-- What holds of the beginning of a body and survives its steps holds in its middle. -/
theorem Reaches.preserves {E L R : Type} {work : E → L → E × Control L R} {start state : E}
    {first point : L} (reaches : Reaches work start first state point) {holds : E → L → Prop}
    (initial : holds start first)
    (step : ∀ {state point next further}, holds state point →
      work state point = (next, .goto further) → holds next further) : holds state point := by
  induction reaches with
  | refl => exact initial
  | snoc _ worked ih => exact step ih worked

/-- How a program contains such operations: the part of the shared state they
work on, the steps of their bodies and where these begin, where a thread is in a
body or about to look, and the event that a step of a thread makes known. -/
structure SerialView (σ : Type v) (τ : Type w) (E C L R V : Type) where
  part : σ → E
  work : E → L → E × Control L R
  first : C → L
  body : τ → Option (C × L)
  looks : τ → Bool
  event : τ → τ → Option V
  finished : C → R → V
  effect : E → V → E → Prop

namespace SerialView

section

variable {ι : Type u} {σ : Type v} {τ : Type w} {E C L R V : Type}
  (view : SerialView σ τ E C L R V)

def working (phase : τ) : Bool := (view.body phase).isSome

def events (moves : List (Move ι τ)) : List V :=
  moves.filterMap fun move => view.event move.source move.target

/-- What a step does to the part and to the place of its thread. -/
inductive Step (s : σ) (source : τ) (s' : σ) (target : τ) : Prop where
  | silent (before : ¬ view.working source) (after : ¬ view.working target)
      (same : view.part s' = view.part s) (unseen : view.event source target = none)
  | look {event : V} (looking : view.looks source) (before : ¬ view.working source)
      (after : ¬ view.working target) (same : view.part s' = view.part s)
      (seen : view.event source target = some event)
      (effect : view.effect (view.part s) event (view.part s))
  | start {call : C} (before : ¬ view.working source)
      (after : view.body target = some (call, view.first call))
      (same : view.part s' = view.part s) (unseen : view.event source target = none)
      (effect : ∀ {next result}, Completes view.work (view.part s) (view.first call) next result →
        view.effect (view.part s) (view.finished call result) next)
  | goto {call : C} {point further : L} (before : view.body source = some (call, point))
      (worked : view.work (view.part s) point = (view.part s', .goto further))
      (after : view.body target = some (call, further))
      (unseen : view.event source target = none)
  | ret {call : C} {point : L} {result : R} (before : view.body source = some (call, point))
      (worked : view.work (view.part s) point = (view.part s', .ret result))
      (after : ¬ view.working target)
      (seen : view.event source target = some (view.finished call result))

/-- One thread at most is in a body, and then nobody is about to look. -/
structure Exclusive (config : Config ι σ τ) : Prop where
  alone : ∀ {i j}, view.working (config.thread i) → view.working (config.thread j) → j = i
  unseen : ∀ {i j}, view.working (config.thread i) → ¬ view.looks (config.thread j)

/-- A thread in a body began it in this state, and all of it will be its effect. -/
structure Underway (state now : E) (call : C) (point : L) : Prop where
  reaches : Reaches view.work state (view.first call) now point
  effect : ∀ {next result}, Completes view.work state (view.first call) next result →
    view.effect state (view.finished call result) next

/-- The events so far lead to a state that the part is in, unless a thread is in
a body that began there. -/
def Serialized (start : E) (moves : List (Move ι τ)) (config : Config ι σ τ) : Prop :=
  ∃ state guard, Serial view.effect start (view.events moves) state ∧
    LockInvariant guard (fun phase => view.working phase) (view.part config.shared = state)
      (fun phase => ∀ {call point}, view.body phase = some (call, point) →
        view.Underway state (view.part config.shared) call point) config.thread

end

section

variable {ι : Type u} {σ : Type v} {τ : Type w} {E C L R V : Type}
  {view : SerialView σ τ E C L R V} {origin : E} {moves : List (Move ι τ)}
  {config : Config ι σ τ}

theorem working_of_body {phase : τ} {call : C} {point : L}
    (inside : view.body phase = some (call, point)) : view.working phase := by
  rw [working, inside]
  rfl

theorem events_append_none {move : Move ι τ} (unseen : view.event move.source move.target = none) :
    view.events (moves ++ [move]) = view.events moves := by
  simp [events, unseen]

theorem events_append_some {move : Move ι τ} {event : V}
    (seen : view.event move.source move.target = some event) :
    view.events (moves ++ [move]) = view.events moves ++ [event] := by
  simp [events, seen]

theorem Serialized.free (serialized : view.Serialized origin moves config)
    (nobody : ∀ i, ¬ view.working (config.thread i)) :
    Serial view.effect origin (view.events moves) (view.part config.shared) := by
  obtain ⟨state, guard, serial, valid⟩ := serialized
  obtain ⟨_, rfl⟩ := valid.free nobody
  exact serial

theorem Serialized.underway (serialized : view.Serialized origin moves config) {i : ι} {call : C}
    {point : L} (inside : view.body (config.thread i) = some (call, point)) :
    ∃ state, Serial view.effect origin (view.events moves) state ∧
      view.Underway state (view.part config.shared) call point := by
  obtain ⟨state, guard, serial, valid⟩ := serialized
  exact ⟨state, serial, (valid.owner (working_of_body inside)).2.2 inside⟩

variable [DecidableEq ι]

theorem Serialized.step (serialized : view.Serialized origin moves config) {thread : ι}
    {shared : σ} {target : τ} (before : view.Exclusive config)
    (after : view.Exclusive (config.advance thread shared target))
    (taken : view.Step config.shared (config.thread thread) shared target) :
    view.Serialized origin (moves ++ [⟨thread, config.thread thread, target⟩])
      (config.advance thread shared target) := by
  obtain ⟨state, guard, serial, valid⟩ := serialized
  cases taken with
  | silent source left same unseen =>
      rw [Serialized, events_append_none unseen]
      refine ⟨state, guard, serial, valid.step (.bystander source left rfl ?_ ?_)⟩
      · rw [Config.advance_shared, same]
        exact id
      · rw [Config.advance_shared, same]
        exact fun _ => id
  | look looking source left same seen effect =>
      have nobody : ∀ i, ¬ view.working (config.thread i) :=
        fun i inside => before.unseen inside looking
      obtain ⟨_, rfl⟩ := valid.free nobody
      rw [Serialized, events_append_some seen]
      refine ⟨_, guard, serial.snoc effect, valid.step (.bystander source left rfl ?_ ?_)⟩
      · rw [Config.advance_shared, same]
        exact id
      · rw [Config.advance_shared, same]
        exact fun _ => id
  | start source entered same unseen effect =>
      have here : view.working ((config.advance thread shared target).thread thread) := by
        rw [Config.advance_thread, Function.update_self]
        exact working_of_body entered
      have nobody : ∀ i, ¬ view.working (config.thread i) := by
        intro i inside
        by_cases own : i = thread
        · exact source (own ▸ inside)
        · apply own
          apply after.alone here
          rw [Config.advance_thread, Function.update_of_ne own]
          exact inside
      obtain ⟨free, rfl⟩ := valid.free nobody
      rw [Serialized, events_append_none unseen]
      refine ⟨_, 0, serial, valid.step (.acquire free (working_of_body entered) fun _ => ?_)⟩
      intro call point inside
      rw [entered] at inside
      cases inside
      rw [Config.advance_shared, same]
      exact ⟨.refl, effect⟩
  | goto source worked stays unseen =>
      rw [Serialized, events_append_none unseen]
      refine ⟨state, guard, serial, valid.step (.work (working_of_body source)
        (working_of_body stays) rfl fun known => ?_)⟩
      intro call point inside
      rw [stays] at inside
      cases inside
      exact ⟨(known source).reaches.snoc worked, (known source).effect⟩
  | ret source worked left seen =>
      obtain ⟨_, _, known⟩ := valid.owner (working_of_body source)
      rw [Serialized, events_append_some seen]
      have underway := known source
      exact ⟨_, guard + 1, serial.snoc (underway.effect (underway.reaches.completes (.ret worked))),
        valid.step (.release (working_of_body source) left rfl fun _ => rfl)⟩

/-- A run through exclusive states is serialized. -/
theorem serialized_of_run {program : Program σ τ} {allowed : Config ι σ τ → Move ι τ → Prop}
    {start : Config ι σ τ} (run : Run program allowed start moves config)
    (idle : ∀ i, ¬ view.working (start.thread i))
    (steps : ∀ {config thread shared target}, Reachable program start config →
      program config.shared (config.thread thread) shared target →
      view.Step config.shared (config.thread thread) shared target)
    (exclusive : ∀ {moves config}, Run program allowed start moves config →
      view.Exclusive config) :
    view.Serialized (view.part start.shared) moves config := by
  induction run with
  | refl => exact ⟨_, 1, .nil, .inl ⟨rfl, idle, rfl⟩⟩
  | snoc run permitted taken ih =>
      have after := exclusive (run.snoc permitted taken)
      obtain @⟨thread, shared, target, stepped⟩ := taken
      exact ih.step (exclusive run) after (steps run.reachable stepped)

/-! ## Earlier places

The event of a body may have its place at a step in the middle of it. -/

/-- The steps at which events have their place instead, and the events of a
thread that have had theirs before the end of its body. -/
structure Commits (view : SerialView σ τ E C L R V) (program : Program σ τ)
    (commit : τ → τ → Option V) (ahead : τ → List V) : Prop where
  outside : ∀ {phase}, ¬ view.working phase → ahead phase = []
  accounts : ∀ {s source s' target}, program s source s' target →
    ahead source ++ (commit source target).toList =
      (view.event source target).toList ++ ahead target

omit [DecidableEq ι] in
theorem Step.event_outside {s s' : σ} {source target : τ}
    (taken : view.Step s source s' target) (before : ¬ view.working source)
    (after : ¬ view.working target) :
    view.event source target = none ∨ view.looks source := by
  cases taken with
  | silent _ _ _ unseen => exact .inl unseen
  | look looking => exact .inr looking
  | start _ entered => exact absurd (working_of_body entered) after
  | goto inside | ret inside => exact absurd (working_of_body inside) before

/-- The order of the places is that of the ends of the bodies, but for the body
that is underway. -/
theorem committed_of_run {program : Program σ τ} {allowed : Config ι σ τ → Move ι τ → Prop}
    {start : Config ι σ τ} {commit : τ → τ → Option V} {ahead : τ → List V}
    (commits : view.Commits program commit ahead) (run : Run program allowed start moves config)
    (idle : ∀ i, ¬ view.working (start.thread i))
    (steps : ∀ {config thread shared target}, Reachable program start config →
      program config.shared (config.thread thread) shared target →
      view.Step config.shared (config.thread thread) shared target)
    (exclusive : ∀ {moves config}, Run program allowed start moves config →
      view.Exclusive config)
    {i : ι} (alone : ∀ {j}, view.working (config.thread j) → j = i) :
    moves.filterMap (fun move => commit move.source move.target) =
      view.events moves ++ ahead (config.thread i) := by
  induction run generalizing i with
  | refl => exact (commits.outside (idle i)).symm
  | @snoc moves config next move run permitted taken ih =>
      have before := exclusive run
      obtain @⟨thread, shared, target, stepped⟩ := taken
      have account := commits.accounts stepped
      rw [select_append, events, select_append, ← events]
      by_cases own : i = thread
      · subst own
        have aloneBefore : ∀ {j}, view.working (config.thread j) → j = i := by
          intro j inside
          by_contra different
          apply different
          apply alone
          rw [Config.advance_thread, Function.update_of_ne different]
          exact inside
        rw [ih aloneBefore, List.append_assoc, account, Config.advance_thread,
          Function.update_self, List.append_assoc]
      · have left : ¬ view.working target := by
          intro inside
          apply own
          symm
          apply alone
          rw [Config.advance_thread, Function.update_self]
          exact inside
        rw [Config.advance_thread, Function.update_of_ne own]
        rw [commits.outside left, List.append_nil] at account
        by_cases working : view.working (config.thread thread)
        · have idleHere : ¬ view.working (config.thread i) :=
            fun inside => own (before.alone working inside)
          rw [ih (before.alone working), List.append_assoc, account, commits.outside idleHere,
            List.append_nil]
        · have aloneBefore : ∀ {j}, view.working (config.thread j) → j = i := by
            intro j inside
            have other : j ≠ thread := fun same => working (same ▸ inside)
            apply alone
            rw [Config.advance_thread, Function.update_of_ne other]
            exact inside
          rw [commits.outside working, List.nil_append] at account
          rw [ih aloneBefore, account]
          rcases Step.event_outside (steps run.reachable stepped) working left with
            unseen | looking
          · rw [unseen, Option.toList_none, List.append_nil, List.append_nil]
          · have idleHere : ¬ view.working (config.thread i) :=
              fun inside => before.unseen inside looking
            rw [commits.outside idleHere, List.append_nil, List.append_nil]

end

end SerialView

end Kboard.Concurrency
