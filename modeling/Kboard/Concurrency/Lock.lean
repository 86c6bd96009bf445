import Mathlib.Logic.Function.Basic
import Mathlib.Tactic.SplitIfs

/-!
# Semaphores and lock-protected assertions

A counting semaphore as its value, and the rule that lets a mutex-protected
state be reasoned about one thread at a time: while nobody owns the lock a
resource assertion holds, and while a thread owns it that thread knows an
assertion of its own program point. Every step is then checked from the point
of view of the thread that takes it.
-/

set_option autoImplicit false

namespace Kboard.Concurrency

/-- Wait for a unit and take it, in one atomic step. -/
def down : Nat → Option Nat
  | 0 => none
  | value + 1 => some value

def up (value : Nat) : Nat := value + 1

theorem down_map_eq_some_iff {α : Type} {value : Nat} {next : Nat → α} {result : α} :
    (down value).map next = some result ↔ ∃ rest, value = rest + 1 ∧ next rest = result := by
  cases value with
  | zero => simp [down]
  | succ value => simp [down]

theorem down_isSome_iff {value : Nat} : (down value).isSome = true ↔ 0 < value := by
  cases value with
  | zero => simp [down]
  | succ value => simp [down]

universe u w

section

variable {ι : Type u} {τ : Type w}

/-- Either the lock is free, nobody owns it and the resource assertion holds,
or exactly one thread owns it and knows the assertion of its local state. -/
def LockInvariant (value : Nat) (owns : τ → Prop) (resource : Prop) (knows : τ → Prop)
    (thread : ι → τ) : Prop :=
  value = 1 ∧ (∀ i, ¬ owns (thread i)) ∧ resource ∨
    value = 0 ∧ ∃ i, owns (thread i) ∧ (∀ j, owns (thread j) → j = i) ∧ knows (thread i)

variable {value value' : Nat} {owns : τ → Prop} {resource resource' : Prop}
  {knows knows' : τ → Prop} {thread : ι → τ}

theorem LockInvariant.owner (valid : LockInvariant value owns resource knows thread) {i : ι}
    (owner : owns (thread i)) :
    value = 0 ∧ (∀ j, owns (thread j) → j = i) ∧ knows (thread i) := by
  rcases valid with ⟨_, nobody, _⟩ | ⟨taken, holder, _, unique, known⟩
  · exact absurd owner (nobody i)
  · obtain rfl := unique i owner
    exact ⟨taken, unique, known⟩

theorem LockInvariant.free (valid : LockInvariant value owns resource knows thread)
    (nobody : ∀ i, ¬ owns (thread i)) : value = 1 ∧ resource := by
  rcases valid with ⟨free, _, held⟩ | ⟨_, holder, owner, _⟩
  · exact ⟨free, held⟩
  · exact absurd owner (nobody holder)

theorem LockInvariant.value_le_one (valid : LockInvariant value owns resource knows thread) :
    value ≤ 1 := by
  rcases valid with ⟨free, _⟩ | ⟨taken, _⟩
  · omega
  · omega

/-- What one thread has to show for one step, by what the step does to the
lock. Nothing is asked of the other threads. -/
inductive LockStep (owns : τ → Prop) (value value' : Nat) (resource resource' : Prop)
    (knows knows' : τ → Prop) (source target : τ) : Prop where
  | bystander (before : ¬ owns source) (after : ¬ owns target) (sameValue : value' = value)
      (keepsResource : resource → resource') (keepsKnowledge : ∀ l, knows l → knows' l)
  | acquire (taken : value = value' + 1) (after : owns target) (learns : resource → knows' target)
  | work (before : owns source) (after : owns target) (sameValue : value' = value)
      (learns : knows source → knows' target)
  | release (before : owns source) (after : ¬ owns target) (given : value' = value + 1)
      (restores : knows source → resource')

variable [DecidableEq ι] {i : ι} {target : τ}

private theorem LockInvariant.bystander (valid : LockInvariant value owns resource knows thread)
    (before : ¬ owns (thread i)) (after : ¬ owns target) (sameValue : value' = value)
    (keepsResource : resource → resource') (keepsKnowledge : ∀ l, knows l → knows' l) :
    LockInvariant value' owns resource' knows' (Function.update thread i target) := by
  have same : ∀ j, owns (Function.update thread i target j) ↔ owns (thread j) := by
    intro j
    by_cases moved : j = i
    · subst moved
      simp [before, after]
    · rw [Function.update_of_ne moved]
  rcases valid with ⟨free, nobody, held⟩ | ⟨taken, holder, owner, unique, known⟩
  · exact .inl ⟨sameValue.trans free, fun j owner => nobody j ((same j).mp owner),
      keepsResource held⟩
  · refine .inr ⟨sameValue.trans taken, holder, (same holder).mpr owner,
      fun j other => unique j ((same j).mp other), ?_⟩
    have moved : holder ≠ i := fun equal => before (equal ▸ owner)
    rw [Function.update_of_ne moved]
    exact keepsKnowledge _ known

theorem LockInvariant.step (valid : LockInvariant value owns resource knows thread)
    (step : LockStep owns value value' resource resource' knows knows' (thread i) target) :
    LockInvariant value' owns resource' knows' (Function.update thread i target) := by
  cases step with
  | bystander before after sameValue keepsResource keepsKnowledge =>
      exact valid.bystander before after sameValue keepsResource keepsKnowledge
  | acquire taken after learns =>
      rcases valid with ⟨free, nobody, held⟩ | ⟨locked, _⟩
      · refine .inr ⟨by omega, i, by simpa using after, ?_, by simpa using learns held⟩
        intro j other
        by_contra different
        rw [Function.update_of_ne different] at other
        exact nobody j other
      · omega
  | work before after sameValue learns =>
      obtain ⟨taken, unique, known⟩ := valid.owner before
      refine .inr ⟨sameValue.trans taken, i, by simpa using after, ?_, by simpa using learns known⟩
      intro j other
      by_contra different
      rw [Function.update_of_ne different] at other
      exact different (unique j other)
  | release before after given restores =>
      obtain ⟨taken, unique, known⟩ := valid.owner before
      refine .inl ⟨by omega, ?_, restores known⟩
      intro j other
      by_cases moved : j = i
      · subst moved
        simp only [Function.update_self] at other
        exact after other
      · rw [Function.update_of_ne moved] at other
        exact moved (unique j other)

end

end Kboard.Concurrency
