import Kboard.Concurrency.Interleaving
import Mathlib.Algebra.BigOperators.Group.Finset.Basic
import Mathlib.Algebra.Order.BigOperators.Group.Finset

/-!
# Runs that come to rest

A rank bounds the steps that a thread has still to take before it is at rest.
If every step of a thread that is not at rest lowers its rank, and one of these
threads can always go on, then threads that begin nothing new all come to rest,
in whatever order they move.
-/

set_option autoImplicit false

namespace Kboard.Concurrency

universe u v w

section

variable {ι : Type u} {τ : Type w} [Fintype ι]

def work (rank : τ → ℕ) (thread : ι → τ) : ℕ := ∑ i, rank (thread i)

theorem work_update_lt [DecidableEq ι] {rank : τ → ℕ} {thread : ι → τ} {i : ι} {target : τ}
    (lower : rank target < rank (thread i)) :
    work rank (Function.update thread i target) < work rank thread := by
  refine Finset.sum_lt_sum ?_ ⟨i, Finset.mem_univ i, ?_⟩
  · intro j _
    by_cases moved : j = i
    · subst moved
      rw [Function.update_self]
      exact lower.le
    · rw [Function.update_of_ne moved]
  · rw [Function.update_self]
    exact lower

theorem work_le {rank : τ → ℕ} {thread : ι → τ} {bound : ℕ} (low : ∀ i, rank (thread i) ≤ bound) :
    work rank thread ≤ Fintype.card ι * bound :=
  Finset.sum_le_card_nsmul Finset.univ _ bound fun i _ => low i

end

section

variable {ι : Type u} {σ : Type v} {τ : Type w}

/-- The step is not the first of something new. -/
def BeginsNothing (atRest : τ → Prop) (_ : Config ι σ τ) (move : Move ι τ) : Prop :=
  ¬ atRest move.source

instance (atRest : τ → Prop) [∀ phase, Decidable (atRest phase)] (config : Config ι σ τ)
    (move : Move ι τ) : Decidable (BeginsNothing atRest config move) :=
  inferInstanceAs (Decidable (¬ atRest move.source))

variable [DecidableEq ι]

structure Settles (program : Program σ τ) (atRest : τ → Prop) (rank : τ → ℕ)
    (valid : Config ι σ τ → Prop) : Prop where
  keeps : ∀ {config thread shared target}, valid config →
    program config.shared (config.thread thread) shared target →
    valid (config.advance thread shared target)
  lowers : ∀ {config thread shared target}, valid config →
    program config.shared (config.thread thread) shared target →
    ¬ atRest (config.thread thread) → rank target < rank (config.thread thread)
  progress : ∀ {config thread}, valid config → ¬ atRest (config.thread thread) →
    ∃ other, ¬ atRest (config.thread other) ∧ config.Enabled program other

variable {program : Program σ τ} {atRest : τ → Prop} {rank : τ → ℕ}
  {valid : Config ι σ τ → Prop} {start config : Config ι σ τ} {moves : List (Move ι τ)}

theorem Settles.valid_of_run (settles : Settles program atRest rank valid)
    (run : Run program (BeginsNothing atRest) start moves config) (initial : valid start) :
    valid config := by
  refine run.preserves (fun _ config => valid config) initial ?_
  intro moves config move next before _ taken
  obtain @⟨thread, shared, target, stepped⟩ := taken
  exact settles.keeps before stepped

theorem Settles.length_add_work_le [Fintype ι] (settles : Settles program atRest rank valid)
    (run : Run program (BeginsNothing atRest) start moves config) (initial : valid start) :
    moves.length + work rank config.thread ≤ work rank start.thread := by
  induction run with
  | refl => simp
  | snoc earlier continues taken ih =>
      obtain @⟨thread, shared, target, stepped⟩ := taken
      have before := settles.valid_of_run earlier initial
      have less := work_update_lt (settles.lowers before stepped continues)
      rw [List.length_append, List.length_singleton, Config.advance_thread]
      omega

theorem Settles.exists_rest [Fintype ι] (settles : Settles program atRest rank valid)
    (initial : valid config) :
    ∃ moves final, Run program (BeginsNothing atRest) config moves final ∧
      ∀ i, atRest (final.thread i) := by
  generalize left : work rank config.thread = amount
  induction amount using Nat.strong_induction_on generalizing config with
  | _ amount ih =>
      by_cases resting : ∀ i, atRest (config.thread i)
      · exact ⟨[], config, .refl, resting⟩
      · obtain ⟨thread, moving⟩ := not_forall.mp resting
        obtain ⟨other, continues, shared, target, stepped⟩ := settles.progress initial moving
        have less := work_update_lt (settles.lowers initial stepped continues)
        obtain ⟨moves, final, run, rest⟩ :=
          ih _ (left ▸ less) (settles.keeps initial stepped) rfl
        have begun : BeginsNothing atRest config ⟨other, config.thread other, target⟩ := continues
        exact ⟨_, final, run.cons begun (.intro stepped), rest⟩

/-- Whatever order the threads have moved in, they have taken no more steps than
there was work, and they can all come to rest. -/
theorem Settles.drains [Fintype ι] (settles : Settles program atRest rank valid)
    (run : Run program (BeginsNothing atRest) start moves config) (initial : valid start) :
    moves.length ≤ work rank start.thread ∧
      ∃ further final, Run program (BeginsNothing atRest) config further final ∧
        ∀ i, atRest (final.thread i) := by
  have bounded := settles.length_add_work_le run initial
  exact ⟨by omega, settles.exists_rest (settles.valid_of_run run initial)⟩

end

end Kboard.Concurrency
