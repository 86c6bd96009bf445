import Mathlib.Algebra.BigOperators.Group.Finset.Piecewise
import Mathlib.Algebra.Order.BigOperators.Group.Finset
import Mathlib.Algebra.Order.Group.Int
import Mathlib.Data.Fintype.Basic

/-!
# Weighted counts over threads

Program counters of an unbounded number of threads enter an invariant only
through sums: how many threads stand in a region, how many units they hold. A
step of one thread moves such a sum by the difference of two weights, which
turns the preservation of a linear invariant into linear arithmetic.
-/

set_option autoImplicit false

namespace Kboard.Concurrency

universe u w

variable {ι : Type u} {τ : Type w} [Fintype ι]

def tally (weight : τ → ℤ) (thread : ι → τ) : ℤ := ∑ i, weight (thread i)

@[simp] theorem tally_update [DecidableEq ι] (weight : τ → ℤ) (thread : ι → τ) (i : ι)
    (target : τ) :
    tally weight (Function.update thread i target) =
      tally weight thread + (weight target - weight (thread i)) := by
  have moved : (fun j => weight (Function.update thread i target j)) =
      Function.update (fun j => weight (thread j)) i (weight target) :=
    Function.comp_update weight thread i target
  simp only [tally, moved, Finset.sum_update_of_mem (Finset.mem_univ i)]
  rw [← Finset.add_sum_erase Finset.univ (fun j => weight (thread j)) (Finset.mem_univ i),
    Finset.sdiff_singleton_eq_erase]
  omega

theorem tally_eq_zero {weight : τ → ℤ} {thread : ι → τ} (zero : ∀ i, weight (thread i) = 0) :
    tally weight thread = 0 :=
  Finset.sum_eq_zero fun i _ => zero i

theorem tally_nonneg {weight : τ → ℤ} (nonneg : ∀ l, 0 ≤ weight l) (thread : ι → τ) :
    0 ≤ tally weight thread :=
  Finset.sum_nonneg fun _ _ => nonneg _

theorem weight_le_tally {weight : τ → ℤ} (nonneg : ∀ l, 0 ≤ weight l) (thread : ι → τ) (i : ι) :
    weight (thread i) ≤ tally weight thread :=
  Finset.single_le_sum (f := fun j => weight (thread j)) (fun _ _ => nonneg _) (Finset.mem_univ i)

theorem tally_bounds {weight : τ → ℤ} (nonneg : ∀ l, 0 ≤ weight l) (thread : ι → τ) (i : ι) :
    0 ≤ tally weight thread ∧ weight (thread i) ≤ tally weight thread :=
  ⟨tally_nonneg nonneg thread, weight_le_tally nonneg thread i⟩

theorem weight_add_weight_le_tally [DecidableEq ι] {weight : τ → ℤ} (nonneg : ∀ l, 0 ≤ weight l)
    (thread : ι → τ) {i j : ι} (different : i ≠ j) :
    weight (thread i) + weight (thread j) ≤ tally weight thread := by
  rw [← Finset.sum_pair (f := fun k => weight (thread k)) different]
  exact Finset.sum_le_sum_of_subset_of_nonneg (Finset.subset_univ _) fun _ _ _ => nonneg _

theorem tally_le_card {weight : τ → ℤ} (low : ∀ l, weight l ≤ 1) (thread : ι → τ) :
    tally weight thread ≤ Fintype.card ι := by
  have bounded := Finset.sum_le_card_nsmul Finset.univ (fun i => weight (thread i)) 1
    fun i _ => low (thread i)
  simpa [tally] using bounded

theorem exists_pos_of_tally_pos {weight : τ → ℤ} {thread : ι → τ}
    (positive : 0 < tally weight thread) : ∃ i, 0 < weight (thread i) := by
  by_contra none
  simp only [not_exists, not_lt] at none
  have bounded : tally weight thread ≤ 0 := Finset.sum_nonpos fun i _ => none i
  omega

end Kboard.Concurrency
