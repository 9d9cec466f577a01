import Mathlib.Algebra.BigOperators.Ring.Finset
import Mathlib.Algebra.Order.BigOperators.Ring.Finset
import Mathlib.Algebra.Order.Field.Basic
import Mathlib.Tactic.Linarith

/-!
# Shares of a pool

Every key has a share of a pool, and what the shares leave of the pool is its slack. A key may
change its share by what it adds to the pool; a loss shrinks all shares by a common factor; a
reward is owed in proportion to the shares. Shares are exact fractions: whoever rounds them down
only adds to the slack.
-/

namespace Shares

variable {K F : Type} [Fintype K] [Field F] [LinearOrder F] [IsStrictOrderedRing F]
  {share share' reward reward' : K → F} {slack spare total total' funds factor perUnit x : F}
  {k l : K}

/-- The shares fit into the pool and leave the slack. -/
def Covered (share : K → F) (slack total : F) : Prop := ∑ k, share k + slack ≤ total

omit [IsStrictOrderedRing F] in
theorem Covered.none (hshare : ∀ k, share k = 0) (hslack : slack ≤ total) :
    Covered share slack total := by
  unfold Covered
  rw [Finset.sum_eq_zero fun k _ => hshare k, zero_add]
  exact hslack

theorem Covered.sum_le (h : Covered share slack total) (hslack : 0 ≤ slack) :
    ∑ k, share k ≤ total := by
  unfold Covered at h
  linarith

theorem Covered.sum_subset_le (h : Covered share slack total) (hslack : 0 ≤ slack)
    (hnonneg : ∀ k, 0 ≤ share k) {A : Finset K} : ∑ k ∈ A, share k ≤ total :=
  (Finset.sum_le_univ_sum_of_nonneg hnonneg).trans (h.sum_le hslack)

theorem Covered.mono (h : Covered share slack total) (hshare : ∀ k, share' k ≤ share k)
    (htotal : total ≤ total') : Covered share' slack total' := by
  have hsum : ∑ k, share' k ≤ ∑ k, share k := Finset.sum_le_sum fun k _ => hshare k
  unfold Covered at h ⊢
  linarith

variable [DecidableEq K]

omit [LinearOrder F] [IsStrictOrderedRing F] in
theorem sum_change (h : ∀ j, j ≠ k → share' j = share j) :
    ∑ j, share' j + share k = ∑ j, share j + share' k := by
  have hrest : ∑ j ∈ Finset.univ.erase k, share' j = ∑ j ∈ Finset.univ.erase k, share j := by
    apply Finset.sum_congr rfl
    intro j hj
    exact h j (Finset.ne_of_mem_erase hj)
  rw [← Finset.add_sum_erase _ share' (Finset.mem_univ k),
    ← Finset.add_sum_erase _ share (Finset.mem_univ k), hrest]
  ring

/-- A key changes its share by no more than the pool grows. -/
theorem Covered.change (h : Covered share slack total) (hrest : ∀ j, j ≠ k → share' j = share j)
    (hk : share' k ≤ share k + x) : Covered share' slack (total + x) := by
  have hsum := sum_change hrest
  unfold Covered at h ⊢
  linarith

/-- Two keys change their shares together. -/
theorem Covered.change₂ (hne : k ≠ l) (h : Covered share slack total)
    (hrest : ∀ j, j ≠ k → j ≠ l → share' j = share j)
    (hkl : share' k + share' l ≤ share k + share l + x) :
    Covered share' slack (total + x) := by
  have hfirst : Covered (Function.update share k (share' k)) slack
      (total + (share' k - share k)) := by
    apply h.change (k := k)
    · intro j hj
      exact Function.update_of_ne hj _ _
    · rw [Function.update_self]
      linarith
  have hsecond : Covered share' slack
      (total + (share' k - share k) + (x - (share' k - share k))) := by
    apply hfirst.change (k := l)
    · intro j hj
      by_cases hjk : j = k
      · rw [hjk, Function.update_self]
      · rw [Function.update_of_ne hjk, hrest j hjk hj]
    · rw [Function.update_of_ne hne.symm]
      linarith
  apply hsecond.mono (fun _ => le_rfl)
  linarith

omit [DecidableEq K]

/-- A loss shrinks all shares by a common factor; what the pool loses beyond that comes out of
the slack. -/
theorem Covered.shrink (h : Covered share slack total) (hfactor : 0 ≤ factor)
    (hshare : ∀ k, share' k ≤ factor * share k) :
    Covered share' (factor * slack + (total' - factor * total)) total' := by
  have hsum : ∑ k, share' k ≤ factor * ∑ k, share k := by
    rw [Finset.mul_sum]
    exact Finset.sum_le_sum fun k _ => hshare k
  have hle := mul_le_mul_of_nonneg_left h hfactor
  unfold Covered at h ⊢
  rw [mul_add] at hle
  linarith

/-- A reward for each unit of the pool is covered by what it costs if nobody had a claim to more
than the pool. -/
theorem Covered.distribute (h : Covered reward slack funds) (hshares : Covered share spare total)
    (hspare : 0 ≤ spare) (hper : 0 ≤ perUnit)
    (hreward : ∀ k, reward' k ≤ reward k + perUnit * share k) :
    Covered reward' slack (funds + perUnit * total) := by
  have hsum : ∑ k, reward' k ≤ ∑ k, reward k + perUnit * ∑ k, share k := by
    rw [Finset.mul_sum, ← Finset.sum_add_distrib]
    exact Finset.sum_le_sum fun k _ => hreward k
  have hle := mul_le_mul_of_nonneg_left (hshares.sum_le hspare) hper
  unfold Covered at h ⊢
  linarith

end Shares
