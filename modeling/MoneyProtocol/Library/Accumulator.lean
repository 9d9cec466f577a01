import MoneyProtocol.Library.PointSum
import Mathlib.Algebra.BigOperators.Ring.Finset
import Mathlib.Algebra.Order.BigOperators.Ring.Finset

/-!
# Reward accumulators

A reward is shared in proportion to weights by raising one index; every key remembers the
index it last collected at, and is owed its weight times the rise since then. Raising the
index by `x` owes `x` for each unit of weight, and a key that is up to date may change its
weight at will.
-/

namespace Accumulator

variable {K : Type} [Fintype K] [DecidableEq K]
  {weight weight' snapshot snapshot' : K → ℕ} {index x : ℕ} {k : K}

def owedTo (weight snapshot : K → ℕ) (index : ℕ) (k : K) : ℕ := weight k * (index - snapshot k)

/-- What all keys together are owed. -/
def owed (weight snapshot : K → ℕ) (index : ℕ) : ℕ := ∑ k, owedTo weight snapshot index k

omit [DecidableEq K] in
theorem owedTo_le_owed (k : K) : owedTo weight snapshot index k ≤ owed weight snapshot index :=
  Finset.single_le_sum (f := owedTo weight snapshot index) (fun _ _ => Nat.zero_le _)
    (Finset.mem_univ k)

omit [DecidableEq K] in
/-- Raising the index owes the rise to every unit of weight. -/
theorem owed_raise (h : ∀ k, snapshot k ≤ index) :
    owed weight snapshot (index + x) = owed weight snapshot index + x * ∑ k, weight k := by
  rw [owed, owed, Finset.mul_sum, ← Finset.sum_add_distrib]
  refine Finset.sum_congr rfl fun k _ => ?_
  have hle := h k
  rw [owedTo, owedTo, show index + x - snapshot k = (index - snapshot k) + x by omega, mul_add,
    mul_comm x]

/-- A change at one key changes what is owed to that key only. -/
theorem owed_change (hweight : ∀ j, j ≠ k → weight' j = weight j)
    (hsnapshot : ∀ j, j ≠ k → snapshot' j = snapshot j) :
    owed weight' snapshot' index + owedTo weight snapshot index k =
      owed weight snapshot index + owedTo weight' snapshot' index k := by
  rw [owed, owed, ← Finset.add_sum_erase _ (owedTo weight' snapshot' index) (Finset.mem_univ k),
    ← Finset.add_sum_erase _ (owedTo weight snapshot index) (Finset.mem_univ k)]
  have hrest : ∑ j ∈ Finset.univ.erase k, owedTo weight' snapshot' index j =
      ∑ j ∈ Finset.univ.erase k, owedTo weight snapshot index j := by
    refine Finset.sum_congr rfl fun j hj => ?_
    have hne := Finset.ne_of_mem_erase hj
    rw [owedTo, owedTo, hweight j hne, hsnapshot j hne]
  omega

omit [Fintype K] [DecidableEq K] in
theorem owedTo_current (h : index ≤ snapshot k) : owedTo weight snapshot index k = 0 := by
  rw [owedTo, Nat.sub_eq_zero_of_le h, mul_zero]

omit [Fintype K] [DecidableEq K] in
theorem owedTo_weightless (h : weight k = 0) : owedTo weight snapshot index k = 0 := by
  rw [owedTo, h, zero_mul]

omit [DecidableEq K] in
/-- Rounding every share down pays out no more than what is owed. -/
theorem sum_div_le {unit : ℕ} (hunit : 0 < unit) :
    ∑ k, owedTo weight snapshot index k / unit ≤ owed weight snapshot index / unit := by
  rw [Nat.le_div_iff_mul_le hunit, Finset.sum_mul]
  exact Finset.sum_le_sum fun k _ => Nat.div_mul_le_self _ _

end Accumulator
