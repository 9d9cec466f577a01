import Mathlib.Algebra.BigOperators.Group.Finset.Basic
import Mathlib.Algebra.BigOperators.Group.Finset.Piecewise
import Mathlib.Algebra.Order.BigOperators.Group.Finset
import Mathlib.Tactic.Linarith

/-!
# Sums over a table of records

A table assigns a record to every key. When one record is replaced, a sum over the table
changes by the difference of the two records; the statements are written without
subtraction so that linear arithmetic can use them directly.
-/

namespace PointSum

variable {K R : Type} [Fintype K] [DecidableEq K]

/-- The total of `f` over all records of the table. Irreducible, as the table may be huge. -/
@[irreducible] def total (f : R → ℕ) (table : K → R) : ℕ := ∑ k, f (table k)

theorem sum_update (g : K → R → ℕ) (table : K → R) (k : K) (r : R) :
    (∑ i, g i (Function.update table k r i)) + g k (table k) = (∑ i, g i (table i)) + g k r := by
  rw [← Finset.add_sum_erase _ _ (Finset.mem_univ k),
    ← Finset.add_sum_erase _ (fun i => g i (table i)) (Finset.mem_univ k)]
  have hrest : ∑ i ∈ Finset.univ.erase k, g i (Function.update table k r i) =
      ∑ i ∈ Finset.univ.erase k, g i (table i) := by
    apply Finset.sum_congr rfl
    intro i hi
    rw [Function.update_of_ne (Finset.ne_of_mem_erase hi)]
  rw [hrest, Function.update_self]
  omega

theorem total_update (f : R → ℕ) (table : K → R) (k : K) (r : R) :
    total f (Function.update table k r) + f (table k) = total f table + f r := by
  unfold total
  exact sum_update (fun _ => f) table k r

omit [DecidableEq K] in
theorem le_total (f : R → ℕ) (table : K → R) (k : K) : f (table k) ≤ total f table := by
  unfold total
  exact Finset.single_le_sum (f := fun i => f (table i)) (fun _ _ => Nat.zero_le _)
    (Finset.mem_univ k)

omit [DecidableEq K] in
@[simp] theorem total_const {f : R → ℕ} {r : R} (h : f r = 0) :
    total f (fun _ : K => r) = 0 := by
  unfold total
  exact Finset.sum_eq_zero fun _ _ => h

/-- A replacement that keeps the weight of the record keeps the total. -/
theorem total_update_same (f : R → ℕ) (table : K → R) (k : K) (r : R) (h : f r = f (table k)) :
    total f (Function.update table k r) = total f table := by
  have := total_update f table k r
  omega

/-- The table once `v` moved from `a` to `b`. -/
def move (a b : K) (v : ℕ) (table : K → ℕ) : K → ℕ :=
  let table := Function.update table a (table a - v)
  Function.update table b (table b + v)

variable {a b c : K} {v : ℕ} {table : K → ℕ}

theorem total_move (h : v ≤ table a) : total id (move a b v table) = total id table := by
  have hout := total_update id table a (table a - v)
  have hin := total_update id (Function.update table a (table a - v)) b
    (Function.update table a (table a - v) b + v)
  simp only [id_eq] at hout hin
  simp only [move]
  omega

omit [Fintype K]

theorem move_apply (h : v ≤ table a) :
    (move a b v table c : ℤ) =
      table c + (if c = b then (v : ℤ) else 0) - if c = a then v else 0 := by
  by_cases hb : c = b <;> by_cases ha : c = a
  · subst hb ha
    simp [move, h]
  · subst hb
    simp [move, ha]
  · subst ha
    simp [move, hb, h]
  · simp [move, ha, hb]

theorem move_target (h : a ≠ b) : move a b v table b = table b + v := by
  simp [move, Function.update_of_ne h.symm]

theorem move_source (h : a ≠ b) : move a b v table a = table a - v := by
  simp [move, Function.update_of_ne h]

theorem move_other (ha : c ≠ a) (hb : c ≠ b) : move a b v table c = table c := by
  simp [move, Function.update_of_ne ha, Function.update_of_ne hb]

/-- Only the source of a move can lose. -/
theorem le_move (h : c ≠ a) : table c ≤ move a b v table c := by
  by_cases hb : c = b
  · subst hb
    rw [move_target h.symm]
    exact Nat.le_add_right _ _
  · rw [move_other h hb]

/-- What a move brings to a set of keys from outside. -/
theorem sum_move {S : Finset K} (ha : a ∉ S) (hb : b ∈ S) :
    ∑ k ∈ S, move a b v table k = (∑ k ∈ S, table k) + v := by
  have hat : ∀ k ∈ S, move a b v table k = table k + if k = b then v else 0 := by
    intro k hk
    have hka : k ≠ a := by
      rintro rfl
      exact ha hk
    by_cases hkb : k = b
    · subst hkb
      rw [move_target hka.symm, if_pos rfl]
    · rw [move_other hka hkb, if_neg hkb, Nat.add_zero]
  rw [Finset.sum_congr rfl hat, Finset.sum_add_distrib, Finset.sum_ite_eq' S b, if_pos hb]

end PointSum
