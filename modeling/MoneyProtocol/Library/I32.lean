import Mathlib.Algebra.Ring.Int.Defs
import Mathlib.Algebra.Ring.Nat
import Mathlib.Tactic.Common

/-!
# Counters of 32 bits

Signed integers of 32 bits, whose sums wrap around. A counter that was raised less than `2 ^ 31`
times still tells how often.
-/

abbrev I32 := BitVec 32

namespace I32

variable {x : I32} {m n : ℕ}

theorem ofNat_succ (n : ℕ) : BitVec.ofNat 32 n + 1 = BitVec.ofNat 32 (n + 1) :=
  (BitVec.ofNat_add n 1).symm

theorem toNat_ofNat (hn : n < 2 ^ 32) : (BitVec.ofNat 32 n).toNat = n := by
  rw [BitVec.toNat_ofNat, Nat.mod_eq_of_lt hn]

theorem ofNat_toNat (x : I32) : BitVec.ofNat 32 x.toNat = x := by
  rw [BitVec.ofNat_toNat, BitVec.setWidth_eq]

theorem toInt_eq_toNat (hx : x.toNat < 2 ^ 31) : x.toInt = x.toNat :=
  BitVec.toInt_eq_toNat_of_lt (by omega)

theorem toInt_ofNat (hn : n < 2 ^ 31) : (BitVec.ofNat 32 n).toInt = n := by
  have hnat := toNat_ofNat (n := n) (by omega)
  rw [toInt_eq_toNat (by omega), hnat]

theorem toNat_add_one (hx : x.toNat + 1 < 2 ^ 31) : (x + 1).toNat = x.toNat + 1 :=
  BitVec.toNat_add_of_lt (y := 1) (show x.toNat + 1 < 2 ^ 32 by omega)

theorem toInt_add_one (hx : x.toInt + 1 < 2 ^ 31) : (x + 1).toInt = x.toInt + 1 := by
  have hlow := BitVec.le_toInt x
  rw [BitVec.toInt_add, show (1 : I32).toInt = 1 from rfl]
  exact Int.bmod_eq_of_le (by omega) (by omega)

theorem toInt_sub_one (hx : -2 ^ 31 < x.toInt) : (x - 1).toInt = x.toInt - 1 := by
  have hhigh := BitVec.toInt_lt (x := x)
  rw [BitVec.toInt_sub, show (1 : I32).toInt = 1 from rfl]
  exact Int.bmod_eq_of_le (by omega) (by omega)

/-- A counter that was raised and lowered at most `n` times. -/
def Within (n : ℕ) (x : I32) : Prop := -(n : ℤ) ≤ x.toInt ∧ x.toInt ≤ n

theorem within_zero (n : ℕ) : Within n 0 := by
  have hzero : (0 : I32).toInt = 0 := rfl
  rw [Within, hzero]
  omega

theorem Within.mono (h : Within n x) : Within (n + 1) x := by
  unfold Within at *
  omega

theorem Within.add_one (h : Within n x) (hn : n + 1 < 2 ^ 31) :
    (x + 1).toInt = x.toInt + 1 ∧ Within (n + 1) (x + 1) := by
  unfold Within at *
  have hnext := toInt_add_one (x := x) (by omega)
  rw [hnext]
  omega

theorem Within.sub_one (h : Within n x) (hn : n + 1 < 2 ^ 31) :
    (x - 1).toInt = x.toInt - 1 ∧ Within (n + 1) (x - 1) := by
  unfold Within at *
  have hnext := toInt_sub_one (x := x) (by omega)
  rw [hnext]
  omega

theorem Within.add_if {p : Prop} [Decidable p] (h : Within n x) (hn : n + 1 < 2 ^ 31) :
    (x + if p then 1 else 0).toInt = x.toInt + (if p then 1 else 0) ∧
      Within (n + 1) (x + if p then 1 else 0) := by
  split_ifs
  · exact h.add_one hn
  · have hsame : x + 0 = x := BitVec.add_zero x
    rw [hsame, Int.add_zero]
    exact ⟨rfl, h.mono⟩

end I32
