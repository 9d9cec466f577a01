import Mathlib.Data.Nat.Cast.Order.Field
import MoneyProtocol.Library.DecimalPower

/-!
# Rounded powers beside exact ones

Rounded powers follow the exact powers of a base that need not be their own. How closely they do
for all exponents below `2 ^ k` is found by multiplying bounds of the exact powers along with the
rounded ones, once for every combination of binary digits.
-/

namespace DecimalPower

variable {u v b k m n x y above below : ℕ} {X Y : ℚ}

/-- What the squaring loop makes of the product so far, where nothing is left to do for zero. -/
def finish (u x y n : ℕ) : ℕ := if n = 0 then y else loop u x y n

theorem finish_even : finish u x y (2 * m) = finish u (mul u x x) y m := by
  unfold finish
  by_cases hm : m = 0
  · rw [if_pos (by omega), if_pos hm]
  · rw [if_neg (by omega), if_neg hm, loop_even (by omega)]

theorem finish_odd : finish u x y (2 * m + 1) = finish u (mul u x x) (mul u x y) m := by
  unfold finish
  rw [if_neg (by omega)]
  by_cases hm : m = 0
  · rw [if_pos hm, hm]
    exact loop_one
  · rw [if_neg hm, loop_odd (by omega)]

/-- Bounds of a number in units of `1 / v`. -/
structure Enclosure where
  low : ℕ
  high : ℕ

variable {e e' : Enclosure}

namespace Enclosure

def Holds (e : Enclosure) (v : ℕ) (X : ℚ) : Prop := e.low ≤ v * X ∧ v * X ≤ e.high

def mul (v : ℕ) (e e' : Enclosure) : Enclosure :=
  ⟨e.low * e'.low / v, e.high * e'.high / v + 1⟩

theorem Holds.nonneg (hv : 0 < v) (h : e.Holds v X) : 0 ≤ X := by
  have hunit : (0 : ℚ) < v := Nat.cast_pos.mpr hv
  exact nonneg_of_mul_nonneg_right ((Nat.cast_nonneg _).trans h.1) hunit

theorem Holds.mul (hv : 0 < v) (hX : e.Holds v X) (hY : e'.Holds v Y) :
    (e.mul v e').Holds v (X * Y) := by
  have hunit : (0 : ℚ) < v := Nat.cast_pos.mpr hv
  have hX₀ := hX.nonneg hv
  have hY₀ := hY.nonneg hv
  have hproduct : (v : ℚ) * (X * Y) * v = v * X * (v * Y) := by ring
  constructor
  · have hfloor : ((e.low * e'.low / v : ℕ) : ℚ) ≤ (e.low * e'.low : ℕ) / v := Nat.cast_div_le
    refine hfloor.trans ((div_le_iff₀ hunit).mpr ?_)
    rw [hproduct, Nat.cast_mul]
    exact mul_le_mul_of_nonneg hX.1 hY.1 (Nat.cast_nonneg _) (by positivity)
  · have hceil : e.high * e'.high ≤ (e.high * e'.high / v + 1) * v :=
      (Nat.lt_div_mul_add hv).le.trans (by rw [Nat.add_mul, Nat.one_mul])
    have hle : (v : ℚ) * (X * Y) * v ≤ ((e.high * e'.high / v + 1 : ℕ) : ℚ) * v := by
      rw [hproduct]
      calc (v : ℚ) * X * (v * Y) ≤ e.high * e'.high :=
            mul_le_mul_of_nonneg hX.2 hY.2 (by positivity) (Nat.cast_nonneg _)
        _ ≤ _ := by exact_mod_cast hceil
    exact le_of_mul_le_mul_right hle hunit

end Enclosure

/-- At most `above` half units above the enclosed number, and `below` half units below it. -/
def near (u v above below y : ℕ) (e : Enclosure) : Bool :=
  Nat.ble (2 * y * v) (2 * u * e.low + above * v) && Nat.ble (2 * u * e.high) ((2 * y + below) * v)

/-- Whether the loop ends near the exact product for every exponent of `k` binary digits. -/
def allNear (u v above below : ℕ) : ℕ → ℕ → Enclosure → ℕ → Enclosure → Bool
  | 0, _, _, y, ey => near u v above below y ey
  | k + 1, x, ex, y, ey =>
    allNear u v above below k (mul u x x) (ex.mul v ex) y ey &&
      allNear u v above below k (mul u x x) (ex.mul v ex) (mul u x y) (ex.mul v ey)

theorem near_sound (hv : 0 < v) (h : near u v above below y e = true) (hY : e.Holds v Y) :
    2 * (y : ℚ) ≤ 2 * u * Y + above ∧ 2 * u * Y ≤ 2 * (y : ℚ) + below := by
  have hunit : (0 : ℚ) < v := Nat.cast_pos.mpr hv
  rw [near, Bool.and_eq_true, Nat.ble_eq, Nat.ble_eq] at h
  have habove : (2 * y * v : ℚ) ≤ 2 * u * e.low + above * v := by exact_mod_cast h.1
  have hbelow : (2 * u * e.high : ℚ) ≤ (2 * y + below) * v := by exact_mod_cast h.2
  have hlow : (2 * u * e.low : ℚ) ≤ 2 * u * (v * Y) :=
    mul_le_mul_of_nonneg_left hY.1 (by positivity)
  have hhigh : (2 * u * (v * Y) : ℚ) ≤ 2 * u * e.high :=
    mul_le_mul_of_nonneg_left hY.2 (by positivity)
  constructor
  · apply le_of_mul_le_mul_right _ hunit
    linarith
  · apply le_of_mul_le_mul_right _ hunit
    linarith

theorem allNear_sound {ex ey : Enclosure} (hv : 0 < v)
    (h : allNear u v above below k x ex y ey = true) (hX : ex.Holds v X) (hY : ey.Holds v Y)
    (hn : n < 2 ^ k) :
    2 * (finish u x y n : ℚ) ≤ 2 * u * (Y * X ^ n) + above ∧
      2 * u * (Y * X ^ n) ≤ 2 * (finish u x y n : ℚ) + below := by
  induction k generalizing x ex X y ey Y n with
  | zero =>
    obtain rfl : n = 0 := by simpa using hn
    rw [pow_zero, mul_one]
    exact near_sound hv h hY
  | succ k ih =>
    rw [allNear, Bool.and_eq_true] at h
    have hsquare := hX.mul hv hX
    rw [pow_succ] at hn
    rcases Nat.even_or_odd' n with ⟨m, rfl | rfl⟩
    · have hpower : X ^ (2 * m) = (X * X) ^ m := by rw [pow_mul, sq]
      rw [finish_even, hpower]
      exact ih h.1 hsquare hY (by omega)
    · have hpower : Y * X ^ (2 * m + 1) = X * Y * (X * X) ^ m := by
        rw [pow_succ, pow_mul, sq]
        ring
      rw [finish_odd, hpower]
      exact ih h.2 hsquare (hX.mul hv hY) (by omega)

/-- All powers below `2 ^ k` are as near to the exact powers as one check finds them. -/
theorem power_near (hv : 0 < v) (h : allNear u v above below k b e u ⟨v, v⟩ = true)
    (hX : e.Holds v X) (hn : n < 2 ^ k) :
    2 * (power u b n : ℚ) ≤ 2 * u * X ^ n + above ∧
      2 * u * X ^ n ≤ 2 * (power u b n : ℚ) + below := by
  have hone : Enclosure.Holds ⟨v, v⟩ v 1 := by
    rw [Enclosure.Holds, mul_one]
    exact ⟨le_rfl, le_rfl⟩
  have hnear := allNear_sound hv h hX hone hn
  rw [one_mul] at hnear
  exact hnear

end DecimalPower
