import Mathlib.Algebra.Order.Field.Basic
import Mathlib.Algebra.Order.Ring.Abs
import Mathlib.Data.Nat.Basic
import Mathlib.Data.Rat.Cast.Order
import Mathlib.Tactic.FieldSimp
import Mathlib.Tactic.Linarith
import Mathlib.Tactic.Positivity
import Mathlib.Tactic.Ring

/-!
# Powers of decimals

Decimals are natural numbers in units of `1 / u`. Products are rounded half up, and powers are
taken by squaring, so that every power is rounded some number of times. Where the base is at most
one, the rounded powers of two do not run ahead of the products of the smaller ones, so that the
powers still decrease. The roundings that a squaring doubles are those of half the exponent, so
that a power is off by half a unit for every factor at most.
-/

namespace DecimalPower

variable {u x x' y y' b k m n : ℕ}

/-- The product, rounded half up. -/
def mul (u x y : ℕ) : ℕ := (x * y + u / 2) / u

theorem mul_le_mul (hx : x ≤ x') (hy : y ≤ y') : mul u x y ≤ mul u x' y' := by
  apply Nat.div_le_div_right
  exact Nat.add_le_add_right (Nat.mul_le_mul hx hy) _

theorem mul_unit (hu : 0 < u) : mul u x u = x := by
  unfold mul
  rw [Nat.mul_comm, Nat.mul_add_div hu, Nat.div_eq_of_lt (Nat.div_lt_self hu (by omega)),
    Nat.add_zero]

theorem mul_le_left (hu : 0 < u) (hy : y ≤ u) : mul u x y ≤ x :=
  (mul_le_mul le_rfl hy).trans (mul_unit hu).le

/-- The squaring loop: `x` is the base of this round, `y` the product so far. -/
def loop (u x y n : ℕ) : ℕ :=
  if n ≤ 1 then mul u x y
  else loop u (mul u x x) (if n % 2 = 1 then mul u x y else y) (n / 2)
termination_by n

def power (u b n : ℕ) : ℕ := if n = 0 then u else loop u b u n

theorem loop_one : loop u x y 1 = mul u x y := by
  rw [loop, if_pos le_rfl]

theorem loop_even (hn : 0 < n) : loop u x y (2 * n) = loop u (mul u x x) y n := by
  rw [loop, if_neg (by omega), if_neg (by omega), Nat.mul_div_cancel_left n two_pos]

theorem loop_odd (hn : 0 < n) :
    loop u x y (2 * n + 1) = loop u (mul u x x) (mul u x y) n := by
  rw [loop, if_neg (by omega), if_pos (by omega)]
  congr 1
  omega

theorem loop_mono (hy : y ≤ y') : loop u x y n ≤ loop u x y' n := by
  fun_induction loop u x y n generalizing y' with
  | case1 x y n hone =>
    rw [loop, if_pos hone]
    exact mul_le_mul le_rfl hy
  | case2 x y n hone ih =>
    have hstep : loop u x y' n =
        loop u (mul u x x) (if n % 2 = 1 then mul u x y' else y') (n / 2) := by
      rw [loop, if_neg hone]
    rw [hstep]
    apply ih
    split_ifs
    · exact mul_le_mul le_rfl hy
    · exact hy

/-- The power of `2 ^ k`, squared `k` times. -/
def squares (u b : ℕ) : ℕ → ℕ
  | 0 => b
  | k + 1 => mul u (squares u b k) (squares u b k)

/-- The power of `2 ^ k - 1`, the product of the squares below. -/
def ones (u b : ℕ) : ℕ → ℕ
  | 0 => u
  | k + 1 => mul u (squares u b k) (ones u b k)

theorem squares_succ : squares u b (k + 1) = mul u (squares u b k) (squares u b k) := rfl

theorem ones_succ : ones u b (k + 1) = mul u (squares u b k) (ones u b k) := rfl

/-- The rounded powers of two do not run ahead of the smaller powers. -/
def InStep (u b : ℕ) : Prop := ∀ k, squares u b k ≤ ones u b k

/-- A square multiplies by the last factor, a product of ones by what is left of it. -/
theorem InStep.of_le (hb : b ≤ u) : InStep u b := by
  intro k
  induction k with
  | zero => exact hb
  | succ k ih =>
    rw [squares_succ, ones_succ]
    exact mul_le_mul le_rfl ih

/-- The loop at level `k`, where the exponent below is all ones: one more carries. -/
theorem InStep.loop_succ_le (h : InStep u b) (hu : 0 < u) (hn : 0 < n) :
    loop u (squares u b k) u (n + 1) ≤ loop u (squares u b k) (ones u b k) n := by
  induction n using Nat.strong_induction_on generalizing k with
  | h n ih =>
    rcases Nat.even_or_odd' n with ⟨m, rfl | rfl⟩
    · -- the last digit changes from zero to one
      rw [loop_odd (by omega), loop_even (by omega), mul_unit hu]
      exact loop_mono (h k)
    · by_cases hm : m = 0
      · subst hm
        rw [show 2 * 0 + 1 + 1 = 2 * 1 from rfl, loop_even Nat.one_pos, loop_one, loop_one,
          mul_unit hu]
        exact h (k + 1)
      · rw [show 2 * m + 1 + 1 = 2 * (m + 1) by ring, loop_even (by omega),
          loop_odd (by omega), ← squares_succ, ← ones_succ]
        exact ih m (by omega) (by omega)

theorem InStep.power_succ_le (h : InStep u b) (hu : 0 < u) (hb : b ≤ u) :
    power u b (n + 1) ≤ power u b n := by
  unfold power
  rw [if_neg (by omega)]
  split_ifs with hn
  · subst hn
    rw [loop_one]
    exact mul_le_left hu le_rfl |>.trans hb
  · exact h.loop_succ_le hu (k := 0) (by omega)

/-- A longer decay leaves less. -/
theorem InStep.power_antitone (h : InStep u b) (hu : 0 < u) (hb : b ≤ u) :
    Antitone (power u b) :=
  antitone_nat_of_succ_le fun _ => h.power_succ_le hu hb

theorem loop_two_pow (hu : 0 < u) : loop u x u (2 ^ k) = squares u x k := by
  suffices ∀ j, loop u (squares u x j) u (2 ^ k) = squares u x (j + k) by
    simpa [squares] using this 0
  induction k with
  | zero =>
    intro j
    rw [pow_zero, loop_one, mul_unit hu, Nat.add_zero]
  | succ k ih =>
    intro j
    have hk := ih (j + 1)
    rw [pow_succ', loop_even (Nat.two_pow_pos k), Nat.add_comm k, ← Nat.add_assoc, ← hk,
      squares_succ]

theorem power_two_pow (hu : 0 < u) : power u b (2 ^ k) = squares u b k := by
  rw [power, if_neg (Nat.two_pow_pos k).ne', loop_two_pow hu]

/-- From the first square that vanishes on, all powers do. -/
theorem InStep.power_eq_zero (h : InStep u b) (hu : 0 < u) (hb : b ≤ u)
    (hzero : squares u b k = 0) (hn : 2 ^ k ≤ n) : power u b n = 0 := by
  have hle : power u b n ≤ power u b (2 ^ k) := h.power_antitone hu hb hn
  rw [power_two_pow hu, hzero] at hle
  exact Nat.le_zero.mp hle

theorem InStep.power_le (h : InStep u b) (hu : 0 < u) (hb : b ≤ u) : power u b n ≤ u :=
  h.power_antitone hu hb (Nat.zero_le n)

section Errors

variable {X Y ex ey : ℚ}

/-- A product is off by half a unit. -/
theorem abs_mul_sub_le (hu : 0 < u) : |(mul u x y : ℚ) - x * y / u| ≤ 1 / 2 := by
  have hunit : (0 : ℚ) < u := Nat.cast_pos.mpr hu
  have hhalf : u ≤ 2 * (u / 2) + 1 := by omega
  have hhalf' : 2 * (u / 2) ≤ u := Nat.mul_div_le u 2
  have hbelow : mul u x y * u ≤ x * y + u / 2 := Nat.div_mul_le_self _ _
  have habove : x * y + u / 2 + 1 ≤ (mul u x y + 1) * u := by
    rw [Nat.mul_comm (mul u x y + 1)]
    exact Nat.lt_mul_div_succ (x * y + u / 2) hu
  have hbelow' : (mul u x y : ℚ) * u * 2 ≤ x * y * 2 + u := by
    exact_mod_cast (by omega : mul u x y * u * 2 ≤ x * y * 2 + u)
  have habove' : (x * y * 2 + u : ℚ) ≤ (mul u x y + 1) * u * 2 := by
    exact_mod_cast (by omega : x * y * 2 + u ≤ (mul u x y + 1) * u * 2)
  rw [abs_le]
  constructor
  · rw [neg_le_sub_iff_le_add, div_le_iff₀ hunit]
    linarith
  · rw [sub_le_iff_le_add, ← sub_le_iff_le_add', le_div_iff₀ hunit]
    linarith

/-- The errors of the factors add up, and a product adds half a unit. -/
theorem abs_mul_sub_le_add (hu : 0 < u) (hx : x ≤ u) (hY : |Y| ≤ u) (hex : |(x : ℚ) - X| ≤ ex)
    (hey : |(y : ℚ) - Y| ≤ ey) : |(mul u x y : ℚ) - X * Y / u| ≤ ex + ey + 1 / 2 := by
  have hunit : (0 : ℚ) < u := Nat.cast_pos.mpr hu
  have hround : |(mul u x y : ℚ) - x * y / u| ≤ 1 / 2 := abs_mul_sub_le hu
  have hleft : |(x : ℚ) / u * (y - Y)| ≤ ey := by
    have hfactor : |(x : ℚ) / u| ≤ 1 := by
      rw [abs_of_nonneg (by positivity), div_le_one hunit]
      exact_mod_cast hx
    rw [abs_mul]
    exact (mul_le_of_le_one_left (abs_nonneg _) hfactor).trans hey
  have hright : |Y / u * (x - X)| ≤ ex := by
    have hfactor : |Y / u| ≤ 1 := by
      rw [abs_div, abs_of_pos hunit, div_le_one hunit]
      exact hY
    rw [abs_mul]
    exact (mul_le_of_le_one_left (abs_nonneg _) hfactor).trans hex
  have hsplit : (mul u x y : ℚ) - X * Y / u =
      (mul u x y - x * y / u) + (x / u * (y - Y) + Y / u * (x - X)) := by
    field_simp
    ring
  rw [hsplit]
  calc _ ≤ |(mul u x y : ℚ) - x * y / u| + |x / u * (y - Y) + Y / u * (x - X)| := abs_add_le _ _
    _ ≤ 1 / 2 + (|x / u * (y - Y)| + |Y / u * (x - X)|) := add_le_add hround (abs_add_le _ _)
    _ ≤ ex + ey + 1 / 2 := by linarith

theorem abs_mul_div_le (hu : 0 < u) (hX : |X| ≤ u) (hY : |Y| ≤ u) : |X * Y / u| ≤ u := by
  have hunit : (0 : ℚ) < u := Nat.cast_pos.mpr hu
  rw [abs_div, abs_mul, abs_of_pos hunit, div_le_iff₀ hunit]
  exact mul_le_mul_of_nonneg hX hY (abs_nonneg _) hunit.le

/-- A squaring doubles the error of the base, but halves the exponent. -/
theorem abs_loop_sub_le (hu : 0 < u) (hx : x ≤ u) (hX : |X| ≤ u) (hY : |Y| ≤ u) (hn : 0 < n)
    (hex : |(x : ℚ) - X| ≤ ex) (hey : |(y : ℚ) - Y| ≤ ey) :
    |(loop u x y n : ℚ) - Y * (X / u) ^ n| ≤ ey + n * ex + n / 2 := by
  have hunit : (u : ℚ) ≠ 0 := Nat.cast_ne_zero.mpr hu.ne'
  induction n using Nat.strong_induction_on generalizing x y X Y ex ey with
  | h n ih =>
    have hsquare := abs_mul_sub_le_add hu hx hX hex hex
    have hsquare_le : mul u x x ≤ u := (mul_le_left hu hx).trans hx
    rcases Nat.even_or_odd' n with ⟨m, rfl | rfl⟩
    · have heven := ih m (by omega) hsquare_le (abs_mul_div_le hu hX hX) hY (by omega) hsquare hey
      have hpower : Y * (X / u) ^ (2 * m) = Y * (X * X / u / u) ^ m := by
        rw [pow_mul]
        congr 2
        ring
      rw [loop_even (by omega), hpower]
      calc _ ≤ ey + m * (ex + ex + 1 / 2) + m / 2 := heven
        _ = _ := by push_cast; ring
    · have hproduct := abs_mul_sub_le_add hu hx hY hex hey
      by_cases hm : m = 0
      · subst hm
        have hpower : Y * (X / u) ^ (2 * 0 + 1) = X * Y / u := by ring
        rw [show 2 * 0 + 1 = 1 from rfl, loop_one] at *
        rw [hpower]
        calc _ ≤ ex + ey + 1 / 2 := hproduct
          _ = _ := by push_cast; ring
      · have hodd := ih m (by omega) hsquare_le (abs_mul_div_le hu hX hX)
          (abs_mul_div_le hu hX hY) (by omega) hsquare hproduct
        have hpower : Y * (X / u) ^ (2 * m + 1) = X * Y / u * (X * X / u / u) ^ m := by
          have hbase : X * X / u / u = (X / u) ^ 2 := by ring
          rw [hbase, ← pow_mul]
          ring
        rw [loop_odd (by omega), hpower]
        calc _ ≤ ex + ey + 1 / 2 + m * (ex + ex + 1 / 2) + m / 2 := hodd
          _ = _ := by push_cast; ring

/-- A power is off by half a unit for every factor at most. -/
theorem abs_power_sub_le (hu : 0 < u) (hb : b ≤ u) :
    |(power u b n : ℚ) - u * (b / u) ^ n| ≤ n / 2 := by
  unfold power
  split_ifs with hn
  · rw [hn, pow_zero, mul_one, sub_self, abs_zero, Nat.cast_zero, zero_div]
  · have hbase : |(b : ℚ)| ≤ u := by
      rw [Nat.abs_cast]
      exact_mod_cast hb
    have hone : |(u : ℚ)| ≤ u := (Nat.abs_cast u).le
    have hexact (v : ℕ) : |(v : ℚ) - v| ≤ 0 := by
      rw [sub_self, abs_zero]
    calc _ ≤ (0 : ℚ) + n * 0 + n / 2 :=
          abs_loop_sub_le hu hb hbase hone (by omega) (hexact b) (hexact u)
      _ = n / 2 := by ring

end Errors

end DecimalPower
