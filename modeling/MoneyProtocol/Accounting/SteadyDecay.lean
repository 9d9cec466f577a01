import MoneyProtocol.Accounting.Decay
import MoneyProtocol.Library.PowerEnclosures

/-!
# A steady decay

The rounded decay factors are not powers of `MINUTE_DECAY_FACTOR`: already the factor of two
minutes is rounded up by nearly half a unit, and the longer ones take its powers. They stay close
to the powers of a slightly slower decay, whatever the number of minutes.
-/

namespace MoneyProtocol.VaultManager

open DecimalPower

variable {m n : ℕ}

/-- The factor of a minute that the rounded decay factors follow. -/
def steadyDecay : ℚ := 9990377588337830002028 / 10 ^ 22

/-- The factor in units of `1e-30`. -/
def steadyEnclosure : Enclosure :=
  ⟨999037758833783000202800000000, 999037758833783000202800000000⟩

theorem steadyEnclosure_holds : steadyEnclosure.Holds (10 ^ 30) steadyDecay := by
  unfold steadyEnclosure steadyDecay Enclosure.Holds
  norm_num

theorem steadyDecay_nonneg : 0 ≤ steadyDecay :=
  steadyEnclosure_holds.nonneg (by positivity)

theorem steadyDecay_le_one : steadyDecay ≤ 1 := by
  unfold steadyDecay
  norm_num

theorem allNear_steady : allNear DECIMAL_PRECISION (10 ^ 30) 2 3 16 MINUTE_DECAY_FACTOR
    steadyEnclosure DECIMAL_PRECISION ⟨10 ^ 30, 10 ^ 30⟩ = true := by
  decide +kernel

theorem decayFactor_near_of_lt (hn : n < 65536) :
    2 * (decayFactor n : ℚ) ≤ 2 * DECIMAL_PRECISION * steadyDecay ^ n + (2 : ℕ) ∧
      2 * DECIMAL_PRECISION * steadyDecay ^ n ≤ 2 * (decayFactor n : ℚ) + (3 : ℕ) :=
  power_near (by positivity) allNear_steady steadyEnclosure_holds hn

/-- Half of the minutes after which no rate is left. -/
theorem steady_half : DECIMAL_PRECISION * steadyDecay ^ 32768 ≤ 20000 := by
  have hnear := (decayFactor_near_of_lt (n := 32768) (by omega)).2
  have hsquare : decayFactor (2 ^ 15) = 19943 :=
    (power_two_pow DECIMAL_PRECISION_pos).trans (by decide +kernel)
  rw [show 32768 = 2 ^ 15 from rfl, hsquare] at hnear
  push_cast at hnear
  linarith

/-- From the first factor that vanishes on, nothing is left of the steady decay either. -/
theorem steady_vanishes (hn : 65536 ≤ n) : 2 * (DECIMAL_PRECISION * steadyDecay ^ n) ≤ 3 := by
  have hunit : (DECIMAL_PRECISION : ℚ) = 10 ^ 18 := by
    unfold DECIMAL_PRECISION
    norm_num
  have hhalf := steady_half
  have hpow : steadyDecay ^ n ≤ steadyDecay ^ 32768 * steadyDecay ^ 32768 := by
    rw [← pow_add]
    exact pow_le_pow_of_le_one steadyDecay_nonneg steadyDecay_le_one hn
  have hnonneg : 0 ≤ steadyDecay ^ 32768 := pow_nonneg steadyDecay_nonneg _
  rw [hunit] at hhalf ⊢
  nlinarith only [hhalf, hpow, hnonneg]

/-- A decay factor is at most a unit above the steady decay. -/
theorem decayFactor_le_steady :
    (decayFactor n : ℚ) ≤ DECIMAL_PRECISION * steadyDecay ^ n + 1 := by
  by_cases hn : n < 65536
  · have hnear := (decayFactor_near_of_lt hn).1
    push_cast at hnear
    linarith
  · rw [decayFactor_eq_zero (by omega), Nat.cast_zero]
    have hpow : (0 : ℚ) ≤ DECIMAL_PRECISION * steadyDecay ^ n :=
      mul_nonneg (Nat.cast_nonneg _) (pow_nonneg steadyDecay_nonneg n)
    linarith

/-- A decay factor is at most a unit and a half below the steady decay. -/
theorem steady_le_decayFactor :
    2 * (DECIMAL_PRECISION * steadyDecay ^ n) ≤ 2 * (decayFactor n : ℚ) + 3 := by
  by_cases hn : n < 65536
  · have hnear := (decayFactor_near_of_lt hn).2
    push_cast at hnear
    linarith
  · have hvanishes := steady_vanishes (n := n) (by omega)
    have hfactor : (0 : ℚ) ≤ decayFactor n := Nat.cast_nonneg _
    linarith

end MoneyProtocol.VaultManager
