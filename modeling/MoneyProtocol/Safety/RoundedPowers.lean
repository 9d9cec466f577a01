import MoneyProtocol.Sdk.Rates

/-!
# The accuracy of rounded powers

`decPow` is off by less than the number of its factors, and the SDK rounds the same way at every
step.
-/

namespace MoneyProtocol.MoneypMath

open Outcome DecimalPower

variable {base minutes : ℕ}

/-- Up to the cap on the exponent, the power is off by at most one unit in the last place for
every minute, and the SDK's is the same number. -/
theorem decPow_accurate (hbase : base ≤ 10 ^ 18) : ∃ power,
    decPow base minutes = .ok power ∧
      |(power : ℚ) - 10 ^ 18 * (base / 10 ^ 18) ^ min minutes 525600000| ≤
        ((min minutes 525600000 : ℕ) : ℚ) ∧
      Sdk.Decimal.pow base (min minutes 525600000) = .ok power := by
  have hword : min minutes 525600000 ≤ 0xffffffff := (min_le_right _ _).trans (by decide)
  refine ⟨_, decPow_eq hbase, ?_, Sdk.pow_eq hword⟩
  have herror := abs_power_sub_le DECIMAL_PRECISION_pos hbase (n := min minutes 525600000)
  have hunit : (DECIMAL_PRECISION : ℚ) = 10 ^ 18 := by
    unfold DECIMAL_PRECISION
    norm_num
  rw [hunit] at herror
  apply herror.trans
  exact half_le_self (Nat.cast_nonneg _)

/-- The decay of the base rate over half a day. -/
theorem decPow_accurate_decay : ∃ power, decPow 999037758833783000 720 = .ok power ∧
    |(power : ℚ) - 10 ^ 18 * ((999037758833783000 : ℕ) / 10 ^ 18) ^ min 720 525600000| ≤
      ((min 720 525600000 : ℕ) : ℚ) ∧
    Sdk.Decimal.pow 999037758833783000 (min 720 525600000) = .ok power ∧
    49 * 10 ^ 16 < power := by
  obtain ⟨power, hpower, herror, hpow⟩ :=
    @decPow_accurate 999037758833783000 720 (by decide)
  have hlarge : Outcome.succeeds (fun power => decide (49 * 10 ^ 16 < power))
      (decPow 999037758833783000 720) = true := by
    decide +kernel
  rw [hpower] at hlarge
  exact ⟨power, hpower, herror, hpow, of_decide_eq_true hlarge⟩

end MoneyProtocol.MoneypMath
