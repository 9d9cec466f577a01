import MoneyProtocol.Contracts.VaultManager
import MoneyProtocol.Library.DecimalPower

/-!
# The decay of the base rate

`decPow` never fails for a base of at most one, and is a rounded power. The powers of the decay
factor decrease, and vanish long before the cap on the exponent.
-/

namespace MoneyProtocol

open Outcome DecimalPower

variable {x y base minutes fuel n m : ℕ} {s s' : State} {block : Block}

theorem DECIMAL_PRECISION_pos : 0 < DECIMAL_PRECISION := by
  decide

namespace MoneypMath

theorem decMul_eq (hx : x ≤ DECIMAL_PRECISION) (hy : y ≤ DECIMAL_PRECISION) :
    decMul x y = .ok (mul DECIMAL_PRECISION x y) := by
  have hprod : x * y ≤ DECIMAL_PRECISION * DECIMAL_PRECISION := Nat.mul_le_mul hx hy
  have hfits : DECIMAL_PRECISION * DECIMAL_PRECISION + DECIMAL_PRECISION / 2 < 2 ^ 256 := by
    decide +kernel
  simp only [decMul, bind_ok, SafeMath.mul_ok, SafeMath.add_ok, SafeMath.div_ok]
  exact ⟨_, ⟨by omega, rfl⟩, _, ⟨by omega, rfl⟩, DECIMAL_PRECISION_pos, rfl⟩

theorem decPowLoop_eq (hx : x ≤ DECIMAL_PRECISION) (hy : y ≤ DECIMAL_PRECISION) (hn : 0 < n)
    (hfuel : n ≤ fuel) : decPowLoop fuel x y n = .ok (loop DECIMAL_PRECISION x y n) := by
  induction fuel generalizing x y n with
  | zero => omega
  | succ fuel ih =>
    have hxx : mul DECIMAL_PRECISION x x ≤ DECIMAL_PRECISION :=
      (mul_le_left DECIMAL_PRECISION_pos hx).trans hx
    have hxy : mul DECIMAL_PRECISION x y ≤ DECIMAL_PRECISION :=
      (mul_le_left DECIMAL_PRECISION_pos hy).trans hx
    rw [decPowLoop]
    split_ifs with hmore heven
    · rw [decMul_eq hx hx, loop, if_neg (by omega), if_neg (by omega)]
      exact ih hxx hy (by omega) (by omega)
    · rw [decMul_eq hx hy, loop, if_neg (by omega), if_pos (by omega),
        show n / 2 = (n - 1) / 2 by omega]
      simp only [bind, Except.bind]
      rw [decMul_eq hx hx]
      exact ih hxx hxy (by omega) (by omega)
    · rw [decMul_eq hx hy, loop, if_pos (by omega)]

/-- The exponent is capped at a thousand years. -/
theorem decPow_eq (hbase : base ≤ DECIMAL_PRECISION) :
    decPow base minutes = .ok (power DECIMAL_PRECISION base (min minutes 525600000)) := by
  have hcap : (if minutes > 525600000 then 525600000 else minutes) = min minutes 525600000 := by
    split_ifs <;> omega
  simp only [decPow, hcap, power]
  split_ifs with hzero
  · rfl
  · exact decPowLoop_eq hbase le_rfl (by omega) le_rfl

end MoneypMath

namespace VaultManager

/-- The share of the base rate that is left after whole minutes. -/
def decayFactor (minutes : ℕ) : ℕ := power DECIMAL_PRECISION MINUTE_DECAY_FACTOR minutes

theorem MINUTE_DECAY_FACTOR_le : MINUTE_DECAY_FACTOR ≤ DECIMAL_PRECISION := by
  decide

theorem squares_vanish : squares DECIMAL_PRECISION MINUTE_DECAY_FACTOR 16 = 0 := by
  decide +kernel

theorem inStep : InStep DECIMAL_PRECISION MINUTE_DECAY_FACTOR :=
  .of_le MINUTE_DECAY_FACTOR_le

theorem decayFactor_antitone : Antitone decayFactor :=
  inStep.power_antitone DECIMAL_PRECISION_pos MINUTE_DECAY_FACTOR_le

theorem decayFactor_le : decayFactor n ≤ DECIMAL_PRECISION :=
  inStep.power_le DECIMAL_PRECISION_pos MINUTE_DECAY_FACTOR_le

theorem decayFactor_eq_zero (hn : 65536 ≤ n) : decayFactor n = 0 :=
  inStep.power_eq_zero DECIMAL_PRECISION_pos MINUTE_DECAY_FACTOR_le squares_vanish hn

/-- The cap on the exponent changes nothing. -/
theorem decPow_decay : MoneypMath.decPow MINUTE_DECAY_FACTOR n = .ok (decayFactor n) := by
  rw [MoneypMath.decPow_eq MINUTE_DECAY_FACTOR_le]
  by_cases hn : n ≤ 525600000
  · rw [min_eq_left hn, decayFactor]
  · have hcap : power DECIMAL_PRECISION MINUTE_DECAY_FACTOR 525600000 = 0 :=
      decayFactor_eq_zero (by omega)
    rw [min_eq_right (by omega), hcap, decayFactor_eq_zero (by omega)]

/-- The base rate after the minutes since the last fee operation. -/
theorem calcDecayedBaseRate_ok {rate : ℕ} (h : calcDecayedBaseRate block s = .ok rate) :
    s.vaultManager.lastFeeOperationTime ≤ block.timestamp ∧
      rate = s.vaultManager.baseRate *
        decayFactor ((block.timestamp - s.vaultManager.lastFeeOperationTime) / 60) /
          DECIMAL_PRECISION := by
  simp only [calcDecayedBaseRate, minutesPassedSinceLastFeeOp, decPow_decay, bind_ok,
    SafeMath.sub_ok, SafeMath.div_ok, SafeMath.mul_ok, Except.ok.injEq] at h
  obtain ⟨_, ⟨_, ⟨hle, rfl⟩, -, rfl⟩, _, rfl, _, ⟨-, rfl⟩, -, rfl⟩ := h
  exact ⟨hle, rfl⟩

theorem calcDecayedBaseRate_eq (hcap : s.vaultManager.baseRate ≤ DECIMAL_PRECISION)
    (hle : s.vaultManager.lastFeeOperationTime ≤ block.timestamp) :
    calcDecayedBaseRate block s = .ok (s.vaultManager.baseRate *
      decayFactor ((block.timestamp - s.vaultManager.lastFeeOperationTime) / 60) /
        DECIMAL_PRECISION) := by
  have hfits : DECIMAL_PRECISION * DECIMAL_PRECISION < 2 ^ 256 := by
    decide +kernel
  simp only [calcDecayedBaseRate, minutesPassedSinceLastFeeOp, decPow_decay, bind_ok,
    SafeMath.sub_ok, SafeMath.div_ok, SafeMath.mul_ok, Except.ok.injEq]
  refine ⟨_, ⟨_, ⟨hle, rfl⟩, by decide, rfl⟩, _, rfl, _, ⟨?_, rfl⟩, DECIMAL_PRECISION_pos, rfl⟩
  exact (Nat.mul_le_mul hcap decayFactor_le).trans_lt hfits

/-- The time of the last fee operation moves only where a minute has passed. -/
def nextFeeOpTime (last now : ℕ) : ℕ := if SECONDS_IN_ONE_MINUTE ≤ now - last then now else last

theorem updateLastFeeOpTime_eq (h : updateLastFeeOpTime block s = .ok s') :
    s' = { s with vaultManager := { s.vaultManager with
      lastFeeOperationTime :=
        nextFeeOpTime s.vaultManager.lastFeeOperationTime block.timestamp } } := by
  simp only [updateLastFeeOpTime, bind_ok, SafeMath.sub_ok, ite_pure_ok, pure_ok] at h
  obtain ⟨_, ⟨-, rfl⟩, h⟩ := h
  unfold nextFeeOpTime
  rcases h with ⟨hminute, rfl⟩ | ⟨hminute, rfl⟩
  · rw [if_pos hminute]
  · rw [if_neg hminute]

end VaultManager

/-- The base rate and the time since which it decays. -/
def State.lastFee (s : State) : ℕ × ℕ :=
  (s.vaultManager.baseRate, s.vaultManager.lastFeeOperationTime)

/-- Where the base rate or its time moved, a fee operation of the block moved them. -/
def FeeMoved (block : Block) (s s' : State) : Prop :=
  s'.lastFee = s.lastFee ∨ s'.vaultManager.baseRate ≤ DECIMAL_PRECISION ∧
    (s'.vaultManager.lastFeeOperationTime = s.vaultManager.lastFeeOperationTime ∨
      s'.vaultManager.lastFeeOperationTime = block.timestamp)

theorem FeeMoved.within {t t' : State} (hbefore : t.lastFee = s.lastFee)
    (h : FeeMoved block t t') (hafter : s'.lastFee = t'.lastFee) : FeeMoved block s s' := by
  simp only [State.lastFee, Prod.mk.injEq] at hbefore hafter
  simp only [FeeMoved, State.lastFee, Prod.mk.injEq, hafter, ← hbefore]
  exact h.imp Prod.mk.inj id

namespace VaultManager

theorem feeMoved_of_nextFeeOpTime (hle : s'.vaultManager.baseRate ≤ DECIMAL_PRECISION)
    (htime : s'.vaultManager.lastFeeOperationTime =
      nextFeeOpTime s.vaultManager.lastFeeOperationTime block.timestamp) :
    FeeMoved block s s' := by
  refine .inr ⟨hle, ?_⟩
  rw [htime, nextFeeOpTime]
  split_ifs
  · exact .inr rfl
  · exact .inl rfl

/-- No decay and no redemption leaves a base rate above one. -/
theorem decayBaseRateFromBorrowing_moved (h : decayBaseRateFromBorrowing block s = .ok s') :
    FeeMoved block s s' := by
  simp only [decayBaseRateFromBorrowing, bind_ok, assert_ok] at h
  obtain ⟨rate, -, _, hle, hupdate⟩ := h
  obtain rfl := updateLastFeeOpTime_eq hupdate
  exact feeMoved_of_nextFeeOpTime hle rfl

theorem updateBaseRateFromRedemption_moved {RBTCDrawn price totalBPDSupply : ℕ}
    (h : updateBaseRateFromRedemption block RBTCDrawn price totalBPDSupply s = .ok s') :
    FeeMoved block s s' := by
  simp only [updateBaseRateFromRedemption, bind_ok] at h
  obtain ⟨_, -, _, -, _, -, _, -, _, -, _, -, hupdate⟩ := h
  obtain rfl := updateLastFeeOpTime_eq hupdate
  exact feeMoved_of_nextFeeOpTime (min_le_right _ _) rfl

end VaultManager

end MoneyProtocol
