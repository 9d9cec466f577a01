import MoneyProtocol.Sdk.Fees
import MoneyProtocol.Accounting.Decay
import MoneyProtocol.Accounting.BorrowerOperations

/-!
# The rates of the SDK

The SDK raises the decay factor to its power with the same roundings as the contracts, and its
base rate is the decayed one of the contracts, for as long as JavaScript can tell the time.
-/

namespace MoneyProtocol.Sdk

open Outcome Decimal VaultManager

variable {s : State} {x y n fuel timestamp price : ℕ} {fees : Fees}

theorem powLoop_eq (hn : 0 < n) (hfuel : n ≤ fuel) :
    powLoop fuel x y n = DecimalPower.loop DECIMAL_PRECISION x y n := by
  induction fuel generalizing x y n with
  | zero => omega
  | succ fuel ih =>
    rw [powLoop, DecimalPower.loop]
    by_cases hmore : n > 1
    · have hone : ¬n ≤ 1 := by omega
      rw [if_pos hmore, if_neg hone]
      exact ih (by omega) (by omega)
    · have hone : n ≤ 1 := by omega
      rw [if_neg hmore, if_pos hone]
      rfl

/-- The powers are those of `decPow`, while the exponent is a 32-bit word. -/
theorem pow_eq {a : Decimal} (hn : n ≤ 0xffffffff) :
    pow a n = .ok (DecimalPower.power DECIMAL_PRECISION a n) := by
  have hassert : assert (n ≤ 0xffffffff) = .ok () := assert_ok.mpr hn
  simp only [pow, hassert, bind, Except.bind]
  split_ifs with hzero hone
  · rw [hzero]
    rfl
  · rw [hone, DecimalPower.power, if_neg one_ne_zero, DecimalPower.loop_one,
      DecimalPower.mul_unit DECIMAL_PRECISION_pos]
    rfl
  · rw [DecimalPower.power, if_neg hzero, powLoop_eq (by omega) le_rfl]
    rfl

theorem pow_decay (hn : n ≤ 0xffffffff) : pow MINUTE_DECAY_FACTOR n = .ok (decayFactor n) :=
  pow_eq hn

theorem pow_ok {v : ℕ} (h : pow MINUTE_DECAY_FACTOR n = .ok v) :
    n ≤ 0xffffffff ∧ v = decayFactor n := by
  have hn : n ≤ 0xffffffff := by
    simp only [pow, bind_ok, assert_ok] at h
    obtain ⟨_, hn, -⟩ := h
    exact hn
  rw [pow_decay hn, Except.ok.injEq] at h
  exact ⟨hn, h.symm⟩

/-- The times of the block and of the last fee operation are safe integers. -/
def SafeTimes (timestamp : ℕ) (s : State) : Prop :=
  timestamp < 2 ^ 53 ∧ s.vaultManager.lastFeeOperationTime < 2 ^ 53

/-- Both are valid dates, and the minutes between them are a 32-bit word. -/
def ValidDates (timestamp : ℕ) (s : State) : Prop :=
  timestamp * 1000 ≤ 8640000000000000 ∧
    s.vaultManager.lastFeeOperationTime * 1000 ≤ 8640000000000000 ∧
      (timestamp - s.vaultManager.lastFeeOperationTime) / 60 ≤ 0xffffffff

/-- The flag that `getFees` sets. -/
def recoveryMode (price : ℕ) (s : State) : Bool :=
  (getTotal s).collateralRatioIsBelowCritical price

theorem toNumber_ok {v : ℕ} : toNumber n = .ok v ↔ n < 2 ^ 53 ∧ n = v := by
  simp [toNumber]

theorem getFees_ok :
    getFees timestamp price s = .ok fees ↔ SafeTimes timestamp s ∧
      fees = ⟨s.vaultManager.baseRate, MINUTE_DECAY_FACTOR, BETA,
        convertToDate s.vaultManager.lastFeeOperationTime, convertToDate timestamp,
        recoveryMode price s⟩ := by
  simp only [getFees, bind_ok, toNumber_ok, Fees.new_ok, SafeTimes]
  constructor
  · rintro ⟨_, ⟨htime, rfl⟩, _, ⟨hlast, rfl⟩, rfl⟩
    exact ⟨⟨htime, hlast⟩, rfl⟩
  · rintro ⟨⟨htime, hlast⟩, rfl⟩
    exact ⟨_, ⟨htime, rfl⟩, _, ⟨hlast, rfl⟩, rfl⟩

/-- What is left of the base rate at this time. -/
def decayedBaseRate (timestamp : ℕ) (s : State) : ℕ :=
  s.vaultManager.baseRate * decayFactor ((timestamp - s.vaultManager.lastFeeOperationTime) / 60) /
    DECIMAL_PRECISION

theorem minutes_eq (last now : ℕ) : (now * 1000 - last * 1000) / 60000 = (now - last) / 60 := by
  omega

theorem baseRate_ok {rate : ℕ} (h : getFees timestamp price s = .ok fees) :
    fees.baseRate fees.timeOfLatestBlock = .ok rate ↔
      ValidDates timestamp s ∧ rate = decayedBaseRate timestamp s := by
  obtain ⟨-, rfl⟩ := getFees_ok.mp h
  simp only [Fees.baseRate, convertToDate, Date.ofMilliseconds, ValidDates]
  split_ifs with htime hlast
  · simp only [minutes_eq, bind_ok, pure_ok]
    constructor
    · rintro ⟨_, hpow, rfl⟩
      obtain ⟨hword, rfl⟩ := pow_ok hpow
      exact ⟨⟨htime, hlast, hword⟩, by rw [mul, Nat.mul_comm]; rfl⟩
    · rintro ⟨⟨-, -, hword⟩, rfl⟩
      exact ⟨_, pow_decay hword, by rw [mul, Nat.mul_comm]; rfl⟩
  · simp [hlast]
  · simp [htime]

/-- The SDK's ratio is the contracts', infinity included. -/
theorem collateralRatio_eq (v : Vault) :
    v.collateralRatio price = MoneypMath.collRatio v.collateral v.debt price := by
  unfold Vault.collateralRatio mulDiv MoneypMath.collRatio
  by_cases hdebt : v.debt = 0
  · rw [if_pos hdebt, if_neg (Nat.not_lt.mpr hdebt.le)]
    rfl
  · rw [if_neg hdebt, if_pos (Nat.pos_of_ne_zero hdebt)]

theorem recoveryMode_eq {r : Bool} (h : MoneypBase.checkRecoveryMode price s = .ok r) :
    recoveryMode price s = r := by
  simp only [MoneypBase.checkRecoveryMode, MoneypBase.getTCR, MoneypBase.getEntireSystemColl,
    MoneypBase.getEntireSystemDebt, bind_ok, pure_ok, SafeMath.add_ok] at h
  obtain ⟨_, ⟨_, ⟨-, rfl⟩, _, ⟨-, rfl⟩, hTCR⟩, rfl⟩ := h
  obtain rfl := MoneypMath.computeCR_ok hTCR
  rw [recoveryMode, Vault.collateralRatioIsBelowCritical, collateralRatio_eq]
  rfl

/-- The rate of the contracts, and of the SDK outside Recovery Mode. -/
def normalBorrowingRate (timestamp : ℕ) (s : State) : ℕ :=
  min (MINIMUM_BORROWING_RATE + decayedBaseRate timestamp s) MAXIMUM_BORROWING_RATE

theorem borrowingRate_ok {rate : ℕ} (h : getFees timestamp price s = .ok fees) :
    fees.borrowingRate fees.timeOfLatestBlock = .ok rate ↔
      if recoveryMode price s then rate = 0
      else ValidDates timestamp s ∧ rate = normalBorrowingRate timestamp s := by
  have hflag : fees.recoveryMode = recoveryMode price s := by
    obtain ⟨-, rfl⟩ := getFees_ok.mp h
    rfl
  rw [Fees.borrowingRate, hflag]
  split_ifs with hrecovery
  · rw [pure_ok]
    exact eq_comm
  · simp only [bind_ok, baseRate_ok h, pure_ok]
    constructor
    · rintro ⟨_, ⟨hdates, rfl⟩, rfl⟩
      exact ⟨hdates, rfl⟩
    · rintro ⟨hdates, rfl⟩
      exact ⟨_, ⟨hdates, rfl⟩, rfl⟩

/-- The fee is rounded down, with the loan or without it. -/
theorem applyFee_eq {rate amount : ℕ} :
    applyFee rate amount = amount + rate * amount / DECIMAL_PRECISION := by
  have hsplit : amount * (DECIMAL_PRECISION + rate) =
      DECIMAL_PRECISION * amount + rate * amount := by ring
  calc applyFee rate amount = amount * (DECIMAL_PRECISION + rate) / DECIMAL_PRECISION := rfl
    _ = (DECIMAL_PRECISION * amount + rate * amount) / DECIMAL_PRECISION := by rw [hsplit]
    _ = amount + rate * amount / DECIMAL_PRECISION := Nat.mul_add_div DECIMAL_PRECISION_pos _ _

theorem applyFee_zero {amount : ℕ} : applyFee 0 amount = amount := by
  rw [applyFee_eq, Nat.zero_mul, Nat.zero_div, Nat.add_zero]

/-- The net debt of a loan is the SDK's. -/
theorem chargeBorrowingFee_net {d : Deployment} {block : Block} {s' : State}
    {waived : Bool} {amount maxFee netDebt : ℕ}
    (h : BorrowerOperations.chargeBorrowingFee d block waived amount maxFee s =
      .ok (netDebt, s')) :
    netDebt = applyFee (if waived then 0 else normalBorrowingRate block.timestamp s) amount := by
  cases waived with
  | true =>
    rw [if_pos rfl, applyFee_zero]
    exact (BorrowerOperations.chargeBorrowingFee_waived h).1
  | false =>
    have hfloor : MoneypBase.BORROWING_FEE_FLOOR = MINIMUM_BORROWING_RATE := by
      decide
    have hmax : MAX_BORROWING_FEE = MAXIMUM_BORROWING_RATE := by
      decide
    simp only [BorrowerOperations.chargeBorrowingFee, BorrowerOperations.triggerBorrowingFee,
      decayBaseRateFromBorrowing, getBorrowingFee, getBorrowingRate, calcBorrowingRate,
      calcBorrowingFee, Bool.false_eq_true, if_false, bind_ok, pure_ok, SafeMath.add_ok,
      SafeMath.mul_ok, SafeMath.div_ok, Prod.exists, Prod.mk.injEq, hfloor, hmax] at h
    obtain ⟨_, _, ⟨s₁, ⟨rate, hrate, _, -, hupdate⟩, _,
      ⟨_, ⟨_, ⟨-, rfl⟩, rfl⟩, _, ⟨-, rfl⟩, -, rfl⟩,
      _, -, _, -, _, -, rfl, rfl⟩, _, ⟨-, rfl⟩, rfl, rfl⟩ := h
    obtain ⟨-, rfl⟩ := calcDecayedBaseRate_ok hrate
    obtain rfl := updateLastFeeOpTime_eq hupdate
    rw [if_neg Bool.false_ne_true, applyFee_eq]
    rfl

end MoneyProtocol.Sdk
