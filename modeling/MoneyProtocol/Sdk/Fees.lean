import MoneyProtocol.Sdk.Vault
import MoneyProtocol.Contracts.BorrowerOperations

/-!
# Fees, and what the SDK reads from the chain

`Fees` recomputes the decay of the base rate, and the rates that follow from it.
`ReadableBitcoinsMoneyp` fills it, and the vaults, from the storage of the contracts.
-/

namespace MoneyProtocol.Sdk

open Outcome Decimal

def MINIMUM_BORROWING_RATE : Decimal := 5 * 10 ^ 15
def MAXIMUM_BORROWING_RATE : Decimal := 5 * 10 ^ 16
def MINIMUM_REDEMPTION_RATE : Decimal := 5 * 10 ^ 15

structure Fees where
  baseRateWithoutDecay : Decimal
  minuteDecayFactor : Decimal
  beta : Decimal
  lastFeeOperation : Date
  timeOfLatestBlock : Date
  recoveryMode : Bool

namespace Fees

/-- The constructor. -/
def new (baseRateWithoutDecay minuteDecayFactor beta : Decimal)
    (lastFeeOperation timeOfLatestBlock : Date) (recoveryMode : Bool) : Outcome Fees := do
  assert (minuteDecayFactor < ONE)
  return ⟨baseRateWithoutDecay, minuteDecayFactor, beta, lastFeeOperation, timeOfLatestBlock,
    recoveryMode⟩

/-- Negative elapsed time counts as none; without a time value there is no integer to raise to. -/
def baseRate (f : Fees) (time : Date) : Outcome Decimal :=
  match time, f.lastFeeOperation with
  | some now, some lastFeeOperation => do
    let millisecondsSinceLastFeeOperation := now - lastFeeOperation
    let minutesSinceLastFeeOperation := millisecondsSinceLastFeeOperation / 60000
    let factor ← pow f.minuteDecayFactor minutesSinceLastFeeOperation
    return mul factor f.baseRateWithoutDecay
  | _, _ => .error .invalid

def borrowingRate (f : Fees) (time : Date) : Outcome Decimal :=
  if f.recoveryMode then return ZERO
  else do
    let baseRate ← f.baseRate time
    return min (add MINIMUM_BORROWING_RATE baseRate) MAXIMUM_BORROWING_RATE

def redemptionRate (f : Fees) (redeemedFractionOfSupply : Decimal) (time : Date) :
    Outcome Decimal := do
  let baseRate ← f.baseRate time
  let baseRate := if redeemedFractionOfSupply ≠ 0 then
    add (div redeemedFractionOfSupply f.beta) baseRate else baseRate
  return min (add MINIMUM_REDEMPTION_RATE baseRate) ONE

end Fees

def MINUTE_DECAY_FACTOR : Decimal := 999037758833783000
def BETA : Decimal := 2 * 10 ^ 18

theorem Fees.new_ok {baseRateWithoutDecay beta : Decimal}
    {lastFeeOperation timeOfLatestBlock : Date}
    {recoveryMode : Bool} {fees : Fees} :
    Fees.new baseRateWithoutDecay MINUTE_DECAY_FACTOR beta lastFeeOperation timeOfLatestBlock
      recoveryMode = .ok fees ↔ fees = ⟨baseRateWithoutDecay, MINUTE_DECAY_FACTOR, beta,
        lastFeeOperation, timeOfLatestBlock, recoveryMode⟩ := by
  have hfactor : MINUTE_DECAY_FACTOR < ONE := by
    decide
  simp only [Fees.new, bind_ok, assert_ok, pure_ok]
  constructor
  · rintro ⟨_, -, rfl⟩
    rfl
  · rintro rfl
    exact ⟨(), hfactor, rfl⟩

def getTotalRedistributed (s : State) : Vault :=
  ⟨s.vaultManager.B_RBTC, s.vaultManager.B_BPDDebt⟩

def userVaultStatusFrom : Status → UserVaultStatus
  | .nonExistent => .nonExistent
  | .active => .isOpen
  | .closedByOwner => .closedByOwner
  | .closedByLiquidation => .closedByLiquidation
  | .closedByRedemption => .closedByRedemption

def getVaultBeforeRedistribution (address : Address) (s : State) :
    VaultWithPendingRedistribution :=
  let vault := s.vault address
  let snapshot := VaultManager.rewardSnapshot address s
  if vault.status = .active then
    { collateral := vault.coll, debt := vault.debt, status := userVaultStatusFrom vault.status,
      stake := vault.stake, snapshotOfTotalRedistributed := ⟨snapshot.RBTC, snapshot.BPDDebt⟩ }
  else { collateral := ZERO, debt := ZERO, status := userVaultStatusFrom vault.status }

def getVault (address : Address) (s : State) : Vault :=
  (getVaultBeforeRedistribution address s).applyRedistribution (getTotalRedistributed s)

def getTotal (s : State) : Vault :=
  Vault.add ⟨s.activePool.RBTC, s.activePool.BPDDebt⟩ ⟨s.defaultPool.RBTC, s.defaultPool.BPDDebt⟩

/-- The fees in the block with this timestamp, in which the price feed answers with `price`. -/
def getFees (timestamp price : ℕ) (s : State) : Outcome Fees := do
  let blockTimestamp ← toNumber timestamp
  let lastFeeOperationTime ← toNumber s.vaultManager.lastFeeOperationTime
  Fees.new s.vaultManager.baseRate MINUTE_DECAY_FACTOR BETA (convertToDate lastFeeOperationTime)
    (convertToDate blockTimestamp) ((getTotal s).collateralRatioIsBelowCritical price)

/-- What `adjustVault` sends: the value, and its arguments but for the hints and the maximum fee. -/
structure PopulatedAdjustment where
  value : ℕ
  collWithdrawal : ℕ
  BPDChange : ℕ
  isDebtIncrease : Bool
  deriving DecidableEq

def populateAdjustVault (params : VaultAdjustmentParams) : Outcome PopulatedAdjustment := do
  let normalized ← normalizeVaultAdjustment params
  return ⟨normalized.depositCollateral.getD 0, normalized.withdrawCollateral.getD ZERO,
    (normalized.borrowBPD <|> normalized.repayBPD).getD ZERO, normalized.borrowBPD.isSome⟩

end MoneyProtocol.Sdk
