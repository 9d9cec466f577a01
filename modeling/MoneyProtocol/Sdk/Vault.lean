import MoneyProtocol.Sdk.Decimal

/-!
# Vaults in the SDK

A vault is a pair of collateral and debt. Changes are found by comparing two vaults and applied
to predict what the contract will record.
-/

namespace MoneyProtocol.Sdk

open Outcome Decimal

def BPD_LIQUIDATION_RESERVE : Decimal := 200 * 10 ^ 18
def BPD_MINIMUM_NET_DEBT : Decimal := 1800 * 10 ^ 18
def BPD_MINIMUM_DEBT : Decimal := add BPD_LIQUIDATION_RESERVE BPD_MINIMUM_NET_DEBT
def MINIMUM_COLLATERAL_RATIO : Decimal := 11 * 10 ^ 17
def CRITICAL_COLLATERAL_RATIO : Decimal := 15 * 10 ^ 17

structure Vault where
  collateral : Decimal
  debt : Decimal
  deriving DecidableEq

structure VaultCreationParams where
  depositCollateral : Decimal
  borrowBPD : Decimal
  deriving DecidableEq

structure VaultClosureParams where
  withdrawCollateral : Decimal
  repayBPD : Option Decimal
  deriving DecidableEq

structure VaultAdjustmentParams where
  depositCollateral : Option Decimal := none
  withdrawCollateral : Option Decimal := none
  borrowBPD : Option Decimal := none
  repayBPD : Option Decimal := none
  deriving DecidableEq

inductive SetToZero where
  | collateral
  | debt
  deriving DecidableEq

inductive VaultChange where
  | invalidCreation (invalidVault : Vault)
  | creation (params : VaultCreationParams)
  | closure (params : VaultClosureParams)
  | adjustment (params : VaultAdjustmentParams) (setToZero : Option SetToZero)
  deriving DecidableEq

def nonZero (v : Option Decimal) : Option Decimal := v.filter fun v => decide (v ≠ 0)

/-- Zero amounts are dropped; one of the amounts must be left, and not both of a kind. -/
def normalizeVaultAdjustment (params : VaultAdjustmentParams) : Outcome VaultAdjustmentParams := do
  let params := VaultAdjustmentParams.mk (nonZero params.depositCollateral)
    (nonZero params.withdrawCollateral) (nonZero params.borrowBPD) (nonZero params.repayBPD)
  require (params.depositCollateral = none ∨ params.withdrawCollateral = none)
    "VaultAdjustmentParams: 'depositCollateral' and 'withdrawCollateral' can't be present at the same time"
  require (params.borrowBPD = none ∨ params.repayBPD = none)
    "VaultAdjustmentParams: 'borrowBPD' and 'repayBPD' can't be present at the same time"
  require (params ≠ {}) "VaultAdjustmentParams: must include at least one non-zero parameter"
  return params

def applyFee (borrowingRate debtIncrease : Decimal) : Decimal :=
  mul debtIncrease (add ONE borrowingRate)

def unapplyFee (borrowingRate debtIncrease : Decimal) : Decimal :=
  divCeil debtIncrease (add ONE borrowingRate)

namespace Vault

def empty : Vault := ⟨ZERO, ZERO⟩

def isEmpty (v : Vault) : Bool := decide (v.collateral = 0) && decide (v.debt = 0)

def netDebt (v : Vault) : Outcome Decimal := do
  require (¬v.debt < BPD_LIQUIDATION_RESERVE) "netDebt should not be used when debt < 200"
  sub v.debt BPD_LIQUIDATION_RESERVE

def collateralRatio (v : Vault) (price : Decimal) : Decimal := mulDiv v.collateral price v.debt

def collateralRatioIsBelowMinimum (v : Vault) (price : Decimal) : Bool :=
  decide (v.collateralRatio price < MINIMUM_COLLATERAL_RATIO)

def collateralRatioIsBelowCritical (v : Vault) (price : Decimal) : Bool :=
  decide (v.collateralRatio price < CRITICAL_COLLATERAL_RATIO)

def isOpenableInRecoveryMode (v : Vault) (price : Decimal) : Bool :=
  decide (v.collateralRatio price ≥ CRITICAL_COLLATERAL_RATIO)

def add (v that : Vault) : Vault :=
  ⟨Decimal.add v.collateral that.collateral, Decimal.add v.debt that.debt⟩

def addCollateral (v : Vault) (collateral : Decimal) : Vault :=
  ⟨Decimal.add v.collateral collateral, v.debt⟩

def addDebt (v : Vault) (debt : Decimal) : Vault := ⟨v.collateral, Decimal.add v.debt debt⟩

/-- A difference that is not below zero. -/
def clampedSub (a b : Decimal) : Decimal := if a > b then a - b else ZERO

def subtract (v that : Vault) : Vault :=
  ⟨clampedSub v.collateral that.collateral, clampedSub v.debt that.debt⟩

def subtractCollateral (v : Vault) (collateral : Decimal) : Vault :=
  ⟨clampedSub v.collateral collateral, v.debt⟩

def subtractDebt (v : Vault) (debt : Decimal) : Vault := ⟨v.collateral, clampedSub v.debt debt⟩

def multiply (v : Vault) (multiplier : Decimal) : Vault :=
  ⟨mul v.collateral multiplier, mul v.debt multiplier⟩

def setCollateral (v : Vault) (collateral : Decimal) : Vault := ⟨collateral, v.debt⟩

def setDebt (v : Vault) (debt : Decimal) : Vault := ⟨v.collateral, debt⟩

def debtChange (v that : Vault) (borrowingRate : Decimal) : VaultAdjustmentParams :=
  if that.debt > v.debt then { borrowBPD := some (unapplyFee borrowingRate (that.debt - v.debt)) }
  else { repayBPD := some (v.debt - that.debt) }

def collateralChange (v that : Vault) : VaultAdjustmentParams :=
  if that.collateral > v.collateral then
    { depositCollateral := some (that.collateral - v.collateral) }
  else { withdrawCollateral := some (v.collateral - that.collateral) }

def whatChanged (v that : Vault) (borrowingRate : Decimal) : Outcome (Option VaultChange) :=
  if v.collateral = that.collateral ∧ v.debt = that.debt then return none
  else if v.isEmpty then
    if that.debt < BPD_LIQUIDATION_RESERVE then return some (.invalidCreation that)
    else do
      let netDebt ← that.netDebt
      return some (.creation ⟨that.collateral, unapplyFee borrowingRate netDebt⟩)
  else if that.isEmpty then do
    let netDebt ← v.netDebt
    return some (.closure ⟨v.collateral, if netDebt ≠ 0 then some netDebt else none⟩)
  else if v.collateral = that.collateral then
    return some (.adjustment (v.debtChange that borrowingRate)
      (if that.debt = 0 then some .debt else none))
  else if v.debt = that.debt then
    return some (.adjustment (v.collateralChange that)
      (if that.collateral = 0 then some .collateral else none))
  else
    let debtChange := v.debtChange that borrowingRate
    let collateralChange := v.collateralChange that
    return some (.adjustment
      ⟨collateralChange.depositCollateral, collateralChange.withdrawCollateral,
        debtChange.borrowBPD, debtChange.repayBPD⟩
      (if that.debt = 0 then some .debt
        else if that.collateral = 0 then some .collateral else none))

/-- The case of an adjustment. -/
def applyAdjustment (v : Vault) (params : VaultAdjustmentParams) (setToZero : Option SetToZero)
    (borrowingRate : Decimal) : Vault :=
  let collateralDecrease := params.withdrawCollateral.getD ZERO
  let collateralIncrease := params.depositCollateral.getD ZERO
  let debtDecrease := params.repayBPD.getD ZERO
  let debtIncrease := match params.borrowBPD with
    | some borrowBPD => applyFee borrowingRate borrowBPD
    | none => ZERO
  match setToZero with
  | some .collateral =>
    ((v.setCollateral ZERO).addDebt debtIncrease).subtractDebt debtDecrease
  | some .debt =>
    ((v.setDebt ZERO).addCollateral collateralIncrease).subtractCollateral collateralDecrease
  | none => (v.add ⟨collateralIncrease, debtIncrease⟩).subtract ⟨collateralDecrease, debtDecrease⟩

def apply (v : Vault) (change : Option VaultChange) (borrowingRate : Decimal) : Outcome Vault :=
  match change with
  | none => return v
  | some (.invalidCreation invalidVault) => do
    require (v.isEmpty = true) "Can't create onto existing Vault"
    return invalidVault
  | some (.creation params) => do
    require (v.isEmpty = true) "Can't create onto existing Vault"
    return ⟨params.depositCollateral,
      Decimal.add BPD_LIQUIDATION_RESERVE (applyFee borrowingRate params.borrowBPD)⟩
  | some (.closure _) => do
    require (v.isEmpty = false) "Can't close empty Vault"
    return empty
  | some (.adjustment params setToZero) =>
    return v.applyAdjustment params setToZero borrowingRate

def create (params : VaultCreationParams) (borrowingRate : Decimal) : Outcome Vault :=
  empty.apply (some (.creation params)) borrowingRate

def adjust (v : Vault) (params : VaultAdjustmentParams) (borrowingRate : Decimal) :
    Outcome Vault := do
  let params ← normalizeVaultAdjustment params
  v.apply (some (.adjustment params none)) borrowingRate

end Vault

theorem clampedSub_eq (x y : ℕ) : Vault.clampedSub x y = x - y := by
  unfold Vault.clampedSub
  split_ifs with hle
  · rfl
  · exact (Nat.sub_eq_zero_of_le (Nat.not_lt.mp hle)).symm

inductive UserVaultStatus where
  | nonExistent
  | isOpen
  | closedByOwner
  | closedByLiquidation
  | closedByRedemption
  deriving DecidableEq

structure VaultWithPendingRedistribution extends Vault where
  status : UserVaultStatus
  stake : Decimal := ZERO
  snapshotOfTotalRedistributed : Vault := Vault.empty

def VaultWithPendingRedistribution.applyRedistribution (v : VaultWithPendingRedistribution)
    (totalRedistributed : Vault) : Vault :=
  v.toVault.add ((totalRedistributed.subtract v.snapshotOfTotalRedistributed).multiply v.stake)

end MoneyProtocol.Sdk
