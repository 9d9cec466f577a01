import MoneyProtocol.Sdk.Vault

/-!
# The validation of vault changes

`validateVaultChange` of the frontend: the change from the original vault to the edited one, or
the reason why it may not be made. Descriptions are lists of texts and amounts, before they are
rendered.
-/

namespace MoneyProtocol.Sdk.Frontend

open Outcome Decimal

/-- A piece of a description. -/
inductive Piece where
  | text (t : String)
  | amount (BPD : Decimal)
  | percent (ratio : Decimal)
  deriving DecidableEq

abbrev ErrorDescription := List Piece

structure VaultChangeValidationContext where
  price : Decimal
  total : Vault
  bpdBalance : Decimal
  numberOfVaults : ℕ

/-- The result: no change, an error, or the change that may be made. -/
inductive Validation where
  | unchanged
  | invalid (description : ErrorDescription)
  | valid (change : VaultChange)
  deriving DecidableEq

def isInvalidCreation : VaultChange → Bool
  | .invalidCreation _ => true
  | _ => false

def isCreation : VaultChange → Bool
  | .creation _ => true
  | _ => false

def isClosure : VaultChange → Bool
  | .closure _ => true
  | _ => false

def isAdjustment : VaultChange → Bool
  | .adjustment _ _ => true
  | _ => false

/-- An adjustment that withdraws collateral or borrows. -/
def takesOut : VaultChange → Bool
  | .adjustment params _ => params.withdrawCollateral.isSome || params.borrowBPD.isSome
  | _ => false

def repaidBPD : VaultChange → Option Decimal
  | .closure params => params.repayBPD
  | .adjustment params _ => params.repayBPD
  | _ => none

def debtTooLow : ErrorDescription :=
  [.text "Debt must be be at least ", .amount BPD_MINIMUM_DEBT, .text "."]

def ratioTooLow : ErrorDescription :=
  [.text "Collateral ratio must be at least ", .percent MINIMUM_COLLATERAL_RATIO, .text "."]

def totalRatioTooLow (change : VaultChange) : ErrorDescription :=
  if isCreation change then
    [.text "You're not allowed to open a Vault that would cause the total collateral ratio to fall below ",
      .percent CRITICAL_COLLATERAL_RATIO, .text ". Please increase your collateral ratio."]
  else
    [.text "The adjustment you're trying to make would cause the total collateral ratio to fall below ",
      .percent CRITICAL_COLLATERAL_RATIO, .text ". Please increase your collateral ratio."]

def balanceTooLow (edited : Vault) (missing : Decimal) : ErrorDescription :=
  if edited.isEmpty then
    [.text "You need ", .amount missing, .text " more to close your Vault."]
  else
    [.text "The amount you're trying to repay exceeds your balance by ", .amount missing, .text "."]

def openingRatioTooLow : ErrorDescription :=
  [.text "You're not allowed to open a Vault with less than ", .percent CRITICAL_COLLATERAL_RATIO,
    .text " collateral ratio during recovery mode. Please increase your collateral ratio."]

def closureInRecoveryMode : ErrorDescription :=
  [.text "You're not allowed to close your Vault during recovery mode."]

def closureOfLastVault : ErrorDescription :=
  [.text "You're not allowed to close your Vault when there are no other Vaults in the system."]

def ratioDecreased : ErrorDescription :=
  [.text "You're not allowed to decrease your collateral ratio during recovery mode."]

/-- The checks of a change, in their order; `afterFee` is the vault that it ends up in. -/
def checkChange (original edited afterFee : Vault) (change : VaultChange)
    (context : VaultChangeValidationContext) : Validation :=
  let ⟨price, total, bpdBalance, numberOfVaults⟩ := context
  if isInvalidCreation change ∨ (¬isClosure change ∧ afterFee.debt < BPD_MINIMUM_DEBT) then
    .invalid debtTooLow
  else if (isCreation change ∨ takesOut change) ∧ afterFee.collateralRatioIsBelowMinimum price then
    .invalid ratioTooLow
  else if (isCreation change ∨ isAdjustment change) ∧ ¬total.collateralRatioIsBelowCritical price ∧
      ((total.subtract original).add afterFee).collateralRatioIsBelowCritical price then
    .invalid (totalRatioTooLow change)
  else if (repaidBPD change).getD ZERO > bpdBalance then
    .invalid (balanceTooLow edited ((repaidBPD change).getD ZERO - bpdBalance))
  else if isCreation change ∧ total.collateralRatioIsBelowCritical price ∧
      ¬afterFee.isOpenableInRecoveryMode price then
    .invalid openingRatioTooLow
  else if isClosure change ∧ total.collateralRatioIsBelowCritical price then
    .invalid closureInRecoveryMode
  else if isClosure change ∧ numberOfVaults = 1 then
    .invalid closureOfLastVault
  else if isAdjustment change ∧ total.collateralRatioIsBelowCritical price ∧
      afterFee.collateralRatio price < original.collateralRatio price then
    .invalid ratioDecreased
  else .valid change

def validateVaultChange (original edited : Vault) (borrowingRate : Decimal)
    (context : VaultChangeValidationContext) : Outcome Validation := do
  let change ← original.whatChanged edited borrowingRate
  let afterFee ← original.apply change borrowingRate
  match change with
  | none => return .unchanged
  | some change => return checkChange original edited afterFee change context

/-- The checks that a change has passed. -/
structure Passed (original afterFee : Vault) (change : VaultChange)
    (c : VaultChangeValidationContext) : Prop where
  created : isInvalidCreation change = false
  debt : isClosure change = true ∨ BPD_MINIMUM_DEBT ≤ afterFee.debt
  ratio : isCreation change = true ∨ takesOut change = true →
    ¬afterFee.collateralRatioIsBelowMinimum c.price
  total : isCreation change = true ∨ isAdjustment change = true →
    ¬c.total.collateralRatioIsBelowCritical c.price →
      ¬((c.total.subtract original).add afterFee).collateralRatioIsBelowCritical c.price
  balance : (repaidBPD change).getD ZERO ≤ c.bpdBalance
  opening : isCreation change = true → c.total.collateralRatioIsBelowCritical c.price →
    afterFee.isOpenableInRecoveryMode c.price
  closure : isClosure change = true → ¬c.total.collateralRatioIsBelowCritical c.price
  others : isClosure change = true → c.numberOfVaults ≠ 1
  adjustment : isAdjustment change = true → c.total.collateralRatioIsBelowCritical c.price →
    original.collateralRatio c.price ≤ afterFee.collateralRatio c.price

variable {original edited afterFee : Vault} {change change' : VaultChange} {rate : Decimal}
  {c : VaultChangeValidationContext}

theorem checkChange_valid (h : checkChange original edited afterFee change c = .valid change') :
    change' = change ∧ Passed original afterFee change c := by
  simp only [checkChange] at h
  split_ifs at h with hdebt hratio htotal hbalance hopening hclosure hothers hadjustment
  rw [Validation.valid.injEq] at h
  push Not at hdebt hratio htotal hbalance hopening hclosure hothers hadjustment
  refine ⟨h.symm, ?_, ?_, hratio, htotal, hbalance, hopening, hclosure, hothers, hadjustment⟩
  · exact Bool.eq_false_iff.mpr hdebt.1
  · by_cases hclose : isClosure change = true
    · exact .inl hclose
    · exact .inr (hdebt.2 hclose)

theorem validateVaultChange_valid
    (h : validateVaultChange original edited rate c = .ok (.valid change)) :
    original.whatChanged edited rate = .ok (some change) ∧
      ∃ afterFee, original.apply (some change) rate = .ok afterFee ∧
        Passed original afterFee change c := by
  simp only [validateVaultChange, bind_ok] at h
  obtain ⟨change', hchange, afterFee, hafter, h⟩ := h
  cases change' with
  | none => exact absurd (pure_ok.mp h) (by simp)
  | some change' =>
    obtain ⟨rfl, hpassed⟩ := checkChange_valid (pure_ok.mp h)
    exact ⟨hchange, afterFee, hafter, hpassed⟩

end MoneyProtocol.Sdk.Frontend
