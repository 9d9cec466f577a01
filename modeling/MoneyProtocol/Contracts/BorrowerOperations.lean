import MoneyProtocol.Contracts.VaultManager

/-!
# Borrower operations

Opening, adjusting and closing a vault. `msgSender` and `msgValue` are the caller and the
RBTC sent along; by the time these functions run the value is already in the balance of
BorrowerOperations.
-/

namespace MoneyProtocol.BorrowerOperations

open Outcome MoneypMath MoneypBase

def requireSingularCollChange (msgValue collWithdrawal : ℕ) : Outcome Unit :=
  require (msgValue = 0 ∨ collWithdrawal = 0) "BorrowerOperations: Cannot withdraw and add coll"

def requireNonZeroAdjustment (msgValue collWithdrawal BPDChange : ℕ) : Outcome Unit :=
  require (msgValue ≠ 0 ∨ collWithdrawal ≠ 0 ∨ BPDChange ≠ 0)
    "BorrowerOps: There must be either a collateral change or a debt change"

def requireVaultisActive (borrower : Address) (s : State) : Outcome Unit :=
  require ((s.vault borrower).status = .active) "BorrowerOps: Vault does not exist or is closed"

def requireVaultisNotActive (borrower : Address) (s : State) : Outcome Unit :=
  require ((s.vault borrower).status ≠ .active) "BorrowerOps: Vault is active"

def requireNonZeroDebtChange (BPDChange : ℕ) : Outcome Unit :=
  require (BPDChange > 0) "BorrowerOps: Debt increase requires non-zero debtChange"

def requireNotInRecoveryMode (price : ℕ) (s : State) : Outcome Unit := do
  let isRecoveryMode ← checkRecoveryMode price s
  require (isRecoveryMode = false) "BorrowerOps: Operation not permitted during Recovery Mode"

def requireNoCollWithdrawal (collWithdrawal : ℕ) : Outcome Unit :=
  require (collWithdrawal = 0)
    "BorrowerOps: Collateral withdrawal not permitted Recovery Mode"

def requireICRisAboveMCR (newICR : ℕ) : Outcome Unit :=
  require (newICR ≥ MCR)
    "BorrowerOps: An operation that would result in ICR < MCR is not permitted"

def requireICRisAboveCCR (newICR : ℕ) : Outcome Unit :=
  require (newICR ≥ CCR) "BorrowerOps: Operation must leave vault with ICR >= CCR"

def requireNewICRisAboveOldICR (newICR oldICR : ℕ) : Outcome Unit :=
  require (newICR ≥ oldICR) "BorrowerOps: Cannot decrease your Vault's ICR in Recovery Mode"

def requireNewTCRisAboveCCR (newTCR : ℕ) : Outcome Unit :=
  require (newTCR ≥ CCR)
    "BorrowerOps: An operation that would result in TCR < CCR is not permitted"

def requireAtLeastMinNetDebt (netDebt : ℕ) : Outcome Unit :=
  require (netDebt ≥ MIN_NET_DEBT) "BorrowerOps: Vault's net debt must be greater than minimum"

def requireValidBPDRepayment (currentDebt debtRepayment : ℕ) : Outcome Unit := do
  let maximum ← SafeMath.sub currentDebt BPD_GAS_COMPENSATION
  require (debtRepayment ≤ maximum)
    "BorrowerOps: Amount repaid must not be larger than the Vault's debt"

def requireSufficientBPDBalance (borrower : Address) (debtRepayment : ℕ) (s : State) :
    Outcome Unit :=
  require (s.bpdToken.balances borrower ≥ debtRepayment)
    "BorrowerOps: Caller doesnt have enough BPD to make repayment"

def requireValidMaxFeePercentage (maxFeePercentage : ℕ) (isRecoveryMode : Bool) :
    Outcome Unit :=
  if isRecoveryMode then
    require (maxFeePercentage ≤ DECIMAL_PRECISION)
      "Max fee percentage must less than or equal to 100%"
  else
    require (maxFeePercentage ≥ BORROWING_FEE_FLOOR ∧ maxFeePercentage ≤ DECIMAL_PRECISION)
      "Max fee percentage must be between 0.5% and 100%"

def getNewAmount (amount change : ℕ) (isIncrease : Bool) : Outcome ℕ :=
  if isIncrease then SafeMath.add amount change else SafeMath.sub amount change

def getNewVaultAmounts (coll debt collChange : ℕ) (isCollIncrease : Bool) (debtChange : ℕ)
    (isDebtIncrease : Bool) : Outcome (ℕ × ℕ) := do
  let newColl ← getNewAmount coll collChange isCollIncrease
  let newDebt ← getNewAmount debt debtChange isDebtIncrease
  return (newColl, newDebt)

def getNewNominalICRFromVaultChange (coll debt collChange : ℕ) (isCollIncrease : Bool)
    (debtChange : ℕ) (isDebtIncrease : Bool) : Outcome ℕ := do
  let (newColl, newDebt) ←
    getNewVaultAmounts coll debt collChange isCollIncrease debtChange isDebtIncrease
  computeNominalCR newColl newDebt

def getNewICRFromVaultChange (coll debt collChange : ℕ) (isCollIncrease : Bool)
    (debtChange : ℕ) (isDebtIncrease : Bool) (price : ℕ) : Outcome ℕ := do
  let (newColl, newDebt) ←
    getNewVaultAmounts coll debt collChange isCollIncrease debtChange isDebtIncrease
  computeCR newColl newDebt price

def getNewTCRFromVaultChange (collChange : ℕ) (isCollIncrease : Bool) (debtChange : ℕ)
    (isDebtIncrease : Bool) (price : ℕ) (s : State) : Outcome ℕ := do
  let totalColl ← getEntireSystemColl s
  let totalDebt ← getEntireSystemDebt s
  let totalColl ← getNewAmount totalColl collChange isCollIncrease
  let totalDebt ← getNewAmount totalDebt debtChange isDebtIncrease
  computeCR totalColl totalDebt price

def activePoolAddColl (d : Deployment) (amount : ℕ) (s : State) : Outcome State :=
  callWithValue d d.borrowerOperations d.activePool amount s

def withdrawBPD (account : Address) (BPDAmount netDebtIncrease : ℕ) (s : State) :
    Outcome State := do
  let s ← ActivePool.increaseBPDDebt netDebtIncrease s
  BPDToken.mint account BPDAmount s

def repayBPD (account : Address) (BPD : ℕ) (s : State) : Outcome State := do
  let s ← ActivePool.decreaseBPDDebt BPD s
  BPDToken.burn account BPD s

def triggerBorrowingFee (d : Deployment) (block : Block) (BPDAmount maxFeePercentage : ℕ)
    (s : State) : Outcome (ℕ × State) := do
  let s ← VaultManager.decayBaseRateFromBorrowing block s
  let BPDFee ← VaultManager.getBorrowingFee BPDAmount s
  requireUserAcceptsFee BPDFee BPDAmount maxFeePercentage
  let s ← MPStaking.increaseF_BPD BPDFee s
  let s ← BPDToken.mint d.mpStaking BPDFee s
  return (BPDFee, s)

def insertSorted (d : Deployment) (id : Address) (NICR : ℕ) (prevId nextId : Address)
    (s : State) : Outcome State := do
  let data ← SortedVaults.insert (fun a => VaultManager.getNominalICR a s) d.maxSize id NICR
    prevId nextId s.sortedVaults
  return VaultManager.setSortedVaults data s

def reInsertSorted (d : Deployment) (id : Address) (newNICR : ℕ) (prevId nextId : Address)
    (s : State) : Outcome State := do
  let data ← SortedVaults.reInsert (fun a => VaultManager.getNominalICR a s) d.maxSize id
    newNICR prevId nextId s.sortedVaults
  return VaultManager.setSortedVaults data s

/-- The net debt of a loan of `BPDAmount`: with the borrowing fee, unless it is waived. -/
def chargeBorrowingFee (d : Deployment) (block : Block) (waived : Bool)
    (BPDAmount maxFeePercentage : ℕ) (s : State) : Outcome (ℕ × State) :=
  if waived then return (BPDAmount, s)
  else do
    let (BPDFee, s) ← triggerBorrowingFee d block BPDAmount maxFeePercentage s
    let netDebt ← SafeMath.add BPDAmount BPDFee
    return (netDebt, s)

def requireValidOpening (isRecoveryMode : Bool) (ICR msgValue compositeDebt price : ℕ)
    (s : State) : Outcome Unit :=
  if isRecoveryMode then requireICRisAboveCCR ICR
  else do
    requireICRisAboveMCR ICR
    let newTCR ← getNewTCRFromVaultChange msgValue true compositeDebt true price s
    requireNewTCRisAboveCCR newTCR

/-- The writes to the vault record of a new vault. -/
def initVault (borrower : Address) (coll debt : ℕ) (s : State) : Outcome State := do
  let s := VaultManager.setVaultStatus borrower .active s
  let s ← VaultManager.increaseVaultColl borrower coll s
  let s ← VaultManager.increaseVaultDebt borrower debt s
  let s := VaultManager.updateVaultRewardSnapshots borrower s
  VaultManager.updateStakeAndTotalStakes borrower s

def openVault (d : Deployment) (block : Block) (msgSender : Address) (msgValue : ℕ)
    (maxFeePercentage BPDAmount : ℕ) (upperHint lowerHint : Address) (s : State) :
    Outcome State := do
  let (price, s) ← PriceFeed.fetchPrice block s
  let isRecoveryMode ← checkRecoveryMode price s
  requireValidMaxFeePercentage maxFeePercentage isRecoveryMode
  requireVaultisNotActive msgSender s
  let (netDebt, s) ← chargeBorrowingFee d block isRecoveryMode BPDAmount maxFeePercentage s
  requireAtLeastMinNetDebt netDebt
  let compositeDebt ← getCompositeDebt netDebt
  assert (compositeDebt > 0)
  let ICR ← computeCR msgValue compositeDebt price
  let NICR ← computeNominalCR msgValue compositeDebt
  requireValidOpening isRecoveryMode ICR msgValue compositeDebt price s
  let s ← initVault msgSender msgValue compositeDebt s
  let s ← insertSorted d msgSender NICR upperHint lowerHint s
  let s ← VaultManager.addVaultOwnerToArray msgSender s
  let s ← activePoolAddColl d msgValue s
  let s ← withdrawBPD msgSender BPDAmount netDebt s
  withdrawBPD d.gasPool BPD_GAS_COMPENSATION BPD_GAS_COMPENSATION s

/-- What a caller asks of `adjustVault`. -/
structure Adjustment where
  collWithdrawal : ℕ
  BPDChange : ℕ
  isDebtIncrease : Bool
  upperHint : Address
  lowerHint : Address
  maxFeePercentage : ℕ

def getCollChange (collReceived requestedCollWithdrawal : ℕ) : ℕ × Bool :=
  if collReceived ≠ 0 then (collReceived, true) else (requestedCollWithdrawal, false)

def updateVaultFromAdjustment (borrower : Address) (collChange : ℕ) (isCollIncrease : Bool)
    (debtChange : ℕ) (isDebtIncrease : Bool) (s : State) : Outcome State := do
  let s ← (if isCollIncrease then VaultManager.increaseVaultColl borrower collChange s
    else VaultManager.decreaseVaultColl borrower collChange s)
  if isDebtIncrease then VaultManager.increaseVaultDebt borrower debtChange s
  else VaultManager.decreaseVaultDebt borrower debtChange s

def moveTokensAndRBTCfromAdjustment (d : Deployment) (borrower : Address) (collChange : ℕ)
    (isCollIncrease : Bool) (BPDChange : ℕ) (isDebtIncrease : Bool) (netDebtChange : ℕ)
    (s : State) : Outcome State := do
  let s ← (if isDebtIncrease then withdrawBPD borrower BPDChange netDebtChange s
    else repayBPD borrower BPDChange s)
  if isCollIncrease then activePoolAddColl d collChange s
  else ActivePool.sendRBTC d borrower collChange s

def requireValidAdjustmentInCurrentMode (isRecoveryMode : Bool) (collWithdrawal : ℕ)
    (isDebtIncrease : Bool) (oldICR newICR collChange : ℕ) (isCollIncrease : Bool)
    (netDebtChange price : ℕ) (s : State) : Outcome Unit :=
  if isRecoveryMode then do
    requireNoCollWithdrawal collWithdrawal
    if isDebtIncrease then do
      requireICRisAboveCCR newICR
      requireNewICRisAboveOldICR newICR oldICR
    else return ()
  else do
    requireICRisAboveMCR newICR
    let newTCR ← getNewTCRFromVaultChange collChange isCollIncrease netDebtChange isDebtIncrease
      price s
    requireNewTCRisAboveCCR newTCR

/-- The checks made first when the adjustment draws BPD. -/
def requireValidDebtIncrease (a : Adjustment) (isRecoveryMode : Bool) : Outcome Unit :=
  if a.isDebtIncrease then do
    requireValidMaxFeePercentage a.maxFeePercentage isRecoveryMode
    requireNonZeroDebtChange a.BPDChange
  else return ()

/-- The extra checks of a debt repayment. -/
def requireValidRepayment (a : Adjustment) (borrower : Address) (debt netDebtChange : ℕ)
    (s : State) : Outcome Unit :=
  if a.isDebtIncrease = false ∧ a.BPDChange > 0 then do
    let netDebt ← getNetDebt debt
    let remaining ← SafeMath.sub netDebt netDebtChange
    requireAtLeastMinNetDebt remaining
    requireValidBPDRepayment debt netDebtChange
    requireSufficientBPDBalance borrower netDebtChange s
  else return ()

def adjustVaultInternal (d : Deployment) (block : Block) (msgSender : Address) (msgValue : ℕ)
    (borrower : Address) (a : Adjustment) (s : State) : Outcome State := do
  let (price, s) ← PriceFeed.fetchPrice block s
  let isRecoveryMode ← checkRecoveryMode price s
  requireValidDebtIncrease a isRecoveryMode
  requireSingularCollChange msgValue a.collWithdrawal
  requireNonZeroAdjustment msgValue a.collWithdrawal a.BPDChange
  requireVaultisActive borrower s
  assert (msgSender = borrower ∨
    msgSender = d.stabilityPool ∧ msgValue > 0 ∧ a.BPDChange = 0)
  let s ← VaultManager.applyPendingRewards d borrower s
  let (collChange, isCollIncrease) := getCollChange msgValue a.collWithdrawal
  let (netDebtChange, s) ←
    chargeBorrowingFee d block (isRecoveryMode || !a.isDebtIncrease) a.BPDChange
      a.maxFeePercentage s
  let debt := (s.vault borrower).debt
  let coll := (s.vault borrower).coll
  let oldICR ← computeCR coll debt price
  let newICR ← getNewICRFromVaultChange coll debt collChange isCollIncrease netDebtChange
    a.isDebtIncrease price
  assert (a.collWithdrawal ≤ coll)
  requireValidAdjustmentInCurrentMode isRecoveryMode a.collWithdrawal a.isDebtIncrease oldICR
    newICR collChange isCollIncrease netDebtChange price s
  requireValidRepayment a borrower debt netDebtChange s
  let s ← updateVaultFromAdjustment borrower collChange isCollIncrease netDebtChange
    a.isDebtIncrease s
  let s ← VaultManager.updateStakeAndTotalStakes borrower s
  let newNICR ← getNewNominalICRFromVaultChange coll debt collChange isCollIncrease
    netDebtChange a.isDebtIncrease
  let s ← reInsertSorted d borrower newNICR a.upperHint a.lowerHint s
  moveTokensAndRBTCfromAdjustment d msgSender collChange isCollIncrease a.BPDChange
    a.isDebtIncrease netDebtChange s

def addColl (d : Deployment) (block : Block) (msgSender : Address) (msgValue : ℕ)
    (upperHint lowerHint : Address) (s : State) : Outcome State :=
  adjustVaultInternal d block msgSender msgValue msgSender ⟨0, 0, false, upperHint, lowerHint, 0⟩ s

/-- Called by the Stability Pool only. -/
def moveRBTCGainToVault (d : Deployment) (block : Block) (msgValue : ℕ) (borrower : Address)
    (upperHint lowerHint : Address) (s : State) : Outcome State :=
  adjustVaultInternal d block d.stabilityPool msgValue borrower
    ⟨0, 0, false, upperHint, lowerHint, 0⟩ s

def withdrawColl (d : Deployment) (block : Block) (msgSender : Address) (collWithdrawal : ℕ)
    (upperHint lowerHint : Address) (s : State) : Outcome State :=
  adjustVaultInternal d block msgSender 0 msgSender
    ⟨collWithdrawal, 0, false, upperHint, lowerHint, 0⟩ s

/-- The external `withdrawBPD`. -/
def withdrawBPDFromVault (d : Deployment) (block : Block) (msgSender : Address)
    (maxFeePercentage BPDAmount : ℕ) (upperHint lowerHint : Address) (s : State) :
    Outcome State :=
  adjustVaultInternal d block msgSender 0 msgSender
    ⟨0, BPDAmount, true, upperHint, lowerHint, maxFeePercentage⟩ s

/-- The external `repayBPD`. -/
def repayBPDToVault (d : Deployment) (block : Block) (msgSender : Address) (BPDAmount : ℕ)
    (upperHint lowerHint : Address) (s : State) : Outcome State :=
  adjustVaultInternal d block msgSender 0 msgSender
    ⟨0, BPDAmount, false, upperHint, lowerHint, 0⟩ s

def adjustVault (d : Deployment) (block : Block) (msgSender : Address) (msgValue : ℕ)
    (a : Adjustment) (s : State) : Outcome State :=
  adjustVaultInternal d block msgSender msgValue msgSender a s

def closeVault (d : Deployment) (block : Block) (msgSender : Address) (s : State) :
    Outcome State := do
  requireVaultisActive msgSender s
  let (price, s) ← PriceFeed.fetchPrice block s
  requireNotInRecoveryMode price s
  let s ← VaultManager.applyPendingRewards d msgSender s
  let coll := (s.vault msgSender).coll
  let debt := (s.vault msgSender).debt
  let netDebt ← SafeMath.sub debt BPD_GAS_COMPENSATION
  requireSufficientBPDBalance msgSender netDebt s
  let newTCR ← getNewTCRFromVaultChange coll false debt false price s
  requireNewTCRisAboveCCR newTCR
  let s ← VaultManager.removeStake msgSender s
  let s ← VaultManager.closeVault msgSender .closedByOwner s
  let s ← repayBPD msgSender netDebt s
  let s ← repayBPD d.gasPool BPD_GAS_COMPENSATION s
  ActivePool.sendRBTC d msgSender coll s

def claimCollateral (d : Deployment) (msgSender : Address) (s : State) : Outcome State :=
  CollSurplusPool.claimColl d msgSender s

end MoneyProtocol.BorrowerOperations
