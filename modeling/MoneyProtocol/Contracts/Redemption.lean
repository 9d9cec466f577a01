import MoneyProtocol.Contracts.Liquidation

/-!
# Redemption

`redeemCollateral`: BPD is swapped for collateral of the riskiest vaults with a ratio of at
least `MCR`. A vault redeemed down to its reserve is closed; the last one may be redeemed
partially if the caller's hint is up to date.
-/

namespace MoneyProtocol.VaultManager

open Outcome MoneypMath MoneypBase

structure RedemptionHints where
  firstRedemptionHint : Address
  upperPartialRedemptionHint : Address
  lowerPartialRedemptionHint : Address
  partialRedemptionHintNICR : ℕ

structure RedemptionTotals where
  remainingBPD : ℕ
  totalBPDToRedeem : ℕ
  totalRBTCDrawn : ℕ

structure SingleRedemptionValues where
  BPDLot : ℕ
  RBTCLot : ℕ
  cancelledPartial : Bool

def redeemCloseVault (d : Deployment) (borrower : Address) (BPD RBTC : ℕ) (s : State) :
    Outcome State := do
  let s ← BPDToken.burn d.gasPool BPD s
  let s ← ActivePool.decreaseBPDDebt BPD s
  let s ← CollSurplusPool.accountSurplus borrower RBTC s
  ActivePool.sendRBTC d d.collSurplusPool RBTC s

/-- The vault has no debt left but its reserve: close it. -/
def redeemFully (d : Deployment) (borrower : Address) (newColl : ℕ) (s : State) :
    Outcome State := do
  let s ← removeStake borrower s
  let s ← closeVault borrower .closedByRedemption s
  redeemCloseVault d borrower BPD_GAS_COMPENSATION newColl s

/-- Put the partially redeemed vault in its new place and record what is left of it. -/
def redeemPartially (d : Deployment) (borrower : Address) (newColl newDebt newNICR : ℕ)
    (hints : RedemptionHints) (s : State) : Outcome State := do
  let s ← BorrowerOperations.reInsertSorted d borrower newNICR
    hints.upperPartialRedemptionHint hints.lowerPartialRedemptionHint s
  let s := setVault borrower { s.vault borrower with debt := newDebt, coll := newColl } s
  updateStakeAndTotalStakes borrower s

def redeemCollateralFromVault (d : Deployment) (borrower : Address) (maxBPDamount price : ℕ)
    (hints : RedemptionHints) (s : State) : Outcome (SingleRedemptionValues × State) := do
  let redeemable ← SafeMath.sub (s.vault borrower).debt BPD_GAS_COMPENSATION
  let BPDLot := min maxBPDamount redeemable
  let scaled ← SafeMath.mul BPDLot DECIMAL_PRECISION
  let RBTCLot ← SafeMath.div scaled price
  let newDebt ← SafeMath.sub (s.vault borrower).debt BPDLot
  let newColl ← SafeMath.sub (s.vault borrower).coll RBTCLot
  if newDebt = BPD_GAS_COMPENSATION then do
    let s ← redeemFully d borrower newColl s
    return (⟨BPDLot, RBTCLot, false⟩, s)
  else do
    let newNICR ← computeNominalCR newColl newDebt
    let newNetDebt ← getNetDebt newDebt
    if newNICR ≠ hints.partialRedemptionHintNICR ∨ newNetDebt < MIN_NET_DEBT then
      return (⟨BPDLot, RBTCLot, true⟩, s)
    else do
      let s ← redeemPartially d borrower newColl newDebt newNICR hints s
      return (⟨BPDLot, RBTCLot, false⟩, s)

def isValidFirstRedemptionHint (firstRedemptionHint : Address) (price : ℕ) (s : State) :
    Outcome Bool :=
  if firstRedemptionHint = 0 ∨ ¬SortedVaults.contains firstRedemptionHint s.sortedVaults then
    return false
  else do
    let ICR ← getCurrentICR firstRedemptionHint price s
    if ICR < MCR then return false
    else do
      let nextVault := SortedVaults.getNext firstRedemptionHint s.sortedVaults
      if nextVault = 0 then return true
      else do
        let nextICR ← getCurrentICR nextVault price s
        return decide (nextICR < MCR)

/-- The walk towards the first vault with a ratio of at least `MCR`, in at most `fuel` rounds. -/
def skipUnderCollateralized (price : ℕ) (s : State) : ℕ → Address → Outcome Address
  | 0, _ => .error .outOfGas
  | fuel + 1, currentBorrower =>
    if currentBorrower = 0 then return currentBorrower
    else do
      let ICR ← getCurrentICR currentBorrower price s
      if ICR < MCR then
        skipUnderCollateralized price s fuel (SortedVaults.getPrev currentBorrower s.sortedVaults)
      else return currentBorrower

def firstBorrower (price : ℕ) (hints : RedemptionHints) (s : State) : Outcome Address := do
  let valid ← isValidFirstRedemptionHint hints.firstRedemptionHint price s
  if valid then return hints.firstRedemptionHint
  else
    skipUnderCollateralized price s (s.sortedVaults.size + 1)
      (SortedVaults.getLast s.sortedVaults)

/-- The running totals after one more vault was redeemed. -/
def addRedemptionToTotals (t : RedemptionTotals) (v : SingleRedemptionValues) :
    Outcome RedemptionTotals := do
  let totalBPDToRedeem ← SafeMath.add t.totalBPDToRedeem v.BPDLot
  let totalRBTCDrawn ← SafeMath.add t.totalRBTCDrawn v.RBTCLot
  let remainingBPD ← SafeMath.sub t.remainingBPD v.BPDLot
  return ⟨remainingBPD, totalBPDToRedeem, totalRBTCDrawn⟩

def redeemLoop (d : Deployment) (price : ℕ) (hints : RedemptionHints) :
    ℕ → Address → RedemptionTotals → State → Outcome (RedemptionTotals × State)
  | 0, _, t, s => return (t, s)
  | maxIterations + 1, currentBorrower, t, s =>
    if currentBorrower ≠ 0 ∧ t.remainingBPD > 0 then do
      let nextUserToCheck := SortedVaults.getPrev currentBorrower s.sortedVaults
      let s ← applyPendingRewards d currentBorrower s
      let (v, s) ← redeemCollateralFromVault d currentBorrower t.remainingBPD price hints s
      if v.cancelledPartial then return (t, s)
      else do
        let t ← addRedemptionToTotals t v
        redeemLoop d price hints maxIterations nextUserToCheck t s
    else return (t, s)

def requireValidMaxFeePercentage (maxFeePercentage : ℕ) : Outcome Unit :=
  require (maxFeePercentage ≥ REDEMPTION_FEE_FLOOR ∧ maxFeePercentage ≤ DECIMAL_PRECISION)
    "Max fee percentage must be between 0.5% and 100%"

def requireAfterBootstrapPeriod (d : Deployment) (block : Block) : Outcome Unit := do
  let bootstrapEnd ← SafeMath.add d.deploymentStartTime BOOTSTRAP_PERIOD
  require (block.timestamp ≥ bootstrapEnd)
    "VaultManager: Redemptions are not allowed during bootstrap phase"

def requireTCRoverMCR (price : ℕ) (s : State) : Outcome Unit := do
  let TCR ← getTCR price s
  require (TCR ≥ MCR) "VaultManager: Cannot redeem when TCR < MCR"

def requireAmountGreaterThanZero (amount : ℕ) : Outcome Unit :=
  require (amount > 0) "VaultManager: Amount must be greater than zero"

def requireBPDBalanceCoversRedemption (redeemer : Address) (amount : ℕ) (s : State) :
    Outcome Unit :=
  require (s.bpdToken.balances redeemer ≥ amount)
    "VaultManager: Requested redemption amount must be <= user's BPD token balance"

/-- Fee, burn and payout, once the vaults have been redeemed. -/
def settleRedemption (d : Deployment) (block : Block) (msgSender : Address)
    (price maxFeePercentage totalBPDSupplyAtStart : ℕ) (t : RedemptionTotals) (s : State) :
    Outcome State := do
  require (t.totalRBTCDrawn > 0) "VaultManager: Unable to redeem any amount"
  let s ← updateBaseRateFromRedemption block t.totalRBTCDrawn price totalBPDSupplyAtStart s
  let RBTCFee ← getRedemptionFee t.totalRBTCDrawn s
  requireUserAcceptsFee RBTCFee t.totalRBTCDrawn maxFeePercentage
  let s ← ActivePool.sendRBTC d d.mpStaking RBTCFee s
  let s ← MPStaking.increaseF_RBTC RBTCFee s
  let RBTCToSendToRedeemer ← SafeMath.sub t.totalRBTCDrawn RBTCFee
  let s ← BPDToken.burn msgSender t.totalBPDToRedeem s
  let s ← ActivePool.decreaseBPDDebt t.totalBPDToRedeem s
  ActivePool.sendRBTC d msgSender RBTCToSendToRedeemer s

def redeemCollateral (d : Deployment) (block : Block) (msgSender : Address)
    (BPDamount : ℕ) (hints : RedemptionHints) (maxIterations maxFeePercentage : ℕ) (s : State) :
    Outcome State := do
  requireValidMaxFeePercentage maxFeePercentage
  requireAfterBootstrapPeriod d block
  let (price, s) ← PriceFeed.fetchPrice block s
  requireTCRoverMCR price s
  requireAmountGreaterThanZero BPDamount
  requireBPDBalanceCoversRedemption msgSender BPDamount s
  let totalBPDSupplyAtStart ← getEntireSystemDebt s
  assert (s.bpdToken.balances msgSender ≤ totalBPDSupplyAtStart)
  let currentBorrower ← firstBorrower price hints s
  let maxIterations := if maxIterations = 0 then UINT256_MAX else maxIterations
  let (t, s) ← redeemLoop d price hints maxIterations currentBorrower ⟨BPDamount, 0, 0⟩ s
  settleRedemption d block msgSender price maxFeePercentage totalBPDSupplyAtStart t s

end MoneyProtocol.VaultManager
