import MoneyProtocol.Contracts.Tokens
import MoneyProtocol.Contracts.SortedVaults

/-!
# Price feed, system ratios and the vault records

`PriceFeed.fetchPrice`, the state-reading part of `MoneypBase`, and the `VaultManager`
functions that keep the vault records: pending rewards, stakes, redistribution, closing,
the array of owners, and the base rate.
-/

namespace MoneyProtocol

open Outcome MoneypMath MoneypBase

namespace PriceFeed

/-- The loop of `fetchPrice` over the remaining feeds. -/
def fetchPriceFrom (block : Block) : List (Fin 2) → State → Outcome (ℕ × State)
  | [], s => .ok (s.priceFeed.lastGoodPrice, s)
  | i :: feeds, s =>
    match block.latestAnswer i with
    | none => .error (.revert "")
    | some (price, success) =>
      if success then
        .ok (price, { s with priceFeed := { s.priceFeed with lastGoodPrice := price } })
      else fetchPriceFrom block feeds s

def fetchPrice (block : Block) (s : State) : Outcome (ℕ × State) :=
  fetchPriceFrom block [0, 1] s

end PriceFeed

namespace MoneypBase

def getEntireSystemColl (s : State) : Outcome ℕ :=
  SafeMath.add s.activePool.RBTC s.defaultPool.RBTC

def getEntireSystemDebt (s : State) : Outcome ℕ :=
  SafeMath.add s.activePool.BPDDebt s.defaultPool.BPDDebt

def getTCR (price : ℕ) (s : State) : Outcome ℕ := do
  let entireSystemColl ← getEntireSystemColl s
  let entireSystemDebt ← getEntireSystemDebt s
  computeCR entireSystemColl entireSystemDebt price

def checkRecoveryMode (price : ℕ) (s : State) : Outcome Bool := do
  let TCR ← getTCR price s
  return decide (TCR < CCR)

end MoneypBase

namespace VaultManager

def rewardSnapshot (borrower : Address) (s : State) : RewardSnapshot :=
  s.vaultManager.rewardSnapshots borrower

/-- A stake's share of the rewards accumulated since the snapshot. -/
def pendingReward (accumulated snapshot : ℕ) (vault : Vault) : Outcome ℕ := do
  let rewardPerUnitStaked ← SafeMath.sub accumulated snapshot
  if rewardPerUnitStaked = 0 ∨ vault.status ≠ .active then return 0
  else do
    let scaled ← SafeMath.mul vault.stake rewardPerUnitStaked
    SafeMath.div scaled DECIMAL_PRECISION

def getPendingRBTCReward (borrower : Address) (s : State) : Outcome ℕ :=
  pendingReward s.vaultManager.B_RBTC (rewardSnapshot borrower s).RBTC (s.vault borrower)

def getPendingBPDDebtReward (borrower : Address) (s : State) : Outcome ℕ :=
  pendingReward s.vaultManager.B_BPDDebt (rewardSnapshot borrower s).BPDDebt (s.vault borrower)

def hasPendingRewards (borrower : Address) (s : State) : Bool :=
  if (s.vault borrower).status ≠ .active then false
  else decide ((rewardSnapshot borrower s).RBTC < s.vaultManager.B_RBTC)

def getCurrentVaultAmounts (borrower : Address) (s : State) : Outcome (ℕ × ℕ) := do
  let pendingRBTCReward ← getPendingRBTCReward borrower s
  let pendingBPDDebtReward ← getPendingBPDDebtReward borrower s
  let currentRBTC ← SafeMath.add (s.vault borrower).coll pendingRBTCReward
  let currentBPDDebt ← SafeMath.add (s.vault borrower).debt pendingBPDDebtReward
  return (currentRBTC, currentBPDDebt)

/-- An index that is out of bounds is an invalid opcode. -/
def getVaultFromVaultOwnersArray (index : ℕ) (s : State) : Outcome Address :=
  match s.vaultManager.vaultOwners[index]? with
  | some owner => return owner
  | none => .error .invalid

def getNominalICR (borrower : Address) (s : State) : Outcome ℕ := do
  let (currentRBTC, currentBPDDebt) ← getCurrentVaultAmounts borrower s
  computeNominalCR currentRBTC currentBPDDebt

def getCurrentICR (borrower : Address) (price : ℕ) (s : State) : Outcome ℕ := do
  let (currentRBTC, currentBPDDebt) ← getCurrentVaultAmounts borrower s
  computeCR currentRBTC currentBPDDebt price

structure EntireDebtAndColl where
  debt : ℕ
  coll : ℕ
  pendingBPDDebtReward : ℕ
  pendingRBTCReward : ℕ

def getEntireDebtAndColl (borrower : Address) (s : State) : Outcome EntireDebtAndColl := do
  let pendingBPDDebtReward ← getPendingBPDDebtReward borrower s
  let pendingRBTCReward ← getPendingRBTCReward borrower s
  let debt ← SafeMath.add (s.vault borrower).debt pendingBPDDebtReward
  let coll ← SafeMath.add (s.vault borrower).coll pendingRBTCReward
  return ⟨debt, coll, pendingBPDDebtReward, pendingRBTCReward⟩

def setVault (borrower : Address) (vault : Vault) (s : State) : State :=
  { s with vaultManager := { s.vaultManager with
    vaults := Function.update s.vaultManager.vaults borrower vault } }

def setRewardSnapshot (borrower : Address) (snapshot : RewardSnapshot) (s : State) : State :=
  { s with vaultManager := { s.vaultManager with
    rewardSnapshots := Function.update s.vaultManager.rewardSnapshots borrower snapshot } }

def setTotalStakes (totalStakes : ℕ) (s : State) : State :=
  { s with vaultManager := { s.vaultManager with totalStakes := totalStakes } }

def setSortedVaults (data : SortedVaults) (s : State) : State := { s with sortedVaults := data }

def requireVaultIsActive (borrower : Address) (s : State) : Outcome Unit :=
  require ((s.vault borrower).status = .active) "VaultManager: Vault does not exist or is closed"

def setVaultStatus (borrower : Address) (status : Status) (s : State) : State :=
  setVault borrower { s.vault borrower with status := status } s

def increaseVaultColl (borrower : Address) (collIncrease : ℕ) (s : State) : Outcome State := do
  let newColl ← SafeMath.add (s.vault borrower).coll collIncrease
  return setVault borrower { s.vault borrower with coll := newColl } s

def decreaseVaultColl (borrower : Address) (collDecrease : ℕ) (s : State) : Outcome State := do
  let newColl ← SafeMath.sub (s.vault borrower).coll collDecrease
  return setVault borrower { s.vault borrower with coll := newColl } s

def increaseVaultDebt (borrower : Address) (debtIncrease : ℕ) (s : State) : Outcome State := do
  let newDebt ← SafeMath.add (s.vault borrower).debt debtIncrease
  return setVault borrower { s.vault borrower with debt := newDebt } s

def decreaseVaultDebt (borrower : Address) (debtDecrease : ℕ) (s : State) : Outcome State := do
  let newDebt ← SafeMath.sub (s.vault borrower).debt debtDecrease
  return setVault borrower { s.vault borrower with debt := newDebt } s

def movePendingVaultRewardsToActivePool (d : Deployment) (BPD RBTC : ℕ) (s : State) :
    Outcome State := do
  let s ← DefaultPool.decreaseBPDDebt BPD s
  let s ← ActivePool.increaseBPDDebt BPD s
  DefaultPool.sendRBTCToActivePool d RBTC s

def updateVaultRewardSnapshots (borrower : Address) (s : State) : State :=
  setRewardSnapshot borrower ⟨s.vaultManager.B_RBTC, s.vaultManager.B_BPDDebt⟩ s

def applyPendingRewards (d : Deployment) (borrower : Address) (s : State) : Outcome State :=
  if hasPendingRewards borrower s then do
    requireVaultIsActive borrower s
    let pendingRBTCReward ← getPendingRBTCReward borrower s
    let pendingBPDDebtReward ← getPendingBPDDebtReward borrower s
    let s ← increaseVaultColl borrower pendingRBTCReward s
    let s ← increaseVaultDebt borrower pendingBPDDebtReward s
    let s := updateVaultRewardSnapshots borrower s
    movePendingVaultRewardsToActivePool d pendingBPDDebtReward pendingRBTCReward s
  else return s

def removeStake (borrower : Address) (s : State) : Outcome State := do
  let totalStakes ← SafeMath.sub s.vaultManager.totalStakes (s.vault borrower).stake
  let s := setTotalStakes totalStakes s
  return setVault borrower { s.vault borrower with stake := 0 } s

def computeNewStake (coll : ℕ) (s : State) : Outcome ℕ :=
  if s.vaultManager.totalCollateralSnapshot = 0 then return coll
  else do
    assert (s.vaultManager.totalStakesSnapshot > 0)
    let scaled ← SafeMath.mul coll s.vaultManager.totalStakesSnapshot
    SafeMath.div scaled s.vaultManager.totalCollateralSnapshot

def updateStakeAndTotalStakes (borrower : Address) (s : State) : Outcome State := do
  let newStake ← computeNewStake (s.vault borrower).coll s
  let oldStake := (s.vault borrower).stake
  let s := setVault borrower { s.vault borrower with stake := newStake } s
  let remaining ← SafeMath.sub s.vaultManager.totalStakes oldStake
  let totalStakes ← SafeMath.add remaining newStake
  return setTotalStakes totalStakes s

/-- One accumulator of `redistributeDebtAndColl`: the reward per unit staked, and the
division error carried to the next redistribution. -/
def rewardPerUnitStaked (amount lastError totalStakes : ℕ) : Outcome (ℕ × ℕ) := do
  let scaled ← SafeMath.mul amount DECIMAL_PRECISION
  let numerator ← SafeMath.add scaled lastError
  let perUnit ← SafeMath.div numerator totalStakes
  let distributed ← SafeMath.mul perUnit totalStakes
  let error ← SafeMath.sub numerator distributed
  return (perUnit, error)

/-- Write both accumulators and both errors. -/
def setRewards (B_RBTC RBTCError B_BPDDebt BPDDebtError : ℕ) (s : State) : State :=
  { s with vaultManager := { s.vaultManager with
    lastRBTCError_Redistribution := RBTCError
    lastBPDDebtError_Redistribution := BPDDebtError
    B_RBTC := B_RBTC
    B_BPDDebt := B_BPDDebt } }

def redistributeDebtAndColl (d : Deployment) (debt coll : ℕ) (s : State) : Outcome State :=
  if debt = 0 then return s
  else do
    let (RBTCRewardPerUnitStaked, RBTCError) ←
      rewardPerUnitStaked coll s.vaultManager.lastRBTCError_Redistribution
        s.vaultManager.totalStakes
    let (BPDDebtRewardPerUnitStaked, BPDDebtError) ←
      rewardPerUnitStaked debt s.vaultManager.lastBPDDebtError_Redistribution
        s.vaultManager.totalStakes
    let B_RBTC ← SafeMath.add s.vaultManager.B_RBTC RBTCRewardPerUnitStaked
    let B_BPDDebt ← SafeMath.add s.vaultManager.B_BPDDebt BPDDebtRewardPerUnitStaked
    let s := setRewards B_RBTC RBTCError B_BPDDebt BPDDebtError s
    let s ← ActivePool.decreaseBPDDebt debt s
    let s ← DefaultPool.increaseBPDDebt debt s
    ActivePool.sendRBTC d d.defaultPool coll s

def addVaultOwnerToArray (borrower : Address) (s : State) : Outcome State := do
  let vaultOwners := s.vaultManager.vaultOwners ++ [borrower]
  let last ← SafeMath.sub vaultOwners.length 1
  let s := { s with vaultManager := { s.vaultManager with vaultOwners := vaultOwners } }
  -- the conversion to `uint128` truncates
  return setVault borrower { s.vault borrower with arrayIndex := last % 2 ^ 128 } s

def removeVaultOwner (borrower : Address) (vaultOwnersArrayLength : ℕ) (s : State) :
    Outcome State := do
  let vaultStatus := (s.vault borrower).status
  assert (vaultStatus ≠ .nonExistent ∧ vaultStatus ≠ .active)
  let index := (s.vault borrower).arrayIndex
  let idxLast ← SafeMath.sub vaultOwnersArrayLength 1
  assert (index ≤ idxLast)
  match s.vaultManager.vaultOwners[idxLast]? with
  | none => .error .invalid
  | some addressToMove =>
    let vaultOwners := s.vaultManager.vaultOwners.set index addressToMove
    let s := setVault addressToMove { s.vault addressToMove with arrayIndex := index } s
    return { s with vaultManager := { s.vaultManager with vaultOwners := vaultOwners.dropLast } }

def requireMoreThanOneVaultInSystem (vaultOwnersArrayLength : ℕ) (s : State) : Outcome Unit :=
  require (vaultOwnersArrayLength > 1 ∧ SortedVaults.getSize s.sortedVaults > 1)
    "VaultManager: Only one vault in the system"

/-- The record of a vault that has just been closed; its stake was removed before. -/
def Vault.closed (vault : Vault) (closedStatus : Status) : Vault :=
  { vault with status := closedStatus, coll := 0, debt := 0 }

def closeVault (borrower : Address) (closedStatus : Status) (s : State) : Outcome State := do
  assert (closedStatus ≠ .nonExistent ∧ closedStatus ≠ .active)
  let vaultOwnersArrayLength := s.vaultManager.vaultOwners.length
  requireMoreThanOneVaultInSystem vaultOwnersArrayLength s
  let s := setVault borrower (Vault.closed (s.vault borrower) closedStatus) s
  let s := setRewardSnapshot borrower ⟨0, 0⟩ s
  let s ← removeVaultOwner borrower vaultOwnersArrayLength s
  let data ← SortedVaults.remove borrower s.sortedVaults
  return setSortedVaults data s

def SECONDS_IN_ONE_MINUTE : ℕ := 60
def MINUTE_DECAY_FACTOR : ℕ := 999037758833783000
def REDEMPTION_FEE_FLOOR : ℕ := DECIMAL_PRECISION / 1000 * 5
def MAX_BORROWING_FEE : ℕ := DECIMAL_PRECISION / 100 * 5
def BOOTSTRAP_PERIOD : ℕ := 30 * 24 * 60 * 60
def BETA : ℕ := 2

def setBaseRate (baseRate : ℕ) (s : State) : State :=
  { s with vaultManager := { s.vaultManager with baseRate := baseRate } }

def minutesPassedSinceLastFeeOp (block : Block) (s : State) : Outcome ℕ := do
  let timePassed ← SafeMath.sub block.timestamp s.vaultManager.lastFeeOperationTime
  SafeMath.div timePassed SECONDS_IN_ONE_MINUTE

def calcDecayedBaseRate (block : Block) (s : State) : Outcome ℕ := do
  let minutesPassed ← minutesPassedSinceLastFeeOp block s
  let decayFactor ← decPow MINUTE_DECAY_FACTOR minutesPassed
  let scaled ← SafeMath.mul s.vaultManager.baseRate decayFactor
  SafeMath.div scaled DECIMAL_PRECISION

def updateLastFeeOpTime (block : Block) (s : State) : Outcome State := do
  let timePassed ← SafeMath.sub block.timestamp s.vaultManager.lastFeeOperationTime
  if timePassed ≥ SECONDS_IN_ONE_MINUTE then
    return { s with vaultManager := { s.vaultManager with
      lastFeeOperationTime := block.timestamp } }
  else return s

def calcBorrowingRate (baseRate : ℕ) : Outcome ℕ := do
  let rate ← SafeMath.add BORROWING_FEE_FLOOR baseRate
  return min rate MAX_BORROWING_FEE

def getBorrowingRate (s : State) : Outcome ℕ := calcBorrowingRate s.vaultManager.baseRate

def getBorrowingRateWithDecay (block : Block) (s : State) : Outcome ℕ := do
  let decayedBaseRate ← calcDecayedBaseRate block s
  calcBorrowingRate decayedBaseRate

def calcBorrowingFee (borrowingRate BPDDebt : ℕ) : Outcome ℕ := do
  let scaled ← SafeMath.mul borrowingRate BPDDebt
  SafeMath.div scaled DECIMAL_PRECISION

def getBorrowingFee (BPDDebt : ℕ) (s : State) : Outcome ℕ := do
  let rate ← getBorrowingRate s
  calcBorrowingFee rate BPDDebt

def decayBaseRateFromBorrowing (block : Block) (s : State) : Outcome State := do
  let decayedBaseRate ← calcDecayedBaseRate block s
  assert (decayedBaseRate ≤ DECIMAL_PRECISION)
  updateLastFeeOpTime block (setBaseRate decayedBaseRate s)

def updateBaseRateFromRedemption (block : Block) (RBTCDrawn price totalBPDSupply : ℕ)
    (s : State) : Outcome State := do
  let decayedBaseRate ← calcDecayedBaseRate block s
  let drawnUSD ← SafeMath.mul RBTCDrawn price
  let redeemedBPDFraction ← SafeMath.div drawnUSD totalBPDSupply
  let increase ← SafeMath.div redeemedBPDFraction BETA
  let newBaseRate ← SafeMath.add decayedBaseRate increase
  let newBaseRate := min newBaseRate DECIMAL_PRECISION
  assert (newBaseRate > 0)
  updateLastFeeOpTime block (setBaseRate newBaseRate s)

def calcRedemptionRate (baseRate : ℕ) : Outcome ℕ := do
  let rate ← SafeMath.add REDEMPTION_FEE_FLOOR baseRate
  return min rate DECIMAL_PRECISION

def getRedemptionRate (s : State) : Outcome ℕ := calcRedemptionRate s.vaultManager.baseRate

def calcRedemptionFee (redemptionRate RBTCDrawn : ℕ) : Outcome ℕ := do
  let scaled ← SafeMath.mul redemptionRate RBTCDrawn
  let redemptionFee ← SafeMath.div scaled DECIMAL_PRECISION
  require (redemptionFee < RBTCDrawn) "VaultManager: Fee would eat up all returned collateral"
  return redemptionFee

def getRedemptionFee (RBTCDrawn : ℕ) (s : State) : Outcome ℕ := do
  let rate ← getRedemptionRate s
  calcRedemptionFee rate RBTCDrawn

end VaultManager

end MoneyProtocol
