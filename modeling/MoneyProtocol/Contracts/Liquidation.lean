import MoneyProtocol.Contracts.StabilityPool

/-!
# Liquidation

Single liquidations in both modes, the two sequences of `liquidateVaults`, the two batches
of `batchLiquidateVaults`, and the settlement they share. A loop is a step on the loop
variables together with its iteration.
-/

namespace MoneyProtocol.VaultManager

open Outcome MoneypMath MoneypBase

structure LiquidationValues where
  entireVaultDebt : ℕ
  entireVaultColl : ℕ
  collGasCompensation : ℕ
  BPDGasCompensation : ℕ
  debtToOffset : ℕ
  collToSendToSP : ℕ
  debtToRedistribute : ℕ
  collToRedistribute : ℕ
  collSurplus : ℕ

def LiquidationValues.zero : LiquidationValues := ⟨0, 0, 0, 0, 0, 0, 0, 0, 0⟩

structure LiquidationTotals where
  totalCollInSequence : ℕ
  totalDebtInSequence : ℕ
  totalCollGasCompensation : ℕ
  totalBPDGasCompensation : ℕ
  totalDebtToOffset : ℕ
  totalCollToSendToSP : ℕ
  totalDebtToRedistribute : ℕ
  totalCollToRedistribute : ℕ
  totalCollSurplus : ℕ

def LiquidationTotals.zero : LiquidationTotals := ⟨0, 0, 0, 0, 0, 0, 0, 0, 0⟩

def addLiquidationValuesToTotals (oldTotals : LiquidationTotals) (v : LiquidationValues) :
    Outcome LiquidationTotals := do
  let totalCollGasCompensation ←
    SafeMath.add oldTotals.totalCollGasCompensation v.collGasCompensation
  let totalBPDGasCompensation ←
    SafeMath.add oldTotals.totalBPDGasCompensation v.BPDGasCompensation
  let totalDebtInSequence ← SafeMath.add oldTotals.totalDebtInSequence v.entireVaultDebt
  let totalCollInSequence ← SafeMath.add oldTotals.totalCollInSequence v.entireVaultColl
  let totalDebtToOffset ← SafeMath.add oldTotals.totalDebtToOffset v.debtToOffset
  let totalCollToSendToSP ← SafeMath.add oldTotals.totalCollToSendToSP v.collToSendToSP
  let totalDebtToRedistribute ←
    SafeMath.add oldTotals.totalDebtToRedistribute v.debtToRedistribute
  let totalCollToRedistribute ←
    SafeMath.add oldTotals.totalCollToRedistribute v.collToRedistribute
  let totalCollSurplus ← SafeMath.add oldTotals.totalCollSurplus v.collSurplus
  return ⟨totalCollInSequence, totalDebtInSequence, totalCollGasCompensation,
    totalBPDGasCompensation, totalDebtToOffset, totalCollToSendToSP, totalDebtToRedistribute,
    totalCollToRedistribute, totalCollSurplus⟩

/-- How the debt and collateral of a vault are split between the Stability Pool and the
other vaults. -/
structure OffsetAndRedistributionVals where
  debtToOffset : ℕ
  collToSendToSP : ℕ
  debtToRedistribute : ℕ
  collToRedistribute : ℕ

def getOffsetAndRedistributionVals (debt coll BPDInStabPool : ℕ) :
    Outcome OffsetAndRedistributionVals :=
  if BPDInStabPool > 0 then do
    let debtToOffset := min debt BPDInStabPool
    let scaled ← SafeMath.mul coll debtToOffset
    let collToSendToSP ← SafeMath.div scaled debt
    let debtToRedistribute ← SafeMath.sub debt debtToOffset
    let collToRedistribute ← SafeMath.sub coll collToSendToSP
    return ⟨debtToOffset, collToSendToSP, debtToRedistribute, collToRedistribute⟩
  else return ⟨0, 0, debt, coll⟩

def getCappedOffsetVals (entireVaultDebt entireVaultColl price : ℕ) :
    Outcome LiquidationValues := do
  let scaled ← SafeMath.mul entireVaultDebt MCR
  let collToOffset ← SafeMath.div scaled price
  let collGasCompensation := getCollGasCompensation collToOffset
  let collToSendToSP ← SafeMath.sub collToOffset collGasCompensation
  let collSurplus ← SafeMath.sub entireVaultColl collToOffset
  return { entireVaultDebt := entireVaultDebt
           entireVaultColl := entireVaultColl
           collGasCompensation := collGasCompensation
           BPDGasCompensation := BPD_GAS_COMPENSATION
           debtToOffset := entireVaultDebt
           collToSendToSP := collToSendToSP
           debtToRedistribute := 0
           collToRedistribute := 0
           collSurplus := collSurplus }

/-- The values of a liquidation whose debt and collateral are split as `o`. -/
def liquidationValues (e : EntireDebtAndColl) (o : OffsetAndRedistributionVals) :
    LiquidationValues :=
  { entireVaultDebt := e.debt
    entireVaultColl := e.coll
    collGasCompensation := getCollGasCompensation e.coll
    BPDGasCompensation := BPD_GAS_COMPENSATION
    debtToOffset := o.debtToOffset
    collToSendToSP := o.collToSendToSP
    debtToRedistribute := o.debtToRedistribute
    collToRedistribute := o.collToRedistribute
    collSurplus := 0 }

/-- Bring the vault's pending rewards to the Active Pool and remove its stake. -/
def detachVault (d : Deployment) (borrower : Address) (e : EntireDebtAndColl) (s : State) :
    Outcome State := do
  let s ← movePendingVaultRewardsToActivePool d e.pendingBPDDebtReward e.pendingRBTCReward s
  removeStake borrower s

def liquidateNormalMode (d : Deployment) (borrower : Address) (BPDInStabPool : ℕ)
    (s : State) : Outcome (LiquidationValues × State) := do
  let e ← getEntireDebtAndColl borrower s
  let s ← detachVault d borrower e s
  let collToLiquidate ← SafeMath.sub e.coll (getCollGasCompensation e.coll)
  let o ← getOffsetAndRedistributionVals e.debt collToLiquidate BPDInStabPool
  let s ← closeVault borrower .closedByLiquidation s
  return (liquidationValues e o, s)

/-- The capped liquidation credits what is left of the collateral to the borrower. -/
def accountCollSurplus (borrower : Address) (collSurplus : ℕ) (s : State) : Outcome State :=
  if collSurplus > 0 then CollSurplusPool.accountSurplus borrower collSurplus s else return s

def liquidateRecoveryMode (d : Deployment) (borrower : Address) (ICR BPDInStabPool TCR : ℕ)
    (price : ℕ) (s : State) : Outcome (LiquidationValues × State) :=
  if s.vaultManager.vaultOwners.length ≤ 1 then return (.zero, s)
  else do
    let e ← getEntireDebtAndColl borrower s
    let collToLiquidate ← SafeMath.sub e.coll (getCollGasCompensation e.coll)
    if ICR ≤ _100pct then do
      let s ← detachVault d borrower e s
      let s ← closeVault borrower .closedByLiquidation s
      return (liquidationValues e ⟨0, 0, e.debt, collToLiquidate⟩, s)
    else if ICR > _100pct ∧ ICR < MCR then do
      let s ← detachVault d borrower e s
      let o ← getOffsetAndRedistributionVals e.debt collToLiquidate BPDInStabPool
      let s ← closeVault borrower .closedByLiquidation s
      return (liquidationValues e o, s)
    else if ICR ≥ MCR ∧ ICR < TCR ∧ e.debt ≤ BPDInStabPool then do
      let s ← movePendingVaultRewardsToActivePool d e.pendingBPDDebtReward
        e.pendingRBTCReward s
      assert (BPDInStabPool ≠ 0)
      let s ← removeStake borrower s
      let v ← getCappedOffsetVals e.debt e.coll price
      let s ← closeVault borrower .closedByLiquidation s
      let s ← accountCollSurplus borrower v.collSurplus s
      return (v, s)
    else return (.zero, s)

/-- The variables of a liquidation loop that survive an iteration, and the state. The system
totals are only kept by the loops that start in Recovery Mode. -/
structure LiquidationLoop where
  remainingBPDInStabPool : ℕ
  backToNormalMode : Bool
  entireSystemDebt : ℕ
  entireSystemColl : ℕ
  totals : LiquidationTotals
  state : State

def checkPotentialRecoveryMode (entireSystemColl entireSystemDebt price : ℕ) :
    Outcome Bool := do
  let TCR ← computeCR entireSystemColl entireSystemDebt price
  return decide (TCR < CCR)

/-- Liquidate `user` as in Normal Mode and tally the values. -/
def liquidateAndTally (d : Deployment) (user : Address) (l : LiquidationLoop) :
    Outcome LiquidationLoop := do
  let (v, s) ← liquidateNormalMode d user l.remainingBPDInStabPool l.state
  let remaining ← SafeMath.sub l.remainingBPDInStabPool v.debtToOffset
  let totals ← addLiquidationValuesToTotals l.totals v
  return { l with remainingBPDInStabPool := remaining, totals := totals, state := s }

/-- What the sequence subtracts from `entireSystemColl` after a liquidation. -/
def sequenceCollLeft (entireSystemColl : ℕ) (v : LiquidationValues) : Outcome ℕ := do
  let coll ← SafeMath.sub entireSystemColl v.collToSendToSP
  SafeMath.sub coll v.collSurplus

/-- What the batch subtracts from `entireSystemColl` after a liquidation. -/
def batchCollLeft (entireSystemColl : ℕ) (v : LiquidationValues) : Outcome ℕ :=
  SafeMath.sub entireSystemColl v.collToSendToSP

/-- Liquidate `user` as in Recovery Mode, update the aggregate trackers and tally the values.
The two loops differ in what they subtract from the collateral tracker. -/
def liquidateAndTrack (collLeft : ℕ → LiquidationValues → Outcome ℕ) (d : Deployment)
    (price : ℕ) (user : Address) (ICR : ℕ) (l : LiquidationLoop) : Outcome LiquidationLoop := do
  let TCR ← computeCR l.entireSystemColl l.entireSystemDebt price
  let (v, s) ← liquidateRecoveryMode d user ICR l.remainingBPDInStabPool TCR price l.state
  let remaining ← SafeMath.sub l.remainingBPDInStabPool v.debtToOffset
  let entireSystemDebt ← SafeMath.sub l.entireSystemDebt v.debtToOffset
  let entireSystemColl ← collLeft l.entireSystemColl v
  let totals ← addLiquidationValuesToTotals l.totals v
  let isRecoveryMode ← checkPotentialRecoveryMode entireSystemColl entireSystemDebt price
  return ⟨remaining, !isRecoveryMode, entireSystemDebt, entireSystemColl, totals, s⟩

/-- One iteration of the sequence that started in Recovery Mode; `none` is a `break`. -/
def sequenceStep_RecoveryMode (d : Deployment) (price : ℕ) (user : Address)
    (l : LiquidationLoop) : Outcome (Option LiquidationLoop) := do
  let ICR ← getCurrentICR user price l.state
  if !l.backToNormalMode then
    if ICR ≥ MCR ∧ l.remainingBPDInStabPool = 0 then return none
    else some <$> liquidateAndTrack sequenceCollLeft d price user ICR l
  else if ICR < MCR then some <$> liquidateAndTally d user l
  else return none

def liquidateVaultsSequence_RecoveryMode (d : Deployment) (price : ℕ) (firstUser : Address) :
    ℕ → Address → LiquidationLoop → Outcome LiquidationLoop
  | 0, _, l => return l
  | n + 1, user, l =>
    if user = firstUser then return l
    else do
      -- the current user is likely to be deleted
      let nextUser := SortedVaults.getPrev user l.state.sortedVaults
      match ← sequenceStep_RecoveryMode d price user l with
      | none => return l
      | some l => liquidateVaultsSequence_RecoveryMode d price firstUser n nextUser l

/-- One iteration of the batch that started in Recovery Mode. -/
def batchStep_RecoveryMode (d : Deployment) (price : ℕ) (user : Address)
    (l : LiquidationLoop) : Outcome LiquidationLoop :=
  if (l.state.vault user).status ≠ .active then return l
  else do
    let ICR ← getCurrentICR user price l.state
    if !l.backToNormalMode then
      if ICR ≥ MCR ∧ l.remainingBPDInStabPool = 0 then return l
      else liquidateAndTrack batchCollLeft d price user ICR l
    else if ICR < MCR then liquidateAndTally d user l
    else return l

def batchLiquidate_RecoveryMode (d : Deployment) (price : ℕ) :
    List Address → LiquidationLoop → Outcome LiquidationLoop
  | [], l => return l
  | user :: users, l => do
    let l ← batchStep_RecoveryMode d price user l
    batchLiquidate_RecoveryMode d price users l

/-- The loop over a sequence in Normal Mode: always the last vault of the list. -/
def liquidateVaultsSequence_NormalMode (d : Deployment) (price : ℕ) :
    ℕ → LiquidationLoop → Outcome LiquidationLoop
  | 0, l => return l
  | n + 1, l => do
    let user := SortedVaults.getLast l.state.sortedVaults
    let ICR ← getCurrentICR user price l.state
    if ICR < MCR then do
      let l ← liquidateAndTally d user l
      liquidateVaultsSequence_NormalMode d price n l
    else return l

def batchLiquidate_NormalMode (d : Deployment) (price : ℕ) :
    List Address → LiquidationLoop → Outcome LiquidationLoop
  | [], l => return l
  | user :: users, l => do
    let ICR ← getCurrentICR user price l.state
    let l ← (if ICR < MCR then liquidateAndTally d user l else pure l)
    batchLiquidate_NormalMode d price users l

def updateSystemSnapshots_excludeCollRemainder (collRemainder : ℕ) (s : State) :
    Outcome State := do
  let activeColl ← SafeMath.sub s.activePool.RBTC collRemainder
  let totalCollateralSnapshot ← SafeMath.add activeColl s.defaultPool.RBTC
  return { s with vaultManager := { s.vaultManager with
    totalStakesSnapshot := s.vaultManager.totalStakes
    totalCollateralSnapshot := totalCollateralSnapshot } }

def sendGasCompensation (d : Deployment) (liquidator : Address) (BPD RBTC : ℕ) (s : State) :
    Outcome State := do
  let s ← (if BPD > 0 then BPDToken.returnFromPool d.gasPool liquidator BPD s else pure s)
  if RBTC > 0 then ActivePool.sendRBTC d liquidator RBTC s else return s

/-- Everything that follows the loop. -/
def settleLiquidation (d : Deployment) (block : Block) (msgSender : Address)
    (totals : LiquidationTotals) (s : State) : Outcome State := do
  require (totals.totalDebtInSequence > 0) "VaultManager: nothing to liquidate"
  let s ← StabilityPool.offset d block totals.totalDebtToOffset totals.totalCollToSendToSP s
  let s ← redistributeDebtAndColl d totals.totalDebtToRedistribute
    totals.totalCollToRedistribute s
  let s ← (if totals.totalCollSurplus > 0 then
      ActivePool.sendRBTC d d.collSurplusPool totals.totalCollSurplus s
    else pure s)
  let s ← updateSystemSnapshots_excludeCollRemainder totals.totalCollGasCompensation s
  let withoutGas ← SafeMath.sub totals.totalCollInSequence totals.totalCollGasCompensation
  let _liquidatedColl ← SafeMath.sub withoutGas totals.totalCollSurplus
  sendGasCompensation d msgSender totals.totalBPDGasCompensation
    totals.totalCollGasCompensation s

/-- The loop variables before the first iteration. The system totals are read by the
Recovery Mode loops only. -/
def startLoop (isRecoveryMode : Bool) (s : State) : Outcome LiquidationLoop := do
  let remaining := s.stabilityPool.totalBPDDeposits
  if isRecoveryMode then do
    let entireSystemDebt ← getEntireSystemDebt s
    let entireSystemColl ← getEntireSystemColl s
    return ⟨remaining, false, entireSystemDebt, entireSystemColl, .zero, s⟩
  else return ⟨remaining, false, 0, 0, .zero, s⟩

def getTotalsFromLiquidateVaultsSequence (d : Deployment) (isRecoveryMode : Bool)
    (price n : ℕ) (s : State) : Outcome LiquidationLoop := do
  let l ← startLoop isRecoveryMode s
  if isRecoveryMode then
    liquidateVaultsSequence_RecoveryMode d price (SortedVaults.getFirst s.sortedVaults) n
      (SortedVaults.getLast s.sortedVaults) l
  else liquidateVaultsSequence_NormalMode d price n l

def liquidateVaults (d : Deployment) (block : Block) (msgSender : Address) (n : ℕ)
    (s : State) : Outcome State := do
  let (price, s) ← PriceFeed.fetchPrice block s
  let recoveryModeAtStart ← checkRecoveryMode price s
  let l ← getTotalsFromLiquidateVaultsSequence d recoveryModeAtStart price n s
  settleLiquidation d block msgSender l.totals l.state

def getTotalsFromBatchLiquidate (d : Deployment) (isRecoveryMode : Bool) (price : ℕ)
    (vaultArray : List Address) (s : State) : Outcome LiquidationLoop := do
  let l ← startLoop isRecoveryMode s
  if isRecoveryMode then batchLiquidate_RecoveryMode d price vaultArray l
  else batchLiquidate_NormalMode d price vaultArray l

def batchLiquidateVaults (d : Deployment) (block : Block) (msgSender : Address)
    (vaultArray : List Address) (s : State) : Outcome State := do
  require (vaultArray.length ≠ 0) "VaultManager: Calldata address array must not be empty"
  let (price, s) ← PriceFeed.fetchPrice block s
  let recoveryModeAtStart ← checkRecoveryMode price s
  let l ← getTotalsFromBatchLiquidate d recoveryModeAtStart price vaultArray s
  settleLiquidation d block msgSender l.totals l.state

def liquidate (d : Deployment) (block : Block) (msgSender borrower : Address) (s : State) :
    Outcome State := do
  requireVaultIsActive borrower s
  batchLiquidateVaults d block msgSender [borrower] s

end MoneyProtocol.VaultManager
