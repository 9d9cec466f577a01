import MoneyProtocol.Contracts.BorrowerOperations

/-!
# The Stability Pool

Deposits are compounded through the product `P`, its scale and epoch; RBTC and MP gains
through the sums `S` and `G`. `offset` is called by the VaultManager during a liquidation.
-/

namespace MoneyProtocol.StabilityPool

open Outcome MoneypBase

def SCALE_FACTOR : ℕ := 10 ^ 9

def requireFrontEndNotRegistered (account : Address) (s : State) : Outcome Unit :=
  require ((s.stabilityPool.frontEnds account).registered = false)
    "StabilityPool: must not already be a registered front end"

def requireFrontEndIsRegisteredOrZero (account : Address) (s : State) : Outcome Unit :=
  require ((s.stabilityPool.frontEnds account).registered = true ∨ account = 0)
    "StabilityPool: Tag must be a registered front end, or the zero address"

def requireNonZeroAmount (amount : ℕ) : Outcome Unit :=
  require (amount > 0) "StabilityPool: Amount must be non-zero"

def requireUserHasDeposit (initialDeposit : ℕ) : Outcome Unit :=
  require (initialDeposit > 0) "StabilityPool: User must have a non-zero deposit"

def requireUserHasNoDeposit (account : Address) (s : State) : Outcome Unit :=
  require ((s.stabilityPool.deposits account).initialValue = 0)
    "StabilityPool: User must have no deposit"

def requireValidKickbackRate (kickbackRate : ℕ) : Outcome Unit :=
  require (kickbackRate ≤ DECIMAL_PRECISION)
    "StabilityPool: Kickback rate must be in range [0,1]"

def requireUserHasVault (depositor : Address) (s : State) : Outcome Unit :=
  require ((s.vault depositor).status = .active)
    "StabilityPool: caller must have an active vault to withdraw RBTCGain to"

/-- Also fetches the price, hence the new state. -/
def requireNoUnderCollateralizedVaults (block : Block) (s : State) : Outcome State := do
  let (price, s) ← PriceFeed.fetchPrice block s
  let lowestVault := SortedVaults.getLast s.sortedVaults
  let ICR ← VaultManager.getCurrentICR lowestVault price s
  require (ICR ≥ MCR) "StabilityPool: Cannot withdraw while there are vaults with ICR < MCR"
  return s

def computeMPPerUnitStaked (MPIssuance totalBPDDeposits : ℕ) (s : State) :
    Outcome (ℕ × State) := do
  let scaled ← SafeMath.mul MPIssuance DECIMAL_PRECISION
  let MPNumerator ← SafeMath.add scaled s.stabilityPool.lastMPError
  let MPPerUnitStaked ← SafeMath.div MPNumerator totalBPDDeposits
  let distributed ← SafeMath.mul MPPerUnitStaked totalBPDDeposits
  let lastMPError ← SafeMath.sub MPNumerator distributed
  return (MPPerUnitStaked,
    { s with stabilityPool := { s.stabilityPool with lastMPError := lastMPError } })

/-- Write `value` at `(epoch, scale)`. -/
def updateSum (sums : ℕ → ℕ → ℕ) (epoch scale value : ℕ) : ℕ → ℕ → ℕ :=
  Function.update sums epoch (Function.update (sums epoch) scale value)

def updateG (MPIssuance : ℕ) (s : State) : Outcome State :=
  let totalBPD := s.stabilityPool.totalBPDDeposits
  if totalBPD = 0 ∨ MPIssuance = 0 then return s
  else do
    let (MPPerUnitStaked, s) ← computeMPPerUnitStaked MPIssuance totalBPD s
    let epoch := s.stabilityPool.currentEpoch
    let scale := s.stabilityPool.currentScale
    let marginalMPGain ← SafeMath.mul MPPerUnitStaked s.stabilityPool.P
    let newG ← SafeMath.add (s.stabilityPool.epochToScaleToG epoch scale) marginalMPGain
    return { s with stabilityPool := { s.stabilityPool with
      epochToScaleToG := updateSum s.stabilityPool.epochToScaleToG epoch scale newG } }

def triggerMPIssuance (block : Block) (s : State) : Outcome State := do
  let (MPIssuance, s) ← CommunityIssuance.issueMP block s
  updateG MPIssuance s

/-- A stake scaled by the change of `P`; after two changes of scale nothing is left. -/
def compoundStake (initialStake P snapshotP scaleDiff : ℕ) : Outcome ℕ :=
  if scaleDiff = 0 then do
    let scaled ← SafeMath.mul initialStake P
    SafeMath.div scaled snapshotP
  else if scaleDiff = 1 then do
    let scaled ← SafeMath.mul initialStake P
    let unscaled ← SafeMath.div scaled snapshotP
    SafeMath.div unscaled SCALE_FACTOR
  else return 0

def getCompoundedStakeFromSnapshots (initialStake : ℕ) (snapshots : Snapshots) (s : State) :
    Outcome ℕ :=
  if snapshots.epoch < s.stabilityPool.currentEpoch then return 0
  else do
    let scaleDiff ← MoneypSafeMath128.sub s.stabilityPool.currentScale snapshots.scale
    let compoundedStake ← compoundStake initialStake s.stabilityPool.P snapshots.P scaleDiff
    let threshold ← SafeMath.div initialStake (10 ^ 9)
    return if compoundedStake < threshold then 0 else compoundedStake

def getCompoundedBPDDeposit (depositor : Address) (s : State) : Outcome ℕ :=
  let initialDeposit := (s.stabilityPool.deposits depositor).initialValue
  if initialDeposit = 0 then return 0
  else getCompoundedStakeFromSnapshots initialDeposit
    (s.stabilityPool.depositSnapshots depositor) s

def getCompoundedFrontEndStake (frontEnd : Address) (s : State) : Outcome ℕ :=
  let frontEndStake := s.stabilityPool.frontEndStakes frontEnd
  if frontEndStake = 0 then return 0
  else getCompoundedStakeFromSnapshots frontEndStake
    (s.stabilityPool.frontEndSnapshots frontEnd) s

/-- The gain of a stake from a table of sums, over at most one change of scale;
`snapshot` is the sum at the time of the deposit. -/
def gainFromSnapshots (initialStake snapshot : ℕ) (snapshots : Snapshots)
    (sums : ℕ → ℕ → ℕ) : Outcome ℕ := do
  let firstPortion ← SafeMath.sub (sums snapshots.epoch snapshots.scale) snapshot
  let nextScale ← MoneypSafeMath128.add snapshots.scale 1
  let secondPortion ← SafeMath.div (sums snapshots.epoch nextScale) SCALE_FACTOR
  let portions ← SafeMath.add firstPortion secondPortion
  let scaled ← SafeMath.mul initialStake portions
  let perSnapshot ← SafeMath.div scaled snapshots.P
  SafeMath.div perSnapshot DECIMAL_PRECISION

def getRBTCGainFromSnapshots (initialDeposit : ℕ) (snapshots : Snapshots) (s : State) :
    Outcome ℕ :=
  gainFromSnapshots initialDeposit snapshots.S snapshots s.stabilityPool.epochToScaleToSum

def getMPGainFromSnapshots (initialStake : ℕ) (snapshots : Snapshots) (s : State) :
    Outcome ℕ :=
  gainFromSnapshots initialStake snapshots.G snapshots s.stabilityPool.epochToScaleToG

def getDepositorRBTCGain (depositor : Address) (s : State) : Outcome ℕ :=
  let initialDeposit := (s.stabilityPool.deposits depositor).initialValue
  if initialDeposit = 0 then return 0
  else getRBTCGainFromSnapshots initialDeposit (s.stabilityPool.depositSnapshots depositor) s

def getDepositorMPGain (depositor : Address) (s : State) : Outcome ℕ :=
  let initialDeposit := (s.stabilityPool.deposits depositor).initialValue
  if initialDeposit = 0 then return 0
  else do
    let frontEndTag := (s.stabilityPool.deposits depositor).frontEndTag
    let kickbackRate := if frontEndTag = 0 then DECIMAL_PRECISION
      else (s.stabilityPool.frontEnds frontEndTag).kickbackRate
    let gain ← getMPGainFromSnapshots initialDeposit
      (s.stabilityPool.depositSnapshots depositor) s
    let scaled ← SafeMath.mul kickbackRate gain
    SafeMath.div scaled DECIMAL_PRECISION

def getFrontEndMPGain (frontEnd : Address) (s : State) : Outcome ℕ :=
  let frontEndStake := s.stabilityPool.frontEndStakes frontEnd
  if frontEndStake = 0 then return 0
  else do
    let kickbackRate := (s.stabilityPool.frontEnds frontEnd).kickbackRate
    let frontEndShare ← SafeMath.sub DECIMAL_PRECISION kickbackRate
    let gain ← getMPGainFromSnapshots frontEndStake
      (s.stabilityPool.frontEndSnapshots frontEnd) s
    let scaled ← SafeMath.mul frontEndShare gain
    SafeMath.div scaled DECIMAL_PRECISION

def requireUserHasRBTCGain (depositor : Address) (s : State) : Outcome Unit := do
  let RBTCGain ← getDepositorRBTCGain depositor s
  require (RBTCGain > 0) "StabilityPool: caller must have non-zero RBTC Gain"

/-- The snapshots a stake takes now. Front ends do not record `S`. -/
def currentSnapshots (S : ℕ) (s : State) : Snapshots :=
  let epoch := s.stabilityPool.currentEpoch
  let scale := s.stabilityPool.currentScale
  ⟨S, s.stabilityPool.P, s.stabilityPool.epochToScaleToG epoch scale, scale, epoch⟩

def setFrontEndTag (depositor frontEndTag : Address) (s : State) : State :=
  { s with stabilityPool := { s.stabilityPool with
    deposits := Function.update s.stabilityPool.deposits depositor
      { s.stabilityPool.deposits depositor with frontEndTag := frontEndTag } } }

def setDeposit (depositor : Address) (deposit : Deposit) (snapshots : Snapshots) (s : State) :
    State :=
  { s with stabilityPool := { s.stabilityPool with
    deposits := Function.update s.stabilityPool.deposits depositor deposit
    depositSnapshots := Function.update s.stabilityPool.depositSnapshots depositor snapshots } }

def updateDepositAndSnapshots (depositor : Address) (newValue : ℕ) (s : State) : State :=
  if newValue = 0 then setDeposit depositor ⟨0, 0⟩ Snapshots.deleted s
  else
    let S := s.stabilityPool.epochToScaleToSum s.stabilityPool.currentEpoch
      s.stabilityPool.currentScale
    setDeposit depositor { s.stabilityPool.deposits depositor with initialValue := newValue }
      (currentSnapshots S s) s

def setFrontEndStake (frontEnd : Address) (stake : ℕ) (snapshots : Snapshots) (s : State) :
    State :=
  { s with stabilityPool := { s.stabilityPool with
    frontEndStakes := Function.update s.stabilityPool.frontEndStakes frontEnd stake
    frontEndSnapshots :=
      Function.update s.stabilityPool.frontEndSnapshots frontEnd snapshots } }

def updateFrontEndStakeAndSnapshots (frontEnd : Address) (newValue : ℕ) (s : State) : State :=
  if newValue = 0 then setFrontEndStake frontEnd 0 Snapshots.deleted s
  else setFrontEndStake frontEnd newValue
    (currentSnapshots (s.stabilityPool.frontEndSnapshots frontEnd).S s) s

def payOutMPGains (d : Deployment) (block : Block) (depositor frontEnd : Address)
    (s : State) : Outcome State := do
  let s ← (if frontEnd ≠ 0 then do
      let frontEndMPGain ← getFrontEndMPGain frontEnd s
      CommunityIssuance.sendMP d block frontEnd frontEndMPGain s
    else return s)
  let depositorMPGain ← getDepositorMPGain depositor s
  CommunityIssuance.sendMP d block depositor depositorMPGain s

def sendBPDtoStabilityPool (d : Deployment) (account : Address) (amount : ℕ) (s : State) :
    Outcome State := do
  let s ← BPDToken.sendToPool account d.stabilityPool amount s
  let newTotalBPDDeposits ← SafeMath.add s.stabilityPool.totalBPDDeposits amount
  return { s with stabilityPool := { s.stabilityPool with
    totalBPDDeposits := newTotalBPDDeposits } }

def decreaseBPD (amount : ℕ) (s : State) : Outcome State := do
  let newTotalBPDDeposits ← SafeMath.sub s.stabilityPool.totalBPDDeposits amount
  return { s with stabilityPool := { s.stabilityPool with
    totalBPDDeposits := newTotalBPDDeposits } }

def sendBPDToDepositor (d : Deployment) (depositor : Address) (BPDWithdrawal : ℕ) (s : State) :
    Outcome State :=
  if BPDWithdrawal = 0 then return s
  else do
    let s ← BPDToken.returnFromPool d.stabilityPool depositor BPDWithdrawal s
    decreaseBPD BPDWithdrawal s

def takeRBTC (amount : ℕ) (s : State) : Outcome State := do
  let newRBTC ← SafeMath.sub s.stabilityPool.RBTC amount
  return { s with stabilityPool := { s.stabilityPool with RBTC := newRBTC } }

def sendRBTCGainToDepositor (d : Deployment) (depositor : Address) (amount : ℕ) (s : State) :
    Outcome State :=
  if amount = 0 then return s
  else do
    let s ← takeRBTC amount s
    callWithValue d d.stabilityPool depositor amount s

/-- The tag is set once, with a depositor's first deposit. -/
def tagDeposit (depositor frontEndTag : Address) (s : State) : State :=
  if (s.stabilityPool.deposits depositor).initialValue = 0 then
    setFrontEndTag depositor frontEndTag s
  else s

def provideToSP (d : Deployment) (block : Block) (msgSender : Address) (amount : ℕ)
    (frontEndTag : Address) (s : State) : Outcome State := do
  requireFrontEndIsRegisteredOrZero frontEndTag s
  requireFrontEndNotRegistered msgSender s
  requireNonZeroAmount amount
  let initialDeposit := (s.stabilityPool.deposits msgSender).initialValue
  let s ← triggerMPIssuance block s
  let s := tagDeposit msgSender frontEndTag s
  let depositorRBTCGain ← getDepositorRBTCGain msgSender s
  let compoundedBPDDeposit ← getCompoundedBPDDeposit msgSender s
  let _BPDLoss ← SafeMath.sub initialDeposit compoundedBPDDeposit
  let frontEnd := (s.stabilityPool.deposits msgSender).frontEndTag
  let s ← payOutMPGains d block msgSender frontEnd s
  let compoundedFrontEndStake ← getCompoundedFrontEndStake frontEnd s
  let newFrontEndStake ← SafeMath.add compoundedFrontEndStake amount
  let s := updateFrontEndStakeAndSnapshots frontEnd newFrontEndStake s
  let s ← sendBPDtoStabilityPool d msgSender amount s
  let newDeposit ← SafeMath.add compoundedBPDDeposit amount
  let s := updateDepositAndSnapshots msgSender newDeposit s
  sendRBTCGainToDepositor d msgSender depositorRBTCGain s

def withdrawFromSP (d : Deployment) (block : Block) (msgSender : Address) (amount : ℕ)
    (s : State) : Outcome State := do
  let s ← (if amount ≠ 0 then requireNoUnderCollateralizedVaults block s else pure s)
  let initialDeposit := (s.stabilityPool.deposits msgSender).initialValue
  requireUserHasDeposit initialDeposit
  let s ← triggerMPIssuance block s
  let depositorRBTCGain ← getDepositorRBTCGain msgSender s
  let compoundedBPDDeposit ← getCompoundedBPDDeposit msgSender s
  let BPDtoWithdraw := min amount compoundedBPDDeposit
  let _BPDLoss ← SafeMath.sub initialDeposit compoundedBPDDeposit
  let frontEnd := (s.stabilityPool.deposits msgSender).frontEndTag
  let s ← payOutMPGains d block msgSender frontEnd s
  let compoundedFrontEndStake ← getCompoundedFrontEndStake frontEnd s
  let newFrontEndStake ← SafeMath.sub compoundedFrontEndStake BPDtoWithdraw
  let s := updateFrontEndStakeAndSnapshots frontEnd newFrontEndStake s
  let s ← sendBPDToDepositor d msgSender BPDtoWithdraw s
  let newDeposit ← SafeMath.sub compoundedBPDDeposit BPDtoWithdraw
  let s := updateDepositAndSnapshots msgSender newDeposit s
  sendRBTCGainToDepositor d msgSender depositorRBTCGain s

def withdrawRBTCGainToVault (d : Deployment) (block : Block) (msgSender : Address)
    (upperHint lowerHint : Address) (s : State) : Outcome State := do
  let initialDeposit := (s.stabilityPool.deposits msgSender).initialValue
  requireUserHasDeposit initialDeposit
  requireUserHasVault msgSender s
  requireUserHasRBTCGain msgSender s
  let s ← triggerMPIssuance block s
  let depositorRBTCGain ← getDepositorRBTCGain msgSender s
  let compoundedBPDDeposit ← getCompoundedBPDDeposit msgSender s
  let _BPDLoss ← SafeMath.sub initialDeposit compoundedBPDDeposit
  let frontEnd := (s.stabilityPool.deposits msgSender).frontEndTag
  let s ← payOutMPGains d block msgSender frontEnd s
  let newFrontEndStake ← getCompoundedFrontEndStake frontEnd s
  let s := updateFrontEndStakeAndSnapshots frontEnd newFrontEndStake s
  let s := updateDepositAndSnapshots msgSender compoundedBPDDeposit s
  let s ← takeRBTC depositorRBTCGain s
  let s ← transferRBTC d.stabilityPool d.borrowerOperations depositorRBTCGain s
  BorrowerOperations.moveRBTCGainToVault d block depositorRBTCGain msgSender upperHint
    lowerHint s

def registerFrontEnd (msgSender : Address) (kickbackRate : ℕ) (s : State) : Outcome State := do
  requireFrontEndNotRegistered msgSender s
  requireUserHasNoDeposit msgSender s
  requireValidKickbackRate kickbackRate
  return { s with stabilityPool := { s.stabilityPool with
    frontEnds := Function.update s.stabilityPool.frontEnds msgSender ⟨kickbackRate, true⟩ } }

/-- The RBTC gain and the BPD loss of one unit staked, with their error feedback. -/
structure RewardsPerUnitStaked where
  RBTCGainPerUnitStaked : ℕ
  BPDLossPerUnitStaked : ℕ
  lastRBTCError_Offset : ℕ
  lastBPDLossError_Offset : ℕ

/-- The BPD half of `computeRewardsPerUnitStaked`: the loss per unit and the new error.
One is added so that the loss is rounded up, in favour of the pool. -/
def computeBPDLoss (debtToOffset totalBPDDeposits lastError : ℕ) : Outcome (ℕ × ℕ) :=
  if debtToOffset = totalBPDDeposits then return (DECIMAL_PRECISION, 0)
  else do
    let scaled ← SafeMath.mul debtToOffset DECIMAL_PRECISION
    let BPDLossNumerator ← SafeMath.sub scaled lastError
    let quotient ← SafeMath.div BPDLossNumerator totalBPDDeposits
    let BPDLossPerUnitStaked ← SafeMath.add quotient 1
    let charged ← SafeMath.mul BPDLossPerUnitStaked totalBPDDeposits
    let error ← SafeMath.sub charged BPDLossNumerator
    return (BPDLossPerUnitStaked, error)

def computeRewardsPerUnitStaked (collToAdd debtToOffset totalBPDDeposits : ℕ) (s : State) :
    Outcome RewardsPerUnitStaked := do
  let scaledColl ← SafeMath.mul collToAdd DECIMAL_PRECISION
  let RBTCNumerator ← SafeMath.add scaledColl s.stabilityPool.lastRBTCError_Offset
  assert (debtToOffset ≤ totalBPDDeposits)
  let (BPDLossPerUnitStaked, BPDLossError) ←
    computeBPDLoss debtToOffset totalBPDDeposits s.stabilityPool.lastBPDLossError_Offset
  let RBTCGainPerUnitStaked ← SafeMath.div RBTCNumerator totalBPDDeposits
  let distributed ← SafeMath.mul RBTCGainPerUnitStaked totalBPDDeposits
  let RBTCError ← SafeMath.sub RBTCNumerator distributed
  return ⟨RBTCGainPerUnitStaked, BPDLossPerUnitStaked, RBTCError, BPDLossError⟩

/-- The product `P` with its scale and epoch. -/
structure Product where
  P : ℕ
  scale : ℕ
  epoch : ℕ

/-- The part of `updateRewardSumAndProduct` that moves `P` by the factor
`1 - BPDLossPerUnitStaked`. -/
def updateProduct (newProductFactor : ℕ) (p : Product) : Outcome Product :=
  if newProductFactor = 0 then do
    let epoch ← MoneypSafeMath128.add p.epoch 1
    return ⟨DECIMAL_PRECISION, 0, epoch⟩
  else do
    let product ← SafeMath.mul p.P newProductFactor
    let quotient ← SafeMath.div product DECIMAL_PRECISION
    if quotient < SCALE_FACTOR then do
      let scaled ← SafeMath.mul product SCALE_FACTOR
      let newP ← SafeMath.div scaled DECIMAL_PRECISION
      let scale ← MoneypSafeMath128.add p.scale 1
      return ⟨newP, scale, p.epoch⟩
    else return ⟨quotient, p.scale, p.epoch⟩

def updateRewardSumAndProduct (RBTCGainPerUnitStaked BPDLossPerUnitStaked : ℕ) (s : State) :
    Outcome State := do
  assert (BPDLossPerUnitStaked ≤ DECIMAL_PRECISION)
  let newProductFactor ← SafeMath.sub DECIMAL_PRECISION BPDLossPerUnitStaked
  let scale := s.stabilityPool.currentScale
  let epoch := s.stabilityPool.currentEpoch
  let marginalRBTCGain ← SafeMath.mul RBTCGainPerUnitStaked s.stabilityPool.P
  let newS ← SafeMath.add (s.stabilityPool.epochToScaleToSum epoch scale) marginalRBTCGain
  let p ← updateProduct newProductFactor ⟨s.stabilityPool.P, scale, epoch⟩
  assert (p.P > 0)
  return { s with stabilityPool := { s.stabilityPool with
    epochToScaleToSum := updateSum s.stabilityPool.epochToScaleToSum epoch scale newS
    P := p.P
    currentScale := p.scale
    currentEpoch := p.epoch } }

def moveOffsetCollAndDebt (d : Deployment) (collToAdd debtToOffset : ℕ) (s : State) :
    Outcome State := do
  let s ← ActivePool.decreaseBPDDebt debtToOffset s
  let s ← decreaseBPD debtToOffset s
  let s ← BPDToken.burn d.stabilityPool debtToOffset s
  ActivePool.sendRBTC d d.stabilityPool collToAdd s

/-- Store the division errors for the next offset. -/
def setOffsetErrors (r : RewardsPerUnitStaked) (s : State) : State :=
  { s with stabilityPool := { s.stabilityPool with
    lastRBTCError_Offset := r.lastRBTCError_Offset
    lastBPDLossError_Offset := r.lastBPDLossError_Offset } }

def offset (d : Deployment) (block : Block) (debtToOffset collToAdd : ℕ) (s : State) :
    Outcome State :=
  let totalBPD := s.stabilityPool.totalBPDDeposits
  if totalBPD = 0 ∨ debtToOffset = 0 then return s
  else do
    let s ← triggerMPIssuance block s
    let r ← computeRewardsPerUnitStaked collToAdd debtToOffset totalBPD s
    let s ← updateRewardSumAndProduct r.RBTCGainPerUnitStaked r.BPDLossPerUnitStaked
      (setOffsetErrors r s)
    moveOffsetCollAndDebt d collToAdd debtToOffset s

end MoneyProtocol.StabilityPool
