import MoneyProtocol.Subgraph.Changes

/-!
# The handlers of the subgraph

What each event of the contracts does to the users, their vaults and deposits, the liquidations
and the redemptions.
-/

namespace MoneyProtocol.Subgraph

variable (normalized : ℚ → ℚ)

def getUser (user : Address) (s : Store) : User × Store :=
  match s.users.lookup user with
  | some userOrNull => (userOrNull, s)
  | none => ({}, { s with users := s.users.insert user {} })

def Store.saveUser (user : Address) (entity : User) (s : Store) : Store :=
  { s with users := s.users.insert user entity }

def describeCollSurplusChange (user : Address) (collSurplusBefore collSurplusAfter : ℚ) :
    CollSurplusDetails :=
  { user
    collSurplusBefore
    collSurplusAfter
    collSurplusChange := normalized (collSurplusAfter - collSurplusBefore) }

def updateUserClaimColl (event : Event) (borrower : Address) (collSurplus : ℕ) (s : Store) :
    Option Store := do
  let (user, s) := getUser borrower s
  let newCollSurplus := decimalize normalized collSurplus
  if newCollSurplus = user.collSurplus then
    return s
  else
    let (start, s) ← createChange (getTransaction normalized) event s
    let collSurplusChange :=
      describeCollSurplusChange normalized borrower user.collSurplus newCollSurplus
    let s := updateSystemStateByCollSurplusChange normalized collSurplusChange s
    let s := finishCollSurplusChange start collSurplusChange s
    return s.saveUser borrower { user with collSurplus := newCollSurplus }

def Store.currentLiquidationOrNull (s : Store) : Option (I32 × Liquidation) := do
  let id ← (getGlobal s).currentLiquidation
  let entity ← s.liquidations.lookup id
  return (id, entity)

def getCurrentLiquidation (event : Event) (s : Store) : Option ((I32 × Liquidation) × Store) :=
  match s.currentLiquidationOrNull with
  | some currentLiquidation => some (currentLiquidation, s)
  | none => do
    let (sequenceNumber, s) := getLiquidationSequenceNumber s
    let (transaction, s) ← getTransaction normalized event s
    let (_, s) := getUser event.transactionFrom s
    let newLiquidation : Liquidation :=
      { sequenceNumber, transaction := transaction.id, liquidator := event.transactionFrom }
    let s := { s with liquidations := s.liquidations.insert sequenceNumber newLiquidation }
    let s := s.saveGlobal { getGlobal s with currentLiquidation := some sequenceNumber }
    return ((sequenceNumber, newLiquidation), s)

def finishCurrentLiquidation (event : Event)
    (liquidatedColl liquidatedDebt collGasCompensation BPDGasCompensation : ℕ) (s : Store) :
    Option Store := do
  let ((id, currentLiquidation), s) ← getCurrentLiquidation normalized event s
  let s := { s with liquidations := s.liquidations.insert id { currentLiquidation with
    liquidatedCollateral := decimalize normalized liquidatedColl
    liquidatedDebt := decimalize normalized liquidatedDebt
    collGasCompensation := decimalize normalized collGasCompensation
    tokenGasCompensation := decimalize normalized BPDGasCompensation } }
  return s.saveGlobal { getGlobal s with currentLiquidation := none }

def Store.currentRedemptionOrNull (s : Store) : Option (I32 × Redemption) := do
  let id ← (getGlobal s).currentRedemption
  let entity ← s.redemptions.lookup id
  return (id, entity)

def getCurrentRedemption (event : Event) (s : Store) : Option ((I32 × Redemption) × Store) :=
  match s.currentRedemptionOrNull with
  | some currentRedemption => some (currentRedemption, s)
  | none => do
    let (sequenceNumber, s) := getRedemptionSequenceNumber s
    let (transaction, s) ← getTransaction normalized event s
    let (_, s) := getUser event.transactionFrom s
    let newRedemption : Redemption :=
      { sequenceNumber, transaction := transaction.id, redeemer := event.transactionFrom }
    let s := { s with redemptions := s.redemptions.insert sequenceNumber newRedemption }
    let s := s.saveGlobal { getGlobal s with currentRedemption := some sequenceNumber }
    return ((sequenceNumber, newRedemption), s)

def finishCurrentRedemption (event : Event) (attemptedBPDAmount actualBPDAmount RBTCSent : ℕ)
    (s : Store) : Option Store := do
  let ((id, currentRedemption), s) ← getCurrentRedemption normalized event s
  let s := { s with redemptions := s.redemptions.insert id { currentRedemption with
    tokensAttemptedToRedeem := decimalize normalized attemptedBPDAmount
    tokensActuallyRedeemed := decimalize normalized actualBPDAmount
    collateralRedeemed := decimalize normalized RBTCSent
    partly := actualBPDAmount < attemptedBPDAmount } }
  return s.saveGlobal { getGlobal s with currentRedemption := none }

/-- A new vault is entered with its owner, but it is only saved with its first change. -/
def getCurrentVaultOfOwner (user : Address) (s : Store) : Option (Vault × Store) :=
  let (owner, s) := getUser user s
  match owner.currentVault with
  | none =>
    let id := SubId.mk user owner.vaultCount
    let s := s.saveUser user
      { owner with vaultCount := owner.vaultCount + 1, currentVault := some id }
    some ({ id, owner := user }, increaseNumberOfOpenVaults s)
  | some currentVault => do
    let currentVault ← s.vaults.lookup currentVault
    return (currentVault, s)

def closeCurrentVaultOfOwner (user : Address) (s : Store) : Store :=
  let (owner, s) := getUser user s
  s.saveUser user { owner with currentVault := none }

/-- The liquidation that a change belongs to, if the operation is one. -/
def linkLiquidation (event : Event) (operation : VaultOperation) (s : Store) :
    Option (Option I32 × Store) :=
  if isLiquidation operation then do
    let (currentLiquidation, s) ← getCurrentLiquidation normalized event s
    return (some currentLiquidation.1, s)
  else
    some (none, s)

/-- The redemption that a change belongs to, if the operation is one. -/
def linkRedemption (event : Event) (operation : VaultOperation) (s : Store) :
    Option (Option I32 × Store) :=
  if isRedemption operation then do
    let (currentRedemption, s) ← getCurrentRedemption normalized event s
    return (some currentRedemption.1, s)
  else
    some (none, s)

/-- The fields of the change from the vault as it was. -/
def describeVaultChange (vault : Vault) (operation : VaultOperation)
    (newCollateral newDebt price : ℚ) (liquidation redemption : Option I32) : VaultDetails :=
  { vault := vault.id
    vaultOperation := operation
    collateralBefore := vault.collateral
    debtBefore := vault.debt
    collateralRatioBefore := calculateCollateralRatio normalized vault.collateral vault.debt price
    collateralAfter := newCollateral
    debtAfter := newDebt
    collateralRatioAfter := calculateCollateralRatio normalized newCollateral newDebt price
    collateralChange := normalized (newCollateral - vault.collateral)
    debtChange := normalized (newDebt - vault.debt)
    liquidation
    redemption }

/-- The values of the vault that the contract works with. -/
def Vault.setRaw (vault : Vault) (coll debt stake snapshotRBTC snapshotBPDDebt : ℕ) : Vault :=
  { vault with
    rawCollateral := coll
    rawDebt := debt
    rawStake := stake
    rawSnapshotOfTotalRedistributedCollateral := snapshotRBTC
    rawSnapshotOfTotalRedistributedDebt := snapshotBPDDebt
    collateralRatioSortKey :=
      if stake = 0 then none
      else some ((debt * 10 ^ 18 / stake : ℕ) - (snapshotBPDDebt : ℤ)) }

def closeVault (operation : VaultOperation) (borrower : Address) (vault : Vault) (s : Store) :
    Vault × Store :=
  let s := closeCurrentVaultOfOwner borrower s
  if isLiquidation operation then
    ({ vault with status := .closedByLiquidation }, increaseNumberOfLiquidatedVaults s)
  else if isRedemption operation then
    ({ vault with status := .closedByRedemption }, increaseNumberOfRedeemedVaults s)
  else
    ({ vault with status := .closedByOwner }, increaseNumberOfVaultsClosedByOwner s)

def updateVault (event : Event) (operation : VaultOperation) (borrower : Address)
    (coll debt stake snapshotRBTC snapshotBPDDebt : ℕ) (s : Store) : Option Store := do
  let (vault, s) ← getCurrentVaultOfOwner borrower s
  let newCollateral := decimalize normalized coll
  let newDebt := decimalize normalized debt
  if newCollateral = vault.collateral ∧ newDebt = vault.debt then
    return s
  else
    let (start, s) ← createChange (getTransaction normalized) event s
    let (price, s) := getCurrentPrice s
    let (liquidation, s) ← linkLiquidation normalized event operation s
    let (redemption, s) ← linkRedemption normalized event operation s
    let vaultChange := describeVaultChange normalized vault operation newCollateral newDebt price
      liquidation redemption
    let s ← updateSystemStateByVaultChange normalized vaultChange s
    let s := finishVaultChange start vaultChange s
    let vault := { vault with collateral := newCollateral, debt := newDebt }
    let vault := vault.setRaw coll debt stake snapshotRBTC snapshotBPDDebt
    let (vault, s) := if coll = 0 then closeVault operation borrower vault s else (vault, s)
    return { s with vaults := s.vaults.insert vault.id vault }

def getCurrentStabilityDepositOfOwner (user : Address) (s : Store) :
    Option StabilityDeposit × Store :=
  let (owner, s) := getUser user s
  (owner.currentStabilityDeposit.bind s.stabilityDeposits.lookup, s)

def openNewStabilityDepositForOwner (user : Address) (s : Store) : StabilityDeposit × Store :=
  let (owner, s) := getUser user s
  let id := SubId.mk user owner.stabilityDepositCount
  let s := s.saveUser user
    { owner with
      stabilityDepositCount := owner.stabilityDepositCount + 1
      currentStabilityDeposit := some id }
  ({ id, owner := user }, s)

def closeCurrentStabilityDepositOfOwner (user : Address) (s : Store) : Store :=
  let (owner, s) := getUser user s
  s.saveUser user { owner with currentStabilityDeposit := none }

def describeStabilityDepositChange (stabilityDeposit : StabilityDeposit)
    (operation : StabilityDepositOperation) (newDepositedAmount : ℚ) (collateralGain : Option ℚ) :
    StabilityDepositDetails :=
  { stabilityDeposit := stabilityDeposit.id
    stabilityDepositOperation := operation
    depositedAmountBefore := stabilityDeposit.depositedAmount
    depositedAmountAfter := newDepositedAmount
    depositedAmountChange := normalized (newDepositedAmount - stabilityDeposit.depositedAmount)
    collateralGain }

def updateStabilityDepositByOperation (event : Event) (stabilityDeposit : StabilityDeposit)
    (operation : StabilityDepositOperation) (newDepositedAmount : ℚ) (collateralGain : Option ℚ)
    (s : Store) : Option (StabilityDeposit × Store) := do
  let (start, s) ← createChange (getTransaction normalized) event s
  let stabilityDepositChange := describeStabilityDepositChange normalized stabilityDeposit operation
    newDepositedAmount collateralGain
  let s := updateSystemStateByStabilityDepositChange normalized stabilityDepositChange s
  let s := finishStabilityDepositChange start stabilityDepositChange s
  return ({ stabilityDeposit with depositedAmount := newDepositedAmount }, s)

/-- Closes the deposit if nothing is left in it, and saves it. -/
def Store.saveStabilityDeposit (user : Address) (stabilityDeposit : StabilityDeposit) (s : Store) :
    Store :=
  let s :=
    if stabilityDeposit.depositedAmount = 0 then closeCurrentStabilityDepositOfOwner user s else s
  { s with
    stabilityDeposits := s.stabilityDeposits.insert stabilityDeposit.id stabilityDeposit }

def updateStabilityDeposit (event : Event) (user : Address) (amount : ℕ) (s : Store) :
    Option Store := do
  let (stabilityDepositOrNull, s) := getCurrentStabilityDepositOfOwner user s
  let newDepositedAmount := decimalize normalized amount
  -- It means user only wanted to withdraw collateral gains.
  if newDepositedAmount = (stabilityDepositOrNull.map (·.depositedAmount)).getD 0 then
    return s
  else
    let (stabilityDeposit, s) :=
      match stabilityDepositOrNull with
      | some stabilityDeposit => (stabilityDeposit, s)
      | none => openNewStabilityDepositForOwner user s
    let operation :=
      if stabilityDeposit.depositedAmount < newDepositedAmount then .depositTokens
      else .withdrawTokens
    let (stabilityDeposit, s) ← updateStabilityDepositByOperation normalized event stabilityDeposit
      operation newDepositedAmount none s
    return s.saveStabilityDeposit user stabilityDeposit

def withdrawCollateralGainFromStabilityDeposit (event : Event) (user : Address)
    (RBTC BPDLoss : ℕ) (s : Store) : Option Store := do
  if RBTC = 0 ∧ BPDLoss = 0 then
    -- Ignore "NOP" event
    return s
  else
    let (stabilityDepositOrNull, s) := getCurrentStabilityDepositOfOwner user s
    let stabilityDeposit ← stabilityDepositOrNull
    let depositLoss := decimalize normalized BPDLoss
    let newDepositedAmount := normalized (stabilityDeposit.depositedAmount - depositLoss)
    let (stabilityDeposit, s) ← updateStabilityDepositByOperation normalized event stabilityDeposit
      .withdrawCollateralGain newDepositedAmount (some (decimalize normalized RBTC)) s
    return s.saveStabilityDeposit user stabilityDeposit

/-- The events that the data sources hand over, with their parameters. -/
inductive Params where
  | priceFeedAddressChanged (newPriceFeedAddress : Address)
  | vaultUpdatedByBorrower (borrower : Address) (debt coll stake : ℕ)
      (operation : BorrowerOperation)
  | vaultUpdatedByManager (borrower : Address) (debt coll stake : ℕ)
      (operation : VaultManagerOperation)
  | vaultLiquidated (borrower : Address) (debt coll : ℕ) (operation : VaultManagerOperation)
  | liquidation (liquidatedDebt liquidatedColl collGasCompensation BPDGasCompensation : ℕ)
  | redemption (attemptedBPDAmount actualBPDAmount RBTCSent RBTCFee : ℕ)
  | userDepositChanged (depositor : Address) (newDeposit : ℕ)
  | RBTCGainWithdrawn (depositor : Address) (RBTC BPDLoss : ℕ)
  | collBalanceUpdated (account : Address) (newBalance : ℕ)

def handleVaultLiquidated (event : Event) (borrower : Address) (debt coll : ℕ)
    (operation : VaultManagerOperation) (s : Store) : Option Store := do
  let s ← updateVault normalized event .accrueRewards borrower coll debt 0 0 0 s
  updateVault normalized event (getVaultOperationFromVaultManagerOperation operation) borrower
    0 0 0 0 0 s

def handleLiquidation (event : Event)
    (liquidatedDebt liquidatedColl collGasCompensation BPDGasCompensation : ℕ) (s : Store) :
    Option Store := do
  let s ← finishCurrentLiquidation normalized event liquidatedColl liquidatedDebt
    collGasCompensation BPDGasCompensation s
  return updateTotalRedistributed event.B_RBTC event.B_BPDDebt s

def handle (s : Store) (log : Event × Params) : Option Store :=
  let event := log.1
  match log.2 with
  | .priceFeedAddressChanged newPriceFeedAddress =>
    some (updatePriceFeedAddress newPriceFeedAddress s)
  | .vaultUpdatedByBorrower borrower debt coll stake operation =>
    updateVault normalized event (getVaultOperationFromBorrowerOperation operation) borrower
      coll debt stake (event.rewardSnapshots borrower).1 (event.rewardSnapshots borrower).2 s
  | .vaultUpdatedByManager borrower debt coll stake operation =>
    updateVault normalized event (getVaultOperationFromVaultManagerOperation operation) borrower
      coll debt stake (event.rewardSnapshots borrower).1 (event.rewardSnapshots borrower).2 s
  | .vaultLiquidated borrower debt coll operation =>
    handleVaultLiquidated normalized event borrower debt coll operation s
  | .liquidation liquidatedDebt liquidatedColl collGasCompensation BPDGasCompensation =>
    handleLiquidation normalized event liquidatedDebt liquidatedColl collGasCompensation
      BPDGasCompensation s
  | .redemption attemptedBPDAmount actualBPDAmount RBTCSent _ =>
    finishCurrentRedemption normalized event attemptedBPDAmount actualBPDAmount RBTCSent s
  | .userDepositChanged depositor newDeposit =>
    updateStabilityDeposit normalized event depositor newDeposit s
  | .RBTCGainWithdrawn depositor RBTC BPDLoss =>
    withdrawCollateralGainFromStabilityDeposit normalized event depositor RBTC BPDLoss s
  | .collBalanceUpdated account newBalance =>
    updateUserClaimColl normalized event account newBalance s

/-- The handlers run on one event after another. -/
def run (log : List (Event × Params)) (s : Store) : Option Store :=
  log.foldlM (handle normalized) s

end MoneyProtocol.Subgraph
