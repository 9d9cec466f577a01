import MoneyProtocol.Subgraph.Entities

/-!
# Transactions, changes and system states

The first change of a transaction pre-creates the transaction, and with it a change of the price
if the price feed gives another one: `getTransaction` makes a change itself, which asks for the
transaction again and finds it. The functions that make a change therefore take the function that
gets the transaction; `getTransaction` is their fixed point, reached at the second level.

A handler that reads an entity that does not exist, asks a contract that reverts or converts a
number that is out of reach does not finish.
-/

namespace MoneyProtocol.Subgraph

variable (normalized : ℚ → ℚ)

def newSystemState (sequenceNumber : I32) : SystemState :=
  { sequenceNumber
    price := DECIMAL_INITIAL_PRICE
    totalCollateral := 0
    totalDebt := 0
    tokensInStabilityPool := 0
    collSurplusPoolBalance := 0 }

/-- Saves the system state, and makes it the current one. -/
def Store.setCurrentSystemState (systemState : SystemState) (s : Store) : Store :=
  let s := { s with
    systemStates := s.systemStates.insert systemState.sequenceNumber systemState }
  s.saveGlobal { getGlobal s with currentSystemState := some systemState.sequenceNumber }

def getCurrentSystemState (s : Store) : SystemState × Store :=
  match (getGlobal s).currentSystemState.bind s.systemStates.lookup with
  | some systemState => (systemState, s)
  | none =>
    let (sequenceNumber, s) := getSystemStateSequenceNumber s
    (newSystemState sequenceNumber, s.setCurrentSystemState (newSystemState sequenceNumber))

def bumpSystemState (systemState : SystemState) (s : Store) : Store :=
  let (sequenceNumber, s) := getSystemStateSequenceNumber s
  s.setCurrentSystemState { systemState with sequenceNumber }

def getCurrentPrice (s : Store) : ℚ × Store :=
  let (systemState, s) := getCurrentSystemState s
  (systemState.price, s)

section Changes

variable (getTransaction : Event → Store → Option (Transaction × Store))

def beginChange (event : Event) (s : Store) : Option (I32 × Store) := do
  let (_, s) ← getTransaction event s
  return getChangeSequenceNumber s

def initChange (event : Event) (sequenceNumber : I32) (s : Store) :
    Option (ChangeStart × Store) := do
  let (transaction, s) ← getTransaction event s
  let (systemState, s) := getCurrentSystemState s
  return (⟨sequenceNumber, transaction.id, systemState.sequenceNumber⟩, s)

/-- The four types of changes are created in the same way. -/
def createChange (event : Event) (s : Store) : Option (ChangeStart × Store) := do
  let (sequenceNumber, s) ← beginChange getTransaction event s
  initChange getTransaction event sequenceNumber s

def finishChange {Details : Type} (start : ChangeStart) (details : Details) (s : Store) :
    Change Details × Store :=
  let (systemState, s) := getCurrentSystemState s
  ({ start with systemStateAfter := systemState.sequenceNumber, details }, s)

def finishPriceChange (start : ChangeStart) (details : PriceDetails) (s : Store) : Store :=
  let (change, s) := finishChange start details s
  { s with priceChanges := s.priceChanges.insert change.sequenceNumber change }

def finishVaultChange (start : ChangeStart) (details : VaultDetails) (s : Store) : Store :=
  let (change, s) := finishChange start details s
  { s with vaultChanges := s.vaultChanges.insert change.sequenceNumber change }

def finishStabilityDepositChange (start : ChangeStart) (details : StabilityDepositDetails)
    (s : Store) : Store :=
  let (change, s) := finishChange start details s
  { s with
    stabilityDepositChanges := s.stabilityDepositChanges.insert change.sequenceNumber change }

def finishCollSurplusChange (start : ChangeStart) (details : CollSurplusDetails) (s : Store) :
    Store :=
  let (change, s) := finishChange start details s
  { s with collSurplusChanges := s.collSurplusChanges.insert change.sequenceNumber change }

def checkPrice (event : Event) (s : Store) : Option Store := do
  let (systemState, s) := getCurrentSystemState s
  let priceFeedAddress ← (getGlobal s).priceFeedAddress
  let newPrice := decimalize normalized (← event.fetchPrice priceFeedAddress)
  if newPrice = systemState.price then
    return s
  else
    let (start, s) ← createChange getTransaction event s
    let s := bumpSystemState { systemState with price := newPrice } s
    return finishPriceChange start ⟨normalized (newPrice - systemState.price)⟩ s

end Changes

def getTransactionWithin : ℕ → Event → Store → Option (Transaction × Store)
  | 0, _, _ => none
  | depth + 1, event, s =>
    match s.transactions.lookup event.transactionHash with
    | some transaction => some (transaction, s)
    | none => do
      let (sequenceNumber, s) := getTransactionSequenceNumber s
      let blockNumber ← toI32 event.blockNumber
      let timestamp ← toI32 event.blockTimestamp
      let newTransaction : Transaction :=
        ⟨event.transactionHash, sequenceNumber, blockNumber, timestamp⟩
      let s := { s with
        transactions := s.transactions.insert event.transactionHash newTransaction }
      let s ← checkPrice normalized (getTransactionWithin depth) event s
      return (newTransaction, s)

def getTransaction : Event → Store → Option (Transaction × Store) :=
  getTransactionWithin normalized 2

def tryToOffsetWithTokensFromStabilityPool (systemState : SystemState)
    (collateralToLiquidate debtToLiquidate : ℚ) : SystemState :=
  if debtToLiquidate ≤ systemState.tokensInStabilityPool then
    -- Completely offset
    { systemState with
      totalCollateral := normalized (systemState.totalCollateral - collateralToLiquidate)
      totalDebt := normalized (systemState.totalDebt - debtToLiquidate)
      tokensInStabilityPool := normalized (systemState.tokensInStabilityPool - debtToLiquidate) }
  else if 0 < systemState.tokensInStabilityPool then
    -- Partially offset, emptying the pool
    { systemState with
      totalCollateral := normalized (systemState.totalCollateral -
        normalized (normalized (collateralToLiquidate * systemState.tokensInStabilityPool) /
          debtToLiquidate))
      totalDebt := normalized (systemState.totalDebt - systemState.tokensInStabilityPool)
      tokensInStabilityPool := 0 }
  else
    systemState

/-- The totals after a liquidation; a missing ratio cannot be compared with one. -/
def SystemState.offset (systemState : SystemState) (vaultChange : VaultDetails) :
    Option SystemState :=
  let offsets := some (tryToOffsetWithTokensFromStabilityPool normalized systemState
    (normalized (0 - vaultChange.collateralChange)) (normalized (0 - vaultChange.debtChange)))
  if !isRecoveryModeLiquidation vaultChange.vaultOperation then offsets
  else
    match vaultChange.collateralRatioBefore with
    | none => none
    | some ratio => if 1 < ratio then offsets else some systemState

/-- The totals after a change of a vault. -/
def SystemState.withTotals (systemState : SystemState) (vaultChange : VaultDetails) :
    Option SystemState :=
  let operation := vaultChange.vaultOperation
  if isBorrowerOperation operation || isRedemption operation then
    some { systemState with
      totalCollateral := normalized (systemState.totalCollateral + vaultChange.collateralChange)
      totalDebt := normalized (systemState.totalDebt + vaultChange.debtChange) }
  else if isLiquidation operation then
    systemState.offset normalized vaultChange
  else
    some systemState

def SystemState.withVaultChange (systemState : SystemState) (vaultChange : VaultDetails) :
    Option SystemState := do
  let systemState ← systemState.withTotals normalized vaultChange
  return { systemState with
    totalCollateralRatio := calculateCollateralRatio normalized systemState.totalCollateral
      systemState.totalDebt systemState.price }

def updateSystemStateByVaultChange (vaultChange : VaultDetails) (s : Store) : Option Store := do
  let (systemState, s) := getCurrentSystemState s
  let systemState ← systemState.withVaultChange normalized vaultChange
  return bumpSystemState systemState s

def SystemState.withStabilityDepositChange (systemState : SystemState)
    (stabilityDepositChange : StabilityDepositDetails) : SystemState :=
  match stabilityDepositChange.stabilityDepositOperation with
  | .depositTokens | .withdrawTokens =>
    { systemState with
      tokensInStabilityPool := normalized
        (systemState.tokensInStabilityPool + stabilityDepositChange.depositedAmountChange) }
  | .withdrawCollateralGain => systemState

def updateSystemStateByStabilityDepositChange (stabilityDepositChange : StabilityDepositDetails)
    (s : Store) : Store :=
  let (systemState, s) := getCurrentSystemState s
  bumpSystemState (systemState.withStabilityDepositChange normalized stabilityDepositChange) s

def SystemState.withCollSurplusChange (systemState : SystemState)
    (collSurplusChange : CollSurplusDetails) : SystemState :=
  { systemState with
    collSurplusPoolBalance := normalized
      (systemState.collSurplusPoolBalance + collSurplusChange.collSurplusChange) }

def updateSystemStateByCollSurplusChange (collSurplusChange : CollSurplusDetails) (s : Store) :
    Store :=
  let (systemState, s) := getCurrentSystemState s
  bumpSystemState (systemState.withCollSurplusChange normalized collSurplusChange) s

end MoneyProtocol.Subgraph
