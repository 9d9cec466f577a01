import MoneyProtocol.Contracts.State
import MoneyProtocol.Library.I32
import MoneyProtocol.Library.Table
import Mathlib.Data.Rat.Defs

/-!
# The entities of the subgraph

The subgraph reads the events of the contracts and keeps what the frontend asks for: the system
state after every change, the changes themselves, the vaults and the deposits of every user. An
entity that was loaded is a copy, and only `save` writes it back.

Counters, and the numbers that they give, are integers of 32 bits, which wrap around; an id that is
a number is printed from one. The decimals of the graph library have 34 significant digits. How the
result of an operation is rounded to them is not part of this repository, so it is a parameter,
`normalized`.
-/

namespace MoneyProtocol.Subgraph

abbrev TransactionHash := ℕ

section Decimals

variable (normalized : ℚ → ℚ)

def DECIMAL_INITIAL_PRICE : ℚ := 200

def decimalize (bigInt : ℕ) : ℚ := normalized (bigInt / 10 ^ 18)

def calculateCollateralRatio (collateral debt price : ℚ) : Option ℚ :=
  if debt = 0 then none else some (normalized (normalized (collateral * price) / debt))

end Decimals

/-- A big integer of more than 32 bits cannot be converted; the last bit is the sign. -/
def toI32 (bigInt : ℕ) : Option I32 :=
  if bigInt < 2 ^ 32 then some (BitVec.ofNat 32 bigInt) else none

inductive VaultOperation where
  | openVault
  | closeVault
  | adjustVault
  | accrueRewards
  | liquidateInNormalMode
  | liquidateInRecoveryMode
  | redeemCollateral
  deriving DecidableEq

inductive BorrowerOperation where
  | openVault
  | closeVault
  | adjustVault
  deriving DecidableEq

inductive VaultManagerOperation where
  | applyPendingRewards
  | liquidateInNormalMode
  | liquidateInRecoveryMode
  | redeemCollateral
  deriving DecidableEq

def getVaultOperationFromBorrowerOperation : BorrowerOperation → VaultOperation
  | .openVault => .openVault
  | .closeVault => .closeVault
  | .adjustVault => .adjustVault

def getVaultOperationFromVaultManagerOperation : VaultManagerOperation → VaultOperation
  | .applyPendingRewards => .accrueRewards
  | .liquidateInNormalMode => .liquidateInNormalMode
  | .liquidateInRecoveryMode => .liquidateInRecoveryMode
  | .redeemCollateral => .redeemCollateral

def isBorrowerOperation (operation : VaultOperation) : Bool :=
  operation == .openVault || operation == .closeVault || operation == .adjustVault

def isLiquidation (operation : VaultOperation) : Bool :=
  operation == .liquidateInNormalMode || operation == .liquidateInRecoveryMode

def isRecoveryModeLiquidation (operation : VaultOperation) : Bool :=
  operation == .liquidateInRecoveryMode

def isRedemption (operation : VaultOperation) : Bool :=
  operation == .redeemCollateral

/-- The counters that `increaseCounter` finds by their keys. -/
inductive Counter where
  | systemStateCount
  | transactionCount
  | changeCount
  | liquidationCount
  | redemptionCount
  deriving DecidableEq

structure Global where
  priceFeedAddress : Option Address := none
  counter : Counter → I32 := fun _ => 0
  numberOfOpenVaults : I32 := 0
  numberOfLiquidatedVaults : I32 := 0
  numberOfRedeemedVaults : I32 := 0
  numberOfVaultsClosedByOwner : I32 := 0
  totalNumberOfVaults : I32 := 0
  rawTotalRedistributedCollateral : ℕ := 0
  rawTotalRedistributedDebt : ℕ := 0
  currentSystemState : Option I32 := none
  currentLiquidation : Option I32 := none
  currentRedemption : Option I32 := none

/-- The id is the sequence number. -/
structure SystemState where
  sequenceNumber : I32
  price : ℚ
  totalCollateral : ℚ
  totalDebt : ℚ
  totalCollateralRatio : Option ℚ := none
  tokensInStabilityPool : ℚ
  collSurplusPoolBalance : ℚ
  deriving DecidableEq

/-- The id of an owner, a hyphen and a number. -/
structure SubId where
  owner : Address
  number : I32
  deriving DecidableEq

structure User where
  currentVault : Option SubId := none
  vaultCount : I32 := 0
  currentStabilityDeposit : Option SubId := none
  stabilityDepositCount : I32 := 0
  collSurplus : ℚ := 0
  deriving DecidableEq

inductive VaultStatus where
  | open
  | closedByOwner
  | closedByLiquidation
  | closedByRedemption
  deriving DecidableEq

structure Vault where
  id : SubId
  owner : Address
  status : VaultStatus := .open
  collateral : ℚ := 0
  debt : ℚ := 0
  rawCollateral : ℕ := 0
  rawDebt : ℕ := 0
  rawStake : ℕ := 0
  rawSnapshotOfTotalRedistributedCollateral : ℕ := 0
  rawSnapshotOfTotalRedistributedDebt : ℕ := 0
  collateralRatioSortKey : Option ℤ := none
  deriving DecidableEq

structure StabilityDeposit where
  id : SubId
  owner : Address
  depositedAmount : ℚ := 0
  deriving DecidableEq

structure Transaction where
  id : TransactionHash
  sequenceNumber : I32
  blockNumber : I32
  timestamp : I32
  deriving DecidableEq

structure Liquidation where
  sequenceNumber : I32
  transaction : TransactionHash
  liquidator : Address
  liquidatedCollateral : ℚ := 0
  liquidatedDebt : ℚ := 0
  collGasCompensation : ℚ := 0
  tokenGasCompensation : ℚ := 0
  deriving DecidableEq

structure Redemption where
  sequenceNumber : I32
  transaction : TransactionHash
  redeemer : Address
  tokensAttemptedToRedeem : ℚ := 0
  tokensActuallyRedeemed : ℚ := 0
  collateralRedeemed : ℚ := 0
  partly : Bool := false
  deriving DecidableEq

/-- What a change of any type has from its beginning. -/
structure ChangeStart where
  sequenceNumber : I32
  transaction : TransactionHash
  systemStateBefore : I32
  deriving DecidableEq

/-- A change, with what is particular to its type. -/
structure Change (Details : Type) extends ChangeStart where
  systemStateAfter : I32
  details : Details
  deriving DecidableEq

structure PriceDetails where
  priceChange : ℚ
  deriving DecidableEq

structure VaultDetails where
  vault : SubId
  vaultOperation : VaultOperation
  collateralBefore : ℚ
  debtBefore : ℚ
  collateralRatioBefore : Option ℚ
  collateralAfter : ℚ
  debtAfter : ℚ
  collateralRatioAfter : Option ℚ
  collateralChange : ℚ
  debtChange : ℚ
  liquidation : Option I32
  redemption : Option I32
  deriving DecidableEq

inductive StabilityDepositOperation where
  | depositTokens
  | withdrawTokens
  | withdrawCollateralGain
  deriving DecidableEq

structure StabilityDepositDetails where
  stabilityDeposit : SubId
  stabilityDepositOperation : StabilityDepositOperation
  depositedAmountBefore : ℚ
  depositedAmountAfter : ℚ
  depositedAmountChange : ℚ
  collateralGain : Option ℚ
  deriving DecidableEq

structure CollSurplusDetails where
  user : Address
  collSurplusBefore : ℚ
  collSurplusAfter : ℚ
  collSurplusChange : ℚ
  deriving DecidableEq

abbrev PriceChange := Change PriceDetails

abbrev VaultChange := Change VaultDetails

abbrev StabilityDepositChange := Change StabilityDepositDetails

abbrev CollSurplusChange := Change CollSurplusDetails

structure Store where
  only : Option Global := none
  systemStates : Table I32 SystemState := ∅
  transactions : Table TransactionHash Transaction := ∅
  priceChanges : Table I32 PriceChange := ∅
  vaultChanges : Table I32 VaultChange := ∅
  stabilityDepositChanges : Table I32 StabilityDepositChange := ∅
  collSurplusChanges : Table I32 CollSurplusChange := ∅
  users : Table Address User := ∅
  vaults : Table SubId Vault := ∅
  stabilityDeposits : Table SubId StabilityDeposit := ∅
  liquidations : Table I32 Liquidation := ∅
  redemptions : Table I32 Redemption := ∅

/-- The transaction of an event, its block, and what the contracts answer in it. -/
structure Event where
  transactionHash : TransactionHash
  transactionFrom : Address
  blockNumber : ℕ
  blockTimestamp : ℕ
  fetchPrice : Address → Option ℕ
  rewardSnapshots : Address → ℕ × ℕ
  B_RBTC : ℕ
  B_BPDDebt : ℕ

variable {s : Store}

/-- A new one is not saved. -/
def getGlobal (s : Store) : Global := s.only.getD {}

def Store.saveGlobal (s : Store) (newGlobal : Global) : Store := { s with only := some newGlobal }

@[simp] theorem getGlobal_saveGlobal (s : Store) (g : Global) : getGlobal (s.saveGlobal g) = g :=
  rfl

def increaseCounter (key : Counter) (s : Store) : I32 × Store :=
  let count := (getGlobal s).counter key
  (count, s.saveGlobal
    { getGlobal s with counter := Function.update (getGlobal s).counter key (count + 1) })

def getSystemStateSequenceNumber : Store → I32 × Store := increaseCounter .systemStateCount

def getTransactionSequenceNumber : Store → I32 × Store := increaseCounter .transactionCount

def getChangeSequenceNumber : Store → I32 × Store := increaseCounter .changeCount

def getLiquidationSequenceNumber : Store → I32 × Store := increaseCounter .liquidationCount

def getRedemptionSequenceNumber : Store → I32 × Store := increaseCounter .redemptionCount

def updatePriceFeedAddress (priceFeedAddress : Address) (s : Store) : Store :=
  s.saveGlobal { getGlobal s with priceFeedAddress := some priceFeedAddress }

def updateTotalRedistributed (B_RBTC B_BPDDebt : ℕ) (s : Store) : Store :=
  s.saveGlobal { getGlobal s with
    rawTotalRedistributedCollateral := B_RBTC, rawTotalRedistributedDebt := B_BPDDebt }

def increaseNumberOfOpenVaults (s : Store) : Store :=
  s.saveGlobal { getGlobal s with
    numberOfOpenVaults := (getGlobal s).numberOfOpenVaults + 1
    totalNumberOfVaults := (getGlobal s).totalNumberOfVaults + 1 }

def increaseNumberOfLiquidatedVaults (s : Store) : Store :=
  s.saveGlobal { getGlobal s with
    numberOfLiquidatedVaults := (getGlobal s).numberOfLiquidatedVaults + 1
    numberOfOpenVaults := (getGlobal s).numberOfOpenVaults - 1 }

def increaseNumberOfRedeemedVaults (s : Store) : Store :=
  s.saveGlobal { getGlobal s with
    numberOfRedeemedVaults := (getGlobal s).numberOfRedeemedVaults + 1
    numberOfOpenVaults := (getGlobal s).numberOfOpenVaults - 1 }

def increaseNumberOfVaultsClosedByOwner (s : Store) : Store :=
  s.saveGlobal { getGlobal s with
    numberOfVaultsClosedByOwner := (getGlobal s).numberOfVaultsClosedByOwner + 1
    numberOfOpenVaults := (getGlobal s).numberOfOpenVaults - 1 }

end MoneyProtocol.Subgraph
