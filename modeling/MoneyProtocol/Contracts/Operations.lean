import MoneyProtocol.Contracts.Redemption
import Mathlib.Logic.Relation

/-!
# Top-level operations and runs of the system

Everything an outside account can do to the system in one transaction, the state a
deployment starts from, and the states that transactions reach. The block a transaction
runs in is arbitrary, so prices and clocks are unconstrained.
-/

namespace MoneyProtocol

open Outcome VaultManager

inductive Operation where
  | openVault (maxFeePercentage BPDAmount : ℕ) (upperHint lowerHint : Address)
  | addColl (upperHint lowerHint : Address)
  | withdrawColl (collWithdrawal : ℕ) (upperHint lowerHint : Address)
  | withdrawBPD (maxFeePercentage BPDAmount : ℕ) (upperHint lowerHint : Address)
  | repayBPD (BPDAmount : ℕ) (upperHint lowerHint : Address)
  | adjustVault (a : BorrowerOperations.Adjustment)
  | closeVault
  | claimCollateral
  | liquidate (borrower : Address)
  | liquidateVaults (n : ℕ)
  | batchLiquidateVaults (vaultArray : List Address)
  | redeemCollateral (BPDamount : ℕ) (hints : RedemptionHints)
      (maxIterations maxFeePercentage : ℕ)
  | provideToSP (amount : ℕ) (frontEndTag : Address)
  | withdrawFromSP (amount : ℕ)
  | withdrawRBTCGainToVault (upperHint lowerHint : Address)
  | registerFrontEnd (kickbackRate : ℕ)
  | transfer (recipient : Address) (amount : ℕ)
  | approve (spender : Address) (amount : ℕ)
  | transferFrom (sender recipient : Address) (amount : ℕ)
  | increaseAllowance (spender : Address) (addedValue : ℕ)
  | decreaseAllowance (spender : Address) (subtractedValue : ℕ)
  | permit (recoveredAddress owner spender : Address) (amount deadline : ℕ)
  | stake (MPamount : ℕ)
  | unstake (MPamount : ℕ)
  | fetchPrice
  | sendRBTC (recipient : Address)

/-- A signed transaction in its block. -/
structure Transaction where
  block : Block
  sender : Address
  value : ℕ
  operation : Operation

/-- A payable function of BorrowerOperations: the value arrives before the code runs. -/
def payable (d : Deployment) (t : Transaction) (f : State → Outcome State) (s : State) :
    Outcome State := do
  let s ← transferRBTC t.sender d.borrowerOperations t.value s
  f s

/-- A function that is not payable reverts when it is sent RBTC. -/
def nonPayable (t : Transaction) (f : State → Outcome State) (s : State) : Outcome State := do
  require (t.value = 0) ""
  f s

def transact (d : Deployment) (t : Transaction) (s : State) : Outcome State :=
  match t.operation with
  | .openVault maxFeePercentage BPDAmount upperHint lowerHint =>
    payable d t (BorrowerOperations.openVault d t.block t.sender t.value maxFeePercentage
      BPDAmount upperHint lowerHint) s
  | .addColl upperHint lowerHint =>
    payable d t (BorrowerOperations.addColl d t.block t.sender t.value upperHint lowerHint) s
  | .adjustVault a =>
    payable d t (BorrowerOperations.adjustVault d t.block t.sender t.value a) s
  | .withdrawColl collWithdrawal upperHint lowerHint =>
    nonPayable t (BorrowerOperations.withdrawColl d t.block t.sender collWithdrawal upperHint
      lowerHint) s
  | .withdrawBPD maxFeePercentage BPDAmount upperHint lowerHint =>
    nonPayable t (BorrowerOperations.withdrawBPDFromVault d t.block t.sender maxFeePercentage
      BPDAmount upperHint lowerHint) s
  | .repayBPD BPDAmount upperHint lowerHint =>
    nonPayable t (BorrowerOperations.repayBPDToVault d t.block t.sender BPDAmount upperHint
      lowerHint) s
  | .closeVault => nonPayable t (BorrowerOperations.closeVault d t.block t.sender) s
  | .claimCollateral => nonPayable t (BorrowerOperations.claimCollateral d t.sender) s
  | .liquidate borrower => nonPayable t (liquidate d t.block t.sender borrower) s
  | .liquidateVaults n => nonPayable t (liquidateVaults d t.block t.sender n) s
  | .batchLiquidateVaults vaultArray =>
    nonPayable t (batchLiquidateVaults d t.block t.sender vaultArray) s
  | .redeemCollateral BPDamount hints maxIterations maxFeePercentage =>
    nonPayable t (redeemCollateral d t.block t.sender BPDamount hints maxIterations
      maxFeePercentage) s
  | .provideToSP amount frontEndTag =>
    nonPayable t (StabilityPool.provideToSP d t.block t.sender amount frontEndTag) s
  | .withdrawFromSP amount =>
    nonPayable t (StabilityPool.withdrawFromSP d t.block t.sender amount) s
  | .withdrawRBTCGainToVault upperHint lowerHint =>
    nonPayable t (StabilityPool.withdrawRBTCGainToVault d t.block t.sender upperHint
      lowerHint) s
  | .registerFrontEnd kickbackRate =>
    nonPayable t (StabilityPool.registerFrontEnd t.sender kickbackRate) s
  | .transfer recipient amount =>
    nonPayable t (BPDToken.transfer d t.sender recipient amount) s
  | .approve spender amount => nonPayable t (BPDToken.approve t.sender spender amount) s
  | .transferFrom sender recipient amount =>
    nonPayable t (BPDToken.transferFrom d t.sender sender recipient amount) s
  | .increaseAllowance spender addedValue =>
    nonPayable t (BPDToken.increaseAllowance t.sender spender addedValue) s
  | .decreaseAllowance spender subtractedValue =>
    nonPayable t (BPDToken.decreaseAllowance t.sender spender subtractedValue) s
  | .permit recoveredAddress owner spender amount deadline =>
    nonPayable t (BPDToken.permit t.block recoveredAddress owner spender amount deadline) s
  | .stake MPamount => nonPayable t (MPStaking.stake d t.block t.sender MPamount) s
  | .unstake MPamount => nonPayable t (MPStaking.unstake d t.block t.sender MPamount) s
  | .fetchPrice => nonPayable t (fun s => Prod.snd <$> PriceFeed.fetchPrice t.block s) s
  | .sendRBTC recipient => callWithValue d t.sender recipient t.value s

/-- What a deployment leaves open: who holds the RBTC and the MP, which lockup contracts are
registered, when issuance started, and the price the feeds gave first. RBTC is pegged to
bitcoin, so all of it, 21 million coins of 18 decimals, fits in 85 bits. -/
structure Genesis where
  rbtc : Address → ℕ
  rbtc_lt : ∑ a, rbtc a < 2 ^ 128
  mpToken : MPToken
  deploymentTime : ℕ
  lastGoodPrice : ℕ

/-- The storage right after deployment. -/
def Genesis.state (g : Genesis) : State where
  rbtc := g.rbtc
  activePool := ⟨0, 0⟩
  defaultPool := ⟨0, 0, []⟩
  collSurplusPool := ⟨0, fun _ => 0⟩
  bpdToken := ⟨0, fun _ => 0, fun _ _ => 0, fun _ => 0⟩
  mpToken := g.mpToken
  communityIssuance := ⟨0, g.deploymentTime⟩
  mpStaking := ⟨fun _ => 0, 0, 0, 0, fun _ => ⟨0, 0⟩⟩
  priceFeed := ⟨g.lastGoodPrice⟩
  sortedVaults := ⟨0, 0, 0, fun _ => Node.deleted⟩
  stabilityPool := {
    RBTC := 0
    totalBPDDeposits := 0
    deposits := fun _ => ⟨0, 0⟩
    depositSnapshots := fun _ => Snapshots.deleted
    frontEnds := fun _ => ⟨0, false⟩
    frontEndStakes := fun _ => 0
    frontEndSnapshots := fun _ => Snapshots.deleted
    P := DECIMAL_PRECISION
    currentScale := 0
    currentEpoch := 0
    epochToScaleToSum := fun _ _ => 0
    epochToScaleToG := fun _ _ => 0
    lastMPError := 0
    lastRBTCError_Offset := 0
    lastBPDLossError_Offset := 0 }
  vaultManager := {
    baseRate := 0
    lastFeeOperationTime := 0
    vaults := fun _ => ⟨0, 0, 0, .nonExistent, 0⟩
    totalStakes := 0
    totalStakesSnapshot := 0
    totalCollateralSnapshot := 0
    B_RBTC := 0
    B_BPDDebt := 0
    rewardSnapshots := fun _ => ⟨0, 0⟩
    vaultOwners := []
    lastRBTCError_Redistribution := 0
    lastBPDDebtError_Redistribution := 0 }

/-- Only outside accounts sign: they send the transactions, and `ecrecover` returns one of
them, or zero for a bad signature. -/
def Transaction.Signed (d : Deployment) (t : Transaction) : Prop :=
  d.External t.sender ∧
    match t.operation with
    | .permit recoveredAddress _ _ _ _ => d.External recoveredAddress ∨ recoveredAddress = 0
    | _ => True

/-- One successful transaction. -/
def Step (d : Deployment) (s s' : State) : Prop :=
  ∃ t : Transaction, t.Signed d ∧ transact d t s = .ok s'

/-- The states a run of transactions reaches from deployment. -/
def Reachable (d : Deployment) (s : State) : Prop :=
  ∃ g : Genesis, Relation.ReflTransGen (Step d) g.state s

end MoneyProtocol
