import MoneyProtocol.Contracts.StabilityPool

/-!
# Recycling gains

The functions of `BorrowerWrappersScript` that put claimed RBTC into the caller's vault and
borrow against it. A script runs in the account of its caller, `self`.
-/

namespace MoneyProtocol.BorrowerWrappersScript

open Outcome MoneypMath

def requireUserHasVault (depositor : Address) (s : State) : Outcome Unit :=
  require ((s.vault depositor).status = .active)
    "BorrowerWrappersScript: caller must have an active vault"

/-- What can be borrowed against the collateral, the fee aside, at the ratio of the vault. -/
def getNetBPDAmount (block : Block) (self : Address) (collateral : ℕ) (s : State) :
    Outcome (ℕ × State) := do
  let (price, s) ← PriceFeed.fetchPrice block s
  let ICR ← VaultManager.getCurrentICR self price s
  let value ← SafeMath.mul collateral price
  let BPDAmount ← SafeMath.div value ICR
  let borrowingRate ← VaultManager.getBorrowingRateWithDecay block s
  let scaled ← SafeMath.mul BPDAmount DECIMAL_PRECISION
  let denominator ← SafeMath.add DECIMAL_PRECISION borrowingRate
  let netDebt ← SafeMath.div scaled denominator
  return (netDebt, s)

/-- The steps that both functions take with what they have claimed. -/
def topUpVault (d : Deployment) (block : Block) (self : Address) (claimed maxFee : ℕ)
    (upperHint lowerHint : Address) (s : State) : Outcome (ℕ × State) := do
  requireUserHasVault self s
  let (BPDAmount, s) ← getNetBPDAmount block self claimed s
  let s ← transferRBTC self d.borrowerOperations claimed s
  let s ← BorrowerOperations.adjustVault d block self claimed
    ⟨0, BPDAmount, true, upperHint, lowerHint, maxFee⟩ s
  return (BPDAmount, s)

/-- MP that were claimed are staked. -/
def stakeClaimed (d : Deployment) (block : Block) (self : Address) (mpBalanceBefore
    mpBalanceAfter : ℕ) (s : State) : Outcome State := do
  let claimedMP ← SafeMath.sub mpBalanceAfter mpBalanceBefore
  if claimedMP > 0 then MPStaking.stake d block self claimedMP s else return s

def claimSPRewardsAndRecycle (d : Deployment) (block : Block) (self : Address) (maxFee : ℕ)
    (upperHint lowerHint : Address) (s : State) : Outcome State := do
  let collBalanceBefore := s.rbtc self
  let mpBalanceBefore := s.mpToken.balances self
  let s ← StabilityPool.withdrawFromSP d block self 0 s
  let collBalanceAfter := s.rbtc self
  let mpBalanceAfter := s.mpToken.balances self
  let claimedCollateral ← SafeMath.sub collBalanceAfter collBalanceBefore
  let s ← (if claimedCollateral > 0 then do
      let (BPDAmount, s) ← topUpVault d block self claimedCollateral maxFee upperHint lowerHint s
      if BPDAmount > 0 then StabilityPool.provideToSP d block self BPDAmount 0 s else return s
    else return s)
  stakeClaimed d block self mpBalanceBefore mpBalanceAfter s

def claimStakingGainsAndRecycle (d : Deployment) (block : Block) (self : Address) (maxFee : ℕ)
    (upperHint lowerHint : Address) (s : State) : Outcome State := do
  let collBalanceBefore := s.rbtc self
  let bpdBalanceBefore := s.bpdToken.balances self
  let mpBalanceBefore := s.mpToken.balances self
  let s ← MPStaking.unstake d block self 0 s
  let gainedCollateral ← SafeMath.sub (s.rbtc self) collBalanceBefore
  let gainedBPD ← SafeMath.sub (s.bpdToken.balances self) bpdBalanceBefore
  let (netBPDAmount, s) ← (if gainedCollateral > 0 then
      topUpVault d block self gainedCollateral maxFee upperHint lowerHint s
    else return (0, s))
  let totalBPD ← SafeMath.add gainedBPD netBPDAmount
  if totalBPD > 0 then do
    let s ← StabilityPool.provideToSP d block self totalBPD 0 s
    -- the pool has paid its MP
    stakeClaimed d block self mpBalanceBefore (s.mpToken.balances self) s
  else return s

end MoneyProtocol.BorrowerWrappersScript
