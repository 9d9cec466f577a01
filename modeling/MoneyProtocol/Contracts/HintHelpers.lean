import MoneyProtocol.Contracts.Redemption

/-!
# Hints for a redemption

`getRedemptionHints` of `HintHelpers`: a read-only walk along the vaults that a redemption
would visit. It finds the first one, the ratio that the last one will be left with, and the
amount that can be redeemed without leaving less than the minimum debt there. `getApproxHint`
draws vaults at random, and keeps the one whose ratio is nearest to a given one.
-/

namespace MoneyProtocol.HintHelpers

open Outcome MoneypMath MoneypBase VaultManager

/-- What the walk finds out: the ratio of a vault redeemed in part, or zero, and what is left of
the amount. -/
structure HintWalk where
  partialRedemptionHintNICR : ℕ
  remainingBPD : ℕ

/-- The redemption runs out in the vault, which has `netBPDDebt` to redeem. -/
def hintPartially (price : ℕ) (currentVaultuser : Address) (netBPDDebt remainingBPD : ℕ)
    (s : State) : Outcome HintWalk :=
  if netBPDDebt > MIN_NET_DEBT then do
    let excess ← SafeMath.sub netBPDDebt MIN_NET_DEBT
    let maxRedeemableBPD := min remainingBPD excess
    let pendingRBTC ← getPendingRBTCReward currentVaultuser s
    let RBTC ← SafeMath.add (s.vault currentVaultuser).coll pendingRBTC
    let scaled ← SafeMath.mul maxRedeemableBPD DECIMAL_PRECISION
    let drawn ← SafeMath.div scaled price
    let newColl ← SafeMath.sub RBTC drawn
    let newDebt ← SafeMath.sub netBPDDebt maxRedeemableBPD
    let compositeDebt ← getCompositeDebt newDebt
    let partialRedemptionHintNICR ← computeNominalCR newColl compositeDebt
    let remainingBPD ← SafeMath.sub remainingBPD maxRedeemableBPD
    return ⟨partialRedemptionHintNICR, remainingBPD⟩
  else return ⟨0, remainingBPD⟩

def hintLoop (price : ℕ) (s : State) : ℕ → Address → ℕ → Outcome HintWalk
  | 0, _, remainingBPD => return ⟨0, remainingBPD⟩
  | maxIterations + 1, currentVaultuser, remainingBPD =>
    if currentVaultuser ≠ 0 ∧ remainingBPD > 0 then do
      let netDebt ← getNetDebt (s.vault currentVaultuser).debt
      let pendingBPDDebt ← getPendingBPDDebtReward currentVaultuser s
      let netBPDDebt ← SafeMath.add netDebt pendingBPDDebt
      if netBPDDebt > remainingBPD then
        hintPartially price currentVaultuser netBPDDebt remainingBPD s
      else do
        let remainingBPD ← SafeMath.sub remainingBPD netBPDDebt
        hintLoop price s maxIterations (SortedVaults.getPrev currentVaultuser s.sortedVaults)
          remainingBPD
    else return ⟨0, remainingBPD⟩

structure RedemptionHint where
  firstRedemptionHint : Address
  partialRedemptionHintNICR : ℕ
  truncatedBPDamount : ℕ

def getRedemptionHints (BPDamount price maxIterations : ℕ) (s : State) :
    Outcome RedemptionHint := do
  let firstRedemptionHint ← skipUnderCollateralized price s (s.sortedVaults.size + 1)
    (SortedVaults.getLast s.sortedVaults)
  let maxIterations := if maxIterations = 0 then UINT256_MAX else maxIterations
  let w ← hintLoop price s maxIterations firstRedemptionHint BPDamount
  let truncatedBPDamount ← SafeMath.sub BPDamount w.remainingBPD
  return ⟨firstRedemptionHint, w.partialRedemptionHintNICR, truncatedBPDamount⟩

structure ApproxHint where
  hintAddress : Address
  diff : ℕ
  latestRandomSeed : ℕ

/-- The loop of `getApproxHint`; `keccak256` hashes a word. -/
def approxHintLoop (keccak256 : ℕ → ℕ) (CR : ℕ) (s : State) :
    ℕ → ApproxHint → Outcome ApproxHint
  | 0, hint => return hint
  | rounds + 1, hint => do
    let latestRandomSeed := keccak256 hint.latestRandomSeed
    let arrayIndex := latestRandomSeed % s.vaultManager.vaultOwners.length
    let currentAddress ← getVaultFromVaultOwnersArray arrayIndex s
    let currentNICR ← getNominalICR currentAddress s
    let currentDiff ← getAbsoluteDifference currentNICR CR
    let hint := if currentDiff < hint.diff then ⟨currentAddress, currentDiff, latestRandomSeed⟩
      else { hint with latestRandomSeed := latestRandomSeed }
    approxHintLoop keccak256 CR s rounds hint

/-- The last vault of the list counts as the first trial. -/
def getApproxHint (keccak256 : ℕ → ℕ) (CR numTrials inputRandomSeed : ℕ) (s : State) :
    Outcome ApproxHint :=
  if s.vaultManager.vaultOwners.length = 0 then return ⟨0, 0, inputRandomSeed⟩
  else do
    let hintAddress := SortedVaults.getLast s.sortedVaults
    let NICR ← getNominalICR hintAddress s
    let diff ← getAbsoluteDifference CR NICR
    approxHintLoop keccak256 CR s (numTrials - 1) ⟨hintAddress, diff, inputRandomSeed⟩

end MoneyProtocol.HintHelpers
