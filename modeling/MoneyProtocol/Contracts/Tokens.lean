import MoneyProtocol.Contracts.Pools

/-!
# The BPD and MP tokens, MP issuance and MP staking

`BPDToken` with its privileged entry points, the part of `MPToken` that issuance and
staking use, `CommunityIssuance` and `MPStaking`.
-/

namespace MoneyProtocol

open Outcome MoneypMath

namespace BPDToken

def _transfer (sender recipient : Address) (amount : ℕ) (s : State) : Outcome State := do
  assert (sender ≠ 0)
  assert (recipient ≠ 0)
  let senderBalance ← SafeMath.subWith (s.bpdToken.balances sender) amount
    "ERC20: transfer amount exceeds balance"
  let balances := Function.update s.bpdToken.balances sender senderBalance
  let recipientBalance ← SafeMath.add (balances recipient) amount
  return { s with bpdToken := { s.bpdToken with
    balances := Function.update balances recipient recipientBalance } }

def mint (account : Address) (amount : ℕ) (s : State) : Outcome State := do
  assert (account ≠ 0)
  let totalSupply ← SafeMath.add s.bpdToken.totalSupply amount
  let balance ← SafeMath.add (s.bpdToken.balances account) amount
  return { s with bpdToken := { s.bpdToken with
    totalSupply := totalSupply
    balances := Function.update s.bpdToken.balances account balance } }

def burn (account : Address) (amount : ℕ) (s : State) : Outcome State := do
  assert (account ≠ 0)
  let balance ← SafeMath.subWith (s.bpdToken.balances account) amount
    "ERC20: burn amount exceeds balance"
  let totalSupply ← SafeMath.sub s.bpdToken.totalSupply amount
  return { s with bpdToken := { s.bpdToken with
    totalSupply := totalSupply
    balances := Function.update s.bpdToken.balances account balance } }

def sendToPool (sender poolAddress : Address) (amount : ℕ) (s : State) : Outcome State :=
  _transfer sender poolAddress amount s

def returnFromPool (poolAddress receiver : Address) (amount : ℕ) (s : State) : Outcome State :=
  _transfer poolAddress receiver amount s

def requireValidRecipient (d : Deployment) (recipient : Address) : Outcome Unit := do
  require (recipient ≠ 0 ∧ recipient ≠ d.bpdToken)
    "BPD: Cannot transfer tokens directly to the BPD token contract or the zero address"
  require (recipient ≠ d.stabilityPool ∧ recipient ≠ d.vaultManager ∧
      recipient ≠ d.borrowerOperations)
    "BPD: Cannot transfer tokens directly to the StabilityPool, VaultManager or BorrowerOps"

def transfer (d : Deployment) (msgSender recipient : Address) (amount : ℕ) (s : State) :
    Outcome State := do
  requireValidRecipient d recipient
  _transfer msgSender recipient amount s

def _approve (owner spender : Address) (amount : ℕ) (s : State) : Outcome State := do
  assert (owner ≠ 0)
  assert (spender ≠ 0)
  return { s with bpdToken := { s.bpdToken with
    allowances := Function.update s.bpdToken.allowances owner
      (Function.update (s.bpdToken.allowances owner) spender amount) } }

def approve (msgSender spender : Address) (amount : ℕ) (s : State) : Outcome State :=
  _approve msgSender spender amount s

def transferFrom (d : Deployment) (msgSender sender recipient : Address) (amount : ℕ)
    (s : State) : Outcome State := do
  requireValidRecipient d recipient
  let s ← _transfer sender recipient amount s
  let allowance ← SafeMath.subWith (s.bpdToken.allowances sender msgSender) amount
    "ERC20: transfer amount exceeds allowance"
  _approve sender msgSender allowance s

def increaseAllowance (msgSender spender : Address) (addedValue : ℕ) (s : State) :
    Outcome State := do
  let allowance ← SafeMath.add (s.bpdToken.allowances msgSender spender) addedValue
  _approve msgSender spender allowance s

def decreaseAllowance (msgSender spender : Address) (subtractedValue : ℕ) (s : State) :
    Outcome State := do
  let allowance ← SafeMath.subWith (s.bpdToken.allowances msgSender spender) subtractedValue
    "ERC20: decreased allowance below zero"
  _approve msgSender spender allowance s

/-- `recoveredAddress` is what `ecrecover` returns for the digest of the permit. -/
def permit (block : Block) (recoveredAddress owner spender : Address) (amount deadline : ℕ)
    (s : State) : Outcome State := do
  require (deadline ≥ block.timestamp) "BPD: expired deadline"
  let s := { s with bpdToken := { s.bpdToken with
    nonces := Function.update s.bpdToken.nonces owner (s.bpdToken.nonces owner + 1) } }
  require (recoveredAddress = owner) "BPD: invalid signature"
  _approve owner spender amount s

end BPDToken

namespace MPToken

def ONE_YEAR_IN_SECONDS : ℕ := 31536000

def isFirstYear (d : Deployment) (block : Block) : Outcome Bool := do
  let age ← SafeMath.sub block.timestamp d.deploymentStartTime
  return decide (age < ONE_YEAR_IN_SECONDS)

def _transfer (sender recipient : Address) (amount : ℕ) (s : State) : Outcome State := do
  require (sender ≠ 0) "ERC20: transfer from the zero address"
  require (recipient ≠ 0) "ERC20: transfer to the zero address"
  let senderBalance ← SafeMath.subWith (s.mpToken.balances sender) amount
    "ERC20: transfer amount exceeds balance"
  let balances := Function.update s.mpToken.balances sender senderBalance
  let recipientBalance ← SafeMath.add (balances recipient) amount
  return { s with mpToken := { s.mpToken with
    balances := Function.update balances recipient recipientBalance } }

def requireValidRecipient (d : Deployment) (recipient : Address) : Outcome Unit := do
  require (recipient ≠ 0 ∧ recipient ≠ d.mpToken)
    "MP: Cannot transfer tokens directly to the MP token contract or the zero address"
  require (recipient ≠ d.communityIssuance ∧ recipient ≠ d.mpStaking)
    "MP: Cannot transfer tokens directly to the community issuance or staking contract"

def isRegisteredLockup (s : State) (contractAddress : Address) : Prop :=
  s.mpToken.lockupContractToDeployer contractAddress ≠ 0

instance (s : State) (a : Address) : Decidable (isRegisteredLockup s a) :=
  inferInstanceAs (Decidable (_ ≠ _))

/-- The multisig may only pay registered lockup contracts in the first year. The clock is
read only when the caller is the multisig. -/
def requireLockupForMultisig (d : Deployment) (block : Block) (msgSender recipient : Address)
    (s : State) : Outcome Unit :=
  if msgSender = d.multisig then do
    let firstYear ← isFirstYear d block
    require (firstYear = true → isRegisteredLockup s recipient)
      "MPToken: recipient must be a LockupContract registered in the Factory"
  else return ()

def transfer (d : Deployment) (block : Block) (msgSender recipient : Address) (amount : ℕ)
    (s : State) : Outcome State := do
  requireLockupForMultisig d block msgSender recipient s
  requireValidRecipient d recipient
  _transfer msgSender recipient amount s

def sendToMPStaking (d : Deployment) (block : Block) (sender : Address) (amount : ℕ)
    (s : State) : Outcome State := do
  let firstYear ← isFirstYear d block
  require (firstYear = true → sender ≠ d.multisig) "MPToken: sender must not be the multisig"
  _transfer sender d.mpStaking amount s

end MPToken

namespace CommunityIssuance

def SECONDS_IN_ONE_MINUTE : ℕ := 60
def ISSUANCE_FACTOR : ℕ := 999998681227695000
def MPSupplyCap : ℕ := 167705382 * 10 ^ 18

def getCumulativeIssuanceFraction (block : Block) (s : State) : Outcome ℕ := do
  let timePassed ← SafeMath.sub block.timestamp s.communityIssuance.deploymentTime
  let timePassedInMinutes ← SafeMath.div timePassed SECONDS_IN_ONE_MINUTE
  let power ← decPow ISSUANCE_FACTOR timePassedInMinutes
  let cumulativeIssuanceFraction ← SafeMath.sub DECIMAL_PRECISION power
  assert (cumulativeIssuanceFraction ≤ DECIMAL_PRECISION)
  return cumulativeIssuanceFraction

def issueMP (block : Block) (s : State) : Outcome (ℕ × State) := do
  let fraction ← getCumulativeIssuanceFraction block s
  let scaled ← SafeMath.mul MPSupplyCap fraction
  let latestTotalMPIssued ← SafeMath.div scaled DECIMAL_PRECISION
  let issuance ← SafeMath.sub latestTotalMPIssued s.communityIssuance.totalMPIssued
  return (issuance, { s with communityIssuance := { s.communityIssuance with
    totalMPIssued := latestTotalMPIssued } })

def sendMP (d : Deployment) (block : Block) (account : Address) (MPamount : ℕ) (s : State) :
    Outcome State :=
  MPToken.transfer d block d.communityIssuance account MPamount s

end CommunityIssuance

namespace MPStaking

/-- A fee spread over the staked MP; with nothing staked it is not shared out. -/
def feePerMPStaked (fee totalMPStaked : ℕ) : Outcome ℕ :=
  if totalMPStaked > 0 then do
    let scaled ← SafeMath.mul fee DECIMAL_PRECISION
    SafeMath.div scaled totalMPStaked
  else return 0

def increaseF_RBTC (RBTCFee : ℕ) (s : State) : Outcome State := do
  let RBTCFeePerMPStaked ← feePerMPStaked RBTCFee s.mpStaking.totalMPStaked
  let F_RBTC ← SafeMath.add s.mpStaking.F_RBTC RBTCFeePerMPStaked
  return { s with mpStaking := { s.mpStaking with F_RBTC := F_RBTC } }

def increaseF_BPD (BPDFee : ℕ) (s : State) : Outcome State := do
  let BPDFeePerMPStaked ← feePerMPStaked BPDFee s.mpStaking.totalMPStaked
  let F_BPD ← SafeMath.add s.mpStaking.F_BPD BPDFeePerMPStaked
  return { s with mpStaking := { s.mpStaking with F_BPD := F_BPD } }

def getPendingRBTCGain (user : Address) (s : State) : Outcome ℕ := do
  let perUnit ← SafeMath.sub s.mpStaking.F_RBTC (s.mpStaking.snapshots user).F_RBTC_Snapshot
  let scaled ← SafeMath.mul (s.mpStaking.stakes user) perUnit
  SafeMath.div scaled DECIMAL_PRECISION

def getPendingBPDGain (user : Address) (s : State) : Outcome ℕ := do
  let perUnit ← SafeMath.sub s.mpStaking.F_BPD (s.mpStaking.snapshots user).F_BPD_Snapshot
  let scaled ← SafeMath.mul (s.mpStaking.stakes user) perUnit
  SafeMath.div scaled DECIMAL_PRECISION

def updateUserSnapshots (user : Address) (s : State) : State :=
  { s with mpStaking := { s.mpStaking with
    snapshots := Function.update s.mpStaking.snapshots user
      ⟨s.mpStaking.F_RBTC, s.mpStaking.F_BPD⟩ } }

def setStake (user : Address) (stake totalMPStaked : ℕ) (s : State) : State :=
  { s with mpStaking := { s.mpStaking with
    stakes := Function.update s.mpStaking.stakes user stake
    totalMPStaked := totalMPStaked } }

/-- Pays out the gains of a staker: BPD first, then RBTC. -/
def sendGains (d : Deployment) (user : Address) (BPDGain RBTCGain : ℕ) (s : State) :
    Outcome State := do
  let s ← BPDToken.transfer d d.mpStaking user BPDGain s
  callWithValue d d.mpStaking user RBTCGain s

def stake (d : Deployment) (block : Block) (msgSender : Address) (MPamount : ℕ) (s : State) :
    Outcome State := do
  require (MPamount > 0) "MPStaking: Amount must be non-zero"
  let currentStake := s.mpStaking.stakes msgSender
  let RBTCGain ← (if currentStake ≠ 0 then getPendingRBTCGain msgSender s else pure 0)
  let BPDGain ← (if currentStake ≠ 0 then getPendingBPDGain msgSender s else pure 0)
  let s := updateUserSnapshots msgSender s
  let newStake ← SafeMath.add currentStake MPamount
  let totalMPStaked ← SafeMath.add s.mpStaking.totalMPStaked MPamount
  let s := setStake msgSender newStake totalMPStaked s
  let s ← MPToken.sendToMPStaking d block msgSender MPamount s
  if currentStake ≠ 0 then sendGains d msgSender BPDGain RBTCGain s else return s

def unstake (d : Deployment) (block : Block) (msgSender : Address) (MPamount : ℕ) (s : State) :
    Outcome State := do
  let currentStake := s.mpStaking.stakes msgSender
  require (currentStake > 0) "MPStaking: User must have a non-zero stake"
  let RBTCGain ← getPendingRBTCGain msgSender s
  let BPDGain ← getPendingBPDGain msgSender s
  let s := updateUserSnapshots msgSender s
  let s ← (if MPamount > 0 then do
      let MPToWithdraw := min MPamount currentStake
      let newStake ← SafeMath.sub currentStake MPToWithdraw
      let totalMPStaked ← SafeMath.sub s.mpStaking.totalMPStaked MPToWithdraw
      MPToken.transfer d block d.mpStaking msgSender MPToWithdraw
        (setStake msgSender newStake totalMPStaked s)
    else return s)
  sendGains d msgSender BPDGain RBTCGain s

end MPStaking

end MoneyProtocol
