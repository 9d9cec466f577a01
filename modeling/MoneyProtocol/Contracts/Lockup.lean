import MoneyProtocol.Contracts.Tokens

/-!
# The MP token and its lockup contracts

The entry points of `MPToken` with their allowances, and the contracts that
`LockupContractFactory` deploys. The factory creates its contracts at addresses that are nobody
else's: a lockup contract never calls but from `withdrawMP`, and never signs.
-/

namespace MoneyProtocol

open Outcome

structure LockupContract where
  beneficiary : Address
  unlockTime : ℕ

/-- The storage behind the token: the balances and the registered lockup contracts are those of
the system. -/
structure MPState where
  system : State
  allowances : Address → Address → ℕ
  nonces : Address → ℕ
  lockups : Address → Option LockupContract

namespace MPState

def balances (m : MPState) : Address → ℕ := m.system.mpToken.balances

def Registered (m : MPState) (a : Address) : Prop := MPToken.isRegisteredLockup m.system a

instance (m : MPState) (a : Address) : Decidable (m.Registered a) :=
  inferInstanceAs (Decidable (_ ≠ _))

/-- A call of the token that moves balances only. -/
def onSystem (f : State → Outcome State) (m : MPState) : Outcome MPState := do
  let system ← f m.system
  return { m with system := system }

end MPState

namespace MPToken

def _approve (owner spender : Address) (amount : ℕ) (m : MPState) : Outcome MPState := do
  require (owner ≠ 0) "ERC20: approve from the zero address"
  require (spender ≠ 0) "ERC20: approve to the zero address"
  return { m with
    allowances := Function.update m.allowances owner
      (Function.update (m.allowances owner) spender amount) }

/-- In the first year the multisig may neither grant nor change an allowance. -/
def requireCallerIsNotMultisig (d : Deployment) (block : Block) (msgSender : Address) :
    Outcome Unit := do
  let firstYear ← isFirstYear d block
  require (firstYear = true → msgSender ≠ d.multisig) "MPToken: caller must not be the multisig"

def approve (d : Deployment) (block : Block) (msgSender spender : Address) (amount : ℕ)
    (m : MPState) : Outcome MPState := do
  requireCallerIsNotMultisig d block msgSender
  _approve msgSender spender amount m

def transferFrom (d : Deployment) (block : Block) (msgSender sender recipient : Address)
    (amount : ℕ) (m : MPState) : Outcome MPState := do
  let firstYear ← isFirstYear d block
  require (firstYear = true → sender ≠ d.multisig) "MPToken: sender must not be the multisig"
  requireValidRecipient d recipient
  let m ← m.onSystem (_transfer sender recipient amount)
  let allowance ← SafeMath.subWith (m.allowances sender msgSender) amount
    "ERC20: transfer amount exceeds allowance"
  _approve sender msgSender allowance m

def increaseAllowance (d : Deployment) (block : Block) (msgSender spender : Address)
    (addedValue : ℕ) (m : MPState) : Outcome MPState := do
  requireCallerIsNotMultisig d block msgSender
  let allowance ← SafeMath.add (m.allowances msgSender spender) addedValue
  _approve msgSender spender allowance m

def decreaseAllowance (d : Deployment) (block : Block) (msgSender spender : Address)
    (subtractedValue : ℕ) (m : MPState) : Outcome MPState := do
  requireCallerIsNotMultisig d block msgSender
  let allowance ← SafeMath.subWith (m.allowances msgSender spender) subtractedValue
    "ERC20: decreased allowance below zero"
  _approve msgSender spender allowance m

/-- `recoveredAddress` is what `ecrecover` returns for the digest of the permit. -/
def permit (block : Block) (recoveredAddress owner spender : Address) (amount deadline : ℕ)
    (m : MPState) : Outcome MPState := do
  require (deadline ≥ block.timestamp) "MP: expired deadline"
  let m := { m with nonces := Function.update m.nonces owner (m.nonces owner + 1) }
  require (recoveredAddress = owner) "MP: invalid signature"
  _approve owner spender amount m

def requireCallerIsMPStaking (d : Deployment) (msgSender : Address) : Outcome Unit :=
  require (msgSender = d.mpStaking) "MPToken: caller must be the MPStaking contract"

end MPToken

/-- The addresses at which the factory creates its contracts. The multisig is not one of them. -/
structure LockupContractFactory (d : Deployment) where
  creates : Address → Prop
  multisig : ¬creates d.multisig

/-- An account that calls and signs for itself. -/
def LockupContractFactory.Acts {d : Deployment} (f : LockupContractFactory d) (a : Address) :
    Prop :=
  ¬f.creates a

namespace LockupContractFactory

def SECONDS_IN_ONE_YEAR : ℕ := 31536000

/-- The contract is created at `lockup`; creation fails where a contract is already. -/
def deployLockupContract (d : Deployment) (lockup msgSender beneficiary : Address)
    (unlockTime : ℕ) (m : MPState) : Outcome MPState := do
  require (d.mpToken ≠ 0) "LCF: MP Address is not set"
  let oneYearAfterDeployment ← SafeMath.add d.deploymentStartTime SECONDS_IN_ONE_YEAR
  require (unlockTime ≥ oneYearAfterDeployment)
    "LockupContract: unlock time must be at least one year after system deployment"
  require (m.lockups lockup).isNone ""
  return { m with
    lockups := Function.update m.lockups lockup (some ⟨beneficiary, unlockTime⟩)
    system := { m.system with mpToken := { m.system.mpToken with
      lockupContractToDeployer :=
        Function.update m.system.mpToken.lockupContractToDeployer lockup msgSender } } }

end LockupContractFactory

/-- `withdrawMP` of the contract at `lockup`. -/
def LockupContract.withdrawMP (d : Deployment) (block : Block) (lockup msgSender : Address)
    (m : MPState) : Outcome MPState :=
  match m.lockups lockup with
  | none => .error (.revert "")
  | some c => do
    require (msgSender = c.beneficiary) "LockupContract: caller is not the beneficiary"
    require (block.timestamp ≥ c.unlockTime)
      "LockupContract: The lockup duration must have passed"
    m.onSystem (MPToken.transfer d block lockup c.beneficiary (m.balances lockup))

/-- A call of the token or of a lockup contract. -/
inductive MPCall where
  | transfer (recipient : Address) (amount : ℕ)
  | approve (spender : Address) (amount : ℕ)
  | transferFrom (sender recipient : Address) (amount : ℕ)
  | increaseAllowance (spender : Address) (addedValue : ℕ)
  | decreaseAllowance (spender : Address) (subtractedValue : ℕ)
  | permit (recoveredAddress owner spender : Address) (amount deadline : ℕ)
  | sendToMPStaking (sender : Address) (amount : ℕ)
  | deployLockupContract (lockup beneficiary : Address) (unlockTime : ℕ)
  | withdrawMP (lockup : Address)

def MPCall.execute (d : Deployment) (block : Block) (msgSender : Address) :
    MPCall → MPState → Outcome MPState
  | .transfer recipient amount =>
    MPState.onSystem (MPToken.transfer d block msgSender recipient amount)
  | .approve spender amount => MPToken.approve d block msgSender spender amount
  | .transferFrom sender recipient amount =>
    MPToken.transferFrom d block msgSender sender recipient amount
  | .increaseAllowance spender addedValue =>
    MPToken.increaseAllowance d block msgSender spender addedValue
  | .decreaseAllowance spender subtractedValue =>
    MPToken.decreaseAllowance d block msgSender spender subtractedValue
  | .permit recoveredAddress owner spender amount deadline =>
    MPToken.permit block recoveredAddress owner spender amount deadline
  | .sendToMPStaking sender amount => fun m => do
    MPToken.requireCallerIsMPStaking d msgSender
    m.onSystem (MPToken.sendToMPStaking d block sender amount)
  | .deployLockupContract lockup beneficiary unlockTime =>
    LockupContractFactory.deployLockupContract d lockup msgSender beneficiary unlockTime
  | .withdrawMP lockup => LockupContract.withdrawMP d block lockup msgSender

/-- A call that can be made: accounts act for themselves, `ecrecover` returns a signer,
MPStaking passes on the account that called it, and the factory creates its contracts. -/
def MPCall.Possible {d : Deployment} (f : LockupContractFactory d) (msgSender : Address) :
    MPCall → Prop
  | .permit recoveredAddress _ _ _ _ => f.Acts msgSender ∧ f.Acts recoveredAddress
  | .sendToMPStaking sender _ => f.Acts msgSender ∧ (msgSender = d.mpStaking → f.Acts sender)
  | .deployLockupContract lockup _ _ => f.Acts msgSender ∧ f.creates lockup
  | _ => f.Acts msgSender

/-- A successful call before the first year is over. -/
def FirstYearStep {d : Deployment} (f : LockupContractFactory d) (m m' : MPState) : Prop :=
  ∃ (block : Block) (msgSender : Address) (c : MPCall),
    block.timestamp < d.deploymentStartTime + MPToken.ONE_YEAR_IN_SECONDS ∧
    c.Possible f msgSender ∧ c.execute d block msgSender m = .ok m'

/-- Right after the token was deployed: it has been minted, and no more. -/
structure MPState.Deployed (m : MPState) : Prop where
  allowances : m.allowances = fun _ _ => 0
  nonces : m.nonces = fun _ => 0
  lockups : m.lockups = fun _ => none
  registered : m.system.mpToken.lockupContractToDeployer = fun _ => 0

end MoneyProtocol
