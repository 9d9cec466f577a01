import MoneyProtocol.Contracts.Tokens
import Mathlib.Logic.Relation

/-!
# The LP rewards pool

`LPTokenWrapper` and `RskSwapPool`: liquidity providers stake LP tokens and earn MP at a
constant rate while anything is staked. The LP token is a contract outside the repository,
and its state is a parameter.
-/

namespace MoneyProtocol

open Outcome

/-- The LP token as the pool uses it; the first argument is the caller. -/
structure LPToken (T : Type) where
  safeTransferFrom : Address → Address → Address → ℕ → T → Outcome T
  safeTransfer : Address → Address → ℕ → T → Outcome T

/-- A deployment together with the rewards pool, the LP token, which accounts are contracts,
and the MP entitlement that the pool reads once. -/
structure LPDeployment (T : Type) extends Deployment where
  rskSwapPool : Address
  lpToken : LPToken T
  isContract : Address → Bool
  getLpRewardsEntitlement : ℕ

/-- `rewardPaid` is the log of the pool's `RewardPaid` events, latest first. -/
structure RskSwapPool where
  owner : Address
  rskSwapToken : Address
  mpToken : Address
  totalSupply : ℕ
  balances : Address → ℕ
  duration : ℕ
  periodFinish : ℕ
  rewardRate : ℕ
  lastUpdateTime : ℕ
  rewardPerTokenStored : ℕ
  userRewardPerTokenPaid : Address → ℕ
  rewards : Address → ℕ
  rewardPaid : List (Address × ℕ)

/-- The pool, the LP token and everything else. -/
structure LPState (T : Type) where
  pool : RskSwapPool
  lpToken : T
  system : State

namespace LPTokenWrapper

variable {T : Type}

def stake (d : LPDeployment T) (msgSender : Address) (amount : ℕ) (s : LPState T) :
    Outcome (LPState T) := do
  let totalSupply ← SafeMath.add s.pool.totalSupply amount
  let balance ← SafeMath.add (s.pool.balances msgSender) amount
  let lpToken ← d.lpToken.safeTransferFrom d.rskSwapPool msgSender d.rskSwapPool amount s.lpToken
  return { s with
    pool := { s.pool with
      totalSupply := totalSupply
      balances := Function.update s.pool.balances msgSender balance }
    lpToken := lpToken }

def withdraw (d : LPDeployment T) (msgSender : Address) (amount : ℕ) (s : LPState T) :
    Outcome (LPState T) := do
  let totalSupply ← SafeMath.sub s.pool.totalSupply amount
  let balance ← SafeMath.sub (s.pool.balances msgSender) amount
  let lpToken ← d.lpToken.safeTransfer d.rskSwapPool msgSender amount s.lpToken
  return { s with
    pool := { s.pool with
      totalSupply := totalSupply
      balances := Function.update s.pool.balances msgSender balance }
    lpToken := lpToken }

end LPTokenWrapper

namespace RskSwapPool

variable {T : Type}

def lastTimeRewardApplicable (block : Block) (p : RskSwapPool) : ℕ :=
  min block.timestamp p.periodFinish

def rewardPerToken (block : Block) (p : RskSwapPool) : Outcome ℕ :=
  if p.totalSupply = 0 then return p.rewardPerTokenStored
  else do
    let elapsed ← SafeMath.sub (lastTimeRewardApplicable block p) p.lastUpdateTime
    let reward ← SafeMath.mul elapsed p.rewardRate
    let scaled ← SafeMath.mul reward DECIMAL_PRECISION
    let perToken ← SafeMath.div scaled p.totalSupply
    SafeMath.add p.rewardPerTokenStored perToken

def earned (block : Block) (account : Address) (p : RskSwapPool) : Outcome ℕ := do
  let perToken ← rewardPerToken block p
  let unpaid ← SafeMath.sub perToken (p.userRewardPerTokenPaid account)
  let scaled ← SafeMath.mul (p.balances account) unpaid
  let gain ← SafeMath.div scaled DECIMAL_PRECISION
  SafeMath.add gain (p.rewards account)

/-- An empty pool stops its clock: the period is extended by the time it was empty. -/
def updatePeriodFinish (block : Block) (p : RskSwapPool) : Outcome RskSwapPool :=
  if p.totalSupply = 0 then do
    assert (p.periodFinish > 0)
    let idle ← SafeMath.sub block.timestamp p.lastUpdateTime
    let periodFinish ← SafeMath.add p.periodFinish idle
    return { p with periodFinish := periodFinish }
  else return p

def updateReward (block : Block) (p : RskSwapPool) : Outcome RskSwapPool := do
  let perToken ← rewardPerToken block p
  return { p with
    rewardPerTokenStored := perToken
    lastUpdateTime := lastTimeRewardApplicable block p }

def updateAccountReward (block : Block) (account : Address) (p : RskSwapPool) :
    Outcome RskSwapPool := do
  let p ← updateReward block p
  assert (account ≠ 0)
  let reward ← earned block account p
  return { p with
    rewards := Function.update p.rewards account reward
    userRewardPerTokenPaid :=
      Function.update p.userRewardPerTokenPaid account p.rewardPerTokenStored }

def requireTokenSet (p : RskSwapPool) : Outcome Unit :=
  require (p.rskSwapToken ≠ 0) "Liquidity Pool Token has not been set yet"

def stake (d : LPDeployment T) (block : Block) (msgSender : Address) (amount : ℕ)
    (s : LPState T) : Outcome (LPState T) := do
  require (amount > 0) "Cannot stake 0"
  requireTokenSet s.pool
  let pool ← updatePeriodFinish block s.pool
  let pool ← updateAccountReward block msgSender pool
  LPTokenWrapper.stake d msgSender amount { s with pool := pool }

def withdraw (d : LPDeployment T) (block : Block) (msgSender : Address) (amount : ℕ)
    (s : LPState T) : Outcome (LPState T) := do
  require (amount > 0) "Cannot withdraw 0"
  requireTokenSet s.pool
  let pool ← updateAccountReward block msgSender s.pool
  LPTokenWrapper.withdraw d msgSender amount { s with pool := pool }

/-- Clear the account's rewards and log the payment. -/
def setRewardPaid (account : Address) (reward : ℕ) (p : RskSwapPool) : RskSwapPool :=
  { p with
    rewards := Function.update p.rewards account 0
    rewardPaid := (account, reward) :: p.rewardPaid }

def claimReward (d : LPDeployment T) (block : Block) (msgSender : Address) (s : LPState T) :
    Outcome (LPState T) := do
  requireTokenSet s.pool
  let pool ← updatePeriodFinish block s.pool
  let pool ← updateAccountReward block msgSender pool
  let reward ← earned block msgSender pool
  require (reward > 0) "Nothing to claim"
  let system ← MPToken.transfer d.toDeployment block d.rskSwapPool msgSender reward s.system
  return { s with pool := setRewardPaid msgSender reward pool, system := system }

def withdrawAndClaim (d : LPDeployment T) (block : Block) (msgSender : Address)
    (s : LPState T) : Outcome (LPState T) := do
  let s ← withdraw d block msgSender (s.pool.balances msgSender) s
  claimReward d block msgSender s

def checkContract (d : LPDeployment T) (account : Address) : Outcome Unit := do
  require (account ≠ 0) "Account cannot be zero address"
  require (d.isContract account = true) "Account code size cannot be zero"

def notifyRewardAmount (d : LPDeployment T) (block : Block) (reward duration : ℕ)
    (s : LPState T) : Outcome RskSwapPool := do
  assert (reward > 0)
  assert (reward = s.system.mpToken.balances d.rskSwapPool)
  assert (s.pool.periodFinish = 0)
  let p ← updateReward block s.pool
  let rewardRate ← SafeMath.div reward duration
  let periodFinish ← SafeMath.add block.timestamp duration
  return { p with
    rewardRate := rewardRate
    lastUpdateTime := block.timestamp
    periodFinish := periodFinish }

def setParams (d : LPDeployment T) (block : Block) (msgSender : Address)
    (mpTokenAddress rskSwapTokenAddress : Address) (duration : ℕ) (s : LPState T) :
    Outcome (LPState T) := do
  require (msgSender = s.pool.owner) "Ownable: caller is not the owner"
  checkContract d mpTokenAddress
  checkContract d rskSwapTokenAddress
  let s := { s with pool := { s.pool with
    rskSwapToken := rskSwapTokenAddress
    mpToken := mpTokenAddress
    duration := duration } }
  let pool ← notifyRewardAmount d block d.getLpRewardsEntitlement duration s
  return { s with pool := { pool with owner := 0 } }

/-- The storage after deployment. -/
def deployed (owner : Address) : RskSwapPool where
  owner := owner
  rskSwapToken := 0
  mpToken := 0
  totalSupply := 0
  balances := fun _ => 0
  duration := 0
  periodFinish := 0
  rewardRate := 0
  lastUpdateTime := 0
  rewardPerTokenStored := 0
  userRewardPerTokenPaid := fun _ => 0
  rewards := fun _ => 0
  rewardPaid := []

/-- The calls that any account can make. -/
inductive Call where
  | stake (amount : ℕ)
  | withdraw (amount : ℕ)
  | withdrawAndClaim
  | claimReward

def perform (d : LPDeployment T) (block : Block) (msgSender : Address) :
    Call → LPState T → Outcome (LPState T)
  | .stake amount => stake d block msgSender amount
  | .withdraw amount => withdraw d block msgSender amount
  | .withdrawAndClaim => withdrawAndClaim d block msgSender
  | .claimReward => claimReward d block msgSender

/-- The state at the present time, with the seconds in which something was staked: until now,
and until the last call. -/
structure History (T : Type) where
  now : ℕ
  state : LPState T
  stakedTime : ℕ
  stakedTimeAtUpdate : ℕ

/-- A call of the pool, or the clock advancing while the rest of the system does anything. -/
inductive HistoryStep (d : LPDeployment T) : History T → History T → Prop
  | call {h : History T} {block : Block} {msgSender : Address} {c : Call} {s' : LPState T}
      (hnow : block.timestamp = h.now) (hcall : perform d block msgSender c h.state = .ok s') :
      HistoryStep d h { h with state := s', stakedTimeAtUpdate := h.stakedTime }
  | advance (h : History T) (seconds : ℕ) (lpToken : T) (system : State) :
      HistoryStep d h { h with
        now := h.now + seconds
        state := { h.state with lpToken := lpToken, system := system }
        stakedTime := h.stakedTime + if h.state.pool.totalSupply = 0 then 0 else seconds }

/-- A pool whose parameters have just been set. -/
def Initialised (d : LPDeployment T) (h : History T) : Prop :=
  ∃ block owner msgSender mpTokenAddress rskSwapTokenAddress duration lpToken system,
    setParams d block msgSender mpTokenAddress rskSwapTokenAddress duration
      ⟨deployed owner, lpToken, system⟩ = .ok h.state ∧
    h.now = block.timestamp ∧ h.stakedTime = 0 ∧ h.stakedTimeAtUpdate = 0

/-- The histories after `setParams`. -/
def Occurs (d : LPDeployment T) (h : History T) : Prop :=
  ∃ h₀, Initialised d h₀ ∧ Relation.ReflTransGen (HistoryStep d) h₀ h

end RskSwapPool

end MoneyProtocol
