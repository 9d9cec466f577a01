import MoneyProtocol.Contracts.State

/-!
# The pools and the native currency

`ActivePool`, `DefaultPool` and `CollSurplusPool`, with the `receive` functions that book
incoming RBTC. A function that a contract guards with a caller check is called here only by
the contracts that pass it; called by anybody else it reverts.
-/

namespace MoneyProtocol

open Outcome

/-- Fallback of the active pool: it takes RBTC from BorrowerOperations and the Default Pool. -/
def ActivePool.receive (d : Deployment) (caller : Address) (value : ℕ) (s : State) :
    Outcome State := do
  require (caller = d.borrowerOperations ∨ caller = d.defaultPool)
    "ActivePool: Caller is neither BO nor Default Pool"
  let RBTC ← SafeMath.add s.activePool.RBTC value
  return { s with activePool := { s.activePool with RBTC := RBTC } }

def DefaultPool.receive (d : Deployment) (caller : Address) (value : ℕ) (s : State) :
    Outcome State := do
  require (caller = d.activePool) "DefaultPool: Caller is not the ActivePool"
  let RBTC ← SafeMath.add s.defaultPool.RBTC value
  return { s with defaultPool := { s.defaultPool with RBTC := RBTC } }

def CollSurplusPool.receive (d : Deployment) (caller : Address) (value : ℕ) (s : State) :
    Outcome State := do
  require (caller = d.activePool) "CollSurplusPool: Caller is not Active Pool"
  let RBTC ← SafeMath.add s.collSurplusPool.RBTC value
  return { s with collSurplusPool := { s.collSurplusPool with RBTC := RBTC } }

def StabilityPool.receive (d : Deployment) (caller : Address) (value : ℕ) (s : State) :
    Outcome State := do
  require (caller = d.activePool) "StabilityPool: Caller is not ActivePool"
  let RBTC ← SafeMath.add s.stabilityPool.RBTC value
  return { s with stabilityPool := { s.stabilityPool with RBTC := RBTC } }

def MPStaking.receive (d : Deployment) (caller : Address) (s : State) : Outcome State := do
  require (caller = d.activePool) "MPStaking: caller is not ActivePool"
  return s

/-- The `receive` function that a plain call with value runs. The remaining contracts have
none and revert; an outside account accepts. -/
def receive (d : Deployment) (caller recipient : Address) (value : ℕ) (s : State) :
    Outcome State :=
  if recipient = d.activePool then ActivePool.receive d caller value s
  else if recipient = d.defaultPool then DefaultPool.receive d caller value s
  else if recipient = d.collSurplusPool then CollSurplusPool.receive d caller value s
  else if recipient = d.stabilityPool then StabilityPool.receive d caller value s
  else if recipient = d.mpStaking then MPStaking.receive d caller s
  else if recipient ∈ d.contracts then .error (.revert "")
  else .ok s

/-- `recipient.call{value: amount}("")`, made by `caller`. -/
def callWithValue (d : Deployment) (caller recipient : Address) (amount : ℕ) (s : State) :
    Outcome State := do
  let s ← transferRBTC caller recipient amount s
  receive d caller recipient amount s

namespace ActivePool

def sendRBTC (d : Deployment) (account : Address) (amount : ℕ) (s : State) : Outcome State := do
  let RBTC ← SafeMath.sub s.activePool.RBTC amount
  let s := { s with activePool := { s.activePool with RBTC := RBTC } }
  callWithValue d d.activePool account amount s

def increaseBPDDebt (amount : ℕ) (s : State) : Outcome State := do
  let BPDDebt ← SafeMath.add s.activePool.BPDDebt amount
  return { s with activePool := { s.activePool with BPDDebt := BPDDebt } }

def decreaseBPDDebt (amount : ℕ) (s : State) : Outcome State := do
  let BPDDebt ← SafeMath.sub s.activePool.BPDDebt amount
  return { s with activePool := { s.activePool with BPDDebt := BPDDebt } }

end ActivePool

namespace DefaultPool

def sendRBTCToActivePool (d : Deployment) (amount : ℕ) (s : State) : Outcome State := do
  let RBTC ← SafeMath.sub s.defaultPool.RBTC amount
  let s := { s with defaultPool := { s.defaultPool with
    RBTC := RBTC, bitcoinSent := amount :: s.defaultPool.bitcoinSent } }
  callWithValue d d.defaultPool d.activePool amount s

def increaseBPDDebt (amount : ℕ) (s : State) : Outcome State := do
  let BPDDebt ← SafeMath.add s.defaultPool.BPDDebt amount
  return { s with defaultPool := { s.defaultPool with BPDDebt := BPDDebt } }

def decreaseBPDDebt (amount : ℕ) (s : State) : Outcome State := do
  let BPDDebt ← SafeMath.sub s.defaultPool.BPDDebt amount
  return { s with defaultPool := { s.defaultPool with BPDDebt := BPDDebt } }

end DefaultPool

namespace CollSurplusPool

def accountSurplus (account : Address) (amount : ℕ) (s : State) : Outcome State := do
  let newAmount ← SafeMath.add (s.collSurplusPool.balances account) amount
  return { s with collSurplusPool := { s.collSurplusPool with
    balances := Function.update s.collSurplusPool.balances account newAmount } }

def claimColl (d : Deployment) (account : Address) (s : State) : Outcome State := do
  let claimableColl := s.collSurplusPool.balances account
  require (claimableColl > 0) "CollSurplusPool: No collateral available to claim"
  let s := { s with collSurplusPool := { s.collSurplusPool with
    balances := Function.update s.collSurplusPool.balances account 0 } }
  let RBTC ← SafeMath.sub s.collSurplusPool.RBTC claimableColl
  let s := { s with collSurplusPool := { s.collSurplusPool with RBTC := RBTC } }
  callWithValue d d.collSurplusPool account claimableColl s

end CollSurplusPool

end MoneyProtocol
