import MoneyProtocol.Contracts.VaultManager

/-!
# The price feed and its oracles

`PriceFeed` with the addresses it reads from, and the two adapters in front of the oracles. An
oracle may answer anything at any moment, or revert.
-/

namespace MoneyProtocol

open Outcome

/-- What the oracles answer at one moment, and which accounts have code. -/
structure Oracles where
  peek : Outcome (ℕ × Bool)
  getPricing : Outcome (ℕ × ℕ)
  extcodesize : Address → ℕ

def MOCExternalPriceFeed.latestAnswer (o : Oracles) : Outcome (ℕ × Bool) := do
  let (price, success) ← o.peek
  return (price, success)

/-- RSK reports failure as a price of zero. -/
def RSKExternalPriceFeed.latestAnswer (o : Oracles) : Outcome (ℕ × Bool) := do
  let (price, _) ← o.getPricing
  return (price, decide (price ≠ 0))

/-- The deployed adapters: the main oracle and the fallback. -/
structure Adapters where
  moc : Address
  rsk : Address
  distinct : moc ≠ rsk

namespace Adapters

def all (a : Adapters) : List Address := [a.moc, a.rsk]

/-- Any other account does not answer. -/
def latestAnswer (a : Adapters) (o : Oracles) (feed : Address) : Outcome (ℕ × Bool) :=
  if feed = a.moc then MOCExternalPriceFeed.latestAnswer o
  else if feed = a.rsk then RSKExternalPriceFeed.latestAnswer o
  else .error (.revert "")

end Adapters

def CheckContract.checkContract (o : Oracles) (account : Address) : Outcome Unit := do
  require (account ≠ 0) "Account cannot be zero address"
  require (o.extcodesize account > 0) "Account code size cannot be zero"

/-- The contract with its wiring; the system keeps the last good price only. -/
structure PriceFeedContract extends PriceFeed where
  owner : Address
  priceFeeds : Fin 2 → Address

namespace PriceFeedContract

def setExternalPriceFeed (a : Adapters) (o : Oracles) (index : Fin 2)
    (externalPriceFeedAddress : Address) (c : PriceFeedContract) :
    Outcome (ℕ × PriceFeedContract) := do
  CheckContract.checkContract o externalPriceFeedAddress
  let c := { c with priceFeeds := Function.update c.priceFeeds index externalPriceFeedAddress }
  let (price, success) ← a.latestAnswer o (c.priceFeeds index)
  require (success = true) "Price feed is not working"
  return (price, c)

/-- The loop of `setAddresses`. -/
def setFeeds (a : Adapters) (o : Oracles) :
    List (Fin 2 × Address) → PriceFeedContract → Outcome PriceFeedContract
  | [], c => return c
  | (i, feed) :: feeds, c => do
    let (latestPrice, c) ← setExternalPriceFeed a o i feed c
    setFeeds a o feeds { c with lastGoodPrice := latestPrice }

def setAddresses (a : Adapters) (o : Oracles) (msgSender : Address)
    (priceFeedAddresses : List Address) (c : PriceFeedContract) : Outcome PriceFeedContract := do
  require (msgSender = c.owner) "Ownable: caller is not the owner"
  require (priceFeedAddresses.length = 2) "PriceFeed must have 2 price feeds"
  let c ← setFeeds a o ([0, 1].zip priceFeedAddresses) c
  return { c with owner := 0 }

/-- The loop of `fetchPrice` over the remaining feeds. -/
def fetchPriceFrom (a : Adapters) (o : Oracles) :
    List (Fin 2) → PriceFeedContract → Outcome (ℕ × PriceFeedContract)
  | [], c => return (c.lastGoodPrice, c)
  | i :: feeds, c => do
    let (price, success) ← a.latestAnswer o (c.priceFeeds i)
    if success then return (price, { c with lastGoodPrice := price })
    else fetchPriceFrom a o feeds c

def fetchPrice (a : Adapters) (o : Oracles) (c : PriceFeedContract) :
    Outcome (ℕ × PriceFeedContract) :=
  fetchPriceFrom a o [0, 1] c

end PriceFeedContract

/-- An account that can call: the zero address cannot. -/
abbrev Caller := { a : Address // a ≠ 0 }

inductive PriceFeedCall where
  | setAddresses (msgSender : Caller) (priceFeedAddresses : List Address)
  | fetchPrice

/-- The contract after a call; a call that fails leaves no trace. -/
def PriceFeedCall.after (a : Adapters) (o : Oracles) (c : PriceFeedContract) :
    PriceFeedCall → PriceFeedContract
  | .setAddresses msgSender priceFeedAddresses =>
    match c.setAddresses a o msgSender priceFeedAddresses with
    | .ok c' => c'
    | .error _ => c
  | .fetchPrice =>
    match c.fetchPrice a o with
    | .ok (_, c') => c'
    | .error _ => c

end MoneyProtocol
