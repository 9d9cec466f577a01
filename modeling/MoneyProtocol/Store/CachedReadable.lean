import MoneyProtocol.Store.FailedReads

/-!
# A connection with a store

It answers what it can from the state of its store: reads without a block, and those of the block
that the state was fetched from. Everything else is read from the contracts.
-/

namespace MoneyProtocol.Sdk

open Outcome Decimal

inductive SortedBy where
  | ascendingCollateralRatio
  | descendingCollateralRatio

/-- A slice of the sorted vaults. The flag `beforeRedistribution` tells the two forms of `getVaults`
apart. -/
structure VaultListingParams where
  first : ℤ
  sortedBy : SortedBy
  startingAt : Option ℤ

/-- What the reads of the contracts return at a block, for an address where they take one. -/
structure Readable where
  getBlockTimestamp : ℕ → ℕ
  createFees : ℕ → ℕ × Decimal
  getPrice : ℕ → Decimal
  getNumberOfVaults : ℕ → ℕ
  getTotalRedistributed : ℕ → Vault
  getTotal : ℕ → Vault
  getBPDInStabilityPool : ℕ → Decimal
  getTotalStakedMP : ℕ → Decimal
  getRiskiestVaultBeforeRedistribution : ℕ → OwnedVault
  getRemainingStabilityPoolMPReward : ℕ → Decimal
  getFrontendStatus : Address → ℕ → FrontendStatus
  getBalance : Address → ℕ → Decimal
  getBPDBalance : Address → ℕ → Decimal
  getMPBalance : Address → ℕ → Decimal
  getCollateralSurplusBalance : Address → ℕ → Decimal
  getVaultBeforeRedistribution : Address → ℕ → OwnedVault
  getStabilityDeposit : Address → ℕ → StabilityDeposit
  getMPStake : Address → ℕ → MPStake
  getMultipleSortedVaults : ℤ → ℕ → ℕ → List OwnedVault

/-- The reads that a connection offers; those of an account take the user's where none is given. -/
inductive Getter where
  | getTotalRedistributed
  | getVaultBeforeRedistribution (address : Option Address)
  | getVault (address : Option Address)
  | getNumberOfVaults
  | getPrice
  | getTotal
  | getStabilityDeposit (address : Option Address)
  | getRemainingStabilityPoolMPReward
  | getBPDInStabilityPool
  | getBPDBalance (address : Option Address)
  | getMPBalance (address : Option Address)
  | getCollateralSurplusBalance (address : Option Address)
  | getVaultsBeforeRedistribution (params : VaultListingParams)
  | getVaults (params : VaultListingParams)
  | getFees
  | getMPStake (address : Option Address)
  | getTotalStakedMP
  | getFrontendStatus (address : Option Address)

@[reducible] def Getter.Value : Getter → Type
  | .getPrice | .getBPDInStabilityPool | .getTotalStakedMP => Decimal
  | .getRemainingStabilityPoolMPReward => Decimal
  | .getBPDBalance _ | .getMPBalance _ | .getCollateralSurplusBalance _ => Decimal
  | .getNumberOfVaults => ℕ
  | .getTotalRedistributed | .getTotal => Vault
  | .getVaultBeforeRedistribution _ => OwnedVault
  | .getVault _ => UserVault
  | .getVaultsBeforeRedistribution _ => List OwnedVault
  | .getVaults _ => List UserVault
  | .getStabilityDeposit _ => StabilityDeposit
  | .getFees => Fees
  | .getMPStake _ => MPStake
  | .getFrontendStatus _ => FrontendStatus

/-- The fields of the store that a value is read from. -/
def Getter.fields : Getter → List ReadField
  | .getTotalRedistributed => [.totalRedistributed]
  | .getVaultBeforeRedistribution _ => [.vaultBeforeRedistribution]
  | .getVault _ => [.vaultBeforeRedistribution, .totalRedistributed]
  | .getNumberOfVaults => [.numberOfVaults]
  | .getPrice => [.price]
  | .getTotal => [.total]
  | .getStabilityDeposit _ => [.stabilityDeposit]
  | .getRemainingStabilityPoolMPReward => [.remainingStabilityPoolMPReward]
  | .getBPDInStabilityPool => [.bpdInStabilityPool]
  | .getBPDBalance _ => [.bpdBalance]
  | .getMPBalance _ => [.mpBalance]
  | .getCollateralSurplusBalance _ => [.collateralSurplusBalance]
  | .getVaultsBeforeRedistribution _ => []
  | .getVaults _ => [.totalRedistributed]
  | .getFees => []
  | .getMPStake _ => [.mpStake]
  | .getTotalStakedMP => [.totalStakedMP]
  | .getFrontendStatus _ => [.frontend]

/-- An address that has to be there. -/
def requireGiven (message : String) : Option Address → Outcome Address
  | some address => return address
  | none => .error (.revert message)

def requireAddress (connection : BitcoinsMoneypConnection) (address : Option Address) :
    Outcome Address :=
  requireGiven "A user address is required" (address <|> connection.userAddress)

def requireFrontendAddress (connection : BitcoinsMoneypConnection) (address : Option Address) :
    Outcome Address :=
  requireGiven "A frontend address is required" (address <|> connection.frontendTag)

theorem requireGiven_ok {message : String} {address : Option Address} {a : Address} :
    requireGiven message address = .ok a ↔ address = some a := by
  cases address with
  | none => simp [requireGiven]
  | some _ => simp [requireGiven]

def expectPositiveInt (key : String) (value : Option ℤ) : Outcome Unit :=
  require (∀ k ∈ value, 0 ≤ k) (key ++ " must not be negative")

namespace Readable

variable (r : Readable)

/-- `createFees`, called with the timestamp of the block. -/
def feesAt (n : ℕ) (recoveryMode : Bool) : Outcome Fees := do
  let lastFeeOperationTime ← toNumber (r.createFees n).1
  Fees.new (r.createFees n).2 MINUTE_DECAY_FACTOR BETA (convertToDate lastFeeOperationTime)
    (convertToDate (r.getBlockTimestamp n)) recoveryMode

/-- The vaults of a slice as they were after their last modifications; from the end of the list
they have negative indices. -/
def sortedVaults (n : ℕ) (params : VaultListingParams) : Outcome (List OwnedVault) := do
  expectPositiveInt "first" (some params.first)
  expectPositiveInt "startingAt" params.startingAt
  let startIdx := match params.sortedBy with
    | .descendingCollateralRatio => params.startingAt.getD 0
    | .ascendingCollateralRatio => -(params.startingAt.getD 0 + 1)
  return r.getMultipleSortedVaults startIdx params.first.toNat n

/-- A read at block `n`, without a store. -/
def read (connection : BitcoinsMoneypConnection) (n : ℕ) : (g : Getter) → Outcome g.Value
  | .getTotalRedistributed => return r.getTotalRedistributed n
  | .getVaultBeforeRedistribution address => do
    let address ← requireAddress connection address
    return r.getVaultBeforeRedistribution address n
  | .getVault address => do
    let address ← requireAddress connection address
    return (r.getVaultBeforeRedistribution address n).applyRedistribution
      (r.getTotalRedistributed n)
  | .getNumberOfVaults => return r.getNumberOfVaults n
  | .getPrice => return r.getPrice n
  | .getTotal => return r.getTotal n
  | .getStabilityDeposit address => do
    let address ← requireAddress connection address
    return r.getStabilityDeposit address n
  | .getRemainingStabilityPoolMPReward => return r.getRemainingStabilityPoolMPReward n
  | .getBPDInStabilityPool => return r.getBPDInStabilityPool n
  | .getBPDBalance address => do
    let address ← requireAddress connection address
    return r.getBPDBalance address n
  | .getMPBalance address => do
    let address ← requireAddress connection address
    return r.getMPBalance address n
  | .getCollateralSurplusBalance address => do
    let address ← requireAddress connection address
    return r.getCollateralSurplusBalance address n
  | .getVaultsBeforeRedistribution params => r.sortedVaults n params
  | .getVaults params => do
    let vaults ← r.sortedVaults n params
    return vaults.map fun vault => vault.applyRedistribution (r.getTotalRedistributed n)
  | .getFees => r.feesAt n ((r.getTotal n).collateralRatioIsBelowCritical (r.getPrice n))
  | .getMPStake address => do
    let address ← requireAddress connection address
    return r.getMPStake address n
  | .getTotalStakedMP => return r.getTotalStakedMP n
  | .getFrontendStatus address => do
    let address ← requireFrontendAddress connection address
    return r.getFrontendStatus address n

/-- What `_get` reads for the fields of the store; without a frontend or a user, that is fixed. -/
def field (connection : BitcoinsMoneypConnection) (n : ℕ) : (f : ReadField) → f.Value
  | .price => r.getPrice n
  | .numberOfVaults => r.getNumberOfVaults n
  | .totalRedistributed => r.getTotalRedistributed n
  | .total => r.getTotal n
  | .bpdInStabilityPool => r.getBPDInStabilityPool n
  | .totalStakedMP => r.getTotalStakedMP n
  | .riskiestVaultBeforeRedistribution => r.getRiskiestVaultBeforeRedistribution n
  | .remainingStabilityPoolMPReward => r.getRemainingStabilityPoolMPReward n
  | .frontend => (connection.frontendTag.map fun a => r.getFrontendStatus a n).getD .unregistered
  | .accountBalance => (connection.userAddress.map fun a => r.getBalance a n).getD ZERO
  | .bpdBalance => (connection.userAddress.map fun a => r.getBPDBalance a n).getD ZERO
  | .mpBalance => (connection.userAddress.map fun a => r.getMPBalance a n).getD ZERO
  | .collateralSurplusBalance =>
    (connection.userAddress.map fun a => r.getCollateralSurplusBalance a n).getD ZERO
  | .vaultBeforeRedistribution =>
    (connection.userAddress.map fun a => r.getVaultBeforeRedistribution a n).getD
      { collateral := ZERO, debt := ZERO, status := .nonExistent, ownerAddress := 0 }
  | .stabilityDeposit =>
    (connection.userAddress.map fun a => r.getStabilityDeposit a n).getD ⟨ZERO, ZERO, ZERO, ZERO, 0⟩
  | .mpStake => (connection.userAddress.map fun a => r.getMPStake a n).getD {}
  | .ownFrontend => (connection.userAddress.map fun a => r.getFrontendStatus a n).getD .unregistered

end Readable

structure BitcoinsCallOverrides where
  blockTag : Option ℕ

namespace BlockPolledMoneypStoreBasedCache

variable (connection : BitcoinsMoneypConnection) (s : PolledState)
  (overrides : Option BitcoinsCallOverrides)

/-- The block of the state. -/
def blockTag : Option ℕ := s.extraState.bind fun x => x.blockTag

def blockHit : Bool :=
  match overrides.bind fun o => o.blockTag with
  | none => true
  | some n => decide (blockTag s = some n)

def userHit (address : Option Address) : Bool :=
  blockHit s overrides && decide (address = none ∨ address = connection.userAddress)

def frontendHit (address : Option Address) : Bool :=
  blockHit s overrides && decide (address = none ∨ address = connection.frontendTag)

/-- What stands in a field, unless the read misses. -/
def hit {α : Type} (isHit : Bool) (value : Option (Fetched α)) : Option (Fetched α) :=
  if isHit then value else none

def read : (g : Getter) → Option (Fetched g.Value)
  | .getTotalRedistributed =>
    hit (blockHit s overrides) (FailedReads.field s .totalRedistributed)
  | .getVaultBeforeRedistribution address =>
    hit (userHit connection s overrides address) (FailedReads.field s .vaultBeforeRedistribution)
  | .getVault address =>
    hit (userHit connection s overrides address) (s.derivedState.map fun x => .value x.vault)
  | .getNumberOfVaults => hit (blockHit s overrides) (FailedReads.field s .numberOfVaults)
  | .getPrice => hit (blockHit s overrides) (FailedReads.field s .price)
  | .getTotal => hit (blockHit s overrides) (FailedReads.field s .total)
  | .getStabilityDeposit address =>
    hit (userHit connection s overrides address) (FailedReads.field s .stabilityDeposit)
  | .getRemainingStabilityPoolMPReward =>
    hit (blockHit s overrides) (FailedReads.field s .remainingStabilityPoolMPReward)
  | .getBPDInStabilityPool =>
    hit (blockHit s overrides) (FailedReads.field s .bpdInStabilityPool)
  | .getBPDBalance address =>
    hit (userHit connection s overrides address) (FailedReads.field s .bpdBalance)
  | .getMPBalance address =>
    hit (userHit connection s overrides address) (FailedReads.field s .mpBalance)
  | .getCollateralSurplusBalance address =>
    hit (userHit connection s overrides address) (FailedReads.field s .collateralSurplusBalance)
  | .getVaultsBeforeRedistribution _ => none
  | .getVaults _ => none
  | .getFees => hit (blockHit s overrides) (s.derivedState.map fun x => .value x.fees)
  | .getMPStake address =>
    hit (userHit connection s overrides address) (FailedReads.field s .mpStake)
  | .getTotalStakedMP => hit (blockHit s overrides) (FailedReads.field s .totalStakedMP)
  | .getFrontendStatus address =>
    hit (frontendHit connection s overrides address) (FailedReads.field s .frontend)

end BlockPolledMoneypStoreBasedCache

/-- A connection with a store, whose provider has seen this block as the latest one. -/
structure CachedReadable where
  readable : Readable
  connection : BitcoinsMoneypConnection
  store : PolledState
  latest : ℕ

namespace CachedReadable

variable (c : CachedReadable) (overrides : Option BitcoinsCallOverrides)

/-- From the cache, or else from the contracts; a caught error in the store is a value, too. -/
def readThrough (g : Getter) : Outcome (Fetched g.Value) :=
  match BlockPolledMoneypStoreBasedCache.read c.connection c.store overrides g with
  | some value => return value
  | none => Fetched.value <$> c.readable.read c.connection
      ((overrides.bind fun o => o.blockTag).getD c.latest) g

/-- The two reads of `getVault` go to the cache one by one. -/
def getVault (address : Option Address) : Outcome (Fetched UserVault) := do
  let vaultBeforeRedistribution ← c.readThrough overrides (.getVaultBeforeRedistribution address)
  let totalRedistributed ← c.readThrough overrides .getTotalRedistributed
  let vaultBeforeRedistribution ← vaultBeforeRedistribution.get
  let totalRedistributed ← totalRedistributed.get
  return .value (vaultBeforeRedistribution.applyRedistribution totalRedistributed)

/-- The slice comes from the contracts, and what was redistributed from the cache. -/
def getVaults (params : VaultListingParams) : Outcome (Fetched (List UserVault)) := do
  let totalRedistributed ← c.readThrough overrides .getTotalRedistributed
  let vaults ← c.readThrough overrides (.getVaultsBeforeRedistribution params)
  let vaults ← vaults.get
  Fetched.value <$> vaults.mapM fun vault => do
    let totalRedistributed ← totalRedistributed.get
    return vault.applyRedistribution totalRedistributed

def read : (g : Getter) → Outcome (Fetched g.Value)
  | .getVault address => c.getVault overrides address
  | .getVaults params => c.getVaults overrides params
  | .getVaultsBeforeRedistribution params =>
    c.readThrough overrides (.getVaultsBeforeRedistribution params)
  | .getTotalRedistributed => c.readThrough overrides .getTotalRedistributed
  | .getVaultBeforeRedistribution address =>
    c.readThrough overrides (.getVaultBeforeRedistribution address)
  | .getNumberOfVaults => c.readThrough overrides .getNumberOfVaults
  | .getPrice => c.readThrough overrides .getPrice
  | .getTotal => c.readThrough overrides .getTotal
  | .getStabilityDeposit address => c.readThrough overrides (.getStabilityDeposit address)
  | .getRemainingStabilityPoolMPReward =>
    c.readThrough overrides .getRemainingStabilityPoolMPReward
  | .getBPDInStabilityPool => c.readThrough overrides .getBPDInStabilityPool
  | .getBPDBalance address => c.readThrough overrides (.getBPDBalance address)
  | .getMPBalance address => c.readThrough overrides (.getMPBalance address)
  | .getCollateralSurplusBalance address =>
    c.readThrough overrides (.getCollateralSurplusBalance address)
  | .getFees => c.readThrough overrides .getFees
  | .getMPStake address => c.readThrough overrides (.getMPStake address)
  | .getTotalStakedMP => c.readThrough overrides .getTotalStakedMP
  | .getFrontendStatus address => c.readThrough overrides (.getFrontendStatus address)

end CachedReadable

end MoneyProtocol.Sdk
