import MoneyProtocol.Contracts.Math
import MoneyProtocol.Library.PointSum

/-!
# Storage of the contracts

One record per contract, with the storage the modelled functions read or write, and the
native RBTC balance of every address. Addresses are 160-bit words. A deployment fixes the
addresses of the contracts: they are wired once by `setAddresses` and never change.
-/

namespace MoneyProtocol

abbrev Address := Fin (2 ^ 160)

instance Address.neZero : NeZero (2 ^ 160) := inferInstance

instance Address.lawfulBEq : LawfulBEq Address := inferInstance

/-- The addresses that `setAddresses` and the constructors wire together. -/
structure Wiring where
  borrowerOperations : Address
  vaultManager : Address
  stabilityPool : Address
  activePool : Address
  defaultPool : Address
  collSurplusPool : Address
  gasPool : Address
  sortedVaults : Address
  bpdToken : Address
  mpToken : Address
  mpStaking : Address
  communityIssuance : Address

def Wiring.contracts (w : Wiring) : List Address :=
  [w.borrowerOperations, w.vaultManager, w.stabilityPool, w.activePool, w.defaultPool,
    w.collSurplusPool, w.gasPool, w.sortedVaults, w.bpdToken, w.mpToken, w.mpStaking,
    w.communityIssuance]

/-- A deployment: distinct contracts at distinct addresses, none of them the zero address,
with the multisig, the deployment time of the MP token and the capacity of the sorted list. -/
structure Deployment extends Wiring where
  multisig : Address
  deploymentStartTime : ℕ
  maxSize : ℕ
  nodup : toWiring.contracts.Nodup
  nonzero : 0 ∉ toWiring.contracts

/-- An account outside the protocol: it can sign a transaction. -/
def Deployment.External (d : Deployment) (a : Address) : Prop := a ≠ 0 ∧ a ∉ d.contracts

instance (d : Deployment) (a : Address) : Decidable (d.External a) :=
  inferInstanceAs (Decidable (_ ∧ _))

/-- There are two external price feeds. -/
instance Block.feeds_neZero : NeZero 2 := inferInstance

/-- What a transaction sees of its block: the clock, and what each of the two external
price feeds answers (`none` when the feed itself reverts). -/
structure Block where
  timestamp : ℕ
  latestAnswer : Fin 2 → Option (ℕ × Bool)

structure ActivePool where
  RBTC : ℕ
  BPDDebt : ℕ

/-- `bitcoinSent` is the log of the pool's `BitcoinSent` events, latest first. -/
structure DefaultPool where
  RBTC : ℕ
  BPDDebt : ℕ
  bitcoinSent : List ℕ

structure CollSurplusPool where
  RBTC : ℕ
  balances : Address → ℕ

structure BPDToken where
  totalSupply : ℕ
  balances : Address → ℕ
  allowances : Address → Address → ℕ
  nonces : Address → ℕ

structure MPToken where
  balances : Address → ℕ
  lockupContractToDeployer : Address → Address

structure CommunityIssuance where
  totalMPIssued : ℕ
  deploymentTime : ℕ

structure StakerSnapshot where
  F_RBTC_Snapshot : ℕ
  F_BPD_Snapshot : ℕ

structure MPStaking where
  stakes : Address → ℕ
  totalMPStaked : ℕ
  F_RBTC : ℕ
  F_BPD : ℕ
  snapshots : Address → StakerSnapshot

structure PriceFeed where
  lastGoodPrice : ℕ

/-- A node of the sorted list; `isPresent` is the source's `exists`. -/
structure Node where
  isPresent : Bool
  nextId : Address
  prevId : Address

def Node.deleted : Node := ⟨false, 0, 0⟩

structure SortedVaults where
  head : Address
  tail : Address
  size : ℕ
  nodes : Address → Node

structure FrontEnd where
  kickbackRate : ℕ
  registered : Bool

structure Deposit where
  initialValue : ℕ
  frontEndTag : Address

structure Snapshots where
  S : ℕ
  P : ℕ
  G : ℕ
  scale : ℕ
  epoch : ℕ

def Snapshots.deleted : Snapshots := ⟨0, 0, 0, 0, 0⟩

structure StabilityPool where
  RBTC : ℕ
  totalBPDDeposits : ℕ
  deposits : Address → Deposit
  depositSnapshots : Address → Snapshots
  frontEnds : Address → FrontEnd
  frontEndStakes : Address → ℕ
  frontEndSnapshots : Address → Snapshots
  P : ℕ
  currentScale : ℕ
  currentEpoch : ℕ
  epochToScaleToSum : ℕ → ℕ → ℕ
  epochToScaleToG : ℕ → ℕ → ℕ
  lastMPError : ℕ
  lastRBTCError_Offset : ℕ
  lastBPDLossError_Offset : ℕ

inductive Status where
  | nonExistent
  | active
  | closedByOwner
  | closedByLiquidation
  | closedByRedemption
  deriving DecidableEq, Repr

structure Vault where
  debt : ℕ
  coll : ℕ
  stake : ℕ
  status : Status
  arrayIndex : ℕ

structure RewardSnapshot where
  RBTC : ℕ
  BPDDebt : ℕ

structure VaultManager where
  baseRate : ℕ
  lastFeeOperationTime : ℕ
  vaults : Address → Vault
  totalStakes : ℕ
  totalStakesSnapshot : ℕ
  totalCollateralSnapshot : ℕ
  B_RBTC : ℕ
  B_BPDDebt : ℕ
  rewardSnapshots : Address → RewardSnapshot
  vaultOwners : List Address
  lastRBTCError_Redistribution : ℕ
  lastBPDDebtError_Redistribution : ℕ

/-- The whole system. `rbtc a` is the native balance of address `a`. -/
structure State where
  rbtc : Address → ℕ
  activePool : ActivePool
  defaultPool : DefaultPool
  collSurplusPool : CollSurplusPool
  bpdToken : BPDToken
  mpToken : MPToken
  communityIssuance : CommunityIssuance
  mpStaking : MPStaking
  priceFeed : PriceFeed
  sortedVaults : SortedVaults
  stabilityPool : StabilityPool
  vaultManager : VaultManager

namespace State

def vault (s : State) (a : Address) : Vault := s.vaultManager.vaults a

/-- The vault of `a` is active. -/
def Active (s : State) (a : Address) : Prop := (s.vault a).status = .active

instance (s : State) (a : Address) : Decidable (s.Active a) :=
  inferInstanceAs (Decidable (_ = _))

/-- The addresses with an active vault. -/
def activeVaults (s : State) : Finset Address := Finset.univ.filter s.Active

@[simp] theorem mem_activeVaults {s : State} {a : Address} : a ∈ s.activeVaults ↔ s.Active a := by
  simp [activeVaults]

end State

/-- Native RBTC moves with a call; the call fails if the sender does not have it. -/
def transferRBTC (sender recipient : Address) (amount : ℕ) (s : State) : Outcome State := do
  Outcome.require (amount ≤ s.rbtc sender) "insufficient balance for transfer"
  return { s with rbtc := PointSum.move sender recipient amount s.rbtc }

end MoneyProtocol
