import MoneyProtocol.Book.InsertPosition
import MoneyProtocol.Contracts.Operations

/-!
# The vault book and its moves

The book is what the protocol records about vaults: the records, stakes and reward
snapshots of the VaultManager, its array of owners, the sorted list, and the Default Pool
that holds the undistributed rewards. Whatever a transaction does in between, it changes the
book by a few moves only: a vault is opened, collects its pending rewards, is restaked or
closed; rewards are redistributed; the system totals are snapshotted.
-/

namespace MoneyProtocol

open MoneypMath MoneypBase

@[ext]
structure Book where
  vaults : Address → Vault
  totalStakes : ℕ
  totalStakesSnapshot : ℕ
  totalCollateralSnapshot : ℕ
  B_RBTC : ℕ
  B_BPDDebt : ℕ
  rewardSnapshots : Address → RewardSnapshot
  vaultOwners : List Address
  lastRBTCError_Redistribution : ℕ
  lastBPDDebtError_Redistribution : ℕ
  sortedVaults : SortedVaults
  defaultPool : DefaultPool

def State.book (s : State) : Book where
  vaults := s.vaultManager.vaults
  totalStakes := s.vaultManager.totalStakes
  totalStakesSnapshot := s.vaultManager.totalStakesSnapshot
  totalCollateralSnapshot := s.vaultManager.totalCollateralSnapshot
  B_RBTC := s.vaultManager.B_RBTC
  B_BPDDebt := s.vaultManager.B_BPDDebt
  rewardSnapshots := s.vaultManager.rewardSnapshots
  vaultOwners := s.vaultManager.vaultOwners
  lastRBTCError_Redistribution := s.vaultManager.lastRBTCError_Redistribution
  lastBPDDebtError_Redistribution := s.vaultManager.lastBPDDebtError_Redistribution
  sortedVaults := s.sortedVaults
  defaultPool := s.defaultPool

namespace Book

variable {b b' : Book} {a u : Address}

def Active (b : Book) (a : Address) : Prop := (b.vaults a).status = .active

instance (b : Book) (a : Address) : Decidable (b.Active a) := inferInstanceAs (Decidable (_ = _))

/-- The RBTC rewards of a vault that it has not collected yet. -/
def pendingRBTC (b : Book) (a : Address) : ℕ :=
  if (b.vaults a).status = .active then
    (b.vaults a).stake * (b.B_RBTC - (b.rewardSnapshots a).RBTC) / DECIMAL_PRECISION
  else 0

/-- The debt that comes with the rewards. -/
def pendingDebt (b : Book) (a : Address) : ℕ :=
  if (b.vaults a).status = .active then
    (b.vaults a).stake * (b.B_BPDDebt - (b.rewardSnapshots a).BPDDebt) / DECIMAL_PRECISION
  else 0

def entireColl (b : Book) (a : Address) : ℕ := (b.vaults a).coll + b.pendingRBTC a

def entireDebt (b : Book) (a : Address) : ℕ := (b.vaults a).debt + b.pendingDebt a

def nominalICR (b : Book) (a : Address) : ℕ := nominalCR (b.entireColl a) (b.entireDebt a)

/-- The stake that collateral is worth after the last snapshot of the system totals. -/
def newStake (b : Book) (coll : ℕ) : ℕ :=
  if b.totalCollateralSnapshot = 0 then coll
  else coll * b.totalStakesSnapshot / b.totalCollateralSnapshot

/-- The vault has no collateral pending, so its rewards are not applied, but debt pending. -/
def Stale (b : Book) (a : Address) : Prop :=
  b.B_RBTC ≤ (b.rewardSnapshots a).RBTC ∧ (b.rewardSnapshots a).BPDDebt < b.B_BPDDebt

instance (b : Book) (a : Address) : Decidable (b.Stale a) := inferInstanceAs (Decidable (_ ∧ _))

/-- `read` answers with the nominal ratios of the book, but perhaps for `a`. -/
def Reads (b : Book) (a : Address) (read : Address → Outcome ℕ) : Prop :=
  ∀ u r, u ≠ a → read u = .ok r → b.nominalICR u = r

def opened (b : Book) (a : Address) (coll debt : ℕ) (data : SortedVaults) : Book :=
  let v := b.vaults a
  let stake := b.newStake (v.coll + coll)
  { b with
    vaults := Function.update b.vaults a
      ⟨v.debt + debt, v.coll + coll, stake, .active, b.vaultOwners.length⟩
    totalStakes := b.totalStakes - v.stake + stake
    rewardSnapshots := Function.update b.rewardSnapshots a ⟨b.B_RBTC, b.B_BPDDebt⟩
    vaultOwners := b.vaultOwners ++ [a]
    sortedVaults := data }

def collected (b : Book) (a : Address) : Book :=
  let v := b.vaults a
  { b with
    vaults := Function.update b.vaults a
      { v with coll := b.entireColl a, debt := b.entireDebt a }
    rewardSnapshots := Function.update b.rewardSnapshots a ⟨b.B_RBTC, b.B_BPDDebt⟩
    defaultPool := ⟨b.defaultPool.RBTC - b.pendingRBTC a,
      b.defaultPool.BPDDebt - b.pendingDebt a, b.pendingRBTC a :: b.defaultPool.bitcoinSent⟩ }

def restaked (b : Book) (a : Address) (coll debt : ℕ) (data : SortedVaults) : Book :=
  let v := b.vaults a
  let stake := b.newStake coll
  { b with
    vaults := Function.update b.vaults a { v with coll := coll, debt := debt, stake := stake }
    totalStakes := b.totalStakes - v.stake + stake
    sortedVaults := data }

/-- The owner in the last slot of the array moves to the slot of `a`. -/
def closed (b : Book) (a : Address) (st : Status) (moved : Address) (data : SortedVaults) :
    Book :=
  let v := b.vaults a
  let vaults := Function.update b.vaults a ⟨0, 0, 0, st, v.arrayIndex⟩
  { b with
    vaults := Function.update vaults moved { vaults moved with arrayIndex := v.arrayIndex }
    totalStakes := b.totalStakes - v.stake
    rewardSnapshots := Function.update b.rewardSnapshots a ⟨0, 0⟩
    vaultOwners := (b.vaultOwners.set v.arrayIndex moved).dropLast
    sortedVaults := data }

/-- The accumulators gain `RBTCPerUnit` and `debtPerUnit` for each unit staked. -/
def redistributed (b : Book) (debt coll RBTCPerUnit debtPerUnit RBTCError debtError : ℕ) : Book :=
  { b with
    B_RBTC := b.B_RBTC + RBTCPerUnit
    B_BPDDebt := b.B_BPDDebt + debtPerUnit
    lastRBTCError_Redistribution := RBTCError
    lastBPDDebtError_Redistribution := debtError
    defaultPool := { b.defaultPool with
      RBTC := b.defaultPool.RBTC + coll
      BPDDebt := b.defaultPool.BPDDebt + debt } }

def snapshotted (b : Book) (totalColl : ℕ) : Book :=
  { b with
    totalStakesSnapshot := b.totalStakes
    totalCollateralSnapshot := totalColl }

/-- Closing changes the other records in their index at most. -/
theorem closed_of_ne {st : Status} {moved : Address} {data : SortedVaults} (hu : u ≠ a) :
    ∃ i, (b.closed a st moved data).vaults u = { b.vaults u with arrayIndex := i } := by
  by_cases hm : u = moved
  · subst hm
    exact ⟨(b.vaults a).arrayIndex, by simp [closed, Function.update_of_ne hu]⟩
  · exact ⟨(b.vaults u).arrayIndex, by
      simp [closed, Function.update_of_ne hm, Function.update_of_ne hu]⟩

theorem closed_self {st : Status} {moved : Address} {data : SortedVaults} :
    ∃ i, (b.closed a st moved data).vaults a = ⟨0, 0, 0, st, i⟩ := by
  by_cases hm : a = moved
  · subst hm
    exact ⟨(b.vaults a).arrayIndex, by simp [closed]⟩
  · exact ⟨(b.vaults a).arrayIndex, by simp [closed, Function.update_of_ne hm]⟩

def minDebt : ℕ := MIN_NET_DEBT + BPD_GAS_COMPENSATION

/-- What a run keeps to in the delicate moves: whether it restakes only vaults that are not
stale, which debt and collateral it redistributes, and which collateral it sets a stake for,
given the snapshots of the stakes and of the collateral. -/
structure Policy where
  fresh : Prop
  redistribute : Book → ℕ → ℕ → Prop
  stake : ℕ → ℕ → ℕ → Prop

/-- Everything is allowed. -/
def Policy.any : Policy := ⟨False, fun _ _ _ => True, fun _ _ _ => True⟩

/-- The policy lets `b` set a stake for the collateral. -/
def AllowsStake (b : Book) (P : Policy) (coll : ℕ) : Prop :=
  P.stake b.totalStakesSnapshot b.totalCollateralSnapshot coll

/-- One move of the book, with what the code checked before it. -/
inductive Move (P : Policy) (b : Book) : Book → Prop
  | opened {a : Address} {coll debt maxSize : ℕ} {p n : Address} {data : SortedVaults}
      {read : Address → Outcome ℕ} (hinactive : ¬b.Active a) (hdebt : minDebt ≤ debt)
      (hlength : b.vaultOwners.length < 2 ^ 128) (hstake : (b.vaults a).stake ≤ b.totalStakes)
      (hread : b.Reads a read)
      (hinsert : SortedVaults.insert read maxSize a (nominalCR coll debt) p n b.sortedVaults =
        .ok data) (hallowed : b.AllowsStake P ((b.vaults a).coll + coll)) :
      Move P b (b.opened a coll debt data)
  | collected {a : Address} (hRBTC : b.pendingRBTC a ≤ b.defaultPool.RBTC)
      (hdebt : b.pendingDebt a ≤ b.defaultPool.BPDDebt) :
      Move P b (b.collected a)
  | restaked {a : Address} {coll debt maxSize : ℕ} {p n : Address} {data : SortedVaults}
      {read : Address → Outcome ℕ} (hpolicy : P.fresh → ¬b.Stale a)
      (hnone : b.Active a → b.B_RBTC ≤ (b.rewardSnapshots a).RBTC)
      (hdebt : minDebt ≤ (b.vaults a).debt → minDebt ≤ debt)
      (hstake : (b.vaults a).stake ≤ b.totalStakes) (hread : b.Reads a read)
      (hinsert : SortedVaults.reInsert read maxSize a (nominalCR coll debt) p n b.sortedVaults =
        .ok data) (hallowed : b.AllowsStake P coll) :
      Move P b (b.restaked a coll debt data)
  | closed {a moved : Address} {st : Status} {data : SortedVaults} (hst : st ≠ .active)
      (hnone : b.Active a → b.B_RBTC ≤ (b.rewardSnapshots a).RBTC)
      (hlength : 1 < b.vaultOwners.length)
      (hstake : (b.vaults a).stake ≤ b.totalStakes)
      (hindex : (b.vaults a).arrayIndex ≤ b.vaultOwners.length - 1)
      (hmoved : b.vaultOwners[b.vaultOwners.length - 1]? = some moved)
      (hremove : SortedVaults.remove a b.sortedVaults = .ok data) :
      Move P b (b.closed a st moved data)
  | redistributed {debt coll RBTCPerUnit debtPerUnit RBTCError debtError : ℕ}
      (hpolicy : P.redistribute b debt coll)
      (hRBTC : RBTCPerUnit * b.totalStakes + RBTCError =
        coll * DECIMAL_PRECISION + b.lastRBTCError_Redistribution)
      (hRBTCError : RBTCError < b.totalStakes)
      (hdebt : debtPerUnit * b.totalStakes + debtError =
        debt * DECIMAL_PRECISION + b.lastBPDDebtError_Redistribution)
      (hdebtError : debtError < b.totalStakes) :
      Move P b (b.redistributed debt coll RBTCPerUnit debtPerUnit RBTCError debtError)
  | snapshotted {totalColl : ℕ} (howners : 0 < b.vaultOwners.length) :
      Move P b (b.snapshotted totalColl)

abbrev Moves (P : Policy) : Book → Book → Prop := Relation.ReflTransGen (Move P)

end Book

end MoneyProtocol
