import MoneyProtocol.Contracts.SortedVaults

/-!
# Pages of the sorted list

`MultiVaultGetter` reads the vaults of the list one page at a time. A start index from zero on
counts from the head of the list, a negative one from its tail.
-/

namespace MoneyProtocol.MultiVaultGetter

structure CombinedVaultData where
  owner : Address
  debt : ℕ
  coll : ℕ
  stake : ℕ
  snapshotRBTC : ℕ
  snapshotBPDDebt : ℕ
  deriving DecidableEq

/-- What the VaultManager has stored for an owner. -/
def combinedVaultData (s : State) (owner : Address) : CombinedVaultData where
  owner := owner
  debt := (s.vault owner).debt
  coll := (s.vault owner).coll
  stake := (s.vault owner).stake
  snapshotRBTC := (s.vaultManager.rewardSnapshots owner).RBTC
  snapshotBPDDebt := (s.vaultManager.rewardSnapshots owner).BPDDebt

/-- The loop that skips the vaults in front of the page. -/
def skip (next : Address → Address) : ℕ → Address → Address
  | 0, currentVaultowner => currentVaultowner
  | n + 1, currentVaultowner => skip next n (next currentVaultowner)

/-- The loop that fills the page. -/
def fill (next : Address → Address) (s : State) : ℕ → Address → List CombinedVaultData
  | 0, _ => []
  | n + 1, currentVaultowner =>
    combinedVaultData s currentVaultowner :: fill next s n (next currentVaultowner)

def getMultipleSortedVaultsFromHead (startIdx count : ℕ) (s : State) : List CombinedVaultData :=
  let next a := SortedVaults.getNext a s.sortedVaults
  fill next s count (skip next startIdx (SortedVaults.getFirst s.sortedVaults))

def getMultipleSortedVaultsFromTail (startIdx count : ℕ) (s : State) : List CombinedVaultData :=
  let prev a := SortedVaults.getPrev a s.sortedVaults
  fill prev s count (skip prev startIdx (SortedVaults.getLast s.sortedVaults))

/-- The least signed integer is no exception: one is added before the sign changes. -/
def getMultipleSortedVaults (startIdx : ℤ) (count : ℕ) (s : State) : List CombinedVaultData :=
  let descend := 0 ≤ startIdx
  let idx := if descend then startIdx.toNat else (-(startIdx + 1)).toNat
  let sortedVaultsSize := SortedVaults.getSize s.sortedVaults
  if idx ≥ sortedVaultsSize then []
  else
    let maxCount := sortedVaultsSize - idx
    let count := if count > maxCount then maxCount else count
    if descend then getMultipleSortedVaultsFromHead idx count s
    else getMultipleSortedVaultsFromTail idx count s

end MoneyProtocol.MultiVaultGetter
