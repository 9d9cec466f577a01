import MoneyProtocol.Accounting.Ledger

/-!
# Ledger entries of the vault records

What the `VaultManager` functions on single vaults post to the ledger: a change of a record
posts its difference, moving pending rewards or redistributing posts the amounts moved, and
closing a vault gives back its collateral, its debt and its reserve.
-/

namespace MoneyProtocol.VaultManager

open Outcome PointSum MoneypBase

variable {d : Deployment} {s s' : State} {block : Block} {a : Address} {v : ℕ}

theorem setVault_ledger {w : Vault} :
    (setVault a w s).ledger d = s.ledger d - entry .coll (w.coll - (s.vault a).coll) -
      entry .debt (w.debt - (s.vault a).debt) := by
  have hcoll := total_update Vault.coll s.vaultManager.vaults a w
  have hdebt := total_update Vault.debt s.vaultManager.vaults a w
  funext x
  cases x <;> simp [State.ledger, setVault, State.vault]
  all_goals omega

/-- A change of the other fields of a record posts nothing. -/
theorem setVault_ledger_same {w : Vault} (hcoll : w.coll = (s.vault a).coll)
    (hdebt : w.debt = (s.vault a).debt) : (setVault a w s).ledger d = s.ledger d := by
  simp [setVault_ledger, hcoll, hdebt]

@[simp] theorem setRewardSnapshot_ledger {r : RewardSnapshot} :
    (setRewardSnapshot a r s).ledger d = s.ledger d := rfl

@[simp] theorem setTotalStakes_ledger : (setTotalStakes v s).ledger d = s.ledger d := rfl

@[simp] theorem setRewards_ledger {b e f g : ℕ} :
    (setRewards b e f g s).ledger d = s.ledger d := rfl

@[simp] theorem setSortedVaults_ledger {data : SortedVaults} :
    (setSortedVaults data s).ledger d = s.ledger d := rfl

theorem increaseVaultColl_ledger (h : increaseVaultColl a v s = .ok s') :
    s'.ledger d = s.ledger d - entry .coll v := by
  simp [increaseVaultColl] at h
  obtain ⟨-, rfl⟩ := h
  simp [setVault_ledger]

theorem decreaseVaultColl_ledger (h : decreaseVaultColl a v s = .ok s') :
    s'.ledger d = s.ledger d + entry .coll v := by
  simp [decreaseVaultColl] at h
  obtain ⟨hle, rfl⟩ := h
  simp [setVault_ledger, hle, Pi.single_neg]

theorem increaseVaultDebt_ledger (h : increaseVaultDebt a v s = .ok s') :
    s'.ledger d = s.ledger d - entry .debt v := by
  simp [increaseVaultDebt] at h
  obtain ⟨-, rfl⟩ := h
  simp [setVault_ledger]

theorem decreaseVaultDebt_ledger (h : decreaseVaultDebt a v s = .ok s') :
    s'.ledger d = s.ledger d + entry .debt v := by
  simp [decreaseVaultDebt] at h
  obtain ⟨hle, rfl⟩ := h
  simp [setVault_ledger, hle, Pi.single_neg]

/-- Moving pending rewards debits the Default Pool, logs the RBTC it sent, and credits the
Active Pool. -/
theorem movePendingVaultRewardsToActivePool_ok {BPD RBTC : ℕ}
    (h : movePendingVaultRewardsToActivePool d BPD RBTC s = .ok s') :
    BPD ≤ s.defaultPool.BPDDebt ∧ RBTC ≤ s.defaultPool.RBTC ∧ ∃ rbtc, s' = { s with
      rbtc := rbtc
      activePool := ⟨s.activePool.RBTC + RBTC, s.activePool.BPDDebt + BPD⟩
      defaultPool := ⟨s.defaultPool.RBTC - RBTC, s.defaultPool.BPDDebt - BPD,
        RBTC :: s.defaultPool.bitcoinSent⟩ } := by
  simp only [movePendingVaultRewardsToActivePool, DefaultPool.decreaseBPDDebt,
    ActivePool.increaseBPDDebt, DefaultPool.sendRBTCToActivePool, bind_ok, pure_ok,
    SafeMath.sub_ok, SafeMath.add_ok] at h
  obtain ⟨_, ⟨_, ⟨hBPD, rfl⟩, rfl⟩, _, ⟨_, ⟨-, rfl⟩, rfl⟩, _, ⟨hRBTC, rfl⟩, h⟩ := h
  obtain ⟨-, h⟩ := callWithValue_ok.mp h
  rcases receive_ok h with ⟨-, -, rfl⟩ | ⟨hr, -⟩ | ⟨hr, -⟩ | ⟨hr, -⟩ | ⟨hr, -⟩
  · exact ⟨hBPD, hRBTC, _, rfl⟩
  · exact absurd hr.symm d.defaultPool_ne_activePool
  · exact absurd hr.symm d.collSurplusPool_ne_activePool
  · exact absurd hr.symm d.stabilityPool_ne_activePool
  · exact absurd rfl hr

theorem movePendingVaultRewardsToActivePool_ledger {BPD RBTC : ℕ}
    (h : movePendingVaultRewardsToActivePool d BPD RBTC s = .ok s') :
    s'.ledger d = s.ledger d + entry .coll RBTC + entry .debt BPD := by
  simp only [movePendingVaultRewardsToActivePool, bind_ok] at h
  obtain ⟨_, hdefault, _, hactive, h⟩ := h
  rw [DefaultPool.sendRBTCToActivePool_ledger h, ActivePool.increaseBPDDebt_ledger hactive,
    DefaultPool.decreaseBPDDebt_ledger hdefault]
  abel

/-- What a vault gains, the Active Pool gains. -/
theorem applyPendingRewards_ledger (h : applyPendingRewards d a s = .ok s') :
    s'.ledger d = s.ledger d := by
  simp only [applyPendingRewards] at h
  split_ifs at h
  · simp only [bind_ok] at h
    obtain ⟨_, -, _, -, _, -, _, hcoll, _, hdebt, h⟩ := h
    rw [movePendingVaultRewardsToActivePool_ledger h, updateVaultRewardSnapshots,
      setRewardSnapshot_ledger, increaseVaultDebt_ledger hdebt, increaseVaultColl_ledger hcoll]
    abel
  · rw [pure_ok.mp h]

theorem removeStake_ok (h : removeStake a s = .ok s') :
    (s.vault a).stake ≤ s.vaultManager.totalStakes ∧
      s' = setVault a { s.vault a with stake := 0 }
        (setTotalStakes (s.vaultManager.totalStakes - (s.vault a).stake) s) := by
  simp only [removeStake, bind_ok, pure_ok, SafeMath.sub_ok] at h
  obtain ⟨_, ⟨hle, rfl⟩, rfl⟩ := h
  exact ⟨hle, rfl⟩

theorem removeStake_ledger (h : removeStake a s = .ok s') : s'.ledger d = s.ledger d := by
  obtain ⟨-, rfl⟩ := removeStake_ok h
  rw [setVault_ledger_same, setTotalStakes_ledger] <;> rfl

/-- Removing a stake keeps the collateral and the debt of the vault. -/
theorem removeStake_record (h : removeStake a s = .ok s') :
    (s'.vault a).coll = (s.vault a).coll ∧ (s'.vault a).debt = (s.vault a).debt := by
  obtain ⟨-, rfl⟩ := removeStake_ok h
  simp [setVault, State.vault]

theorem updateStakeAndTotalStakes_ledger (h : updateStakeAndTotalStakes a s = .ok s') :
    s'.ledger d = s.ledger d := by
  simp only [updateStakeAndTotalStakes, bind_ok, pure_ok] at h
  obtain ⟨_, -, _, -, _, -, rfl⟩ := h
  rw [setTotalStakes_ledger, setVault_ledger_same] <;> rfl

theorem redistributeDebtAndColl_ledger {debt coll : ℕ} (hzero : debt = 0 → coll = 0)
    (h : redistributeDebtAndColl d debt coll s = .ok s') :
    s'.ledger d = s.ledger d - entry .coll coll - entry .debt debt := by
  simp only [redistributeDebtAndColl] at h
  split_ifs at h with hdebt
  · obtain rfl := pure_ok.mp h
    simp [hdebt, hzero hdebt]
  · simp only [bind_ok, Prod.exists] at h
    obtain ⟨_, _, -, _, _, -, _, -, _, -, _, hactive, _, hdefault, h⟩ := h
    rw [ActivePool.sendRBTC_ledger_of_ne d.collSurplusPool_ne_defaultPool.symm h,
      DefaultPool.increaseBPDDebt_ledger hdefault, ActivePool.decreaseBPDDebt_ledger hactive]
    rw [setRewards_ledger]
    abel

theorem addVaultOwnerToArray_ledger (h : addVaultOwnerToArray a s = .ok s') :
    s'.ledger d = s.ledger d - entry .reserve BPD_GAS_COMPENSATION := by
  simp only [addVaultOwnerToArray, bind_ok, pure_ok] at h
  obtain ⟨_, -, rfl⟩ := h
  rw [setVault_ledger_same]
  · funext x
    cases x <;> simp [State.ledger]
    ring
  · rfl
  · rfl

theorem removeVaultOwner_ledger {n : ℕ} (hn : n = s.vaultManager.vaultOwners.length)
    (h : removeVaultOwner a n s = .ok s') :
    s'.ledger d = s.ledger d + entry .reserve BPD_GAS_COMPENSATION := by
  simp only [removeVaultOwner, bind_ok, assert_ok, SafeMath.sub_ok] at h
  obtain ⟨_, -, _, ⟨hpos, rfl⟩, _, -, h⟩ := h
  split at h
  · simp at h
  · next moved _ =>
    obtain rfl := pure_ok.mp h
    have hsame := setVault_ledger_same (d := d) (s := s) (a := moved)
      (w := { s.vault moved with arrayIndex := (s.vault a).arrayIndex }) rfl rfl
    have hlen : ((n - 1 : ℕ) : ℤ) = n - 1 := by omega
    funext x
    have hx := congrFun hsame x
    cases x <;> simp [State.ledger, setVault, State.vault, ← hn] at hx ⊢
    · exact hx
    · exact hx
    · rw [hlen]
      ring

/-- Closing a vault rewrites the vault book and the sorted list only. -/
theorem closeVault_frame {st : Status} (h : closeVault a st s = .ok s') :
    ∃ book data, s' = { s with vaultManager := book, sortedVaults := data } := by
  simp only [closeVault, removeVaultOwner, bind_ok, pure_ok] at h
  obtain ⟨_, -, _, -, _, ⟨_, -, _, -, _, -, hmove⟩, data, -, rfl⟩ := h
  split at hmove
  · simp at hmove
  · obtain rfl := pure_ok.mp hmove
    exact ⟨_, data, rfl⟩

theorem closeVault_ledger {st : Status} (h : closeVault a st s = .ok s') :
    s'.ledger d = s.ledger d + entry .coll (s.vault a).coll + entry .debt (s.vault a).debt +
      entry .reserve BPD_GAS_COMPENSATION := by
  simp only [closeVault, bind_ok, pure_ok] at h
  obtain ⟨_, -, _, -, _, hremove, _, -, rfl⟩ := h
  rw [setSortedVaults_ledger, removeVaultOwner_ledger rfl hremove, setRewardSnapshot_ledger,
    setVault_ledger]
  simp [Vault.closed, Pi.single_neg]

end MoneyProtocol.VaultManager
