import MoneyProtocol.Book.Calls

/-!
# The VaultManager moves the book

What the functions on single vaults compute is what the book says, and each of them makes
one move: applying rewards collects them, closing after a removed stake closes, a changed
record with its new stake and place restakes. A liquidation collects and closes.
-/

namespace MoneyProtocol.VaultManager

open Outcome MoneypMath MoneypBase Book

variable {d : Deployment} {s s' t : State} {block : Block} {a : Address} {v : ℕ} {P : Policy}

theorem pendingReward_ok {accumulated snapshot : ℕ} {vault : Vault}
    (h : pendingReward accumulated snapshot vault = .ok v) : snapshot ≤ accumulated ∧
      v = if vault.status = .active then vault.stake * (accumulated - snapshot) / DECIMAL_PRECISION
        else 0 := by
  simp only [pendingReward, bind_ok, SafeMath.sub_ok] at h
  obtain ⟨_, ⟨hle, rfl⟩, h⟩ := h
  refine ⟨hle, ?_⟩
  split_ifs at h with hnone
  · obtain rfl := pure_ok.mp h
    rcases hnone with hzero | hinactive
    · simp [hzero]
    · simp [hinactive]
  · simp only [not_or, not_not] at hnone
    simp only [bind_ok, SafeMath.mul_ok, SafeMath.div_ok] at h
    obtain ⟨_, ⟨-, rfl⟩, -, rfl⟩ := h
    rw [if_pos hnone.2]

/-- A pending reward that fits in a word can be read. -/
theorem pendingReward_succeeds {accumulated snapshot : ℕ} {vault : Vault}
    (hle : snapshot ≤ accumulated) (hroom : vault.stake * (accumulated - snapshot) < 2 ^ 256) :
    ∃ v, pendingReward accumulated snapshot vault = .ok v := by
  simp only [pendingReward, bind_ok, SafeMath.sub_ok]
  by_cases hnone : accumulated - snapshot = 0 ∨ vault.status ≠ .active
  · exact ⟨0, _, ⟨hle, rfl⟩, by rw [if_pos hnone]; rfl⟩
  · refine ⟨vault.stake * (accumulated - snapshot) / DECIMAL_PRECISION, _, ⟨hle, rfl⟩, ?_⟩
    rw [if_neg hnone]
    simp only [bind_ok, SafeMath.mul_ok, SafeMath.div_ok]
    exact ⟨_, ⟨hroom, rfl⟩, by decide, rfl⟩

theorem getPendingRBTCReward_ok (h : getPendingRBTCReward a s = .ok v) :
    v = s.book.pendingRBTC a :=
  (pendingReward_ok h).2

theorem getPendingBPDDebtReward_ok (h : getPendingBPDDebtReward a s = .ok v) :
    v = s.book.pendingDebt a :=
  (pendingReward_ok h).2

theorem getCurrentVaultAmounts_ok {coll debt : ℕ}
    (h : getCurrentVaultAmounts a s = .ok (coll, debt)) :
    coll = s.book.entireColl a ∧ debt = s.book.entireDebt a := by
  simp only [getCurrentVaultAmounts, bind_ok, pure_ok, SafeMath.add_ok, Prod.mk.injEq] at h
  obtain ⟨_, hcoll, _, hdebt, _, ⟨-, rfl⟩, _, ⟨-, rfl⟩, rfl, rfl⟩ := h
  rw [getPendingRBTCReward_ok hcoll, getPendingBPDDebtReward_ok hdebt]
  exact ⟨rfl, rfl⟩

theorem getCurrentICR_collRatio {price : ℕ} (h : getCurrentICR a price s = .ok v) :
    collRatio (s.book.entireColl a) (s.book.entireDebt a) price = v := by
  simp only [getCurrentICR, bind_ok, Prod.exists] at h
  obtain ⟨_, _, hamounts, h⟩ := h
  obtain ⟨rfl, rfl⟩ := getCurrentVaultAmounts_ok hamounts
  exact computeCR_ok h

theorem getNominalICR_ok (h : getNominalICR a s = .ok v) : s.book.nominalICR a = v := by
  simp only [getNominalICR, bind_ok, Prod.exists] at h
  obtain ⟨_, _, hamounts, h⟩ := h
  obtain ⟨rfl, rfl⟩ := getCurrentVaultAmounts_ok hamounts
  exact computeNominalCR_ok h

theorem getEntireDebtAndColl_book {e : EntireDebtAndColl} (h : getEntireDebtAndColl a s = .ok e) :
    e.pendingRBTCReward = s.book.pendingRBTC a ∧ e.pendingBPDDebtReward = s.book.pendingDebt a := by
  obtain ⟨hdebt, hcoll, -, -⟩ := getEntireDebtAndColl_ok h
  exact ⟨getPendingRBTCReward_ok hcoll, getPendingBPDDebtReward_ok hdebt⟩

theorem computeNewStake_ok {coll : ℕ} (h : computeNewStake coll s = .ok v) :
    v = s.book.newStake coll := by
  simp only [computeNewStake] at h
  unfold Book.newStake
  split_ifs at h with hzero
  · exact (pure_ok.mp h).symm.trans (if_pos (c := s.book.totalCollateralSnapshot = 0) hzero).symm
  · simp only [bind_ok, SafeMath.mul_ok, SafeMath.div_ok] at h
    obtain ⟨_, -, _, ⟨-, rfl⟩, -, rfl⟩ := h
    exact (if_neg hzero).symm

/-- In a state whose book differs only in what concerns `a`, ratios read the same. -/
theorem reads_of_same {b : Book} (hvaults : ∀ u, u ≠ a → s.book.vaults u = b.vaults u)
    (hsnapshots : ∀ u, u ≠ a → s.book.rewardSnapshots u = b.rewardSnapshots u)
    (hRBTC : s.book.B_RBTC = b.B_RBTC) (hdebt : s.book.B_BPDDebt = b.B_BPDDebt) :
    b.Reads a (fun u => getNominalICR u s) := by
  intro u r hu hr
  rw [← getNominalICR_ok hr]
  simp only [nominalICR, entireColl, entireDebt, pendingRBTC, pendingDebt, hvaults u hu,
    hsnapshots u hu, hRBTC, hdebt]

theorem movePendingVaultRewardsToActivePool_book {BPD RBTC : ℕ}
    (h : movePendingVaultRewardsToActivePool d BPD RBTC s = .ok s') :
    BPD ≤ s.book.defaultPool.BPDDebt ∧ RBTC ≤ s.book.defaultPool.RBTC ∧
      s'.book = { s.book with defaultPool := ⟨s.defaultPool.RBTC - RBTC,
        s.defaultPool.BPDDebt - BPD, RBTC :: s.defaultPool.bitcoinSent⟩ } := by
  obtain ⟨hBPD, hRBTC, _, rfl⟩ := movePendingVaultRewardsToActivePool_ok h
  exact ⟨hBPD, hRBTC, rfl⟩

theorem applyPendingRewards_book (h : applyPendingRewards d a s = .ok s') :
    (hasPendingRewards a s = true ∧ Move P s.book (s.book.collected a) ∧
      s'.book = s.book.collected a) ∨ (hasPendingRewards a s = false ∧ s' = s) := by
  simp only [applyPendingRewards] at h
  split_ifs at h with hpending
  · simp only [bind_ok, increaseVaultColl, increaseVaultDebt, pure_ok, SafeMath.add_ok] at h
    obtain ⟨_, -, _, hRBTC, _, hBPD, _, ⟨_, ⟨-, rfl⟩, rfl⟩, _, ⟨_, ⟨-, rfl⟩, rfl⟩, h⟩ := h
    obtain rfl := getPendingRBTCReward_ok hRBTC
    obtain rfl := getPendingBPDDebtReward_ok hBPD
    obtain ⟨hdebt, hcoll, hbook⟩ := movePendingVaultRewardsToActivePool_book h
    refine .inl ⟨hpending, .collected hcoll hdebt, hbook.trans ?_⟩
    simp [State.book, Book.collected, updateVaultRewardSnapshots, setRewardSnapshot, setVault,
      State.vault, entireColl, entireDebt]
  · exact .inr ⟨by simpa using hpending, (pure_ok.mp h).symm⟩

theorem applyPendingRewards_moves (h : applyPendingRewards d a s = .ok s') :
    Moves P s.book s'.book := by
  rcases applyPendingRewards_book (P := P) h with ⟨-, hmove, hbook⟩ | ⟨-, rfl⟩
  · rw [hbook]
    exact .single hmove
  · exact .refl

/-- Afterwards no collateral is pending. -/
theorem applyPendingRewards_none (h : applyPendingRewards d a s = .ok s') :
    s'.book.Active a → s'.book.B_RBTC ≤ (s'.book.rewardSnapshots a).RBTC := by
  intro hactive
  rcases applyPendingRewards_book (P := .any) h with ⟨-, -, hbook⟩ | ⟨hnone, rfl⟩
  · simp [hbook, Book.collected]
  · have hstatus : (s'.vault a).status = .active := hactive
    simp only [hasPendingRewards, hstatus, ne_eq, not_true_eq_false, if_false,
      decide_eq_false_iff_not, not_lt] at hnone
    exact hnone

/-- A vault that was not stale has nothing pending afterwards. -/
theorem applyPendingRewards_fresh (h : applyPendingRewards d a s = .ok s')
    (hfresh : ¬s.book.Stale a) : ¬s'.book.Stale a := by
  rcases applyPendingRewards_book (P := .any) h with ⟨-, -, hbook⟩ | ⟨-, rfl⟩
  · simp [hbook, Book.collected, Stale]
  · exact hfresh

/-- Afterwards the vault holds all its collateral. -/
theorem applyPendingRewards_coll (h : applyPendingRewards d a s = .ok s') :
    (s'.book.vaults a).coll = s.book.entireColl a := by
  rcases applyPendingRewards_book (P := .any) h with ⟨-, -, hbook⟩ | ⟨hnone, rfl⟩
  · simp [hbook, Book.collected]
  · have hzero : s'.book.pendingRBTC a = 0 := by
      unfold pendingRBTC
      split_ifs with hactive
      · have hle := applyPendingRewards_none h hactive
        rw [Nat.sub_eq_zero_of_le hle, Nat.mul_zero, Nat.zero_div]
      · rfl
    rw [entireColl, hzero, Nat.add_zero]

theorem applyPendingRewards_allowsStake {coll : ℕ} (h : applyPendingRewards d a s = .ok s') :
    s'.book.AllowsStake P coll ↔ s.book.AllowsStake P coll := by
  rcases applyPendingRewards_book (P := .any) h with ⟨-, -, hbook⟩ | ⟨-, rfl⟩
  · rw [hbook]
    rfl
  · rfl

theorem closeVault_book {st : Status} (h : closeVault a st s = .ok s') :
    st ≠ .active ∧ 1 < s.book.vaultOwners.length ∧ ∃ moved data,
      (s.vault a).arrayIndex ≤ s.book.vaultOwners.length - 1 ∧
      s.book.vaultOwners[s.book.vaultOwners.length - 1]? = some moved ∧
      SortedVaults.remove a s.book.sortedVaults = .ok data ∧
      s'.book = { s.book with
        vaults :=
          let vaults := Function.update s.book.vaults a
            { s.vault a with status := st, coll := 0, debt := 0 }
          Function.update vaults moved { vaults moved with arrayIndex := (s.vault a).arrayIndex }
        rewardSnapshots := Function.update s.book.rewardSnapshots a ⟨0, 0⟩
        vaultOwners := (s.book.vaultOwners.set (s.vault a).arrayIndex moved).dropLast
        sortedVaults := data } := by
  simp only [closeVault, requireMoreThanOneVaultInSystem, removeVaultOwner, bind_ok, pure_ok,
    require_ok, assert_ok, SafeMath.sub_ok] at h
  obtain ⟨_, ⟨-, hst⟩, _, ⟨hlength, -⟩, _, ⟨_, -, _, ⟨-, rfl⟩, _, hindex, hmove⟩, data, hremove,
    rfl⟩ := h
  have hself : (setRewardSnapshot a ⟨0, 0⟩ (setVault a (Vault.closed (s.vault a) st) s)).vault a =
      Vault.closed (s.vault a) st := by
    simp [setRewardSnapshot, setVault, State.vault]
  rw [hself] at hindex hmove
  split at hmove
  · simp at hmove
  · next moved hlast =>
    obtain rfl := pure_ok.mp hmove
    exact ⟨hst, hlength, moved, data, hindex, hlast, hremove, rfl⟩

/-- Removing the stake of a vault and closing it is one move. -/
theorem removeStake_closeVault_book {st : Status} (hstake : removeStake a s = .ok t)
    (hclose : closeVault a st t = .ok s') :
    st ≠ .active ∧ 1 < s.book.vaultOwners.length ∧
      (s.book.vaults a).stake ≤ s.book.totalStakes ∧ ∃ moved data,
      (s.book.vaults a).arrayIndex ≤ s.book.vaultOwners.length - 1 ∧
      s.book.vaultOwners[s.book.vaultOwners.length - 1]? = some moved ∧
      SortedVaults.remove a s.book.sortedVaults = .ok data ∧
      s'.book = s.book.closed a st moved data := by
  obtain ⟨hle, rfl⟩ := removeStake_ok hstake
  obtain ⟨hst, hlength, moved, data, hindex, hmoved, hremove, hbook⟩ := closeVault_book hclose
  have hself : State.vault (setVault a { s.vault a with stake := 0 }
      (setTotalStakes (s.vaultManager.totalStakes - (s.vault a).stake) s)) a =
        { s.vault a with stake := 0 } := by
    simp [setVault, State.vault]
  rw [hself] at hindex hbook
  refine ⟨hst, hlength, hle, moved, data, hindex, hmoved, hremove, hbook.trans ?_⟩
  simp [State.book, Book.closed, setVault, setTotalStakes, State.vault]

theorem removeStake_closeVault_move {st : Status}
    (hnone : s.book.Active a → s.book.B_RBTC ≤ (s.book.rewardSnapshots a).RBTC)
    (hstake : removeStake a s = .ok t) (hclose : closeVault a st t = .ok s') :
    Move P s.book s'.book := by
  obtain ⟨hst, hlength, hle, moved, data, hindex, hmoved, hremove, hbook⟩ :=
    removeStake_closeVault_book hstake hclose
  rw [hbook]
  exact .closed hst hnone hlength hle hindex hmoved hremove

/-- A liquidated vault collects what it is owed and is closed. -/
theorem detach_close_book {e : EntireDebtAndColl} {st : Status}
    (he : getEntireDebtAndColl a s = .ok e) (hdetach : detachVault d a e s = .ok t)
    (hclose : closeVault a st t = .ok s') :
    s.book.pendingRBTC a ≤ s.book.defaultPool.RBTC ∧
      s.book.pendingDebt a ≤ s.book.defaultPool.BPDDebt ∧ st ≠ .active ∧
      1 < s.book.vaultOwners.length ∧ (s.book.vaults a).stake ≤ s.book.totalStakes ∧
      ∃ moved data, (s.book.vaults a).arrayIndex ≤ s.book.vaultOwners.length - 1 ∧
        s.book.vaultOwners[s.book.vaultOwners.length - 1]? = some moved ∧
        SortedVaults.remove a s.book.sortedVaults = .ok data ∧
        s'.book = (s.book.collected a).closed a st moved data := by
  simp only [detachVault, bind_ok] at hdetach
  obtain ⟨s₁, hmove, hstake⟩ := hdetach
  obtain ⟨hRBTC, hBPD⟩ := getEntireDebtAndColl_book he
  rw [hRBTC, hBPD] at hmove
  obtain ⟨hdebt, hcoll, hbook₁⟩ := movePendingVaultRewardsToActivePool_book hmove
  obtain ⟨hst, hlength, hle, moved, data, hindex, hmoved, hremove, hbook⟩ :=
    removeStake_closeVault_book hstake hclose
  rw [hbook₁] at hlength hle hindex hmoved hremove hbook
  refine ⟨hcoll, hdebt, hst, hlength, hle, moved, data, hindex, hmoved, hremove, ?_⟩
  rw [hbook]
  simp [Book.closed, Book.collected, State.book]

theorem detach_close_moves {e : EntireDebtAndColl} {st : Status}
    (he : getEntireDebtAndColl a s = .ok e) (hdetach : detachVault d a e s = .ok t)
    (hclose : closeVault a st t = .ok s') : Moves P s.book s'.book := by
  obtain ⟨hcoll, hdebt, hst, hlength, hle, moved, data, hindex, hmoved, hremove, hfinal⟩ :=
    detach_close_book he hdetach hclose
  have hself : (s.book.collected a).vaults a =
      { s.book.vaults a with coll := s.book.entireColl a, debt := s.book.entireDebt a } := by
    simp [Book.collected]
  rw [hfinal]
  refine .tail (.single (.collected hcoll hdebt)) (.closed hst ?_ hlength ?_ ?_ hmoved hremove)
  · intro _
    simp [Book.collected]
  · rw [hself]
    exact hle
  · rw [hself]
    exact hindex

theorem rewardPerUnitStaked_ok {amount lastError totalStakes perUnit error : ℕ}
    (h : rewardPerUnitStaked amount lastError totalStakes = .ok (perUnit, error)) :
    perUnit * totalStakes + error = amount * DECIMAL_PRECISION + lastError ∧
      error < totalStakes := by
  simp only [rewardPerUnitStaked, bind_ok, pure_ok, SafeMath.mul_ok, SafeMath.add_ok,
    SafeMath.div_ok, SafeMath.sub_ok, Prod.mk.injEq] at h
  obtain ⟨_, ⟨-, rfl⟩, _, ⟨-, rfl⟩, _, ⟨hpos, rfl⟩, _, ⟨-, rfl⟩, _, ⟨hle, rfl⟩, rfl, rfl⟩ := h
  refine ⟨Nat.add_sub_of_le hle, ?_⟩
  have hdivMod := Nat.div_add_mod (amount * DECIMAL_PRECISION + lastError) totalStakes
  have hmod := Nat.mod_lt (amount * DECIMAL_PRECISION + lastError) hpos
  rw [Nat.mul_comm] at hdivMod
  omega

theorem setRewards_book (B_RBTC RBTCError B_BPDDebt BPDDebtError : ℕ) (s : State) :
    (setRewards B_RBTC RBTCError B_BPDDebt BPDDebtError s).book =
      { s.book with
        lastRBTCError_Redistribution := RBTCError
        lastBPDDebtError_Redistribution := BPDDebtError
        B_RBTC := B_RBTC
        B_BPDDebt := B_BPDDebt } :=
  rfl

theorem redistributeDebtAndColl_moves {debt coll : ℕ}
    (hP : debt ≠ 0 → P.redistribute s.book debt coll)
    (h : redistributeDebtAndColl d debt coll s = .ok s') : Moves P s.book s'.book := by
  simp only [redistributeDebtAndColl] at h
  split_ifs at h with hdebt
  · rw [pure_ok.mp h]
  · simp only [bind_ok, Prod.exists, SafeMath.add_ok] at h
    obtain ⟨_, _, hcoll, _, _, hperDebt, _, ⟨-, rfl⟩, _, ⟨-, rfl⟩, _, hactive, _, hdefault, h⟩ := h
    obtain ⟨hRBTC, hRBTCError⟩ := rewardPerUnitStaked_ok hcoll
    obtain ⟨hBPDDebt, hBPDDebtError⟩ := rewardPerUnitStaked_ok hperDebt
    rw [ActivePool.sendRBTC_defaultPool h, DefaultPool.increaseBPDDebt_book hdefault,
      ActivePool.decreaseBPDDebt_book hactive, setRewards_book]
    exact .single (.redistributed (hP hdebt) hRBTC hRBTCError hBPDDebt hBPDDebtError)

theorem updateSystemSnapshots_moves (howners : 0 < s.book.vaultOwners.length)
    (h : updateSystemSnapshots_excludeCollRemainder v s = .ok s') : Moves P s.book s'.book := by
  obtain ⟨totalColl, rfl⟩ := updateSystemSnapshots_excludeCollRemainder_ok h
  exact .single (.snapshotted howners)

end MoneyProtocol.VaultManager
