import MoneyProtocol.Accounting.BorrowerOperations

/-!
# The system totals

The collateral and the debt of the Active and Default Pools together, which the ratio of the
system is computed from. Only a few calls change them: collateral that enters or leaves the
Active Pool, and debt that is drawn or repaid.
-/

namespace MoneyProtocol

open Outcome MoneypMath MoneypBase

variable {d : Deployment} {s s' : State} {block : Block} {a : Address} {v w price : ℕ}

/-- All collateral and all debt. -/
def State.system (s : State) : ℕ × ℕ :=
  (s.activePool.RBTC + s.defaultPool.RBTC, s.activePool.BPDDebt + s.defaultPool.BPDDebt)

/-- The value of `getTCR` where nothing overflows. -/
def State.TCR (price : ℕ) (s : State) : ℕ := collRatio s.system.1 s.system.2 price

namespace MoneypBase

theorem getTCR_ok {r : ℕ} (h : getTCR price s = .ok r) : s.TCR price = r := by
  simp only [getTCR, getEntireSystemColl, getEntireSystemDebt, bind_ok, SafeMath.add_ok] at h
  obtain ⟨_, ⟨-, rfl⟩, _, ⟨-, rfl⟩, h⟩ := h
  exact computeCR_ok h

theorem checkRecoveryMode_ok {recovery : Bool} (h : checkRecoveryMode price s = .ok recovery) :
    recovery = decide (s.TCR price < CCR) := by
  simp only [checkRecoveryMode, bind_ok, pure_ok] at h
  obtain ⟨r, hTCR, rfl⟩ := h
  rw [getTCR_ok hTCR]

end MoneypBase

theorem PriceFeed.fetchPrice_system (h : PriceFeed.fetchPrice block s = .ok (price, s')) :
    s'.system = s.system := by
  obtain ⟨_, rfl⟩ := fetchPrice_ok h
  rfl

theorem transferRBTC_system {b : Address} (h : transferRBTC a b v s = .ok s') :
    s'.system = s.system := by
  obtain ⟨-, rfl⟩ := transferRBTC_ok.mp h
  rfl

namespace VaultManager

theorem movePendingVaultRewardsToActivePool_system
    (h : movePendingVaultRewardsToActivePool d v w s = .ok s') : s'.system = s.system := by
  obtain ⟨hBPD, hRBTC, _, rfl⟩ := movePendingVaultRewardsToActivePool_ok h
  simp only [State.system, Prod.mk.injEq]
  omega

theorem applyPendingRewards_system (h : applyPendingRewards d a s = .ok s') :
    s'.system = s.system := by
  simp only [applyPendingRewards] at h
  split_ifs at h
  · simp only [bind_ok, increaseVaultColl, increaseVaultDebt, pure_ok] at h
    obtain ⟨_, -, _, -, _, -, _, ⟨_, -, rfl⟩, _, ⟨_, -, rfl⟩, h⟩ := h
    rw [movePendingVaultRewardsToActivePool_system h]
    rfl
  · rw [pure_ok.mp h]

theorem removeStake_system (h : removeStake a s = .ok s') : s'.system = s.system := by
  obtain ⟨-, rfl⟩ := removeStake_ok h
  rfl

theorem updateStakeAndTotalStakes_system (h : updateStakeAndTotalStakes a s = .ok s') :
    s'.system = s.system := by
  simp only [updateStakeAndTotalStakes, bind_ok, pure_ok] at h
  obtain ⟨_, -, _, -, _, -, rfl⟩ := h
  rfl

theorem addVaultOwnerToArray_system (h : addVaultOwnerToArray a s = .ok s') :
    s'.system = s.system := by
  simp only [addVaultOwnerToArray, bind_ok, pure_ok] at h
  obtain ⟨_, -, rfl⟩ := h
  rfl

theorem closeVault_system {st : Status} (h : closeVault a st s = .ok s') :
    s'.system = s.system := by
  simp only [closeVault, removeVaultOwner, bind_ok, pure_ok] at h
  obtain ⟨_, -, _, -, _, ⟨_, -, _, -, _, -, hmove⟩, _, -, rfl⟩ := h
  split at hmove
  · simp at hmove
  · obtain rfl := pure_ok.mp hmove
    rfl

end VaultManager

namespace BorrowerOperations

theorem chargeBorrowingFee_system {waived : Bool} {amount maxFee netDebt : ℕ}
    (h : chargeBorrowingFee d block waived amount maxFee s = .ok (netDebt, s')) :
    s'.system = s.system := by
  simp only [chargeBorrowingFee] at h
  split_ifs at h
  · simp only [pure_ok, Prod.mk.injEq] at h
    rw [h.2]
  · simp only [triggerBorrowingFee, bind_ok, pure_ok, Prod.exists, Prod.mk.injEq] at h
    obtain ⟨_, _, ⟨_, hrate, _, -, _, -, _, hshare, _, hmint, rfl, rfl⟩, _, -, -, rfl⟩ := h
    obtain ⟨-, -, rfl⟩ := BPDToken.mint_ok hmint
    obtain ⟨_, rfl⟩ := MPStaking.increaseF_BPD_ok hshare
    obtain ⟨_, _, rfl⟩ := VaultManager.decayBaseRateFromBorrowing_ok hrate
    rfl

theorem initVault_system (h : initVault a v w s = .ok s') : s'.system = s.system := by
  simp only [initVault, VaultManager.increaseVaultColl, VaultManager.increaseVaultDebt, bind_ok,
    pure_ok] at h
  obtain ⟨_, ⟨_, -, rfl⟩, _, ⟨_, -, rfl⟩, h⟩ := h
  rw [VaultManager.updateStakeAndTotalStakes_system h]
  rfl

theorem updateVaultFromAdjustment_system {collIncrease debtIncrease : Bool}
    (h : updateVaultFromAdjustment a v collIncrease w debtIncrease s = .ok s') :
    s'.system = s.system := by
  simp only [updateVaultFromAdjustment, VaultManager.increaseVaultColl,
    VaultManager.decreaseVaultColl, VaultManager.increaseVaultDebt,
    VaultManager.decreaseVaultDebt, bind_ok] at h
  obtain ⟨t, hcoll, hdebt⟩ := h
  have ht : t.system = s.system := by
    split_ifs at hcoll
    all_goals
      simp only [bind_ok, pure_ok] at hcoll
      obtain ⟨_, -, rfl⟩ := hcoll
      rfl
  rw [← ht]
  split_ifs at hdebt
  all_goals
    simp only [bind_ok, pure_ok] at hdebt
    obtain ⟨_, -, rfl⟩ := hdebt
    rfl

end BorrowerOperations

/-- The total after a change, where nothing overflows. -/
def changed (total change : ℕ) (isIncrease : Bool) : ℕ :=
  if isIncrease then total + change else total - change

theorem ActivePool.sendRBTC_system (hactive : a ≠ d.activePool) (hdefault : a ≠ d.defaultPool)
    (h : ActivePool.sendRBTC d a v s = .ok s') :
    v ≤ s.activePool.RBTC ∧ s'.system = (s.system.1 - v, s.system.2) := by
  simp only [sendRBTC, bind_ok, SafeMath.sub_ok] at h
  obtain ⟨_, ⟨hle, rfl⟩, h⟩ := h
  refine ⟨hle, ?_⟩
  obtain ⟨-, h⟩ := callWithValue_ok.mp h
  rcases receive_ok h with ⟨hr, -⟩ | ⟨hr, -⟩ | ⟨-, -, rfl⟩ | ⟨-, -, rfl⟩ | ⟨-, -, -, -, rfl⟩
  · exact absurd hr hactive
  · exact absurd hr hdefault
  all_goals
    simp only [State.system, Prod.mk.injEq, and_true]
    omega

theorem ActivePool.sendRBTC_defaultPool_system
    (h : ActivePool.sendRBTC d d.defaultPool v s = .ok s') : s'.system = s.system := by
  simp only [sendRBTC, bind_ok, SafeMath.sub_ok] at h
  obtain ⟨_, ⟨hle, rfl⟩, h⟩ := h
  obtain ⟨-, h⟩ := callWithValue_ok.mp h
  rcases receive_ok h with ⟨hr, -⟩ | ⟨-, -, rfl⟩ | ⟨hr, -⟩ | ⟨hr, -⟩ | ⟨-, hr, -⟩
  · exact absurd hr d.defaultPool_ne_activePool
  · simp only [State.system, Prod.mk.injEq, and_true]
    omega
  · exact absurd hr.symm d.collSurplusPool_ne_defaultPool
  · exact absurd hr.symm d.stabilityPool_ne_defaultPool
  · exact absurd rfl hr

namespace BorrowerOperations

theorem activePoolAddColl_system (h : activePoolAddColl d v s = .ok s') :
    s'.system = (s.system.1 + v, s.system.2) := by
  obtain ⟨-, h⟩ := callWithValue_ok.mp h
  rcases receive_ok h with ⟨-, -, rfl⟩ | ⟨hr, -⟩ | ⟨hr, -⟩ | ⟨hr, -⟩ | ⟨hr, -⟩
  · simp only [State.system, Prod.mk.injEq, and_true]
    omega
  · exact absurd hr.symm d.defaultPool_ne_activePool
  · exact absurd hr.symm d.collSurplusPool_ne_activePool
  · exact absurd hr.symm d.stabilityPool_ne_activePool
  · exact absurd rfl hr

theorem withdrawBPD_system (h : withdrawBPD a v w s = .ok s') :
    s'.system = (s.system.1, s.system.2 + w) := by
  simp only [withdrawBPD, ActivePool.increaseBPDDebt, bind_ok, pure_ok, SafeMath.add_ok] at h
  obtain ⟨_, ⟨_, ⟨-, rfl⟩, rfl⟩, hmint⟩ := h
  obtain ⟨-, -, rfl⟩ := BPDToken.mint_ok hmint
  simp only [State.system, Prod.mk.injEq, true_and]
  omega

theorem repayBPD_system (h : repayBPD a v s = .ok s') :
    v ≤ s.activePool.BPDDebt ∧ s'.system = (s.system.1, s.system.2 - v) := by
  simp only [repayBPD, ActivePool.decreaseBPDDebt, bind_ok, pure_ok, SafeMath.sub_ok] at h
  obtain ⟨_, ⟨_, ⟨hle, rfl⟩, rfl⟩, hburn⟩ := h
  obtain ⟨-, -, -, rfl⟩ := BPDToken.burn_ok hburn
  refine ⟨hle, ?_⟩
  simp only [State.system, Prod.mk.injEq, true_and]
  omega

/-- An adjustment changes the totals as it changes the vault. -/
theorem moveTokensAndRBTCfromAdjustment_system {collIncrease debtIncrease : Bool} {net : ℕ}
    (hactive : a ≠ d.activePool) (hdefault : a ≠ d.defaultPool)
    (hnet : debtIncrease = false → net = w)
    (h : moveTokensAndRBTCfromAdjustment d a v collIncrease w debtIncrease net s = .ok s') :
    s'.system = (changed s.system.1 v collIncrease, changed s.system.2 net debtIncrease) := by
  simp only [moveTokensAndRBTCfromAdjustment, bind_ok] at h
  obtain ⟨t, hdebt, hcoll⟩ := h
  have ht : t.system = (s.system.1, changed s.system.2 net debtIncrease) := by
    cases debtIncrease
    · rw [hnet rfl]
      exact (repayBPD_system (by simpa using hdebt)).2
    · exact withdrawBPD_system (by simpa using hdebt)
  cases collIncrease
  · rw [(ActivePool.sendRBTC_system hactive hdefault (by simpa using hcoll)).2, ht]
    rfl
  · rw [activePoolAddColl_system (by simpa using hcoll), ht]
    rfl

theorem getNewAmount_ok {amount change r : ℕ} {isIncrease : Bool}
    (h : getNewAmount amount change isIncrease = .ok r) :
    r = changed amount change isIncrease ∧ (amount < 2 ^ 256 → r < 2 ^ 256) ∧
      (isIncrease = false → change ≤ amount) := by
  unfold getNewAmount at h
  unfold changed
  cases isIncrease
  · simp only [Bool.false_eq_true, if_false, SafeMath.sub_ok] at h ⊢
    omega
  · simp only [if_true, SafeMath.add_ok] at h ⊢
    exact ⟨h.2.symm, fun _ => h.2 ▸ h.1, by simp⟩

/-- The ratio that a call predicts is the ratio of the state with the predicted totals. -/
theorem getNewTCR_ok {collChange debtChange r : ℕ} {collIncrease debtIncrease : Bool}
    (h : getNewTCRFromVaultChange collChange collIncrease debtChange debtIncrease price s = .ok r)
    (hsystem : s'.system = (changed s.system.1 collChange collIncrease,
      changed s.system.2 debtChange debtIncrease)) : getTCR price s' = .ok r := by
  simp only [getNewTCRFromVaultChange, getEntireSystemColl, getEntireSystemDebt, bind_ok,
    SafeMath.add_ok] at h
  obtain ⟨_, ⟨hcoll, rfl⟩, _, ⟨hdebt, rfl⟩, coll, hnewColl, debt, hnewDebt, h⟩ := h
  obtain ⟨rfl, hcollRoom, -⟩ := getNewAmount_ok hnewColl
  obtain ⟨rfl, hdebtRoom, -⟩ := getNewAmount_ok hnewDebt
  have hcollRoom := hcollRoom hcoll
  have hdebtRoom := hdebtRoom hdebt
  simp only [State.system, Prod.mk.injEq] at hsystem
  simp only [getTCR, getEntireSystemColl, getEntireSystemDebt, bind_ok, SafeMath.add_ok]
  exact ⟨_, ⟨by rw [hsystem.1]; exact hcollRoom, hsystem.1⟩, _,
    ⟨by rw [hsystem.2]; exact hdebtRoom, hsystem.2⟩, h⟩

end BorrowerOperations

end MoneyProtocol
