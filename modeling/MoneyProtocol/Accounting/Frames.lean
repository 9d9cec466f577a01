import MoneyProtocol.Accounting.System
import MoneyProtocol.Accounting.Transactions

/-!
# What the Stability Pool does not notice

The storage of the Stability Pool, the issuance of MP and the balances of MP change in the
functions of the Stability Pool and in an offset. Every other call leaves them as they are; those
of a liquidation leave BPD alone as well.
-/

namespace MoneyProtocol

open Outcome MoneypBase

variable {d : Deployment} {s s' : State} {block : Block} {a : Address} {v w price : ℕ}

/-- The storage of the Stability Pool, and that of the MP it pays. -/
def State.pool (s : State) : StabilityPool × CommunityIssuance × MPToken :=
  (s.stabilityPool, s.communityIssuance, s.mpToken)

/-- The same, and BPD. -/
def State.aside (s : State) : BPDToken × StabilityPool × CommunityIssuance × MPToken :=
  (s.bpdToken, s.pool)

theorem pool_of_aside (h : s'.aside = s.aside) : s'.pool = s.pool := congrArg Prod.snd h

theorem bpdToken_of_aside (h : s'.aside = s.aside) : s'.bpdToken = s.bpdToken :=
  congrArg Prod.fst h

theorem PriceFeed.fetchPrice_aside (h : PriceFeed.fetchPrice block s = .ok (price, s')) :
    s'.aside = s.aside := by
  obtain ⟨_, rfl⟩ := fetchPrice_ok h
  rfl

theorem transferRBTC_aside {b : Address} (h : transferRBTC a b v s = .ok s') :
    s'.aside = s.aside := by
  obtain ⟨-, rfl⟩ := transferRBTC_ok.mp h
  rfl

/-- The Stability Pool takes RBTC from the Active Pool only. -/
theorem callWithValue_aside {caller recipient : Address}
    (hne : recipient ≠ d.stabilityPool ∨ caller ≠ d.activePool)
    (h : callWithValue d caller recipient v s = .ok s') : s'.aside = s.aside := by
  obtain ⟨-, h⟩ := callWithValue_ok.mp h
  rcases receive_ok h with ⟨-, -, rfl⟩ | ⟨-, -, rfl⟩ | ⟨-, -, rfl⟩ | ⟨hr, hc, -⟩ |
    ⟨-, -, -, -, rfl⟩
  · rfl
  · rfl
  · rfl
  · rcases hne with hne | hne
    · exact absurd hr hne
    · exact absurd hc hne
  · rfl

theorem ActivePool.sendRBTC_aside (hne : a ≠ d.stabilityPool)
    (h : ActivePool.sendRBTC d a v s = .ok s') : s'.aside = s.aside := by
  simp only [ActivePool.sendRBTC, bind_ok] at h
  obtain ⟨_, -, h⟩ := h
  exact (callWithValue_aside (.inl hne) h).trans rfl

namespace BPDToken

theorem mint_pool (h : mint a v s = .ok s') : s'.pool = s.pool := by
  obtain ⟨-, -, rfl⟩ := mint_ok h
  rfl

theorem burn_pool (h : burn a v s = .ok s') : s'.pool = s.pool := by
  obtain ⟨-, -, -, rfl⟩ := burn_ok h
  rfl

theorem _transfer_pool {b : Address} (h : _transfer a b v s = .ok s') : s'.pool = s.pool := by
  obtain ⟨-, -, -, rfl⟩ := _transfer_ok h
  rfl

theorem transfer_pool {b : Address} (h : transfer d a b v s = .ok s') : s'.pool = s.pool := by
  simp only [transfer, bind_ok] at h
  obtain ⟨_, -, h⟩ := h
  exact _transfer_pool h

theorem _approve_pool {b : Address} (h : _approve a b v s = .ok s') : s'.pool = s.pool := by
  obtain ⟨-, -, rfl⟩ := _approve_ok h
  rfl

end BPDToken

namespace VaultManager

theorem increaseVaultColl_aside (h : increaseVaultColl a v s = .ok s') : s'.aside = s.aside := by
  simp only [increaseVaultColl, bind_ok, pure_ok] at h
  obtain ⟨_, -, rfl⟩ := h
  rfl

theorem increaseVaultDebt_aside (h : increaseVaultDebt a v s = .ok s') : s'.aside = s.aside := by
  simp only [increaseVaultDebt, bind_ok, pure_ok] at h
  obtain ⟨_, -, rfl⟩ := h
  rfl

theorem setVaultStatus_aside {st : Status} : (setVaultStatus a st s).aside = s.aside := rfl

theorem updateVaultRewardSnapshots_aside : (updateVaultRewardSnapshots a s).aside = s.aside := rfl

theorem movePendingVaultRewardsToActivePool_aside
    (h : movePendingVaultRewardsToActivePool d v w s = .ok s') : s'.aside = s.aside := by
  obtain ⟨-, -, _, rfl⟩ := movePendingVaultRewardsToActivePool_ok h
  rfl

theorem applyPendingRewards_aside (h : applyPendingRewards d a s = .ok s') :
    s'.aside = s.aside := by
  simp only [applyPendingRewards] at h
  split_ifs at h
  · simp only [bind_ok] at h
    obtain ⟨_, -, _, -, _, -, _, hcoll, _, hdebt, hmove⟩ := h
    rw [movePendingVaultRewardsToActivePool_aside hmove, updateVaultRewardSnapshots_aside,
      increaseVaultDebt_aside hdebt, increaseVaultColl_aside hcoll]
  · rw [pure_ok.mp h]

theorem updateStakeAndTotalStakes_aside (h : updateStakeAndTotalStakes a s = .ok s') :
    s'.aside = s.aside := by
  simp only [updateStakeAndTotalStakes, bind_ok, pure_ok] at h
  obtain ⟨_, -, _, -, _, -, rfl⟩ := h
  rfl

theorem removeStake_aside (h : removeStake a s = .ok s') : s'.aside = s.aside := by
  obtain ⟨-, rfl⟩ := removeStake_ok h
  rfl

theorem addVaultOwnerToArray_aside (h : addVaultOwnerToArray a s = .ok s') :
    s'.aside = s.aside := by
  simp only [addVaultOwnerToArray, bind_ok, pure_ok] at h
  obtain ⟨_, -, rfl⟩ := h
  rfl

theorem closeVault_aside {st : Status} (h : closeVault a st s = .ok s') : s'.aside = s.aside := by
  obtain ⟨_, _, rfl⟩ := closeVault_frame h
  rfl

theorem detachVault_aside {e : EntireDebtAndColl} (h : detachVault d a e s = .ok s') :
    s'.aside = s.aside := by
  simp only [detachVault, bind_ok] at h
  obtain ⟨_, hmove, hstake⟩ := h
  rw [removeStake_aside hstake, movePendingVaultRewardsToActivePool_aside hmove]

end VaultManager

namespace BorrowerOperations

theorem activePoolAddColl_aside (h : activePoolAddColl d v s = .ok s') : s'.aside = s.aside :=
  callWithValue_aside (.inl d.stabilityPool_ne_activePool.symm) h

theorem withdrawBPD_pool (h : withdrawBPD a v w s = .ok s') : s'.pool = s.pool := by
  simp only [withdrawBPD, ActivePool.increaseBPDDebt, bind_ok, pure_ok] at h
  obtain ⟨_, ⟨_, -, rfl⟩, hmint⟩ := h
  exact (BPDToken.mint_pool hmint).trans rfl

theorem repayBPD_pool (h : repayBPD a v s = .ok s') : s'.pool = s.pool := by
  simp only [repayBPD, ActivePool.decreaseBPDDebt, bind_ok, pure_ok] at h
  obtain ⟨_, ⟨_, -, rfl⟩, hburn⟩ := h
  exact (BPDToken.burn_pool hburn).trans rfl

theorem chargeBorrowingFee_pool {waived : Bool} {amount maxFee netDebt : ℕ}
    (h : chargeBorrowingFee d block waived amount maxFee s = .ok (netDebt, s')) :
    s'.pool = s.pool := by
  simp only [chargeBorrowingFee] at h
  split_ifs at h
  · simp only [pure_ok, Prod.mk.injEq] at h
    rw [h.2]
  · simp only [triggerBorrowingFee, bind_ok, pure_ok, Prod.exists, Prod.mk.injEq] at h
    obtain ⟨_, _, ⟨s₁, hrate, _, -, _, -, s₂, hshare, _, hmint, rfl, rfl⟩, _, -, -, rfl⟩ := h
    have hrated : s₁.pool = s.pool := by
      obtain ⟨_, _, rfl⟩ := VaultManager.decayBaseRateFromBorrowing_ok hrate
      rfl
    have hshared : s₂.pool = s₁.pool := by
      obtain ⟨_, rfl⟩ := MPStaking.increaseF_BPD_ok hshare
      rfl
    rw [BPDToken.mint_pool hmint, hshared, hrated]

theorem insertSorted_aside {prevId nextId : Address}
    (h : insertSorted d a v prevId nextId s = .ok s') :
    s'.aside = s.aside := by
  obtain ⟨_, -, rfl⟩ := insertSorted_ok h
  rfl

theorem reInsertSorted_aside {prevId nextId : Address}
    (h : reInsertSorted d a v prevId nextId s = .ok s') : s'.aside = s.aside := by
  obtain ⟨_, -, rfl⟩ := reInsertSorted_ok h
  rfl

theorem initVault_aside (h : initVault a v w s = .ok s') : s'.aside = s.aside := by
  simp only [initVault, bind_ok] at h
  obtain ⟨_, hcoll, _, hdebt, hstake⟩ := h
  rw [VaultManager.updateStakeAndTotalStakes_aside hstake,
    VaultManager.updateVaultRewardSnapshots_aside, VaultManager.increaseVaultDebt_aside hdebt,
    VaultManager.increaseVaultColl_aside hcoll, VaultManager.setVaultStatus_aside]

theorem updateVaultFromAdjustment_aside {collIncrease debtIncrease : Bool}
    (h : updateVaultFromAdjustment a v collIncrease w debtIncrease s = .ok s') :
    s'.aside = s.aside := by
  simp only [updateVaultFromAdjustment, VaultManager.increaseVaultColl,
    VaultManager.decreaseVaultColl, VaultManager.increaseVaultDebt,
    VaultManager.decreaseVaultDebt, bind_ok] at h
  obtain ⟨t, hcoll, hdebt⟩ := h
  have ht : t.aside = s.aside := by
    split_ifs at hcoll
    all_goals
      simp only [bind_ok, pure_ok] at hcoll
      obtain ⟨_, -, rfl⟩ := hcoll
      rfl
  rw [← ht]
  split_ifs at hdebt
  all_goals
    simp only [bind_ok, pure_ok] at hdebt
    obtain ⟨_, -, rfl⟩ := hdebt
    rfl

theorem moveTokensAndRBTCfromAdjustment_pool {collIncrease debtIncrease : Bool} {net : ℕ}
    (hne : collIncrease = false → a ≠ d.stabilityPool)
    (h : moveTokensAndRBTCfromAdjustment d a v collIncrease w debtIncrease net s = .ok s') :
    s'.pool = s.pool := by
  simp only [moveTokensAndRBTCfromAdjustment, bind_ok] at h
  obtain ⟨t, hdebt, hcoll⟩ := h
  have ht : t.pool = s.pool := by
    cases debtIncrease
    · exact repayBPD_pool (by simpa using hdebt)
    · exact withdrawBPD_pool (by simpa using hdebt)
  rw [← ht]
  cases collIncrease
  · exact pool_of_aside (ActivePool.sendRBTC_aside (hne rfl) (by simpa using hcoll))
  · exact pool_of_aside (activePoolAddColl_aside (by simpa using hcoll))

theorem openVault_pool {value maxFee amount : ℕ} {upperHint lowerHint : Address}
    (h : openVault d block a value maxFee amount upperHint lowerHint s = .ok s') :
    s'.pool = s.pool := by
  simp only [openVault, bind_ok, Prod.exists] at h
  obtain ⟨_, _, hprice, _, -, _, -, _, -, _, _, hfee, _, -, _, -, _, -, _, -, _, -, _, -, _, hinit,
    _, hinsert, _, howner, _, hcoll, _, hloan, hreserve⟩ := h
  rw [withdrawBPD_pool hreserve, withdrawBPD_pool hloan,
    pool_of_aside (activePoolAddColl_aside hcoll),
    pool_of_aside (VaultManager.addVaultOwnerToArray_aside howner),
    pool_of_aside (insertSorted_aside hinsert), pool_of_aside (initVault_aside hinit),
    chargeBorrowingFee_pool hfee, pool_of_aside (PriceFeed.fetchPrice_aside hprice)]

/-- RBTC that arrives with the call goes to the Active Pool. -/
theorem adjustVaultInternal_pool {sender borrower : Address} {value : ℕ} {adj : Adjustment}
    (hne : value = 0 → sender ≠ d.stabilityPool)
    (h : adjustVaultInternal d block sender value borrower adj s = .ok s') :
    s'.pool = s.pool := by
  simp only [adjustVaultInternal, bind_ok, Prod.exists] at h
  obtain ⟨_, _, hprice, _, -, _, -, _, -, _, -, _, -, _, -, _, hpending, _, _, hfee, _, -, _, -, _,
    -, _, -, _, -, _, hupdate, _, hstake, _, -, _, hinsert, hmove⟩ := h
  have hdirection : (getCollChange value adj.collWithdrawal).2 = false →
    sender ≠ d.stabilityPool := by
    intro hout
    apply hne
    by_contra hvalue
    simp [getCollChange, hvalue] at hout
  rw [moveTokensAndRBTCfromAdjustment_pool hdirection hmove,
    pool_of_aside (reInsertSorted_aside hinsert),
    pool_of_aside (VaultManager.updateStakeAndTotalStakes_aside hstake),
    pool_of_aside (updateVaultFromAdjustment_aside hupdate), chargeBorrowingFee_pool hfee,
    pool_of_aside (VaultManager.applyPendingRewards_aside hpending),
    pool_of_aside (PriceFeed.fetchPrice_aside hprice)]

theorem closeVault_pool (hne : a ≠ d.stabilityPool) (h : closeVault d block a s = .ok s') :
    s'.pool = s.pool := by
  simp only [closeVault, bind_ok, Prod.exists] at h
  obtain ⟨_, -, _, _, hprice, _, -, _, hpending, _, -, _, -, _, -, _, -, _, hstake, _, hclose, _,
    hrepay, _, hreserve, hsend⟩ := h
  rw [pool_of_aside (ActivePool.sendRBTC_aside hne hsend), repayBPD_pool hreserve,
    repayBPD_pool hrepay, pool_of_aside (VaultManager.closeVault_aside hclose),
    pool_of_aside (VaultManager.removeStake_aside hstake),
    pool_of_aside (VaultManager.applyPendingRewards_aside hpending),
    pool_of_aside (PriceFeed.fetchPrice_aside hprice)]

theorem claimCollateral_aside (h : claimCollateral d a s = .ok s') : s'.aside = s.aside := by
  simp only [claimCollateral, CollSurplusPool.claimColl, bind_ok] at h
  obtain ⟨_, -, _, -, h⟩ := h
  exact (callWithValue_aside (.inr d.collSurplusPool_ne_activePool) h).trans rfl

end BorrowerOperations

namespace VaultManager

theorem redeemFully_pool (h : redeemFully d a v s = .ok s') : s'.pool = s.pool := by
  simp only [redeemFully, redeemCloseVault, ActivePool.decreaseBPDDebt,
    CollSurplusPool.accountSurplus, bind_ok, pure_ok] at h
  obtain ⟨s₁, hstake, s₂, hclose, s₃, hburn, _, ⟨_, -, rfl⟩, _, ⟨_, -, rfl⟩, hsend⟩ := h
  have hne := d.stabilityPool_ne_collSurplusPool.symm
  calc s'.pool = s₃.pool := (pool_of_aside (ActivePool.sendRBTC_aside hne hsend)).trans rfl
    _ = s₂.pool := BPDToken.burn_pool hburn
    _ = s₁.pool := pool_of_aside (closeVault_aside hclose)
    _ = s.pool := pool_of_aside (removeStake_aside hstake)

theorem redeemPartially_aside {newColl newDebt newNICR : ℕ} {hints : RedemptionHints}
    (h : redeemPartially d a newColl newDebt newNICR hints s = .ok s') : s'.aside = s.aside := by
  simp only [redeemPartially, bind_ok] at h
  obtain ⟨_, hinsert, hstake⟩ := h
  rw [updateStakeAndTotalStakes_aside hstake, ← BorrowerOperations.reInsertSorted_aside hinsert]
  rfl

theorem redeemCollateralFromVault_pool {maxAmount : ℕ} {hints : RedemptionHints}
    {values : SingleRedemptionValues}
    (h : redeemCollateralFromVault d a maxAmount price hints s = .ok (values, s')) :
    s'.pool = s.pool := by
  obtain ⟨-, -, -, -, -, ⟨-, rfl⟩ | ⟨-, -, hfull⟩ | ⟨-, -, -, -, hpartial⟩⟩ :=
    redeemCollateralFromVault_ok h
  · rfl
  · exact redeemFully_pool hfull
  · exact pool_of_aside (redeemPartially_aside hpartial)

theorem redeemLoop_pool {hints : RedemptionHints} {n : ℕ} {t t' : RedemptionTotals}
    (h : redeemLoop d price hints n a t s = .ok (t', s')) : s'.pool = s.pool := by
  induction n generalizing a t s with
  | zero =>
    simp only [redeemLoop, pure_ok, Prod.mk.injEq] at h
    rw [h.2]
  | succ n ih =>
    simp only [redeemLoop] at h
    split_ifs at h
    · simp only [bind_ok, Prod.exists] at h
      obtain ⟨s₁, hpending, values, s₂, hvalues, h⟩ := h
      have hvault := (redeemCollateralFromVault_pool hvalues).trans
        (pool_of_aside (applyPendingRewards_aside hpending))
      split_ifs at h
      · simp only [pure_ok, Prod.mk.injEq] at h
        rw [← h.2, hvault]
      · simp only [bind_ok] at h
        obtain ⟨_, -, h⟩ := h
        rw [ih h, hvault]
    · simp only [pure_ok, Prod.mk.injEq] at h
      rw [h.2]

theorem redeemCollateral_pool {sender : Address} {amount maxIterations maxFee : ℕ}
    {hints : RedemptionHints} (hne : sender ≠ d.stabilityPool)
    (h : redeemCollateral d block sender amount hints maxIterations maxFee s = .ok s') :
    s'.pool = s.pool := by
  simp only [redeemCollateral, settleRedemption, ActivePool.decreaseBPDDebt, bind_ok, pure_ok,
    Prod.exists] at h
  obtain ⟨_, -, _, -, _, s₀, hprice, _, -, _, -, _, -, _, -, _, -, _, -, _, s₁, hloop, _, -, _,
    hrate, _, -, _, -, s₂, hfee, _, hshare, _, -, s₃, hburn, _, ⟨_, -, rfl⟩, hsend⟩ := h
  obtain ⟨_, _, rfl⟩ := updateBaseRateFromRedemption_ok hrate
  obtain ⟨_, rfl⟩ := MPStaking.increaseF_RBTC_ok hshare
  have hfee := pool_of_aside (ActivePool.sendRBTC_aside d.mpStaking_ne_stabilityPool hfee)
  calc s'.pool = s₃.pool := (pool_of_aside (ActivePool.sendRBTC_aside hne hsend)).trans rfl
    _ = s₂.pool := (BPDToken.burn_pool hburn).trans rfl
    _ = s₁.pool := hfee.trans rfl
    _ = s₀.pool := redeemLoop_pool hloop
    _ = s.pool := pool_of_aside (PriceFeed.fetchPrice_aside hprice)

variable {l l' : LiquidationLoop} {collLeft : ℕ → LiquidationValues → Outcome ℕ}

theorem accountCollSurplus_aside (h : accountCollSurplus a v s = .ok s') :
    s'.aside = s.aside := by
  simp only [accountCollSurplus, CollSurplusPool.accountSurplus, ite_pure_ok, bind_ok,
    pure_ok] at h
  obtain ⟨-, _, -, rfl⟩ | ⟨-, rfl⟩ := h
  · rfl
  · rfl

theorem Liquidates.aside (h : Liquidates d a s s') : s'.aside = s.aside := by
  obtain ⟨e, s₁, s₂, left, -, hdetach, hclose, hsurplus⟩ := h
  rw [accountCollSurplus_aside hsurplus, closeVault_aside hclose, detachVault_aside hdetach]

theorem LoopStep.aside (h : LoopStep collLeft d price l l') : l'.state.aside = l.state.aside := by
  rcases h.liquidates with hsame | ⟨a, h⟩
  · rw [hsame]
  · exact h.aside

theorem loop_aside (h : Relation.ReflTransGen (LoopStep collLeft d price) l l') :
    l'.state.aside = l.state.aside := by
  induction h with
  | refl => rfl
  | tail _ hstep ih => exact hstep.aside.trans ih

theorem redistributeDebtAndColl_aside {debt coll : ℕ}
    (h : redistributeDebtAndColl d debt coll s = .ok s') : s'.aside = s.aside := by
  simp only [redistributeDebtAndColl] at h
  split_ifs at h
  · rw [pure_ok.mp h]
  · simp only [ActivePool.decreaseBPDDebt, DefaultPool.increaseBPDDebt, bind_ok, pure_ok,
      Prod.exists] at h
    obtain ⟨_, _, -, _, _, -, _, -, _, -, _, ⟨_, -, rfl⟩, _, ⟨_, -, rfl⟩, hsend⟩ := h
    exact (ActivePool.sendRBTC_aside d.stabilityPool_ne_defaultPool.symm hsend).trans rfl

theorem sendGasCompensation_pool {liquidator : Address} {BPD RBTC : ℕ}
    (hne : liquidator ≠ d.stabilityPool)
    (h : sendGasCompensation d liquidator BPD RBTC s = .ok s') : s'.pool = s.pool := by
  simp only [sendGasCompensation, BPDToken.returnFromPool, bind_ok, ite_pure_ok] at h
  obtain ⟨t, hBPD, hRBTC⟩ := h
  have ht : t.pool = s.pool := by
    rcases hBPD with ⟨-, hBPD⟩ | ⟨-, rfl⟩
    · exact BPDToken._transfer_pool hBPD
    · rfl
  rw [← ht]
  rcases hRBTC with ⟨-, hRBTC⟩ | ⟨-, rfl⟩
  · exact pool_of_aside (ActivePool.sendRBTC_aside hne hRBTC)
  · rfl

end VaultManager

end MoneyProtocol
