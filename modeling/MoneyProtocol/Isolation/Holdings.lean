import MoneyProtocol.Isolation.Vaults
import MoneyProtocol.Pool.Effects

/-!
# What a call leaves an account

Apart from its vault and its MP, an account owns RBTC, BPD with the allowances it has given, a
stake and a deposit with their snapshots, a claim on the surplus pool and the terms it registered
as a front end. Every internal call that is not made in the name of the account leaves it at
least as much of each.
-/

namespace MoneyProtocol

open Outcome PointSum MoneypBase

variable {d : Deployment} {s s' s'' : State} {block : Block} {a b u : Address} {v w price : ℕ}

/-- What all gains are computed from only grows, and a registered front end keeps its rate. -/
structure Accrues (s s' : State) : Prop where
  F_RBTC : s.mpStaking.F_RBTC ≤ s'.mpStaking.F_RBTC
  F_BPD : s.mpStaking.F_BPD ≤ s'.mpStaking.F_BPD
  sums : s.stabilityPool.epochToScaleToSum ≤ s'.stabilityPool.epochToScaleToSum
  G : s.stabilityPool.epochToScaleToG ≤ s'.stabilityPool.epochToScaleToG
  frontEnds : ∀ f, (s.stabilityPool.frontEnds f).registered = true →
    s'.stabilityPool.frontEnds f = s.stabilityPool.frontEnds f

/-- Apart from its BPD and MP, the account `u` owns in `s'` what it owned in `s`, or more. -/
structure RetainsRest (u : Address) (s s' : State) : Prop extends Accrues s s' where
  rbtc : s.rbtc u ≤ s'.rbtc u
  stake : s'.mpStaking.stakes u = s.mpStaking.stakes u
  stakeSnapshots : s'.mpStaking.snapshots u = s.mpStaking.snapshots u
  surplus : s.collSurplusPool.balances u ≤ s'.collSurplusPool.balances u
  deposit : s'.stabilityPool.deposits u = s.stabilityPool.deposits u
  depositSnapshots : s'.stabilityPool.depositSnapshots u = s.stabilityPool.depositSnapshots u
  frontEnd : s'.stabilityPool.frontEnds u = s.stabilityPool.frontEnds u

/-- And its BPD, and what it allows others to spend of it. -/
structure Retains (u : Address) (s s' : State) : Prop extends RetainsRest u s s' where
  BPD : s.bpdToken.balances u ≤ s'.bpdToken.balances u
  allowances : s'.bpdToken.allowances u = s.bpdToken.allowances u

theorem Accrues.refl (s : State) : Accrues s s :=
  ⟨le_rfl, le_rfl, le_rfl, le_rfl, fun _ _ => rfl⟩

theorem Accrues.trans (h : Accrues s s') (h' : Accrues s' s'') : Accrues s s'' := by
  refine ⟨h.F_RBTC.trans h'.F_RBTC, h.F_BPD.trans h'.F_BPD, h.sums.trans h'.sums,
    h.G.trans h'.G, ?_⟩
  intro f hf
  have hkept := h.frontEnds f hf
  exact (h'.frontEnds f (hkept ▸ hf)).trans hkept

theorem RetainsRest.trans (h : RetainsRest u s s') (h' : RetainsRest u s' s'') :
    RetainsRest u s s'' :=
  ⟨h.toAccrues.trans h'.toAccrues, h.rbtc.trans h'.rbtc,
    h'.stake.trans h.stake, h'.stakeSnapshots.trans h.stakeSnapshots, h.surplus.trans h'.surplus,
    h'.deposit.trans h.deposit, h'.depositSnapshots.trans h.depositSnapshots,
    h'.frontEnd.trans h.frontEnd⟩

namespace Retains

theorem refl (u : Address) (s : State) : Retains u s s :=
  ⟨⟨.refl s, le_rfl, rfl, rfl, le_rfl, rfl, rfl, rfl⟩, le_rfl, rfl⟩

theorem trans (h : Retains u s s') (h' : Retains u s' s'') : Retains u s s'' :=
  ⟨h.toRetainsRest.trans h'.toRetainsRest, h.BPD.trans h'.BPD, h'.allowances.trans h.allowances⟩

instance : Trans (Retains u) (Retains u) (Retains u) := ⟨trans⟩

/-- The records of vaults, the debts of the pools, the price and the issuance are nobody's, and
MP are not counted. -/
theorem of_records {m : VaultManager} {x : SortedVaults} {p : ActivePool} {q : DefaultPool}
    {f : PriceFeed} {c : CommunityIssuance} {m' : MPToken} : Retains u s { s with
      vaultManager := m, sortedVaults := x, activePool := p, defaultPool := q, priceFeed := f,
      communityIssuance := c, mpToken := m' } :=
  { refl u s with rbtc := le_rfl }

/-- Nor are the RBTC of the surplus pool and what all deposits of the Stability Pool share. -/
theorem of_pools {r : ℕ} {q : StabilityPool}
    (hsums : s.stabilityPool.epochToScaleToSum ≤ q.epochToScaleToSum)
    (hG : s.stabilityPool.epochToScaleToG ≤ q.epochToScaleToG)
    (hdeposits : q.deposits = s.stabilityPool.deposits)
    (hsnapshots : q.depositSnapshots = s.stabilityPool.depositSnapshots)
    (hfrontEnds : q.frontEnds = s.stabilityPool.frontEnds) : Retains u s { s with
      collSurplusPool := { s.collSurplusPool with RBTC := r }, stabilityPool := q } :=
  { refl u s with
    sums := hsums
    G := hG
    frontEnds := fun f _ => congrFun hfrontEnds f
    deposit := congrFun hdeposits u
    depositSnapshots := congrFun hsnapshots u
    frontEnd := congrFun hfrontEnds u }

theorem rbtc_move (h : u ≠ a) : Retains u s { s with rbtc := move a b v s.rbtc } :=
  { refl u s with rbtc := le_move h }

theorem BPD_move (h : u ≠ a) : Retains u s { s with bpdToken :=
    { s.bpdToken with balances := move a b v s.bpdToken.balances } } :=
  { refl u s with BPD := le_move h }

end Retains

theorem Deployment.borrowerOperations_mem (d : Deployment) :
    d.borrowerOperations ∈ d.contracts := by
  simp [Wiring.contracts]

theorem PriceFeed.fetchPrice_keeps (h : PriceFeed.fetchPrice block s = .ok (price, s')) :
    Retains u s s' := by
  obtain ⟨_, rfl⟩ := fetchPrice_ok h
  exact .of_records

theorem transferRBTC_keeps (hu : u ≠ a) (h : transferRBTC a b v s = .ok s') : Retains u s s' := by
  obtain ⟨-, rfl⟩ := transferRBTC_ok.mp h
  exact .rbtc_move hu

theorem callWithValue_keeps (hu : u ≠ a) (h : callWithValue d a b v s = .ok s') :
    Retains u s s' := by
  obtain ⟨-, h⟩ := callWithValue_ok.mp h
  have hmoved : Retains u s { s with rbtc := move a b v s.rbtc } := .rbtc_move hu
  apply hmoved.trans
  rcases receive_ok h with ⟨-, -, rfl⟩ | ⟨-, -, rfl⟩ | ⟨-, -, rfl⟩ | ⟨-, -, rfl⟩ |
    ⟨-, -, -, -, rfl⟩
  · exact .of_records
  · exact .of_records
  · exact .of_pools le_rfl le_rfl rfl rfl rfl
  · exact .of_pools le_rfl le_rfl rfl rfl rfl
  · exact .refl u _

theorem ActivePool.sendRBTC_keeps (hu : d.External u) (h : ActivePool.sendRBTC d a v s = .ok s') :
    Retains u s s' := by
  simp only [ActivePool.sendRBTC, bind_ok] at h
  obtain ⟨_, -, h⟩ := h
  refine Retains.trans ?_ (callWithValue_keeps (hu.ne d.activePool_mem) h)
  exact .of_records

theorem ActivePool.increaseBPDDebt_keeps (h : ActivePool.increaseBPDDebt v s = .ok s') :
    Retains u s s' := by
  simp only [ActivePool.increaseBPDDebt, bind_ok, pure_ok] at h
  obtain ⟨_, -, rfl⟩ := h
  exact .of_records

theorem ActivePool.decreaseBPDDebt_keeps (h : ActivePool.decreaseBPDDebt v s = .ok s') :
    Retains u s s' := by
  simp only [ActivePool.decreaseBPDDebt, bind_ok, pure_ok] at h
  obtain ⟨_, -, rfl⟩ := h
  exact .of_records

theorem DefaultPool.increaseBPDDebt_keeps (h : DefaultPool.increaseBPDDebt v s = .ok s') :
    Retains u s s' := by
  simp only [DefaultPool.increaseBPDDebt, bind_ok, pure_ok] at h
  obtain ⟨_, -, rfl⟩ := h
  exact .of_records

theorem DefaultPool.sendRBTCToActivePool_keeps (hu : d.External u)
    (h : DefaultPool.sendRBTCToActivePool d v s = .ok s') : Retains u s s' := by
  simp only [DefaultPool.sendRBTCToActivePool, bind_ok] at h
  obtain ⟨_, -, h⟩ := h
  refine Retains.trans ?_ (callWithValue_keeps (hu.ne d.defaultPool_mem) h)
  exact .of_records

/-- A credit is added to what was credited before. -/
theorem CollSurplusPool.accountSurplus_keeps (h : CollSurplusPool.accountSurplus a v s = .ok s') :
    Retains u s s' := by
  simp only [CollSurplusPool.accountSurplus, bind_ok, pure_ok, SafeMath.add_ok] at h
  obtain ⟨_, ⟨-, rfl⟩, rfl⟩ := h
  refine { Retains.refl u s with surplus := ?_ }
  by_cases hu : u = a
  · subst hu
    simp
  · simp [Function.update_of_ne hu]

theorem CollSurplusPool.claimColl_keeps (hu : d.External u) (hne : u ≠ a)
    (h : CollSurplusPool.claimColl d a s = .ok s') : Retains u s s' := by
  simp only [CollSurplusPool.claimColl, bind_ok] at h
  obtain ⟨_, -, _, -, h⟩ := h
  refine Retains.trans ?_ (callWithValue_keeps (hu.ne d.collSurplusPool_mem) h)
  refine { Retains.refl u s with surplus := ?_ }
  simp [Function.update_of_ne hne]

namespace BPDToken

theorem mint_keeps (h : mint a v s = .ok s') : Retains u s s' := by
  obtain ⟨-, -, rfl⟩ := mint_ok h
  refine { Retains.refl u s with BPD := ?_ }
  by_cases hu : u = a
  · subst hu
    simp
  · simp [Function.update_of_ne hu]

theorem burn_keeps (hu : u ≠ a) (h : burn a v s = .ok s') : Retains u s s' := by
  obtain ⟨-, -, -, rfl⟩ := burn_ok h
  refine { Retains.refl u s with BPD := ?_ }
  simp [Function.update_of_ne hu]

theorem _transfer_keeps (hu : u ≠ a) (h : _transfer a b v s = .ok s') : Retains u s s' := by
  obtain ⟨-, -, -, rfl⟩ := _transfer_ok h
  exact .BPD_move hu

theorem transfer_keeps (hu : u ≠ a) (h : transfer d a b v s = .ok s') : Retains u s s' := by
  simp only [transfer, bind_ok] at h
  obtain ⟨_, -, h⟩ := h
  exact _transfer_keeps hu h

theorem _approve_keeps (hu : u ≠ a) (h : _approve a b v s = .ok s') : Retains u s s' := by
  obtain ⟨-, -, rfl⟩ := _approve_ok h
  refine { Retains.refl u s with allowances := ?_ }
  simp [Function.update_of_ne hu]

theorem transferFrom_keeps {sender : Address} (hu : u ≠ sender)
    (h : transferFrom d a sender b v s = .ok s') : Retains u s s' := by
  simp only [transferFrom, bind_ok] at h
  obtain ⟨_, -, _, hmove, _, -, happrove⟩ := h
  exact (_transfer_keeps hu hmove).trans (_approve_keeps hu happrove)

theorem permit_keeps {recovered owner spender : Address} {deadline : ℕ} (hu : u ≠ owner)
    (h : permit block recovered owner spender v deadline s = .ok s') : Retains u s s' := by
  simp only [permit, bind_ok] at h
  obtain ⟨_, -, _, -, h⟩ := h
  refine Retains.trans ?_ (_approve_keeps hu h)
  exact { Retains.refl u s with BPD := le_rfl }

end BPDToken

namespace MPToken

theorem transfer_keeps (h : transfer d block a b v s = .ok s') : Retains u s s' := by
  obtain ⟨-, rfl⟩ := transfer_move h
  exact .of_records

theorem sendToMPStaking_keeps (h : sendToMPStaking d block a v s = .ok s') : Retains u s s' := by
  obtain ⟨-, rfl⟩ := sendToMPStaking_move h
  exact .of_records

end MPToken

namespace MPStaking

theorem increaseF_RBTC_keeps (h : increaseF_RBTC v s = .ok s') : Retains u s s' := by
  simp only [increaseF_RBTC, bind_ok, pure_ok, SafeMath.add_ok] at h
  obtain ⟨_, -, _, ⟨-, rfl⟩, rfl⟩ := h
  exact { Retains.refl u s with F_RBTC := Nat.le_add_right _ _ }

theorem increaseF_BPD_keeps (h : increaseF_BPD v s = .ok s') : Retains u s s' := by
  simp only [increaseF_BPD, bind_ok, pure_ok, SafeMath.add_ok] at h
  obtain ⟨_, -, _, ⟨-, rfl⟩, rfl⟩ := h
  exact { Retains.refl u s with F_BPD := Nat.le_add_right _ _ }

theorem updateUserSnapshots_keeps (hu : u ≠ a) : Retains u s (updateUserSnapshots a s) := by
  refine { Retains.refl u s with stakeSnapshots := ?_ }
  simp [updateUserSnapshots, Function.update_of_ne hu]

theorem setStake_keeps (hu : u ≠ a) : Retains u s (setStake a v w s) := by
  refine { Retains.refl u s with stake := ?_ }
  simp [setStake, Function.update_of_ne hu]

theorem sendGains_keeps (hu : d.External u) (h : sendGains d a v w s = .ok s') :
    Retains u s s' := by
  simp only [sendGains, bind_ok] at h
  obtain ⟨_, hBPD, hRBTC⟩ := h
  exact (BPDToken.transfer_keeps (hu.ne d.mpStaking_mem) hBPD).trans
    (callWithValue_keeps (hu.ne d.mpStaking_mem) hRBTC)

theorem stake_keeps (hu : d.External u) (hne : u ≠ a) (h : stake d block a v s = .ok s') :
    Retains u s s' := by
  simp only [stake, bind_ok, ite_pure_ok] at h
  obtain ⟨_, -, _, -, _, -, _, -, _, -, t, hsend, h⟩ := h
  have ht : Retains u s t := ((updateUserSnapshots_keeps hne).trans (setStake_keeps hne)).trans
    (MPToken.sendToMPStaking_keeps hsend)
  rcases h with ⟨-, hgains⟩ | ⟨-, rfl⟩
  · exact ht.trans (sendGains_keeps hu hgains)
  · exact ht

theorem unstake_keeps (hu : d.External u) (hne : u ≠ a) (h : unstake d block a v s = .ok s') :
    Retains u s s' := by
  simp only [unstake, bind_ok, ite_pure_ok] at h
  obtain ⟨_, -, _, -, _, -, t, ht, h⟩ := h
  refine Retains.trans (updateUserSnapshots_keeps hne) (Retains.trans ?_ (sendGains_keeps hu h))
  rcases ht with ⟨-, _, -, _, -, ht⟩ | ⟨-, rfl⟩
  · exact (setStake_keeps hne).trans (MPToken.transfer_keeps ht)
  · exact .refl u _

end MPStaking

namespace VaultManager

theorem movePendingVaultRewardsToActivePool_keeps (hu : d.External u)
    (h : movePendingVaultRewardsToActivePool d v w s = .ok s') : Retains u s s' := by
  simp only [movePendingVaultRewardsToActivePool, DefaultPool.decreaseBPDDebt, bind_ok,
    pure_ok] at h
  obtain ⟨_, ⟨_, -, rfl⟩, _, hactive, h⟩ := h
  refine Retains.trans ?_ ((ActivePool.increaseBPDDebt_keeps hactive).trans
    (DefaultPool.sendRBTCToActivePool_keeps hu h))
  exact .of_records

theorem increaseVaultColl_keeps (h : increaseVaultColl a v s = .ok s') : Retains u s s' := by
  simp only [increaseVaultColl, bind_ok, pure_ok] at h
  obtain ⟨_, -, rfl⟩ := h
  exact .of_records

theorem increaseVaultDebt_keeps (h : increaseVaultDebt a v s = .ok s') : Retains u s s' := by
  simp only [increaseVaultDebt, bind_ok, pure_ok] at h
  obtain ⟨_, -, rfl⟩ := h
  exact .of_records

theorem applyPendingRewards_keeps (hu : d.External u) (h : applyPendingRewards d a s = .ok s') :
    Retains u s s' := by
  simp only [applyPendingRewards] at h
  split_ifs at h
  · simp only [bind_ok] at h
    obtain ⟨_, -, _, -, _, -, _, hcoll, t, hdebt, hmove⟩ := h
    have hsnapshot : Retains u t (updateVaultRewardSnapshots a t) := .of_records
    exact (((increaseVaultColl_keeps hcoll).trans (increaseVaultDebt_keeps hdebt)).trans
      hsnapshot).trans (movePendingVaultRewardsToActivePool_keeps hu hmove)
  · rw [pure_ok.mp h]
    exact .refl u _

theorem updateStakeAndTotalStakes_keeps (h : updateStakeAndTotalStakes a s = .ok s') :
    Retains u s s' := by
  simp only [updateStakeAndTotalStakes, bind_ok, pure_ok] at h
  obtain ⟨_, -, _, -, _, -, rfl⟩ := h
  exact .of_records

theorem removeStake_keeps (h : removeStake a s = .ok s') : Retains u s s' := by
  obtain ⟨-, rfl⟩ := removeStake_ok h
  exact .of_records

theorem addVaultOwnerToArray_keeps (h : addVaultOwnerToArray a s = .ok s') : Retains u s s' := by
  simp only [addVaultOwnerToArray, bind_ok, pure_ok] at h
  obtain ⟨_, -, rfl⟩ := h
  exact .of_records

theorem closeVault_keeps {st : Status} (h : closeVault a st s = .ok s') : Retains u s s' := by
  obtain ⟨_, _, rfl⟩ := closeVault_frame h
  exact .of_records

theorem detachVault_keeps {e : EntireDebtAndColl} (hu : d.External u)
    (h : detachVault d a e s = .ok s') : Retains u s s' := by
  simp only [detachVault, bind_ok] at h
  obtain ⟨_, hmove, hstake⟩ := h
  exact (movePendingVaultRewardsToActivePool_keeps hu hmove).trans (removeStake_keeps hstake)

end VaultManager

namespace BorrowerOperations

theorem withdrawBPD_keeps (h : withdrawBPD a v w s = .ok s') : Retains u s s' := by
  simp only [withdrawBPD, bind_ok] at h
  obtain ⟨_, hdebt, hmint⟩ := h
  exact (ActivePool.increaseBPDDebt_keeps hdebt).trans (BPDToken.mint_keeps hmint)

theorem repayBPD_keeps (hu : u ≠ a) (h : repayBPD a v s = .ok s') : Retains u s s' := by
  simp only [repayBPD, bind_ok] at h
  obtain ⟨_, hdebt, hburn⟩ := h
  exact (ActivePool.decreaseBPDDebt_keeps hdebt).trans (BPDToken.burn_keeps hu hburn)

theorem chargeBorrowingFee_keeps {waived : Bool} {amount maxFee netDebt : ℕ}
    (h : chargeBorrowingFee d block waived amount maxFee s = .ok (netDebt, s')) :
    Retains u s s' := by
  simp only [chargeBorrowingFee] at h
  split_ifs at h
  · simp only [pure_ok, Prod.mk.injEq] at h
    rw [h.2]
    exact .refl u _
  · simp only [triggerBorrowingFee, bind_ok, pure_ok, Prod.exists, Prod.mk.injEq] at h
    obtain ⟨_, _, ⟨t, hrate, _, -, _, -, _, hshare, _, hmint, rfl, rfl⟩, _, -, -, rfl⟩ := h
    have hrated : Retains u s t := by
      obtain ⟨_, _, rfl⟩ := VaultManager.decayBaseRateFromBorrowing_ok hrate
      exact .of_records
    exact (hrated.trans (MPStaking.increaseF_BPD_keeps hshare)).trans (BPDToken.mint_keeps hmint)

theorem activePoolAddColl_keeps (hne : u ≠ d.borrowerOperations)
    (h : activePoolAddColl d v s = .ok s') : Retains u s s' :=
  callWithValue_keeps hne h

theorem initVault_keeps (h : initVault a v w s = .ok s') : Retains u s s' := by
  simp only [initVault, bind_ok] at h
  obtain ⟨_, hcoll, t, hdebt, hstake⟩ := h
  have hopened : Retains u s (VaultManager.setVaultStatus a .active s) := .of_records
  have hsnapshot : Retains u t (VaultManager.updateVaultRewardSnapshots a t) := .of_records
  exact (((hopened.trans (VaultManager.increaseVaultColl_keeps hcoll)).trans
    (VaultManager.increaseVaultDebt_keeps hdebt)).trans hsnapshot).trans
    (VaultManager.updateStakeAndTotalStakes_keeps hstake)

theorem updateVaultFromAdjustment_keeps {collIncrease debtIncrease : Bool}
    (h : updateVaultFromAdjustment a v collIncrease w debtIncrease s = .ok s') :
    Retains u s s' := by
  simp only [updateVaultFromAdjustment, VaultManager.increaseVaultColl,
    VaultManager.decreaseVaultColl, VaultManager.increaseVaultDebt,
    VaultManager.decreaseVaultDebt, bind_ok] at h
  obtain ⟨t, hcoll, hdebt⟩ := h
  have ht : Retains u s t := by
    split_ifs at hcoll
    all_goals
      simp only [bind_ok, pure_ok] at hcoll
      obtain ⟨_, -, rfl⟩ := hcoll
      exact .of_records
  apply ht.trans
  split_ifs at hdebt
  all_goals
    simp only [bind_ok, pure_ok] at hdebt
    obtain ⟨_, -, rfl⟩ := hdebt
    exact .of_records

theorem moveTokensAndRBTCfromAdjustment_keeps {collIncrease debtIncrease : Bool} {net : ℕ}
    (hu : d.External u) (hne : u ≠ a)
    (h : moveTokensAndRBTCfromAdjustment d a v collIncrease w debtIncrease net s = .ok s') :
    Retains u s s' := by
  simp only [moveTokensAndRBTCfromAdjustment, bind_ok] at h
  obtain ⟨t, hdebt, hcoll⟩ := h
  have ht : Retains u s t := by
    cases debtIncrease
    · exact repayBPD_keeps hne (by simpa using hdebt)
    · exact withdrawBPD_keeps (by simpa using hdebt)
  apply ht.trans
  cases collIncrease
  · exact ActivePool.sendRBTC_keeps hu (by simpa using hcoll)
  · exact activePoolAddColl_keeps (hu.ne d.borrowerOperations_mem) (by simpa using hcoll)

theorem insertSorted_keeps {p n : Address} (h : insertSorted d a v p n s = .ok s') :
    Retains u s s' := by
  obtain ⟨_, -, rfl⟩ := insertSorted_ok h
  exact .of_records

theorem reInsertSorted_keeps {p n : Address} (h : reInsertSorted d a v p n s = .ok s') :
    Retains u s s' := by
  obtain ⟨_, -, rfl⟩ := reInsertSorted_ok h
  exact .of_records

theorem openVault_keeps {value maxFee amount : ℕ} {p n : Address} (hu : d.External u)
    (h : openVault d block a value maxFee amount p n s = .ok s') : Retains u s s' := by
  simp only [openVault, bind_ok, Prod.exists] at h
  obtain ⟨_, _, hprice, _, -, _, -, _, -, _, _, hfee, _, -, _, -, _, -, _, -, _, -, _, -, _, hinit,
    _, hinsert, _, howner, _, hcoll, _, hloan, hreserve⟩ := h
  calc Retains u s _ := PriceFeed.fetchPrice_keeps hprice
    Retains u _ _ := chargeBorrowingFee_keeps hfee
    Retains u _ _ := initVault_keeps hinit
    Retains u _ _ := insertSorted_keeps hinsert
    Retains u _ _ := VaultManager.addVaultOwnerToArray_keeps howner
    Retains u _ _ := activePoolAddColl_keeps (hu.ne d.borrowerOperations_mem) hcoll
    Retains u _ _ := withdrawBPD_keeps hloan
    Retains u _ _ := withdrawBPD_keeps hreserve

theorem adjustVaultInternal_keeps {borrower : Address} {value : ℕ} {adj : Adjustment}
    (hu : d.External u) (hne : u ≠ a)
    (h : adjustVaultInternal d block a value borrower adj s = .ok s') : Retains u s s' := by
  simp only [adjustVaultInternal, bind_ok, Prod.exists] at h
  obtain ⟨_, _, hprice, _, -, _, -, _, -, _, -, _, -, _, -, _, hpending, _, _, hfee, _, -, _, -, _,
    -, _, -, _, -, _, hupdate, _, hstake, _, -, _, hinsert, hmove⟩ := h
  calc Retains u s _ := PriceFeed.fetchPrice_keeps hprice
    Retains u _ _ := VaultManager.applyPendingRewards_keeps hu hpending
    Retains u _ _ := chargeBorrowingFee_keeps hfee
    Retains u _ _ := updateVaultFromAdjustment_keeps hupdate
    Retains u _ _ := VaultManager.updateStakeAndTotalStakes_keeps hstake
    Retains u _ _ := reInsertSorted_keeps hinsert
    Retains u _ _ := moveTokensAndRBTCfromAdjustment_keeps hu hne hmove

theorem closeVault_keeps (hu : d.External u) (hne : u ≠ a)
    (h : closeVault d block a s = .ok s') : Retains u s s' := by
  simp only [closeVault, bind_ok, Prod.exists] at h
  obtain ⟨_, -, _, _, hprice, _, -, _, hpending, _, -, _, -, _, -, _, -, _, hstake, _, hclose, _,
    hrepay, _, hreserve, hsend⟩ := h
  calc Retains u s _ := PriceFeed.fetchPrice_keeps hprice
    Retains u _ _ := VaultManager.applyPendingRewards_keeps hu hpending
    Retains u _ _ := VaultManager.removeStake_keeps hstake
    Retains u _ _ := VaultManager.closeVault_keeps hclose
    Retains u _ _ := repayBPD_keeps hne hrepay
    Retains u _ _ := repayBPD_keeps (hu.ne d.gasPool_mem) hreserve
    Retains u _ _ := ActivePool.sendRBTC_keeps hu hsend

end BorrowerOperations

namespace StabilityPool

theorem le_updateSum {sums : ℕ → ℕ → ℕ} {epoch scale value : ℕ}
    (h : sums epoch scale ≤ value) : sums ≤ updateSum sums epoch scale value := by
  intro e k
  unfold updateSum
  by_cases he : e = epoch
  · subst he
    by_cases hk : k = scale
    · subst hk
      simpa using h
    · simp [Function.update_of_ne hk]
  · simp [Function.update_of_ne he]

theorem triggerMPIssuance_keeps (h : triggerMPIssuance block s = .ok s') : Retains u s s' := by
  obtain ⟨i⟩ := triggerMPIssuance_effect h
  obtain ⟨_, _, _, rfl⟩ := triggerMPIssuance_ok h
  refine { Retains.refl u s with G := ?_ }
  rw [congrArg StabilityPool.epochToScaleToG i.pool]
  exact le_updateSum (Nat.le_add_right _ _)

theorem payOutMPGains_keeps {frontEnd : Address}
    (h : payOutMPGains d block a frontEnd s = .ok s') : Retains u s s' := by
  simp only [payOutMPGains, bind_ok, ite_pure_ok, CommunityIssuance.sendMP] at h
  obtain ⟨t, hfront, _, -, h⟩ := h
  have ht : Retains u s t := by
    rcases hfront with ⟨-, _, -, hfront⟩ | ⟨-, rfl⟩
    · exact MPToken.transfer_keeps hfront
    · exact .refl u _
  exact ht.trans (MPToken.transfer_keeps h)

/-- The records of another depositor. -/
theorem setDeposit_keeps {dep : Deposit} {snap : Snapshots} (hne : u ≠ a) :
    Retains u s (setDeposit a dep snap s) := by
  refine { Retains.refl u s with deposit := ?_, depositSnapshots := ?_ }
  · simp [setDeposit, Function.update_of_ne hne]
  · simp [setDeposit, Function.update_of_ne hne]

theorem tagDeposit_keeps (hne : u ≠ a) : Retains u s (tagDeposit a b s) := by
  unfold tagDeposit
  split_ifs
  · refine { Retains.refl u s with deposit := ?_ }
    simp [setFrontEndTag, Function.update_of_ne hne]
  · exact .refl u s

theorem updateDepositAndSnapshots_keeps (hne : u ≠ a) :
    Retains u s (updateDepositAndSnapshots a v s) := by
  unfold updateDepositAndSnapshots
  split_ifs
  · exact setDeposit_keeps hne
  · exact setDeposit_keeps hne

theorem updateFrontEndStakeAndSnapshots_keeps :
    Retains u s (updateFrontEndStakeAndSnapshots a v s) := by
  unfold updateFrontEndStakeAndSnapshots
  split_ifs
  · exact .of_pools le_rfl le_rfl rfl rfl rfl
  · exact .of_pools le_rfl le_rfl rfl rfl rfl

theorem decreaseBPD_keeps (h : decreaseBPD v s = .ok s') : Retains u s s' := by
  simp only [decreaseBPD, bind_ok, pure_ok] at h
  obtain ⟨_, -, rfl⟩ := h
  exact .of_pools le_rfl le_rfl rfl rfl rfl

theorem takeRBTC_keeps (h : takeRBTC v s = .ok s') : Retains u s s' := by
  simp only [takeRBTC, bind_ok, pure_ok] at h
  obtain ⟨_, -, rfl⟩ := h
  exact .of_pools le_rfl le_rfl rfl rfl rfl

theorem sendRBTCGainToDepositor_keeps (hu : d.External u)
    (h : sendRBTCGainToDepositor d a v s = .ok s') : Retains u s s' := by
  simp only [sendRBTCGainToDepositor] at h
  split_ifs at h
  · rw [pure_ok.mp h]
    exact .refl u _
  · simp only [bind_ok] at h
    obtain ⟨_, htake, h⟩ := h
    exact (takeRBTC_keeps htake).trans (callWithValue_keeps (hu.ne d.stabilityPool_mem) h)

theorem sendBPDtoStabilityPool_keeps (hne : u ≠ a)
    (h : sendBPDtoStabilityPool d a v s = .ok s') : Retains u s s' := by
  simp only [sendBPDtoStabilityPool, BPDToken.sendToPool, bind_ok, pure_ok] at h
  obtain ⟨_, hmove, _, -, rfl⟩ := h
  refine (BPDToken._transfer_keeps hne hmove).trans ?_
  exact .of_pools le_rfl le_rfl rfl rfl rfl

theorem sendBPDToDepositor_keeps (hu : d.External u)
    (h : sendBPDToDepositor d a v s = .ok s') : Retains u s s' := by
  simp only [sendBPDToDepositor] at h
  split_ifs at h
  · rw [pure_ok.mp h]
    exact .refl u _
  · simp only [BPDToken.returnFromPool, bind_ok] at h
    obtain ⟨_, hmove, hdecrease⟩ := h
    exact (BPDToken._transfer_keeps (hu.ne d.stabilityPool_mem) hmove).trans
      (decreaseBPD_keeps hdecrease)

theorem provideToSP_keeps {tag : Address} (hu : d.External u) (hne : u ≠ a)
    (h : provideToSP d block a v tag s = .ok s') : Retains u s s' := by
  simp only [provideToSP, bind_ok] at h
  obtain ⟨_, -, _, -, _, -, _, hissue, _, -, _, -, _, -, _, hpay, _, -, _, -, _, hsend, _, -,
    hgain⟩ := h
  calc Retains u s _ := triggerMPIssuance_keeps hissue
    Retains u _ _ := tagDeposit_keeps hne
    Retains u _ _ := payOutMPGains_keeps hpay
    Retains u _ _ := updateFrontEndStakeAndSnapshots_keeps
    Retains u _ _ := sendBPDtoStabilityPool_keeps hne hsend
    Retains u _ _ := updateDepositAndSnapshots_keeps hne
    Retains u _ _ := sendRBTCGainToDepositor_keeps hu hgain

theorem withdrawFromSP_keeps (hu : d.External u) (hne : u ≠ a)
    (h : withdrawFromSP d block a v s = .ok s') : Retains u s s' := by
  simp only [withdrawFromSP, bind_ok, ite_pure_ok] at h
  obtain ⟨t, hprice, _, -, _, hissue, _, -, _, -, _, -, _, hpay, _, -, _, -, _, hsend, _, -,
    hgain⟩ := h
  have ht : Retains u s t := by
    rcases hprice with ⟨-, hprice⟩ | ⟨-, rfl⟩
    · obtain ⟨_, rfl⟩ := requireNoUnderCollateralizedVaults_ok hprice
      exact .of_records
    · exact .refl u _
  calc Retains u s _ := ht
    Retains u _ _ := triggerMPIssuance_keeps hissue
    Retains u _ _ := payOutMPGains_keeps hpay
    Retains u _ _ := updateFrontEndStakeAndSnapshots_keeps
    Retains u _ _ := sendBPDToDepositor_keeps hu hsend
    Retains u _ _ := updateDepositAndSnapshots_keeps hne
    Retains u _ _ := sendRBTCGainToDepositor_keeps hu hgain

theorem withdrawRBTCGainToVault_keeps {p n : Address} (hu : d.External u) (hne : u ≠ a)
    (h : withdrawRBTCGainToVault d block a p n s = .ok s') : Retains u s s' := by
  simp only [withdrawRBTCGainToVault, bind_ok] at h
  obtain ⟨_, -, _, -, _, -, _, hissue, _, -, _, -, _, -, _, hpay, _, -, _, htake, _, hsend, h⟩ := h
  have hpool := hu.ne d.stabilityPool_mem
  calc Retains u s _ := triggerMPIssuance_keeps hissue
    Retains u _ _ := payOutMPGains_keeps hpay
    Retains u _ _ := updateFrontEndStakeAndSnapshots_keeps
    Retains u _ _ := updateDepositAndSnapshots_keeps hne
    Retains u _ _ := takeRBTC_keeps htake
    Retains u _ _ := transferRBTC_keeps hpool hsend
    Retains u _ _ := BorrowerOperations.adjustVaultInternal_keeps hu hpool h

theorem registerFrontEnd_keeps (hne : u ≠ a) (h : registerFrontEnd a v s = .ok s') :
    Retains u s s' := by
  simp only [registerFrontEnd, requireFrontEndNotRegistered, bind_ok, require_ok, pure_ok] at h
  obtain ⟨_, hnew, _, -, _, -, rfl⟩ := h
  refine { Retains.refl u s with frontEnds := fun f hf => ?_, frontEnd := ?_ }
  · have hother : f ≠ a := by
      rintro rfl
      rw [hnew] at hf
      contradiction
    exact Function.update_of_ne hother _ _
  · exact Function.update_of_ne hne _ _

theorem updateRewardSumAndProduct_keeps {gain loss : ℕ}
    (h : updateRewardSumAndProduct gain loss s = .ok s') : Retains u s s' := by
  simp only [updateRewardSumAndProduct, bind_ok, pure_ok, SafeMath.add_ok] at h
  obtain ⟨_, -, _, -, _, -, _, ⟨-, rfl⟩, _, -, _, -, rfl⟩ := h
  exact .of_pools (le_updateSum (Nat.le_add_right _ _)) le_rfl rfl rfl rfl

/-- An offset moves what the deposits share and leaves the records of all depositors. -/
theorem offset_keeps {debt coll : ℕ} (hu : d.External u)
    (h : offset d block debt coll s = .ok s') : Retains u s s' := by
  rw [offset_eq] at h
  split_ifs at h
  · rw [pure_ok.mp h]
    exact .refl u _
  · simp only [offsetUntilBurn, bind_ok] at h
    obtain ⟨_, ⟨t, hissue, r, -, _, hupdate, _, hdebt, hdecrease⟩, _, hburn, hsend⟩ := h
    have herrors : Retains u t (setOffsetErrors r t) := .of_pools le_rfl le_rfl rfl rfl rfl
    calc Retains u s t := triggerMPIssuance_keeps hissue
      Retains u t _ := herrors
      Retains u _ _ := updateRewardSumAndProduct_keeps hupdate
      Retains u _ _ := ActivePool.decreaseBPDDebt_keeps hdebt
      Retains u _ _ := decreaseBPD_keeps hdecrease
      Retains u _ _ := BPDToken.burn_keeps (hu.ne d.stabilityPool_mem) hburn
      Retains u _ _ := ActivePool.sendRBTC_keeps hu hsend

end StabilityPool

namespace VaultManager

variable {l l' : LiquidationLoop} {collLeft : ℕ → LiquidationValues → Outcome ℕ}

theorem accountCollSurplus_keeps (h : accountCollSurplus a v s = .ok s') : Retains u s s' := by
  simp only [accountCollSurplus, ite_pure_ok] at h
  rcases h with ⟨-, h⟩ | ⟨-, rfl⟩
  · exact CollSurplusPool.accountSurplus_keeps h
  · exact .refl u _

/-- A liquidation takes the vault of an owner and no other holdings. -/
theorem Liquidates.keeps (hu : d.External u) (h : Liquidates d a s s') : Retains u s s' := by
  obtain ⟨e, s₁, s₂, left, -, hdetach, hclose, hsurplus⟩ := h
  exact ((detachVault_keeps hu hdetach).trans (closeVault_keeps hclose)).trans
    (accountCollSurplus_keeps hsurplus)

theorem loop_keeps (hu : d.External u)
    (h : Relation.ReflTransGen (LoopStep collLeft d price) l l') :
    Retains u l.state l'.state := by
  induction h with
  | refl => exact .refl u _
  | tail _ hstep ih =>
    rcases hstep.liquidates with hsame | ⟨a, hliquidates⟩
    · rw [hsame]
      exact ih
    · exact ih.trans (hliquidates.keeps hu)

theorem redistributeDebtAndColl_keeps {debt coll : ℕ} (hu : d.External u)
    (h : redistributeDebtAndColl d debt coll s = .ok s') : Retains u s s' := by
  simp only [redistributeDebtAndColl] at h
  split_ifs at h
  · rw [pure_ok.mp h]
    exact .refl u _
  · simp only [bind_ok, Prod.exists] at h
    obtain ⟨_, _, -, _, _, -, _, -, _, -, _, hdebt, _, hdefault, hsend⟩ := h
    refine Retains.trans ?_ ((ActivePool.decreaseBPDDebt_keeps hdebt).trans
      ((DefaultPool.increaseBPDDebt_keeps hdefault).trans (ActivePool.sendRBTC_keeps hu hsend)))
    exact .of_records

theorem sendGasCompensation_keeps {BPD RBTC : ℕ} (hu : d.External u)
    (h : sendGasCompensation d a BPD RBTC s = .ok s') : Retains u s s' := by
  simp only [sendGasCompensation, BPDToken.returnFromPool, bind_ok, ite_pure_ok] at h
  obtain ⟨t, hBPD, hRBTC⟩ := h
  have ht : Retains u s t := by
    rcases hBPD with ⟨-, hBPD⟩ | ⟨-, rfl⟩
    · exact BPDToken._transfer_keeps (hu.ne d.gasPool_mem) hBPD
    · exact .refl u _
  rcases hRBTC with ⟨-, hRBTC⟩ | ⟨-, rfl⟩
  · exact ht.trans (ActivePool.sendRBTC_keeps hu hRBTC)
  · exact ht

theorem settleLiquidation_keeps {totals : LiquidationTotals} (hu : d.External u)
    (h : settleLiquidation d block a totals s = .ok s') : Retains u s s' := by
  simp only [settleLiquidation, bind_ok, ite_pure_ok] at h
  obtain ⟨_, -, _, hoffset, t₁, hredistribute, t, hsurplus, t₂, hsnapshots, _, -, _, -, hgas⟩ := h
  have hreturned : Retains u t₁ t := by
    rcases hsurplus with ⟨-, hsurplus⟩ | ⟨-, rfl⟩
    · exact ActivePool.sendRBTC_keeps hu hsurplus
    · exact .refl u _
  have hsnapshotted : Retains u t t₂ := by
    obtain ⟨_, hafter⟩ := updateSystemSnapshots_excludeCollRemainder_ok hsnapshots
    rw [hafter]
    exact .of_records
  calc Retains u s _ := StabilityPool.offset_keeps hu hoffset
    Retains u _ _ := redistributeDebtAndColl_keeps hu hredistribute
    Retains u t₁ t := hreturned
    Retains u t t₂ := hsnapshotted
    Retains u t₂ s' := sendGasCompensation_keeps hu hgas

theorem liquidateVaults_keeps {n : ℕ} (hu : d.External u)
    (h : liquidateVaults d block a n s = .ok s') : Retains u s s' := by
  simp only [liquidateVaults, bind_ok, Prod.exists] at h
  obtain ⟨_, _, hprice, _, -, l, hloop, hsettle⟩ := h
  obtain ⟨l₀, hstart, hsteps⟩ := getTotalsFromLiquidateVaultsSequence_steps hloop
  rw [← (startLoop_tallied hstart (d := d)).2] at hprice
  exact ((PriceFeed.fetchPrice_keeps hprice).trans (loop_keeps hu hsteps)).trans
    (settleLiquidation_keeps hu hsettle)

theorem batchLiquidateVaults_keeps {users : List Address} (hu : d.External u)
    (h : batchLiquidateVaults d block a users s = .ok s') : Retains u s s' := by
  simp only [batchLiquidateVaults, bind_ok, Prod.exists] at h
  obtain ⟨_, -, _, _, hprice, _, -, l, hloop, hsettle⟩ := h
  obtain ⟨l₀, hstart, hsteps⟩ := getTotalsFromBatchLiquidate_steps hloop
  rw [← (startLoop_tallied hstart (d := d)).2] at hprice
  exact ((PriceFeed.fetchPrice_keeps hprice).trans (loop_keeps hu hsteps)).trans
    (settleLiquidation_keeps hu hsettle)

theorem liquidate_keeps (hu : d.External u) (h : liquidate d block a b s = .ok s') :
    Retains u s s' := by
  simp only [liquidate, bind_ok] at h
  obtain ⟨_, -, h⟩ := h
  exact batchLiquidateVaults_keeps hu h

theorem redeemFully_keeps (hu : d.External u) (h : redeemFully d a v s = .ok s') :
    Retains u s s' := by
  simp only [redeemFully, redeemCloseVault, bind_ok] at h
  obtain ⟨_, hstake, _, hclose, _, hburn, _, hdebt, _, hsurplus, hsend⟩ := h
  calc Retains u s _ := removeStake_keeps hstake
    Retains u _ _ := closeVault_keeps hclose
    Retains u _ _ := BPDToken.burn_keeps (hu.ne d.gasPool_mem) hburn
    Retains u _ _ := ActivePool.decreaseBPDDebt_keeps hdebt
    Retains u _ _ := CollSurplusPool.accountSurplus_keeps hsurplus
    Retains u _ _ := ActivePool.sendRBTC_keeps hu hsend

theorem redeemPartially_keeps {newNICR : ℕ} {hints : RedemptionHints}
    (h : redeemPartially d a v w newNICR hints s = .ok s') : Retains u s s' := by
  simp only [redeemPartially, bind_ok] at h
  obtain ⟨t, hinsert, hstake⟩ := h
  calc Retains u s t := BorrowerOperations.reInsertSorted_keeps hinsert
    Retains u _ _ := .of_records
    Retains u _ _ := updateStakeAndTotalStakes_keeps hstake

theorem redeemCollateralFromVault_keeps {maxAmount : ℕ} {hints : RedemptionHints}
    {values : SingleRedemptionValues} (hu : d.External u)
    (h : redeemCollateralFromVault d a maxAmount price hints s = .ok (values, s')) :
    Retains u s s' := by
  obtain ⟨-, -, -, -, -, ⟨-, rfl⟩ | ⟨-, -, hfull⟩ | ⟨-, -, -, -, hpartial⟩⟩ :=
    redeemCollateralFromVault_ok h
  · exact .refl u _
  · exact redeemFully_keeps hu hfull
  · exact redeemPartially_keeps hpartial

theorem redeemLoop_keeps {hints : RedemptionHints} {n : ℕ} {t t' : RedemptionTotals}
    (hu : d.External u) (h : redeemLoop d price hints n a t s = .ok (t', s')) :
    Retains u s s' := by
  induction n generalizing a t s with
  | zero =>
    simp only [redeemLoop, pure_ok, Prod.mk.injEq] at h
    rw [h.2]
    exact .refl u _
  | succ n ih =>
    simp only [redeemLoop] at h
    split_ifs at h
    · simp only [bind_ok, Prod.exists] at h
      obtain ⟨s₁, hpending, values, s₂, hvalues, h⟩ := h
      have hvault := (applyPendingRewards_keeps hu hpending).trans
        (redeemCollateralFromVault_keeps hu hvalues)
      split_ifs at h
      · simp only [pure_ok, Prod.mk.injEq] at h
        rw [← h.2]
        exact hvault
      · simp only [bind_ok] at h
        obtain ⟨_, -, h⟩ := h
        exact hvault.trans (ih h)
    · simp only [pure_ok, Prod.mk.injEq] at h
      rw [h.2]
      exact .refl u _

theorem redeemCollateral_keeps {amount maxIterations maxFee : ℕ} {hints : RedemptionHints}
    (hu : d.External u) (hne : u ≠ a)
    (h : redeemCollateral d block a amount hints maxIterations maxFee s = .ok s') :
    Retains u s s' := by
  simp only [redeemCollateral, settleRedemption, bind_ok, Prod.exists] at h
  obtain ⟨_, -, _, -, _, _, hprice, _, -, _, -, _, -, _, -, _, -, _, -, _, s₁, hloop, _, -, s₂,
    hrate, _, -, _, -, _, hfee, _, hshare, _, -, _, hburn, _, hdebt, hsend⟩ := h
  have hrated : Retains u s₁ s₂ := by
    obtain ⟨_, _, rfl⟩ := updateBaseRateFromRedemption_ok hrate
    exact .of_records
  calc Retains u s _ := PriceFeed.fetchPrice_keeps hprice
    Retains u _ s₁ := redeemLoop_keeps hu hloop
    Retains u s₁ s₂ := hrated
    Retains u s₂ _ := ActivePool.sendRBTC_keeps hu hfee
    Retains u _ _ := MPStaking.increaseF_RBTC_keeps hshare
    Retains u _ _ := BPDToken.burn_keeps hne hburn
    Retains u _ _ := ActivePool.decreaseBPDDebt_keeps hdebt
    Retains u _ _ := ActivePool.sendRBTC_keeps hu hsend

end VaultManager

end MoneyProtocol
