import MoneyProtocol.Accounting.Decay
import MoneyProtocol.Accounting.Frames
import MoneyProtocol.Book.Liquidation

/-!
# Who credits a surplus, and who moves the base rate

The recorded surpluses change where a liquidation or a redemption credits one and where its
owner claims it. The base rate, and the time since which it decays, change with a borrowing fee
and a redemption. Every other call leaves both as they are.
-/

namespace MoneyProtocol

open Outcome MoneypBase

variable {d : Deployment} {s s' : State} {block : Block} {a : Address} {v w price : ℕ}

/-- The recorded surpluses. -/
def State.credits (s : State) : Address → ℕ := s.collSurplusPool.balances

/-- The recorded surpluses and the base rate. -/
def State.standing (s : State) : (Address → ℕ) × ℕ × ℕ := (s.credits, s.lastFee)

theorem credits_of_standing (h : s'.standing = s.standing) : s'.credits = s.credits :=
  congrArg Prod.fst h

theorem lastFee_of_standing (h : s'.standing = s.standing) : s'.lastFee = s.lastFee :=
  congrArg Prod.snd h

/-- What borrowing may do: charge a fee, and credit nobody. -/
structure Borrowing (block : Block) (s s' : State) : Prop where
  credits : s'.credits = s.credits
  fee : FeeMoved block s s'

theorem Borrowing.of_standing (h : s'.standing = s.standing) : Borrowing block s s' :=
  ⟨credits_of_standing h, .inl (lastFee_of_standing h)⟩

theorem Borrowing.within {t t' : State} (hbefore : t.standing = s.standing)
    (h : Borrowing block t t') (hafter : s'.standing = t'.standing) : Borrowing block s s' :=
  ⟨(credits_of_standing hafter).trans (h.credits.trans (credits_of_standing hbefore)),
    h.fee.within (lastFee_of_standing hbefore) (lastFee_of_standing hafter)⟩

theorem PriceFeed.fetchPrice_standing (h : PriceFeed.fetchPrice block s = .ok (price, s')) :
    s'.standing = s.standing := by
  obtain ⟨_, rfl⟩ := fetchPrice_ok h
  rfl

theorem transferRBTC_standing {b : Address} (h : transferRBTC a b v s = .ok s') :
    s'.standing = s.standing := by
  obtain ⟨-, rfl⟩ := transferRBTC_ok.mp h
  rfl

/-- The surplus pool books what it receives without crediting anybody. -/
theorem callWithValue_standing {caller recipient : Address}
    (h : callWithValue d caller recipient v s = .ok s') : s'.standing = s.standing := by
  obtain ⟨-, h⟩ := callWithValue_ok.mp h
  rcases receive_ok h with ⟨-, -, rfl⟩ | ⟨-, -, rfl⟩ | ⟨-, -, rfl⟩ | ⟨-, -, rfl⟩ |
    ⟨-, -, -, -, rfl⟩
  all_goals rfl

theorem ActivePool.sendRBTC_standing (h : ActivePool.sendRBTC d a v s = .ok s') :
    s'.standing = s.standing := by
  simp only [ActivePool.sendRBTC, bind_ok] at h
  obtain ⟨_, -, h⟩ := h
  exact (callWithValue_standing h).trans rfl

namespace BPDToken

theorem mint_standing (h : mint a v s = .ok s') : s'.standing = s.standing := by
  obtain ⟨-, -, rfl⟩ := mint_ok h
  rfl

theorem burn_standing (h : burn a v s = .ok s') : s'.standing = s.standing := by
  obtain ⟨-, -, -, rfl⟩ := burn_ok h
  rfl

theorem _transfer_standing {b : Address} (h : _transfer a b v s = .ok s') :
    s'.standing = s.standing := by
  obtain ⟨-, -, -, rfl⟩ := _transfer_ok h
  rfl

theorem transfer_standing {b : Address} (h : transfer d a b v s = .ok s') :
    s'.standing = s.standing := by
  simp only [transfer, bind_ok] at h
  obtain ⟨_, -, h⟩ := h
  exact _transfer_standing h

theorem _approve_standing {b : Address} (h : _approve a b v s = .ok s') :
    s'.standing = s.standing := by
  obtain ⟨-, -, rfl⟩ := _approve_ok h
  rfl

theorem transferFrom_standing {b c : Address} (h : transferFrom d a b c v s = .ok s') :
    s'.standing = s.standing := by
  simp only [transferFrom, bind_ok] at h
  obtain ⟨_, -, _, hmove, _, -, happrove⟩ := h
  rw [_approve_standing happrove, _transfer_standing hmove]

theorem permit_standing {recovered owner spender : Address} {deadline : ℕ}
    (h : permit block recovered owner spender v deadline s = .ok s') :
    s'.standing = s.standing := by
  simp only [permit, bind_ok] at h
  obtain ⟨_, -, _, -, h⟩ := h
  exact (_approve_standing h).trans rfl

end BPDToken

namespace MPStaking

theorem sendGains_standing {BPDGain RBTCGain : ℕ} (h : sendGains d a BPDGain RBTCGain s = .ok s') :
    s'.standing = s.standing := by
  simp only [sendGains, bind_ok] at h
  obtain ⟨_, hBPD, hRBTC⟩ := h
  rw [callWithValue_standing hRBTC, BPDToken.transfer_standing hBPD]

theorem stake_standing (h : stake d block a v s = .ok s') : s'.standing = s.standing := by
  simp only [stake, bind_ok, ite_pure_ok] at h
  obtain ⟨_, -, _, -, _, -, _, -, _, -, t, hMP, h⟩ := h
  obtain ⟨_, rfl⟩ := MPToken.sendToMPStaking_ok hMP
  rcases h with ⟨-, h⟩ | ⟨-, rfl⟩
  · exact (sendGains_standing h).trans rfl
  · rfl

theorem unstake_standing (h : unstake d block a v s = .ok s') : s'.standing = s.standing := by
  simp only [unstake, bind_ok, ite_pure_ok] at h
  obtain ⟨_, -, _, -, _, -, t, hMP, h⟩ := h
  rw [sendGains_standing h]
  rcases hMP with ⟨-, _, -, _, -, hMP⟩ | ⟨-, rfl⟩
  · obtain ⟨_, rfl⟩ := MPToken.transfer_ok hMP
    rfl
  · rfl

end MPStaking

namespace VaultManager

theorem applyPendingRewards_standing (h : applyPendingRewards d a s = .ok s') :
    s'.standing = s.standing := by
  simp only [applyPendingRewards] at h
  split_ifs at h
  · simp only [bind_ok, increaseVaultColl, increaseVaultDebt, pure_ok] at h
    obtain ⟨_, -, _, -, _, -, _, ⟨_, -, rfl⟩, _, ⟨_, -, rfl⟩, hmove⟩ := h
    obtain ⟨-, -, _, rfl⟩ := movePendingVaultRewardsToActivePool_ok hmove
    rfl
  · rw [pure_ok.mp h]

theorem updateStakeAndTotalStakes_standing (h : updateStakeAndTotalStakes a s = .ok s') :
    s'.standing = s.standing := by
  simp only [updateStakeAndTotalStakes, bind_ok, pure_ok] at h
  obtain ⟨_, -, _, -, _, -, rfl⟩ := h
  rfl

theorem removeStake_standing (h : removeStake a s = .ok s') : s'.standing = s.standing := by
  obtain ⟨-, rfl⟩ := removeStake_ok h
  rfl

theorem closeVault_standing {st : Status} (h : closeVault a st s = .ok s') :
    s'.standing = s.standing := by
  simp only [closeVault, removeVaultOwner, bind_ok, pure_ok] at h
  obtain ⟨_, -, _, -, _, ⟨_, -, _, -, _, -, hmove⟩, _, -, rfl⟩ := h
  split at hmove
  · contradiction
  · obtain rfl := pure_ok.mp hmove
    rfl

theorem detachVault_standing {e : EntireDebtAndColl} (h : detachVault d a e s = .ok s') :
    s'.standing = s.standing := by
  simp only [detachVault, bind_ok] at h
  obtain ⟨_, hmove, hstake⟩ := h
  obtain ⟨-, -, _, rfl⟩ := movePendingVaultRewardsToActivePool_ok hmove
  exact (removeStake_standing hstake).trans rfl

end VaultManager

namespace BorrowerOperations

theorem withdrawBPD_standing (h : withdrawBPD a v w s = .ok s') : s'.standing = s.standing := by
  simp only [withdrawBPD, ActivePool.increaseBPDDebt, bind_ok, pure_ok] at h
  obtain ⟨_, ⟨_, -, rfl⟩, hmint⟩ := h
  exact (BPDToken.mint_standing hmint).trans rfl

theorem repayBPD_standing (h : repayBPD a v s = .ok s') : s'.standing = s.standing := by
  simp only [repayBPD, ActivePool.decreaseBPDDebt, bind_ok, pure_ok] at h
  obtain ⟨_, ⟨_, -, rfl⟩, hburn⟩ := h
  exact (BPDToken.burn_standing hburn).trans rfl

theorem chargeBorrowingFee_borrowing {waived : Bool} {amount maxFee netDebt : ℕ}
    (h : chargeBorrowingFee d block waived amount maxFee s = .ok (netDebt, s')) :
    Borrowing block s s' := by
  simp only [chargeBorrowingFee] at h
  split_ifs at h
  · simp only [pure_ok, Prod.mk.injEq] at h
    apply Borrowing.of_standing
    rw [h.2]
  · simp only [triggerBorrowingFee, bind_ok, pure_ok, Prod.exists, Prod.mk.injEq] at h
    obtain ⟨_, _, ⟨t, hrate, _, -, _, -, _, hshare, u, hmint, rfl, rfl⟩, _, -, -, rfl⟩ := h
    have hafter : u.standing = t.standing := by
      obtain ⟨_, rfl⟩ := MPStaking.increaseF_BPD_ok hshare
      exact (BPDToken.mint_standing hmint).trans rfl
    refine Borrowing.within rfl ⟨?_, ?_⟩ hafter
    · obtain ⟨_, _, rfl⟩ := VaultManager.decayBaseRateFromBorrowing_ok hrate
      rfl
    · exact VaultManager.decayBaseRateFromBorrowing_moved hrate

theorem initVault_standing (h : initVault a v w s = .ok s') : s'.standing = s.standing := by
  simp only [initVault, VaultManager.increaseVaultColl, VaultManager.increaseVaultDebt, bind_ok,
    pure_ok] at h
  obtain ⟨_, ⟨_, -, rfl⟩, _, ⟨_, -, rfl⟩, h⟩ := h
  exact (VaultManager.updateStakeAndTotalStakes_standing h).trans rfl

theorem updateVaultFromAdjustment_standing {collIncrease debtIncrease : Bool}
    (h : updateVaultFromAdjustment a v collIncrease w debtIncrease s = .ok s') :
    s'.standing = s.standing := by
  simp only [updateVaultFromAdjustment, VaultManager.increaseVaultColl,
    VaultManager.decreaseVaultColl, VaultManager.increaseVaultDebt,
    VaultManager.decreaseVaultDebt, bind_ok] at h
  obtain ⟨t, hcoll, hdebt⟩ := h
  have ht : t.standing = s.standing := by
    split_ifs at hcoll
    all_goals
      simp only [bind_ok, pure_ok] at hcoll
      obtain ⟨_, -, rfl⟩ := hcoll
      rfl
  rw [← ht]
  split_ifs at hdebt
  all_goals
    simp only [bind_ok, pure_ok] at hdebt
    obtain ⟨_, -, rfl⟩ := hdebt
    rfl

theorem moveTokensAndRBTCfromAdjustment_standing {collIncrease debtIncrease : Bool} {net : ℕ}
    (h : moveTokensAndRBTCfromAdjustment d a v collIncrease w debtIncrease net s = .ok s') :
    s'.standing = s.standing := by
  simp only [moveTokensAndRBTCfromAdjustment, bind_ok] at h
  obtain ⟨t, hdebt, hcoll⟩ := h
  have ht : t.standing = s.standing := by
    split_ifs at hdebt
    · exact withdrawBPD_standing hdebt
    · exact repayBPD_standing hdebt
  rw [← ht]
  split_ifs at hcoll
  · exact callWithValue_standing hcoll
  · exact ActivePool.sendRBTC_standing hcoll

theorem openVault_borrowing {value maxFee amount : ℕ} {upperHint lowerHint : Address}
    (h : openVault d block a value maxFee amount upperHint lowerHint s = .ok s') :
    Borrowing block s s' := by
  simp only [openVault, bind_ok, Prod.exists] at h
  obtain ⟨_, _, hprice, _, -, _, -, _, -, _, _, hfee, _, -, _, -, _, -, _, -, _, -, _, -, _, hinit,
    _, hinsert, _, howner, _, hcoll, _, hloan, hreserve⟩ := h
  obtain ⟨_, -, rfl⟩ := insertSorted_ok hinsert
  simp only [VaultManager.addVaultOwnerToArray, bind_ok, pure_ok] at howner
  obtain ⟨_, -, rfl⟩ := howner
  apply Borrowing.within (PriceFeed.fetchPrice_standing hprice) (chargeBorrowingFee_borrowing hfee)
  rw [withdrawBPD_standing hreserve, withdrawBPD_standing hloan, callWithValue_standing hcoll]
  exact (initVault_standing hinit).trans rfl

theorem adjustVaultInternal_borrowing {sender borrower : Address} {value : ℕ} {adj : Adjustment}
    (h : adjustVaultInternal d block sender value borrower adj s = .ok s') :
    Borrowing block s s' := by
  simp only [adjustVaultInternal, bind_ok, Prod.exists] at h
  obtain ⟨_, _, hprice, _, -, _, -, _, -, _, -, _, -, _, -, _, hpending, _, _, hfee, _, -, _, -, _,
    -, _, -, _, -, _, hupdate, _, hstake, _, -, _, hinsert, hmove⟩ := h
  obtain ⟨_, -, rfl⟩ := reInsertSorted_ok hinsert
  refine Borrowing.within ?_ (chargeBorrowingFee_borrowing hfee) ?_
  · rw [VaultManager.applyPendingRewards_standing hpending, PriceFeed.fetchPrice_standing hprice]
  · rw [moveTokensAndRBTCfromAdjustment_standing hmove,
      ← updateVaultFromAdjustment_standing hupdate,
      ← VaultManager.updateStakeAndTotalStakes_standing hstake]
    rfl

theorem closeVault_standing (h : closeVault d block a s = .ok s') : s'.standing = s.standing := by
  simp only [closeVault, bind_ok, Prod.exists] at h
  obtain ⟨_, -, _, _, hprice, _, -, _, hpending, _, -, _, -, _, -, _, -, _, hstake, _, hclose, _,
    hrepay, _, hreserve, hsend⟩ := h
  rw [ActivePool.sendRBTC_standing hsend, repayBPD_standing hreserve, repayBPD_standing hrepay,
    VaultManager.closeVault_standing hclose, VaultManager.removeStake_standing hstake,
    VaultManager.applyPendingRewards_standing hpending, PriceFeed.fetchPrice_standing hprice]

end BorrowerOperations

namespace StabilityPool

theorem triggerMPIssuance_standing (h : triggerMPIssuance block s = .ok s') :
    s'.standing = s.standing := by
  obtain ⟨_, _, _, rfl⟩ := triggerMPIssuance_ok h
  rfl

theorem payOutMPGains_standing {frontEnd : Address}
    (h : payOutMPGains d block a frontEnd s = .ok s') : s'.standing = s.standing := by
  obtain ⟨_, rfl⟩ := payOutMPGains_ok h
  rfl

theorem Bookkeeping.standing (h : Bookkeeping s s') : s'.standing = s.standing := by
  obtain ⟨_, _, _, _, rfl⟩ := h
  rfl

theorem takeRBTC_standing (h : takeRBTC v s = .ok s') : s'.standing = s.standing := by
  simp only [takeRBTC, bind_ok, pure_ok] at h
  obtain ⟨_, -, rfl⟩ := h
  rfl

theorem decreaseBPD_standing (h : decreaseBPD v s = .ok s') : s'.standing = s.standing := by
  simp only [decreaseBPD, bind_ok, pure_ok] at h
  obtain ⟨_, -, rfl⟩ := h
  rfl

theorem sendRBTCGainToDepositor_standing (h : sendRBTCGainToDepositor d a v s = .ok s') :
    s'.standing = s.standing := by
  simp only [sendRBTCGainToDepositor] at h
  split_ifs at h
  · rw [pure_ok.mp h]
  · simp only [bind_ok] at h
    obtain ⟨_, htake, h⟩ := h
    rw [callWithValue_standing h, takeRBTC_standing htake]

theorem sendBPDtoStabilityPool_standing (h : sendBPDtoStabilityPool d a v s = .ok s') :
    s'.standing = s.standing := by
  simp only [sendBPDtoStabilityPool, BPDToken.sendToPool, bind_ok, pure_ok] at h
  obtain ⟨_, hmove, _, -, rfl⟩ := h
  rw [← BPDToken._transfer_standing hmove]
  rfl

theorem sendBPDToDepositor_standing (h : sendBPDToDepositor d a v s = .ok s') :
    s'.standing = s.standing := by
  simp only [sendBPDToDepositor] at h
  split_ifs at h
  · rw [pure_ok.mp h]
  · simp only [BPDToken.returnFromPool, bind_ok] at h
    obtain ⟨_, hmove, hdecrease⟩ := h
    rw [decreaseBPD_standing hdecrease, BPDToken._transfer_standing hmove]

theorem provideToSP_standing {tag : Address} (h : provideToSP d block a v tag s = .ok s') :
    s'.standing = s.standing := by
  simp only [provideToSP, bind_ok] at h
  obtain ⟨_, -, _, -, _, -, _, hissue, _, -, _, -, _, -, _, hpay, _, -, _, -, _, hsend, _, -,
    hgain⟩ := h
  rw [sendRBTCGainToDepositor_standing hgain, updateDepositAndSnapshots_bookkeeping.standing,
    sendBPDtoStabilityPool_standing hsend, updateFrontEndStakeAndSnapshots_bookkeeping.standing,
    payOutMPGains_standing hpay, tagDeposit_bookkeeping.standing, triggerMPIssuance_standing hissue]

theorem withdrawFromSP_standing (h : withdrawFromSP d block a v s = .ok s') :
    s'.standing = s.standing := by
  simp only [withdrawFromSP, bind_ok, ite_pure_ok] at h
  obtain ⟨t, hprice, _, -, _, hissue, _, -, _, -, _, -, _, hpay, _, -, _, -, _, hsend, _, -,
    hgain⟩ := h
  have ht : t.standing = s.standing := by
    rcases hprice with ⟨-, hprice⟩ | ⟨-, rfl⟩
    · obtain ⟨_, rfl⟩ := requireNoUnderCollateralizedVaults_ok hprice
      rfl
    · rfl
  rw [sendRBTCGainToDepositor_standing hgain, updateDepositAndSnapshots_bookkeeping.standing,
    sendBPDToDepositor_standing hsend, updateFrontEndStakeAndSnapshots_bookkeeping.standing,
    payOutMPGains_standing hpay, triggerMPIssuance_standing hissue, ht]

theorem withdrawRBTCGainToVault_borrowing {upperHint lowerHint : Address}
    (h : withdrawRBTCGainToVault d block a upperHint lowerHint s = .ok s') :
    Borrowing block s s' := by
  simp only [withdrawRBTCGainToVault, bind_ok] at h
  obtain ⟨_, -, _, -, _, -, _, hissue, _, -, _, -, _, -, _, hpay, _, -, _, htake, _, hsend, h⟩ := h
  refine Borrowing.within ?_ (BorrowerOperations.adjustVaultInternal_borrowing h) rfl
  rw [transferRBTC_standing hsend,
    takeRBTC_standing htake, updateDepositAndSnapshots_bookkeeping.standing,
    updateFrontEndStakeAndSnapshots_bookkeeping.standing, payOutMPGains_standing hpay,
    triggerMPIssuance_standing hissue]

theorem offset_standing {debt coll : ℕ} (h : offset d block debt coll s = .ok s') :
    s'.standing = s.standing := by
  rw [offset_eq] at h
  split_ifs at h
  · rw [pure_ok.mp h]
  · simp only [offsetUntilBurn, updateRewardSumAndProduct, ActivePool.decreaseBPDDebt, bind_ok,
      pure_ok] at h
    obtain ⟨_, ⟨_, hissue, _, -, _, ⟨_, -, _, -, _, -, _, -, _, -, _, -, rfl⟩, _, ⟨_, -, rfl⟩,
      hdecrease⟩, _, hburn, hsend⟩ := h
    rw [ActivePool.sendRBTC_standing hsend, BPDToken.burn_standing hburn,
      decreaseBPD_standing hdecrease, ← triggerMPIssuance_standing hissue]
    rfl

end StabilityPool

/-- Only these close vaults or pay a surplus. -/
def Operation.Settles : Operation → Prop
  | .claimCollateral | .redeemCollateral _ _ _ _ => True
  | .liquidate _ | .liquidateVaults _ | .batchLiquidateVaults _ => True
  | _ => False

variable {t : Transaction}

theorem payable_borrowing {f : State → Outcome State}
    (hf : ∀ s₁, f s₁ = .ok s' → Borrowing t.block s₁ s') (h : payable d t f s = .ok s') :
    Borrowing t.block s s' := by
  simp only [payable, bind_ok] at h
  obtain ⟨s₁, hsend, h⟩ := h
  exact (hf s₁ h).within (transferRBTC_standing hsend) rfl

/-- All the others at most charge a borrowing fee. -/
theorem transact_borrowing (h : transact d t s = .ok s') (hop : ¬t.operation.Settles) :
    Borrowing t.block s s' := by
  obtain ⟨block, sender, value, operation⟩ := t
  cases operation with
  | claimCollateral => exact absurd trivial hop
  | redeemCollateral => exact absurd trivial hop
  | liquidate => exact absurd trivial hop
  | liquidateVaults => exact absurd trivial hop
  | batchLiquidateVaults => exact absurd trivial hop
  | openVault => exact payable_borrowing (fun _ h => BorrowerOperations.openVault_borrowing h) h
  | addColl =>
    exact payable_borrowing (fun _ h => BorrowerOperations.adjustVaultInternal_borrowing h) h
  | adjustVault =>
    exact payable_borrowing (fun _ h => BorrowerOperations.adjustVaultInternal_borrowing h) h
  | withdrawColl => exact BorrowerOperations.adjustVaultInternal_borrowing (nonPayable_ok h)
  | withdrawBPD => exact BorrowerOperations.adjustVaultInternal_borrowing (nonPayable_ok h)
  | repayBPD => exact BorrowerOperations.adjustVaultInternal_borrowing (nonPayable_ok h)
  | closeVault => exact .of_standing (BorrowerOperations.closeVault_standing (nonPayable_ok h))
  | provideToSP => exact .of_standing (StabilityPool.provideToSP_standing (nonPayable_ok h))
  | withdrawFromSP => exact .of_standing (StabilityPool.withdrawFromSP_standing (nonPayable_ok h))
  | withdrawRBTCGainToVault =>
    exact StabilityPool.withdrawRBTCGainToVault_borrowing (nonPayable_ok h)
  | registerFrontEnd =>
    have h := nonPayable_ok h
    simp only [StabilityPool.registerFrontEnd, bind_ok, pure_ok] at h
    obtain ⟨_, -, _, -, _, -, rfl⟩ := h
    exact .of_standing rfl
  | transfer => exact .of_standing (BPDToken.transfer_standing (nonPayable_ok h))
  | approve => exact .of_standing (BPDToken._approve_standing (nonPayable_ok h))
  | transferFrom => exact .of_standing (BPDToken.transferFrom_standing (nonPayable_ok h))
  | increaseAllowance =>
    have h := nonPayable_ok h
    simp only [BPDToken.increaseAllowance, bind_ok] at h
    obtain ⟨_, -, h⟩ := h
    exact .of_standing (BPDToken._approve_standing h)
  | decreaseAllowance =>
    have h := nonPayable_ok h
    simp only [BPDToken.decreaseAllowance, bind_ok] at h
    obtain ⟨_, -, h⟩ := h
    exact .of_standing (BPDToken._approve_standing h)
  | permit => exact .of_standing (BPDToken.permit_standing (nonPayable_ok h))
  | stake => exact .of_standing (MPStaking.stake_standing (nonPayable_ok h))
  | unstake => exact .of_standing (MPStaking.unstake_standing (nonPayable_ok h))
  | fetchPrice =>
    simp only [transact] at h
    obtain ⟨⟨_, _⟩, hprice, rfl⟩ := map_ok.mp (nonPayable_ok h)
    exact .of_standing (PriceFeed.fetchPrice_standing hprice)
  | sendRBTC => exact .of_standing (callWithValue_standing h)

end MoneyProtocol
