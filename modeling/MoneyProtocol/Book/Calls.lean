import MoneyProtocol.Book.Moves
import MoneyProtocol.Accounting.Transactions

/-!
# What the calls do to the book

Calls between the pools and the tokens leave the book alone; the functions of the
VaultManager change it by a move each.
-/

namespace MoneyProtocol

open Outcome MoneypMath MoneypBase Book

variable {d : Deployment} {s s' : State} {block : Block} {a : Address} {v : ℕ} {P : Policy}

theorem PriceFeed.fetchPrice_book {price : ℕ}
    (h : PriceFeed.fetchPrice block s = .ok (price, s')) : s'.book = s.book := by
  obtain ⟨_, rfl⟩ := fetchPrice_ok h
  rfl

theorem transferRBTC_book {b : Address} (h : transferRBTC a b v s = .ok s') :
    s'.book = s.book := by
  obtain ⟨-, rfl⟩ := transferRBTC_ok.mp h
  rfl

theorem callWithValue_book {caller recipient : Address} (hcaller : caller ≠ d.activePool)
    (h : callWithValue d caller recipient v s = .ok s') : s'.book = s.book := by
  obtain ⟨-, h⟩ := callWithValue_ok.mp h
  rcases receive_ok h with ⟨-, -, rfl⟩ | ⟨-, hc, -⟩ | ⟨-, hc, -⟩ | ⟨-, hc, -⟩ | ⟨-, -, -, -, rfl⟩
  · rfl
  · exact absurd hc hcaller
  · exact absurd hc hcaller
  · exact absurd hc hcaller
  · rfl

namespace ActivePool

theorem sendRBTC_book {account : Address} (haccount : account ≠ d.defaultPool)
    (h : sendRBTC d account v s = .ok s') : s'.book = s.book := by
  simp only [sendRBTC, bind_ok, SafeMath.sub_ok] at h
  obtain ⟨_, -, h⟩ := h
  obtain ⟨-, h⟩ := callWithValue_ok.mp h
  rcases receive_ok h with ⟨-, -, rfl⟩ | ⟨hr, -⟩ | ⟨-, -, rfl⟩ | ⟨-, -, rfl⟩ | ⟨-, -, -, -, rfl⟩
  · rfl
  · exact absurd hr haccount
  · rfl
  · rfl
  · rfl

/-- The Default Pool books what the Active Pool sends it. -/
theorem sendRBTC_defaultPool (h : sendRBTC d d.defaultPool v s = .ok s') :
    s'.book = { s.book with
      defaultPool := { s.book.defaultPool with RBTC := s.book.defaultPool.RBTC + v } } := by
  simp only [sendRBTC, bind_ok, SafeMath.sub_ok] at h
  obtain ⟨_, -, h⟩ := h
  obtain ⟨-, h⟩ := callWithValue_ok.mp h
  rcases receive_ok h with ⟨hr, -⟩ | ⟨-, -, rfl⟩ | ⟨hr, -⟩ | ⟨hr, -⟩ | ⟨-, hr, -⟩
  · exact absurd hr d.defaultPool_ne_activePool
  · rfl
  · exact absurd hr.symm d.collSurplusPool_ne_defaultPool
  · exact absurd hr.symm d.stabilityPool_ne_defaultPool
  · exact absurd rfl hr

theorem increaseBPDDebt_book (h : increaseBPDDebt v s = .ok s') : s'.book = s.book := by
  simp [increaseBPDDebt] at h
  obtain ⟨-, rfl⟩ := h
  rfl

theorem decreaseBPDDebt_book (h : decreaseBPDDebt v s = .ok s') : s'.book = s.book := by
  simp [decreaseBPDDebt] at h
  obtain ⟨-, rfl⟩ := h
  rfl

end ActivePool

theorem DefaultPool.increaseBPDDebt_book (h : DefaultPool.increaseBPDDebt v s = .ok s') :
    s'.book = { s.book with
      defaultPool := { s.book.defaultPool with BPDDebt := s.book.defaultPool.BPDDebt + v } } := by
  simp [increaseBPDDebt] at h
  obtain ⟨-, rfl⟩ := h
  rfl

theorem CollSurplusPool.accountSurplus_book (h : CollSurplusPool.accountSurplus a v s = .ok s') :
    s'.book = s.book := by
  simp [accountSurplus] at h
  obtain ⟨-, rfl⟩ := h
  rfl

theorem CollSurplusPool.claimColl_book (h : CollSurplusPool.claimColl d a s = .ok s') :
    s'.book = s.book := by
  simp only [claimColl, bind_ok] at h
  obtain ⟨_, -, _, -, h⟩ := h
  exact (callWithValue_book d.collSurplusPool_ne_activePool h).trans rfl

namespace BPDToken

theorem _transfer_book {b : Address} (h : _transfer a b v s = .ok s') : s'.book = s.book := by
  obtain ⟨-, -, -, rfl⟩ := _transfer_ok h
  rfl

theorem mint_book (h : mint a v s = .ok s') : s'.book = s.book := by
  obtain ⟨-, -, rfl⟩ := mint_ok h
  rfl

theorem burn_book (h : burn a v s = .ok s') : s'.book = s.book := by
  obtain ⟨-, -, -, rfl⟩ := burn_ok h
  rfl

theorem _approve_book {b : Address} (h : _approve a b v s = .ok s') : s'.book = s.book := by
  obtain ⟨-, -, rfl⟩ := _approve_ok h
  rfl

theorem transfer_book {b : Address} (h : transfer d a b v s = .ok s') : s'.book = s.book := by
  simp only [transfer, bind_ok] at h
  obtain ⟨_, -, h⟩ := h
  exact _transfer_book h

theorem transferFrom_book {b c : Address} (h : transferFrom d a b c v s = .ok s') :
    s'.book = s.book := by
  simp only [transferFrom, bind_ok] at h
  obtain ⟨_, -, _, hmove, _, -, happrove⟩ := h
  rw [_approve_book happrove, _transfer_book hmove]

theorem permit_book {recovered owner spender : Address} {deadline : ℕ}
    (h : permit block recovered owner spender v deadline s = .ok s') : s'.book = s.book := by
  simp only [permit, bind_ok] at h
  obtain ⟨_, -, _, -, h⟩ := h
  exact (_approve_book h).trans rfl

end BPDToken

namespace MPStaking

theorem sendGains_book {BPDGain RBTCGain : ℕ} (h : sendGains d a BPDGain RBTCGain s = .ok s') :
    s'.book = s.book := by
  simp only [sendGains, bind_ok] at h
  obtain ⟨_, hBPD, hRBTC⟩ := h
  rw [callWithValue_book d.mpStaking_ne_activePool hRBTC, BPDToken.transfer_book hBPD]

theorem stake_book (h : stake d block a v s = .ok s') : s'.book = s.book := by
  simp only [stake, bind_ok, ite_pure_ok] at h
  obtain ⟨_, -, _, -, _, -, _, -, _, -, t, hMP, h⟩ := h
  obtain ⟨_, rfl⟩ := MPToken.sendToMPStaking_ok hMP
  rcases h with ⟨-, h⟩ | ⟨-, rfl⟩
  · exact (sendGains_book h).trans rfl
  · rfl

theorem unstake_book (h : unstake d block a v s = .ok s') : s'.book = s.book := by
  simp only [unstake, bind_ok, ite_pure_ok] at h
  obtain ⟨_, -, _, -, _, -, t, hMP, h⟩ := h
  rw [sendGains_book h]
  rcases hMP with ⟨-, _, -, _, -, hMP⟩ | ⟨-, rfl⟩
  · obtain ⟨_, rfl⟩ := MPToken.transfer_ok hMP
    rfl
  · rfl

end MPStaking

namespace BorrowerOperations

theorem activePoolAddColl_book (h : activePoolAddColl d v s = .ok s') : s'.book = s.book :=
  callWithValue_book d.borrowerOperations_ne_activePool h

theorem withdrawBPD_book {w : ℕ} (h : withdrawBPD a v w s = .ok s') : s'.book = s.book := by
  simp only [withdrawBPD, bind_ok] at h
  obtain ⟨_, hdebt, h⟩ := h
  rw [BPDToken.mint_book h, ActivePool.increaseBPDDebt_book hdebt]

theorem repayBPD_book (h : repayBPD a v s = .ok s') : s'.book = s.book := by
  simp only [repayBPD, bind_ok] at h
  obtain ⟨_, hdebt, h⟩ := h
  rw [BPDToken.burn_book h, ActivePool.decreaseBPDDebt_book hdebt]

theorem chargeBorrowingFee_book {waived : Bool} {amount maxFee netDebt : ℕ}
    (h : chargeBorrowingFee d block waived amount maxFee s = .ok (netDebt, s')) :
    s'.book = s.book := by
  simp only [chargeBorrowingFee] at h
  split_ifs at h
  · simp only [pure_ok, Prod.mk.injEq] at h
    rw [h.2]
  · simp only [triggerBorrowingFee, bind_ok, pure_ok, Prod.exists, Prod.mk.injEq] at h
    obtain ⟨_, _, ⟨_, hrate, _, -, _, -, _, hshare, _, hmint, rfl, rfl⟩, _, -, -, rfl⟩ := h
    obtain ⟨_, _, rfl⟩ := VaultManager.decayBaseRateFromBorrowing_ok hrate
    obtain ⟨_, rfl⟩ := MPStaking.increaseF_BPD_ok hshare
    exact (BPDToken.mint_book hmint).trans rfl

theorem moveTokensAndRBTCfromAdjustment_book {collIncrease debtIncrease : Bool} {w net : ℕ}
    (ha : a ≠ d.defaultPool)
    (h : moveTokensAndRBTCfromAdjustment d a v collIncrease w debtIncrease net s = .ok s') :
    s'.book = s.book := by
  simp only [moveTokensAndRBTCfromAdjustment, bind_ok] at h
  obtain ⟨t, hdebt, hcoll⟩ := h
  have ht : t.book = s.book := by
    split_ifs at hdebt
    · exact withdrawBPD_book hdebt
    · exact repayBPD_book hdebt
  rw [← ht]
  split_ifs at hcoll
  · exact activePoolAddColl_book hcoll
  · exact ActivePool.sendRBTC_book ha hcoll

end BorrowerOperations

namespace StabilityPool

theorem triggerMPIssuance_book (h : triggerMPIssuance block s = .ok s') : s'.book = s.book := by
  obtain ⟨_, _, _, rfl⟩ := triggerMPIssuance_ok h
  rfl

theorem payOutMPGains_book {frontEnd : Address}
    (h : payOutMPGains d block a frontEnd s = .ok s') : s'.book = s.book := by
  obtain ⟨_, rfl⟩ := payOutMPGains_ok h
  rfl

theorem Bookkeeping.book (h : Bookkeeping s s') : s'.book = s.book := by
  obtain ⟨_, _, _, _, rfl⟩ := h
  rfl

theorem takeRBTC_book (h : takeRBTC v s = .ok s') : s'.book = s.book := by
  simp only [takeRBTC, bind_ok, pure_ok] at h
  obtain ⟨_, -, rfl⟩ := h
  rfl

theorem decreaseBPD_book (h : decreaseBPD v s = .ok s') : s'.book = s.book := by
  simp only [decreaseBPD, bind_ok, pure_ok] at h
  obtain ⟨_, -, rfl⟩ := h
  rfl

theorem sendRBTCGainToDepositor_book (h : sendRBTCGainToDepositor d a v s = .ok s') :
    s'.book = s.book := by
  simp only [sendRBTCGainToDepositor] at h
  split_ifs at h
  · rw [pure_ok.mp h]
  · simp only [bind_ok] at h
    obtain ⟨_, htake, h⟩ := h
    rw [callWithValue_book d.stabilityPool_ne_activePool h, takeRBTC_book htake]

theorem sendBPDtoStabilityPool_book (h : sendBPDtoStabilityPool d a v s = .ok s') :
    s'.book = s.book := by
  simp only [sendBPDtoStabilityPool, BPDToken.sendToPool, bind_ok, pure_ok] at h
  obtain ⟨_, hmove, _, -, rfl⟩ := h
  rw [← BPDToken._transfer_book hmove]
  rfl

theorem sendBPDToDepositor_book (h : sendBPDToDepositor d a v s = .ok s') :
    s'.book = s.book := by
  simp only [sendBPDToDepositor] at h
  split_ifs at h
  · rw [pure_ok.mp h]
  · simp only [BPDToken.returnFromPool, bind_ok] at h
    obtain ⟨_, hmove, hdecrease⟩ := h
    rw [decreaseBPD_book hdecrease, BPDToken._transfer_book hmove]

theorem provideToSP_book {tag : Address} (h : provideToSP d block a v tag s = .ok s') :
    s'.book = s.book := by
  simp only [provideToSP, bind_ok] at h
  obtain ⟨_, -, _, -, _, -, _, hissue, _, -, _, -, _, -, _, hpay, _, -, _, -, _, hsend, _, -,
    hgain⟩ := h
  rw [sendRBTCGainToDepositor_book hgain, updateDepositAndSnapshots_bookkeeping.book,
    sendBPDtoStabilityPool_book hsend, updateFrontEndStakeAndSnapshots_bookkeeping.book,
    payOutMPGains_book hpay, tagDeposit_bookkeeping.book, triggerMPIssuance_book hissue]

theorem withdrawFromSP_book (h : withdrawFromSP d block a v s = .ok s') : s'.book = s.book := by
  simp only [withdrawFromSP, bind_ok, ite_pure_ok] at h
  obtain ⟨t, hprice, _, -, _, hissue, _, -, _, -, _, -, _, hpay, _, -, _, -, _, hsend, _, -,
    hgain⟩ := h
  have ht : t.book = s.book := by
    rcases hprice with ⟨-, hprice⟩ | ⟨-, rfl⟩
    · obtain ⟨_, rfl⟩ := requireNoUnderCollateralizedVaults_ok hprice
      rfl
    · rfl
  rw [sendRBTCGainToDepositor_book hgain, updateDepositAndSnapshots_bookkeeping.book,
    sendBPDToDepositor_book hsend, updateFrontEndStakeAndSnapshots_bookkeeping.book,
    payOutMPGains_book hpay, triggerMPIssuance_book hissue, ht]

theorem offset_book {debt coll : ℕ} (h : offset d block debt coll s = .ok s') :
    s'.book = s.book := by
  simp only [offset] at h
  split_ifs at h
  · rw [pure_ok.mp h]
  · simp only [moveOffsetCollAndDebt, updateRewardSumAndProduct, bind_ok, pure_ok] at h
    obtain ⟨_, hissue, _, -, _, ⟨_, -, _, -, _, -, _, -, _, -, _, -, rfl⟩, _, hdebt, _, hdecrease,
      _, hburn, hsend⟩ := h
    rw [ActivePool.sendRBTC_book d.stabilityPool_ne_defaultPool hsend, BPDToken.burn_book hburn,
      decreaseBPD_book hdecrease, ActivePool.decreaseBPDDebt_book hdebt,
      ← triggerMPIssuance_book hissue]
    rfl

end StabilityPool

end MoneyProtocol
