import MoneyProtocol.Accounting.BorrowerOperations

/-!
# Tokens, staking and the Stability Pool balance

Deposits and withdrawals move BPD together with the total of the deposits; an offset takes
the debt from the Active Pool, the deposits and the supply at once. Transfers and approvals
by outside accounts cannot touch what the Gas Pool and the Stability Pool hold.
-/

namespace MoneyProtocol

open Outcome PointSum MoneypBase

variable {d : Deployment} {s s' : State} {block : Block} {a : Address} {v : ℕ}

namespace BPDToken

/-- A transfer between users may feed the Gas Pool, never the Stability Pool. -/
theorem transfer_ledger {recipient : Address} (ha : held d a v = 0)
    (h : transfer d a recipient v s = .ok s') :
    s'.ledger d = s.ledger d + if recipient = d.gasPool then entry .reserve v else 0 := by
  simp only [transfer, requireValidRecipient, bind_ok, require_ok] at h
  obtain ⟨_, ⟨_, -, hpool, -, -⟩, h⟩ := h
  rw [_transfer_ledger h, ha, sub_zero]
  split_ifs with hgas
  · rw [hgas, held_gasPool]
  · rw [held_of_ne hgas hpool]

theorem _approve_ledger {owner spender : Address} (hgas : owner ≠ d.gasPool)
    (hpool : owner ≠ d.stabilityPool) (h : _approve owner spender v s = .ok s') :
    s'.ledger d = s.ledger d := by
  obtain ⟨-, -, rfl⟩ := _approve_ok h
  funext x
  cases x <;> simp [State.ledger, hgas.symm, hpool.symm]

/-- Nobody is allowed to spend the BPD of the two pools. -/
def Locked (d : Deployment) (s : State) : Prop :=
  ∀ a, a = d.gasPool ∨ a = d.stabilityPool → ∀ b, s.bpdToken.allowances a b = 0

theorem locked_of_ledger (h : s.ledger d .allowance = 0) : Locked d s := by
  have hnat : total id (s.bpdToken.allowances d.gasPool) +
      total id (s.bpdToken.allowances d.stabilityPool) = 0 := by
    simp only [State.ledger] at h
    omega
  intro a ha b
  have hle := le_total id (s.bpdToken.allowances a) b
  rcases ha with rfl | rfl
  · simp only [id_eq] at hle
    omega
  · simp only [id_eq] at hle
    omega

theorem transferFrom_ledger {sender recipient : Address} (hlocked : Locked d s)
    (h : transferFrom d a sender recipient v s = .ok s') :
    s'.ledger d = s.ledger d + if recipient = d.gasPool then entry .reserve v else 0 := by
  simp only [transferFrom, bind_ok] at h
  obtain ⟨_, hvalid, t, hmove, allowance, hallowance, happrove⟩ := h
  have hallowances : t.bpdToken.allowances = s.bpdToken.allowances := by
    obtain ⟨-, -, -, rfl⟩ := _transfer_ok hmove
    rfl
  simp only [SafeMath.subWith_ok, hallowances] at hallowance
  obtain ⟨hle, rfl⟩ := hallowance
  have htransfer (hheld : held d sender v = 0) : t.ledger d = s.ledger d +
      if recipient = d.gasPool then entry .reserve v else 0 := by
    apply transfer_ledger hheld
    simp only [transfer, bind_ok]
    exact ⟨_, hvalid, hmove⟩
  by_cases hsender : sender = d.gasPool ∨ sender = d.stabilityPool
  · -- the allowance is zero, so nothing moves and zero is approved again
    have hzero := hlocked sender hsender
    obtain rfl : v = 0 := by
      have := hzero a
      omega
    rw [← htransfer held_zero]
    obtain ⟨-, -, rfl⟩ := _approve_ok happrove
    have hsame : Function.update (t.bpdToken.allowances) sender
        (Function.update (t.bpdToken.allowances sender) a (s.bpdToken.allowances sender a - 0)) =
          t.bpdToken.allowances := by
      rw [hallowances, Nat.sub_zero, Function.update_eq_self, Function.update_eq_self]
    rw [hsame]
  · rw [not_or] at hsender
    rw [_approve_ledger hsender.1 hsender.2 happrove,
      htransfer (held_of_ne hsender.1 hsender.2)]

theorem permit_ledger {recovered owner spender : Address} {deadline : ℕ}
    (hrecovered : d.External recovered ∨ recovered = 0)
    (h : permit block recovered owner spender v deadline s = .ok s') :
    s'.ledger d = s.ledger d := by
  simp only [permit, bind_ok, require_ok] at h
  obtain ⟨_, -, _, rfl, h⟩ := h
  rcases hrecovered with hr | rfl
  · rw [_approve_ledger (hr.ne d.gasPool_mem) (hr.ne d.stabilityPool_mem) h]
    rfl
  · exact absurd rfl (_approve_ok h).1

end BPDToken

namespace MPStaking

theorem sendGains_ledger {BPDGain RBTCGain : ℕ} (ha : d.External a)
    (h : sendGains d a BPDGain RBTCGain s = .ok s') : s'.ledger d = s.ledger d := by
  simp only [sendGains, bind_ok] at h
  obtain ⟨_, hBPD, hRBTC⟩ := h
  rw [callWithValue_ledger d.mpStaking_ne_activePool hRBTC, if_neg (ha.ne d.activePool_mem),
    backed_mpStaking, BPDToken.transfer_ledger held_mpStaking hBPD, if_neg (ha.ne d.gasPool_mem)]
  simp

theorem stake_ledger (ha : d.External a) (h : stake d block a v s = .ok s') :
    s'.ledger d = s.ledger d := by
  simp only [stake, bind_ok, ite_pure_ok] at h
  obtain ⟨_, -, _, -, _, -, _, -, _, -, t, hMP, h⟩ := h
  obtain ⟨_, rfl⟩ := MPToken.sendToMPStaking_ok hMP
  rcases h with ⟨-, h⟩ | ⟨-, rfl⟩
  · exact (sendGains_ledger ha h).trans rfl
  · rfl

theorem unstake_ledger (ha : d.External a) (h : unstake d block a v s = .ok s') :
    s'.ledger d = s.ledger d := by
  simp only [unstake, bind_ok, ite_pure_ok] at h
  obtain ⟨_, -, _, -, _, -, t, hMP, h⟩ := h
  rw [sendGains_ledger ha h]
  rcases hMP with ⟨-, _, -, _, -, hMP⟩ | ⟨-, rfl⟩
  · obtain ⟨_, rfl⟩ := MPToken.transfer_ok hMP
    rfl
  · rfl

end MPStaking

namespace StabilityPool

theorem triggerMPIssuance_ledger (h : triggerMPIssuance block s = .ok s') :
    s'.ledger d = s.ledger d := by
  obtain ⟨_, _, _, rfl⟩ := triggerMPIssuance_ok h
  rfl

theorem payOutMPGains_ledger {frontEnd : Address}
    (h : payOutMPGains d block a frontEnd s = .ok s') : s'.ledger d = s.ledger d := by
  obtain ⟨_, rfl⟩ := payOutMPGains_ok h
  rfl

theorem Bookkeeping.ledger (h : Bookkeeping s s') : s'.ledger d = s.ledger d := by
  obtain ⟨_, _, _, _, rfl⟩ := h
  rfl

theorem sendBPDtoStabilityPool_ledger (ha : d.External a)
    (h : sendBPDtoStabilityPool d a v s = .ok s') : s'.ledger d = s.ledger d := by
  simp only [sendBPDtoStabilityPool, BPDToken.sendToPool, bind_ok, pure_ok, SafeMath.add_ok] at h
  obtain ⟨t, hmove, _, ⟨-, rfl⟩, rfl⟩ := h
  have ht : t.ledger d = s.ledger d + entry .deposit v := by
    rw [BPDToken._transfer_ledger hmove, held_external ha, held_stabilityPool, sub_zero]
  have hbook : State.ledger d { t with stabilityPool := { t.stabilityPool with
      totalBPDDeposits := t.stabilityPool.totalBPDDeposits + v } } =
        t.ledger d - entry .deposit v := by
    funext x
    cases x <;> simp [State.ledger]
    ring
  rw [hbook, ht]
  abel

theorem decreaseBPD_ledger (h : decreaseBPD v s = .ok s') :
    s'.ledger d = s.ledger d + entry .deposit v := by
  simp only [decreaseBPD, bind_ok, pure_ok, SafeMath.sub_ok] at h
  obtain ⟨_, ⟨hle, rfl⟩, rfl⟩ := h
  funext x
  cases x <;> simp [State.ledger, hle]
  ring

theorem sendBPDToDepositor_ledger (ha : d.External a)
    (h : sendBPDToDepositor d a v s = .ok s') : s'.ledger d = s.ledger d := by
  simp only [sendBPDToDepositor] at h
  split_ifs at h
  · rw [pure_ok.mp h]
  · simp only [BPDToken.returnFromPool, bind_ok] at h
    obtain ⟨_, hmove, hdecrease⟩ := h
    rw [decreaseBPD_ledger hdecrease, BPDToken._transfer_ledger hmove, held_external ha,
      held_stabilityPool]
    abel

theorem takeRBTC_ledger (h : takeRBTC v s = .ok s') :
    s'.ledger d = s.ledger d + entry .gain v := by
  simp only [takeRBTC, bind_ok, pure_ok, SafeMath.sub_ok] at h
  obtain ⟨_, ⟨hle, rfl⟩, rfl⟩ := h
  funext x
  cases x <;> simp [State.ledger, hle]
  ring

theorem sendRBTCGainToDepositor_ledger (ha : d.External a)
    (h : sendRBTCGainToDepositor d a v s = .ok s') : s'.ledger d = s.ledger d := by
  simp only [sendRBTCGainToDepositor] at h
  split_ifs at h
  · rw [pure_ok.mp h]
  · simp only [bind_ok] at h
    obtain ⟨_, htake, h⟩ := h
    rw [callWithValue_ledger d.stabilityPool_ne_activePool h, if_neg (ha.ne d.activePool_mem),
      takeRBTC_ledger htake, add_zero, backed_stabilityPool, add_sub_cancel_right]

theorem provideToSP_ledger {tag : Address} (ha : d.External a)
    (h : provideToSP d block a v tag s = .ok s') : s'.ledger d = s.ledger d := by
  simp only [provideToSP, bind_ok] at h
  obtain ⟨_, -, _, -, _, -, _, hissue, _, -, _, -, _, -, _, hpay, _, -, _, -, _, hsend, _, -,
    hgain⟩ := h
  rw [sendRBTCGainToDepositor_ledger ha hgain, updateDepositAndSnapshots_bookkeeping.ledger,
    sendBPDtoStabilityPool_ledger ha hsend, updateFrontEndStakeAndSnapshots_bookkeeping.ledger,
    payOutMPGains_ledger hpay, tagDeposit_bookkeeping.ledger, triggerMPIssuance_ledger hissue]

theorem requireNoUnderCollateralizedVaults_ok
    (h : requireNoUnderCollateralizedVaults block s = .ok s') :
    ∃ p, s' = { s with priceFeed := p } := by
  simp only [requireNoUnderCollateralizedVaults, bind_ok, pure_ok, Prod.exists] at h
  obtain ⟨_, _, hprice, _, -, _, -, rfl⟩ := h
  exact PriceFeed.fetchPrice_ok hprice

theorem withdrawFromSP_ledger (ha : d.External a) (h : withdrawFromSP d block a v s = .ok s') :
    s'.ledger d = s.ledger d := by
  simp only [withdrawFromSP, bind_ok, ite_pure_ok] at h
  obtain ⟨t, hprice, _, -, _, hissue, _, -, _, -, _, -, _, hpay, _, -, _, -, _, hsend, _, -,
    hgain⟩ := h
  have ht : t.ledger d = s.ledger d := by
    rcases hprice with ⟨-, hprice⟩ | ⟨-, rfl⟩
    · obtain ⟨_, rfl⟩ := requireNoUnderCollateralizedVaults_ok hprice
      rfl
    · rfl
  rw [sendRBTCGainToDepositor_ledger ha hgain, updateDepositAndSnapshots_bookkeeping.ledger,
    sendBPDToDepositor_ledger ha hsend, updateFrontEndStakeAndSnapshots_bookkeeping.ledger,
    payOutMPGains_ledger hpay, triggerMPIssuance_ledger hissue, ht]

theorem withdrawRBTCGainToVault_ledger {upperHint lowerHint : Address}
    (h : withdrawRBTCGainToVault d block a upperHint lowerHint s = .ok s') :
    s'.ledger d = s.ledger d := by
  simp only [withdrawRBTCGainToVault, bind_ok] at h
  obtain ⟨_, -, _, -, _, -, _, hissue, _, -, _, -, _, -, _, hpay, _, -, _, htake, _, hsend, h⟩ := h
  rw [BorrowerOperations.adjustVaultInternal_ledger (.inr ⟨rfl, rfl⟩) h,
    transferRBTC_ledger d.stabilityPool_ne_activePool d.borrowerOperations_ne_activePool hsend,
    takeRBTC_ledger htake, backed_borrowerOperations, backed_stabilityPool, add_zero,
    add_sub_cancel_right, updateDepositAndSnapshots_bookkeeping.ledger,
    updateFrontEndStakeAndSnapshots_bookkeeping.ledger, payOutMPGains_ledger hpay,
    triggerMPIssuance_ledger hissue]

theorem updateRewardSumAndProduct_ledger {gain loss : ℕ}
    (h : updateRewardSumAndProduct gain loss s = .ok s') : s'.ledger d = s.ledger d := by
  simp only [updateRewardSumAndProduct, bind_ok, pure_ok] at h
  obtain ⟨_, -, _, -, _, -, _, -, _, -, _, -, rfl⟩ := h
  rfl

/-- An offset, up to where the deposits are burned. -/
def offsetUntilBurn (block : Block) (debtToOffset collToAdd : ℕ) (s : State) : Outcome State := do
  let totalBPD := s.stabilityPool.totalBPDDeposits
  let s ← triggerMPIssuance block s
  let r ← computeRewardsPerUnitStaked collToAdd debtToOffset totalBPD s
  let s ← updateRewardSumAndProduct r.RBTCGainPerUnitStaked r.BPDLossPerUnitStaked
    (setOffsetErrors r s)
  let s ← ActivePool.decreaseBPDDebt debtToOffset s
  decreaseBPD debtToOffset s

theorem offset_eq {debt coll : ℕ} : offset d block debt coll s =
    if s.stabilityPool.totalBPDDeposits = 0 ∨ debt = 0 then pure s
    else (do
      let s ← offsetUntilBurn block debt coll s
      let s ← BPDToken.burn d.stabilityPool debt s
      ActivePool.sendRBTC d d.stabilityPool coll s) := by
  simp [offset, offsetUntilBurn, moveOffsetCollAndDebt]

theorem offsetUntilBurn_ledger {debt coll : ℕ} (h : offsetUntilBurn block debt coll s = .ok s') :
    s'.ledger d = s.ledger d - entry .debt debt + entry .supply debt + entry .deposit debt := by
  simp only [offsetUntilBurn, bind_ok] at h
  obtain ⟨_, hissue, r, -, _, hupdate, _, hdebt, hdeposit⟩ := h
  have herrors {t : State} : (setOffsetErrors r t).ledger d = t.ledger d := rfl
  rw [decreaseBPD_ledger hdeposit, ActivePool.decreaseBPDDebt_ledger hdebt,
    updateRewardSumAndProduct_ledger hupdate, herrors, triggerMPIssuance_ledger hissue]

/-- An offset of no debt must bring no collateral either, or the collateral would stay
behind in the Active Pool. -/
theorem offset_ledger {debt coll : ℕ} (hdebt : debt ≤ s.stabilityPool.totalBPDDeposits)
    (hzero : debt = 0 → coll = 0) (h : offset d block debt coll s = .ok s') :
    s'.ledger d = s.ledger d - entry .coll coll - entry .debt debt := by
  rw [offset_eq] at h
  split_ifs at h with hskip
  · obtain rfl : debt = 0 := by omega
    obtain rfl := hzero rfl
    simp [pure_ok.mp h]
  · simp only [bind_ok] at h
    obtain ⟨s₁, huntil, s₂, hburn, hsend⟩ := h
    rw [ActivePool.sendRBTC_ledger_of_ne d.stabilityPool_ne_collSurplusPool hsend,
      BPDToken.burn_ledger hburn, offsetUntilBurn_ledger huntil, held_stabilityPool]
    abel

end StabilityPool

end MoneyProtocol
