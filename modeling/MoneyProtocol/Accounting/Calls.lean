import MoneyProtocol.Contracts.Operations

/-!
# What each call changes

The calls that contracts make to each other, read backwards: if the call returned, which
checks held and which part of the state it replaced. Later modules never unfold these calls.
-/

namespace MoneyProtocol

open Outcome PointSum

variable {d : Deployment} {s s' : State} {block : Block}

namespace Deployment

theorem contracts_ne (d : Deployment) {i j : Fin 12} (h : i ≠ j) :
    d.contracts.get i ≠ d.contracts.get j :=
  fun he => h (d.nodup.injective_get he)

theorem borrowerOperations_ne_activePool (d : Deployment) :
    d.borrowerOperations ≠ d.activePool := d.contracts_ne (i := 0) (j := 3) (by decide)

theorem stabilityPool_ne_activePool (d : Deployment) : d.stabilityPool ≠ d.activePool :=
  d.contracts_ne (i := 2) (j := 3) (by decide)

theorem defaultPool_ne_activePool (d : Deployment) : d.defaultPool ≠ d.activePool :=
  d.contracts_ne (i := 4) (j := 3) (by decide)

theorem collSurplusPool_ne_activePool (d : Deployment) : d.collSurplusPool ≠ d.activePool :=
  d.contracts_ne (i := 5) (j := 3) (by decide)

theorem mpStaking_ne_activePool (d : Deployment) : d.mpStaking ≠ d.activePool :=
  d.contracts_ne (i := 10) (j := 3) (by decide)

theorem collSurplusPool_ne_defaultPool (d : Deployment) : d.collSurplusPool ≠ d.defaultPool :=
  d.contracts_ne (i := 5) (j := 4) (by decide)

theorem stabilityPool_ne_defaultPool (d : Deployment) : d.stabilityPool ≠ d.defaultPool :=
  d.contracts_ne (i := 2) (j := 4) (by decide)

theorem stabilityPool_ne_collSurplusPool (d : Deployment) :
    d.stabilityPool ≠ d.collSurplusPool := d.contracts_ne (i := 2) (j := 5) (by decide)

theorem mpStaking_ne_defaultPool (d : Deployment) : d.mpStaking ≠ d.defaultPool :=
  d.contracts_ne (i := 10) (j := 4) (by decide)

theorem mpStaking_ne_collSurplusPool (d : Deployment) : d.mpStaking ≠ d.collSurplusPool :=
  d.contracts_ne (i := 10) (j := 5) (by decide)

theorem mpStaking_ne_stabilityPool (d : Deployment) : d.mpStaking ≠ d.stabilityPool :=
  d.contracts_ne (i := 10) (j := 2) (by decide)

theorem mpStaking_ne_gasPool (d : Deployment) : d.mpStaking ≠ d.gasPool :=
  d.contracts_ne (i := 10) (j := 6) (by decide)

theorem borrowerOperations_ne_defaultPool (d : Deployment) :
    d.borrowerOperations ≠ d.defaultPool := d.contracts_ne (i := 0) (j := 4) (by decide)

theorem borrowerOperations_ne_stabilityPool (d : Deployment) :
    d.borrowerOperations ≠ d.stabilityPool := d.contracts_ne (i := 0) (j := 2) (by decide)

theorem borrowerOperations_ne_collSurplusPool (d : Deployment) :
    d.borrowerOperations ≠ d.collSurplusPool := d.contracts_ne (i := 0) (j := 5) (by decide)

theorem gasPool_ne_stabilityPool (d : Deployment) : d.gasPool ≠ d.stabilityPool :=
  d.contracts_ne (i := 6) (j := 2) (by decide)

theorem External.ne {a b : Address} (h : d.External a) (hb : b ∈ d.contracts) : a ≠ b :=
  fun he => h.2 (he ▸ hb)

theorem activePool_mem (d : Deployment) : d.activePool ∈ d.contracts := by
  simp [Wiring.contracts]

theorem defaultPool_mem (d : Deployment) : d.defaultPool ∈ d.contracts := by
  simp [Wiring.contracts]

theorem collSurplusPool_mem (d : Deployment) : d.collSurplusPool ∈ d.contracts := by
  simp [Wiring.contracts]

theorem stabilityPool_mem (d : Deployment) : d.stabilityPool ∈ d.contracts := by
  simp [Wiring.contracts]

theorem gasPool_mem (d : Deployment) : d.gasPool ∈ d.contracts := by
  simp [Wiring.contracts]

theorem mpStaking_mem (d : Deployment) : d.mpStaking ∈ d.contracts := by
  simp [Wiring.contracts]

end Deployment

theorem transferRBTC_ok {a b : Address} {v : ℕ} :
    transferRBTC a b v s = .ok s' ↔ v ≤ s.rbtc a ∧ { s with rbtc := move a b v s.rbtc } = s' := by
  simp [transferRBTC]

/-- A plain call books the value in the pool it reaches, and nowhere else. -/
theorem receive_ok {caller recipient : Address} {v : ℕ}
    (h : receive d caller recipient v s = .ok s') :
    (recipient = d.activePool ∧ (caller = d.borrowerOperations ∨ caller = d.defaultPool) ∧
      s' = { s with activePool := { s.activePool with RBTC := s.activePool.RBTC + v } }) ∨
    (recipient = d.defaultPool ∧ caller = d.activePool ∧
      s' = { s with defaultPool := { s.defaultPool with RBTC := s.defaultPool.RBTC + v } }) ∨
    (recipient = d.collSurplusPool ∧ caller = d.activePool ∧
      s' = { s with collSurplusPool :=
        { s.collSurplusPool with RBTC := s.collSurplusPool.RBTC + v } }) ∨
    (recipient = d.stabilityPool ∧ caller = d.activePool ∧
      s' = { s with stabilityPool :=
        { s.stabilityPool with RBTC := s.stabilityPool.RBTC + v } }) ∨
    (recipient ≠ d.activePool ∧ recipient ≠ d.defaultPool ∧ recipient ≠ d.collSurplusPool ∧
      recipient ≠ d.stabilityPool ∧ s' = s) := by
  unfold receive at h
  split_ifs at h with hAP hDP hCSP hSP hstaking hcontract
  · simp [ActivePool.receive] at h
    exact .inl ⟨hAP, h.1, h.2.2.symm⟩
  · simp [DefaultPool.receive] at h
    exact .inr (.inl ⟨hDP, h.1, h.2.2.symm⟩)
  · simp [CollSurplusPool.receive] at h
    exact .inr (.inr (.inl ⟨hCSP, h.1, h.2.2.symm⟩))
  · simp [StabilityPool.receive] at h
    exact .inr (.inr (.inr (.inl ⟨hSP, h.1, h.2.2.symm⟩)))
  · simp [MPStaking.receive] at h
    exact .inr (.inr (.inr (.inr ⟨hAP, hDP, hCSP, hSP, h.2.symm⟩)))
  · cases h
    exact .inr (.inr (.inr (.inr ⟨hAP, hDP, hCSP, hSP, rfl⟩)))

theorem callWithValue_ok {caller recipient : Address} {v : ℕ} :
    callWithValue d caller recipient v s = .ok s' ↔ v ≤ s.rbtc caller ∧
      receive d caller recipient v { s with rbtc := move caller recipient v s.rbtc } =
        .ok s' := by
  simp [callWithValue, transferRBTC_ok]

/-- An outside account takes RBTC without running code of the protocol. -/
theorem callWithValue_external {caller recipient : Address} {v : ℕ}
    (hr : d.External recipient) (h : callWithValue d caller recipient v s = .ok s') :
    s' = { s with rbtc := move caller recipient v s.rbtc } := by
  obtain ⟨-, h⟩ := callWithValue_ok.mp h
  rcases receive_ok h with ⟨he, -⟩ | ⟨he, -⟩ | ⟨he, -⟩ | ⟨he, -⟩ | ⟨-, -, -, -, h⟩
  · exact absurd he (hr.ne d.activePool_mem)
  · exact absurd he (hr.ne d.defaultPool_mem)
  · exact absurd he (hr.ne d.collSurplusPool_mem)
  · exact absurd he (hr.ne d.stabilityPool_mem)
  · exact h

namespace BPDToken

theorem _transfer_ok {sender recipient : Address} {v : ℕ}
    (h : _transfer sender recipient v s = .ok s') :
    sender ≠ 0 ∧ recipient ≠ 0 ∧ v ≤ s.bpdToken.balances sender ∧
      s' = { s with bpdToken :=
        { s.bpdToken with balances := move sender recipient v s.bpdToken.balances } } := by
  simp [_transfer] at h
  obtain ⟨hsender, hrecipient, hle, -, rfl⟩ := h
  exact ⟨hsender, hrecipient, hle, rfl⟩

theorem mint_ok {account : Address} {v : ℕ} (h : mint account v s = .ok s') :
    account ≠ 0 ∧ s.bpdToken.totalSupply + v < 2 ^ 256 ∧
      s' = { s with bpdToken := { s.bpdToken with
        totalSupply := s.bpdToken.totalSupply + v
        balances := Function.update s.bpdToken.balances account
          (s.bpdToken.balances account + v) } } := by
  simp [mint] at h
  obtain ⟨haccount, hsupply, -, rfl⟩ := h
  exact ⟨haccount, hsupply, rfl⟩

theorem burn_ok {account : Address} {v : ℕ} (h : burn account v s = .ok s') :
    account ≠ 0 ∧ v ≤ s.bpdToken.balances account ∧ v ≤ s.bpdToken.totalSupply ∧
      s' = { s with bpdToken := { s.bpdToken with
        totalSupply := s.bpdToken.totalSupply - v
        balances := Function.update s.bpdToken.balances account
          (s.bpdToken.balances account - v) } } := by
  simp [burn] at h
  obtain ⟨haccount, hle, hsupply, rfl⟩ := h
  exact ⟨haccount, hle, hsupply, rfl⟩

theorem _approve_ok {owner spender : Address} {v : ℕ} (h : _approve owner spender v s = .ok s') :
    owner ≠ 0 ∧ spender ≠ 0 ∧ s' = { s with bpdToken := { s.bpdToken with
      allowances := Function.update s.bpdToken.allowances owner
        (Function.update (s.bpdToken.allowances owner) spender v) } } := by
  simp [_approve] at h
  obtain ⟨howner, hspender, rfl⟩ := h
  exact ⟨howner, hspender, rfl⟩

end BPDToken

namespace MPToken

theorem _transfer_move {sender recipient : Address} {v : ℕ}
    (h : _transfer sender recipient v s = .ok s') :
    v ≤ s.mpToken.balances sender ∧ s' = { s with mpToken :=
      { s.mpToken with balances := move sender recipient v s.mpToken.balances } } := by
  simp [_transfer] at h
  obtain ⟨-, -, hle, -, rfl⟩ := h
  exact ⟨hle, rfl⟩

theorem transfer_move {msgSender recipient : Address} {v : ℕ}
    (h : transfer d block msgSender recipient v s = .ok s') :
    v ≤ s.mpToken.balances msgSender ∧ s' = { s with mpToken :=
      { s.mpToken with balances := move msgSender recipient v s.mpToken.balances } } := by
  simp only [transfer, bind_ok] at h
  obtain ⟨_, -, _, -, h⟩ := h
  exact _transfer_move h

theorem sendToMPStaking_move {sender : Address} {v : ℕ}
    (h : sendToMPStaking d block sender v s = .ok s') :
    v ≤ s.mpToken.balances sender ∧ s' = { s with mpToken :=
      { s.mpToken with balances := move sender d.mpStaking v s.mpToken.balances } } := by
  simp only [sendToMPStaking, bind_ok] at h
  obtain ⟨_, -, _, -, h⟩ := h
  exact _transfer_move h

theorem _transfer_ok {sender recipient : Address} {v : ℕ}
    (h : _transfer sender recipient v s = .ok s') : ∃ t, s' = { s with mpToken := t } := by
  exact ⟨_, (_transfer_move h).2⟩

theorem transfer_ok {msgSender recipient : Address} {v : ℕ}
    (h : transfer d block msgSender recipient v s = .ok s') :
    ∃ t, s' = { s with mpToken := t } := by
  exact ⟨_, (transfer_move h).2⟩

theorem sendToMPStaking_ok {sender : Address} {v : ℕ}
    (h : sendToMPStaking d block sender v s = .ok s') : ∃ t, s' = { s with mpToken := t } := by
  exact ⟨_, (sendToMPStaking_move h).2⟩

end MPToken

theorem CommunityIssuance.issueMP_ok {issuance : ℕ}
    (h : CommunityIssuance.issueMP block s = .ok (issuance, s')) :
    ∃ c, s' = { s with communityIssuance := c } := by
  simp only [CommunityIssuance.issueMP, bind_ok, pure_ok, Prod.mk.injEq] at h
  obtain ⟨_, -, _, -, _, -, _, -, -, rfl⟩ := h
  exact ⟨_, rfl⟩

namespace MPStaking

theorem increaseF_RBTC_ok {fee : ℕ} (h : increaseF_RBTC fee s = .ok s') :
    ∃ m, s' = { s with mpStaking := m } := by
  simp only [increaseF_RBTC, bind_ok, pure_ok] at h
  obtain ⟨_, -, _, -, rfl⟩ := h
  exact ⟨_, rfl⟩

theorem increaseF_BPD_ok {fee : ℕ} (h : increaseF_BPD fee s = .ok s') :
    ∃ m, s' = { s with mpStaking := m } := by
  simp only [increaseF_BPD, bind_ok, pure_ok] at h
  obtain ⟨_, -, _, -, rfl⟩ := h
  exact ⟨_, rfl⟩

end MPStaking

theorem PriceFeed.fetchPrice_ok {price : ℕ} (h : PriceFeed.fetchPrice block s = .ok (price, s')) :
    ∃ p, s' = { s with priceFeed := p } := by
  have hfrom : ∀ feeds, PriceFeed.fetchPriceFrom block feeds s = .ok (price, s') →
      ∃ p, s' = { s with priceFeed := p } := by
    intro feeds
    induction feeds with
    | nil =>
      intro h
      simp [PriceFeed.fetchPriceFrom] at h
      exact ⟨s.priceFeed, h.2.symm⟩
    | cons i feeds ih =>
      intro h
      simp only [PriceFeed.fetchPriceFrom] at h
      split at h
      · simp at h
      · split_ifs at h
        · simp at h
          exact ⟨_, h.2.symm⟩
        · exact ih h
  exact hfrom _ h

namespace VaultManager

theorem updateLastFeeOpTime_ok (h : updateLastFeeOpTime block s = .ok s') :
    ∃ t, s' = { s with vaultManager := { s.vaultManager with lastFeeOperationTime := t } } := by
  simp only [updateLastFeeOpTime, bind_ok] at h
  obtain ⟨_, -, h⟩ := h
  split_ifs at h
  · exact ⟨_, (pure_ok.mp h).symm⟩
  · exact ⟨_, (pure_ok.mp h).symm⟩

/-- Both ways to move the base rate touch nothing else. -/
theorem decayBaseRateFromBorrowing_ok (h : decayBaseRateFromBorrowing block s = .ok s') :
    ∃ r t, s' = { s with vaultManager :=
      { s.vaultManager with baseRate := r, lastFeeOperationTime := t } } := by
  simp only [decayBaseRateFromBorrowing, bind_ok] at h
  obtain ⟨_, -, _, -, h⟩ := h
  obtain ⟨t, rfl⟩ := updateLastFeeOpTime_ok h
  exact ⟨_, t, rfl⟩

theorem updateBaseRateFromRedemption_ok {drawn price supply : ℕ}
    (h : updateBaseRateFromRedemption block drawn price supply s = .ok s') :
    ∃ r t, s' = { s with vaultManager :=
      { s.vaultManager with baseRate := r, lastFeeOperationTime := t } } := by
  simp only [updateBaseRateFromRedemption, bind_ok] at h
  obtain ⟨_, -, _, -, _, -, _, -, _, -, _, -, h⟩ := h
  obtain ⟨t, rfl⟩ := updateLastFeeOpTime_ok h
  exact ⟨_, t, rfl⟩

end VaultManager

namespace StabilityPool

theorem updateG_ok {issuance : ℕ} (h : updateG issuance s = .ok s') :
    ∃ e g, s' = { s with stabilityPool :=
      { s.stabilityPool with lastMPError := e, epochToScaleToG := g } } := by
  simp only [updateG] at h
  split_ifs at h
  · exact ⟨_, _, (pure_ok.mp h).symm⟩
  · simp only [computeMPPerUnitStaked, bind_ok, pure_ok, Prod.exists, Prod.mk.injEq] at h
    obtain ⟨_, _, ⟨_, -, _, -, _, -, _, -, _, -, rfl, rfl⟩, _, -, _, -, rfl⟩ := h
    exact ⟨_, _, rfl⟩

theorem triggerMPIssuance_ok (h : triggerMPIssuance block s = .ok s') :
    ∃ c e g, s' = { s with
      communityIssuance := c
      stabilityPool := { s.stabilityPool with lastMPError := e, epochToScaleToG := g } } := by
  simp only [triggerMPIssuance, bind_ok, Prod.exists] at h
  obtain ⟨_, _, hissue, h⟩ := h
  obtain ⟨c, rfl⟩ := CommunityIssuance.issueMP_ok hissue
  obtain ⟨e, g, rfl⟩ := updateG_ok h
  exact ⟨c, e, g, rfl⟩

theorem payOutMPGains_ok {depositor frontEnd : Address}
    (h : payOutMPGains d block depositor frontEnd s = .ok s') :
    ∃ t, s' = { s with mpToken := t } := by
  simp only [payOutMPGains, bind_ok, ite_pure_ok, CommunityIssuance.sendMP] at h
  obtain ⟨_, ⟨-, _, -, hfront⟩ | ⟨-, rfl⟩, _, -, h⟩ := h
  · obtain ⟨_, rfl⟩ := MPToken.transfer_ok hfront
    obtain ⟨t, rfl⟩ := MPToken.transfer_ok h
    exact ⟨t, rfl⟩
  · exact MPToken.transfer_ok h

/-- What the depositor functions write before they move any BPD: deposits, front-end stakes
and their snapshots. -/
def Bookkeeping (s s' : State) : Prop :=
  ∃ ds ss fs fss, s' = { s with stabilityPool := { s.stabilityPool with
    deposits := ds, depositSnapshots := ss, frontEndStakes := fs, frontEndSnapshots := fss } }

theorem tagDeposit_bookkeeping {a tag : Address} : Bookkeeping s (tagDeposit a tag s) := by
  unfold tagDeposit
  split_ifs
  · exact ⟨_, _, _, _, rfl⟩
  · exact ⟨_, _, _, _, rfl⟩

theorem updateDepositAndSnapshots_bookkeeping {a : Address} {v : ℕ} :
    Bookkeeping s (updateDepositAndSnapshots a v s) := by
  unfold updateDepositAndSnapshots
  split_ifs
  · exact ⟨_, _, _, _, rfl⟩
  · exact ⟨_, _, _, _, rfl⟩

theorem updateFrontEndStakeAndSnapshots_bookkeeping {a : Address} {v : ℕ} :
    Bookkeeping s (updateFrontEndStakeAndSnapshots a v s) := by
  unfold updateFrontEndStakeAndSnapshots
  split_ifs
  · exact ⟨_, _, _, _, rfl⟩
  · exact ⟨_, _, _, _, rfl⟩

end StabilityPool

end MoneyProtocol
