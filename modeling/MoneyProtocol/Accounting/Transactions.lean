import MoneyProtocol.Accounting.Redemption

/-!
# Every transaction balances

A transaction leaves the ledger as it was, but for BPD that somebody sends to the Gas Pool.
So along every run from deployment the counters agree with the records.
-/

namespace MoneyProtocol

open Outcome PointSum MoneypBase VaultManager

variable {d : Deployment} {s s' : State} {t : Transaction}

theorem payable_ledger {f : State → Outcome State} (hsender : d.External t.sender)
    (hf : ∀ s₁, f s₁ = .ok s' → s'.ledger d = s₁.ledger d) (h : payable d t f s = .ok s') :
    s'.ledger d = s.ledger d := by
  simp only [payable, bind_ok] at h
  obtain ⟨_, hsend, h⟩ := h
  rw [hf _ h, transferRBTC_ledger (hsender.ne d.activePool_mem) d.borrowerOperations_ne_activePool
    hsend, backed_borrowerOperations, backed_external hsender, add_zero, sub_zero]

theorem nonPayable_ok {f : State → Outcome State} (h : nonPayable t f s = .ok s') :
    f s = .ok s' := by
  simp only [nonPayable, bind_ok] at h
  obtain ⟨_, -, h⟩ := h
  exact h

/-- The ledger after a transaction. -/
theorem transact_ledger (hsigned : t.Signed d) (hallowance : s.ledger d .allowance = 0)
    (h : transact d t s = .ok s') : ∃ gift : ℕ, s'.ledger d = s.ledger d + entry .reserve gift := by
  obtain ⟨hsender, hop⟩ := hsigned
  have hnone {s' : State} (h : s'.ledger d = s.ledger d) :
      ∃ gift : ℕ, s'.ledger d = s.ledger d + entry .reserve gift :=
    ⟨0, by simp [h]⟩
  have hgift {recipient : Address} {v : ℕ} {s' : State} (h : s'.ledger d = s.ledger d +
      if recipient = d.gasPool then entry .reserve v else 0) :
      ∃ gift : ℕ, s'.ledger d = s.ledger d + entry .reserve gift := by
    split_ifs at h
    · exact ⟨v, h⟩
    · exact ⟨0, by simpa using h⟩
  obtain ⟨block, sender, value, operation⟩ := t
  cases operation with
  | openVault =>
    exact hnone (payable_ledger hsender
      (fun _ => BorrowerOperations.openVault_ledger hsender) h)
  | addColl =>
    exact hnone (payable_ledger hsender
      (fun _ => BorrowerOperations.adjustVaultInternal_ledger (.inl hsender)) h)
  | adjustVault =>
    exact hnone (payable_ledger hsender
      (fun _ => BorrowerOperations.adjustVaultInternal_ledger (.inl hsender)) h)
  | withdrawColl =>
    exact hnone (BorrowerOperations.adjustVaultInternal_ledger (.inl hsender) (nonPayable_ok h))
  | withdrawBPD =>
    exact hnone (BorrowerOperations.adjustVaultInternal_ledger (.inl hsender) (nonPayable_ok h))
  | repayBPD =>
    exact hnone (BorrowerOperations.adjustVaultInternal_ledger (.inl hsender) (nonPayable_ok h))
  | closeVault => exact hnone (BorrowerOperations.closeVault_ledger hsender (nonPayable_ok h))
  | claimCollateral =>
    exact hnone (BorrowerOperations.claimCollateral_ledger hsender (nonPayable_ok h))
  | liquidate => exact hnone (liquidate_ledger hsender (nonPayable_ok h))
  | liquidateVaults => exact hnone (liquidateVaults_ledger hsender (nonPayable_ok h))
  | batchLiquidateVaults => exact hnone (batchLiquidateVaults_ledger hsender (nonPayable_ok h))
  | redeemCollateral => exact hnone (redeemCollateral_ledger hsender (nonPayable_ok h))
  | provideToSP => exact hnone (StabilityPool.provideToSP_ledger hsender (nonPayable_ok h))
  | withdrawFromSP => exact hnone (StabilityPool.withdrawFromSP_ledger hsender (nonPayable_ok h))
  | withdrawRBTCGainToVault =>
    exact hnone (StabilityPool.withdrawRBTCGainToVault_ledger (nonPayable_ok h))
  | registerFrontEnd =>
    have h := nonPayable_ok h
    simp only [StabilityPool.registerFrontEnd, bind_ok, pure_ok] at h
    obtain ⟨_, -, _, -, _, -, rfl⟩ := h
    exact hnone rfl
  | transfer =>
    exact hgift (BPDToken.transfer_ledger (held_external hsender) (nonPayable_ok h))
  | approve =>
    exact hnone (BPDToken._approve_ledger (hsender.ne d.gasPool_mem)
      (hsender.ne d.stabilityPool_mem) (nonPayable_ok h))
  | transferFrom =>
    exact hgift (BPDToken.transferFrom_ledger (BPDToken.locked_of_ledger hallowance)
      (nonPayable_ok h))
  | increaseAllowance =>
    have h := nonPayable_ok h
    simp only [BPDToken.increaseAllowance, bind_ok] at h
    obtain ⟨_, -, h⟩ := h
    exact hnone (BPDToken._approve_ledger (hsender.ne d.gasPool_mem)
      (hsender.ne d.stabilityPool_mem) h)
  | decreaseAllowance =>
    have h := nonPayable_ok h
    simp only [BPDToken.decreaseAllowance, bind_ok] at h
    obtain ⟨_, -, h⟩ := h
    exact hnone (BPDToken._approve_ledger (hsender.ne d.gasPool_mem)
      (hsender.ne d.stabilityPool_mem) h)
  | permit => exact hnone (BPDToken.permit_ledger hop (nonPayable_ok h))
  | stake => exact hnone (MPStaking.stake_ledger hsender (nonPayable_ok h))
  | unstake => exact hnone (MPStaking.unstake_ledger hsender (nonPayable_ok h))
  | fetchPrice =>
    simp only [transact] at h
    obtain ⟨⟨_, _⟩, hprice, rfl⟩ := map_ok.mp (nonPayable_ok h)
    exact hnone (PriceFeed.fetchPrice_ledger hprice)
  | sendRBTC recipient =>
    -- the Active Pool takes no RBTC from an outside account
    have hne : recipient ≠ d.activePool := by
      rintro rfl
      rcases receive_ok (callWithValue_ok.mp h).2 with ⟨-, hc | hc, -⟩ | ⟨hr, -⟩ | ⟨hr, -⟩ |
        ⟨hr, -⟩ | ⟨hr, -⟩
      · exact absurd hc (hsender.ne (by simp [Wiring.contracts]))
      · exact absurd hc (hsender.ne d.defaultPool_mem)
      · exact absurd hr.symm d.defaultPool_ne_activePool
      · exact absurd hr.symm d.collSurplusPool_ne_activePool
      · exact absurd hr.symm d.stabilityPool_ne_activePool
      · exact absurd rfl hr
    exact hnone (by
      rw [callWithValue_ledger (hsender.ne d.activePool_mem) h, if_neg hne, add_zero,
        backed_external hsender, sub_zero])

/-- The ledger of a state that a run reaches: every account is even, but for a surplus of
the reserve and the RBTC that was there from the start. -/
structure Balanced (d : Deployment) (s : State) : Prop where
  coll : s.ledger d .coll = 0
  debt : s.ledger d .debt = 0
  supply : s.ledger d .supply = 0
  token : s.ledger d .token = 0
  reserve : 0 ≤ s.ledger d .reserve
  deposit : s.ledger d .deposit = 0
  surplus : s.ledger d .surplus = 0
  backing : 0 ≤ s.ledger d .backing
  pooled : 0 ≤ s.ledger d .pooled
  gain : 0 ≤ s.ledger d .gain
  unclaimed : 0 ≤ s.ledger d .unclaimed
  native : s.ledger d .native < 2 ^ 128
  allowance : s.ledger d .allowance = 0

theorem Genesis.balanced (g : Genesis) : Balanced d g.state := by
  have hnative : total id g.rbtc < 2 ^ 128 := by
    unfold total
    exact g.rbtc_lt
  constructor
  all_goals simp [State.ledger, Genesis.state]
  exact_mod_cast hnative

theorem Balanced.step (hs : Balanced d s) (h : Step d s s') : Balanced d s' := by
  obtain ⟨t, hsigned, h⟩ := h
  obtain ⟨gift, hgift⟩ := transact_ledger hsigned hs.allowance h
  have hreserve := hs.reserve
  have hnative := hs.native
  constructor
  all_goals rw [hgift]
  all_goals simp [hs.coll, hs.debt, hs.supply, hs.token, hs.deposit, hs.surplus, hs.backing,
    hs.pooled, hs.gain, hs.unclaimed, hs.allowance]
  · omega
  · simpa using hnative

/-- The ledger balances in every reachable state. -/
theorem Reachable.balanced (h : Reachable d s) : Balanced d s := by
  obtain ⟨g, h⟩ := h
  induction h with
  | refl => exact g.balanced
  | tail _ hstep ih => exact ih.step hstep

end MoneyProtocol
