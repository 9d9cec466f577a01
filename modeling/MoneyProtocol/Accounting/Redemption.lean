import MoneyProtocol.Accounting.Liquidation

/-!
# Redemptions balance

Every vault redeemed from gives up a lot of debt and a lot of collateral; the totals of the
lots are what the settlement burns and pays out.
-/

namespace MoneyProtocol.VaultManager

open Outcome PointSum MoneypBase MoneypMath

variable {d : Deployment} {s s' : State} {block : Block} {a : Address} {price : ℕ}

/-- A vault redeemed to its reserve, up to where the reserve is burned. -/
def redeemFullyUntilReserve (borrower : Address) (s : State) : Outcome State := do
  let s ← removeStake borrower s
  closeVault borrower .closedByRedemption s

theorem redeemFully_eq {newColl : ℕ} : redeemFully d a newColl s = (do
    let s ← redeemFullyUntilReserve a s
    let s ← BPDToken.burn d.gasPool BPD_GAS_COMPENSATION s
    let s ← ActivePool.decreaseBPDDebt BPD_GAS_COMPENSATION s
    let s ← CollSurplusPool.accountSurplus a newColl s
    ActivePool.sendRBTC d d.collSurplusPool newColl s) := by
  simp [redeemFully, redeemFullyUntilReserve, redeemCloseVault]

theorem redeemFullyUntilReserve_ledger (h : redeemFullyUntilReserve a s = .ok s') :
    s'.ledger d = s.ledger d + entry .coll (s.vault a).coll + entry .debt (s.vault a).debt +
      entry .reserve BPD_GAS_COMPENSATION := by
  simp only [redeemFullyUntilReserve, bind_ok] at h
  obtain ⟨_, hstake, hclose⟩ := h
  obtain ⟨hcoll, hdebt⟩ := removeStake_record hstake
  rw [closeVault_ledger hclose, removeStake_ledger hstake, hcoll, hdebt]

theorem redeemFully_ledger {newColl : ℕ} (h : redeemFully d a newColl s = .ok s') :
    s'.ledger d = s.ledger d + entry .coll (s.vault a).coll - entry .coll newColl +
      entry .debt (s.vault a).debt - entry .debt BPD_GAS_COMPENSATION := by
  rw [redeemFully_eq] at h
  simp only [bind_ok] at h
  obtain ⟨_, huntil, _, hburn, _, hdebt, _, hsurplus, hsend⟩ := h
  rw [ActivePool.sendRBTC_ledger hsend, if_pos rfl, CollSurplusPool.accountSurplus_ledger hsurplus,
    ActivePool.decreaseBPDDebt_ledger hdebt, BPDToken.burn_ledger hburn,
    redeemFullyUntilReserve_ledger huntil, held_gasPool]
  abel

theorem redeemPartially_ledger {newColl newDebt newNICR : ℕ} {hints : RedemptionHints}
    (h : redeemPartially d a newColl newDebt newNICR hints s = .ok s') :
    s'.ledger d = s.ledger d + entry .coll (s.vault a).coll - entry .coll newColl +
      entry .debt (s.vault a).debt - entry .debt newDebt := by
  simp only [redeemPartially, bind_ok] at h
  obtain ⟨_, hinsert, h⟩ := h
  obtain ⟨_, -, rfl⟩ := BorrowerOperations.reInsertSorted_ok hinsert
  rw [updateStakeAndTotalStakes_ledger h, setVault_ledger, setSortedVaults_ledger, entry_sub,
    entry_sub]
  simp only [State.vault, setSortedVaults]
  abel

/-- The lots that a redemption takes from a vault. -/
theorem redeemCollateralFromVault_ok {maxAmount : ℕ} {hints : RedemptionHints}
    {v : SingleRedemptionValues}
    (h : redeemCollateralFromVault d a maxAmount price hints s = .ok (v, s')) :
    v.BPDLot = min maxAmount ((s.vault a).debt - BPD_GAS_COMPENSATION) ∧
      v.RBTCLot = v.BPDLot * DECIMAL_PRECISION / price ∧
      BPD_GAS_COMPENSATION ≤ (s.vault a).debt ∧
      v.BPDLot ≤ (s.vault a).debt ∧ v.RBTCLot ≤ (s.vault a).coll ∧
      ((v.cancelledPartial = true ∧ s' = s) ∨
        (v.cancelledPartial = false ∧ (s.vault a).debt - v.BPDLot = BPD_GAS_COMPENSATION ∧
          redeemFully d a ((s.vault a).coll - v.RBTCLot) s = .ok s') ∨
        (v.cancelledPartial = false ∧ (s.vault a).debt - v.BPDLot ≠ BPD_GAS_COMPENSATION ∧
          (s.vault a).debt - v.BPDLot ≥ MIN_NET_DEBT + BPD_GAS_COMPENSATION ∧
          computeNominalCR ((s.vault a).coll - v.RBTCLot) ((s.vault a).debt - v.BPDLot) =
            .ok hints.partialRedemptionHintNICR ∧
          redeemPartially d a ((s.vault a).coll - v.RBTCLot) ((s.vault a).debt - v.BPDLot)
            hints.partialRedemptionHintNICR hints s = .ok s')) := by
  simp only [redeemCollateralFromVault, bind_ok, SafeMath.sub_ok, SafeMath.mul_ok,
    SafeMath.div_ok] at h
  obtain ⟨_, ⟨hreserve, rfl⟩, _, ⟨-, rfl⟩, _, ⟨-, rfl⟩, _, ⟨hdebt, rfl⟩, _, ⟨hcoll, rfl⟩, h⟩ := h
  split_ifs at h with hfull
  · simp only [bind_ok, pure_ok, Prod.mk.injEq] at h
    obtain ⟨_, hredeem, rfl, rfl⟩ := h
    exact ⟨rfl, rfl, hreserve, hdebt, hcoll, .inr (.inl ⟨rfl, hfull, hredeem⟩)⟩
  · simp only [bind_ok, getNetDebt, SafeMath.sub_ok] at h
    obtain ⟨newNICR, hNICR, _, ⟨hnet, rfl⟩, h⟩ := h
    split_ifs at h with hcancel
    · simp only [pure_ok, Prod.mk.injEq] at h
      obtain ⟨rfl, rfl⟩ := h
      exact ⟨rfl, rfl, hreserve, hdebt, hcoll, .inl ⟨rfl, rfl⟩⟩
    · simp only [bind_ok, pure_ok, Prod.mk.injEq] at h
      simp only [not_or, not_not, not_lt] at hcancel
      obtain ⟨rfl, hmin⟩ := hcancel
      obtain ⟨_, hredeem, rfl, rfl⟩ := h
      refine ⟨rfl, rfl, hreserve, hdebt, hcoll, .inr (.inr ⟨rfl, hfull, ?_, hNICR, hredeem⟩)⟩
      simp only
      omega

/-- Why a partial redemption is cancelled. -/
theorem redeemCollateralFromVault_cancelled {maxAmount : ℕ} {hints : RedemptionHints}
    {v : SingleRedemptionValues}
    (h : redeemCollateralFromVault d a maxAmount price hints s = .ok (v, s'))
    (hcancel : v.cancelledPartial = true) :
    (s.vault a).debt - v.BPDLot ≠ BPD_GAS_COMPENSATION ∧
      (nominalCR ((s.vault a).coll - v.RBTCLot) ((s.vault a).debt - v.BPDLot) ≠
          hints.partialRedemptionHintNICR ∨
        (s.vault a).debt - v.BPDLot - BPD_GAS_COMPENSATION < MIN_NET_DEBT) := by
  simp only [redeemCollateralFromVault, bind_ok, SafeMath.sub_ok, SafeMath.mul_ok,
    SafeMath.div_ok] at h
  obtain ⟨_, ⟨-, rfl⟩, _, ⟨-, rfl⟩, _, ⟨-, rfl⟩, _, ⟨-, rfl⟩, _, ⟨-, rfl⟩, h⟩ := h
  split_ifs at h with hfull
  · simp only [bind_ok, pure_ok, Prod.mk.injEq] at h
    obtain ⟨_, -, rfl, -⟩ := h
    contradiction
  · simp only [bind_ok, getNetDebt, SafeMath.sub_ok] at h
    obtain ⟨newNICR, hNICR, _, ⟨-, rfl⟩, h⟩ := h
    split_ifs at h with hwrong
    · simp only [pure_ok, Prod.mk.injEq] at h
      obtain ⟨rfl, -⟩ := h
      rw [← computeNominalCR_ok hNICR] at hwrong
      exact ⟨hfull, hwrong⟩
    · simp only [bind_ok, pure_ok, Prod.mk.injEq] at h
      obtain ⟨_, -, rfl, -⟩ := h
      contradiction

theorem redeemCollateralFromVault_ledger {maxAmount : ℕ} {hints : RedemptionHints}
    {v : SingleRedemptionValues}
    (h : redeemCollateralFromVault d a maxAmount price hints s = .ok (v, s'))
    (hv : v.cancelledPartial = false) :
    s'.ledger d = s.ledger d + entry .coll v.RBTCLot + entry .debt v.BPDLot := by
  obtain ⟨-, -, -, hdebt, hcoll, ⟨hcancel, -⟩ | ⟨-, hfull, hredeem⟩ | ⟨-, -, -, -, hredeem⟩⟩ :=
    redeemCollateralFromVault_ok h
  · rw [hv] at hcancel
    contradiction
  · rw [redeemFully_ledger hredeem, ← hfull, Nat.cast_sub hcoll, Nat.cast_sub hdebt, entry_sub,
      entry_sub]
    abel
  · rw [redeemPartially_ledger hredeem, Nat.cast_sub hcoll, Nat.cast_sub hdebt, entry_sub,
      entry_sub]
    abel

theorem addRedemptionToTotals_ok {t t' : RedemptionTotals} {v : SingleRedemptionValues}
    (h : addRedemptionToTotals t v = .ok t') :
    t' = ⟨t.remainingBPD - v.BPDLot, t.totalBPDToRedeem + v.BPDLot,
      t.totalRBTCDrawn + v.RBTCLot⟩ := by
  simp [addRedemptionToTotals] at h
  exact h.2.2.2.symm

def RedemptionTotals.entries (t : RedemptionTotals) : Account → ℤ :=
  entry .coll t.totalRBTCDrawn + entry .debt t.totalBPDToRedeem

theorem redeemLoop_ledger {hints : RedemptionHints} {n : ℕ} {t t' : RedemptionTotals}
    (h : redeemLoop d price hints n a t s = .ok (t', s')) :
    s'.ledger d = s.ledger d + t'.entries - t.entries := by
  induction n generalizing a t s with
  | zero =>
    simp only [redeemLoop, pure_ok, Prod.mk.injEq] at h
    obtain ⟨rfl, rfl⟩ := h
    abel
  | succ n ih =>
    simp only [redeemLoop] at h
    split_ifs at h
    · simp only [bind_ok, Prod.exists] at h
      obtain ⟨s₁, hpending, v, s₂, hv, h⟩ := h
      split_ifs at h with hcancel
      · -- a cancelled partial redemption ends the loop
        simp only [pure_ok, Prod.mk.injEq] at h
        obtain ⟨rfl, rfl⟩ := h
        obtain ⟨-, -, -, -, -, ⟨-, rfl⟩ | ⟨hfalse, -⟩ | ⟨hfalse, -⟩⟩ :=
          redeemCollateralFromVault_ok hv
        · rw [applyPendingRewards_ledger hpending]
          abel
        · rw [hcancel] at hfalse
          contradiction
        · rw [hcancel] at hfalse
          contradiction
      · simp only [bind_ok] at h
        obtain ⟨t₁, ht₁, h⟩ := h
        rw [ih h, redeemCollateralFromVault_ledger hv (by simpa using hcancel),
          applyPendingRewards_ledger hpending, addRedemptionToTotals_ok ht₁]
        simp only [RedemptionTotals.entries, Nat.cast_add, entry_add]
        abel
    · simp only [pure_ok, Prod.mk.injEq] at h
      obtain ⟨rfl, rfl⟩ := h
      abel

theorem settleRedemption_ledger {sender : Address} {maxFee supply : ℕ} {t : RedemptionTotals}
    (hsender : d.External sender)
    (h : settleRedemption d block sender price maxFee supply t s = .ok s') :
    s'.ledger d = s.ledger d - t.entries := by
  simp only [settleRedemption, bind_ok, SafeMath.sub_ok] at h
  obtain ⟨_, -, _, hrate, fee, -, _, -, _, hfee, _, hshare, _, ⟨hle, rfl⟩, _, hburn, _, hdebt,
    hsend⟩ := h
  obtain ⟨_, _, rfl⟩ := updateBaseRateFromRedemption_ok hrate
  obtain ⟨_, rfl⟩ := MPStaking.increaseF_RBTC_ok hshare
  rw [ActivePool.sendRBTC_ledger_of_ne (hsender.ne d.collSurplusPool_mem) hsend,
    ActivePool.decreaseBPDDebt_ledger hdebt, BPDToken.burn_ledger hburn, held_external hsender,
    Nat.cast_sub hle, entry_sub]
  have hstaking {t : State} {m : MPStaking} :
      State.ledger d { t with mpStaking := m } = t.ledger d := rfl
  have hbase {r f : ℕ} : State.ledger d { s with vaultManager :=
      { s.vaultManager with baseRate := r, lastFeeOperationTime := f } } = s.ledger d := rfl
  rw [hstaking, ActivePool.sendRBTC_ledger_of_ne d.mpStaking_ne_collSurplusPool hfee, hbase,
    RedemptionTotals.entries]
  abel

theorem redeemCollateral_ledger {sender : Address} {amount maxIterations maxFee : ℕ}
    {hints : RedemptionHints} (hsender : d.External sender)
    (h : redeemCollateral d block sender amount hints maxIterations maxFee s = .ok s') :
    s'.ledger d = s.ledger d := by
  simp only [redeemCollateral, bind_ok, Prod.exists] at h
  obtain ⟨_, -, _, -, _, _, hprice, _, -, _, -, _, -, _, -, _, -, _, -, t, _, hloop, hsettle⟩ := h
  rw [settleRedemption_ledger hsender hsettle, redeemLoop_ledger hloop,
    PriceFeed.fetchPrice_ledger hprice]
  simp [RedemptionTotals.entries]

end MoneyProtocol.VaultManager
