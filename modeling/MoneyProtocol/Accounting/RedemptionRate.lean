import MoneyProtocol.Accounting.Redemption
import MoneyProtocol.Accounting.Standing

/-!
# The rate of a redemption

Nothing in a redemption but its settlement moves the base rate. The collateral drawn is worth at
most the BPD offered for it, so the amount bounds what the settlement adds to the base rate, and
the fee is never above the rate.
-/

namespace MoneyProtocol

open Outcome MoneypBase

variable {d : Deployment} {s s' : State} {block : Block} {a : Address} {v w price : ℕ}

theorem ActivePool.decreaseBPDDebt_lastFee (h : ActivePool.decreaseBPDDebt v s = .ok s') :
    s'.lastFee = s.lastFee := by
  simp only [ActivePool.decreaseBPDDebt, bind_ok, pure_ok] at h
  obtain ⟨_, -, rfl⟩ := h
  rfl

namespace VaultManager

variable {hints : RedemptionHints}

theorem redeemFully_lastFee (h : redeemFully d a v s = .ok s') : s'.lastFee = s.lastFee := by
  simp only [redeemFully, redeemCloseVault, CollSurplusPool.accountSurplus, bind_ok, pure_ok] at h
  obtain ⟨_, hstake, _, hclose, _, hburn, _, hdebt, _, ⟨_, -, rfl⟩, hsend⟩ := h
  rw [lastFee_of_standing (ActivePool.sendRBTC_standing hsend)]
  calc _ = _ := ActivePool.decreaseBPDDebt_lastFee hdebt
    _ = _ := lastFee_of_standing (BPDToken.burn_standing hburn)
    _ = _ := lastFee_of_standing (closeVault_standing hclose)
    _ = s.lastFee := lastFee_of_standing (removeStake_standing hstake)

theorem redeemPartially_lastFee {newNICR : ℕ}
    (h : redeemPartially d a v w newNICR hints s = .ok s') : s'.lastFee = s.lastFee := by
  simp only [redeemPartially, bind_ok] at h
  obtain ⟨_, hinsert, h⟩ := h
  obtain ⟨_, -, rfl⟩ := BorrowerOperations.reInsertSorted_ok hinsert
  exact (lastFee_of_standing (updateStakeAndTotalStakes_standing h)).trans rfl

theorem redeemCollateralFromVault_lastFee {maxAmount : ℕ} {r : SingleRedemptionValues}
    (h : redeemCollateralFromVault d a maxAmount price hints s = .ok (r, s')) :
    s'.lastFee = s.lastFee := by
  obtain ⟨-, -, -, -, -, ⟨-, rfl⟩ | ⟨-, -, hredeem⟩ | ⟨-, -, -, -, hredeem⟩⟩ :=
    redeemCollateralFromVault_ok h
  · rfl
  · exact redeemFully_lastFee hredeem
  · exact redeemPartially_lastFee hredeem

/-- What a redemption has drawn at face value, and what it may still draw. -/
def RedemptionTotals.worth (t : RedemptionTotals) (price : ℕ) : ℕ :=
  t.totalRBTCDrawn * price + t.remainingBPD * DECIMAL_PRECISION

/-- The lot of collateral is worth at most the lot of debt. -/
theorem addRedemptionToTotals_worth {r : SingleRedemptionValues} {t t' : RedemptionTotals}
    (hlot : redeemCollateralFromVault d a t.remainingBPD price hints s = .ok (r, s'))
    (h : addRedemptionToTotals t r = .ok t') : t'.worth price ≤ t.worth price := by
  obtain ⟨hBPD, hRBTC, -⟩ := redeemCollateralFromVault_ok hlot
  have hle : r.BPDLot ≤ t.remainingBPD := by
    rw [hBPD]
    exact min_le_left _ _
  have hworth : r.RBTCLot * price ≤ r.BPDLot * DECIMAL_PRECISION := by
    rw [hRBTC]
    exact Nat.div_mul_le_self _ _
  rw [addRedemptionToTotals_ok h]
  calc (t.totalRBTCDrawn + r.RBTCLot) * price +
        (t.remainingBPD - r.BPDLot) * DECIMAL_PRECISION
      = t.totalRBTCDrawn * price + (r.RBTCLot * price +
        (t.remainingBPD - r.BPDLot) * DECIMAL_PRECISION) := by ring
    _ ≤ t.totalRBTCDrawn * price + (r.BPDLot * DECIMAL_PRECISION +
        (t.remainingBPD - r.BPDLot) * DECIMAL_PRECISION) := by gcongr
    _ = t.worth price := by
      rw [← Nat.add_mul, Nat.add_sub_cancel' hle]
      rfl

theorem redeemLoop_within {n : ℕ} {t t' : RedemptionTotals}
    (h : redeemLoop d price hints n a t s = .ok (t', s')) :
    t'.worth price ≤ t.worth price ∧ s'.lastFee = s.lastFee := by
  induction n generalizing a t s with
  | zero =>
    simp only [redeemLoop, pure_ok, Prod.mk.injEq] at h
    obtain ⟨rfl, rfl⟩ := h
    exact ⟨le_rfl, rfl⟩
  | succ n ih =>
    simp only [redeemLoop] at h
    split_ifs at h
    · simp only [bind_ok, Prod.exists] at h
      obtain ⟨s₁, hpending, r, s₂, hr, h⟩ := h
      have hclock : s₂.lastFee = s.lastFee := by
        rw [redeemCollateralFromVault_lastFee hr,
          lastFee_of_standing (applyPendingRewards_standing hpending)]
      split_ifs at h
      · simp only [pure_ok, Prod.mk.injEq] at h
        obtain ⟨rfl, rfl⟩ := h
        exact ⟨le_rfl, hclock⟩
      · simp only [bind_ok] at h
        obtain ⟨t₁, ht₁, h⟩ := h
        obtain ⟨hworth, hrest⟩ := ih h
        exact ⟨hworth.trans (addRedemptionToTotals_worth hr ht₁), hrest.trans hclock⟩
    · simp only [pure_ok, Prod.mk.injEq] at h
      obtain ⟨rfl, rfl⟩ := h
      exact ⟨le_rfl, rfl⟩

/-- The base rate after a redemption of collateral of this worth. -/
def redeemedBaseRate (timestamp worth supply : ℕ) (s : State) : ℕ :=
  min (s.vaultManager.baseRate *
      decayFactor ((timestamp - s.vaultManager.lastFeeOperationTime) / 60) / DECIMAL_PRECISION +
    worth / supply / BETA) DECIMAL_PRECISION

theorem updateBaseRateFromRedemption_rate {drawn supply : ℕ}
    (h : updateBaseRateFromRedemption block drawn price supply s = .ok s') :
    0 < supply ∧
      s'.vaultManager.baseRate = redeemedBaseRate block.timestamp (drawn * price) supply s := by
  simp only [updateBaseRateFromRedemption, bind_ok, SafeMath.mul_ok, SafeMath.div_ok,
    SafeMath.add_ok] at h
  obtain ⟨_, hdecayed, _, ⟨-, rfl⟩, _, ⟨hsupply, rfl⟩, _, ⟨-, rfl⟩, _, ⟨-, rfl⟩, _, -, h⟩ := h
  obtain ⟨-, rfl⟩ := calcDecayedBaseRate_ok hdecayed
  obtain rfl := updateLastFeeOpTime_eq h
  exact ⟨hsupply, rfl⟩

theorem calcRedemptionRate_ok {rate base : ℕ} (h : calcRedemptionRate base = .ok rate) :
    rate = min (REDEMPTION_FEE_FLOOR + base) DECIMAL_PRECISION := by
  simp only [calcRedemptionRate, bind_ok, pure_ok, SafeMath.add_ok] at h
  obtain ⟨_, ⟨-, rfl⟩, rfl⟩ := h
  rfl

/-- The fee is never a larger share of what is drawn than its rate. -/
theorem feePercentage_le {rate drawn : ℕ} :
    rate * drawn / DECIMAL_PRECISION * DECIMAL_PRECISION / drawn ≤ rate := by
  apply Nat.div_le_of_le_mul
  rw [Nat.mul_comm drawn rate]
  exact Nat.div_mul_le_self _ _

/-- The rate that a settled redemption was charged. -/
structure Charged (block : Block) (price supply : ℕ) (t : RedemptionTotals) (s s' : State)
    (rate : ℕ) : Prop where
  supply_pos : 0 < supply
  rate_ok : getRedemptionRate s' = .ok rate
  rate_eq : rate = min (REDEMPTION_FEE_FLOOR +
    redeemedBaseRate block.timestamp (t.totalRBTCDrawn * price) supply s) DECIMAL_PRECISION

/-- The settlement moves the base rate once. -/
theorem settleRedemption_lastFee {sender : Address} {maxFee supply : ℕ} {t : RedemptionTotals}
    (h : settleRedemption d block sender price maxFee supply t s = .ok s') : ∃ s₁,
      updateBaseRateFromRedemption block t.totalRBTCDrawn price supply s = .ok s₁ ∧
        s'.lastFee = s₁.lastFee := by
  simp only [settleRedemption, bind_ok] at h
  obtain ⟨_, -, s₁, hupdate, _, -, _, -, s₂, hsend, s₃, hshare, _, -, s₄, hburn, s₅, hdebt,
    hpay⟩ := h
  refine ⟨s₁, hupdate, ?_⟩
  obtain ⟨_, rfl⟩ := MPStaking.increaseF_RBTC_ok hshare
  have hstaking : s₂.lastFee = s₁.lastFee :=
    lastFee_of_standing (ActivePool.sendRBTC_standing hsend)
  rw [lastFee_of_standing (ActivePool.sendRBTC_standing hpay),
    ActivePool.decreaseBPDDebt_lastFee hdebt, lastFee_of_standing (BPDToken.burn_standing hburn)]
  exact hstaking

/-- A redemption that was settled is settled just the same with any maximum from its rate on. -/
theorem settleRedemption_charged {sender : Address} {maxFee supply : ℕ} {t : RedemptionTotals}
    (h : settleRedemption d block sender price maxFee supply t s = .ok s') :
    ∃ rate, Charged block price supply t s s' rate ∧ ∀ newMaxFee, rate ≤ newMaxFee →
      settleRedemption d block sender price newMaxFee supply t s = .ok s' := by
  have hmoved := settleRedemption_lastFee h
  simp only [settleRedemption, bind_ok] at h
  obtain ⟨_, hdrawn, s₁, hupdate, fee, hfee, _, haccept, s₂, hsend, s₃, hshare, left, hleft, s₄,
    hburn, s₅, hdebt, hpay⟩ := h
  obtain ⟨hsupply, hbase⟩ := updateBaseRateFromRedemption_rate hupdate
  have hkept : s'.vaultManager.baseRate = s₁.vaultManager.baseRate := by
    obtain ⟨t₁, ht₁, hclock⟩ := hmoved
    rw [hupdate] at ht₁
    obtain rfl := Except.ok.inj ht₁
    exact congrArg Prod.fst hclock
  have hfee' := hfee
  simp only [getRedemptionFee, calcRedemptionFee, bind_ok, pure_ok, SafeMath.mul_ok,
    SafeMath.div_ok] at hfee'
  obtain ⟨rate, hrate, _, ⟨-, rfl⟩, _, ⟨-, rfl⟩, _, -, rfl⟩ := hfee'
  refine ⟨rate, ⟨hsupply, ?_, ?_⟩, ?_⟩
  · rw [getRedemptionRate, hkept]
    exact hrate
  · rw [calcRedemptionRate_ok hrate, hbase]
  · intro newMaxFee hle
    simp only [requireUserAcceptsFee, bind_ok, SafeMath.mul_ok, SafeMath.div_ok] at haccept
    obtain ⟨_, ⟨hfits, rfl⟩, _, ⟨hpos, rfl⟩, -⟩ := haccept
    simp only [settleRedemption, requireUserAcceptsFee, bind_ok, SafeMath.mul_ok, SafeMath.div_ok,
      require_ok]
    exact ⟨(), require_ok.mp hdrawn, s₁, hupdate, _, hfee, (),
      ⟨_, ⟨hfits, rfl⟩, _, ⟨hpos, rfl⟩, feePercentage_le.trans hle⟩, s₂, hsend, s₃, hshare, left,
      hleft, s₄, hburn, s₅, hdebt, hpay⟩

/-- The rate of a redemption, and the maximum fees it is accepted with. -/
theorem redeemCollateral_charged {sender : Address} {amount maxIterations maxFee : ℕ}
    (h : redeemCollateral d block sender amount hints maxIterations maxFee s = .ok s') :
    ∃ rate worth supply, getEntireSystemDebt s = .ok supply ∧ 0 < supply ∧
      worth ≤ amount * DECIMAL_PRECISION ∧ getRedemptionRate s' = .ok rate ∧
      rate = min (REDEMPTION_FEE_FLOOR + redeemedBaseRate block.timestamp worth supply s)
        DECIMAL_PRECISION ∧
      ∀ newMaxFee, rate ≤ newMaxFee → newMaxFee ≤ DECIMAL_PRECISION →
        redeemCollateral d block sender amount hints maxIterations newMaxFee s = .ok s' := by
  simp only [redeemCollateral, bind_ok, Prod.exists] at h
  obtain ⟨_, -, _, hbootstrap, price, s₁, hprice, _, hTCR, _, hpositive, _, hbalance, supply,
    hsupply, _, hassert, first, hfirst, t, s₂, hloop, hsettle⟩ := h
  obtain ⟨hworth, hclock⟩ := redeemLoop_within hloop
  obtain ⟨rate, hcharged, hany⟩ := settleRedemption_charged hsettle
  have hfetched := lastFee_of_standing (PriceFeed.fetchPrice_standing hprice)
  have hsame : redeemedBaseRate block.timestamp (t.totalRBTCDrawn * price) supply s₂ =
      redeemedBaseRate block.timestamp (t.totalRBTCDrawn * price) supply s := by
    have hlast := hclock.trans hfetched
    rw [redeemedBaseRate, redeemedBaseRate, show s₂.vaultManager.baseRate = _ from
      congrArg Prod.fst hlast, show s₂.vaultManager.lastFeeOperationTime = _ from
      congrArg Prod.snd hlast]
    rfl
  refine ⟨rate, t.totalRBTCDrawn * price, supply, ?_, hcharged.supply_pos, ?_, hcharged.rate_ok,
    ?_, ?_⟩
  · obtain ⟨_, rfl⟩ := PriceFeed.fetchPrice_ok hprice
    exact hsupply
  · calc t.totalRBTCDrawn * price ≤ t.worth price := Nat.le_add_right _ _
      _ ≤ 0 * price + amount * DECIMAL_PRECISION := hworth
      _ = amount * DECIMAL_PRECISION := by rw [Nat.zero_mul, Nat.zero_add]
  · rw [hcharged.rate_eq, hsame]
  · intro newMaxFee hle hcap
    have hfloor : REDEMPTION_FEE_FLOOR ≤ rate := by
      rw [hcharged.rate_eq]
      exact le_min (Nat.le_add_right _ _) (by decide)
    have hvalid : requireValidMaxFeePercentage newMaxFee = .ok () :=
      require_ok.mpr ⟨hfloor.trans hle, hcap⟩
    simp only [redeemCollateral, bind_ok, Prod.exists]
    exact ⟨(), hvalid, (), hbootstrap, price, s₁, hprice, (), hTCR, (), hpositive, (), hbalance,
      supply, hsupply, (), hassert, first, hfirst, t, s₂, hloop, hany newMaxFee hle⟩

end VaultManager

end MoneyProtocol
