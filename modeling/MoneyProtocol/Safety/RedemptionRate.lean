import MoneyProtocol.Accounting.RedemptionRate
import MoneyProtocol.Redemption.Lots
import MoneyProtocol.Safety.RedemptionHints

/-!
# The base rate after a redemption

A redemption adds half of the share of the supply that it redeems to the decayed base rate, in
whole units of `1e-18`. Where nothing is left of the rate and the redemption is too small for one
unit, the new rate is zero, and the assertion against it stops the redemption.
-/

namespace MoneyProtocol.VaultManager

open Outcome MoneypMath MoneypBase Book

variable {d : Deployment} {s s' : State} {block : Block} {sender : Address}
  {hints : RedemptionHints} {amount maxIterations maxFee rate drawn supply price : ℕ} {r : Redeemed}

/-- The update of the base rate where its products fit. -/
theorem updateBaseRateFromRedemption_iff (hrate : calcDecayedBaseRate block s = .ok rate)
    (hworth : drawn * price < 2 ^ 256) (hsupply : 0 < supply) :
    (∃ s', updateBaseRateFromRedemption block drawn price supply s = .ok s' ∧
      s'.vaultManager.baseRate ≤ 10 ^ 18) ↔ 0 < rate ∨ 2 * supply ≤ drawn * price := by
  have hshare : 0 < drawn * price / supply / BETA ↔ 2 * supply ≤ drawn * price := by
    rw [Nat.div_div_eq_div_mul, Nat.div_pos_iff, Nat.mul_comm supply]
    constructor
    · exact fun h => h.2
    · exact fun h => ⟨Nat.mul_pos two_pos hsupply, h⟩
  have hpositive : min (rate + drawn * price / supply / BETA) DECIMAL_PRECISION > 0 ↔
      0 < rate ∨ 2 * supply ≤ drawn * price := by
    rw [gt_iff_lt, lt_min_iff, ← hshare, Nat.add_pos_iff_pos_or_pos]
    exact and_iff_left DECIMAL_PRECISION_pos
  have hdecayed := hrate
  simp only [calcDecayedBaseRate, minutesPassedSinceLastFeeOp, bind_ok, SafeMath.sub_ok,
    SafeMath.mul_ok, SafeMath.div_ok] at hdecayed
  obtain ⟨_, ⟨_, ⟨hclock, rfl⟩, -, -⟩, _, -, scaled, ⟨hscaled, hproduct⟩, -, rfl⟩ := hdecayed
  have hfits : scaled / DECIMAL_PRECISION + drawn * price / supply / BETA < 2 ^ 256 := by
    have hsmall : scaled / DECIMAL_PRECISION ≤ scaled / 2 :=
      Nat.div_le_div_left (by decide) (by decide)
    have hless : drawn * price / supply ≤ drawn * price := Nat.div_le_self _ _
    have hbeta : BETA = 2 := rfl
    rw [hbeta]
    omega
  rw [← hpositive]
  constructor
  · rintro ⟨s', h, -⟩
    simp only [updateBaseRateFromRedemption, hrate, bind_ok, Except.ok.injEq, SafeMath.mul_ok,
      SafeMath.div_ok, SafeMath.add_ok, assert_ok] at h
    obtain ⟨_, rfl, _, ⟨-, rfl⟩, _, ⟨-, rfl⟩, _, ⟨-, rfl⟩, _, ⟨-, rfl⟩, _, hassert, -⟩ := h
    exact hassert
  · intro hassert
    have htime (rate : ℕ) : ∃ s', updateLastFeeOpTime block (setBaseRate rate s) = .ok s' := by
      by_cases hminute : block.timestamp - s.vaultManager.lastFeeOperationTime ≥
          SECONDS_IN_ONE_MINUTE
      · exact ⟨_, bind_ok.mpr ⟨_, SafeMath.sub_ok.mpr ⟨hclock, rfl⟩, if_pos hminute⟩⟩
      · exact ⟨_, bind_ok.mpr ⟨_, SafeMath.sub_ok.mpr ⟨hclock, rfl⟩, if_neg hminute⟩⟩
    obtain ⟨s', hs'⟩ := htime (min (scaled / DECIMAL_PRECISION + drawn * price / supply / BETA)
      DECIMAL_PRECISION)
    refine ⟨s', ?_, ?_⟩
    · simp only [updateBaseRateFromRedemption, hrate, bind_ok, Except.ok.injEq, SafeMath.mul_ok,
        SafeMath.div_ok, SafeMath.add_ok, assert_ok]
      exact ⟨_, rfl, _, ⟨hworth, rfl⟩, _, ⟨hsupply, rfl⟩, _, ⟨by decide, rfl⟩, _, ⟨hfits, rfl⟩, (),
        hassert, hs'⟩
    · obtain rfl := updateLastFeeOpTime_eq hs'
      exact min_le_right _ _

/-- The checks of a redemption bound what it can draw. -/
theorem Redeems.bounds (h : Redeems d block sender amount hints maxIterations s r) :
    0 < r.supply ∧ r.totals.totalRBTCDrawn * r.price < 2 ^ 256 ∧ r.state.lastFee = s.lastFee := by
  obtain ⟨f, -, -, hloop⟩ := h.priced
  obtain ⟨hworth, hclock⟩ := redeemLoop_within hloop
  have hsupply : 0 < r.supply := by
    have hpos := h.amount_pos
    have hcovers := h.amount_le
    have hbalance := h.balance_le
    omega
  refine ⟨hsupply, ?_, hclock⟩
  obtain ⟨TCR, hTCR, hratio⟩ := h.ratio
  simp only [getTCR, getEntireSystemColl, getEntireSystemDebt, bind_ok, SafeMath.add_ok] at hTCR
  obtain ⟨coll, -, _, ⟨-, rfl⟩, hTCR⟩ := hTCR
  rw [← h.supply_eq, computeCR, if_pos hsupply] at hTCR
  simp only [bind_ok, SafeMath.mul_ok, SafeMath.div_ok] at hTCR
  obtain ⟨_, ⟨hfits, rfl⟩, -, rfl⟩ := hTCR
  have hcollateral : r.supply * DECIMAL_PRECISION ≤ coll * r.price := by
    have hunit : DECIMAL_PRECISION ≤ coll * r.price / r.supply := by
      apply le_trans _ hratio
      decide
    rw [Nat.mul_comm]
    exact (Nat.le_div_iff_mul_le hsupply).mp hunit
  calc r.totals.totalRBTCDrawn * r.price ≤ r.totals.worth r.price := Nat.le_add_right _ _
    _ ≤ 0 * r.price + amount * DECIMAL_PRECISION := hworth
    _ = amount * DECIMAL_PRECISION := by rw [Nat.zero_mul, Nat.zero_add]
    _ ≤ r.supply * DECIMAL_PRECISION :=
        Nat.mul_le_mul_right _ (h.amount_le.trans h.balance_le)
    _ ≤ coll * r.price := hcollateral
    _ < 2 ^ 256 := hfits

theorem calcDecayedBaseRate_congr (h : s'.lastFee = s.lastFee) :
    calcDecayedBaseRate block s' = calcDecayedBaseRate block s := by
  have hrate : s'.vaultManager.baseRate = s.vaultManager.baseRate := congrArg Prod.fst h
  have htime : s'.vaultManager.lastFeeOperationTime = s.vaultManager.lastFeeOperationTime :=
    congrArg Prod.snd h
  simp only [calcDecayedBaseRate, minutesPassedSinceLastFeeOp, hrate, htime]

/-- A redemption that has passed its checks and drawn its collateral gets past the assertion on
the new base rate, which is at most one then, if and only if the rate has not decayed to nothing
or the collateral is worth at least two parts in `1e18` of the supply. -/
theorem redemption_rate_iff (hs : Reachable d s)
    (h : redeemVaults d block sender amount hints maxIterations maxFee s = .ok r)
    (hrate : calcDecayedBaseRate block s = .ok rate) :
    (∃ s', updateBaseRateFromRedemption block r.totals.totalRBTCDrawn r.price r.supply r.state =
        .ok s' ∧ s'.vaultManager.baseRate ≤ 10 ^ 18) ↔
      0 < rate ∨ 2 * (s.activePool.BPDDebt + s.defaultPool.BPDDebt) ≤
        drawnBy r.price (lotsOf hints maxIterations amount s r) * r.price := by
  obtain ⟨zs, hzs⟩ := hs.registry
  have hredeems := redeemVaults_ok h
  obtain ⟨hsupply, hworth, hclock⟩ := hredeems.bounds
  rw [← (hredeems.totals hzs.linked).2, ← hredeems.supply_eq]
  apply updateBaseRateFromRedemption_iff _ hworth hsupply
  rw [calcDecayedBaseRate_congr hclock]
  exact hrate

/-- One vault with 24000 BPD, and no base rate yet. -/
def oneVault : List Transaction :=
  [⟨testBlock 60000, 100, 5 * 10 ^ 18, .openVault (10 ^ 16) (24000 * 10 ^ 18) 0 0⟩]

/-- A redemption of 1200 BPD is large enough. -/
theorem redemption_rate_iff_large : ∃ s s' hints r, Reachable testnet s ∧
    redeemVaults testnet (lateBlock 44000) 100 (1200 * 10 ^ 18) hints 0 (10 ^ 18) s = .ok r ∧
    updateBaseRateFromRedemption (lateBlock 44000) r.totals.totalRBTCDrawn r.price r.supply
      r.state = .ok s' ∧ s'.vaultManager.baseRate ≤ 10 ^ 18 := by
  obtain ⟨s, hs, -, hcheck⟩ := runs_reachable testnet testGenesis oneVault
    (fun s => succeeds (fun hint => succeeds (fun r => decide
        (2 * (s.activePool.BPDDebt + s.defaultPool.BPDDebt) ≤ drawnBy r.price
          (lotsOf ⟨hint.firstRedemptionHint, 0, 0, hint.partialRedemptionHintNICR⟩ 0
            (1200 * 10 ^ 18) s r) * r.price))
        (redeemVaults testnet (lateBlock 44000) 100 (1200 * 10 ^ 18)
          ⟨hint.firstRedemptionHint, 0, 0, hint.partialRedemptionHintNICR⟩ 0 (10 ^ 18) s) &&
        succeeds (fun _ => true) (calcDecayedBaseRate (lateBlock 44000) s))
      (HintHelpers.getRedemptionHints (1200 * 10 ^ 18) (44000 * 10 ^ 18) 0 s))
    (by decide +kernel)
  obtain ⟨hint, -, hcheck⟩ := exists_of_succeeds hcheck
  rw [Bool.and_eq_true] at hcheck
  obtain ⟨hcheck, hclock⟩ := hcheck
  obtain ⟨r, hr, hlarge⟩ := exists_of_succeeds hcheck
  obtain ⟨rate, hrate, -⟩ := exists_of_succeeds hclock
  obtain ⟨s', hs', hle⟩ := (redemption_rate_iff hs hr hrate).mpr (.inr (of_decide_eq_true hlarge))
  exact ⟨s, s', _, r, hs, hr, hs', hle⟩

/-- A redemption that draws one wei of RBTC passes its checks, and dies on the assertion. -/
theorem base_rate_vanishes : ∃ s hints r, Reachable testnet s ∧
    redeemVaults testnet (lateBlock 44000) 100 44000 hints 0 (10 ^ 18) s = .ok r ∧
    0 < r.totals.totalRBTCDrawn ∧
    redeemCollateral testnet (lateBlock 44000) 100 44000 hints 0 (10 ^ 18) s = .error .invalid := by
  obtain ⟨s, hs, -, hcheck⟩ := runs_reachable testnet testGenesis oneVault
    (fun s => succeeds (fun hint => succeeds (fun r => decide (0 < r.totals.totalRBTCDrawn))
        (redeemVaults testnet (lateBlock 44000) 100 44000
          ⟨hint.firstRedemptionHint, 0, 0, hint.partialRedemptionHintNICR⟩ 0 (10 ^ 18) s) &&
        failsWith .invalid (redeemCollateral testnet (lateBlock 44000) 100 44000
          ⟨hint.firstRedemptionHint, 0, 0, hint.partialRedemptionHintNICR⟩ 0 (10 ^ 18) s))
      (HintHelpers.getRedemptionHints 44000 (44000 * 10 ^ 18) 0 s))
    (by decide +kernel)
  obtain ⟨hint, -, hcheck⟩ := exists_of_succeeds hcheck
  rw [Bool.and_eq_true] at hcheck
  obtain ⟨hcheck, hfails⟩ := hcheck
  obtain ⟨r, hr, hdrawn⟩ := exists_of_succeeds hcheck
  exact ⟨s, _, r, hs, hr, of_decide_eq_true hdrawn, eq_error_of_failsWith hfails⟩

end MoneyProtocol.VaultManager
