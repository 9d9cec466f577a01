import MoneyProtocol.Accounting.RedemptionRate
import MoneyProtocol.Pool.Issuance
import MoneyProtocol.Safety.BaseRate
import MoneyProtocol.Safety.Surplus

/-!
# Clocks that never go back

Rounded powers decrease with the exponent, so along a clock that never goes back the cumulative
issuance of MP only grows, up to the supply cap, and the base rate only decays.
-/

namespace MoneyProtocol

open Outcome DecimalPower MoneypBase VaultManager StabilityPool CommunityIssuance

variable {d : Deployment} {s s' : State} {block : Block} {a : Address} {price now later : ℕ}

/-- The powers decrease, and start from one. -/
theorem MoneypMath.decPow_antitone {base m n : ℕ} (hbase : base ≤ DECIMAL_PRECISION)
    (hmn : m ≤ n) : ∃ v w, decPow base m = .ok v ∧ decPow base n = .ok w ∧ w ≤ v ∧
      v ≤ DECIMAL_PRECISION := by
  have hstep : InStep DECIMAL_PRECISION base := .of_le hbase
  refine ⟨_, _, decPow_eq hbase, decPow_eq hbase, ?_, ?_⟩
  · apply hstep.power_antitone DECIMAL_PRECISION_pos hbase
    exact min_le_min_right _ hmn
  · exact hstep.power_le DECIMAL_PRECISION_pos hbase

namespace VaultManager

variable {l l' : LiquidationLoop} {collLeft : ℕ → LiquidationValues → Outcome ℕ}
  {hints : RedemptionHints}

theorem Liquidates.lastFee (h : Liquidates d a s s') : s'.lastFee = s.lastFee := by
  obtain ⟨e, s₁, s₂, left, -, hdetach, hclose, hsurplus⟩ := h
  have hcredit : s'.lastFee = s₂.lastFee := by
    simp only [accountCollSurplus, CollSurplusPool.accountSurplus, ite_pure_ok, bind_ok,
      pure_ok] at hsurplus
    obtain ⟨-, _, -, rfl⟩ | ⟨-, rfl⟩ := hsurplus
    · rfl
    · rfl
  rw [hcredit, lastFee_of_standing (closeVault_standing hclose),
    lastFee_of_standing (detachVault_standing hdetach)]

theorem loop_lastFee (h : Relation.ReflTransGen (LoopStep collLeft d price) l l') :
    l'.state.lastFee = l.state.lastFee := by
  induction h with
  | refl => rfl
  | tail _ hstep ih =>
    rcases hstep.liquidates with hsame | ⟨a, h⟩
    · rw [hsame, ih]
    · exact h.lastFee.trans ih

theorem batchLiquidateVaults_lastFee {sender : Address} {users : List Address}
    (hsender : sender ≠ d.defaultPool) (h : batchLiquidateVaults d block sender users s = .ok s') :
    s'.lastFee = s.lastFee := by
  obtain ⟨l, hl, hsettle⟩ := batchLiquidateVaults_loop h
  obtain ⟨price, l₀, s₀, _, hprice, -, hstart, -, hloop⟩ := batchLiquidateVaultsLoop_ok hl
  rw [lastFee_of_standing (settleLiquidation_vaults hsender hsettle).2, loop_lastFee hloop, hstart,
    lastFee_of_standing (PriceFeed.fetchPrice_standing hprice)]

theorem liquidateVaults_lastFee {sender : Address} {n : ℕ} (hsender : sender ≠ d.defaultPool)
    (h : liquidateVaults d block sender n s = .ok s') : s'.lastFee = s.lastFee := by
  obtain ⟨l, hl, hsettle⟩ := liquidateVaults_loop h
  obtain ⟨price, l₀, s₀, _, hprice, -, hstart, -, hloop⟩ := liquidateVaultsLoop_ok hl
  rw [lastFee_of_standing (settleLiquidation_vaults hsender hsettle).2, loop_lastFee hloop, hstart,
    lastFee_of_standing (PriceFeed.fetchPrice_standing hprice)]

theorem redeemCollateral_moved {sender : Address} {amount maxIterations maxFee : ℕ}
    (h : redeemCollateral d block sender amount hints maxIterations maxFee s = .ok s') :
    FeeMoved block s s' := by
  simp only [redeemCollateral, bind_ok, Prod.exists] at h
  obtain ⟨_, -, _, -, price, s₁, hprice, _, -, _, -, _, -, _, -, _, -, _, -, t, s₂, hloop,
    hsettle⟩ := h
  obtain ⟨s₃, hupdate, hlast⟩ := settleRedemption_lastFee hsettle
  refine (updateBaseRateFromRedemption_moved hupdate).within ?_ hlast
  exact (redeemLoop_within hloop).2.trans
    (lastFee_of_standing (PriceFeed.fetchPrice_standing hprice))

end VaultManager

/-- Whatever moves the base rate leaves it at one or less, with the time of its block. -/
theorem transact_moved {t : Transaction} (hsigned : t.Signed d) (h : transact d t s = .ok s') :
    FeeMoved t.block s s' := by
  have hne := hsigned.1.ne d.defaultPool_mem
  obtain ⟨block, sender, value, operation⟩ := t
  cases operation with
  | claimCollateral =>
    have h := nonPayable_ok h
    simp only [BorrowerOperations.claimCollateral, CollSurplusPool.claimColl, bind_ok] at h
    obtain ⟨_, -, _, -, h⟩ := h
    exact .inl ((lastFee_of_standing (callWithValue_standing h)).trans rfl)
  | redeemCollateral => exact redeemCollateral_moved (nonPayable_ok h)
  | liquidate =>
    have h := nonPayable_ok h
    simp only [liquidate, bind_ok] at h
    obtain ⟨_, -, h⟩ := h
    exact .inl (batchLiquidateVaults_lastFee hne h)
  | liquidateVaults => exact .inl (liquidateVaults_lastFee hne (nonPayable_ok h))
  | batchLiquidateVaults => exact .inl (batchLiquidateVaults_lastFee hne (nonPayable_ok h))
  | _ => exact (transact_borrowing h not_false).fee

/-- One successful transaction, in a block that is not older than the last one. -/
def TimedStep (d : Deployment) : ℕ × State → ℕ × State → Prop
  | (now, s), (later, s') => ∃ t : Transaction, t.Signed d ∧ now ≤ t.block.timestamp ∧
    later = t.block.timestamp ∧ transact d t s = .ok s'

/-- The states that such runs reach from deployment, and the times they reach them at. -/
def TimedReachable (d : Deployment) (now : ℕ) (s : State) : Prop :=
  ∃ g : Genesis, Relation.ReflTransGen (TimedStep d) (g.deploymentTime, g.state) (now, s)

/-- At `now` nothing has been issued ahead of time, and the base rate is at most one. -/
structure InTime (now : ℕ) (s : State) : Prop where
  deployed : s.communityIssuance.deploymentTime ≤ now
  issued : s.communityIssuance.totalMPIssued ≤
    latestTotalMPIssued s.communityIssuance.deploymentTime now
  rate : s.vaultManager.baseRate ≤ DECIMAL_PRECISION
  fee : s.vaultManager.lastFeeOperationTime ≤ now

theorem InTime.mono (h : InTime now s) (hle : now ≤ later) : InTime later s where
  deployed := h.deployed.trans hle
  issued := h.issued.trans (latestTotalMPIssued_mono hle)
  rate := h.rate
  fee := h.fee.trans hle

theorem InTime.step (h : InTime now s) (hle : now ≤ block.timestamp)
    (hissued : Issued block s s') (hmoved : FeeMoved block s s') :
    InTime block.timestamp s' := by
  have hs := h.mono hle
  have hissuance : s'.communityIssuance.deploymentTime ≤ block.timestamp ∧
      s'.communityIssuance.totalMPIssued ≤
        latestTotalMPIssued s'.communityIssuance.deploymentTime block.timestamp := by
    rcases hissued with hsame | ⟨-, -, hcaught⟩
    · rw [hsame]
      exact ⟨hs.deployed, hs.issued⟩
    · rw [hcaught]
      exact ⟨hs.deployed, le_rfl⟩
  have hfee : s'.vaultManager.baseRate ≤ DECIMAL_PRECISION ∧
      s'.vaultManager.lastFeeOperationTime ≤ block.timestamp := by
    rcases hmoved with hsame | ⟨hrate, htime | htime⟩
    · simp only [State.lastFee, Prod.mk.injEq] at hsame
      rw [hsame.1, hsame.2]
      exact ⟨hs.rate, hs.fee⟩
    · exact ⟨hrate, htime.trans_le hs.fee⟩
    · exact ⟨hrate, htime.le⟩
  exact ⟨hissuance.1, hissuance.2, hfee.1, hfee.2⟩

theorem InTime.run (h : InTime now s)
    (hrun : Relation.ReflTransGen (TimedStep d) (now, s) (later, s')) :
    InTime later s' ∧ s.communityIssuance.totalMPIssued ≤ s'.communityIssuance.totalMPIssued := by
  suffices ∀ p, Relation.ReflTransGen (TimedStep d) (now, s) p →
      InTime p.1 p.2 ∧
        s.communityIssuance.totalMPIssued ≤ p.2.communityIssuance.totalMPIssued from this _ hrun
  intro p hrun
  induction hrun with
  | refl => exact ⟨h, le_rfl⟩
  | @tail q r _ hstep ih =>
    obtain ⟨t, hsigned, hle, hlater, ht⟩ := hstep
    obtain ⟨hq, hgrown⟩ := ih
    have hissued := transact_issued hsigned ht
    have hr := hq.step hle hissued (transact_moved hsigned ht)
    rw [← hlater] at hr
    refine ⟨hr, hgrown.trans ?_⟩
    rcases hissued with hsame | ⟨-, hgrows, hcaught⟩
    · rw [hsame]
    · rw [hcaught]
      exact hgrows

theorem TimedReachable.inTime (h : TimedReachable d now s) : InTime now s := by
  obtain ⟨g, hrun⟩ := h
  have hstart : InTime g.deploymentTime g.state :=
    ⟨le_rfl, Nat.zero_le _, Nat.zero_le _, Nat.zero_le _⟩
  exact (hstart.run hrun).1

/-- Where all is in time, the issuance succeeds, and all stays in time. -/
theorem InTime.exists_issueMP (h : InTime now s) (hle : now ≤ block.timestamp) :
    ∃ issuance s', issueMP block s = .ok (issuance, s') ∧ InTime block.timestamp s' ∧
      s.communityIssuance.totalMPIssued ≤ s'.communityIssuance.totalMPIssued := by
  have hs := h.mono hle
  have hissue := issueMP_ok_iff.mpr ⟨hs.deployed, hs.issued, rfl, rfl⟩
  exact ⟨_, _, hissue, ⟨hs.deployed, le_rfl, hs.rate, hs.fee⟩, hs.issued⟩

theorem InTime.capped (h : InTime now s) :
    s.communityIssuance.totalMPIssued ≤ MPSupplyCap :=
  h.issued.trans latestTotalMPIssued_le

/-- The decayed base rate never rises, and starts from one at most. -/
theorem InTime.decayed {block' : Block} (h : InTime now s) (hle : now ≤ block.timestamp)
    (hle' : block.timestamp ≤ block'.timestamp) : ∃ rate rate',
      calcDecayedBaseRate block s = .ok rate ∧ calcDecayedBaseRate block' s = .ok rate' ∧
        rate' ≤ rate ∧ rate ≤ s.vaultManager.baseRate := by
  have hs := h.mono hle
  refine ⟨_, _, calcDecayedBaseRate_eq hs.rate hs.fee,
    calcDecayedBaseRate_eq hs.rate (hs.fee.trans hle'), ?_, ?_⟩
  · apply Nat.div_le_div_right
    apply Nat.mul_le_mul_left
    apply decayFactor_antitone
    exact Nat.div_le_div_right (Nat.sub_le_sub_right hle' _)
  · apply Nat.div_le_of_le_mul
    rw [Nat.mul_comm]
    exact Nat.mul_le_mul_right _ decayFactor_le

/-- Rounded powers decrease with the exponent. Hence along a clock that never goes back the
issuance succeeds, grows and stays below the cap, and the base rate decays. -/
theorem powers_antitone {base m n : ℕ} (block block' : Block) (hbase : base ≤ 10 ^ 18) (hmn : m ≤ n)
    (hreach : TimedReachable d now s)
    (hrun : Relation.ReflTransGen (TimedStep d) (now, s) (later, s'))
    (hle : later ≤ block.timestamp) (hle' : block.timestamp ≤ block'.timestamp) :
    (∃ v w, MoneypMath.decPow base m = .ok v ∧ MoneypMath.decPow base n = .ok w ∧ w ≤ v ∧
      v ≤ 10 ^ 18) ∧
    (s.communityIssuance.totalMPIssued ≤ s'.communityIssuance.totalMPIssued ∧
      ∃ issuance s₁ issuance' s₂, issueMP block s' = .ok (issuance, s₁) ∧
        issueMP block' s₁ = .ok (issuance', s₂) ∧
        s'.communityIssuance.totalMPIssued ≤ s₁.communityIssuance.totalMPIssued ∧
        s₁.communityIssuance.totalMPIssued ≤ s₂.communityIssuance.totalMPIssued ∧
        s₂.communityIssuance.totalMPIssued ≤ MPSupplyCap) ∧
    (∃ rate rate', calcDecayedBaseRate block s' = .ok rate ∧
      calcDecayedBaseRate block' s' = .ok rate' ∧ rate' ≤ rate ∧
      rate ≤ s'.vaultManager.baseRate ∧ s'.vaultManager.baseRate ≤ 10 ^ 18) := by
  obtain ⟨hs', hgrown⟩ := hreach.inTime.run hrun
  refine ⟨MoneypMath.decPow_antitone hbase hmn, ⟨hgrown, ?_⟩, ?_⟩
  · obtain ⟨issuance, s₁, hissue, hs₁, hgrows⟩ := hs'.exists_issueMP hle
    obtain ⟨issuance', s₂, hissue', hs₂, hgrows'⟩ := hs₁.exists_issueMP hle'
    exact ⟨issuance, s₁, issuance', s₂, hissue, hissue', hgrows, hgrows', hs₂.capped⟩
  · obtain ⟨rate, rate', hrate, hrate', hdecays, hstart⟩ := hs'.decayed hle hle'
    exact ⟨rate, rate', hrate, hrate', hdecays, hstart, hs'.rate⟩

/-- A vault is opened at once, and MP is issued a minute later and another one. -/
theorem powers_antitone_opened : ∃ s' issuance s₁,
    Relation.ReflTransGen (TimedStep testnet) (0, testGenesis.state) (0, s') ∧
      issueMP ⟨60, fun _ => none⟩ s' = .ok (issuance, s₁) ∧
      s'.communityIssuance.totalMPIssued ≤ s₁.communityIssuance.totalMPIssued := by
  let opening : Transaction :=
    ⟨testBlock 60000, 100, 5 * 10 ^ 18, .openVault (10 ^ 16) (10000 * 10 ^ 18) 0 0⟩
  have hsigned : opening.Signed testnet := by decide +kernel
  have hopens : succeeds (fun _ => true) (transact testnet opening testGenesis.state) = true := by
    decide +kernel
  obtain ⟨s', hs', -⟩ := exists_of_succeeds hopens
  have hrun : Relation.ReflTransGen (TimedStep testnet) (0, testGenesis.state) (0, s') :=
    .single ⟨opening, hsigned, le_rfl, rfl, hs'⟩
  have hstart : TimedReachable testnet 0 testGenesis.state := ⟨testGenesis, .refl⟩
  obtain ⟨-, ⟨-, issuance, s₁, _, _, hissue, -, hgrows, -⟩, -⟩ :=
    powers_antitone ⟨60, fun _ => none⟩ ⟨120, fun _ => none⟩
      (show ISSUANCE_FACTOR ≤ 10 ^ 18 by decide) (show 1 ≤ 2 by decide) hstart hrun
      (Nat.zero_le _) (show 60 ≤ 120 by decide)
  exact ⟨s', issuance, s₁, hrun, hissue, hgrows⟩

end MoneyProtocol
