import MoneyProtocol.Accounting.Decay
import MoneyProtocol.Pool.Runs

/-!
# The issuance of MP

What has been issued by a given time is the supply cap less its rounded decay. A transaction
that issues at all issues up to the time of its block.
-/

namespace MoneyProtocol

open Outcome DecimalPower VaultManager StabilityPool

variable {d : Deployment} {s s' : State} {block : Block} {n m now later : ℕ}

namespace CommunityIssuance

/-- The share of the supply that is not yet issued after whole minutes. -/
def issuanceFactor (minutes : ℕ) : ℕ :=
  power DECIMAL_PRECISION ISSUANCE_FACTOR (min minutes 525600000)

/-- What a deployment has issued by the time `now`. -/
def latestTotalMPIssued (deploymentTime now : ℕ) : ℕ :=
  MPSupplyCap * (DECIMAL_PRECISION -
    issuanceFactor ((now - deploymentTime) / SECONDS_IN_ONE_MINUTE)) / DECIMAL_PRECISION

theorem ISSUANCE_FACTOR_le : ISSUANCE_FACTOR ≤ DECIMAL_PRECISION := by
  decide

theorem inStep : InStep DECIMAL_PRECISION ISSUANCE_FACTOR :=
  .of_le ISSUANCE_FACTOR_le

theorem issuanceFactor_antitone (hmn : m ≤ n) : issuanceFactor n ≤ issuanceFactor m := by
  apply inStep.power_antitone DECIMAL_PRECISION_pos ISSUANCE_FACTOR_le
  exact min_le_min_right _ hmn

theorem issuanceFactor_le : issuanceFactor n ≤ DECIMAL_PRECISION :=
  inStep.power_le DECIMAL_PRECISION_pos ISSUANCE_FACTOR_le

/-- The later, the more has been issued. -/
theorem latestTotalMPIssued_mono {deploymentTime : ℕ} (hle : now ≤ later) :
    latestTotalMPIssued deploymentTime now ≤ latestTotalMPIssued deploymentTime later := by
  apply Nat.div_le_div_right
  apply Nat.mul_le_mul_left
  apply Nat.sub_le_sub_left
  apply issuanceFactor_antitone
  exact Nat.div_le_div_right (Nat.sub_le_sub_right hle _)

theorem latestTotalMPIssued_le {deploymentTime : ℕ} :
    latestTotalMPIssued deploymentTime now ≤ MPSupplyCap := by
  apply Nat.div_le_of_le_mul
  rw [Nat.mul_comm DECIMAL_PRECISION]
  exact Nat.mul_le_mul_left _ (Nat.sub_le _ _)

/-- The storage once everything up to `now` has been issued. -/
def caughtUp (now : ℕ) (c : CommunityIssuance) : CommunityIssuance :=
  { c with totalMPIssued := latestTotalMPIssued c.deploymentTime now }

/-- The issuance succeeds exactly where the clock has not gone back. -/
theorem issueMP_ok_iff {issuance : ℕ} : issueMP block s = .ok (issuance, s') ↔
    s.communityIssuance.deploymentTime ≤ block.timestamp ∧
      s.communityIssuance.totalMPIssued ≤
        latestTotalMPIssued s.communityIssuance.deploymentTime block.timestamp ∧
      issuance = latestTotalMPIssued s.communityIssuance.deploymentTime block.timestamp -
        s.communityIssuance.totalMPIssued ∧
      s' = { s with communityIssuance := caughtUp block.timestamp s.communityIssuance } := by
  have hfits : MPSupplyCap * DECIMAL_PRECISION < 2 ^ 256 := by
    decide +kernel
  have hproduct : MPSupplyCap * (DECIMAL_PRECISION - issuanceFactor
      ((block.timestamp - s.communityIssuance.deploymentTime) / SECONDS_IN_ONE_MINUTE)) < 2 ^ 256 :=
    (Nat.mul_le_mul_left _ (Nat.sub_le _ _)).trans_lt hfits
  simp only [issueMP, getCumulativeIssuanceFraction, MoneypMath.decPow_eq ISSUANCE_FACTOR_le,
    bind_ok, pure_ok, assert_ok, SafeMath.sub_ok, SafeMath.div_ok, SafeMath.mul_ok,
    Prod.mk.injEq, Except.ok.injEq]
  constructor
  · rintro ⟨_, ⟨_, ⟨hdeployed, rfl⟩, _, ⟨-, rfl⟩, _, rfl, _, ⟨-, rfl⟩, _, -, rfl⟩, _, ⟨-, rfl⟩, _,
      ⟨-, rfl⟩, _, ⟨hle, rfl⟩, rfl, rfl⟩
    exact ⟨hdeployed, hle, rfl, rfl⟩
  · rintro ⟨hdeployed, hle, rfl, rfl⟩
    exact ⟨_, ⟨_, ⟨hdeployed, rfl⟩, _, ⟨by decide, rfl⟩, _, rfl, _, ⟨issuanceFactor_le, rfl⟩, (),
      Nat.sub_le _ _, rfl⟩, _, ⟨hproduct, rfl⟩, _, ⟨DECIMAL_PRECISION_pos, rfl⟩, _, ⟨hle, rfl⟩,
      rfl, rfl⟩

end CommunityIssuance

open CommunityIssuance

/-- Nothing was issued, or everything up to the time of the block. -/
def Issued (block : Block) (s s' : State) : Prop :=
  s'.communityIssuance = s.communityIssuance ∨
    s.communityIssuance.deploymentTime ≤ block.timestamp ∧
      s.communityIssuance.totalMPIssued ≤
        latestTotalMPIssued s.communityIssuance.deploymentTime block.timestamp ∧
      s'.communityIssuance = caughtUp block.timestamp s.communityIssuance

theorem Issued.within {t t' : State} (hbefore : t.record = s.record)
    (h : Issued block t t') (hafter : s'.record = t'.record) : Issued block s s' := by
  simp only [State.record, Prod.mk.injEq] at hbefore hafter
  rw [Issued, hafter.2, ← hbefore.2]
  exact h

namespace StabilityPool

theorem triggerMPIssuance_issued (h : triggerMPIssuance block s = .ok s') : Issued block s s' := by
  simp only [triggerMPIssuance, bind_ok, Prod.exists] at h
  obtain ⟨_, s₁, hissue, h⟩ := h
  obtain ⟨hdeployed, hle, -, rfl⟩ := issueMP_ok_iff.mp hissue
  obtain ⟨_, _, rfl⟩ := updateG_ok h
  exact .inr ⟨hdeployed, hle, rfl⟩

theorem Call.perform_issued {c : Call} (h : c.perform d block s = .ok s') : Issued block s s' := by
  cases c with
  | provideToSP =>
    obtain ⟨s₁, hissue, ⟨e⟩⟩ := provideToSP_effect h
    rw [Issued, e.communityIssuance]
    exact triggerMPIssuance_issued hissue
  | withdrawFromSP =>
    obtain ⟨s₀, s₁, hpool, hissue, ⟨e⟩⟩ := withdrawFromSP_effect h
    have hissued := Issued.within (record_of_pool hpool) (triggerMPIssuance_issued hissue) rfl
    rw [Issued, e.communityIssuance]
    exact hissued
  | withdrawRBTCGainToVault =>
    obtain ⟨s₁, hissue, ⟨e⟩⟩ := withdrawRBTCGainToVault_effect h
    rw [Issued, e.communityIssuance]
    exact triggerMPIssuance_issued hissue
  | registerFrontEnd =>
    simp only [Call.perform, StabilityPool.registerFrontEnd, bind_ok, pure_ok] at h
    obtain ⟨_, -, _, -, _, -, rfl⟩ := h
    exact .inl rfl
  | offset =>
    rcases offset_effect h with ⟨-, rfl⟩ | ⟨-, s₁, hissue, ⟨e⟩⟩
    · exact .inl rfl
    · rw [Issued, e.communityIssuance]
      exact triggerMPIssuance_issued hissue

/-- A liquidation issues with its offset. -/
theorem liquidation_issued {l : LiquidationLoop} {sender : Address} (hne : sender ≠ d.stabilityPool)
    (hloop : l.state.aside = s.aside)
    (h : settleLiquidation d block sender l.totals l.state = .ok s') : Issued block s s' := by
  obtain ⟨s₁, s₂, hoffset, hafter, hgas⟩ := settleLiquidation_offset h
  have hissued : Issued block l.state s₁ := Call.perform_issued (c := .offset _ _) hoffset
  apply hissued.within (record_of_pool (pool_of_aside hloop))
  rw [record_of_pool (sendGasCompensation_pool hne hgas), record_of_pool (pool_of_aside hafter)]

theorem transact_issued {t : Transaction} (hsigned : t.Signed d) (h : transact d t s = .ok s') :
    Issued t.block s s' := by
  have hsender := hsigned.1
  have hne := hsender.ne d.stabilityPool_mem
  obtain ⟨block, sender, value, operation⟩ := t
  cases operation with
  | liquidate =>
    have h := nonPayable_ok h
    simp only [liquidate, bind_ok] at h
    obtain ⟨_, -, h⟩ := h
    obtain ⟨l, hl, hsettle⟩ := batchLiquidateVaults_loop h
    exact liquidation_issued hne (batch_aside hl) hsettle
  | liquidateVaults =>
    obtain ⟨l, hl, hsettle⟩ := liquidateVaults_loop (nonPayable_ok h)
    exact liquidation_issued hne (sequence_aside hl) hsettle
  | batchLiquidateVaults =>
    obtain ⟨l, hl, hsettle⟩ := batchLiquidateVaults_loop (nonPayable_ok h)
    exact liquidation_issued hne (batch_aside hl) hsettle
  | provideToSP => exact Call.perform_issued (c := .provideToSP _ _ _) (nonPayable_ok h)
  | withdrawFromSP => exact Call.perform_issued (c := .withdrawFromSP _ _) (nonPayable_ok h)
  | withdrawRBTCGainToVault =>
    exact Call.perform_issued (c := .withdrawRBTCGainToVault _ _ _) (nonPayable_ok h)
  | registerFrontEnd =>
    exact Call.perform_issued (d := d) (c := .registerFrontEnd _ _) (nonPayable_ok h)
  | _ => exact .inl (congrArg Prod.snd (transact_record hsender h not_false))

end StabilityPool

end MoneyProtocol
