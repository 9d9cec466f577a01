import MoneyProtocol.Accounting.Frames

/-!
# What the functions of the Stability Pool do to its storage

An issuance of MP, an offset, and the three functions of a depositor, each as a record of what the
call computed and of the storage it left. A depositor function collects all gains, rounds the
deposit and the front end's stake down to what they have compounded to, and books the change of
both.
-/

namespace MoneyProtocol.StabilityPool

open Outcome PointSum MoneypBase

variable {d : Deployment} {s s' : State} {block : Block} {a frontEnd : Address}
  {amount debt coll v : ℕ}

/-- What a call issues, the part of it that goes to every unit of the deposits, and the error that
is carried on. -/
structure IssuanceEffect (s s' : State) where
  issuance : ℕ
  perUnit : ℕ
  error : ℕ
  split : perUnit * s.stabilityPool.totalBPDDeposits + error ≤
    issuance * DECIMAL_PRECISION + s.stabilityPool.lastMPError
  pool : s'.stabilityPool = { s.stabilityPool with
    lastMPError := error
    epochToScaleToG := updateSum s.stabilityPool.epochToScaleToG s.stabilityPool.currentEpoch
      s.stabilityPool.currentScale (s.stabilityPool.epochToScaleToG s.stabilityPool.currentEpoch
        s.stabilityPool.currentScale + perUnit * s.stabilityPool.P) }
  issued : s'.communityIssuance.totalMPIssued = s.communityIssuance.totalMPIssued + issuance
  capped : s'.communityIssuance.totalMPIssued ≤ CommunityIssuance.MPSupplyCap
  bpdToken : s'.bpdToken = s.bpdToken
  mpToken : s'.mpToken = s.mpToken

theorem updateSum_same {sums : ℕ → ℕ → ℕ} {epoch scale : ℕ} :
    updateSum sums epoch scale (sums epoch scale) = sums := by
  rw [updateSum, Function.update_eq_self, Function.update_eq_self]

theorem fraction_le {block : Block} {fraction : ℕ}
    (h : CommunityIssuance.getCumulativeIssuanceFraction block s = .ok fraction) :
    fraction ≤ DECIMAL_PRECISION := by
  simp only [CommunityIssuance.getCumulativeIssuanceFraction, bind_ok, pure_ok, assert_ok] at h
  obtain ⟨_, -, _, -, _, -, _, -, _, hfraction, rfl⟩ := h
  exact hfraction

/-- A fraction of the cap stays below the cap. -/
theorem portion_le {cap fraction unit scaled latest : ℕ} (hfraction : fraction ≤ unit)
    (hscaled : SafeMath.mul cap fraction = .ok scaled)
    (hlatest : SafeMath.div scaled unit = .ok latest) : latest ≤ cap := by
  obtain ⟨-, rfl⟩ := SafeMath.mul_ok.mp hscaled
  obtain ⟨-, rfl⟩ := SafeMath.div_ok.mp hlatest
  apply Nat.div_le_of_le_mul
  rw [mul_comm]
  exact Nat.mul_le_mul_right _ hfraction

theorem issueMP_effect {issuance : ℕ}
    (h : CommunityIssuance.issueMP block s = .ok (issuance, s')) :
    ∃ latest, latest = s.communityIssuance.totalMPIssued + issuance ∧
      latest ≤ CommunityIssuance.MPSupplyCap ∧
      { s with communityIssuance := { s.communityIssuance with totalMPIssued := latest } } =
        s' := by
  simp only [CommunityIssuance.issueMP, bind_ok, pure_ok, Prod.mk.injEq] at h
  obtain ⟨fraction, hfraction, scaled, hscaled, latest, hlatest, _, hissuance, rfl, hs⟩ := h
  have hcap := portion_le (fraction_le hfraction) hscaled hlatest
  obtain ⟨hle, hsub⟩ := SafeMath.sub_ok.mp hissuance
  exact ⟨latest, by rw [← hsub, Nat.add_sub_cancel' hle], hcap, hs⟩

theorem updateG_effect {issuance : ℕ} (h : updateG issuance s = .ok s') :
    ∃ perUnit error, perUnit * s.stabilityPool.totalBPDDeposits + error ≤
        issuance * DECIMAL_PRECISION + s.stabilityPool.lastMPError ∧
      { s with stabilityPool := { s.stabilityPool with
        lastMPError := error
        epochToScaleToG := updateSum s.stabilityPool.epochToScaleToG s.stabilityPool.currentEpoch
          s.stabilityPool.currentScale (s.stabilityPool.epochToScaleToG
            s.stabilityPool.currentEpoch s.stabilityPool.currentScale +
              perUnit * s.stabilityPool.P) } } = s' := by
  simp only [updateG] at h
  split_ifs at h with hnone
  · -- without deposits or new MP nothing is shared out
    refine ⟨0, s.stabilityPool.lastMPError, ?_, ?_⟩
    · rw [zero_mul, zero_add]
      exact Nat.le_add_left _ _
    · rw [zero_mul, add_zero, updateSum_same]
      exact pure_ok.mp h
  · simp only [computeMPPerUnitStaked, bind_ok, pure_ok, SafeMath.mul_ok, SafeMath.add_ok,
      SafeMath.div_ok, SafeMath.sub_ok, Prod.exists, Prod.mk.injEq] at h
    obtain ⟨_, _, ⟨scaled, ⟨-, hscaled⟩, numerator, ⟨-, hnumerator⟩, perUnit, -, distributed,
      ⟨-, hdistributed⟩, error, ⟨hle, herror⟩, rfl, rfl⟩, _, ⟨-, rfl⟩, _, ⟨-, rfl⟩, hs⟩ := h
    refine ⟨perUnit, error, ?_, hs⟩
    rw [hscaled, hnumerator, hdistributed, ← herror]
    exact (Nat.add_sub_cancel' hle).le

theorem triggerMPIssuance_effect (h : triggerMPIssuance block s = .ok s') :
    Nonempty (IssuanceEffect s s') := by
  simp only [triggerMPIssuance, bind_ok, Prod.exists] at h
  obtain ⟨issuance, s₁, hissue, h⟩ := h
  obtain ⟨latest, hissued, hcapped, hs₁⟩ := issueMP_effect hissue
  obtain ⟨perUnit, error, hsplit, hs'⟩ := updateG_effect h
  have hpool : s₁.stabilityPool = s.stabilityPool := by rw [← hs₁]
  have hlatest : s'.communityIssuance.totalMPIssued = latest := by rw [← hs', ← hs₁]
  rw [hpool] at hsplit
  refine ⟨⟨issuance, perUnit, error, hsplit, ?_, hlatest.trans hissued, hlatest.trans_le hcapped,
    ?_, ?_⟩⟩
  · rw [← hs', ← hs₁]
  · rw [← hs', ← hs₁]
  · rw [← hs', ← hs₁]

/-- The loss per unit staked and the new error, where nothing overflows. -/
def lossPerUnit (p : StabilityPool) (debt : ℕ) : ℕ :=
  if debt = p.totalBPDDeposits then DECIMAL_PRECISION
  else (debt * DECIMAL_PRECISION - p.lastBPDLossError_Offset) / p.totalBPDDeposits + 1

def lossError (p : StabilityPool) (debt : ℕ) : ℕ :=
  if debt = p.totalBPDDeposits then 0
  else lossPerUnit p debt * p.totalBPDDeposits -
    (debt * DECIMAL_PRECISION - p.lastBPDLossError_Offset)

/-- An offset that took place, after the issuance of MP that it starts with. -/
structure OffsetEffect (d : Deployment) (debt coll : ℕ) (s s' : State) where
  gain : ℕ
  rbtcError : ℕ
  product : Product
  debt_pos : 0 < debt
  debt_le : debt ≤ s.stabilityPool.totalBPDDeposits
  error_le : debt ≠ s.stabilityPool.totalBPDDeposits →
    s.stabilityPool.lastBPDLossError_Offset ≤ debt * DECIMAL_PRECISION
  loss_le : lossPerUnit s.stabilityPool debt ≤ DECIMAL_PRECISION
  gains : gain * s.stabilityPool.totalBPDDeposits + rbtcError =
    coll * DECIMAL_PRECISION + s.stabilityPool.lastRBTCError_Offset
  products : updateProduct (DECIMAL_PRECISION - lossPerUnit s.stabilityPool debt)
    ⟨s.stabilityPool.P, s.stabilityPool.currentScale, s.stabilityPool.currentEpoch⟩ = .ok product
  product_pos : 0 < product.P
  pool : s'.stabilityPool = { s.stabilityPool with
    epochToScaleToSum := updateSum s.stabilityPool.epochToScaleToSum s.stabilityPool.currentEpoch
      s.stabilityPool.currentScale (s.stabilityPool.epochToScaleToSum s.stabilityPool.currentEpoch
        s.stabilityPool.currentScale + gain * s.stabilityPool.P)
    P := product.P
    currentScale := product.scale
    currentEpoch := product.epoch
    lastRBTCError_Offset := rbtcError
    lastBPDLossError_Offset := lossError s.stabilityPool debt
    totalBPDDeposits := s.stabilityPool.totalBPDDeposits - debt
    RBTC := s.stabilityPool.RBTC + coll }
  communityIssuance : s'.communityIssuance = s.communityIssuance
  mpToken : s'.mpToken = s.mpToken
  bpd : s'.bpdToken.balances d.stabilityPool + debt = s.bpdToken.balances d.stabilityPool

theorem computeBPDLoss_ok {loss error : ℕ} {p : StabilityPool}
    (h : computeBPDLoss debt p.totalBPDDeposits p.lastBPDLossError_Offset = .ok (loss, error)) :
    loss = lossPerUnit p debt ∧ error = lossError p debt ∧
      (debt ≠ p.totalBPDDeposits → p.lastBPDLossError_Offset ≤ debt * DECIMAL_PRECISION) := by
  unfold lossError lossPerUnit
  simp only [computeBPDLoss] at h
  split_ifs at h ⊢ with hall
  · simp only [pure_ok, Prod.mk.injEq] at h
    exact ⟨h.1.symm, h.2.symm, fun hne => absurd hall hne⟩
  · simp only [bind_ok, pure_ok, SafeMath.mul_ok, SafeMath.sub_ok, SafeMath.div_ok, SafeMath.add_ok,
      Prod.mk.injEq] at h
    obtain ⟨_, ⟨-, rfl⟩, _, ⟨hle, rfl⟩, _, ⟨-, rfl⟩, _, ⟨-, rfl⟩, _, ⟨-, rfl⟩, _, ⟨-, rfl⟩, rfl,
      rfl⟩ := h
    exact ⟨rfl, rfl, fun _ => hle⟩

theorem computeRewardsPerUnitStaked_ok {r : RewardsPerUnitStaked}
    (h : computeRewardsPerUnitStaked coll debt s.stabilityPool.totalBPDDeposits s = .ok r) :
    debt ≤ s.stabilityPool.totalBPDDeposits ∧
      (debt ≠ s.stabilityPool.totalBPDDeposits →
        s.stabilityPool.lastBPDLossError_Offset ≤ debt * DECIMAL_PRECISION) ∧
      r.BPDLossPerUnitStaked = lossPerUnit s.stabilityPool debt ∧
      r.lastBPDLossError_Offset = lossError s.stabilityPool debt ∧
      r.RBTCGainPerUnitStaked * s.stabilityPool.totalBPDDeposits + r.lastRBTCError_Offset =
        coll * DECIMAL_PRECISION + s.stabilityPool.lastRBTCError_Offset := by
  simp only [computeRewardsPerUnitStaked, bind_ok, pure_ok, assert_ok, SafeMath.mul_ok,
    SafeMath.add_ok, SafeMath.div_ok, SafeMath.sub_ok, Prod.exists] at h
  obtain ⟨_, ⟨-, rfl⟩, _, ⟨-, rfl⟩, _, hdebt, loss, error, hloss, _, ⟨-, rfl⟩, _, ⟨-, rfl⟩, _,
    ⟨hle, rfl⟩, rfl⟩ := h
  obtain ⟨rfl, rfl, herror⟩ := computeBPDLoss_ok hloss
  exact ⟨hdebt, herror, rfl, rfl, Nat.add_sub_cancel' hle⟩

/-- An offset without deposits or debt does nothing; any other one starts with an issuance. -/
theorem offset_effect (h : offset d block debt coll s = .ok s') :
    (s.stabilityPool.totalBPDDeposits = 0 ∨ debt = 0) ∧ s' = s ∨
      (s.stabilityPool.totalBPDDeposits ≠ 0 ∧ debt ≠ 0) ∧
        ∃ s₁, triggerMPIssuance block s = .ok s₁ ∧ Nonempty (OffsetEffect d debt coll s₁ s') := by
  simp only [offset] at h
  split_ifs at h with hnone
  · exact .inl ⟨hnone, (pure_ok.mp h).symm⟩
  rw [not_or] at hnone
  refine .inr ⟨hnone, ?_⟩
  simp only [bind_ok, updateRewardSumAndProduct, moveOffsetCollAndDebt, ActivePool.decreaseBPDDebt,
    decreaseBPD, pure_ok, assert_ok, SafeMath.sub_ok, SafeMath.mul_ok, SafeMath.add_ok] at h
  obtain ⟨s₁, hissue, r, hrewards, _, ⟨_, hloss, _, ⟨-, rfl⟩, _, ⟨-, rfl⟩, _, ⟨-, rfl⟩, product,
    hproduct, _, hpos, rfl⟩, _, ⟨_, -, rfl⟩, _, ⟨_, ⟨-, rfl⟩, rfl⟩, s₂, hburn, hsend⟩ := h
  obtain ⟨i⟩ := triggerMPIssuance_effect hissue
  have htotal : s₁.stabilityPool.totalBPDDeposits = s.stabilityPool.totalBPDDeposits := by
    rw [i.pool]
  rw [← htotal] at hrewards
  obtain ⟨hdebt, herror, hlossEq, herrorEq, hgains⟩ := computeRewardsPerUnitStaked_ok hrewards
  rw [hlossEq] at hloss hproduct
  obtain ⟨-, hheld, -, rfl⟩ := BPDToken.burn_ok hburn
  simp only [ActivePool.sendRBTC, bind_ok] at hsend
  obtain ⟨_, -, hsend⟩ := hsend
  obtain ⟨-, hsend⟩ := callWithValue_ok.mp hsend
  rcases receive_ok hsend with ⟨hr, -⟩ | ⟨hr, -⟩ | ⟨hr, -⟩ | ⟨-, -, rfl⟩ | ⟨-, -, -, hr, -⟩
  · exact absurd hr d.stabilityPool_ne_activePool
  · exact absurd hr d.stabilityPool_ne_defaultPool
  · exact absurd hr d.stabilityPool_ne_collSurplusPool
  · refine ⟨s₁, hissue, ⟨⟨r.RBTCGainPerUnitStaked, r.lastRBTCError_Offset, product, by omega, hdebt,
      herror, hloss, hgains, hproduct, hpos, ?_, rfl, rfl, ?_⟩⟩⟩
    · simp only [setOffsetErrors, herrorEq]
    · simp only [setOffsetErrors] at hheld ⊢
      rw [Function.update_self]
      exact Nat.sub_add_cancel hheld
  · exact absurd rfl hr

/-- The snapshots of a stake that is written now. -/
def snapshotsNow (S : ℕ) (p : StabilityPool) : Snapshots :=
  ⟨S, p.P, p.epochToScaleToG p.currentEpoch p.currentScale, p.currentScale, p.currentEpoch⟩

/-- The deposit of `a` and the stake of its front end are written anew. -/
def restaked (a tag : Address) (deposit stake : ℕ) (p : StabilityPool) : StabilityPool :=
  { p with
    deposits := Function.update p.deposits a (if deposit = 0 then ⟨0, 0⟩ else ⟨deposit, tag⟩)
    depositSnapshots := Function.update p.depositSnapshots a
      (if deposit = 0 then Snapshots.deleted
        else snapshotsNow (p.epochToScaleToSum p.currentEpoch p.currentScale) p)
    frontEndStakes := Function.update p.frontEndStakes tag stake
    frontEndSnapshots := Function.update p.frontEndSnapshots tag
      (if stake = 0 then Snapshots.deleted else snapshotsNow (p.frontEndSnapshots tag).S p) }

/-- What a depositor function does after its issuance of MP: it pays all gains, compounds the
deposit and the stake of the front end, and books what comes in and what goes out. -/
structure Settlement (d : Deployment) (a tag : Address) (s s' : State) where
  compounded : ℕ
  stake : ℕ
  gain : ℕ
  depositorMP : ℕ
  frontEndMP : ℕ
  deposited : ℕ
  withdrawn : ℕ
  newDeposit : ℕ
  newStake : ℕ
  newTotal : ℕ
  newRBTC : ℕ
  tag_known : (s.stabilityPool.deposits a).initialValue ≠ 0 →
    tag = (s.stabilityPool.deposits a).frontEndTag
  tag_valid : (s.stabilityPool.deposits a).initialValue = 0 →
    (s.stabilityPool.frontEnds tag).registered = true ∨ tag = 0
  compounds : getCompoundedBPDDeposit a s = .ok compounded
  stakes : getCompoundedFrontEndStake tag s = .ok stake
  gains : getDepositorRBTCGain a s = .ok gain
  depositorMPs : getDepositorMPGain a s = .ok depositorMP
  frontEndMPs : tag = 0 ∧ frontEndMP = 0 ∨ tag ≠ 0 ∧ getFrontEndMPGain tag s = .ok frontEndMP
  deposit_eq : newDeposit + withdrawn = compounded + deposited
  stake_eq : newStake + withdrawn = stake + deposited
  total_eq : newTotal + withdrawn = s.stabilityPool.totalBPDDeposits + deposited
  RBTC_eq : newRBTC + gain = s.stabilityPool.RBTC
  pool : s'.stabilityPool = { restaked a tag newDeposit newStake s.stabilityPool with
    totalBPDDeposits := newTotal
    RBTC := newRBTC }
  communityIssuance : s'.communityIssuance = s.communityIssuance
  sent : s'.mpToken.balances d.communityIssuance + (frontEndMP + depositorMP) =
    s.mpToken.balances d.communityIssuance

theorem sendMP_effect (h : CommunityIssuance.sendMP d block a v s = .ok s') :
    ∃ t, s' = { s with mpToken := t } ∧
      t.balances d.communityIssuance + v = s.mpToken.balances d.communityIssuance := by
  simp only [CommunityIssuance.sendMP, MPToken.transfer, MPToken.requireValidRecipient, bind_ok,
    require_ok] at h
  obtain ⟨_, -, _, ⟨_, -, hvalid⟩, h⟩ := h
  obtain ⟨hle, rfl⟩ := MPToken._transfer_move h
  refine ⟨_, rfl, ?_⟩
  dsimp only
  rw [move_source hvalid.1.symm]
  exact Nat.sub_add_cancel hle

/-- The gains are paid from the MP of the issuance contract; nothing else changes. -/
theorem payOutMPGains_effect (h : payOutMPGains d block a frontEnd s = .ok s') :
    ∃ frontEndMP depositorMP t, s' = { s with mpToken := t } ∧
      (frontEnd = 0 ∧ frontEndMP = 0 ∨
        frontEnd ≠ 0 ∧ getFrontEndMPGain frontEnd s = .ok frontEndMP) ∧
      getDepositorMPGain a s = .ok depositorMP ∧
      t.balances d.communityIssuance + (frontEndMP + depositorMP) =
        s.mpToken.balances d.communityIssuance := by
  simp only [payOutMPGains, bind_ok, ite_pure_ok] at h
  obtain ⟨_, ⟨hfrontEnd, frontEndMP, hgain, hfront⟩ | ⟨hzero, rfl⟩, depositorMP, hdepositor, h⟩ := h
  · obtain ⟨t, rfl, ht⟩ := sendMP_effect hfront
    obtain ⟨u, rfl, hu⟩ := sendMP_effect h
    refine ⟨frontEndMP, depositorMP, u, rfl, .inr ⟨hfrontEnd, hgain⟩, hdepositor, ?_⟩
    dsimp only at hu
    omega
  · obtain ⟨u, rfl, hu⟩ := sendMP_effect h
    refine ⟨0, depositorMP, u, rfl, .inl ⟨not_not.mp hzero, rfl⟩, hdepositor, ?_⟩
    omega

theorem updateFrontEndStakeAndSnapshots_eq : updateFrontEndStakeAndSnapshots a v s =
    setFrontEndStake a v (if v = 0 then Snapshots.deleted
      else snapshotsNow (s.stabilityPool.frontEndSnapshots a).S s.stabilityPool) s := by
  unfold updateFrontEndStakeAndSnapshots
  split_ifs with hzero
  · rw [hzero]
  · rfl

theorem updateDepositAndSnapshots_eq : updateDepositAndSnapshots a v s =
    setDeposit a (if v = 0 then ⟨0, 0⟩ else ⟨v, (s.stabilityPool.deposits a).frontEndTag⟩)
      (if v = 0 then Snapshots.deleted
        else snapshotsNow (s.stabilityPool.epochToScaleToSum s.stabilityPool.currentEpoch
          s.stabilityPool.currentScale) s.stabilityPool) s := by
  unfold updateDepositAndSnapshots
  split_ifs
  · rfl
  · rfl

theorem sendBPDtoStabilityPool_effect (h : sendBPDtoStabilityPool d a v s = .ok s') :
    ∃ t, s' = { s with
      bpdToken := t
      stabilityPool := { s.stabilityPool with
        totalBPDDeposits := s.stabilityPool.totalBPDDeposits + v } } := by
  simp only [sendBPDtoStabilityPool, BPDToken.sendToPool, bind_ok, pure_ok, SafeMath.add_ok] at h
  obtain ⟨_, hmove, _, ⟨-, rfl⟩, rfl⟩ := h
  obtain ⟨-, -, -, rfl⟩ := BPDToken._transfer_ok hmove
  exact ⟨_, rfl⟩

theorem sendBPDToDepositor_effect (h : sendBPDToDepositor d a v s = .ok s') :
    v ≤ s.stabilityPool.totalBPDDeposits ∧ ∃ t, s' = { s with
      bpdToken := t
      stabilityPool := { s.stabilityPool with
        totalBPDDeposits := s.stabilityPool.totalBPDDeposits - v } } := by
  simp only [sendBPDToDepositor] at h
  split_ifs at h with hzero
  · subst hzero
    exact ⟨Nat.zero_le _, s.bpdToken, (pure_ok.mp h).symm⟩
  · simp only [BPDToken.returnFromPool, decreaseBPD, bind_ok, pure_ok, SafeMath.sub_ok] at h
    obtain ⟨_, hmove, _, ⟨hle, rfl⟩, rfl⟩ := h
    obtain ⟨-, -, -, rfl⟩ := BPDToken._transfer_ok hmove
    exact ⟨hle, _, rfl⟩

theorem takeRBTC_effect (h : takeRBTC v s = .ok s') : v ≤ s.stabilityPool.RBTC ∧
    s' = { s with stabilityPool := { s.stabilityPool with RBTC := s.stabilityPool.RBTC - v } } := by
  simp only [takeRBTC, bind_ok, pure_ok, SafeMath.sub_ok] at h
  obtain ⟨_, ⟨hle, rfl⟩, rfl⟩ := h
  exact ⟨hle, rfl⟩

theorem sendRBTCGainToDepositor_effect (h : sendRBTCGainToDepositor d a v s = .ok s') :
    v ≤ s.stabilityPool.RBTC ∧
      s'.pool = ({ s.stabilityPool with RBTC := s.stabilityPool.RBTC - v }, s.pool.2) := by
  simp only [sendRBTCGainToDepositor] at h
  split_ifs at h with hzero
  · subst hzero
    exact ⟨Nat.zero_le _, congrArg State.pool (pure_ok.mp h).symm⟩
  · simp only [bind_ok] at h
    obtain ⟨_, htake, h⟩ := h
    obtain ⟨hle, rfl⟩ := takeRBTC_effect htake
    exact ⟨hle, pool_of_aside (callWithValue_aside (.inr d.stabilityPool_ne_activePool) h)⟩

theorem tagDeposit_eq {tag : Address} : tagDeposit a tag s = setFrontEndTag a
    (if (s.stabilityPool.deposits a).initialValue = 0 then tag
      else (s.stabilityPool.deposits a).frontEndTag) s := by
  unfold tagDeposit
  split_ifs
  · rfl
  · unfold setFrontEndTag
    rw [Function.update_eq_self]

section

variable {tag : Address}

theorem getCompoundedBPDDeposit_tagged :
    getCompoundedBPDDeposit a (setFrontEndTag a tag s) = getCompoundedBPDDeposit a s := by
  unfold getCompoundedBPDDeposit setFrontEndTag
  simp only [Function.update_self]
  rfl

theorem getDepositorRBTCGain_tagged :
    getDepositorRBTCGain a (setFrontEndTag a tag s) = getDepositorRBTCGain a s := by
  unfold getDepositorRBTCGain setFrontEndTag
  simp only [Function.update_self]
  rfl

/-- The tag counts only where there is a deposit. -/
theorem getDepositorMPGain_tagged (htag : (s.stabilityPool.deposits a).initialValue ≠ 0 →
    tag = (s.stabilityPool.deposits a).frontEndTag) :
    getDepositorMPGain a (setFrontEndTag a tag s) = getDepositorMPGain a s := by
  unfold getDepositorMPGain setFrontEndTag
  simp only [Function.update_self]
  by_cases hzero : (s.stabilityPool.deposits a).initialValue = 0
  · rw [if_pos hzero, if_pos hzero]
  · rw [if_neg hzero, if_neg hzero, htag hzero]
    rfl

/-- What the three depositor functions have in common: after the reads the MP gains are paid, the
stake and the deposit are written, BPD moves, and the RBTC gain leaves. -/
theorem Settlement.of_calls {s₀ s₁ s₂ s₃ : State} {compounded gain stake deposited withdrawn
    newDeposit newStake : ℕ}
    (hvalid : (s.stabilityPool.deposits a).initialValue = 0 →
      (s.stabilityPool.frontEnds tag).registered = true ∨ tag = 0)
    (hknown : (s.stabilityPool.deposits a).initialValue ≠ 0 →
      tag = (s.stabilityPool.deposits a).frontEndTag)
    (hs₀ : s₀ = setFrontEndTag a tag s)
    (hcompounds : getCompoundedBPDDeposit a s₀ = .ok compounded)
    (hgain : getDepositorRBTCGain a s₀ = .ok gain)
    (hpay : payOutMPGains d block a tag s₀ = .ok s₁)
    (hstake : getCompoundedFrontEndStake tag s₁ = .ok stake)
    (hs₂ : ∃ t, s₂ = { updateFrontEndStakeAndSnapshots tag newStake s₁ with
      bpdToken := t
      stabilityPool := { (updateFrontEndStakeAndSnapshots tag newStake s₁).stabilityPool with
        totalBPDDeposits := s₁.stabilityPool.totalBPDDeposits + deposited - withdrawn } })
    (hwithdrawn : withdrawn ≤ s₁.stabilityPool.totalBPDDeposits + deposited)
    (hs₃ : s₃ = updateDepositAndSnapshots a newDeposit s₂)
    (hle : gain ≤ s₃.stabilityPool.RBTC)
    (hs' : s'.pool = ({ s₃.stabilityPool with RBTC := s₃.stabilityPool.RBTC - gain }, s₃.pool.2))
    (hnewDeposit : newDeposit + withdrawn = compounded + deposited)
    (hnewStake : newStake + withdrawn = stake + deposited) :
    Nonempty (Settlement d a tag s s') := by
  subst hs₀
  rw [getCompoundedBPDDeposit_tagged] at hcompounds
  rw [getDepositorRBTCGain_tagged] at hgain
  obtain ⟨frontEndMP, depositorMP, t, rfl, hfrontEnd, hdepositor, hsent⟩ :=
    payOutMPGains_effect hpay
  rw [getDepositorMPGain_tagged hknown] at hdepositor
  obtain ⟨u, rfl⟩ := hs₂
  rw [updateFrontEndStakeAndSnapshots_eq, updateDepositAndSnapshots_eq] at hs₃
  subst hs₃
  simp only [State.pool, Prod.mk.injEq] at hs'
  obtain ⟨hpool, hissuance, hmp⟩ := hs'
  refine ⟨⟨compounded, stake, gain, depositorMP, frontEndMP, deposited, withdrawn, newDeposit,
    newStake, _, _, hknown, hvalid, hcompounds, hstake, hgain, hdepositor, hfrontEnd, hnewDeposit,
    hnewStake, Nat.sub_add_cancel hwithdrawn, Nat.sub_add_cancel hle, ?_, hissuance, ?_⟩⟩
  · rw [hpool]
    simp only [setDeposit, setFrontEndStake, setFrontEndTag, restaked, Function.update_self,
      Function.update_idem]
    rfl
  · rw [hmp]
    exact hsent

end

theorem provideToSP_effect {tag : Address} (h : provideToSP d block a amount tag s = .ok s') :
    ∃ s₁, triggerMPIssuance block s = .ok s₁ ∧ Nonempty (Settlement d a
      (if (s₁.stabilityPool.deposits a).initialValue = 0 then tag
        else (s₁.stabilityPool.deposits a).frontEndTag) s₁ s') := by
  simp only [provideToSP, requireFrontEndIsRegisteredOrZero, bind_ok, require_ok,
    SafeMath.add_ok] at h
  obtain ⟨_, hregistered, _, -, _, -, s₁, hissue, gain, hgain, compounded, hcompounds, _, -, s₂,
    hpay, stake, hstake, _, ⟨-, rfl⟩, s₃, hsend, _, ⟨-, rfl⟩, hpaid⟩ := h
  obtain ⟨i⟩ := triggerMPIssuance_effect hissue
  have hfrontEnds : s₁.stabilityPool.frontEnds = s.stabilityPool.frontEnds := by rw [i.pool]
  rw [tagDeposit_eq] at hgain hcompounds hpay hstake hsend
  have htag (t : Address) :
      ((setFrontEndTag a t s₁).stabilityPool.deposits a).frontEndTag = t := by
    simp only [setFrontEndTag, Function.update_self]
  rw [htag] at hpay hstake hsend
  obtain ⟨u, hs₃⟩ := sendBPDtoStabilityPool_effect hsend
  obtain ⟨hle, hs'⟩ := sendRBTCGainToDepositor_effect hpaid
  refine ⟨s₁, hissue, Settlement.of_calls ?_ ?_ rfl hcompounds hgain hpay hstake ⟨u, hs₃.trans ?_⟩
    (Nat.zero_le _) rfl hle hs' (Nat.add_zero _) (Nat.add_zero _)⟩
  · intro hzero
    rw [if_pos hzero, hfrontEnds]
    exact hregistered
  · intro hdeposit
    rw [if_neg hdeposit]
  · rw [updateFrontEndStakeAndSnapshots_eq]
    rfl

theorem requireNoUnderCollateralizedVaults_pool
    (h : requireNoUnderCollateralizedVaults block s = .ok s') : s'.pool = s.pool := by
  obtain ⟨_, rfl⟩ := requireNoUnderCollateralizedVaults_ok h
  rfl

theorem withdrawFromSP_effect (h : withdrawFromSP d block a amount s = .ok s') :
    ∃ s₀ s₁, s₀.pool = s.pool ∧ triggerMPIssuance block s₀ = .ok s₁ ∧
      Nonempty (Settlement d a (s₁.stabilityPool.deposits a).frontEndTag s₁ s') := by
  simp only [withdrawFromSP, requireUserHasDeposit, bind_ok, require_ok, ite_pure_ok,
    SafeMath.sub_ok] at h
  obtain ⟨s₀, hprice, _, hdeposit, s₁, hissue, gain, hgain, compounded, hcompounds, _, -, s₂, hpay,
    stake, hstake, _, ⟨hleStake, rfl⟩, s₃, hsend, _, ⟨hleDeposit, rfl⟩, hpaid⟩ := h
  obtain ⟨i⟩ := triggerMPIssuance_effect hissue
  have hdeposits : s₁.stabilityPool.deposits = s₀.stabilityPool.deposits := by rw [i.pool]
  have hpool : s₀.pool = s.pool := by
    rcases hprice with ⟨-, hprice⟩ | ⟨-, rfl⟩
    · exact requireNoUnderCollateralizedVaults_pool hprice
    · rfl
  have hnonzero : (s₁.stabilityPool.deposits a).initialValue ≠ 0 := by
    rw [hdeposits]
    omega
  obtain ⟨hleTotal, u, hs₃⟩ := sendBPDToDepositor_effect hsend
  obtain ⟨hle, hs'⟩ := sendRBTCGainToDepositor_effect hpaid
  have htagged : s₁ = setFrontEndTag a (s₁.stabilityPool.deposits a).frontEndTag s₁ := by
    unfold setFrontEndTag
    rw [Function.update_eq_self]
  have hnewDeposit : compounded - min amount compounded + min amount compounded =
      compounded + 0 := Nat.sub_add_cancel hleDeposit
  have hnewStake : stake - min amount compounded + min amount compounded = stake + 0 :=
    Nat.sub_add_cancel hleStake
  refine ⟨s₀, s₁, hpool, hissue, Settlement.of_calls (fun hzero => absurd hzero hnonzero)
    (fun _ => rfl) htagged hcompounds hgain hpay hstake ⟨u, hs₃.trans ?_⟩ ?_ rfl hle hs'
    hnewDeposit hnewStake⟩
  · rw [updateFrontEndStakeAndSnapshots_eq]
    rfl
  · rw [updateFrontEndStakeAndSnapshots_eq] at hleTotal
    exact hleTotal

/-- The RBTC gain goes to the depositor's vault. It is not zero, so that no RBTC comes back. -/
theorem withdrawRBTCGainToVault_effect {upperHint lowerHint : Address}
    (h : withdrawRBTCGainToVault d block a upperHint lowerHint s = .ok s') :
    ∃ s₁, triggerMPIssuance block s = .ok s₁ ∧
      Nonempty (Settlement d a (s₁.stabilityPool.deposits a).frontEndTag s₁ s') := by
  simp only [withdrawRBTCGainToVault, requireUserHasDeposit, requireUserHasRBTCGain, bind_ok,
    require_ok] at h
  obtain ⟨_, hdeposit, _, -, _, ⟨gain₀, hgain₀, hpos⟩, s₁, hissue, gain, hgain, compounded,
    hcompounds, _, -, s₂, hpay, stake, hstake, s₃, htake, s₄, hsend, h⟩ := h
  obtain ⟨i⟩ := triggerMPIssuance_effect hissue
  have hsame : getDepositorRBTCGain a s₁ = getDepositorRBTCGain a s := by
    simp only [getDepositorRBTCGain, getRBTCGainFromSnapshots, i.pool]
  have hgainPos : gain ≠ 0 := by
    rw [hsame, hgain₀] at hgain
    obtain rfl : gain₀ = gain := by injection hgain
    omega
  have hnonzero : (s₁.stabilityPool.deposits a).initialValue ≠ 0 := by
    rw [i.pool]
    dsimp only
    omega
  have htagged : s₁ = setFrontEndTag a (s₁.stabilityPool.deposits a).frontEndTag s₁ := by
    unfold setFrontEndTag
    rw [Function.update_eq_self]
  obtain ⟨hle, rfl⟩ := takeRBTC_effect htake
  have hs' := BorrowerOperations.adjustVaultInternal_pool (fun hzero => absurd hzero hgainPos) h
  rw [pool_of_aside (transferRBTC_aside hsend)] at hs'
  have hnewDeposit : compounded + 0 = compounded + 0 := rfl
  have hnewStake : stake + 0 = stake + 0 := rfl
  refine ⟨s₁, hissue, Settlement.of_calls (fun hzero => absurd hzero hnonzero)
    (fun _ => rfl) htagged hcompounds hgain hpay hstake ⟨s₂.bpdToken, ?_⟩ (Nat.zero_le _) rfl hle
    hs' hnewDeposit hnewStake⟩
  rw [updateFrontEndStakeAndSnapshots_eq]
  rfl

end MoneyProtocol.StabilityPool
