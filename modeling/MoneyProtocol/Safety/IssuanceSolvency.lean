import MoneyProtocol.Safety.PoolSolvency
import MoneyProtocol.Safety.RedemptionHints
import Mathlib.Data.Fintype.Sum
import Mathlib.Algebra.BigOperators.Group.Finset.Basic

/-!
# The MP that is issued covers all gains

What is issued is shared out among the units of the deposits. The depositor has a claim to the
part that the front end kicks back, by the deposit; the front end to the rest, by its stake.
Deposits and stakes are compounded separately, but a depositor call changes them by the same
amount, so that together they never have a claim to more than all deposits: as long as the history
is solvent.
-/

namespace MoneyProtocol.StabilityPool

open Outcome MoneypBase Shares

variable {d : Deployment} {s s' : State} {h h' : History} {p : StabilityPool}
  {a b tag frontEnd : Address} {debt coll gain : ℕ}

/-- The part of the gains that the depositors under a tag keep; without a tag they keep all. -/
def kickback (p : StabilityPool) (tag : Address) : ℚ :=
  if tag = 0 then 1 else (p.frontEnds tag).kickbackRate / DECIMAL_PRECISION

/-- The units that count for a depositor (left) and for a front end (right). -/
def mpUnits (p : StabilityPool) : Address ⊕ Address → ℚ
  | .inl a => kickback p (p.deposits a).frontEndTag * depositWorth p a
  | .inr frontEnd => (1 - kickback p frontEnd) * stakeWorth p frontEnd

/-- The MP that is owed on a whole deposit, exactly. -/
def depositMP (p : StabilityPool) (a : Address) : ℚ :=
  owed (p.deposits a).initialValue (p.depositSnapshots a).G (p.depositSnapshots a)
    p.epochToScaleToG

/-- The MP that is owed on a whole stake, exactly. -/
def stakeMP (p : StabilityPool) (frontEnd : Address) : ℚ :=
  owed (p.frontEndStakes frontEnd) (p.frontEndSnapshots frontEnd).G
    (p.frontEndSnapshots frontEnd) p.epochToScaleToG

/-- What a depositor (left) and a front end (right) are owed, exactly. -/
def mpOwed (p : StabilityPool) : Address ⊕ Address → ℚ
  | .inl a => kickback p (p.deposits a).frontEndTag * depositMP p a
  | .inr frontEnd => (1 - kickback p frontEnd) * stakeMP p frontEnd

/-- The front ends have valid rates, and every tag is a registered front end or zero. -/
structure Tagged (p : StabilityPool) : Prop where
  rates : ∀ frontEnd, (p.frontEnds frontEnd).kickbackRate ≤ DECIMAL_PRECISION
  deposits : ∀ a, (p.deposits a).initialValue ≠ 0 →
    (p.frontEnds (p.deposits a).frontEndTag).registered = true ∨ (p.deposits a).frontEndTag = 0
  stakes : ∀ frontEnd, p.frontEndStakes frontEnd ≠ 0 →
    (p.frontEnds frontEnd).registered = true ∨ frontEnd = 0

theorem kickback_nonneg : 0 ≤ kickback p tag := by
  unfold kickback
  split_ifs
  · exact zero_le_one
  · positivity

theorem Tagged.kickback_le (hp : Tagged p) : kickback p tag ≤ 1 := by
  unfold kickback
  split_ifs
  · exact le_rfl
  · apply div_le_one_of_le₀ _ (Nat.cast_nonneg _)
    exact_mod_cast hp.rates tag

theorem Tagged.rest_nonneg (hp : Tagged p) : 0 ≤ 1 - kickback p tag :=
  sub_nonneg.mpr hp.kickback_le

theorem Tagged.owed_nonneg (hp : Tagged p) (k : Address ⊕ Address) : 0 ≤ mpOwed p k := by
  cases k with
  | inl a => exact mul_nonneg kickback_nonneg StabilityPool.owed_nonneg
  | inr frontEnd => exact mul_nonneg hp.rest_nonneg StabilityPool.owed_nonneg

/-- A rate and a gain are rounded down one after the other. -/
theorem rated_le {rate scaled : ℕ} {exact : ℚ} (hgain : (gain : ℚ) ≤ exact)
    (hscaled : rate * gain = scaled) :
    ((scaled / DECIMAL_PRECISION : ℕ) : ℚ) ≤ rate / DECIMAL_PRECISION * exact := by
  calc ((scaled / DECIMAL_PRECISION : ℕ) : ℚ) ≤ (scaled : ℚ) / DECIMAL_PRECISION :=
        Nat.cast_div_le
    _ = rate / DECIMAL_PRECISION * gain := by
        rw [← hscaled, Nat.cast_mul, mul_div_right_comm]
    _ ≤ rate / DECIMAL_PRECISION * exact := mul_le_mul_of_nonneg_left hgain (by positivity)

theorem depositorMPGain_le_owed (hgain : getDepositorMPGain a s = .ok gain) :
    (gain : ℚ) ≤ mpOwed s.stabilityPool (.inl a) := by
  simp only [getDepositorMPGain] at hgain
  split_ifs at hgain with hzero htag
  · rw [← pure_ok.mp hgain, Nat.cast_zero]
    exact mul_nonneg kickback_nonneg owed_nonneg
  · simp only [bind_ok, SafeMath.mul_ok, SafeMath.div_ok] at hgain
    obtain ⟨whole, hwhole, scaled, ⟨-, hscaled⟩, -, rfl⟩ := hgain
    have hunit : (DECIMAL_PRECISION : ℚ) ≠ 0 := by
      exact_mod_cast DECIMAL_PRECISION_pos.ne'
    have hrated := rated_le (gain_le_owed hwhole) hscaled
    rw [div_self hunit] at hrated
    rw [mpOwed, kickback, if_pos htag]
    exact hrated
  · simp only [bind_ok, SafeMath.mul_ok, SafeMath.div_ok] at hgain
    obtain ⟨whole, hwhole, scaled, ⟨-, hscaled⟩, -, rfl⟩ := hgain
    rw [mpOwed, kickback, if_neg htag]
    exact rated_le (gain_le_owed hwhole) hscaled

theorem Tagged.frontEndMPGain_le_owed (hp : Tagged s.stabilityPool) (hne : frontEnd ≠ 0)
    (hgain : getFrontEndMPGain frontEnd s = .ok gain) :
    (gain : ℚ) ≤ mpOwed s.stabilityPool (.inr frontEnd) := by
  simp only [getFrontEndMPGain] at hgain
  split_ifs at hgain with hzero
  · rw [← pure_ok.mp hgain, Nat.cast_zero]
    exact hp.owed_nonneg _
  · simp only [bind_ok, SafeMath.sub_ok, SafeMath.mul_ok, SafeMath.div_ok] at hgain
    obtain ⟨_, ⟨hrate, rfl⟩, whole, hwhole, scaled, ⟨-, hscaled⟩, -, rfl⟩ := hgain
    have hunit : (DECIMAL_PRECISION : ℚ) ≠ 0 := by
      exact_mod_cast DECIMAL_PRECISION_pos.ne'
    have hrated := rated_le (gain_le_owed hwhole) hscaled
    rw [Nat.cast_sub hrate, sub_div, div_self hunit] at hrated
    rw [mpOwed, kickback, if_neg hne]
    exact hrated

/-- An issuance owes each unit the same. -/
theorem IssuanceEffect.mpOwed_le (i : IssuanceEffect s s') (hp : Aged s.stabilityPool)
    (ht : Tagged s.stabilityPool) (k : Address ⊕ Address) :
    mpOwed s'.stabilityPool k ≤ mpOwed s.stabilityPool k +
      i.perUnit / DECIMAL_PRECISION * mpUnits s.stabilityPool k := by
  have hsums : s'.stabilityPool.epochToScaleToG = updateSum s.stabilityPool.epochToScaleToG
      (productNow s.stabilityPool).epoch (productNow s.stabilityPool).scale
      (s.stabilityPool.epochToScaleToG (productNow s.stabilityPool).epoch
        (productNow s.stabilityPool).scale + i.perUnit * (productNow s.stabilityPool).P) := by
    rw [i.pool]
    rfl
  cases k with
  | inl a =>
    have hraise : depositMP s'.stabilityPool a ≤ depositMP s.stabilityPool a +
        i.perUnit / DECIMAL_PRECISION * depositWorth s.stabilityPool a := by
      have hsame : depositMP s'.stabilityPool a = owed (s.stabilityPool.deposits a).initialValue
          (s.stabilityPool.depositSnapshots a).G (s.stabilityPool.depositSnapshots a)
          s'.stabilityPool.epochToScaleToG := by
        unfold depositMP
        rw [i.pool]
      rw [hsame, hsums]
      exact owed_raise hp.deposit
    have hkick : mpOwed s'.stabilityPool (.inl a) =
        kickback s.stabilityPool (s.stabilityPool.deposits a).frontEndTag *
          depositMP s'.stabilityPool a := by
      unfold mpOwed kickback
      rw [i.pool]
    rw [hkick]
    apply (mul_le_mul_of_nonneg_left hraise kickback_nonneg).trans_eq
    unfold mpOwed mpUnits
    ring
  | inr frontEnd =>
    have hraise : stakeMP s'.stabilityPool frontEnd ≤ stakeMP s.stabilityPool frontEnd +
        i.perUnit / DECIMAL_PRECISION * stakeWorth s.stabilityPool frontEnd := by
      have hsame : stakeMP s'.stabilityPool frontEnd =
        owed (s.stabilityPool.frontEndStakes frontEnd)
          (s.stabilityPool.frontEndSnapshots frontEnd).G
          (s.stabilityPool.frontEndSnapshots frontEnd) s'.stabilityPool.epochToScaleToG := by
        unfold stakeMP
        rw [i.pool]
      rw [hsame, hsums]
      exact owed_raise hp.stake
    have hkick : mpOwed s'.stabilityPool (.inr frontEnd) =
        (1 - kickback s.stabilityPool frontEnd) * stakeMP s'.stabilityPool frontEnd := by
      unfold mpOwed kickback
      rw [i.pool]
    rw [hkick]
    apply (mul_le_mul_of_nonneg_left hraise ht.rest_nonneg).trans_eq
    unfold mpOwed mpUnits
    ring

/-- A loss takes the same part of all units. -/
theorem OffsetEffect.mpUnits_le (e : OffsetEffect d debt coll s s') (hp : Aged s.stabilityPool)
    (ht : Tagged s.stabilityPool) (k : Address ⊕ Address) :
    mpUnits s'.stabilityPool k ≤
      remains s.stabilityPool debt * mpUnits s.stabilityPool k := by
  cases k with
  | inl a =>
    have hkick : mpUnits s'.stabilityPool (.inl a) =
        kickback s.stabilityPool (s.stabilityPool.deposits a).frontEndTag *
          depositWorth s'.stabilityPool a := by
      unfold mpUnits kickback
      rw [e.pool]
    rw [hkick]
    apply (mul_le_mul_of_nonneg_left (depositWorth_offset hp e) kickback_nonneg).trans_eq
    unfold mpUnits
    ring
  | inr frontEnd =>
    have hkick : mpUnits s'.stabilityPool (.inr frontEnd) =
        (1 - kickback s.stabilityPool frontEnd) * stakeWorth s'.stabilityPool frontEnd := by
      unfold mpUnits kickback
      rw [e.pool]
    rw [hkick]
    apply (mul_le_mul_of_nonneg_left (stakeWorth_offset hp e) ht.rest_nonneg).trans_eq
    unfold mpUnits
    ring

namespace Settlement

theorem kickback_eq (e : Settlement d a tag s s') :
    kickback s'.stabilityPool = kickback s.stabilityPool := by
  rw [e.pool]
  rfl

/-- Where there is a deposit, it is under the tag of the call. -/
theorem deposit_before (e : Settlement d a tag s s') :
    mpUnits s.stabilityPool (.inl a) =
        kickback s.stabilityPool tag * depositWorth s.stabilityPool a ∧
      mpOwed s.stabilityPool (.inl a) =
        kickback s.stabilityPool tag * depositMP s.stabilityPool a := by
  unfold mpUnits mpOwed
  by_cases hzero : (s.stabilityPool.deposits a).initialValue = 0
  · simp [depositWorth, depositMP, hzero]
  · rw [e.tag_known hzero]
    exact ⟨rfl, rfl⟩

theorem deposit_after (e : Settlement d a tag s s') :
    mpUnits s'.stabilityPool (.inl a) =
      kickback s.stabilityPool tag * depositWorth s'.stabilityPool a := by
  rw [mpUnits, e.kickback_eq]
  by_cases hzero : e.newDeposit = 0
  · have hworth : depositWorth s'.stabilityPool a = 0 := by
      rw [e.pool]
      simp [depositWorth, restaked, hzero]
    rw [hworth, mul_zero, mul_zero]
  · have htag : (s'.stabilityPool.deposits a).frontEndTag = tag := by
      rw [e.pool]
      simp [restaked, hzero]
    rw [htag]

/-- The deposit and the stake change together, each rounded down. -/
theorem mpUnits_le (e : Settlement d a tag s s') (ht : Tagged s.stabilityPool) :
    mpUnits s'.stabilityPool (.inl a) + mpUnits s'.stabilityPool (.inr tag) ≤
      mpUnits s.stabilityPool (.inl a) + mpUnits s.stabilityPool (.inr tag) + e.change := by
  have hdeposit : kickback s.stabilityPool tag * depositWorth s'.stabilityPool a ≤
      kickback s.stabilityPool tag * (depositWorth s.stabilityPool a + e.change) :=
    mul_le_mul_of_nonneg_left e.depositWorth_le kickback_nonneg
  have hstake : (1 - kickback s.stabilityPool tag) * stakeWorth s'.stabilityPool tag ≤
      (1 - kickback s.stabilityPool tag) * (stakeWorth s.stabilityPool tag + e.change) :=
    mul_le_mul_of_nonneg_left e.stakeWorth_le ht.rest_nonneg
  have hafter : mpUnits s'.stabilityPool (.inr tag) =
      (1 - kickback s.stabilityPool tag) * stakeWorth s'.stabilityPool tag := by
    rw [mpUnits, e.kickback_eq]
  have hbefore : mpUnits s.stabilityPool (.inr tag) =
      (1 - kickback s.stabilityPool tag) * stakeWorth s.stabilityPool tag := rfl
  rw [e.deposit_after, e.deposit_before.1, hafter, hbefore]
  linarith

/-- Nothing is owed to the two that were paid. -/
theorem paid (e : Settlement d a tag s s')
    (hblank : Blank s.stabilityPool.epochToScaleToG (productNow s.stabilityPool)) :
    mpOwed s'.stabilityPool (.inl a) = 0 ∧ mpOwed s'.stabilityPool (.inr tag) = 0 := by
  have hdeposit : depositMP s'.stabilityPool a = 0 := by
    rw [e.pool]
    unfold depositMP restaked
    simp only [Function.update_self]
    by_cases hzero : e.newDeposit = 0
    · simp only [if_pos hzero, owed_zero]
    · simp only [if_neg hzero]
      exact owed_now hblank le_rfl
  have hstake : stakeMP s'.stabilityPool tag = 0 := by
    rw [e.pool]
    unfold stakeMP restaked
    simp only [Function.update_self]
    by_cases hzero : e.newStake = 0
    · simp only [hzero, owed_zero]
    · simp only [if_neg hzero]
      exact owed_now hblank le_rfl
  rw [mpOwed, mpOwed, hdeposit, hstake, mul_zero, mul_zero]
  exact ⟨rfl, rfl⟩

/-- The two that are paid were owed at least that. -/
theorem paid_le (e : Settlement d a tag s s') (ht : Tagged s.stabilityPool) :
    (e.frontEndMP + e.depositorMP : ℚ) ≤
      mpOwed s.stabilityPool (.inl a) + mpOwed s.stabilityPool (.inr tag) := by
  have hdepositor := depositorMPGain_le_owed e.depositorMPs
  have hfrontEnd : (e.frontEndMP : ℚ) ≤ mpOwed s.stabilityPool (.inr tag) := by
    rcases e.frontEndMPs with ⟨-, hnone⟩ | ⟨hne, hgain⟩
    · rw [hnone, Nat.cast_zero]
      exact ht.owed_nonneg _
    · exact ht.frontEndMPGain_le_owed hne hgain
  linarith

/-- The others keep their units and their claims. -/
theorem others (e : Settlement d a tag s s') {k : Address ⊕ Address} (hdeposit : k ≠ .inl a)
    (hstake : k ≠ .inr tag) : mpUnits s'.stabilityPool k = mpUnits s.stabilityPool k ∧
      mpOwed s'.stabilityPool k = mpOwed s.stabilityPool k := by
  cases k with
  | inl b =>
    have hb : b ≠ a := fun heq => hdeposit (congrArg _ heq)
    have howed : depositMP s'.stabilityPool b = depositMP s.stabilityPool b := by
      rw [e.pool]
      unfold depositMP restaked
      simp only [Function.update_of_ne hb]
    have hsame : s'.stabilityPool.deposits b = s.stabilityPool.deposits b := by
      rw [e.pool]
      exact Function.update_of_ne hb _ _
    rw [mpUnits, mpUnits, mpOwed, mpOwed, e.kickback_eq, hsame, howed, e.depositWorth_of_ne hb]
    exact ⟨rfl, rfl⟩
  | inr frontEnd =>
    have hne : frontEnd ≠ tag := fun heq => hstake (congrArg _ heq)
    have howed : stakeMP s'.stabilityPool frontEnd = stakeMP s.stabilityPool frontEnd := by
      rw [e.pool]
      unfold stakeMP restaked
      simp only [Function.update_of_ne hne]
    rw [mpUnits, mpUnits, mpOwed, mpOwed, e.kickback_eq, howed, e.stakeWorth_of_ne hne]
    exact ⟨rfl, rfl⟩

theorem tagged (e : Settlement d a tag s s') (ht : Tagged s.stabilityPool) :
    Tagged s'.stabilityPool := by
  have hvalid : (s.stabilityPool.frontEnds tag).registered = true ∨ tag = 0 := by
    by_cases hzero : (s.stabilityPool.deposits a).initialValue = 0
    · exact e.tag_valid hzero
    · rw [e.tag_known hzero]
      exact ht.deposits a hzero
  rw [e.pool]
  refine ⟨ht.rates, ?_, ?_⟩
  · intro b hvalue
    unfold restaked at hvalue ⊢
    by_cases hb : b = a
    · rw [hb] at hvalue ⊢
      simp only [Function.update_self] at hvalue ⊢
      by_cases hzero : e.newDeposit = 0
      · simp [hzero] at hvalue
      · rw [if_neg hzero]
        exact hvalid
    · simp only [Function.update_of_ne hb] at hvalue ⊢
      exact ht.deposits b hvalue
  · intro frontEnd hvalue
    unfold restaked at hvalue
    by_cases hne : frontEnd = tag
    · rw [hne]
      exact hvalid
    · simp only [Function.update_of_ne hne] at hvalue
      exact ht.stakes frontEnd hvalue

end Settlement

/-- The pool after `a` has registered. -/
def registered (a : Address) (kickbackRate : ℕ) (p : StabilityPool) : StabilityPool :=
  { p with frontEnds := Function.update p.frontEnds a ⟨kickbackRate, true⟩ }

theorem Tagged.registered {kickbackRate : ℕ} (ht : Tagged p)
    (hrate : kickbackRate ≤ DECIMAL_PRECISION) : Tagged (registered a kickbackRate p) := by
  have hkept (tag : Address) (h : (p.frontEnds tag).registered = true ∨ tag = 0) :
      ((StabilityPool.registered a kickbackRate p).frontEnds tag).registered = true ∨ tag = 0 := by
    by_cases heq : tag = a
    · simp [StabilityPool.registered, heq]
    · unfold StabilityPool.registered
      simp only [Function.update_of_ne heq]
      exact h
  refine ⟨?_, ?_, ?_⟩
  · intro frontEnd
    by_cases heq : frontEnd = a
    · simp [StabilityPool.registered, heq, hrate]
    · unfold StabilityPool.registered
      simp only [Function.update_of_ne heq]
      exact ht.rates frontEnd
  · intro b hvalue
    exact hkept _ (ht.deposits b hvalue)
  · intro frontEnd hvalue
    exact hkept _ (ht.stakes frontEnd hvalue)

/-- Nothing is deposited under the tag of a new front end, so that no claim changes. -/
theorem Tagged.registered_same {kickbackRate : ℕ} (ht : Tagged p)
    (hnew : (p.frontEnds a).registered = false) :
    mpUnits (StabilityPool.registered a kickbackRate p) = mpUnits p ∧
      mpOwed (StabilityPool.registered a kickbackRate p) = mpOwed p := by
  have hkick (tag : Address) (hvalid : (p.frontEnds tag).registered = true ∨ tag = 0) :
      kickback (StabilityPool.registered a kickbackRate p) tag = kickback p tag := by
    unfold kickback
    split_ifs with hzero
    · rfl
    · have hne : tag ≠ a := by
        rintro rfl
        rw [hnew] at hvalid
        simp [hzero] at hvalid
      unfold StabilityPool.registered
      simp only [Function.update_of_ne hne]
  have hdeposit (b : Address) :
      mpUnits (StabilityPool.registered a kickbackRate p) (.inl b) = mpUnits p (.inl b) ∧
        mpOwed (StabilityPool.registered a kickbackRate p) (.inl b) = mpOwed p (.inl b) := by
    rw [mpUnits, mpUnits, mpOwed, mpOwed]
    by_cases hzero : (p.deposits b).initialValue = 0
    · simp [StabilityPool.registered, depositWorth, depositMP, hzero]
    · rw [← hkick _ (ht.deposits b hzero)]
      exact ⟨rfl, rfl⟩
  have hstake (frontEnd : Address) :
      mpUnits (StabilityPool.registered a kickbackRate p) (.inr frontEnd) =
          mpUnits p (.inr frontEnd) ∧
        mpOwed (StabilityPool.registered a kickbackRate p) (.inr frontEnd) =
          mpOwed p (.inr frontEnd) := by
    rw [mpUnits, mpUnits, mpOwed, mpOwed]
    by_cases hzero : p.frontEndStakes frontEnd = 0
    · simp [StabilityPool.registered, stakeWorth, stakeMP, hzero]
    · rw [hkick _ (ht.stakes frontEnd hzero)]
      exact ⟨rfl, rfl⟩
  constructor
  · funext k
    cases k with
    | inl b => exact (hdeposit b).1
    | inr frontEnd => exact (hstake frontEnd).1
  · funext k
    cases k with
    | inl b => exact (hdeposit b).2
    | inr frontEnd => exact (hstake frontEnd).2

/-- The claims to units are covered by the deposits, and the claims to MP by what has been
issued and not been sent. -/
structure Issuing (h : History) : Prop where
  aged : Aged h.state.stabilityPool
  carry : 0 ≤ h.carry
  tagged : Tagged h.state.stabilityPool
  blank : Blank h.state.stabilityPool.epochToScaleToG (productNow h.state.stabilityPool)
  units : Covered (mpUnits h.state.stabilityPool) (h.carry / DECIMAL_PRECISION)
    h.state.stabilityPool.totalBPDDeposits
  covered : Covered (mpOwed h.state.stabilityPool)
    (h.state.stabilityPool.lastMPError / DECIMAL_PRECISION)
    (h.state.communityIssuance.totalMPIssued - h.sent)
  capped : h.state.communityIssuance.totalMPIssued ≤ CommunityIssuance.MPSupplyCap

theorem Issuing.start (g : Genesis) : Issuing (History.start g) := by
  have hnone : (0 : ℚ) / DECIMAL_PRECISION ≤ 0 := (zero_div _).le
  refine ⟨(Solvent.start g).aged, le_rfl, ⟨fun _ => Nat.zero_le _, ?_, ?_⟩, fun _ _ _ => rfl,
    .none ?_ ?_, .none ?_ ?_, Nat.zero_le _⟩
  · intro a hvalue
    exact absurd rfl hvalue
  · intro frontEnd hvalue
    exact absurd rfl hvalue
  · intro k
    cases k with
    | inl a => exact (congrArg _ worth_zero).trans (mul_zero _)
    | inr frontEnd => exact (congrArg _ worth_zero).trans (mul_zero _)
  · exact hnone
  · intro k
    cases k with
    | inl a => exact (congrArg _ owed_zero).trans (mul_zero _)
    | inr frontEnd => exact (congrArg _ owed_zero).trans (mul_zero _)
  · simp [History.start, Genesis.state]

theorem Issuing.carry_nonneg (hs : Issuing h) : 0 ≤ h.carry / DECIMAL_PRECISION :=
  div_nonneg hs.carry (Nat.cast_nonneg _)

/-- What is issued is shared out among the units. -/
theorem Issuing.issuance (hs : Issuing h) (i : IssuanceEffect h.state s')
    (haged : Aged s'.stabilityPool) : Issuing { h with state := s' } := by
  have htotal : s'.stabilityPool.totalBPDDeposits = h.state.stabilityPool.totalBPDDeposits := by
    rw [i.pool]
  have hunits : mpUnits s'.stabilityPool = mpUnits h.state.stabilityPool := by
    rw [i.pool]
    rfl
  refine ⟨haged, hs.carry, ?_, ?_, ?_, ?_, i.capped⟩
  · rw [i.pool]
    exact ⟨hs.tagged.rates, hs.tagged.deposits, hs.tagged.stakes⟩
  · rw [i.pool]
    exact hs.blank.update
  · change Covered (mpUnits s'.stabilityPool) _ (s'.stabilityPool.totalBPDDeposits : ℚ)
    rw [hunits, htotal]
    exact hs.units
  · have hcovered := covered_reward hs.units hs.carry_nonneg hs.covered i.split
      (i.mpOwed_le hs.aged hs.tagged)
    have hissued : (h.state.communityIssuance.totalMPIssued : ℚ) - h.sent + i.issuance =
        s'.communityIssuance.totalMPIssued - h.sent := by
      rw [i.issued, Nat.cast_add]
      ring
    have herror : i.error = s'.stabilityPool.lastMPError := by rw [i.pool]
    rw [hissued, herror] at hcovered
    exact hcovered

/-- A depositor call pays out what it takes from the claims. -/
theorem Issuing.settlement (hs : Issuing h) (e : Settlement d a tag h.state s')
    (haged : Aged s'.stabilityPool) :
    Issuing ⟨s', h.carry, h.sent + (e.frontEndMP + e.depositorMP)⟩ := by
  have hne : (Sum.inl a : Address ⊕ Address) ≠ .inr tag := Sum.inl_ne_inr
  have hissuance : s'.communityIssuance = h.state.communityIssuance := e.communityIssuance
  refine ⟨haged, hs.carry, e.tagged hs.tagged, ?_, ?_, ?_, ?_⟩
  · rw [e.pool]
    exact hs.blank
  · have hunits := hs.units.change₂ hne (fun k hk hk' => (e.others hk hk').1)
      (e.mpUnits_le hs.tagged)
    rw [← e.total_change] at hunits
    exact hunits
  · have hpaid : mpOwed s'.stabilityPool (.inl a) + mpOwed s'.stabilityPool (.inr tag) ≤
        mpOwed h.state.stabilityPool (.inl a) + mpOwed h.state.stabilityPool (.inr tag) +
          -(e.frontEndMP + e.depositorMP : ℚ) := by
      obtain ⟨hdeposit, hstake⟩ := e.paid hs.blank
      have hle := e.paid_le hs.tagged
      rw [hdeposit, hstake]
      linarith
    have hcovered := hs.covered.change₂ hne (fun k hk hk' => (e.others hk hk').2) hpaid
    have hleft : (h.state.communityIssuance.totalMPIssued : ℚ) - h.sent +
        -(e.frontEndMP + e.depositorMP : ℚ) = s'.communityIssuance.totalMPIssued -
          (h.sent + (e.frontEndMP + e.depositorMP) : ℕ) := by
      rw [hissuance]
      push_cast
      ring
    have herror : h.state.stabilityPool.lastMPError = s'.stabilityPool.lastMPError := by
      rw [e.pool]
      rfl
    rw [hleft, herror] at hcovered
    exact hcovered
  · change s'.communityIssuance.totalMPIssued ≤ _
    rw [hissuance]
    exact hs.capped

/-- Nobody has a claim under a front end that was not registered. -/
theorem Issuing.registration {kickbackRate : ℕ} (hs : Issuing h)
    (hnew : (h.state.stabilityPool.frontEnds a).registered = false)
    (hrate : kickbackRate ≤ DECIMAL_PRECISION)
    (hpool : s'.stabilityPool = registered a kickbackRate h.state.stabilityPool)
    (hissuance : s'.communityIssuance = h.state.communityIssuance)
    (haged : Aged s'.stabilityPool) : Issuing { h with state := s' } := by
  have hsame : mpUnits (registered a kickbackRate h.state.stabilityPool) =
        mpUnits h.state.stabilityPool ∧
      mpOwed (registered a kickbackRate h.state.stabilityPool) =
        mpOwed h.state.stabilityPool := hs.tagged.registered_same hnew
  obtain ⟨hunits, howed⟩ := hsame
  refine ⟨haged, hs.carry, ?_, ?_, ?_, ?_, ?_⟩
  · rw [hpool]
    exact hs.tagged.registered hrate
  · rw [hpool]
    exact hs.blank
  · rw [hpool, hunits]
    exact hs.units
  · rw [hpool, howed, hissuance]
    exact hs.covered
  · rw [hissuance]
    exact hs.capped

/-- An offset takes units, and nothing that is owed. -/
theorem Issuing.offset (hs : Issuing h) (e : OffsetEffect d debt coll h.state s')
    (hcarry : 0 ≤ carryAfter debt h.carry h.state.stabilityPool)
    (htotal : h.state.stabilityPool.totalBPDDeposits ≠ 0) (hdebt : debt ≠ 0)
    (hdecays : Decays (productNow h.state.stabilityPool) (productNow s'.stabilityPool))
    (haged : Aged s'.stabilityPool) :
    Issuing ⟨s', carryAfter debt h.carry h.state.stabilityPool, h.sent⟩ := by
  have howed : mpOwed s'.stabilityPool = mpOwed h.state.stabilityPool := by
    rw [e.pool]
    rfl
  have herror : s'.stabilityPool.lastMPError = h.state.stabilityPool.lastMPError := by
    rw [e.pool]
  have hsums : s'.stabilityPool.epochToScaleToG = h.state.stabilityPool.epochToScaleToG := by
    rw [e.pool]
  refine ⟨haged, hcarry, ?_, ?_, ?_, ?_, ?_⟩
  · rw [e.pool]
    exact ⟨hs.tagged.rates, hs.tagged.deposits, hs.tagged.stakes⟩
  · change Blank s'.stabilityPool.epochToScaleToG _
    rw [hsums]
    exact hs.blank.later hdecays
  · exact covered_offset e htotal hdebt hs.units (e.mpUnits_le hs.aged hs.tagged)
  · change Covered (mpOwed s'.stabilityPool) (s'.stabilityPool.lastMPError / _) _
    rw [howed, herror, e.communityIssuance]
    exact hs.covered
  · rw [e.communityIssuance]
    exact hs.capped

theorem Issuing.elsewhere (hs : Issuing h) (hpool : s'.stabilityPool = h.state.stabilityPool)
    (hissuance : s'.communityIssuance = h.state.communityIssuance) :
    Issuing { h with state := s' } := by
  refine ⟨?_, hs.carry, ?_, ?_, ?_, ?_, ?_⟩
  · rw [hpool]
    exact hs.aged
  · rw [hpool]
    exact hs.tagged
  · rw [hpool]
    exact hs.blank
  · rw [hpool]
    exact hs.units
  · rw [hpool, hissuance]
    exact hs.covered
  · rw [hissuance]
    exact hs.capped

theorem Issuing.move (hs : Issuing h) (hmove : Move .solvent d h h') : Issuing h' := by
  have haged := hs.aged.move hmove
  have hdecays := hmove.decays
  cases hmove with
  | issuance i => exact hs.issuance i haged
  | settlement _ e => exact hs.settlement e haged
  | registration hnew hrate hpool hissuance =>
    exact hs.registration hnew hrate hpool hissuance haged
  | offset hkeeps htotal hdebt e => exact hs.offset e hkeeps htotal hdebt hdecays haged
  | elsewhere hpool hissuance => exact hs.elsewhere hpool hissuance

/-- In a solvent history the MP sent and all gains of depositors and front ends sum up to no more
than the MP issued, which is no more than the cap. -/
theorem issuance_solvent (hrecorded : Recorded .solvent d h)
    (depositorGain frontEndGain : Address → ℕ) (A frontEnds : Finset Address)
    (hdepositors : ∀ a ∈ A, getDepositorMPGain a h.state = .ok (depositorGain a))
    (hfrontEnds : ∀ a ∈ frontEnds, a ≠ 0 ∧ getFrontEndMPGain a h.state = .ok (frontEndGain a)) :
    h.sent + (∑ a ∈ A, depositorGain a + ∑ a ∈ frontEnds, frontEndGain a) ≤
        h.state.communityIssuance.totalMPIssued ∧
      h.state.communityIssuance.totalMPIssued ≤ CommunityIssuance.MPSupplyCap := by
  have hs : Issuing h := hrecorded.invariant Issuing.start Issuing.move
  have hslack : (0 : ℚ) ≤ h.state.stabilityPool.lastMPError / DECIMAL_PRECISION := by
    positivity
  have hclaims := hs.covered.sum_subset_le hslack hs.tagged.owed_nonneg (A := A.disjSum frontEnds)
  rw [Finset.sum_disjSum] at hclaims
  have hdepositor : ∑ a ∈ A, (depositorGain a : ℚ) ≤
      ∑ a ∈ A, mpOwed h.state.stabilityPool (.inl a) := by
    apply Finset.sum_le_sum
    intro a ha
    exact depositorMPGain_le_owed (hdepositors a ha)
  have hfrontEnd : ∑ a ∈ frontEnds, (frontEndGain a : ℚ) ≤
      ∑ a ∈ frontEnds, mpOwed h.state.stabilityPool (.inr a) := by
    apply Finset.sum_le_sum
    intro a ha
    exact hs.tagged.frontEndMPGain_le_owed (hfrontEnds a ha).1 (hfrontEnds a ha).2
  have hsum : (h.sent : ℚ) + (∑ a ∈ A, (depositorGain a : ℚ) +
      ∑ a ∈ frontEnds, (frontEndGain a : ℚ)) ≤ h.state.communityIssuance.totalMPIssued := by
    linarith
  refine ⟨?_, hs.capped⟩
  exact_mod_cast hsum

/-- A depositor and its front end share what is issued by the time of a liquidation. -/
theorem issuance_solvent_kickback : ∃ h depositorGain frontEndGain, Recorded .solvent testnet h ∧
    getDepositorMPGain 100 h.state = .ok depositorGain ∧ 0 < depositorGain ∧
      getFrontEndMPGain 104 h.state = .ok frontEndGain ∧ 0 < frontEndGain ∧
      h.sent + (depositorGain + frontEndGain) ≤ h.state.communityIssuance.totalMPIssued := by
  obtain ⟨s, carry, sent, hrecorded, hcheck⟩ := plays_recorded testnet testGenesis
    [⟨testBlock 60000, 100, 5 * 10 ^ 18, .openVault (10 ^ 16) (10000 * 10 ^ 18) 0 0⟩,
      ⟨testBlock 60000, 101, 55 * 10 ^ 15, .openVault (10 ^ 16) (2000 * 10 ^ 18) 0 0⟩,
      ⟨testBlock 60000, 104, 0, .registerFrontEnd (8 * 10 ^ 17)⟩,
      ⟨testBlock 60000, 100, 0, .provideToSP (7000 * 10 ^ 18) 104⟩,
      ⟨lateBlock 44000, 105, 0, .liquidate 101⟩]
    (keepsSolvent testnet) (fun _ _ _ => keptBy_of_keepsSolvent)
    (fun s _ => succeeds (fun gain => decide (0 < gain)) (getDepositorMPGain 100 s) &&
      succeeds (fun gain => decide (0 < gain)) (getFrontEndMPGain 104 s)) (by decide +kernel)
  rw [Bool.and_eq_true] at hcheck
  obtain ⟨depositorGain, hdepositor, hdepositorPos⟩ := exists_of_succeeds hcheck.1
  obtain ⟨frontEndGain, hfrontEnd, hfrontEndPos⟩ := exists_of_succeeds hcheck.2
  have hsum := issuance_solvent hrecorded (fun _ => depositorGain) (fun _ => frontEndGain) {100}
    {104} (by simpa using hdepositor) (by simpa using hfrontEnd)
  rw [Finset.sum_singleton, Finset.sum_singleton] at hsum
  exact ⟨_, depositorGain, frontEndGain, hrecorded, hdepositor, of_decide_eq_true hdepositorPos,
    hfrontEnd, of_decide_eq_true hfrontEndPos, hsum.1⟩

/-- MP that is issued to an overdrawn deposit: its gain exceeds everything issued. -/
theorem issuance_overdrawn : ∃ h gain, Reachable testnet h.state ∧ Recorded .any testnet h ∧
    getDepositorMPGain 100 h.state = .ok gain ∧
      h.state.communityIssuance.totalMPIssued < h.sent + gain := by
  obtain ⟨s, hreach, -, hcheck⟩ := runs_reachable testnet testGenesis
    (overdrawnRun ++ [⟨lateBlock 25, 105, 0, .liquidate 103⟩])
    (fun s => succeeds (fun gain => decide (s.communityIssuance.totalMPIssued < gain))
      (getDepositorMPGain 100 s)) (by decide +kernel)
  obtain ⟨gain, hgain, hlt⟩ := exists_of_succeeds hcheck
  obtain ⟨carry, sent, hrecorded⟩ := Recorded.of_reachable hreach
  have hlt : s.communityIssuance.totalMPIssued < gain := of_decide_eq_true hlt
  exact ⟨⟨s, carry, sent⟩, gain, hreach, hrecorded, hgain, hlt.trans_le (Nat.le_add_left _ _)⟩

end MoneyProtocol.StabilityPool
