import MoneyProtocol.Pool.FrontEnds
import MoneyProtocol.Safety.PoolSolvency

/-!
# A front end's stake covers the deposits under its tag

The stake is meant to be the sum of the deposits, so that every one of them can be withdrawn from
it. But each call of a depositor rounds the stake down by a fraction that the other deposits keep.
A history whose stakes can spare these fractions, and in which no stake is cut off before its
deposits, covers them in every state; two depositors and two liquidations suffice for one that does
not, and that keeps a depositor from its last wei.
-/

namespace MoneyProtocol.StabilityPool

open Outcome MoneypBase Shares

variable {d : Deployment} {h : History} {block : Block} {a tag : Address} {s : State}
  {amount : ℕ}

/-- What `withdrawFromSP` has read when it takes the withdrawal from the stake. -/
structure Withdrawal (d : Deployment) (block : Block) (a : Address) (amount : ℕ) (s : State) where
  checked : State
  issued : State
  paid : State
  compoundedBPDDeposit : ℕ
  compoundedFrontEndStake : ℕ
  checks : (if amount ≠ 0 then requireNoUnderCollateralizedVaults block s else pure s) = .ok checked
  issues : triggerMPIssuance block checked = .ok issued
  compounds : getCompoundedBPDDeposit a issued = .ok compoundedBPDDeposit
  pays : payOutMPGains d block a (issued.stabilityPool.deposits a).frontEndTag issued = .ok paid
  stakes : getCompoundedFrontEndStake (issued.stabilityPool.deposits a).frontEndTag paid =
    .ok compoundedFrontEndStake

/-- What comes before the subtraction changes neither the deposit nor the stake. -/
theorem Withdrawal.reads (w : Withdrawal d block a amount s) :
    w.compoundedBPDDeposit = ⌊depositLive s.stabilityPool a⌋₊ ∧
      w.compoundedFrontEndStake =
        ⌊stakeLive s.stabilityPool (s.stabilityPool.deposits a).frontEndTag⌋₊ := by
  have hchecked : w.checked.stabilityPool = s.stabilityPool := by
    rcases ite_pure_ok.mp w.checks with ⟨-, hchecks⟩ | ⟨-, hsame⟩
    · exact congrArg Prod.fst (requireNoUnderCollateralizedVaults_pool hchecks)
    · exact congrArg State.stabilityPool hsame.symm
  obtain ⟨i⟩ := triggerMPIssuance_effect w.issues
  obtain ⟨_, _, t, hpaid, -⟩ := payOutMPGains_effect w.pays
  have hdeposit : depositLive w.issued.stabilityPool a = depositLive s.stabilityPool a := by
    rw [i.pool, hchecked]
    rfl
  have hstake (frontEnd : Address) :
      stakeLive w.paid.stabilityPool frontEnd = stakeLive s.stabilityPool frontEnd := by
    rw [hpaid, i.pool, hchecked]
    rfl
  have htag : (w.issued.stabilityPool.deposits a).frontEndTag =
      (s.stabilityPool.deposits a).frontEndTag := by
    rw [i.deposits, hchecked]
  constructor
  · rw [compoundedDeposit_eq_floor w.compounds, hdeposit]
  · rw [compoundedFrontEndStake_eq_floor w.stakes, hstake, htag]

/-- In a covering history the compounded deposits under a tag sum up to no more than the compounded
stake, and no withdrawal underflows it. -/
theorem stakes_cover_deposits (hrecorded : Recorded .covering d h) :
    (∀ (tag : Address) (stake : ℕ) (compounded : Address → ℕ) (A : Finset Address),
      getCompoundedFrontEndStake tag h.state = .ok stake →
        (∀ a ∈ A, (h.state.stabilityPool.deposits a).frontEndTag = tag ∧
          getCompoundedBPDDeposit a h.state = .ok (compounded a)) →
          ∑ a ∈ A, compounded a ≤ stake) ∧
      ∀ (block : Block) (a : Address) (amount : ℕ) (w : Withdrawal d block a amount h.state),
        ∃ left, SafeMath.sub w.compoundedFrontEndStake (min amount w.compoundedBPDDeposit) =
          .ok left := by
  have hs := hrecorded.stakesCover
  constructor
  · intro tag stake compounded A hstake hA
    have hread : ∀ a ∈ A, (compounded a : ℚ) ≤ taggedLive h.state.stabilityPool tag a := by
      intro a ha
      obtain ⟨htag, hc⟩ := hA a ha
      rw [depositLive_of_tag htag, compoundedDeposit_eq_floor hc]
      exact Nat.floor_le live_nonneg
    have hsum : ((∑ a ∈ A, compounded a : ℕ) : ℚ) ≤ stakeLive h.state.stabilityPool tag := by
      rw [Nat.cast_sum]
      exact (Finset.sum_le_sum hread).trans (hs.sum_le A)
    rw [compoundedFrontEndStake_eq_floor hstake]
    exact Nat.le_floor hsum
  · intro block a amount w
    obtain ⟨hdeposit, hstake⟩ := w.reads
    have hsub : min amount w.compoundedBPDDeposit ≤ w.compoundedFrontEndStake := by
      apply (min_le_right _ _).trans
      rw [hdeposit, hstake]
      exact Nat.floor_le_floor hs.depositLive_le
    exact ⟨_, SafeMath.sub_ok.mpr ⟨hsub, rfl⟩⟩

/-- A depositor call whose stake loses no larger fraction than its deposit. -/
def roundsEvenly (p : StabilityPool) (a tag : Address) : Bool :=
  decide (Int.fract (stakeLive p tag) ≤ Int.fract (depositLive p a))

/-- An opening, a registration, a depositor call that rounds evenly, or a liquidation that does not
change the scale. -/
def keepsCovering (d : Deployment) (t : Transaction) (s : State) (_ : ℚ) : Bool :=
  let p := s.stabilityPool
  match t.operation with
  | .openVault _ _ _ _ | .registerFrontEnd _ => true
  | .provideToSP _ frontEndTag => roundsEvenly p t.sender (tagAfter t.sender frontEndTag p)
  | .withdrawFromSP _ => roundsEvenly p t.sender (p.deposits t.sender).frontEndTag
  | .liquidate _ => match t.liquidationLoop d s with
    | .ok l => succeeds (fun q => decide (SCALE_FACTOR ≤ q.P ∧ q.scale = 0))
      (updateProduct (DECIMAL_PRECISION - lossPerUnit p l.totals.totalDebtToOffset)
        (productNow p))
    | .error _ => true
  | _ => false

theorem settle_of_roundsEvenly (hrecorded : Recorded .covering d h)
    (heven : roundsEvenly h.state.stabilityPool a tag = true) :
    Policy.covering.settle a tag h.state.stabilityPool :=
  (of_decide_eq_true heven).trans (le_add_of_nonneg_right hrecorded.stakesCover.spare_nonneg)

theorem keptBy_of_keepsCovering {t : Transaction} (hrecorded : Recorded .covering d h)
    (hkeeps : keepsCovering d t h.state h.carry = true) : KeptBy .covering d t h := by
  obtain ⟨block, sender, value, operation⟩ := t
  unfold keepsCovering at hkeeps
  dsimp only at hkeeps
  cases operation with
  | openVault =>
    intro l hl
    contradiction
  | registerFrontEnd =>
    intro l hl
    contradiction
  | provideToSP => exact settle_of_roundsEvenly hrecorded hkeeps
  | withdrawFromSP => exact settle_of_roundsEvenly hrecorded hkeeps
  | liquidate borrower =>
    intro l hl
    dsimp only at hkeeps
    rw [hl] at hkeeps
    obtain ⟨q, hq, hbounds⟩ := exists_of_succeeds hkeeps
    obtain ⟨hP, hscale⟩ := of_decide_eq_true hbounds
    intro q' hq' tag hcutOff
    obtain rfl : q = q' := Except.ok.inj (hq.symm.trans hq')
    by_cases hstake : h.state.stabilityPool.frontEndStakes tag = 0
    · rw [hstake] at hcutOff
      exact absurd hcutOff.1 (by simp [scaledStake])
    · exact absurd hcutOff (not_cutOff (hrecorded.bounded.snapshots tag hstake) hP hscale)
  | _ => contradiction

/-- Two depositors of the front end 104 lose a part of their deposits, and one of them withdraws. -/
def coveredRun : List Transaction :=
  [⟨testBlock 60000, 100, 5 * 10 ^ 18, .openVault (10 ^ 16) (10000 * 10 ^ 18) 0 0⟩,
    ⟨testBlock 60000, 101, 55 * 10 ^ 15, .openVault (10 ^ 16) (2000 * 10 ^ 18) 0 0⟩,
    ⟨testBlock 60000, 103, 95 * 10 ^ 18, .openVault (10 ^ 16) (2000 * 10 ^ 18) 0 0⟩,
    ⟨testBlock 60000, 104, 0, .registerFrontEnd (8 * 10 ^ 17)⟩,
    ⟨testBlock 60000, 100, 0, .provideToSP (7000 * 10 ^ 18) 104⟩,
    ⟨testBlock 60000, 103, 0, .provideToSP (1000 * 10 ^ 18) 104⟩,
    ⟨testBlock 44000, 105, 0, .liquidate 101⟩,
    ⟨testBlock 44000, 103, 0, .withdrawFromSP (200 * 10 ^ 18)⟩]

/-- The deposit of 103 is rounded down by a fraction that the deposit of 100 keeps. -/
def uncoveredRun : List Transaction :=
  [⟨testBlock 60000, 100, 5 * 10 ^ 18, .openVault (10 ^ 16) (10000 * 10 ^ 18) 0 0⟩,
    ⟨testBlock 60000, 101, 55 * 10 ^ 15, .openVault (10 ^ 16) (2000 * 10 ^ 18) 0 0⟩,
    ⟨testBlock 60000, 102, 55 * 10 ^ 15, .openVault (10 ^ 16) (2000 * 10 ^ 18) 0 0⟩,
    ⟨testBlock 60000, 103, 95 * 10 ^ 18, .openVault (10 ^ 16) (2000 * 10 ^ 18) 0 0⟩,
    ⟨testBlock 60000, 100, 0, .provideToSP (7000 * 10 ^ 18 + 5) 0⟩,
    ⟨testBlock 44000, 105, 0, .liquidate 101⟩,
    ⟨testBlock 44000, 103, 0, .provideToSP (1000 * 10 ^ 18 + 6) 0⟩,
    ⟨testBlock 44000, 105, 0, .liquidate 102⟩,
    ⟨testBlock 44000, 103, 0, .withdrawFromSP (2000 * 10 ^ 18)⟩]

/-- After the loss and the withdrawal both deposits are covered. -/
theorem stakes_cover_deposits_withdrawn : ∃ h stake c c', Recorded .covering testnet h ∧
    getCompoundedFrontEndStake 104 h.state = .ok stake ∧
      getCompoundedBPDDeposit 100 h.state = .ok c ∧ 0 < c ∧
      getCompoundedBPDDeposit 103 h.state = .ok c' ∧ 0 < c' ∧ c + c' ≤ stake := by
  obtain ⟨s, carry, sent, hrecorded, hcheck⟩ := plays_recorded testnet testGenesis coveredRun
    (keepsCovering testnet) (fun _ _ => keptBy_of_keepsCovering)
    (fun s _ => decide ((s.stabilityPool.deposits 100).frontEndTag = 104 ∧
      (s.stabilityPool.deposits 103).frontEndTag = 104) &&
        succeeds (fun _ => true) (getCompoundedFrontEndStake 104 s) &&
        succeeds (fun c => decide (0 < c)) (getCompoundedBPDDeposit 100 s) &&
        succeeds (fun c => decide (0 < c)) (getCompoundedBPDDeposit 103 s)) (by decide +kernel)
  simp only [Bool.and_eq_true, decide_eq_true_eq] at hcheck
  obtain ⟨⟨⟨⟨htag, htag'⟩, hstake⟩, hc⟩, hc'⟩ := hcheck
  obtain ⟨stake, hstake, -⟩ := exists_of_succeeds hstake
  obtain ⟨c, hc, hpos⟩ := exists_of_succeeds hc
  obtain ⟨c', hc', hpos'⟩ := exists_of_succeeds hc'
  have hsum := (stakes_cover_deposits hrecorded).1 104 stake (fun a => if a = 100 then c else c')
    {100, 103} hstake (by simp [htag, htag', hc, hc'])
  rw [Finset.sum_pair (by decide)] at hsum
  exact ⟨_, stake, c, c', hrecorded, hstake, hc, of_decide_eq_true hpos, hc',
    of_decide_eq_true hpos', hsum⟩

/-- The stake has compounded to one wei less than the only deposit under its tag, which cannot be
withdrawn in full. -/
theorem stake_below_deposit : ∃ h stake, Reachable testnet h.state ∧ Recorded .any testnet h ∧
    getCompoundedFrontEndStake 0 h.state = .ok stake ∧
      (h.state.stabilityPool.deposits 100).frontEndTag = 0 ∧
      getCompoundedBPDDeposit 100 h.state = .ok (stake + 1) ∧
      transact testnet ⟨testBlock 44000, 100, 0, .withdrawFromSP (stake + 1)⟩ h.state =
        .error (.revert "SafeMath: subtraction overflow") := by
  obtain ⟨s, hreach, -, hcheck⟩ := runs_reachable testnet testGenesis uncoveredRun
    (fun s => decide ((s.stabilityPool.deposits 100).frontEndTag = 0) &&
      succeeds (fun stake => succeeds (fun c => decide (c = stake + 1))
        (getCompoundedBPDDeposit 100 s) && failsWith (.revert "SafeMath: subtraction overflow")
          (transact testnet ⟨testBlock 44000, 100, 0, .withdrawFromSP (stake + 1)⟩ s))
        (getCompoundedFrontEndStake 0 s)) (by decide +kernel)
  rw [Bool.and_eq_true] at hcheck
  obtain ⟨htag, hreads⟩ := hcheck
  obtain ⟨stake, hstake, hreads⟩ := exists_of_succeeds hreads
  rw [Bool.and_eq_true] at hreads
  obtain ⟨hdeposit, hfails⟩ := hreads
  obtain ⟨c, hc, heq⟩ := exists_of_succeeds hdeposit
  obtain rfl : c = stake + 1 := of_decide_eq_true heq
  obtain ⟨carry, sent, hrecorded⟩ := Recorded.of_reachable hreach
  exact ⟨⟨s, carry, sent⟩, stake, hreach, hrecorded, hstake, of_decide_eq_true htag, hc,
    eq_error_of_failsWith hfails⟩

end MoneyProtocol.StabilityPool
