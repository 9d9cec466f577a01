import MoneyProtocol.Pool.Compounding

/-!
# Compounded stakes only shrink

Every deposit and every stake of a front end took its snapshots in the past of the pool, and the
product has decayed since. So what is read of it never exceeds what was put in, and whoever waits
does not get more.
-/

namespace MoneyProtocol.StabilityPool

open Outcome

variable {d : Deployment} {P : Policy} {h h' : History}

/-- A deposit of `v` or a stake of `v` with its snapshots is stored in the pool. -/
def Stored (v : ℕ) (snap : Snapshots) (p : StabilityPool) : Prop :=
  v ≠ 0 ∧ ((∃ a, (p.deposits a).initialValue = v ∧ p.depositSnapshots a = snap) ∨
    ∃ f, p.frontEndStakes f = v ∧ p.frontEndSnapshots f = snap)

/-- What is stored took its snapshots in the past. -/
def Aged (p : StabilityPool) : Prop :=
  ∀ v snap, Stored v snap p → Decays (productThen snap) (productNow p)

/-- A depositor call stores what it keeps with the snapshots of now. -/
theorem Aged.restaked {p : StabilityPool} {a tag : Address} {deposit stake : ℕ} (hp : Aged p) :
    Aged (restaked a tag deposit stake p) := by
  have hnow : productNow (StabilityPool.restaked a tag deposit stake p) = productNow p := rfl
  intro v snap hstored
  rw [hnow]
  obtain ⟨hv, ⟨b, hvalue, hsnap⟩ | ⟨f, hvalue, hsnap⟩⟩ := hstored
  · unfold StabilityPool.restaked at hvalue hsnap
    by_cases hb : b = a
    · rw [hb] at hvalue hsnap
      simp only [Function.update_self] at hvalue hsnap
      by_cases hzero : deposit = 0
      · rw [if_pos hzero] at hvalue
        exact absurd hvalue.symm hv
      · rw [if_neg hzero] at hsnap
        rw [← hsnap]
        exact .refl _
    · simp only [Function.update_of_ne hb] at hvalue hsnap
      apply hp
      exact ⟨hv, .inl ⟨b, hvalue, hsnap⟩⟩
  · unfold StabilityPool.restaked at hvalue hsnap
    by_cases hf : f = tag
    · rw [hf] at hvalue hsnap
      simp only [Function.update_self] at hvalue hsnap
      have hstake : stake ≠ 0 := hvalue.trans_ne hv
      rw [if_neg hstake] at hsnap
      rw [← hsnap]
      exact .refl _
    · simp only [Function.update_of_ne hf] at hvalue hsnap
      apply hp
      exact ⟨hv, .inr ⟨f, hvalue, hsnap⟩⟩

theorem Aged.move (hs : Aged h.state.stabilityPool) (hmove : Move P d h h') :
    Aged h'.state.stabilityPool := by
  have hdecays := hmove.decays
  cases hmove with
  | issuance i =>
    rw [i.pool]
    exact hs
  | settlement _ e =>
    rw [e.pool]
    exact hs.restaked
  | registration _ _ hpool =>
    rw [hpool]
    exact hs
  | offset _ _ _ e =>
    intro v snap hstored
    rw [e.pool] at hstored
    exact (hs v snap hstored).trans hdecays
  | elsewhere hpool =>
    rw [hpool]
    exact hs

theorem Recorded.aged (hrecorded : Recorded P d h) : Aged h.state.stabilityPool := by
  apply hrecorded.invariant (I := fun h => Aged h.state.stabilityPool)
  · rintro g v snap ⟨hv, ⟨a, rfl, -⟩ | ⟨f, rfl, -⟩⟩
    · exact absurd rfl hv
    · exact absurd rfl hv
  · exact Aged.move

/-- What a stored stake has compounded to is no more than the stake, so that the loss can be
computed, and no more at any later time. -/
theorem compounded_only_shrinks (hrecorded : Recorded .any d h)
    (hlater : Relation.ReflTransGen (Event .any d) h h') {v c : ℕ} {snap : Snapshots}
    (hstored : Stored v snap h.state.stabilityPool)
    (hc : getCompoundedStakeFromSnapshots v snap h.state = .ok c) :
    c ≤ v ∧ SafeMath.sub v c = .ok (v - c) ∧
      ∀ c', getCompoundedStakeFromSnapshots v snap h'.state = .ok c' → c' ≤ c := by
  have hpast := hrecorded.aged v snap hstored
  rw [← getCompoundedStakeFromSnapshots_ok hc]
  have hle : compoundedStake v (productThen snap) (productNow h.state.stabilityPool) ≤ v :=
    compoundedStake_le_scaled.trans (scaledStake_le hpast)
  refine ⟨hle, SafeMath.sub_ok.mpr ⟨hle, rfl⟩, ?_⟩
  intro c' hc'
  rw [← getCompoundedStakeFromSnapshots_ok hc']
  exact compoundedStake_anti hpast (decays_of_events hlater)

/-- The deposit of 5000 BPD before and after an offset of 2210. -/
theorem compounded_only_shrinks_offset : ∃ s s' c c', Reachable testnet s ∧
    getCompoundedStakeFromSnapshots (5000 * 10 ^ 18) (s.stabilityPool.depositSnapshots 100) s =
      .ok c ∧
    getCompoundedStakeFromSnapshots (5000 * 10 ^ 18) (s.stabilityPool.depositSnapshots 100) s' =
      .ok c' ∧ c = 5000 * 10 ^ 18 ∧ c' ≠ c ∧ c' ≤ c := by
  let liquidation : Transaction := ⟨testBlock 44000, 105, 0, .liquidate 101⟩
  obtain ⟨s, s', hreach, hstep, hcheck⟩ := runsThen_reachable testnet testGenesis
    [⟨testBlock 60000, 100, 5 * 10 ^ 18, .openVault (10 ^ 16) (10000 * 10 ^ 18) 0 0⟩,
      ⟨testBlock 60000, 101, 55 * 10 ^ 15, .openVault (10 ^ 16) (2000 * 10 ^ 18) 0 0⟩,
      ⟨testBlock 60000, 100, 0, .provideToSP (5000 * 10 ^ 18) 0⟩] liquidation
    (fun s s' => decide ((s.stabilityPool.deposits 100).initialValue = 5000 * 10 ^ 18) &&
      succeeds (fun c => decide (c = 5000 * 10 ^ 18) && succeeds (fun c' => decide (c' ≠ c))
        (getCompoundedStakeFromSnapshots (5000 * 10 ^ 18)
          (s.stabilityPool.depositSnapshots 100) s'))
        (getCompoundedStakeFromSnapshots (5000 * 10 ^ 18)
          (s.stabilityPool.depositSnapshots 100) s))
    (by decide +kernel)
  rw [Bool.and_eq_true] at hcheck
  obtain ⟨hdeposit, hreads⟩ := hcheck
  obtain ⟨c, hc, hreads⟩ := exists_of_succeeds hreads
  rw [Bool.and_eq_true] at hreads
  obtain ⟨hbefore, hreads⟩ := hreads
  obtain ⟨c', hc', hafter⟩ := exists_of_succeeds hreads
  have hsigned : liquidation.Signed testnet := by decide +kernel
  obtain ⟨carry, sent, hrecorded⟩ := Recorded.of_reachable hreach
  obtain ⟨sent', hevents⟩ := transact_events (h := ⟨s, carry, sent⟩) hreach.balanced hsigned
    keptBy_any hstep
  have hstored : Stored (5000 * 10 ^ 18) (s.stabilityPool.depositSnapshots 100)
      s.stabilityPool := ⟨by decide, .inl ⟨100, of_decide_eq_true hdeposit, rfl⟩⟩
  have hshrinks := compounded_only_shrinks hrecorded hevents hstored hc
  exact ⟨s, s', c, c', hreach, hc, hc', of_decide_eq_true hbefore, of_decide_eq_true hafter,
    hshrinks.2.2 c' hc'⟩

end MoneyProtocol.StabilityPool
