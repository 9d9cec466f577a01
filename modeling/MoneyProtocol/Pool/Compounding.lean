import MoneyProtocol.Pool.Runs

/-!
# How stakes compound

A stake is read through the product `P` at the time of its snapshots and the product now. The
product only decays: a new epoch leaves nothing of the stakes before it, and a new scale raises
`P` by no more than the factor that the reading divides by.
-/

namespace MoneyProtocol.StabilityPool

open Outcome

variable {d : Deployment} {s : State} {q q' q'' : Product} {v c : ℕ} {snap : Snapshots}

/-- The product of the pool now. -/
def productNow (p : StabilityPool) : Product := ⟨p.P, p.currentScale, p.currentEpoch⟩

/-- The product at the time of the snapshots. -/
def productThen (snap : Snapshots) : Product := ⟨snap.P, snap.scale, snap.epoch⟩

/-- The later product is worth no more than the earlier one. -/
def Decays (q q' : Product) : Prop :=
  q.epoch < q'.epoch ∨ q.epoch = q'.epoch ∧ q.scale ≤ q'.scale ∧
    q'.P ≤ q.P * SCALE_FACTOR ^ (q'.scale - q.scale)

theorem Decays.refl (q : Product) : Decays q q := by
  right
  simp

theorem Decays.trans (h : Decays q q') (h' : Decays q' q'') : Decays q q'' := by
  rcases h with h | ⟨hepoch, hscale, hP⟩
  · left
    rcases h' with h' | ⟨hepoch', -⟩
    · exact h.trans h'
    · exact h.trans_eq hepoch'
  · rcases h' with h' | ⟨hepoch', hscale', hP'⟩
    · exact .inl (hepoch.trans_lt h')
    · refine .inr ⟨hepoch.trans hepoch', hscale.trans hscale', ?_⟩
      calc q''.P ≤ q'.P * SCALE_FACTOR ^ (q''.scale - q'.scale) := hP'
        _ ≤ q.P * SCALE_FACTOR ^ (q'.scale - q.scale) * SCALE_FACTOR ^ (q''.scale - q'.scale) :=
            Nat.mul_le_mul_right _ hP
        _ = q.P * SCALE_FACTOR ^ (q''.scale - q.scale) := by
            rw [Nat.mul_assoc, ← Nat.pow_add]
            congr 2
            omega

theorem updateProduct_decays {factor : ℕ} (hfactor : factor ≤ DECIMAL_PRECISION)
    (h : updateProduct factor q = .ok q') : Decays q q' := by
  have hshrinks : q.P * factor / DECIMAL_PRECISION ≤ q.P := by
    apply Nat.div_le_of_le_mul
    rw [Nat.mul_comm]
    exact Nat.mul_le_mul_right _ hfactor
  simp only [updateProduct] at h
  split_ifs at h
  · simp only [bind_ok, pure_ok, MoneypSafeMath128.add_ok] at h
    obtain ⟨_, ⟨-, rfl⟩, rfl⟩ := h
    exact .inl (Nat.lt_succ_self _)
  simp only [bind_ok, SafeMath.mul_ok, SafeMath.div_ok] at h
  obtain ⟨_, ⟨-, rfl⟩, _, ⟨-, rfl⟩, h⟩ := h
  right
  split_ifs at h
  · simp only [bind_ok, pure_ok, SafeMath.mul_ok, SafeMath.div_ok, MoneypSafeMath128.add_ok] at h
    obtain ⟨_, ⟨-, rfl⟩, _, ⟨-, rfl⟩, _, ⟨-, rfl⟩, rfl⟩ := h
    refine ⟨rfl, Nat.le_succ _, ?_⟩
    dsimp only
    rw [Nat.add_sub_cancel_left, pow_one]
    apply Nat.div_le_of_le_mul
    rw [← Nat.mul_assoc]
    apply Nat.mul_le_mul_right
    rw [Nat.mul_comm]
    exact Nat.mul_le_mul_right _ hfactor
  · obtain rfl := pure_ok.mp h
    refine ⟨rfl, le_rfl, ?_⟩
    dsimp only
    rw [Nat.sub_self, pow_zero, Nat.mul_one]
    exact hshrinks

variable {P : Policy} {h h' : History}

/-- The product of the pool decays in every history. -/
theorem Move.decays (hmove : Move P d h h') :
    Decays (productNow h.state.stabilityPool) (productNow h'.state.stabilityPool) := by
  unfold productNow
  cases hmove with
  | issuance i =>
    rw [i.pool]
    exact .refl _
  | settlement _ e =>
    rw [e.pool]
    exact .refl _
  | registration _ _ hpool =>
    rw [hpool]
    exact .refl _
  | offset _ _ _ e =>
    rw [e.pool]
    exact updateProduct_decays (Nat.sub_le _ _) e.products
  | elsewhere hpool =>
    rw [hpool]
    exact .refl _

theorem decays_of_events (hevents : Relation.ReflTransGen (Event P d) h h') :
    Decays (productNow h.state.stabilityPool) (productNow h'.state.stabilityPool) := by
  have hmoves : Moves P d h h' := by
    induction hevents with
    | refl => exact .refl
    | tail _ hevent ih => exact ih.trans hevent.moves
  clear hevents
  induction hmoves with
  | refl => exact .refl _
  | tail _ hmove ih => exact ih.trans hmove.decays

/-- What is left of a stake of `v` between the two products, before the cut-off. -/
def scaledStake (v : ℕ) (q q' : Product) : ℕ :=
  if q.epoch < q'.epoch ∨ 1 < q'.scale - q.scale then 0
  else v * q'.P / (q.P * SCALE_FACTOR ^ (q'.scale - q.scale))

/-- The same where it is a billionth of the stake or more. -/
def compoundedStake (v : ℕ) (q q' : Product) : ℕ :=
  if scaledStake v q q' < v / 10 ^ 9 then 0 else scaledStake v q q'

theorem getCompoundedStakeFromSnapshots_ok
    (h : getCompoundedStakeFromSnapshots v snap s = .ok c) :
    compoundedStake v (productThen snap) (productNow s.stabilityPool) = c := by
  unfold compoundedStake scaledStake productThen productNow
  simp only [getCompoundedStakeFromSnapshots] at h
  split_ifs at h with hepoch
  · simp only [if_pos (Or.inl hepoch)]
    rw [← pure_ok.mp h]
    split_ifs <;> rfl
  simp only [bind_ok, pure_ok, SafeMath.div_ok, MoneypSafeMath128.sub_ok, compoundStake] at h
  obtain ⟨_, ⟨hscale, rfl⟩, raw, hraw, _, ⟨-, rfl⟩, h⟩ := h
  have hvalue : (if snap.epoch < s.stabilityPool.currentEpoch ∨
      1 < s.stabilityPool.currentScale - snap.scale then 0
      else v * s.stabilityPool.P /
        (snap.P * SCALE_FACTOR ^ (s.stabilityPool.currentScale - snap.scale))) = raw := by
    split_ifs at hraw with hzero hone
    · simp only [bind_ok, SafeMath.mul_ok, SafeMath.div_ok] at hraw
      obtain ⟨_, ⟨-, rfl⟩, -, rfl⟩ := hraw
      rw [if_neg (by omega), hzero, pow_zero, Nat.mul_one]
    · simp only [bind_ok, SafeMath.mul_ok, SafeMath.div_ok] at hraw
      obtain ⟨_, ⟨-, rfl⟩, _, ⟨-, rfl⟩, -, rfl⟩ := hraw
      rw [if_neg (by omega), hone, pow_one, Nat.div_div_eq_div_mul]
    · rw [if_pos (by omega)]
      exact pure_ok.mp hraw
  simp only [hvalue]
  exact h

/-- A stake is worth no more than before. -/
theorem scaledStake_anti (h : Decays q q') (h' : Decays q' q'') :
    scaledStake v q q'' ≤ scaledStake v q q' := by
  unfold scaledStake
  by_cases hlost : q.epoch < q''.epoch ∨ 1 < q''.scale - q.scale
  · rw [if_pos hlost]
    exact Nat.zero_le _
  rw [not_or, not_lt, not_lt] at hlost
  obtain ⟨hepoch, hscale⟩ := hlost
  -- both products belong to the epoch of the stake
  rcases h with h | ⟨hsame, hle, -⟩
  · rcases h' with h' | ⟨hsame', -⟩ <;> omega
  rcases h' with h' | ⟨hsame', hle', hP'⟩
  · omega
  rw [if_neg (by omega), if_neg (by omega)]
  have hscales : q''.scale - q.scale = (q'.scale - q.scale) + (q''.scale - q'.scale) := by omega
  have hpos : 0 < SCALE_FACTOR ^ (q''.scale - q'.scale) := Nat.pow_pos (by decide)
  calc v * q''.P / (q.P * SCALE_FACTOR ^ (q''.scale - q.scale))
      ≤ v * (q'.P * SCALE_FACTOR ^ (q''.scale - q'.scale)) /
          (q.P * SCALE_FACTOR ^ (q''.scale - q.scale)) :=
        Nat.div_le_div_right (Nat.mul_le_mul_left _ hP')
    _ = v * q'.P / (q.P * SCALE_FACTOR ^ (q'.scale - q.scale)) := by
        rw [hscales, Nat.pow_add, ← Nat.mul_assoc, ← Nat.mul_assoc]
        exact Nat.mul_div_mul_right _ _ hpos

theorem scaledStake_le (h : Decays q q') : scaledStake v q q' ≤ v := by
  unfold scaledStake
  split_ifs with hlost
  · exact Nat.zero_le _
  rw [not_or, not_lt] at hlost
  rcases h with h | ⟨-, -, hP⟩
  · omega
  apply Nat.div_le_of_le_mul
  rw [Nat.mul_comm]
  exact Nat.mul_le_mul_right _ hP

theorem compoundedStake_le_scaled : compoundedStake v q q' ≤ scaledStake v q q' := by
  unfold compoundedStake
  split_ifs
  · exact Nat.zero_le _
  · exact le_rfl

/-- The cut-off respects the order. -/
theorem compoundedStake_anti (h : Decays q q') (h' : Decays q' q'') :
    compoundedStake v q q'' ≤ compoundedStake v q q' := by
  have hle : scaledStake v q q'' ≤ scaledStake v q q' := scaledStake_anti h h'
  unfold compoundedStake
  split_ifs <;> omega

end MoneyProtocol.StabilityPool
