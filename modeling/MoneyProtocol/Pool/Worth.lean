import MoneyProtocol.Pool.Compounding
import MoneyProtocol.Library.Shares
import Mathlib.Data.Nat.Cast.Order.Field

/-!
# What stakes are worth and are owed

The pool rounds wherever it reads a stake or a gain. Here both are exact fractions: a stake is
worth what was put in times the decay of the product, and is owed its share of every reward. What
the pool reads is never more.
-/

namespace MoneyProtocol.StabilityPool

open Outcome MoneypBase

variable {q q' q'' : Product} {v snapshot gain x : ℕ} {r : ℚ} {snap : Snapshots}
  {sums : ℕ → ℕ → ℕ}

/-- What is left of a stake of `v` between the two products, exactly. -/
def worth (v : ℕ) (q q' : Product) : ℚ :=
  if q.epoch < q'.epoch then 0 else v * q'.P / (q.P * SCALE_FACTOR ^ (q'.scale - q.scale))

theorem worth_nonneg : 0 ≤ worth v q q' := by
  unfold worth
  split_ifs
  · exact le_rfl
  · positivity

@[simp] theorem worth_zero : worth 0 q q' = 0 := by
  simp [worth]

/-- A stake that is written now is worth what was put in, unless the product has vanished. -/
theorem worth_self_le : worth v q q ≤ v := by
  unfold worth
  rw [if_neg (lt_irrefl _), Nat.sub_self, pow_zero, mul_one, mul_div_assoc]
  apply mul_le_of_le_one_right (Nat.cast_nonneg v)
  exact div_self_le_one _

theorem compoundedStake_le_worth : (compoundedStake v q q' : ℚ) ≤ worth v q q' := by
  have hscaled : (scaledStake v q q' : ℚ) ≤ worth v q q' := by
    unfold scaledStake
    split_ifs with hlost
    · rw [Nat.cast_zero]
      exact worth_nonneg
    · rw [not_or] at hlost
      unfold worth
      rw [if_neg hlost.1]
      refine Nat.cast_div_le.trans_eq ?_
      push_cast
      rfl
  have hle : (compoundedStake v q q' : ℚ) ≤ scaledStake v q q' := by
    exact_mod_cast compoundedStake_le_scaled
  exact hle.trans hscaled

/-- Between the products a loss has left no more than the part `r`. -/
def Shrinks (r : ℚ) (q q' : Product) : Prop :=
  q.epoch < q'.epoch ∨ q.epoch = q'.epoch ∧ q.scale ≤ q'.scale ∧
    (q'.P : ℚ) ≤ r * q.P * SCALE_FACTOR ^ (q'.scale - q.scale)

theorem updateProduct_shrinks {factor : ℕ} (h : updateProduct factor q = .ok q') :
    Shrinks (factor / DECIMAL_PRECISION) q q' := by
  simp only [updateProduct] at h
  split_ifs at h
  · simp only [bind_ok, pure_ok, MoneypSafeMath128.add_ok] at h
    obtain ⟨_, ⟨-, rfl⟩, rfl⟩ := h
    exact .inl (Nat.lt_succ_self _)
  simp only [bind_ok, SafeMath.mul_ok, SafeMath.div_ok] at h
  obtain ⟨_, ⟨-, rfl⟩, _, ⟨-, rfl⟩, h⟩ := h
  right
  split_ifs at h
  · simp only [bind_ok, pure_ok, SafeMath.mul_ok, SafeMath.div_ok, MoneypSafeMath128.add_ok] at h
    obtain ⟨_, ⟨-, rfl⟩, _, ⟨-, rfl⟩, _, ⟨-, rfl⟩, rfl⟩ := h
    refine ⟨rfl, Nat.le_succ _, ?_⟩
    dsimp only
    rw [Nat.add_sub_cancel_left, pow_one]
    refine Nat.cast_div_le.trans_eq ?_
    push_cast
    ring
  · obtain rfl := pure_ok.mp h
    refine ⟨rfl, le_rfl, ?_⟩
    dsimp only
    rw [Nat.sub_self, pow_zero, mul_one]
    refine Nat.cast_div_le.trans_eq ?_
    push_cast
    ring

/-- Every stake shrinks with the product. -/
theorem worth_shrinks (hr : 0 ≤ r) (hpast : v ≠ 0 → Decays q q') (h : Shrinks r q' q'') :
    worth v q q'' ≤ r * worth v q q' := by
  by_cases hv : v = 0
  · simp [hv]
  have hnonneg : 0 ≤ r * worth v q q' := mul_nonneg hr worth_nonneg
  by_cases hlost : q.epoch < q''.epoch
  · rw [worth, if_pos hlost]
    exact hnonneg
  -- both products belong to the epoch of the stake
  rcases hpast hv with hepoch | ⟨hepoch, hscale, -⟩
  · rcases h with hepoch' | ⟨hepoch', -⟩ <;> omega
  rcases h with hepoch' | ⟨hepoch', hscale', hP⟩
  · omega
  have hscales : q''.scale - q.scale = (q'.scale - q.scale) + (q''.scale - q'.scale) := by omega
  have hpos : (0 : ℚ) < SCALE_FACTOR ^ (q''.scale - q'.scale) := by
    apply pow_pos
    norm_num [SCALE_FACTOR]
  have hsame : ¬q.epoch < q'.epoch := by omega
  rw [worth, if_neg hlost, worth, if_neg hsame, hscales, pow_add, ← mul_assoc]
  calc (v : ℚ) * q''.P / (q.P * SCALE_FACTOR ^ (q'.scale - q.scale) *
        SCALE_FACTOR ^ (q''.scale - q'.scale))
      ≤ v * (r * q'.P * SCALE_FACTOR ^ (q''.scale - q'.scale)) /
          (q.P * SCALE_FACTOR ^ (q'.scale - q.scale) * SCALE_FACTOR ^ (q''.scale - q'.scale)) := by
        gcongr
    _ = v * (r * q'.P) / (q.P * SCALE_FACTOR ^ (q'.scale - q.scale)) := by
        rw [← mul_assoc]
        exact mul_div_mul_right _ _ hpos.ne'
    _ = r * (v * q'.P / (q.P * SCALE_FACTOR ^ (q'.scale - q.scale))) := by
        ring

/-- The rise of the sums that a stake with these snapshots reads. -/
def portions (snapshot : ℕ) (snap : Snapshots) (sums : ℕ → ℕ → ℕ) : ℚ :=
  (sums snap.epoch snap.scale - snapshot : ℕ) + sums snap.epoch (snap.scale + 1) / SCALE_FACTOR

/-- What a stake of `v` is owed, exactly. -/
def owed (v snapshot : ℕ) (snap : Snapshots) (sums : ℕ → ℕ → ℕ) : ℚ :=
  v * portions snapshot snap sums / snap.P / DECIMAL_PRECISION

theorem portions_nonneg : 0 ≤ portions snapshot snap sums := by
  unfold portions
  positivity

theorem owed_nonneg : 0 ≤ owed v snapshot snap sums := by
  have := @portions_nonneg snapshot snap sums
  unfold owed
  positivity

@[simp] theorem owed_zero : owed 0 snapshot snap sums = 0 := by
  simp [owed]

theorem gain_le_owed (h : gainFromSnapshots v snapshot snap sums = .ok gain) :
    (gain : ℚ) ≤ owed v snapshot snap sums := by
  simp only [gainFromSnapshots, bind_ok, SafeMath.sub_ok, SafeMath.div_ok, SafeMath.add_ok,
    SafeMath.mul_ok, MoneypSafeMath128.add_ok] at h
  obtain ⟨_, ⟨-, rfl⟩, _, ⟨-, rfl⟩, _, ⟨-, rfl⟩, _, ⟨-, rfl⟩, _, ⟨-, rfl⟩, _, ⟨-, rfl⟩, -, rfl⟩ := h
  have hportions : ((sums snap.epoch snap.scale - snapshot +
      sums snap.epoch (snap.scale + 1) / SCALE_FACTOR : ℕ) : ℚ) ≤ portions snapshot snap sums := by
    rw [Nat.cast_add]
    exact add_le_add_right Nat.cast_div_le _
  unfold owed
  refine Nat.cast_div_le.trans ?_
  gcongr
  refine Nat.cast_div_le.trans ?_
  rw [Nat.cast_mul]
  gcongr

/-- No sum has been written at a later epoch or scale. -/
def Blank (sums : ℕ → ℕ → ℕ) (q : Product) : Prop :=
  ∀ epoch scale, q.epoch < epoch ∨ q.epoch = epoch ∧ q.scale < scale → sums epoch scale = 0

theorem updateSum_of_ne {epoch scale epoch' scale' : ℕ}
    (hne : epoch' = epoch → scale' ≠ scale) :
    updateSum sums epoch scale x epoch' scale' = sums epoch' scale' := by
  unfold updateSum
  by_cases hepoch : epoch' = epoch
  · rw [hepoch, Function.update_self, Function.update_of_ne (hne hepoch)]
  · rw [Function.update_of_ne hepoch]

theorem updateSum_self {epoch scale : ℕ} : updateSum sums epoch scale x epoch scale = x := by
  unfold updateSum
  rw [Function.update_self, Function.update_self]

theorem Blank.update (h : Blank sums q) : Blank (updateSum sums q.epoch q.scale x) q := by
  intro epoch scale hlater
  rw [updateSum_of_ne (by omega)]
  exact h epoch scale hlater

theorem Blank.later (h : Blank sums q) (hdecays : Decays q q') : Blank sums q' := by
  intro epoch scale hlater
  apply h
  rcases hdecays with hepoch | ⟨hepoch, hscale, -⟩ <;> omega

/-- A reward of `x` for each unit staked raises what is owed by no more than what the stake is
worth. -/
theorem owed_raise (hpast : v ≠ 0 → Decays (productThen snap) q) :
    owed v snapshot snap (updateSum sums q.epoch q.scale (sums q.epoch q.scale + x * q.P)) ≤
      owed v snapshot snap sums + x / DECIMAL_PRECISION * worth v (productThen snap) q := by
  by_cases hv : v = 0
  · simp [hv]
  have hnonneg : 0 ≤ (x : ℚ) / DECIMAL_PRECISION * worth v (productThen snap) q :=
    mul_nonneg (by positivity) worth_nonneg
  by_cases hlost : snap.epoch < q.epoch
  · rw [owed, portions, updateSum_of_ne (by omega), updateSum_of_ne (by omega)]
    exact le_add_of_nonneg_right hnonneg
  rcases hpast hv with hepoch | ⟨hepoch, hscale, -⟩
  · exact absurd hepoch hlost
  have hepoch : snap.epoch = q.epoch := hepoch
  have hscale : snap.scale ≤ q.scale := hscale
  have hportions : portions snapshot snap
      (updateSum sums q.epoch q.scale (sums q.epoch q.scale + x * q.P)) ≤
        portions snapshot snap sums + x * q.P / SCALE_FACTOR ^ (q.scale - snap.scale) := by
    unfold portions
    rw [hepoch]
    by_cases hfirst : snap.scale = q.scale
    · -- the reward is read in the first portion
      rw [hfirst, updateSum_self, updateSum_of_ne (by omega), Nat.sub_self, pow_zero, div_one]
      have hsub : sums q.epoch q.scale + x * q.P - snapshot ≤
          sums q.epoch q.scale - snapshot + x * q.P := by omega
      have hcast : ((sums q.epoch q.scale + x * q.P - snapshot : ℕ) : ℚ) ≤
          (sums q.epoch q.scale - snapshot : ℕ) + x * q.P := by
        exact_mod_cast hsub
      linarith
    rw [updateSum_of_ne (by omega)]
    by_cases hsecond : snap.scale + 1 = q.scale
    · have hone : q.scale - snap.scale = 1 := by omega
      rw [hsecond, updateSum_self, hone, pow_one]
      push_cast
      rw [add_div, add_assoc]
    · -- two scales later nothing is read
      rw [updateSum_of_ne (by omega)]
      exact le_add_of_nonneg_right (by positivity)
  have hworth : worth v (productThen snap) q =
      v * q.P / (snap.P * SCALE_FACTOR ^ (q.scale - snap.scale)) := if_neg hlost
  rw [hworth]
  calc owed v snapshot snap (updateSum sums q.epoch q.scale (sums q.epoch q.scale + x * q.P))
      ≤ v * (portions snapshot snap sums + x * q.P / SCALE_FACTOR ^ (q.scale - snap.scale)) /
          snap.P / DECIMAL_PRECISION := by
        unfold owed
        gcongr
    _ = owed v snapshot snap sums + x / DECIMAL_PRECISION *
          (v * q.P / (snap.P * SCALE_FACTOR ^ (q.scale - snap.scale))) := by
        unfold owed
        ring

/-- A stake that is written now is owed nothing yet. -/
theorem owed_now {p : StabilityPool} {S : ℕ} (h : Blank sums (productNow p))
    (hsnapshot : sums p.currentEpoch p.currentScale ≤ snapshot) :
    owed v snapshot (snapshotsNow S p) sums = 0 := by
  have hnext : sums p.currentEpoch (p.currentScale + 1) = 0 :=
    h _ _ (.inr ⟨rfl, Nat.lt_succ_self _⟩)
  simp [owed, portions, snapshotsNow, hnext, Nat.sub_eq_zero_of_le hsnapshot]

end MoneyProtocol.StabilityPool
