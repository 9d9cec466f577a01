import MoneyProtocol.Accounting.SteadyDecay
import MoneyProtocol.Book.Runs

/-!
# Activity and the decay of the base rate

The base rate decays by whole minutes, and every decay that comes a minute or more after the last
one starts the clock anew. The seconds beyond the whole minutes are lost then: where they add up
to a minute, the base rate stays higher than it would have been without the calls. Where no minute
is lost, only the roundings of the decay factors remain.
-/

namespace MoneyProtocol

open Outcome

namespace VaultManager

variable {s s' direct : State} {block last : Block} {blocks : List Block} {r₀ m i t calls : ℕ}

/-- Decays one after the other. -/
def decayBaseRates : List Block → State → Outcome State
  | [], s => return s
  | block :: blocks, s => do
    let s ← decayBaseRateFromBorrowing block s
    decayBaseRates blocks s

/-- The whole minutes that decays at these times are given credit for. -/
def creditedMinutes (lastFeeOperationTime : ℕ) : List ℕ → ℕ
  | [] => 0
  | t :: times => (t - lastFeeOperationTime) / SECONDS_IN_ONE_MINUTE +
      creditedMinutes (nextFeeOpTime lastFeeOperationTime t) times

/-- The rates at which a unit for each of so many decays covers the roundings of their factors.
One decay takes a single factor; many spread the error of the last one. -/
def RateAllows (rate calls : ℕ) : Prop :=
  calls = 1 ∨ rate * (2 * calls + 3) ≤ 2 * calls * DECIMAL_PRECISION

theorem decayBaseRateFromBorrowing_rate (h : decayBaseRateFromBorrowing block s = .ok s') :
    s.vaultManager.lastFeeOperationTime ≤ block.timestamp ∧
      s'.vaultManager.baseRate = s.vaultManager.baseRate *
        decayFactor ((block.timestamp - s.vaultManager.lastFeeOperationTime) /
          SECONDS_IN_ONE_MINUTE) / DECIMAL_PRECISION ∧
      s'.vaultManager.lastFeeOperationTime =
        nextFeeOpTime s.vaultManager.lastFeeOperationTime block.timestamp := by
  simp only [decayBaseRateFromBorrowing, bind_ok] at h
  obtain ⟨rate, hrate, _, -, hupdate⟩ := h
  obtain ⟨hle, rfl⟩ := calcDecayedBaseRate_ok hrate
  obtain rfl := updateLastFeeOpTime_eq hupdate
  exact ⟨hle, rfl, rfl⟩

/-- A decay of a rate of at most one succeeds. -/
theorem exists_decayBaseRateFromBorrowing
    (hcap : s.vaultManager.baseRate ≤ DECIMAL_PRECISION)
    (hle : s.vaultManager.lastFeeOperationTime ≤ block.timestamp) :
    ∃ s', decayBaseRateFromBorrowing block s = .ok s' := by
  have hrate : s.vaultManager.baseRate *
      decayFactor ((block.timestamp - s.vaultManager.lastFeeOperationTime) / 60) /
        DECIMAL_PRECISION ≤ DECIMAL_PRECISION := by
    apply (Nat.div_le_of_le_mul ?_).trans hcap
    rw [Nat.mul_comm]
    exact Nat.mul_le_mul_right _ decayFactor_le
  simp only [decayBaseRateFromBorrowing, calcDecayedBaseRate_eq hcap hle, updateLastFeeOpTime,
    bind_ok, assert_ok, SafeMath.sub_ok, Except.ok.injEq]
  by_cases hminute : block.timestamp - s.vaultManager.lastFeeOperationTime ≥ SECONDS_IN_ONE_MINUTE
  · exact ⟨_, _, rfl, (), hrate, _, ⟨hle, rfl⟩, if_pos hminute⟩
  · exact ⟨_, _, rfl, (), hrate, _, ⟨hle, rfl⟩, if_neg hminute⟩

/-- What a decay does to a rate that is `i` units above the steady decay of `r₀` by `m` minutes. -/
theorem decay_step {r r' minutes : ℕ}
    (hrate : (r * DECIMAL_PRECISION : ℚ) ≤ r₀ * (DECIMAL_PRECISION * steadyDecay ^ m + i))
    (hr' : r' = r * decayFactor minutes / DECIMAL_PRECISION) :
    (r' * DECIMAL_PRECISION : ℚ) ≤
      r₀ * (DECIMAL_PRECISION * steadyDecay ^ (m + minutes) + (i + 1 : ℕ)) := by
  have hunit : (0 : ℚ) < DECIMAL_PRECISION := Nat.cast_pos.mpr DECIMAL_PRECISION_pos
  have hfloor : (r' * DECIMAL_PRECISION : ℚ) ≤ r * decayFactor minutes := by
    exact_mod_cast hr' ▸ Nat.div_mul_le_self _ _
  have hfactor : (decayFactor minutes : ℚ) ≤ DECIMAL_PRECISION := by
    exact_mod_cast decayFactor_le
  have hpow : steadyDecay ^ m ≤ 1 := pow_le_one₀ steadyDecay_nonneg steadyDecay_le_one
  have hpow₀ : 0 ≤ steadyDecay ^ m := pow_nonneg steadyDecay_nonneg m
  -- the new factor is a unit off for what is left of the rate, and shrinks the units so far
  have hshrunk : (DECIMAL_PRECISION * steadyDecay ^ m + i) * decayFactor minutes ≤
      DECIMAL_PRECISION * (DECIMAL_PRECISION * steadyDecay ^ (m + minutes) + (i + 1 : ℕ)) :=
    calc (DECIMAL_PRECISION * steadyDecay ^ m + i) * (decayFactor minutes : ℚ)
        = DECIMAL_PRECISION * steadyDecay ^ m * decayFactor minutes + i * decayFactor minutes :=
          add_mul _ _ _
      _ ≤ DECIMAL_PRECISION * steadyDecay ^ m * (DECIMAL_PRECISION * steadyDecay ^ minutes + 1) +
          i * DECIMAL_PRECISION := by
        apply add_le_add
        · exact mul_le_mul_of_nonneg_left decayFactor_le_steady (mul_nonneg hunit.le hpow₀)
        · exact mul_le_mul_of_nonneg_left hfactor (Nat.cast_nonneg i)
      _ = DECIMAL_PRECISION * (DECIMAL_PRECISION * steadyDecay ^ (m + minutes) +
          (steadyDecay ^ m + i)) := by
        rw [pow_add]
        ring
      _ ≤ _ := by
        apply mul_le_mul_of_nonneg_left _ hunit.le
        push_cast
        linarith
  have hscaled : (r' * DECIMAL_PRECISION : ℚ) * DECIMAL_PRECISION ≤
      r₀ * (DECIMAL_PRECISION * steadyDecay ^ (m + minutes) + (i + 1 : ℕ)) *
        DECIMAL_PRECISION :=
    calc (r' * DECIMAL_PRECISION : ℚ) * DECIMAL_PRECISION
        ≤ r * decayFactor minutes * DECIMAL_PRECISION :=
          mul_le_mul_of_nonneg_right hfloor hunit.le
      _ = r * DECIMAL_PRECISION * decayFactor minutes := mul_right_comm _ _ _
      _ ≤ r₀ * (DECIMAL_PRECISION * steadyDecay ^ m + i) * decayFactor minutes :=
          mul_le_mul_of_nonneg_right hrate (Nat.cast_nonneg _)
      _ = r₀ * ((DECIMAL_PRECISION * steadyDecay ^ m + i) * decayFactor minutes) :=
          mul_assoc _ _ _
      _ ≤ _ := mul_le_mul_of_nonneg_left hshrunk (Nat.cast_nonneg _)
      _ = _ := by ring
  exact le_of_mul_le_mul_right hscaled hunit

/-- Every decay of a run adds at most a unit to the steady decay. -/
theorem decayBaseRates_le
    (hrate : (s.vaultManager.baseRate * DECIMAL_PRECISION : ℚ) ≤
      r₀ * (DECIMAL_PRECISION * steadyDecay ^ m + i))
    (hrun : decayBaseRates blocks s = .ok s') :
    (s'.vaultManager.baseRate * DECIMAL_PRECISION : ℚ) ≤
      r₀ * (DECIMAL_PRECISION * steadyDecay ^ (m + creditedMinutes
        s.vaultManager.lastFeeOperationTime (blocks.map Block.timestamp)) +
          (i + blocks.length : ℕ)) := by
  induction blocks generalizing s m i with
  | nil =>
    obtain rfl := pure_ok.mp hrun
    simpa [creditedMinutes] using hrate
  | cons block blocks ih =>
    simp only [decayBaseRates, bind_ok] at hrun
    obtain ⟨s₁, hdecay, hrun⟩ := hrun
    obtain ⟨-, hrate₁, htime⟩ := decayBaseRateFromBorrowing_rate hdecay
    have hle := ih (decay_step hrate hrate₁) hrun
    rw [htime] at hle
    simp only [List.map_cons, creditedMinutes, List.length_cons, ← Nat.add_assoc]
    rw [Nat.add_right_comm i] at hle
    exact hle

/-- A rate after so many decays is at most a single decay with the roundings of all of them, and
the rounding of the single factor. -/
theorem decayed_le {r' : ℕ}
    (h : (r' * DECIMAL_PRECISION : ℚ) ≤ r₀ * (DECIMAL_PRECISION * steadyDecay ^ m + calls)) :
    2 * r' * DECIMAL_PRECISION ≤ 2 * (r₀ * decayFactor m) + r₀ * (2 * calls + 3) := by
  have hsteady := mul_le_mul_of_nonneg_left (steady_le_decayFactor (n := m))
    (Nat.cast_nonneg (α := ℚ) r₀)
  have hle : (2 * r' * DECIMAL_PRECISION : ℚ) ≤
      2 * (r₀ * decayFactor m) + r₀ * (2 * calls + 3) := by
    linarith
  exact_mod_cast hle

/-- A run of decays in order starts after the last fee operation. -/
theorem lastFeeOperationTime_le (hrun : decayBaseRates (blocks ++ [last]) s = .ok s')
    (htimes : ((blocks ++ [last]).map Block.timestamp).Pairwise (· ≤ ·)) :
    s.vaultManager.lastFeeOperationTime ≤ last.timestamp := by
  cases blocks with
  | nil =>
    simp only [List.nil_append, decayBaseRates, bind_ok] at hrun
    obtain ⟨s₁, hdecay, -⟩ := hrun
    exact (decayBaseRateFromBorrowing_rate hdecay).1
  | cons first blocks =>
    simp only [List.cons_append, decayBaseRates, bind_ok] at hrun
    obtain ⟨s₁, hdecay, -⟩ := hrun
    have hfirst : first.timestamp ≤ last.timestamp := by
      apply (List.pairwise_cons.mp htimes).1
      simp
    exact (decayBaseRateFromBorrowing_rate hdecay).1.trans hfirst

/-- A single decay is the direct one. -/
theorem decayed_once (hdirect : decayBaseRateFromBorrowing last s = .ok direct)
    (hrun : decayBaseRates (blocks ++ [last]) s = .ok s')
    (hone : (blocks ++ [last]).length = 1) : s' = direct := by
  obtain rfl : blocks = [] := by simpa using hone
  simp only [List.nil_append, decayBaseRates, hdirect, bind_ok, Except.ok.injEq] at hrun
  obtain ⟨_, rfl, h⟩ := hrun
  exact (pure_ok.mp h).symm

/-- Decays at any times, the last of them at `last`, where the whole minutes that they are given
credit for are all that have passed: the base rate is at most that of a single decay and one unit
for every decay, wherever the base rate allows it, and never more than two units above that. -/
theorem decay_not_slowed (hcap : s.vaultManager.baseRate ≤ DECIMAL_PRECISION)
    (hrun : decayBaseRates (blocks ++ [last]) s = .ok s')
    (htimes : ((blocks ++ [last]).map Block.timestamp).Pairwise (· ≤ ·))
    (hminutes : creditedMinutes s.vaultManager.lastFeeOperationTime
        ((blocks ++ [last]).map Block.timestamp) =
      (last.timestamp - s.vaultManager.lastFeeOperationTime) / SECONDS_IN_ONE_MINUTE) :
    ∃ direct, decayBaseRateFromBorrowing last s = .ok direct ∧
      (RateAllows s.vaultManager.baseRate (blocks ++ [last]).length →
        s'.vaultManager.baseRate ≤
          direct.vaultManager.baseRate + (blocks ++ [last]).length) ∧
      s'.vaultManager.baseRate ≤
        direct.vaultManager.baseRate + (blocks ++ [last]).length + 2 := by
  obtain ⟨direct, hdirect⟩ :=
    exists_decayBaseRateFromBorrowing hcap (lastFeeOperationTime_le hrun htimes)
  obtain ⟨-, hrate, -⟩ := decayBaseRateFromBorrowing_rate hdirect
  have hstart : (s.vaultManager.baseRate * DECIMAL_PRECISION : ℚ) ≤
      s.vaultManager.baseRate * (DECIMAL_PRECISION * steadyDecay ^ 0 + (0 : ℕ)) := by
    rw [pow_zero, mul_one, Nat.cast_zero, add_zero]
  have hslow := decayBaseRates_le hstart hrun
  rw [Nat.zero_add, Nat.zero_add, hminutes] at hslow
  have hslow := decayed_le hslow
  have hwithin {units : ℕ} (h : s'.vaultManager.baseRate * DECIMAL_PRECISION ≤
      s.vaultManager.baseRate * decayFactor ((last.timestamp -
        s.vaultManager.lastFeeOperationTime) / SECONDS_IN_ONE_MINUTE) +
          units * DECIMAL_PRECISION) :
      s'.vaultManager.baseRate ≤ direct.vaultManager.baseRate + units := by
    rw [hrate, ← Nat.add_mul_div_right _ _ DECIMAL_PRECISION_pos]
    exact (Nat.le_div_iff_mul_le DECIMAL_PRECISION_pos).mpr h
  refine ⟨direct, hdirect, ?_, ?_⟩
  · rintro (hone | hrates)
    · rw [decayed_once hdirect hrun hone]
      exact Nat.le_add_right _ _
    · apply hwithin
      linarith
  · rw [Nat.add_assoc]
    apply hwithin
    have hunits := Nat.mul_le_mul_right (2 * (blocks ++ [last]).length + 3) hcap
    linarith

/-- A base rate of a half, right after a fee operation at time zero. -/
def testRate : State := setBaseRate (5 * 10 ^ 17) testGenesis.state

/-- Decays every 119 seconds lose 59 of them: after the second there are two minutes of decay
where three have passed. -/
theorem decay_slowed : ∃ s' direct,
    decayBaseRates [⟨119, fun _ => none⟩, ⟨238, fun _ => none⟩] testRate = .ok s' ∧
      decayBaseRateFromBorrowing ⟨238, fun _ => none⟩ testRate = .ok direct ∧
      direct.vaultManager.baseRate + 2 < s'.vaultManager.baseRate := by
  have hslow : succeeds (fun s' => succeeds
      (fun direct : State => decide (direct.vaultManager.baseRate + 2 < s'.vaultManager.baseRate))
      (decayBaseRateFromBorrowing ⟨238, fun _ => none⟩ testRate))
      (decayBaseRates [⟨119, fun _ => none⟩, ⟨238, fun _ => none⟩] testRate) = true := by
    decide +kernel
  obtain ⟨s', hs', hslow⟩ := exists_of_succeeds hslow
  obtain ⟨direct, hdirect, hslow⟩ := exists_of_succeeds hslow
  exact ⟨s', direct, hs', hdirect, of_decide_eq_true hslow⟩

/-- Two decays, a minute apart. -/
theorem decay_not_slowed_minutes : ∃ s' direct,
    decayBaseRates [⟨60, fun _ => none⟩, ⟨120, fun _ => none⟩] testRate = .ok s' ∧
      decayBaseRateFromBorrowing ⟨120, fun _ => none⟩ testRate = .ok direct ∧
      s'.vaultManager.baseRate ≤ direct.vaultManager.baseRate + 2 := by
  have hsucceeds : succeeds (fun _ => true)
      (decayBaseRates [⟨60, fun _ => none⟩, ⟨120, fun _ => none⟩] testRate) = true := by
    decide +kernel
  obtain ⟨s', hs', -⟩ := exists_of_succeeds hsucceeds
  have hrun : decayBaseRates ([⟨60, fun _ => none⟩] ++ [⟨120, fun _ => none⟩]) testRate =
      .ok s' := hs'
  obtain ⟨direct, hdirect, hle, -⟩ := decay_not_slowed (by decide) hrun (by decide) (by decide)
  exact ⟨s', direct, hs', hdirect, hle (.inr (by decide))⟩

/-- A base rate of nearly one, where the units of two decays do not cover the roundings. -/
def testHighRate : State := setBaseRate (10 ^ 18 - 2) testGenesis.state

/-- Decays after 100 and after 215 minutes lose no second, and still end three units above. -/
theorem decay_rounded : ∃ s' direct,
    decayBaseRates [⟨6000, fun _ => none⟩, ⟨12900, fun _ => none⟩] testHighRate = .ok s' ∧
      decayBaseRateFromBorrowing ⟨12900, fun _ => none⟩ testHighRate = .ok direct ∧
      direct.vaultManager.baseRate + 3 = s'.vaultManager.baseRate := by
  have hslow : succeeds (fun s' => succeeds
      (fun direct : State => decide (direct.vaultManager.baseRate + 3 = s'.vaultManager.baseRate))
      (decayBaseRateFromBorrowing ⟨12900, fun _ => none⟩ testHighRate))
      (decayBaseRates [⟨6000, fun _ => none⟩, ⟨12900, fun _ => none⟩] testHighRate) = true := by
    decide +kernel
  obtain ⟨s', hs', hslow⟩ := exists_of_succeeds hslow
  obtain ⟨direct, hdirect, hslow⟩ := exists_of_succeeds hslow
  exact ⟨s', direct, hs', hdirect, of_decide_eq_true hslow⟩

end VaultManager

end MoneyProtocol
