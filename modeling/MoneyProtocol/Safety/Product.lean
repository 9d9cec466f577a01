import MoneyProtocol.Pool.Runs
import MoneyProtocol.Accounting.Decay

/-!
# The product `P` of the Stability Pool

`P` shrinks with every offset by the share of the deposits that remains, and gains a factor of
`1e9` where it would fall below `1e9`. One such factor is not always enough: an offset that
leaves a few parts in `1e18` of the deposits takes `P` to `1e9` or below, and two more of them
take it to zero, where the assertion fails. As long as every offset empties the pool or leaves
more than the inverse of `P`, the product stays between `1e9` and `1e18`.
-/

namespace MoneyProtocol.StabilityPool

open Outcome

variable {d : Deployment} {s : State} {debt : ℕ} {h hist : History}

/-- What an offset leaves of the deposits, in units of `1e-18` BPD, the carried error included. -/
def leftAfter (debt : ℕ) (p : StabilityPool) : ℕ :=
  (p.totalBPDDeposits - debt) * DECIMAL_PRECISION + p.lastBPDLossError_Offset

/-- The offset empties the pool, or it leaves each unit more than the inverse of `P`. -/
def Spares (debt : ℕ) (p : StabilityPool) : Prop :=
  debt = p.totalBPDDeposits ∨ leftAfter debt p ≤ p.totalBPDDeposits ∨
    p.totalBPDDeposits * ((DECIMAL_PRECISION + p.P - 1) / p.P) < leftAfter debt p

/-- The policy of histories whose offsets spare the product. -/
def Policy.sparing : Policy := ⟨fun debt _ p => Spares debt p, fun _ _ _ => True, id, id⟩

/-- The product that an offset computes, on which it asserts that it is positive. The issuance
before it changes nothing that is read here. -/
def offsetProduct (debtToOffset collToAdd : ℕ) (s : State) : Outcome Product := do
  let p := s.stabilityPool
  let r ← computeRewardsPerUnitStaked collToAdd debtToOffset p.totalBPDDeposits s
  let newProductFactor ← SafeMath.sub DECIMAL_PRECISION r.BPDLossPerUnitStaked
  updateProduct newProductFactor ⟨p.P, p.currentScale, p.currentEpoch⟩

/-- A loss that is rounded up leaves what is rounded down. -/
theorem sub_rounded_up {unit total numerator : ℕ} (htotal : 0 < total)
    (hlt : numerator < total * unit) :
    unit - (numerator / total + 1) = (total * unit - numerator - 1) / total := by
  have hdiv : numerator / total + 1 ≤ unit := by
    rw [Nat.succ_le_iff, Nat.div_lt_iff_lt_mul htotal, Nat.mul_comm]
    exact hlt
  have hsplit : total * unit - numerator - 1 =
      (total - numerator % total - 1) + total * (unit - (numerator / total + 1)) := by
    have hquotient := Nat.div_add_mod numerator total
    have hremainder := Nat.mod_lt numerator htotal
    have hmul : total * (unit - (numerator / total + 1)) + total * (numerator / total + 1) =
        total * unit := by
      rw [← Nat.mul_add, Nat.sub_add_cancel hdiv]
    rw [Nat.mul_add _ (numerator / total), Nat.mul_one] at hmul
    omega
  have hzero : (total - numerator % total - 1) / total = 0 := Nat.div_eq_of_lt (by omega)
  rw [hsplit, Nat.add_mul_div_left _ _ htotal, hzero, Nat.zero_add]

/-- The inverse of `P`, rounded up, is the least factor that keeps the product. -/
theorem le_mul_iff_inverse_le {unit P factor : ℕ} (hP : 0 < P) :
    unit ≤ P * factor ↔ (unit + P - 1) / P ≤ factor := by
  rw [Nat.div_le_iff_le_mul_add_pred hP]
  omega

/-- An offset that is not of all deposits leaves them this factor. -/
theorem factor_eq {p : StabilityPool} (hlt : debt < p.totalBPDDeposits)
    (herror : p.lastBPDLossError_Offset ≤ debt * DECIMAL_PRECISION) :
    DECIMAL_PRECISION - lossPerUnit p debt = (leftAfter debt p - 1) / p.totalBPDDeposits ∧
      0 < leftAfter debt p := by
  have hleft : leftAfter debt p = p.totalBPDDeposits * DECIMAL_PRECISION -
      (debt * DECIMAL_PRECISION - p.lastBPDLossError_Offset) := by
    have hmul : debt * DECIMAL_PRECISION ≤ p.totalBPDDeposits * DECIMAL_PRECISION :=
      Nat.mul_le_mul_right _ hlt.le
    unfold leftAfter
    rw [Nat.sub_mul]
    omega
  have hnumerator : debt * DECIMAL_PRECISION - p.lastBPDLossError_Offset <
      p.totalBPDDeposits * DECIMAL_PRECISION :=
    (Nat.sub_le _ _).trans_lt (Nat.mul_lt_mul_of_pos_right hlt DECIMAL_PRECISION_pos)
  rw [lossPerUnit, if_neg hlt.ne, sub_rounded_up (by omega) hnumerator, ← hleft]
  exact ⟨rfl, by omega⟩

/-- The deposits are lost altogether exactly if less than one part in `1e18` would remain. -/
theorem factor_eq_zero_iff {p : StabilityPool} (hdebt : debt ≤ p.totalBPDDeposits)
    (herror : debt ≠ p.totalBPDDeposits → p.lastBPDLossError_Offset ≤ debt * DECIMAL_PRECISION)
    (htotal : 0 < p.totalBPDDeposits) : DECIMAL_PRECISION - lossPerUnit p debt = 0 ↔
      debt = p.totalBPDDeposits ∨ leftAfter debt p ≤ p.totalBPDDeposits := by
  by_cases hall : debt = p.totalBPDDeposits
  · simp [lossPerUnit, hall]
  obtain ⟨hfactor, hpos⟩ := factor_eq (by omega) (herror hall)
  rw [hfactor, Nat.div_eq_zero_iff, or_iff_right htotal.ne', or_iff_right hall]
  omega

/-- The factor is zero or keeps the product exactly if the offset spares it. -/
theorem spares_iff {p : StabilityPool} (hP : 0 < p.P) (hdebt : debt ≤ p.totalBPDDeposits)
    (herror : debt ≠ p.totalBPDDeposits → p.lastBPDLossError_Offset ≤ debt * DECIMAL_PRECISION)
    (htotal : 0 < p.totalBPDDeposits) :
    (DECIMAL_PRECISION - lossPerUnit p debt = 0 ∨
      DECIMAL_PRECISION ≤ p.P * (DECIMAL_PRECISION - lossPerUnit p debt)) ↔ Spares debt p := by
  unfold Spares
  rw [factor_eq_zero_iff hdebt herror htotal, or_assoc]
  by_cases hall : debt = p.totalBPDDeposits
  · simp [hall]
  obtain ⟨hfactor, hpos⟩ := factor_eq (by omega) (herror hall)
  rw [or_iff_right hall, or_iff_right hall, hfactor, le_mul_iff_inverse_le hP,
    Nat.le_div_iff_mul_le htotal]
  generalize (DECIMAL_PRECISION + p.P - 1) / p.P = inverse
  rw [Nat.mul_comm inverse]
  omega

/-- `P` is between `1e9` and `1e18`. -/
structure Representable (s : State) : Prop where
  lower : SCALE_FACTOR ≤ s.stabilityPool.P
  upper : s.stabilityPool.P ≤ DECIMAL_PRECISION

theorem updateProduct_bounds {factor : ℕ} {p p' : Product} (hupper : p.P ≤ DECIMAL_PRECISION)
    (hfactor : factor ≤ DECIMAL_PRECISION) (h : updateProduct factor p = .ok p') :
    (SCALE_FACTOR ≤ p'.P ↔ factor = 0 ∨ DECIMAL_PRECISION ≤ p.P * factor) ∧
      p'.P ≤ DECIMAL_PRECISION := by
  have hscale : SCALE_FACTOR * SCALE_FACTOR = DECIMAL_PRECISION := by decide
  have hone : 0 < SCALE_FACTOR := by decide
  simp only [updateProduct] at h
  split_ifs at h with hzero
  · simp only [bind_ok, pure_ok] at h
    obtain ⟨_, -, rfl⟩ := h
    have hle : SCALE_FACTOR ≤ DECIMAL_PRECISION := by decide
    simp [hzero, hle]
  simp only [bind_ok, SafeMath.mul_ok, SafeMath.div_ok] at h
  obtain ⟨product, ⟨-, rfl⟩, _, ⟨-, rfl⟩, h⟩ := h
  rw [or_iff_right hzero]
  split_ifs at h with hsmall
  · simp only [bind_ok, pure_ok, SafeMath.mul_ok, SafeMath.div_ok] at h
    obtain ⟨_, ⟨-, rfl⟩, _, ⟨-, rfl⟩, _, -, rfl⟩ := h
    dsimp only
    rw [Nat.div_lt_iff_lt_mul DECIMAL_PRECISION_pos] at hsmall
    constructor
    · rw [Nat.le_div_iff_mul_le DECIMAL_PRECISION_pos, Nat.mul_comm]
      exact Nat.mul_le_mul_right_iff hone
    · apply Nat.div_le_of_le_mul
      calc p.P * factor * SCALE_FACTOR ≤ SCALE_FACTOR * DECIMAL_PRECISION * SCALE_FACTOR :=
            Nat.mul_le_mul_right _ hsmall.le
        _ = DECIMAL_PRECISION * DECIMAL_PRECISION := by
            rw [Nat.mul_right_comm, hscale]
  · obtain rfl := pure_ok.mp h
    rw [not_lt, Nat.le_div_iff_mul_le DECIMAL_PRECISION_pos] at hsmall
    constructor
    · rw [Nat.le_div_iff_mul_le DECIMAL_PRECISION_pos]
      refine ⟨fun _ => ?_, fun _ => hsmall⟩
      exact (Nat.le_mul_of_pos_left _ hone).trans hsmall
    · apply Nat.div_le_of_le_mul
      exact Nat.mul_le_mul hupper hfactor |>.trans_eq rfl

theorem Representable.move {h' : History} (hs : Representable h.state)
    (hmove : Move .sparing d h h') : Representable h'.state := by
  cases hmove with
  | issuance i =>
    obtain ⟨hlower, hupper⟩ := hs
    constructor
    · rw [i.pool]
      exact hlower
    · rw [i.pool]
      exact hupper
  | settlement _ e =>
    constructor
    · rw [e.pool]
      exact hs.lower
    · rw [e.pool]
      exact hs.upper
  | registration _ _ hpool =>
    constructor
    · rw [hpool]
      exact hs.lower
    · rw [hpool]
      exact hs.upper
  | elsewhere hpool =>
    constructor
    · rw [hpool]
      exact hs.lower
    · rw [hpool]
      exact hs.upper
  | offset hkeeps htotal _ e =>
    have hpos : 0 < h.state.stabilityPool.P := lt_of_lt_of_le (by decide) hs.lower
    obtain ⟨hiff, hle⟩ := updateProduct_bounds hs.upper (Nat.sub_le _ _) e.products
    have hfactor := (spares_iff hpos e.debt_le e.error_le (Nat.pos_of_ne_zero htotal)).mpr hkeeps
    constructor
    · rw [e.pool]
      exact hiff.mpr hfactor
    · rw [e.pool]
      exact hle

/-- In every history whose offsets spare the product, `P` is representable, an offset computes a
positive product that is representable again where it spares it, and one that is too small where
it does not. -/
theorem product_representable (h : Recorded .sparing d hist) : Representable hist.state ∧
    ∀ debt coll p, hist.state.stabilityPool.totalBPDDeposits ≠ 0 →
      offsetProduct debt coll hist.state = .ok p →
      (Spares debt hist.state.stabilityPool ↔ SCALE_FACTOR ≤ p.P) ∧ p.P ≤ DECIMAL_PRECISION := by
  have hunit : SCALE_FACTOR ≤ DECIMAL_PRECISION := by decide
  have hs : Representable hist.state := by
    apply h.invariant
    · intro g
      exact ⟨hunit, le_rfl⟩
    · exact Representable.move
  refine ⟨hs, ?_⟩
  intro debt coll p htotal hproduct
  have hpos : 0 < hist.state.stabilityPool.P := lt_of_lt_of_le (by decide) hs.lower
  simp only [offsetProduct, bind_ok, SafeMath.sub_ok] at hproduct
  obtain ⟨r, hrewards, _, ⟨-, rfl⟩, hproduct⟩ := hproduct
  obtain ⟨hdebt, herror, hloss, -, -⟩ := computeRewardsPerUnitStaked_ok hrewards
  rw [hloss] at hproduct
  obtain ⟨hiff, hle⟩ := updateProduct_bounds hs.upper (Nat.sub_le _ _) hproduct
  exact ⟨(spares_iff hpos hdebt herror (Nat.pos_of_ne_zero htotal)).symm.trans hiff.symm, hle⟩

instance (debt : ℕ) (p : StabilityPool) : Decidable (Spares debt p) :=
  inferInstanceAs (Decidable (_ ∨ _ ∨ _))

/-- A liquidation that spares the product, or an opening or a deposit. -/
def keepsSparing (d : Deployment) (t : Transaction) (s : State) (_ : ℚ) : Bool :=
  match t.operation with
  | .openVault _ _ _ _ | .provideToSP _ _ => true
  | .liquidate _ => match t.liquidationLoop d s with
    | .ok l => decide (Spares l.totals.totalDebtToOffset s.stabilityPool)
    | .error _ => true
  | _ => false

theorem keptBy_of_keepsSparing {t : Transaction}
    (hkeeps : keepsSparing d t h.state h.carry = true) :
    KeptBy .sparing d t h := by
  obtain ⟨block, sender, value, operation⟩ := t
  unfold keepsSparing at hkeeps
  split at hkeeps
  · next hoperation =>
    obtain rfl : operation = _ := hoperation
    intro l hl
    contradiction
  · next hoperation =>
    obtain rfl : operation = _ := hoperation
    trivial
  · next borrower hoperation =>
    obtain rfl : operation = _ := hoperation
    intro l hl
    rw [hl] at hkeeps
    have hspares : Spares l.totals.totalDebtToOffset h.state.stabilityPool :=
      of_decide_eq_true hkeeps
    exact hspares
  · contradiction

/-- Of 5000 BPD an offset takes 2210. -/
theorem product_representable_offset : ∃ hist, Recorded .sparing testnet hist ∧
    hist.state.stabilityPool.P < DECIMAL_PRECISION ∧ Representable hist.state := by
  obtain ⟨s, carry, sent, h, hcheck⟩ := plays_recorded testnet testGenesis
    [⟨testBlock 60000, 100, 5 * 10 ^ 18, .openVault (10 ^ 16) (10000 * 10 ^ 18) 0 0⟩,
      ⟨testBlock 60000, 101, 55 * 10 ^ 15, .openVault (10 ^ 16) (2000 * 10 ^ 18) 0 0⟩,
      ⟨testBlock 60000, 100, 0, .provideToSP (5000 * 10 ^ 18) 0⟩,
      ⟨testBlock 44000, 105, 0, .liquidate 101⟩] (keepsSparing testnet)
    (fun _ _ _ => keptBy_of_keepsSparing)
    (fun s _ => s.stabilityPool.P < DECIMAL_PRECISION) (by decide +kernel)
  exact ⟨_, h, of_decide_eq_true hcheck, (product_representable h).1⟩

/-- Three liquidations of 2210 BPD that each leave less than two parts in `1e18` of the pool: the
second takes `P` to 1, and the third fails at the assertion. -/
theorem product_vanishes : ∃ hist, Recorded .any testnet hist ∧ hist.state.stabilityPool.P = 1 ∧
    (∃ p, offsetProduct (2210 * 10 ^ 18) 0 hist.state = .ok p ∧ p.P = 0) ∧
    transact testnet ⟨testBlock 44000, 105, 0, .liquidate 103⟩ hist.state = .error .invalid := by
  let small (a : Address) : Transaction :=
    ⟨testBlock 60000, a, 55 * 10 ^ 15, .openVault (10 ^ 16) (2000 * 10 ^ 18) 0 0⟩
  obtain ⟨s, h, -, hcheck⟩ := runs_reachable testnet testGenesis
    [⟨testBlock 60000, 100, 5 * 10 ^ 18, .openVault (10 ^ 16) (10000 * 10 ^ 18) 0 0⟩,
      small 101, small 102, small 103,
      ⟨testBlock 60000, 100, 0, .provideToSP (2210 * 10 ^ 18 + 4000) 0⟩,
      ⟨testBlock 44000, 105, 0, .liquidate 101⟩,
      ⟨testBlock 44000, 100, 0, .provideToSP (2210 * 10 ^ 18 - 1790) 0⟩,
      ⟨testBlock 44000, 105, 0, .liquidate 102⟩,
      ⟨testBlock 44000, 100, 0, .provideToSP (2210 * 10 ^ 18) 0⟩]
    (fun s => decide (s.stabilityPool.P = 1) &&
      succeeds (fun p => decide (p.P = 0)) (offsetProduct (2210 * 10 ^ 18) 0 s) &&
      failsWith .invalid (transact testnet ⟨testBlock 44000, 105, 0, .liquidate 103⟩ s))
    (by decide +kernel)
  simp only [Bool.and_eq_true, decide_eq_true_eq] at hcheck
  obtain ⟨⟨hP, hproduct⟩, hfails⟩ := hcheck
  obtain ⟨carry, sent, hrecorded⟩ := Recorded.of_reachable h
  obtain ⟨p, hp, hzero⟩ := exists_of_succeeds hproduct
  exact ⟨_, hrecorded, hP, ⟨p, hp, of_decide_eq_true hzero⟩, eq_error_of_failsWith hfails⟩

end MoneyProtocol.StabilityPool
