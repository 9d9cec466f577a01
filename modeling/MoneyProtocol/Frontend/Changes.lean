import MoneyProtocol.Frontend.ValidateVaultChange
import MoneyProtocol.Sdk.Rates

/-!
# From one vault to another

`whatChanged` compares two vaults, and `apply` makes the change. The fee on a loan is taken off
with a division that is rounded up and put back with a product that is rounded down, so the
debt that is reached may be one unit above the one that was asked for.
-/

namespace MoneyProtocol.Sdk.Frontend

open Outcome Decimal

variable {original edited : Vault} {change : VaultChange} {rate : Decimal}

/-- The parameters of an adjustment from one vault to another. -/
def paramsTo (original edited : Vault) (rate : Decimal) : VaultAdjustmentParams where
  depositCollateral := if original.collateral < edited.collateral then
    some (edited.collateral - original.collateral) else none
  withdrawCollateral := if edited.collateral < original.collateral then
    some (original.collateral - edited.collateral) else none
  borrowBPD := if original.debt < edited.debt then
    some (unapplyFee rate (edited.debt - original.debt)) else none
  repayBPD := if edited.debt < original.debt then some (original.debt - edited.debt) else none

/-- The vault that an adjustment ends up in. -/
def adjusted (original edited : Vault) (rate : Decimal) : Vault where
  collateral := edited.collateral
  debt := if original.debt < edited.debt then
    original.debt + applyFee rate (unapplyFee rate (edited.debt - original.debt)) else edited.debt

theorem isEmpty_iff {v : Vault} : v.isEmpty = true ↔ v.collateral = 0 ∧ v.debt = 0 := by
  simp [Vault.isEmpty]

theorem netDebt_ok {v : Vault} {net : Decimal} (h : v.netDebt = .ok net) :
    BPD_LIQUIDATION_RESERVE ≤ v.debt ∧ net = v.debt - BPD_LIQUIDATION_RESERVE := by
  simp only [Vault.netDebt, sub, bind_ok, require_ok, pure_ok] at h
  obtain ⟨_, -, _, hle, rfl⟩ := h
  exact ⟨hle, rfl⟩

theorem debtChange_eq (hdebt : original.debt ≠ edited.debt) :
    original.debtChange edited rate =
      { borrowBPD := (paramsTo original edited rate).borrowBPD
        repayBPD := (paramsTo original edited rate).repayBPD } := by
  unfold Vault.debtChange paramsTo
  rcases Nat.lt_or_gt_of_ne hdebt with hlt | hgt
  · rw [if_pos hlt, if_pos hlt, if_neg hlt.not_gt]
  · rw [if_neg (Nat.lt_asymm hgt), if_neg (Nat.lt_asymm hgt), if_pos hgt]

theorem collateralChange_eq (rate : Decimal) (hcoll : original.collateral ≠ edited.collateral) :
    original.collateralChange edited =
      { depositCollateral := (paramsTo original edited rate).depositCollateral
        withdrawCollateral := (paramsTo original edited rate).withdrawCollateral } := by
  unfold Vault.collateralChange paramsTo
  rcases Nat.lt_or_gt_of_ne hcoll with hlt | hgt
  · rw [if_pos hlt, if_pos hlt, if_neg hlt.not_gt]
  · rw [if_neg (Nat.lt_asymm hgt), if_neg (Nat.lt_asymm hgt), if_pos hgt]

theorem paramsTo_of_coll_eq (hcoll : original.collateral = edited.collateral) :
    paramsTo original edited rate =
      { borrowBPD := (paramsTo original edited rate).borrowBPD
        repayBPD := (paramsTo original edited rate).repayBPD } := by
  simp [paramsTo, hcoll]

theorem paramsTo_of_debt_eq (hdebt : original.debt = edited.debt) :
    paramsTo original edited rate =
      { depositCollateral := (paramsTo original edited rate).depositCollateral
        withdrawCollateral := (paramsTo original edited rate).withdrawCollateral } := by
  simp [paramsTo, hdebt]

/-- The vault is set to zero debt or zero collateral only where the edited one has none. -/
def SetsToZero (edited : Vault) : Option SetToZero → Prop
  | none => True
  | some .collateral => edited.collateral = 0
  | some .debt => edited.debt = 0

theorem setsToZero_debt :
    SetsToZero edited (if edited.debt = 0 then some .debt else none) := by
  split_ifs with hzero
  · exact hzero
  · trivial

theorem setsToZero_collateral :
    SetsToZero edited (if edited.collateral = 0 then some .collateral else none) := by
  split_ifs with hzero
  · exact hzero
  · trivial

/-- The change to another vault, by the kind of the change. -/
inductive ChangeTo (original edited : Vault) (rate : Decimal) : VaultChange → Prop
  | invalidCreation (vault : Vault) : ChangeTo original edited rate (.invalidCreation vault)
  | creation (hempty : original.isEmpty = true) (hreserve : BPD_LIQUIDATION_RESERVE ≤ edited.debt) :
    ChangeTo original edited rate (.creation
      ⟨edited.collateral, unapplyFee rate (edited.debt - BPD_LIQUIDATION_RESERVE)⟩)
  | closure (params : VaultClosureParams) (hopen : original.isEmpty = false)
    (hempty : edited.isEmpty = true) (hreserve : BPD_LIQUIDATION_RESERVE ≤ original.debt)
    (hrepay : params.repayBPD.getD ZERO = original.debt - BPD_LIQUIDATION_RESERVE) :
    ChangeTo original edited rate (.closure params)
  | adjustment (setToZero : Option SetToZero) (hopen : original.isEmpty = false)
    (hstays : edited.isEmpty = false)
    (hne : original.collateral ≠ edited.collateral ∨ original.debt ≠ edited.debt)
    (hzero : SetsToZero edited setToZero) :
    ChangeTo original edited rate (.adjustment (paramsTo original edited rate) setToZero)

theorem whatChanged_ok (h : original.whatChanged edited rate = .ok (some change)) :
    ChangeTo original edited rate change := by
  unfold Vault.whatChanged at h
  by_cases hsame : original.collateral = edited.collateral ∧ original.debt = edited.debt
  · rw [if_pos hsame] at h
    exact absurd (pure_ok.mp h) (by simp)
  rw [if_neg hsame] at h
  by_cases hempty : original.isEmpty = true
  · rw [if_pos hempty] at h
    split_ifs at h with hreserve
    · rw [← Option.some.inj (pure_ok.mp h)]
      exact .invalidCreation edited
    · simp only [bind_ok, pure_ok, Option.some.injEq] at h
      obtain ⟨net, hnet, hchange⟩ := h
      obtain ⟨hle, hnet⟩ := netDebt_ok hnet
      rw [← hchange, hnet]
      exact .creation hempty hle
  rw [if_neg hempty] at h
  have hopen := Bool.eq_false_iff.mpr hempty
  by_cases hclosed : edited.isEmpty = true
  · simp only [if_pos hclosed, bind_ok, pure_ok, Option.some.injEq] at h
    obtain ⟨net, hnet, hchange⟩ := h
    obtain ⟨hle, hnet⟩ := netDebt_ok hnet
    rw [← hchange]
    refine .closure _ hopen hclosed hle ?_
    rw [← hnet]
    split_ifs with hzero
    · rfl
    · exact (not_not.mp hzero).symm
  rw [if_neg hclosed] at h
  have hstays := Bool.eq_false_iff.mpr hclosed
  by_cases hcoll : original.collateral = edited.collateral
  · have hne : original.debt ≠ edited.debt := fun hdebt => hsame ⟨hcoll, hdebt⟩
    rw [if_pos hcoll] at h
    rw [← Option.some.inj (pure_ok.mp h), debtChange_eq hne, ← paramsTo_of_coll_eq hcoll]
    exact .adjustment _ hopen hstays (.inr hne) setsToZero_debt
  rw [if_neg hcoll] at h
  by_cases hdebt : original.debt = edited.debt
  · rw [if_pos hdebt] at h
    rw [← Option.some.inj (pure_ok.mp h), collateralChange_eq rate hcoll,
      ← paramsTo_of_debt_eq hdebt]
    exact .adjustment _ hopen hstays (.inl hcoll) setsToZero_collateral
  · rw [if_neg hdebt, debtChange_eq hdebt, collateralChange_eq rate hcoll] at h
    rw [← Option.some.inj (pure_ok.mp h)]
    refine .adjustment _ hopen hstays (.inl hcoll) ?_
    by_cases hzero : edited.debt = 0
    · rw [if_pos hzero]
      exact hzero
    · rw [if_neg hzero]
      exact setsToZero_collateral

theorem getD_if {p : Prop} [Decidable p] {x : ℕ} :
    (if p then some x else none).getD ZERO = if p then x else 0 := by
  split_ifs
  · rfl
  · rfl

theorem ite_sub {x y : ℕ} : (if x < y then y - x else 0) = y - x := by
  split_ifs <;> omega

theorem move_eq {x y : ℕ} : x + (y - x) - (x - y) = y := by
  omega

theorem raise_eq {x y z : ℕ} (hlt : x < y) : x + z - (x - y) = x + z := by
  omega

theorem lower_eq {x y : ℕ} (hle : y ≤ x) : x + 0 - (x - y) = y := by
  omega

/-- What an adjustment adds to the debt. -/
theorem debt_changed (original edited : Vault) (rate : Decimal) :
    original.debt + (match (paramsTo original edited rate).borrowBPD with
      | some borrowBPD => applyFee rate borrowBPD
      | none => ZERO) - (original.debt - edited.debt) = (adjusted original edited rate).debt := by
  unfold paramsTo adjusted
  by_cases hlt : original.debt < edited.debt
  · simp only [if_pos hlt]
    exact raise_eq hlt
  · simp only [if_neg hlt]
    exact lower_eq (Nat.not_lt.mp hlt)

/-- An adjustment with these parameters ends up in this vault. -/
theorem applyAdjustment_eq {setToZero : Option SetToZero} (hzero : SetsToZero edited setToZero) :
    original.applyAdjustment (paramsTo original edited rate) setToZero rate =
      adjusted original edited rate := by
  have hcoll : original.collateral + (edited.collateral - original.collateral) -
      (original.collateral - edited.collateral) = edited.collateral := move_eq
  have hdeposit : (paramsTo original edited rate).depositCollateral.getD ZERO =
      edited.collateral - original.collateral := by
    simp only [paramsTo, getD_if, ite_sub]
  have hwithdraw : (paramsTo original edited rate).withdrawCollateral.getD ZERO =
      original.collateral - edited.collateral := by
    simp only [paramsTo, getD_if, ite_sub]
  have hrepay : (paramsTo original edited rate).repayBPD.getD ZERO =
      original.debt - edited.debt := by
    simp only [paramsTo, getD_if, ite_sub]
  have hdebt := debt_changed original edited rate
  unfold Vault.applyAdjustment
  rw [hdeposit, hwithdraw, hrepay]
  cases setToZero with
  | none =>
    simp only [Vault.add, Vault.subtract, clampedSub_eq, Decimal.add]
    exact Vault.mk.injEq .. ▸ ⟨hcoll, hdebt⟩
  | some kind =>
    cases kind with
    | collateral =>
      simp only [Vault.setCollateral, Vault.addDebt, Vault.subtractDebt, clampedSub_eq,
        Decimal.add]
      exact Vault.mk.injEq .. ▸ ⟨hzero.symm, hdebt⟩
    | debt =>
      have hnoDebt : edited.debt = 0 := hzero
      have hadjusted : ZERO = (adjusted original edited rate).debt := by
        rw [adjusted, hnoDebt, if_neg (Nat.not_lt_zero _)]
        rfl
      simp only [Vault.setDebt, Vault.addCollateral, Vault.subtractCollateral, clampedSub_eq,
        Decimal.add]
      exact Vault.mk.injEq .. ▸ ⟨hcoll, hadjusted⟩

/-- Without a fee the vault ends up as it was edited. -/
theorem unapplyFee_zero {x : ℕ} : unapplyFee 0 x = x := by
  have hDIGITS : 0 < DIGITS := by
    decide
  have hone : Decimal.add ONE 0 = DIGITS := rfl
  rw [unapplyFee, divCeil, hone, if_neg hDIGITS.ne', Nat.mul_comm,
    Nat.mul_add_div hDIGITS, Nat.div_eq_of_lt (Nat.sub_lt hDIGITS one_pos), Nat.add_zero]

/-- A quotient that is rounded up, times its divisor, in units that are smaller than the divisor
but not twice as small. -/
theorem div_ceil_mul_div {x u r : ℕ} (hr : r < u) :
    x ≤ (x * u + (u + r - 1)) / (u + r) * (u + r) / u ∧
      (x * u + (u + r - 1)) / (u + r) * (u + r) / u ≤ x + 1 := by
  have hu : 0 < u := Nat.zero_lt_of_lt hr
  have hquotient := Nat.div_add_mod' (x * u + (u + r - 1)) (u + r)
  have hrest := Nat.mod_lt (x * u + (u + r - 1)) (Nat.add_pos_left hu r)
  generalize (x * u + (u + r - 1)) / (u + r) * (u + r) = loan at *
  constructor
  · rw [Nat.le_div_iff_mul_le hu]
    omega
  · rw [← Nat.lt_succ_iff, Nat.div_lt_iff_lt_mul hu, Nat.succ_mul, Nat.succ_mul]
    omega

/-- A loan that is rounded up covers the debt asked for, and not even two units more. -/
theorem applyFee_unapplyFee {x : ℕ} (hrate : rate < ONE) :
    x ≤ applyFee rate (unapplyFee rate x) ∧ applyFee rate (unapplyFee rate x) ≤ x + 1 := by
  have hpos : Decimal.add ONE rate ≠ 0 := (Nat.add_pos_left (by decide) _).ne'
  rw [applyFee, unapplyFee, divCeil, mul, if_neg hpos]
  exact div_ceil_mul_div (u := DIGITS) hrate

/-- The debt that is reached with a loan. -/
theorem loan_reaches {x y : ℕ} (hrate : rate < ONE) (hle : x ≤ y) :
    y ≤ x + applyFee rate (unapplyFee rate (y - x)) ∧
      x + applyFee rate (unapplyFee rate (y - x)) ≤ y + 1 ∧
      (rate = 0 → x + applyFee rate (unapplyFee rate (y - x)) = y) := by
  obtain ⟨z, rfl⟩ := Nat.exists_eq_add_of_le hle
  obtain ⟨hcovers, hexcess⟩ := applyFee_unapplyFee (x := z) hrate
  rw [Nat.add_sub_cancel_left]
  refine ⟨Nat.add_le_add_left hcovers x, Nat.add_le_add_left hexcess x, fun hzero => ?_⟩
  rw [hzero, unapplyFee_zero, applyFee_zero]

/-- A vault that is empty or holds the reserve can be compared with any other. -/
theorem whatChanged_total (original edited : Vault) (rate : Decimal)
    (horiginal : original.isEmpty = true ∨ BPD_LIQUIDATION_RESERVE ≤ original.debt) :
    (original.whatChanged edited rate = .ok none ∧
        original.collateral = edited.collateral ∧ original.debt = edited.debt) ∨
      (original.whatChanged edited rate = .ok (some (.invalidCreation edited)) ∧
        original.isEmpty = true) ∨
      ∃ change, original.whatChanged edited rate = .ok (some change) ∧
        isInvalidCreation change = false := by
  have hnet {v : Vault} (hv : BPD_LIQUIDATION_RESERVE ≤ v.debt) :
      v.netDebt = .ok (v.debt - BPD_LIQUIDATION_RESERVE) := by
    simp only [Vault.netDebt, sub, bind_ok, require_ok, pure_ok]
    exact ⟨(), Nat.not_lt.mpr hv, (), hv, trivial⟩
  unfold Vault.whatChanged
  by_cases hsame : original.collateral = edited.collateral ∧ original.debt = edited.debt
  · rw [if_pos hsame]
    exact .inl ⟨rfl, hsame⟩
  rw [if_neg hsame]
  right
  by_cases hempty : original.isEmpty = true
  · rw [if_pos hempty]
    by_cases hlow : edited.debt < BPD_LIQUIDATION_RESERVE
    · rw [if_pos hlow]
      exact .inl ⟨rfl, hempty⟩
    · rw [if_neg hlow, hnet (Nat.not_lt.mp hlow)]
      exact .inr ⟨_, rfl, rfl⟩
  · rw [if_neg hempty, hnet (horiginal.resolve_left hempty)]
    right
    by_cases hclosed : edited.isEmpty = true
    · rw [if_pos hclosed]
      exact ⟨_, rfl, rfl⟩
    · rw [if_neg hclosed]
      split_ifs
      all_goals exact ⟨_, rfl, rfl⟩

/-- A vault that is empty or holds the reserve is changed to any other vault, and reaches its
collateral, and its debt up to one unit. -/
theorem change_reaches (original edited : Vault) (rate : Decimal) (hrate : rate < ONE)
    (horiginal : original.isEmpty = true ∨ BPD_LIQUIDATION_RESERVE ≤ original.debt) :
    ∃ change reached, original.whatChanged edited rate = .ok change ∧
      original.apply change rate = .ok reached ∧ reached.collateral = edited.collateral ∧
      edited.debt ≤ reached.debt ∧ reached.debt ≤ edited.debt + 1 ∧
      (rate = 0 → reached.debt = edited.debt) := by
  have hexact : edited.debt ≤ edited.debt ∧ edited.debt ≤ edited.debt + 1 ∧
      (rate = 0 → edited.debt = edited.debt) := ⟨le_rfl, Nat.le_succ _, fun _ => rfl⟩
  rcases whatChanged_total original edited rate horiginal with ⟨h, hcoll, hdebt⟩ |
    ⟨h, hempty⟩ | ⟨change, h, hvalid⟩
  · rw [← hdebt] at hexact ⊢
    exact ⟨_, original, h, rfl, hcoll, hexact⟩
  · refine ⟨_, edited, h, ?_, rfl, hexact⟩
    simp only [Vault.apply, bind_ok, require_ok, pure_ok]
    exact ⟨(), hempty, trivial⟩
  cases whatChanged_ok h with
  | invalidCreation vault => contradiction
  | creation hempty hreserve =>
    refine ⟨_, ⟨edited.collateral, BPD_LIQUIDATION_RESERVE +
      applyFee rate (unapplyFee rate (edited.debt - BPD_LIQUIDATION_RESERVE))⟩, h, ?_, rfl, ?_⟩
    · simp only [Vault.apply, bind_ok, require_ok, pure_ok]
      exact ⟨(), hempty, rfl⟩
    · exact loan_reaches hrate hreserve
  | closure params hopen hempty hreserve hrepay =>
    obtain ⟨hcoll, hdebt⟩ := isEmpty_iff.mp hempty
    refine ⟨_, Vault.empty, h, ?_, hcoll.symm, ?_⟩
    · simp only [Vault.apply, bind_ok, require_ok, pure_ok]
      exact ⟨(), hopen, trivial⟩
    · rw [hdebt]
      exact ⟨le_rfl, Nat.zero_le _, fun _ => rfl⟩
  | adjustment setToZero hopen hstays hne hzero =>
    refine ⟨_, adjusted original edited rate, h, ?_, rfl, ?_⟩
    · rw [Vault.apply, applyAdjustment_eq hzero]
      rfl
    · unfold adjusted
      split_ifs with hlt
      · exact loan_reaches hrate hlt.le
      · exact hexact

/-- A vault of 2000 BPD takes up 200 wei more at half a percent, and pays in collateral. -/
theorem change_reaches_borrowing : ∃ change reached,
    (⟨10 ^ 18, 2000 * 10 ^ 18⟩ : Vault).whatChanged ⟨2 * 10 ^ 18, 2000 * 10 ^ 18 + 200⟩
      (5 * 10 ^ 15) = .ok change ∧
    (⟨10 ^ 18, 2000 * 10 ^ 18⟩ : Vault).apply change (5 * 10 ^ 15) = .ok reached ∧
    reached.collateral = 2 * 10 ^ 18 ∧ 2000 * 10 ^ 18 + 200 ≤ reached.debt ∧
    reached.debt ≤ 2000 * 10 ^ 18 + 200 + 1 := by
  obtain ⟨change, reached, hchange, hreached, hcoll, hcovers, hexcess, -⟩ :=
    change_reaches ⟨10 ^ 18, 2000 * 10 ^ 18⟩ ⟨2 * 10 ^ 18, 2000 * 10 ^ 18 + 200⟩
      (5 * 10 ^ 15) (by decide) (.inr (by decide))
  exact ⟨change, reached, hchange, hreached, hcoll, hcovers, hexcess⟩

end MoneyProtocol.Sdk.Frontend
