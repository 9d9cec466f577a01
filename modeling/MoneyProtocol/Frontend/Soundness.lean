import MoneyProtocol.Frontend.Changes
import MoneyProtocol.Frontend.ContractChecks

/-!
# What the frontend's validation is worth

A valid change becomes a call of `openVault`, `adjustVault` or `closeVault`. The frontend knows
the rules of the contracts but for some of those that depend on the mode: it never looks at the
total after a closure, nor at the ratio of a vault that only pays in; in Recovery Mode it allows
withdrawals, and loans to vaults below the critical ratio. Where the contracts leave pending debt
of the vault out, they look at a smaller debt than the frontend.
-/

namespace MoneyProtocol.Sdk.Frontend

open Outcome Decimal BorrowerOperations MoneypBase MoneypMath

variable {d : Deployment} {s s' s₀ : State} {block : Block} {borrower : Address}
  {recorded original edited : Vault} {t : Transaction} {change : VaultChange} {rate price : ℕ}
  {r : Bool}
  {c : VaultChangeValidationContext} {params : VaultAdjustmentParams} {p : PopulatedAdjustment}

/-- What is sent to adjust a vault to another. -/
def populatedTo (original edited : Vault) (rate : Decimal) : PopulatedAdjustment where
  value := edited.collateral - original.collateral
  collWithdrawal := original.collateral - edited.collateral
  BPDChange := if original.debt < edited.debt then unapplyFee rate (edited.debt - original.debt)
    else original.debt - edited.debt
  isDebtIncrease := decide (original.debt < edited.debt)

theorem unapplyFee_pos {x : ℕ} (hx : 0 < x) : 0 < unapplyFee rate x := by
  have hone : 0 < Decimal.add ONE rate := Nat.add_pos_left (by decide) _
  have hDIGITS : 1 ≤ DIGITS := by
    decide
  rw [unapplyFee, divCeil, if_neg hone.ne']
  apply Nat.div_pos _ hone
  have hscaled : 1 ≤ x * DIGITS := Nat.mul_pos hx hDIGITS
  omega

theorem nonZero_ite {p : Prop} [Decidable p] {x : ℕ} (hx : p → x ≠ 0) :
    nonZero (if p then some x else none) = if p then some x else none := by
  split_ifs with hp
  · exact nonZero_of_ne (hx hp)
  · rfl

theorem ite_eq_none {p : Prop} [Decidable p] {x : ℕ} :
    (if p then some x else none) = none ↔ ¬p := by
  split_ifs with hp <;> simp [hp]

theorem not_both_lt {x y : ℕ} : ¬x < y ∨ ¬y < x := by
  omega

theorem eq_of_not_lt {x y : ℕ} (hxy : ¬x < y) (hyx : ¬y < x) : x = y := by
  omega

/-- These parameters are normal. -/
theorem normalize_paramsTo
    (hne : original.collateral ≠ edited.collateral ∨ original.debt ≠ edited.debt) :
    normalizeVaultAdjustment (paramsTo original edited rate) =
      .ok (paramsTo original edited rate) := by
  have hdeposit : nonZero (paramsTo original edited rate).depositCollateral =
      (paramsTo original edited rate).depositCollateral :=
    nonZero_ite fun hlt => Nat.sub_ne_zero_of_lt hlt
  have hwithdraw : nonZero (paramsTo original edited rate).withdrawCollateral =
      (paramsTo original edited rate).withdrawCollateral :=
    nonZero_ite fun hlt => Nat.sub_ne_zero_of_lt hlt
  have hborrow : nonZero (paramsTo original edited rate).borrowBPD =
      (paramsTo original edited rate).borrowBPD :=
    nonZero_ite fun hlt => (unapplyFee_pos (Nat.sub_pos_of_lt hlt)).ne'
  have hrepay : nonZero (paramsTo original edited rate).repayBPD =
      (paramsTo original edited rate).repayBPD :=
    nonZero_ite fun hlt => Nat.sub_ne_zero_of_lt hlt
  simp only [normalizeVaultAdjustment, hdeposit, hwithdraw, hborrow, hrepay, bind_ok, require_ok,
    pure_ok]
  refine ⟨(), ?_, (), ?_, (), ?_, trivial⟩
  · simp only [paramsTo, ite_eq_none]
    exact not_both_lt
  · simp only [paramsTo, ite_eq_none]
    exact not_both_lt
  · intro hempty
    simp only [paramsTo, VaultAdjustmentParams.mk.injEq, ite_eq_none] at hempty
    obtain ⟨hdeposit, hwithdraw, hborrow, hrepay⟩ := hempty
    rcases hne with hcoll | hdebt
    · exact hcoll (eq_of_not_lt hdeposit hwithdraw)
    · exact hdebt (eq_of_not_lt hborrow hrepay)

theorem populate_paramsTo
    (hne : original.collateral ≠ edited.collateral ∨ original.debt ≠ edited.debt) :
    populateAdjustVault (paramsTo original edited rate) =
      .ok (populatedTo original edited rate) := by
  simp only [populateAdjustVault, normalize_paramsTo hne, bind_ok, pure_ok, Except.ok.injEq]
  refine ⟨_, rfl, ?_⟩
  have hdeposit : (paramsTo original edited rate).depositCollateral.getD 0 =
      edited.collateral - original.collateral := getD_if.trans ite_sub
  have hwithdraw : (paramsTo original edited rate).withdrawCollateral.getD ZERO =
      original.collateral - edited.collateral := getD_if.trans ite_sub
  rw [hdeposit, hwithdraw]
  unfold paramsTo populatedTo
  by_cases hlt : original.debt < edited.debt
  · simp [hlt]
  · have hrepay := getD_if.trans (ite_sub (x := edited.debt) (y := original.debt))
    simp [hlt]
    exact hrepay

/-- The state that the frontend validates against, with the original vault in the system. The
contracts record its collateral, and its debt but for what is hidden; the borrowing rate of the
SDK is zero in Recovery Mode. -/
structure SeenBy (c : VaultChangeValidationContext) (original : Vault) (rate : Decimal)
    (borrower : Address) (s : State) (isRecoveryMode : Bool) : Prop where
  total : getTotal s = c.total
  bpdBalance : s.bpdToken.balances borrower = c.bpdBalance
  mode : checkRecoveryMode c.price s = .ok isRecoveryMode
  collateral : (collectedVault borrower s).collateral = original.collateral
  recorded_le : (collectedVault borrower s).debt ≤ original.debt
  collateral_le : original.collateral ≤ c.total.collateral
  debt_le : original.debt ≤ c.total.debt
  rate_zero : isRecoveryMode = true → rate = 0

theorem SeenBy.critical (hseen : SeenBy c original rate borrower s r) :
    c.total.collateralRatioIsBelowCritical c.price = r := by
  rw [← hseen.total]
  exact recoveryMode_eq hseen.mode

theorem getNewICR_ratio {coll debt collChange debtChange ICR : ℕ} {collIn debtIn : Bool}
    (h : getNewICRFromVaultChange coll debt collChange collIn debtChange debtIn price = .ok ICR) :
    ICR = (Vault.mk (changed coll collChange collIn)
      (changed debt debtChange debtIn)).collateralRatio price := by
  simp only [getNewICRFromVaultChange, getNewVaultAmounts, bind_ok, pure_ok, Prod.exists,
    Prod.mk.injEq] at h
  obtain ⟨_, _, ⟨_, hcoll, _, hdebt, rfl, rfl⟩, hICR⟩ := h
  rw [← (getNewAmount_ok hcoll).1, ← (getNewAmount_ok hdebt).1, collateralRatio_eq,
    computeCR_ok hICR]

theorem getNewTCR_ratio {collChange debtChange TCR : ℕ} {collIn debtIn : Bool}
    (h : getNewTCRFromVaultChange collChange collIn debtChange debtIn price s = .ok TCR) :
    TCR = (Vault.mk (changed (getTotal s).collateral collChange collIn)
      (changed (getTotal s).debt debtChange debtIn)).collateralRatio price := by
  simp only [getNewTCRFromVaultChange, getEntireSystemColl, getEntireSystemDebt, bind_ok,
    SafeMath.add_ok] at h
  obtain ⟨_, ⟨-, rfl⟩, _, ⟨-, rfl⟩, _, hcoll, _, hdebt, hTCR⟩ := h
  rw [collateralRatio_eq, ← computeCR_ok hTCR, (getNewAmount_ok hcoll).1, (getNewAmount_ok hdebt).1]
  rfl

theorem MCR_eq : MCR = MINIMUM_COLLATERAL_RATIO := by
  decide

theorem CCR_eq : CCR = CRITICAL_COLLATERAL_RATIO := by
  decide

theorem belowMinimum_iff {v : Vault} :
    ¬v.collateralRatioIsBelowMinimum price ↔ MCR ≤ v.collateralRatio price := by
  rw [MCR_eq, Vault.collateralRatioIsBelowMinimum, decide_eq_true_eq]
  exact Nat.not_lt

theorem belowCritical_iff {v : Vault} :
    ¬v.collateralRatioIsBelowCritical price ↔ CCR ≤ v.collateralRatio price := by
  rw [CCR_eq, Vault.collateralRatioIsBelowCritical, decide_eq_true_eq]
  exact Nat.not_lt

/-- In Recovery Mode there is no fee, and outside it the rate is charged. -/
theorem SeenBy.net {amount net : ℕ} (hseen : SeenBy c original rate borrower s r)
    (h : netDebtOf r rate amount = .ok net) : net = applyFee rate amount := by
  rw [netDebtOf_ok h]
  cases hr : r
  · rfl
  · rw [hseen.rate_zero hr, ite_self]

theorem MIN_NET_DEBT_le {net : ℕ}
    (h : BPD_MINIMUM_DEBT ≤ BPD_LIQUIDATION_RESERVE + net) : MIN_NET_DEBT ≤ net :=
  Nat.le_of_add_le_add_left h

theorem compositeDebt_eq {net composite : ℕ} (h : getCompositeDebt net = .ok composite) :
    composite = BPD_LIQUIDATION_RESERVE + net := by
  rw [getCompositeDebt, SafeMath.add_ok] at h
  rw [← h.2, Nat.add_comm]
  rfl

theorem subtract_empty {total : Vault} (hempty : original.isEmpty = true) :
    total.subtract original = total := by
  obtain ⟨hcoll, hdebt⟩ := isEmpty_iff.mp hempty
  simp only [Vault.subtract, clampedSub_eq, hcoll, hdebt, Nat.sub_zero]

/-- An opening breaks no rule. -/
theorem openVaultChecks_iff {value amount : ℕ} (hseen : SeenBy c original rate borrower s r)
    (hempty : original.isEmpty = true)
    (hpassed : Passed original ⟨value, BPD_LIQUIDATION_RESERVE + applyFee rate amount⟩
      (.creation ⟨value, amount⟩) c) :
    openVaultChecks rate value amount c.price s = .ok () ↔
      openVaultRatios rate value amount c.price s = .ok () := by
  simp only [openVaultChecks, openVaultRatios, hseen.mode, bind_ok, Except.ok.injEq]
  constructor
  · rintro ⟨_, rfl, net, hnet, _, -, composite, hcomposite, ICR, hICR, hvalid⟩
    refine ⟨r, rfl, net, hnet, composite, hcomposite, ICR, hICR, ?_⟩
    cases r
    · simp only [requireValidOpening, Bool.false_eq_true, if_false, bind_ok] at hvalid ⊢
      obtain ⟨_, -, TCR, hTCR, -⟩ := hvalid
      exact ⟨TCR, hTCR, rfl⟩
    · rfl
  · rintro ⟨_, rfl, net, hnet, composite, hcomposite, ICR, hICR, hTCR⟩
    have hcomposite' := compositeDebt_eq hcomposite
    have hratio : ICR = (Vault.mk value composite).collateralRatio c.price := by
      rw [collateralRatio_eq, computeCR_ok hICR]
    rw [← hseen.net hnet, ← hcomposite'] at hpassed
    have hmin : MIN_NET_DEBT ≤ net := by
      apply MIN_NET_DEBT_le
      rw [← hcomposite']
      exact hpassed.debt.resolve_left Bool.false_ne_true
    refine ⟨r, rfl, net, hnet, (), require_ok.mpr hmin, composite, hcomposite, ICR, hICR, ?_⟩
    cases hr : r
    · rw [hr] at hTCR hseen
      simp only [Bool.false_eq_true, if_false, bind_ok] at hTCR
      obtain ⟨TCR, hTCR, -⟩ := hTCR
      have hcritical : ¬c.total.collateralRatioIsBelowCritical c.price := by
        rw [hseen.critical]
        exact Bool.false_ne_true
      have hTCR' := getNewTCR_ratio hTCR
      have htotal := hpassed.total (.inl rfl) hcritical
      rw [subtract_empty hempty, belowCritical_iff] at htotal
      have hICR' := belowMinimum_iff.mp (hpassed.ratio (.inl rfl))
      simp only [requireValidOpening, requireICRisAboveMCR, requireNewTCRisAboveCCR,
        Bool.false_eq_true, if_false, bind_ok, require_ok]
      refine ⟨(), hratio ▸ hICR', TCR, hTCR, ?_⟩
      rw [hTCR', hseen.total]
      exact htotal
    · rw [hr] at hseen
      have hopenable := of_decide_eq_true (hpassed.opening rfl hseen.critical)
      rw [requireValidOpening, if_pos rfl, requireICRisAboveCCR, require_ok, hratio, CCR_eq]
      exact hopenable

/-- A closure may only bring the total below the critical ratio. -/
theorem closeVaultChecks_iff {params : VaultClosureParams}
    (hseen : SeenBy c original rate borrower s r)
    (hrepay : params.repayBPD.getD ZERO = original.debt - BPD_LIQUIDATION_RESERVE)
    (hpassed : Passed original Vault.empty (.closure params) c) :
    closeVaultChecks borrower (collectedVault borrower s) c.price s = .ok () ↔
      closeVaultRatios (collectedVault borrower s) c.price s = .ok () ∧
        ¬(c.total.subtract (collectedVault borrower s)).collateralRatioIsBelowCritical c.price := by
  have hrecorded := hseen.recorded_le
  generalize collectedVault borrower s = recorded at hrecorded ⊢
  have hnormal : r = false := by
    have hclosure := hpassed.closure rfl
    rw [hseen.critical] at hclosure
    exact Bool.eq_false_iff.mpr hclosure
  have hbalance : recorded.debt - BPD_GAS_COMPENSATION ≤ s.bpdToken.balances borrower := by
    rw [hseen.bpdBalance]
    exact (Nat.sub_le_sub_right hrecorded _).trans (hrepay ▸ hpassed.balance)
  have hTCR {TCR : ℕ}
      (h : getNewTCRFromVaultChange recorded.collateral false recorded.debt false c.price s =
        .ok TCR) : TCR = (c.total.subtract recorded).collateralRatio c.price := by
    rw [getNewTCR_ratio h, hseen.total]
    simp only [changed, Bool.false_eq_true, if_false, Vault.subtract, clampedSub_eq]
  rw [belowCritical_iff]
  simp only [closeVaultChecks, closeVaultRatios, requireNotInRecoveryMode, hseen.mode,
    requireSufficientBPDBalance, requireNewTCRisAboveCCR, bind_ok, Except.ok.injEq, require_ok]
  constructor
  · rintro ⟨_, -, net, hnet, _, -, TCR, h, hle⟩
    refine ⟨⟨net, hnet, TCR, h, rfl⟩, ?_⟩
    rw [← hTCR h]
    exact hle
  · rintro ⟨⟨net, hnet, TCR, h, -⟩, hle⟩
    obtain rfl := (SafeMath.sub_ok.mp hnet).2
    refine ⟨(), ⟨r, rfl, hnormal⟩, _, hnet, (), hbalance, TCR, h, ?_⟩
    rw [hTCR h]
    exact hle

theorem getCollChange_changed {x y z : ℕ} (hle : x ≤ z) :
    changed z (getCollChange (y - x) (x - y)).1 (getCollChange (y - x) (x - y)).2 = z - x + y := by
  unfold getCollChange changed
  split_ifs
  all_goals
    simp at *
    try omega

theorem shift_up {x y z : ℕ} (hle : x ≤ z) : z + y = z - x + (x + y) := by
  omega

theorem shift_down {x y z : ℕ} (hlt : ¬x < y) (hle : x ≤ z) : z - (x - y) = z - x + y := by
  omega

/-- The debt that an adjustment charges. -/
def netChange (original edited : Vault) (rate : Decimal) : ℕ :=
  if original.debt < edited.debt then applyFee rate (unapplyFee rate (edited.debt - original.debt))
  else original.debt - edited.debt

/-- What an adjustment does to a debt of which the original one is a part. -/
theorem netChange_changed (edited : Vault) (rate : Decimal) {z : ℕ} (hle : original.debt ≤ z) :
    changed z (netChange original edited rate) (decide (original.debt < edited.debt)) =
      z - original.debt + (adjusted original edited rate).debt := by
  unfold adjusted changed netChange
  by_cases hlt : original.debt < edited.debt
  · simp only [hlt, decide_true, if_true]
    exact shift_up hle
  · simp only [hlt, decide_false, Bool.false_eq_true, if_false]
    exact shift_down hlt hle

theorem SeenBy.netChange {net : ℕ} (hseen : SeenBy c original rate borrower s r)
    (h : netDebtOf (r || !(populatedTo original edited rate).isDebtIncrease) rate
      (populatedTo original edited rate).BPDChange = .ok net) :
    net = netChange original edited rate := by
  unfold populatedTo at h
  unfold Frontend.netChange
  by_cases hlt : original.debt < edited.debt
  · simp only [hlt, decide_true, Bool.not_true, Bool.or_false, if_true] at h ⊢
    exact hseen.net h
  · simp only [hlt, decide_false, Bool.not_false, Bool.or_true, if_false] at h ⊢
    rw [netDebtOf_ok h, if_pos rfl, applyFee_zero]

theorem adjusted_of_le (hle : ¬original.debt < edited.debt) :
    adjusted original edited rate = edited := by
  unfold adjusted
  rw [if_neg hle]

/-- The vault that the contracts end up with: they make the change to what they recorded. -/
def recordedAfter (recorded original adjusted : Vault) : Vault :=
  ⟨adjusted.collateral, recorded.debt + adjusted.debt - original.debt⟩

theorem hidden_shift {x o e : ℕ} (hle : ¬o < e) : x - (o - e) = x + e - o := by
  omega

theorem add_shift {x o y : ℕ} : x + y = x + (o + y) - o := by
  omega

theorem netChange_recorded (recorded original edited : Vault) (rate : Decimal) :
    changed recorded.debt (netChange original edited rate)
      (decide (original.debt < edited.debt)) =
        (recordedAfter recorded original (adjusted original edited rate)).debt := by
  unfold recordedAfter adjusted changed netChange
  by_cases hlt : original.debt < edited.debt
  · simp only [hlt, decide_true, if_true]
    exact add_shift
  · simp only [hlt, decide_false, Bool.false_eq_true, if_false]
    exact hidden_shift hlt

theorem recordedAfter_le {adjusted : Vault} (h : recorded.debt ≤ original.debt) :
    (recordedAfter recorded original adjusted).debt ≤ adjusted.debt := by
  rw [recordedAfter, Nat.sub_le_iff_le_add, Nat.add_comm]
  exact Nat.add_le_add_left h _

theorem repayment_fits {x o e reserve minimum : ℕ} (hpos : 0 < minimum)
    (hmin : reserve + minimum ≤ x + e - o) (hle : e ≤ o) :
    reserve ≤ x ∧ o - e ≤ x - reserve ∧ minimum ≤ x - reserve - (o - e) := by
  omega

theorem repayment_leaves {x o e reserve minimum : ℕ} (hlt : e < o) (hreserve : reserve ≤ x)
    (hpaid : o - e ≤ x - reserve) (hmin : minimum ≤ x - reserve - (o - e)) :
    reserve + minimum ≤ x + e - o := by
  omega

/-- A repayment is valid where it leaves the minimum debt of what the contracts recorded. -/
theorem requireValidRepayment_iff (recorded : Vault) {setToZero : Option SetToZero}
    (hseen : SeenBy c original rate borrower s r)
    (hpassed : Passed original (adjusted original edited rate)
      (.adjustment (paramsTo original edited rate) setToZero) c) :
    requireValidRepayment (asAdjustment (populatedTo original edited rate)) borrower recorded.debt
        (netChange original edited rate) s = .ok () ↔
      (edited.debt < original.debt → BPD_MINIMUM_DEBT ≤
        (recordedAfter recorded original (adjusted original edited rate)).debt) := by
  unfold requireValidRepayment
  by_cases hlt : edited.debt < original.debt
  · have hle : ¬original.debt < edited.debt := hlt.not_gt
    have hrepays : (asAdjustment (populatedTo original edited rate)).isDebtIncrease = false ∧
        (asAdjustment (populatedTo original edited rate)).BPDChange > 0 := by
      simp only [asAdjustment, populatedTo, hle, decide_false, if_false, true_and]
      exact Nat.sub_pos_of_lt hlt
    have hbalance : original.debt - edited.debt ≤ s.bpdToken.balances borrower := by
      rw [hseen.bpdBalance]
      have hpaid := hpassed.balance
      have hrepay : (paramsTo original edited rate).repayBPD.getD ZERO =
          original.debt - edited.debt := getD_if.trans ite_sub
      exact hrepay ▸ hpaid
    rw [if_pos hrepays, netChange, if_neg hle, adjusted_of_le hle]
    simp only [getNetDebt, requireAtLeastMinNetDebt, requireValidBPDRepayment,
      requireSufficientBPDBalance, bind_ok, SafeMath.sub_ok, require_ok]
    constructor
    · rintro ⟨_, ⟨hreserve, rfl⟩, _, ⟨hpaid, rfl⟩, _, hleft, -⟩ -
      exact repayment_leaves hlt hreserve hpaid hleft
    · intro hmin
      obtain ⟨hreserve, hroom, hleft⟩ := repayment_fits (by decide) (hmin hlt) hlt.le
      exact ⟨_, ⟨hreserve, rfl⟩, _, ⟨hroom, rfl⟩, (), hleft, (), ⟨_, ⟨hreserve, rfl⟩, hroom⟩,
        hbalance⟩
  · have hkeeps : ¬((asAdjustment (populatedTo original edited rate)).isDebtIncrease = false ∧
        (asAdjustment (populatedTo original edited rate)).BPDChange > 0) := by
      rintro ⟨hdecrease, hpos⟩
      have hle : ¬original.debt < edited.debt := of_decide_eq_false hdecrease
      simp only [asAdjustment, populatedTo, hle, if_false] at hpos
      exact hlt (Nat.lt_of_sub_pos hpos)
    rw [if_neg hkeeps]
    exact ⟨fun _ h => absurd h hlt, fun _ => rfl⟩

/-- The rules for an adjustment that the frontend does not know, of the vault that the contracts
recorded: a repayment leaves the minimum debt; in Recovery Mode nothing is withdrawn, and who
borrows ends up above the critical ratio and not below the old one; outside it even who only pays
in ends up above the minimum ratio. -/
def AdjustmentRules (recorded original edited : Vault) (rate : Decimal)
    (c : VaultChangeValidationContext) : Prop :=
  let after := recordedAfter recorded original (adjusted original edited rate)
  (edited.debt < original.debt → BPD_MINIMUM_DEBT ≤ after.debt) ∧
    if c.total.collateralRatioIsBelowCritical c.price then
      original.collateral ≤ edited.collateral ∧
        (original.debt < edited.debt → ¬after.collateralRatioIsBelowCritical c.price ∧
          recorded.collateralRatio c.price ≤ after.collateralRatio c.price)
    else
      original.collateral ≤ edited.collateral → edited.debt ≤ original.debt →
        ¬after.collateralRatioIsBelowMinimum c.price

theorem takesOut_iff {setToZero : Option SetToZero} :
    takesOut (.adjustment (paramsTo original edited rate) setToZero) = true ↔
      edited.collateral < original.collateral ∨ original.debt < edited.debt := by
  simp only [takesOut, paramsTo, Bool.or_eq_true]
  apply or_congr
  · split_ifs with hlt <;> simp [hlt]
  · split_ifs with hlt <;> simp [hlt]

/-- The total ratio is computed, outside Recovery Mode. -/
def ComputesTCR (isRecoveryMode : Bool) (newTCR : Outcome ℕ) : Prop :=
  isRecoveryMode = false → ∃ TCR, newTCR = .ok TCR

/-- With less debt a vault stays above the minimum ratio. -/
theorem minimum_of_le {coll debt debt' : ℕ} (hle : debt' ≤ debt)
    (h : MCR ≤ (Vault.mk coll debt).collateralRatio price) :
    MCR ≤ (Vault.mk coll debt').collateralRatio price := by
  rw [collateralRatio_eq] at h ⊢
  unfold MoneypMath.collRatio at h ⊢
  dsimp only at h ⊢
  by_cases hdebt : 0 < debt'
  · rw [if_pos hdebt]
    rw [if_pos (hdebt.trans_le hle)] at h
    exact h.trans (Nat.div_le_div_left hle hdebt)
  · rw [if_neg hdebt]
    decide +kernel

theorem requireValidAdjustment_iff {setToZero : Option SetToZero}
    (oldICR newICR net collChange : ℕ) (isCollIncrease : Bool)
    (hseen : SeenBy c original rate borrower s r) (hrecorded : recorded.debt ≤ original.debt)
    (hpassed : Passed original (adjusted original edited rate)
      (.adjustment (paramsTo original edited rate) setToZero) c)
    (hold : oldICR = recorded.collateralRatio c.price)
    (hnew : newICR = (recordedAfter recorded original
      (adjusted original edited rate)).collateralRatio c.price)
    (hTCR : ∀ TCR, getNewTCRFromVaultChange collChange isCollIncrease net
      (decide (original.debt < edited.debt)) c.price s = .ok TCR → TCR =
        ((c.total.subtract original).add (adjusted original edited rate)).collateralRatio c.price) :
    requireValidAdjustmentInCurrentMode r (original.collateral - edited.collateral)
        (decide (original.debt < edited.debt)) oldICR newICR collChange isCollIncrease net c.price
        s = .ok () ∧ (edited.debt < original.debt → BPD_MINIMUM_DEBT ≤
          (recordedAfter recorded original (adjusted original edited rate)).debt) ↔
      ComputesTCR r (getNewTCRFromVaultChange collChange isCollIncrease net
        (decide (original.debt < edited.debt)) c.price s) ∧
        AdjustmentRules recorded original edited rate c := by
  have hcritical := hseen.critical
  unfold requireValidAdjustmentInCurrentMode AdjustmentRules
  -- the rule for repayments stands on both sides
  refine and_comm.trans (Iff.trans (and_congr_right fun _ => ?_) and_left_comm)
  cases hr : r
  · rw [hr] at hcritical
    have hnormal : ¬c.total.collateralRatioIsBelowCritical c.price := by
      rw [hcritical]
      exact Bool.false_ne_true
    have htotal := hpassed.total (.inr rfl) hnormal
    rw [belowCritical_iff] at htotal
    rw [if_neg Bool.false_ne_true, if_neg hnormal, belowMinimum_iff]
    simp only [requireICRisAboveMCR, requireNewTCRisAboveCCR, bind_ok, require_ok]
    constructor
    · rintro ⟨_, hMCR, TCR, h, -⟩
      exact ⟨fun _ => ⟨TCR, h⟩, fun _ _ => hnew ▸ hMCR⟩
    · rintro ⟨hcomputes, hrules⟩
      obtain ⟨TCR, h⟩ := hcomputes rfl
      refine ⟨(), ?_, TCR, h, hTCR TCR h ▸ htotal⟩
      rw [hnew]
      by_cases htakes : edited.collateral < original.collateral ∨ original.debt < edited.debt
      · exact minimum_of_le (recordedAfter_le hrecorded)
          (belowMinimum_iff.mp (hpassed.ratio (.inr (takesOut_iff.mpr htakes))))
      · push Not at htakes
        exact hrules htakes.1 htakes.2
  · rw [hr] at hcritical
    rw [if_pos rfl, if_pos hcritical, belowCritical_iff, ← hnew, ← hold]
    simp only [requireNoCollWithdrawal, bind_ok, require_ok, Nat.sub_eq_zero_iff_le]
    constructor
    · rintro ⟨_, hcoll, hvalid⟩
      refine ⟨fun h => absurd h.symm Bool.false_ne_true, hcoll, ?_⟩
      intro hborrows
      simp only [hborrows, decide_true, if_true, requireICRisAboveCCR, requireNewICRisAboveOldICR,
        bind_ok, require_ok] at hvalid
      obtain ⟨_, hCCR, hnotBelow⟩ := hvalid
      exact ⟨hCCR, hnotBelow⟩
    · rintro ⟨-, hcoll, hrules⟩
      refine ⟨(), hcoll, ?_⟩
      by_cases hborrows : original.debt < edited.debt
      · simp only [hborrows, decide_true, if_true, requireICRisAboveCCR,
          requireNewICRisAboveOldICR, bind_ok, require_ok]
        exact ⟨(), hrules hborrows⟩
      · simp only [hborrows, decide_false, Bool.false_eq_true, if_false]
        rfl

/-- An adjustment may break these rules only. -/
theorem adjustVaultChecks_iff {setToZero : Option SetToZero}
    (hseen : SeenBy c original rate borrower s r)
    (hpassed : Passed original (adjusted original edited rate)
      (.adjustment (paramsTo original edited rate) setToZero) c) :
    adjustVaultChecks borrower (collectedVault borrower s) rate c.price
        (populatedTo original edited rate) s = .ok () ↔
      adjustVaultRatios (collectedVault borrower s) rate c.price
        (populatedTo original edited rate) s = .ok () ∧
          AdjustmentRules (collectedVault borrower s) original edited rate c := by
  have hcollMoved := getCollChange_changed (y := edited.collateral) (le_refl original.collateral)
  have htotalMoved := getCollChange_changed (y := edited.collateral) hseen.collateral_le
  have htotalDebt := netChange_changed edited rate hseen.debt_le
  have hrecorded := hseen.recorded_le
  have hcoll := hseen.collateral
  generalize collectedVault borrower s = recorded at hrecorded hcoll ⊢
  have hdebtMoved := netChange_recorded recorded original edited rate
  have hrepayment := requireValidRepayment_iff recorded hseen hpassed
  unfold adjustVaultChecks adjustVaultRatios
  rw [show (populatedTo original edited rate).value =
    edited.collateral - original.collateral from rfl,
    show (populatedTo original edited rate).collWithdrawal =
      original.collateral - edited.collateral from rfl]
  generalize getCollChange (edited.collateral - original.collateral)
    (original.collateral - edited.collateral) = collChange at *
  obtain ⟨collChange, isCollIncrease⟩ := collChange
  rw [Nat.sub_self, Nat.zero_add] at hcollMoved
  have hmode {net oldICR newICR : ℕ} (hnet : net = netChange original edited rate)
      (hold : computeCR recorded.collateral recorded.debt c.price = .ok oldICR)
      (hnew : getNewICRFromVaultChange recorded.collateral recorded.debt collChange isCollIncrease
        net (populatedTo original edited rate).isDebtIncrease c.price = .ok newICR) := by
    refine requireValidAdjustment_iff oldICR newICR net collChange isCollIncrease hseen hrecorded
      hpassed ?_ ?_ ?_
    · rw [collateralRatio_eq, computeCR_ok hold]
    · rw [getNewICR_ratio hnew, hnet, hcoll, hcollMoved]
      exact congrArg (fun debt => (Vault.mk edited.collateral debt).collateralRatio c.price)
        hdebtMoved
    · intro TCR hTCR
      rw [getNewTCR_ratio hTCR, hseen.total, hnet, htotalMoved, htotalDebt]
      simp only [Vault.subtract, Vault.add, clampedSub_eq]
      rfl
  simp only [hseen.mode, bind_ok, Except.ok.injEq]
  constructor
  · rintro ⟨_, rfl, net, hnet, oldICR, hold, newICR, hnew, _, hvalid, hrepaid⟩
    have hnet' := hseen.netChange hnet
    obtain ⟨hcomputes, hrules⟩ :=
      (hmode hnet' hold hnew).mp ⟨hvalid, hrepayment.mp (hnet' ▸ hrepaid)⟩
    refine ⟨⟨r, rfl, net, hnet, oldICR, hold, newICR, hnew, ?_⟩, hrules⟩
    cases hr : r
    · obtain ⟨TCR, hTCR⟩ := hcomputes hr
      simp only [Bool.false_eq_true, if_false, bind_ok]
      exact ⟨TCR, hTCR, rfl⟩
    · rfl
  · rintro ⟨⟨_, rfl, net, hnet, oldICR, hold, newICR, hnew, hTCR⟩, hrules⟩
    have hnet' := hseen.netChange hnet
    have hcomputes : ComputesTCR r (getNewTCRFromVaultChange collChange isCollIncrease net
        (decide (original.debt < edited.debt)) c.price s) := by
      intro hr
      simp only [hr, Bool.false_eq_true, if_false, bind_ok] at hTCR
      obtain ⟨TCR, hTCR, -⟩ := hTCR
      exact ⟨TCR, hTCR⟩
    obtain ⟨hvalid, hmin⟩ := (hmode hnet' hold hnew).mpr ⟨hcomputes, hrules⟩
    exact ⟨r, rfl, net, hnet, oldICR, hold, newICR, hnew, (), hvalid, hnet' ▸ hrepayment.mpr hmin⟩

/-- The rules of the contracts that the frontend does not know, for the change from the original
vault to the edited one, which the contracts make to the recorded vault. -/
def UncheckedRules (recorded original edited : Vault) (rate : Decimal)
    (c : VaultChangeValidationContext) : Prop :=
  if original.isEmpty then True
  else if edited.isEmpty then
    ¬(c.total.subtract recorded).collateralRatioIsBelowCritical c.price
  else AdjustmentRules recorded original edited rate c

/-- What the checks of a valid change come to. -/
theorem contractChecks_iff (hseen : SeenBy c original rate borrower s r)
    (hvalid : validateVaultChange original edited rate c = .ok (.valid change)) :
    contractChecks borrower (collectedVault borrower s) rate c.price change s = .ok () ↔
      contractRatios (collectedVault borrower s) rate c.price change s = .ok () ∧
        UncheckedRules (collectedVault borrower s) original edited rate c := by
  obtain ⟨hchange, afterFee, hafter, hpassed⟩ := validateVaultChange_valid hvalid
  unfold UncheckedRules
  cases whatChanged_ok hchange with
  | invalidCreation vault => exact absurd hpassed.created (Bool.noConfusion ·)
  | creation hempty hreserve =>
    simp only [Vault.apply, bind_ok, require_ok, pure_ok] at hafter
    obtain ⟨_, -, rfl⟩ := hafter
    rw [if_pos hempty, and_true]
    exact openVaultChecks_iff hseen hempty hpassed
  | closure params hopen hempty hreserve hrepay =>
    simp only [Vault.apply, bind_ok, require_ok, pure_ok] at hafter
    obtain ⟨_, -, rfl⟩ := hafter
    rw [if_neg (Bool.eq_false_iff.mp hopen), if_pos hempty]
    exact closeVaultChecks_iff hseen hrepay hpassed
  | adjustment setToZero hopen hstays hne hzero =>
    obtain rfl := pure_ok.mp hafter
    rw [applyAdjustment_eq hzero] at hpassed
    rw [if_neg (Bool.eq_false_iff.mp hopen), if_neg (Bool.eq_false_iff.mp hstays)]
    have hiff := adjustVaultChecks_iff hseen hpassed
    simp only [contractChecks, contractRatios, populate_paramsTo hne, bind_ok, Except.ok.injEq]
    constructor
    · rintro ⟨_, rfl, hchecks⟩
      obtain ⟨hratios, hrules⟩ := hiff.mp hchecks
      exact ⟨⟨_, rfl, hratios⟩, hrules⟩
    · rintro ⟨⟨_, rfl, hratios⟩, hrules⟩
      exact ⟨_, rfl, hiff.mpr ⟨hratios, hrules⟩⟩

/-- No fee is charged in Recovery Mode, where the rate of the SDK is zero. -/
theorem netDebtOf_sdk {timestamp amount : ℕ} {waived : Bool}
    (hwaived : recoveryMode price s ≤ waived) :
    netDebtOf waived (sdkBorrowingRate timestamp price s) amount =
      netDebtOf waived (normalBorrowingRate timestamp s) amount := by
  unfold sdkBorrowingRate
  cases hrecovery : recoveryMode price s
  · rw [if_neg Bool.false_ne_true]
  · rw [hrecovery] at hwaived
    obtain rfl : waived = true := top_unique hwaived
    rw [netDebtOf, netDebtOf, if_pos rfl, if_pos rfl]

theorem openVaultChecks_sdk {timestamp value amount : ℕ}
    (hmode : checkRecoveryMode price s = .ok (recoveryMode price s))
    (h : openVaultChecks (normalBorrowingRate timestamp s) value amount price s = .ok ()) :
    openVaultChecks (sdkBorrowingRate timestamp price s) value amount price s = .ok () := by
  simp only [openVaultChecks, hmode, bind_ok, Except.ok.injEq] at h ⊢
  obtain ⟨_, rfl, net, hnet, h⟩ := h
  rw [← netDebtOf_sdk le_rfl] at hnet
  exact ⟨_, rfl, net, hnet, h⟩

theorem adjustVaultChecks_sdk {timestamp : ℕ} {vault : Vault}
    (hmode : checkRecoveryMode price s = .ok (recoveryMode price s))
    (h : adjustVaultChecks borrower vault (normalBorrowingRate timestamp s) price p s = .ok ()) :
    adjustVaultChecks borrower vault (sdkBorrowingRate timestamp price s) price p s = .ok () := by
  simp only [adjustVaultChecks, hmode, bind_ok, Except.ok.injEq] at h ⊢
  obtain ⟨_, rfl, net, hnet, h⟩ := h
  rw [← netDebtOf_sdk (Bool.left_le_or _ _)] at hnet
  exact ⟨_, rfl, net, hnet, h⟩

/-- The rate of the SDK passes the checks that the rate of the contracts passes. -/
theorem contractChecks_sdk {timestamp : ℕ} {vault : Vault}
    (hmode : checkRecoveryMode price s = .ok (recoveryMode price s))
    (h : contractChecks borrower vault (normalBorrowingRate timestamp s) price change s = .ok ()) :
    contractChecks borrower vault (sdkBorrowingRate timestamp price s) price change s = .ok () := by
  cases change with
  | creation params => exact openVaultChecks_sdk hmode h
  | closure params => exact h
  | adjustment params setToZero =>
    obtain ⟨p, hp, hchecks⟩ := bind_ok.mp h
    exact bind_ok.mpr ⟨p, hp, adjustVaultChecks_sdk hmode hchecks⟩
  | invalidCreation vault => exact h

/-- A change that the frontend takes to be valid passes the checks of the contracts if and only if
their arithmetic does not overflow and the rules that the frontend does not know are kept. Only
then the contracts can accept a transaction that sends the change. -/
theorem validChange_accepted_iff (hseen : SeenBy c original rate borrower s r)
    (hvalid : validateVaultChange original edited rate c = .ok (.valid change)) :
    (contractChecks borrower (collectedVault borrower s) rate c.price change s = .ok () ↔
      contractRatios (collectedVault borrower s) rate c.price change s = .ok () ∧
        UncheckedRules (collectedVault borrower s) original edited rate c) ∧
      ∀ (d : Deployment) (t : Transaction) (s₀ s' : State), Sends t change → t.sender = borrower →
        rate = sdkBorrowingRate t.block.timestamp c.price s →
        PriceFeed.fetchPrice t.block s = .ok (c.price, s₀) → transact d t s = .ok s' →
        contractChecks borrower (collectedVault borrower s) rate c.price change s = .ok () := by
  refine ⟨contractChecks_iff hseen hvalid, ?_⟩
  rintro d t s₀ s' hsends rfl rfl hprice h
  have hmode : checkRecoveryMode c.price s = .ok (recoveryMode c.price s) := by
    rw [recoveryMode_eq hseen.mode]
    exact hseen.mode
  exact contractChecks_sdk hmode (accepted_checked hsends hprice h)

/-- What the frontend reads from a state. -/
def contextOf (price : ℕ) (borrower : Address) (s : State) : VaultChangeValidationContext where
  price := price
  total := getTotal s
  bpdBalance := s.bpdToken.balances borrower
  numberOfVaults := s.vaultManager.vaultOwners.length

/-- The frontend allows the change of this vault in the state of the contracts. -/
def Allows (timestamp price : ℕ) (borrower : Address) (edited : Vault) (change : VaultChange)
    (s : State) : Prop :=
  validateVaultChange (getVault borrower s) edited (sdkBorrowingRate timestamp price s)
    (contextOf price borrower s) = .ok (.valid change)

instance {timestamp : ℕ} : Decidable (Allows timestamp price borrower edited change s) :=
  inferInstanceAs (Decidable (_ = _))

/-- The original vault is in the system, whose ratio can be computed. -/
def InSystem (price : ℕ) (borrower : Address) (s : State) : Prop :=
  (getVault borrower s).collateral ≤ (getTotal s).collateral ∧
    (getVault borrower s).debt ≤ (getTotal s).debt ∧
      checkRecoveryMode price s = .ok (recoveryMode price s)

instance : Decidable (InSystem price borrower s) :=
  inferInstanceAs (Decidable (_ ∧ _ ∧ _))

theorem getVault_inactive (hinactive : ¬s.Active borrower) :
    getVault borrower s = ⟨ZERO, ZERO⟩ := by
  have hstatus : (s.vault borrower).status ≠ .active := hinactive
  simp only [getVault, getVaultBeforeRedistribution, if_neg hstatus,
    VaultWithPendingRedistribution.applyRedistribution, Vault.multiply, mul, ZERO, Nat.mul_zero,
    Nat.zero_div]
  rfl

/-- The contracts record the collateral of the vault that the SDK reads, and its debt but for what
it hides. -/
theorem recorded_of_reachable (hs : Reachable d s) :
    (collectedVault borrower s).collateral = (getVault borrower s).collateral ∧
      (collectedVault borrower s).debt ≤ (getVault borrower s).debt := by
  by_cases hactive : s.Active borrower
  · rw [getVault_eq hactive]
    exact ⟨rfl, Book.appliedDebt_le⟩
  · obtain ⟨xs, hxs⟩ := hs.registry
    obtain ⟨hcoll, hdebt, -⟩ := hxs.inactive borrower fun h => hactive ((hxs.active _).mpr h)
    have hRBTC : s.book.pendingRBTC borrower = 0 := if_neg hactive
    have hBPD : s.book.pendingDebt borrower = 0 := if_neg hactive
    rw [getVault_inactive hactive]
    refine ⟨?_, Book.appliedDebt_le.trans ?_⟩
    · rw [collectedVault, Book.entireColl, hcoll, hRBTC]
      rfl
    · rw [Book.entireDebt, hdebt, hBPD]
      rfl

theorem seenBy_of_inSystem {timestamp : ℕ} (hs : Reachable d s) (h : InSystem price borrower s) :
    SeenBy (contextOf price borrower s) (getVault borrower s) (sdkBorrowingRate timestamp price s)
      borrower s (recoveryMode price s) where
  total := rfl
  bpdBalance := rfl
  mode := h.2.2
  collateral := (recorded_of_reachable hs).1
  recorded_le := (recorded_of_reachable hs).2
  collateral_le := h.1
  debt_le := h.2.1
  rate_zero hrecovery := by rw [sdkBorrowingRate, if_pos hrecovery]

instance : Decidable (AdjustmentRules recorded original edited rate c) := by
  unfold AdjustmentRules
  infer_instance

instance : Decidable (UncheckedRules recorded original edited rate c) := by
  unfold UncheckedRules
  infer_instance

/-- The vaults of 100 and 101. -/
def testVaults : List Transaction :=
  [⟨testBlock 60000, 100, 10 ^ 19, .openVault (10 ^ 16) (10000 * 10 ^ 18) 0 0⟩,
    ⟨testBlock 60000, 101, 25 * 10 ^ 17, .openVault (10 ^ 16) (120000 * 10 ^ 18) 0 0⟩,
    ⟨testBlock 60000, 101, 0, .transfer 100 (1000 * 10 ^ 18)⟩]

/-- The change by which 100 pays in collateral and doubles its debt, and the transaction that is
sent. -/
def testLoan : VaultChange :=
  .adjustment { depositCollateral := some (10 ^ 18), borrowBPD := some (10000 * 10 ^ 18) } none

def testLoanSent : Transaction :=
  ⟨testBlock 60000, 100, 10 ^ 18, .adjustVault ⟨0, 10000 * 10 ^ 18, true, 0, 0, 10 ^ 16⟩⟩

theorem validChange_accepted_iff_loan : ∃ s s', Reachable testnet s ∧
    Allows 0 (60000 * 10 ^ 18) 100 ⟨11 * 10 ^ 18, 20300 * 10 ^ 18⟩ testLoan s ∧
    transact testnet testLoanSent s = .ok s' ∧
    contractChecks 100 (collectedVault 100 s) (sdkBorrowingRate 0 (60000 * 10 ^ 18) s)
      (60000 * 10 ^ 18) testLoan s = .ok () := by
  obtain ⟨s, s', hs, h, hcheck⟩ := runsThen_reachable testnet testGenesis testVaults testLoanSent
    (fun s _ => decide (InSystem (60000 * 10 ^ 18) 100 s ∧
      Allows 0 (60000 * 10 ^ 18) 100 ⟨11 * 10 ^ 18, 20300 * 10 ^ 18⟩ testLoan s))
    (by decide +kernel)
  obtain ⟨hin, hallows⟩ := of_decide_eq_true hcheck
  have hsends : Sends testLoanSent testLoan := rfl
  have haccepted := (validChange_accepted_iff (seenBy_of_inSystem hs hin) hallows).2
  exact ⟨s, s', hs, hallows, h, haccepted testnet testLoanSent _ s' hsends rfl rfl rfl h⟩

/-- 100 closes its vault, which leaves the system to 101. -/
theorem closure_rejected : ¬∀ (d : Deployment) (s : State) (timestamp price : ℕ)
    (borrower : Address) (edited : Vault) (change : VaultChange), Reachable d s →
      InSystem price borrower s → Allows timestamp price borrower edited change s →
      contractChecks borrower (collectedVault borrower s) (sdkBorrowingRate timestamp price s) price
        change s = .ok () := by
  intro hall
  obtain ⟨s, hs, -, hcheck⟩ := runs_reachable testnet testGenesis testVaults
    (fun s => decide (InSystem (60000 * 10 ^ 18) 100 s ∧
      Allows 0 (60000 * 10 ^ 18) 100 Vault.empty (.closure ⟨10 ^ 19, some (10050 * 10 ^ 18)⟩) s ∧
      contractChecks 100 (collectedVault 100 s) (sdkBorrowingRate 0 (60000 * 10 ^ 18) s)
        (60000 * 10 ^ 18) (.closure ⟨10 ^ 19, some (10050 * 10 ^ 18)⟩) s ≠ .ok ()))
    (by decide +kernel)
  obtain ⟨hin, hallows, hrejected⟩ := of_decide_eq_true hcheck
  exact hrejected (hall testnet s 0 _ 100 _ _ hs hin hallows)

/-- 100 repays all but the minimum debt. What its vault hides is then missing from the minimum. -/
theorem hidden_debt_rejected : ∃ s, Reachable testnet s ∧ InSystem (44000 * 10 ^ 18) 100 s ∧
    Allows 0 (44000 * 10 ^ 18) 100 ⟨10 ^ 24, 2000 * 10 ^ 18⟩
      (.adjustment { repayBPD := some (8250 * 10 ^ 18 + 10 ^ 10) } none) s ∧
    contractChecks 100 (collectedVault 100 s) (sdkBorrowingRate 0 (44000 * 10 ^ 18) s)
      (44000 * 10 ^ 18) (.adjustment { repayBPD := some (8250 * 10 ^ 18 + 10 ^ 10) } none) s ≠
        .ok () := by
  obtain ⟨s, hs, -, hcheck⟩ := runs_reachable testnet testGenesis
    [⟨testBlock 60000, 100, 10 ^ 24, .openVault (10 ^ 16) (10000 * 10 ^ 18) 0 0⟩,
      ⟨testBlock 60000, 101, 55 * 10 ^ 15, .openVault (10 ^ 16) (2000 * 10 ^ 18) 0 0⟩,
      ⟨testBlock 60000, 100, 0, .provideToSP (2210 * 10 ^ 18 - 10 ^ 10) 0⟩,
      ⟨testBlock 44000, 102, 0, .liquidate 101⟩,
      ⟨testBlock 44000, 101, 0, .transfer 100 (2000 * 10 ^ 18)⟩]
    (fun s => decide (InSystem (44000 * 10 ^ 18) 100 s ∧
      Allows 0 (44000 * 10 ^ 18) 100 ⟨10 ^ 24, 2000 * 10 ^ 18⟩
        (.adjustment { repayBPD := some (8250 * 10 ^ 18 + 10 ^ 10) } none) s ∧
      contractChecks 100 (collectedVault 100 s) (sdkBorrowingRate 0 (44000 * 10 ^ 18) s)
        (44000 * 10 ^ 18) (.adjustment { repayBPD := some (8250 * 10 ^ 18 + 10 ^ 10) } none) s ≠
          .ok ())) (by decide +kernel)
  exact ⟨s, hs, of_decide_eq_true hcheck⟩

end MoneyProtocol.Sdk.Frontend
