import MoneyProtocol.Frontend.Changes
import MoneyProtocol.Frontend.Forms
import MoneyProtocol.Library.Edits
import MoneyProtocol.Library.Machine
import MoneyProtocol.Store.BaseState

/-!
# The form for a vault

`VaultManager` keeps an edited vault beside the one in the store. An update of the store is taken
up by finding the change between the two and applying it to the new vault, so the reducer
throws wherever `apply` does, and wherever an amount that was typed cannot be parsed.
-/

namespace MoneyProtocol.Sdk.Frontend

open Outcome Decimal

structure VaultManagerState where
  original : UserVault
  edited : Vault
  changePending : Bool
  debtDirty : Bool
  addedMinimumDebt : Bool

/-- An update of the store brings the vault, and the vault before redistribution if this has
changed. -/
inductive VaultManagerAction where
  | startChange
  | finishChange
  | revert
  | addMinimumDebt
  | removeMinimumDebt
  | setCollateral (newValue : Decimalish)
  | setDebt (newValue : Decimalish)
  | updateStore (vault : UserVault) (changeCommitted : Option OwnedVault)

namespace VaultManager

def init (vault : UserVault) : VaultManagerState where
  original := vault
  edited := ⟨vault.collateral, vault.debt⟩
  changePending := false
  debtDirty := false
  addedMinimumDebt := false

def finishChange (state : VaultManagerState) : VaultManagerState :=
  { state with changePending := false }

def addMinimumDebt (state : VaultManagerState) : VaultManagerState :=
  { state with edited := state.edited.setDebt BPD_MINIMUM_DEBT, addedMinimumDebt := true }

def removeMinimumDebt (state : VaultManagerState) : VaultManagerState :=
  { state with edited := state.edited.setDebt 0, addedMinimumDebt := false }

def revert (state : VaultManagerState) : VaultManagerState :=
  { state with
    edited := ⟨state.original.collateral, state.original.debt⟩
    debtDirty := false
    addedMinimumDebt := false }

/-- Unless the user has edited the debt, the minimum debt comes and goes with the collateral. -/
def setCollateral (newCollateral : Decimal) (state : VaultManagerState) : VaultManagerState :=
  if state.debtDirty = false ∧ state.edited.isEmpty = true ∧ newCollateral ≠ 0 then
    addMinimumDebt { state with edited := state.edited.setCollateral newCollateral }
  else if state.debtDirty = false ∧ state.addedMinimumDebt = true ∧ newCollateral = 0 then
    removeMinimumDebt { state with edited := state.edited.setCollateral newCollateral }
  else { state with edited := state.edited.setCollateral newCollateral }

/-- The vault that was to be created exists, or the one that was to be closed does not. -/
def overtaken (change : Option VaultChange) (vault : Vault) : Bool :=
  match change with
  | some (.creation _) => !vault.isEmpty
  | some (.closure _) => vault.isEmpty
  | _ => false

def updateStore (vault : UserVault) (changeCommitted : Option OwnedVault)
    (state : VaultManagerState) : Outcome VaultManagerState :=
  if state.changePending = true ∧ changeCommitted.isSome = true then
    return finishChange (revert { state with original := vault })
  else do
    let change ← state.original.whatChanged state.edited 0
    if overtaken change vault.toVault = true then return revert { state with original := vault }
    else do
      let edited ← vault.apply change 0
      return { state with original := vault, edited := edited }

def reduce (bigNumberFrom : List Char → Outcome ℕ) (state : VaultManagerState) :
    VaultManagerAction → Outcome VaultManagerState
  | .startChange => return { state with changePending := true }
  | .finishChange => return finishChange state
  | .setCollateral newValue => do
    let newCollateral ← newValue.toDecimal bigNumberFrom
    return setCollateral newCollateral state
  | .setDebt newValue => do
    let debt ← newValue.toDecimal bigNumberFrom
    return { state with edited := state.edited.setDebt debt, debtDirty := true }
  | .addMinimumDebt => return addMinimumDebt state
  | .removeMinimumDebt => return removeMinimumDebt state
  | .revert => return revert state
  | .updateStore vault changeCommitted => updateStore vault changeCommitted state

end VaultManager

variable {original edited v : Vault} {rate : Decimal} {change : Option VaultChange}

/-- A vault as the contracts keep it: empty, or with collateral and the reserve. -/
def Regular (v : Vault) : Prop :=
  v.isEmpty = true ∨ (0 < v.collateral ∧ BPD_LIQUIDATION_RESERVE ≤ v.debt)

/-- Both edits, made on another vault. -/
def rebased (original edited v : Vault) : Vault where
  collateral := (Edit.between original.collateral edited.collateral).on v.collateral
  debt := (Edit.between original.debt edited.debt).on v.debt

theorem Regular.reserve (h : Regular v) : v.isEmpty = true ∨ BPD_LIQUIDATION_RESERVE ≤ v.debt :=
  h.imp_right And.right

theorem Regular.pos (h : Regular v) (hopen : v.isEmpty = false) :
    0 < v.collateral ∧ 0 < v.debt := by
  rcases h with hempty | ⟨hcoll, hdebt⟩
  · rw [hempty] at hopen
    contradiction
  · exact ⟨hcoll, Nat.lt_of_lt_of_le (by decide) hdebt⟩

/-- An adjustment of a vault with collateral and debt sets to zero whatever is edited to zero. -/
theorem setToZero_eq {params : VaultAdjustmentParams} {setToZero : Option SetToZero}
    (hcoll : 0 < original.collateral) (hdebt : 0 < original.debt)
    (h : original.whatChanged edited rate = .ok (some (.adjustment params setToZero))) :
    setToZero = if edited.debt = 0 then some .debt
      else if edited.collateral = 0 then some .collateral else none := by
  unfold Vault.whatChanged at h
  have hopen : ¬original.isEmpty = true := fun hempty => hcoll.ne' (isEmpty_iff.mp hempty).1
  by_cases hsame : original.collateral = edited.collateral ∧ original.debt = edited.debt
  · rw [if_pos hsame] at h
    cases h
  rw [if_neg hsame, if_neg hopen] at h
  by_cases hclosed : edited.isEmpty = true
  · simp only [if_pos hclosed, bind_ok, pure_ok, Option.some.injEq] at h
    obtain ⟨_, -, h⟩ := h
    cases h
  rw [if_neg hclosed] at h
  by_cases hsameColl : original.collateral = edited.collateral
  · have hne : edited.collateral ≠ 0 := hsameColl ▸ hcoll.ne'
    rw [if_pos hsameColl] at h
    cases h
    rw [if_neg hne]
  rw [if_neg hsameColl] at h
  by_cases hsameDebt : original.debt = edited.debt
  · have hne : edited.debt ≠ 0 := hsameDebt ▸ hdebt.ne'
    rw [if_pos hsameDebt] at h
    cases h
    rw [if_neg hne]
  · rw [if_neg hsameDebt] at h
    cases h
    rfl

theorem applyAdjustment_collateral {params : VaultAdjustmentParams} {rate : Decimal} :
    v.applyAdjustment params (some .collateral) rate =
      ((v.setCollateral ZERO).addDebt (params.borrowBPD.elim ZERO (applyFee rate))).subtractDebt
        (params.repayBPD.getD ZERO) := by
  obtain ⟨_, _, borrowBPD, _⟩ := params
  cases borrowBPD <;> rfl

theorem applyAdjustment_none {params : VaultAdjustmentParams} {rate : Decimal} :
    v.applyAdjustment params none rate =
      (v.add ⟨params.depositCollateral.getD ZERO,
        params.borrowBPD.elim ZERO (applyFee rate)⟩).subtract
          ⟨params.withdrawCollateral.getD ZERO, params.repayBPD.getD ZERO⟩ := by
  obtain ⟨_, _, borrowBPD, _⟩ := params
  cases borrowBPD <;> rfl

theorem applyAdjustment_debt {params : VaultAdjustmentParams} {rate : Decimal} :
    v.applyAdjustment params (some .debt) rate =
      ((v.setDebt ZERO).addCollateral (params.depositCollateral.getD ZERO)).subtractCollateral
        (params.withdrawCollateral.getD ZERO) :=
  rfl

theorem paramsTo_borrowed {rate : Decimal} (fee : Decimal → Decimal) :
    (paramsTo original edited rate).borrowBPD.elim ZERO fee =
      if original.debt < edited.debt then fee (unapplyFee rate (edited.debt - original.debt))
      else ZERO := by
  by_cases hlt : original.debt < edited.debt
  · simp only [paramsTo, if_pos hlt, Option.elim_some]
  · simp only [paramsTo, if_neg hlt, Option.elim_none]

/-- Without a fee an adjustment makes both edits. -/
theorem applyAdjustment_rebased (hcoll : 0 < original.collateral) (hdebt : 0 < original.debt)
    (hstays : edited.isEmpty = false) :
    v.applyAdjustment (paramsTo original edited 0) (if edited.debt = 0 then some .debt
      else if edited.collateral = 0 then some .collateral else none) 0 =
      rebased original edited v := by
  have hdeposit : (paramsTo original edited 0).depositCollateral.getD ZERO =
      edited.collateral - original.collateral := by
    simp only [paramsTo, getD_if, ite_sub]
  have hwithdraw : (paramsTo original edited 0).withdrawCollateral.getD ZERO =
      original.collateral - edited.collateral := by
    simp only [paramsTo, getD_if, ite_sub]
  have hrepay : (paramsTo original edited 0).repayBPD.getD ZERO =
      original.debt - edited.debt := by
    simp only [paramsTo, getD_if, ite_sub]
  have hborrow : (paramsTo original edited 0).borrowBPD.elim ZERO (applyFee 0) =
      edited.debt - original.debt := by
    rw [paramsTo_borrowed]
    by_cases hlt : original.debt < edited.debt
    · rw [if_pos hlt, unapplyFee_zero, applyFee_zero]
    · rw [if_neg hlt]
      exact (Nat.sub_eq_zero_of_le (Nat.not_lt.mp hlt)).symm
  have hmoved {o e x : ℕ} (he : e ≠ 0) : x + (e - o) - (o - e) = (Edit.between o e).on x :=
    (Edit.on_of_ne_zero he).symm
  unfold rebased
  by_cases hnoDebt : edited.debt = 0
  · have hne : edited.collateral ≠ 0 := fun hzero => by
      rw [isEmpty_iff.mpr ⟨hzero, hnoDebt⟩] at hstays
      contradiction
    rw [if_pos hnoDebt, applyAdjustment_debt, hdeposit, hwithdraw, hnoDebt]
    simp only [Vault.setDebt, Vault.addCollateral, Vault.subtractCollateral, clampedSub_eq,
      Decimal.add]
    exact Vault.mk.injEq .. ▸ ⟨hmoved hne, (Edit.on_between_cleared hdebt).symm⟩
  rw [if_neg hnoDebt]
  by_cases hnoColl : edited.collateral = 0
  · rw [if_pos hnoColl, applyAdjustment_collateral, hrepay, hborrow, hnoColl]
    simp only [Vault.setCollateral, Vault.addDebt, Vault.subtractDebt, clampedSub_eq, Decimal.add]
    exact Vault.mk.injEq .. ▸ ⟨(Edit.on_between_cleared hcoll).symm, hmoved hnoDebt⟩
  · rw [if_neg hnoColl, applyAdjustment_none, hdeposit, hwithdraw, hrepay, hborrow]
    simp only [Vault.add, Vault.subtract, clampedSub_eq, Decimal.add]
    exact Vault.mk.injEq .. ▸ ⟨hmoved hnoColl, hmoved hnoDebt⟩

/-- Where nothing has overtaken it, the change of an open vault makes both edits of any vault. -/
theorem apply_rebased (horiginal : Regular original) (hopen : original.isEmpty = false)
    (hchange : original.whatChanged edited 0 = .ok change)
    (hfree : VaultManager.overtaken change v = false) :
    v.apply change 0 = .ok (rebased original edited v) := by
  rcases whatChanged_total original edited 0 horiginal.reserve with ⟨h, hcoll, hdebt⟩ |
    ⟨-, hempty⟩ | ⟨change', h, hvalid⟩
  · rw [h] at hchange
    cases hchange
    rw [rebased, ← hcoll, ← hdebt, Edit.between_self, Edit.between_self]
    rfl
  · rw [hempty] at hopen
    contradiction
  rw [h] at hchange
  cases hchange
  cases hto : whatChanged_ok h with
  | invalidCreation => contradiction
  | creation hempty =>
    rw [hempty] at hopen
    contradiction
  | closure params _ hempty =>
    obtain ⟨hcoll, hdebt⟩ := isEmpty_iff.mp hempty
    obtain ⟨hcollPos, hdebtPos⟩ := horiginal.pos hopen
    rw [rebased, hcoll, hdebt, Edit.on_between_cleared hcollPos, Edit.on_between_cleared hdebtPos]
    simp only [Vault.apply, bind_ok, require_ok, pure_ok]
    exact ⟨(), hfree, rfl⟩
  | adjustment setToZero _ hstays =>
    obtain ⟨hcollPos, hdebtPos⟩ := horiginal.pos hopen
    rw [setToZero_eq hcollPos hdebtPos h, Vault.apply,
      applyAdjustment_rebased hcollPos hdebtPos hstays]
    rfl

namespace VaultManager

variable {state : VaultManagerState} {vault : UserVault} {changeCommitted : Option OwnedVault}

/-- The update is not the end of the pending change. -/
def Waits (changeCommitted : Option OwnedVault) (state : VaultManagerState) : Prop :=
  ¬(state.changePending = true ∧ changeCommitted.isSome = true)

theorem overtaken_none {v : Vault} : overtaken none v = false := rfl

theorem overtaken_invalid {v invalidVault : Vault} :
    overtaken (some (.invalidCreation invalidVault)) v = false := rfl

theorem overtaken_cases {change : Option VaultChange} {v : Vault}
    (hchange : original.whatChanged edited rate = .ok change)
    (h : overtaken change v = true) :
    (original.isEmpty = true ∧ BPD_LIQUIDATION_RESERVE ≤ edited.debt ∧ v.isEmpty = false) ∨
      (original.isEmpty = false ∧ edited.isEmpty = true ∧ v.isEmpty = true) := by
  cases change with
  | none => contradiction
  | some change =>
    cases whatChanged_ok hchange with
    | invalidCreation => contradiction
    | creation hempty hreserve => exact .inl ⟨hempty, hreserve, by simpa [overtaken] using h⟩
    | closure _ hopen hclosed => exact .inr ⟨hopen, hclosed, h⟩
    | adjustment => contradiction

/-- An open vault keeps both edits over the update. -/
theorem updateStore_open (vault : UserVault) (hregular : Regular state.original.toVault)
    (hopen : state.original.isEmpty = false) (hwaits : Waits changeCommitted state) :
    ∃ state', updateStore vault changeCommitted state = .ok state' ∧ state'.original = vault ∧
      state'.edited = rebased state.original.toVault state.edited vault.toVault ∧
      state'.changePending = state.changePending := by
  obtain ⟨change, -, hchange, -⟩ := change_reaches state.original.toVault state.edited 0
    (by decide) hregular.reserve
  rw [updateStore, if_neg hwaits]
  by_cases hovertaken : overtaken change vault.toVault = true
  · refine ⟨revert { state with original := vault }, ?_, rfl, ?_, rfl⟩
    · refine bind_ok.mpr ⟨change, hchange, ?_⟩
      rw [if_pos hovertaken]
      rfl
    · obtain ⟨hempty, -⟩ | ⟨-, hclosed, hvault⟩ := overtaken_cases hchange hovertaken
      · rw [hempty] at hopen
        contradiction
      -- the vault that was to be closed is gone, and nothing is left of either
      obtain ⟨hcoll, hdebt⟩ := isEmpty_iff.mp hclosed
      obtain ⟨hvaultColl, hvaultDebt⟩ := isEmpty_iff.mp hvault
      obtain ⟨hcollPos, hdebtPos⟩ := hregular.pos hopen
      rw [rebased, hcoll, hdebt, Edit.on_between_cleared hcollPos,
        Edit.on_between_cleared hdebtPos]
      exact Vault.mk.injEq .. ▸ ⟨hvaultColl, hvaultDebt⟩
  · have happlied := apply_rebased hregular hopen hchange (Bool.eq_false_iff.mpr hovertaken)
    refine ⟨{ state with original := vault, edited := _ }, ?_, rfl, rfl, rfl⟩
    refine bind_ok.mpr ⟨change, hchange, ?_⟩
    rw [if_neg hovertaken]
    exact bind_ok.mpr ⟨_, happlied, rfl⟩

/-- A vault has been opened elsewhere while one with less than the reserve was being edited. -/
def Clashes (state : VaultManagerState) : VaultManagerAction → Prop
  | .updateStore vault changeCommitted => Waits changeCommitted state ∧
      state.original.isEmpty = true ∧ state.edited.isEmpty = false ∧
      state.edited.debt < BPD_LIQUIDATION_RESERVE ∧ vault.isEmpty = false
  | _ => False

def cannotCreate : Failure := .revert "Can't create onto existing Vault"

/-- The change of an empty vault. -/
theorem whatChanged_empty (edited : Vault) (rate : Decimal) (hempty : original.isEmpty = true) :
    (edited.isEmpty = true ∧ original.whatChanged edited rate = .ok none) ∨
    (edited.isEmpty = false ∧ edited.debt < BPD_LIQUIDATION_RESERVE ∧
      original.whatChanged edited rate = .ok (some (.invalidCreation edited))) ∨
    (edited.isEmpty = false ∧ BPD_LIQUIDATION_RESERVE ≤ edited.debt ∧
      original.whatChanged edited rate = .ok (some (.creation ⟨edited.collateral,
        unapplyFee rate (edited.debt - BPD_LIQUIDATION_RESERVE)⟩))) := by
  obtain ⟨hcoll, hdebt⟩ := isEmpty_iff.mp hempty
  have hsame : (original.collateral = edited.collateral ∧ original.debt = edited.debt) ↔
      edited.isEmpty = true := by
    rw [isEmpty_iff, hcoll, hdebt, eq_comm, @eq_comm _ 0 edited.debt]
  unfold Vault.whatChanged
  by_cases hedited : edited.isEmpty = true
  · rw [if_pos (hsame.mpr hedited)]
    exact .inl ⟨hedited, rfl⟩
  rw [if_neg fun h => hedited (hsame.mp h), if_pos hempty]
  have hopen := Bool.eq_false_iff.mpr hedited
  by_cases hlow : edited.debt < BPD_LIQUIDATION_RESERVE
  · rw [if_pos hlow]
    exact .inr (.inl ⟨hopen, hlow, rfl⟩)
  · have hreserve := Nat.not_lt.mp hlow
    rw [if_neg hlow]
    refine .inr (.inr ⟨hopen, hreserve, bind_ok.mpr ⟨_, ?_, rfl⟩⟩)
    simp only [Vault.netDebt, sub, bind_ok, require_ok, pure_ok]
    exact ⟨(), hlow, (), hreserve, trivial⟩

/-- An empty vault keeps the edited one as it is, as long as it is empty. -/
theorem updateStore_empty (hempty : state.original.isEmpty = true) (hvault : vault.isEmpty = true)
    (hwaits : Waits changeCommitted state) :
    updateStore vault changeCommitted state = .ok { state with original := vault } := by
  rw [updateStore, if_neg hwaits]
  rcases whatChanged_empty state.edited 0 hempty with ⟨hedited, h⟩ |
    ⟨-, -, h⟩ | ⟨-, hreserve, h⟩
  · have hsame : vault.toVault = state.edited := by
      obtain ⟨hcoll, hdebt⟩ := isEmpty_iff.mp hvault
      obtain ⟨hcoll', hdebt'⟩ := isEmpty_iff.mp hedited
      exact Vault.mk.injEq .. ▸ ⟨hcoll.trans hcoll'.symm, hdebt.trans hdebt'.symm⟩
    refine bind_ok.mpr ⟨_, h, ?_⟩
    rw [overtaken_none, if_neg Bool.false_ne_true]
    exact bind_ok.mpr ⟨_, rfl, by rw [hsame]; rfl⟩
  · refine bind_ok.mpr ⟨_, h, ?_⟩
    rw [overtaken_invalid, if_neg Bool.false_ne_true]
    refine bind_ok.mpr ⟨state.edited, ?_, rfl⟩
    exact bind_ok.mpr ⟨(), require_ok.mpr hvault, rfl⟩
  · refine bind_ok.mpr ⟨_, h, ?_⟩
    rw [overtaken, hvault, if_neg (by decide)]
    refine bind_ok.mpr ⟨state.edited, bind_ok.mpr ⟨(), require_ok.mpr hvault, ?_⟩, rfl⟩
    rw [unapplyFee_zero, applyFee_zero, Decimal.add, Nat.add_sub_cancel' hreserve]
    rfl

/-- Where a vault has been opened in the meantime, the form either fails or shows it. -/
theorem updateStore_opened (hempty : state.original.isEmpty = true) (hvault : vault.isEmpty = false)
    (hwaits : Waits changeCommitted state) :
    (Clashes state (.updateStore vault changeCommitted) ∧
      updateStore vault changeCommitted state = .error cannotCreate) ∨
    (¬Clashes state (.updateStore vault changeCommitted) ∧
      ∃ state', updateStore vault changeCommitted state = .ok state' ∧
        state'.original = vault ∧ state'.edited = vault.toVault) := by
  rw [updateStore, if_neg hwaits]
  rcases whatChanged_empty state.edited 0 hempty with ⟨hedited, h⟩ |
    ⟨hedited, hlow, h⟩ | ⟨-, hreserve, h⟩
  · refine .inr ⟨fun hclash => ?_, { state with original := vault, edited := vault.toVault }, ?_,
      rfl, rfl⟩
    · rw [hclash.2.2.1] at hedited
      contradiction
    · refine bind_ok.mpr ⟨_, h, ?_⟩
      rw [overtaken_none, if_neg Bool.false_ne_true]
      rfl
  · refine .inl ⟨⟨hwaits, hempty, hedited, hlow, hvault⟩, bind_error.mpr (.inr ⟨_, h, ?_⟩)⟩
    rw [overtaken_invalid, if_neg Bool.false_ne_true]
    refine bind_error.mpr (.inl (bind_error.mpr (.inl ?_)))
    rw [require, if_neg (by rw [hvault]; exact Bool.false_ne_true)]
    rfl
  · refine .inr ⟨fun hclash => Nat.not_le.mpr hclash.2.2.2.1 hreserve,
      revert { state with original := vault }, ?_, rfl, rfl⟩
    refine bind_ok.mpr ⟨_, h, ?_⟩
    rw [overtaken, hvault, if_pos (show (!false) = true from rfl)]
    rfl

/-- What a committed change leaves in the form. -/
theorem updateStore_committed (hcommitted : ¬Waits changeCommitted state) :
    updateStore vault changeCommitted state =
      .ok (finishChange (revert { state with original := vault })) := by
  rw [updateStore, if_pos (not_not.mp hcommitted)]
  rfl

end VaultManager

end MoneyProtocol.Sdk.Frontend
