import MoneyProtocol.Frontend.VaultForm
import MoneyProtocol.Isolation.Vaults

/-!
# Runs of the vault form

The form takes actions for as long as it is open. One kind of update makes it throw, as does an
amount that is no decimal. All other updates leave the edits of an open vault what they were, and
so the transaction that is offered.
-/

namespace MoneyProtocol.Sdk.Frontend

open Outcome Decimal

open Book in
/-- Whatever the system reaches, the store reads a vault that is empty or has collateral and the
reserve. -/
theorem getVault_regular {d : Deployment} {s : State} {u : Address} (hs : Reachable d s) :
    Regular (getVault u s) := by
  obtain ⟨xs, hregistry⟩ := hs.registry
  by_cases hactive : (s.vault u).status = .active
  · have hfunded := hregistry.funded u ((hregistry.active u).mp hactive)
    right
    unfold getVault getVaultBeforeRedistribution
    simp only [if_pos hactive]
    refine ⟨?_, ?_⟩
    · exact Nat.lt_of_lt_of_le hfunded.1 (Nat.le_add_right _ _)
    · have hreserve : BPD_LIQUIDATION_RESERVE ≤ minDebt := by
        decide
      exact (hreserve.trans hfunded.2).trans (Nat.le_add_right _ _)
  · left
    unfold getVault getVaultBeforeRedistribution
    simp only [if_neg hactive]
    have hnothing (x : ℕ) : Decimal.add ZERO (mul x ZERO) = 0 := by
      rw [Decimal.add, mul, ZERO, Nat.mul_zero, Nat.zero_div]
    exact isEmpty_iff.mpr ⟨hnothing _, hnothing _⟩

/-- The store has read the vault of `u` somewhere on the chain. -/
def ReadFrom (d : Deployment) (u : Address) (vault : UserVault) : Prop :=
  ∃ s, Reachable d s ∧ vault.toVault = getVault u s

theorem ReadFrom.regular {d : Deployment} {u : Address} {vault : UserVault}
    (h : ReadFrom d u vault) : Regular vault.toVault := by
  obtain ⟨s, hs, hread⟩ := h
  rw [hread]
  exact getVault_regular hs

namespace VaultManager

variable {state state' : VaultManagerState} {vault : UserVault} {action : VaultManagerAction}
  {actions : List VaultManagerAction} {changeCommitted : Option OwnedVault} {e : Failure}
  {rate : Decimal} {d : Deployment} {u : Address} {bigNumberFrom : List Char → Outcome ℕ}

theorem updateStore_error_iff (hregular : Regular state.original.toVault) :
    updateStore vault changeCommitted state = .error e ↔
      e = cannotCreate ∧ Clashes state (.updateStore vault changeCommitted) := by
  by_cases hwaits : Waits changeCommitted state
  · cases hempty : state.original.isEmpty with
    | false =>
      obtain ⟨state', h, -⟩ := updateStore_open vault hregular hempty hwaits
      rw [h]
      constructor
      · intro h
        cases h
      · rintro ⟨-, -, hclash, -⟩
        rw [hempty] at hclash
        contradiction
    | true =>
      cases hvault : vault.isEmpty with
      | true =>
        rw [updateStore_empty hempty hvault hwaits]
        constructor
        · intro h
          cases h
        · rintro ⟨-, -, -, -, -, hclash⟩
          rw [hvault] at hclash
          contradiction
      | false =>
        rcases updateStore_opened hempty hvault hwaits with ⟨hclash, h⟩ | ⟨hfree, state', h, -⟩
        · rw [h, Except.error.injEq]
          exact ⟨fun heq => ⟨heq.symm, hclash⟩, fun hfails => hfails.1.symm⟩
        · rw [h]
          constructor
          · intro h
            cases h
          · exact fun hfails => absurd hfails.2 hfree
  · rw [updateStore_committed hwaits]
    constructor
    · intro h
      cases h
    · exact fun hfails => absurd hfails.2.1 hwaits

/-- The amount that comes with an action as a string. -/
def typed : VaultManagerAction → Option (List Char)
  | .setCollateral (.string representation) | .setDebt (.string representation) =>
    some representation
  | _ => none

theorem toDecimal_error {newValue : Decimalish} (h : newValue.toDecimal bigNumberFrom = .error e) :
    ∃ representation, newValue = .string representation ∧
      fromString bigNumberFrom representation = .error e := by
  cases newValue with
  | decimal value => cases h
  | string representation => exact ⟨representation, rfl, h⟩

theorem typed_error (h : reduce bigNumberFrom state action = .error e)
    (hother : ∀ vault changeCommitted, action ≠ .updateStore vault changeCommitted) :
    ∃ representation, typed action = some representation ∧
      fromString bigNumberFrom representation = .error e := by
  cases action with
  | setCollateral newValue =>
    rcases bind_error.mp h with herror | ⟨_, -, hnot⟩
    · obtain ⟨representation, rfl, herror⟩ := toDecimal_error herror
      exact ⟨representation, rfl, herror⟩
    · cases hnot
  | setDebt newValue =>
    rcases bind_error.mp h with herror | ⟨_, -, hnot⟩
    · obtain ⟨representation, rfl, herror⟩ := toDecimal_error herror
      exact ⟨representation, rfl, herror⟩
    · cases hnot
  | updateStore vault changeCommitted => exact absurd rfl (hother vault changeCommitted)
  | _ => cases h

theorem reduce_typed {representation : List Char} (htyped : typed action = some representation)
    (h : fromString bigNumberFrom representation = .error e) :
    reduce bigNumberFrom state action = .error e := by
  cases action with
  | setCollateral newValue =>
    cases newValue with
    | decimal value => cases htyped
    | string text =>
      cases htyped
      exact bind_error.mpr (.inl h)
  | setDebt newValue =>
    cases newValue with
    | decimal value => cases htyped
    | string text =>
      cases htyped
      exact bind_error.mpr (.inl h)
  | _ => cases htyped

/-- The reducer throws at a clash and at what cannot be parsed, and nowhere else. -/
theorem reduce_error_iff (hbig : ReadsDigits bigNumberFrom)
    (hregular : Regular state.original.toVault) :
    reduce bigNumberFrom state action = .error e ↔ (e = cannotCreate ∧ Clashes state action) ∨
      ∃ representation, typed action = some representation ∧ BadlyFormatted representation e := by
  constructor
  · intro h
    by_cases hother : ∀ vault changeCommitted, action ≠ .updateStore vault changeCommitted
    · obtain ⟨representation, htyped, herror⟩ := typed_error h hother
      exact .inr ⟨representation, htyped, (fromString_error_iff hbig).mp herror⟩
    · push Not at hother
      obtain ⟨vault, changeCommitted, rfl⟩ := hother
      exact .inl ((updateStore_error_iff hregular).mp h)
  · rintro (⟨rfl, hclash⟩ | ⟨representation, htyped, hbad⟩)
    · cases action with
      | updateStore vault changeCommitted =>
        exact (updateStore_error_iff hregular).mpr ⟨rfl, hclash⟩
      | _ => exact absurd hclash id
    · exact reduce_typed htyped ((fromString_error_iff hbig).mpr hbad)

/-- The vault that the store has reported last. -/
def reported (state : VaultManagerState) : VaultManagerAction → UserVault
  | .updateStore vault _ => vault
  | _ => state.original

theorem reduce_original (h : reduce bigNumberFrom state action = .ok state') :
    state'.original = reported state action := by
  cases action with
  | updateStore vault changeCommitted =>
    simp only [reduce, updateStore] at h
    split_ifs at h
    · rw [← pure_ok.mp h]
      rfl
    · obtain ⟨change, -, h⟩ := bind_ok.mp h
      split_ifs at h
      · rw [← pure_ok.mp h]
        rfl
      · obtain ⟨edited, -, h⟩ := bind_ok.mp h
        rw [← pure_ok.mp h]
        rfl
  | setCollateral newValue =>
    obtain ⟨_, -, h⟩ := bind_ok.mp h
    rw [← pure_ok.mp h, setCollateral]
    split_ifs
    all_goals rfl
  | setDebt newValue =>
    obtain ⟨_, -, h⟩ := bind_ok.mp h
    rw [← pure_ok.mp h]
    rfl
  | _ =>
    rw [← pure_ok.mp h]
    rfl

/-- The form after it was opened on a vault and has taken these actions. -/
def run (bigNumberFrom : List Char → Outcome ℕ) (vault : UserVault)
    (actions : List VaultManagerAction) : VaultManagerState :=
  actions.foldl (dispatch (reduce bigNumberFrom)) (init vault)

theorem run_regular (hvault : ReadFrom d u vault)
    (hreports : ∀ vault changeCommitted, .updateStore vault changeCommitted ∈ actions →
      ReadFrom d u vault) :
    Regular (run bigNumberFrom vault actions).original.toVault := by
  refine Machine.Along.invariant
    (I := fun state : VaultManagerState => Regular state.original.toVault)
    (P := fun _ (action : VaultManagerAction) => ∀ vault changeCommitted,
      action = .updateStore vault changeCommitted → ReadFrom d u vault) ?_ hvault.regular
      (Machine.along_of_mem ?_)
  · intro state action hregular hreport
    cases h : reduce bigNumberFrom state action with
    | error e =>
      rw [dispatch_error h]
      exact hregular
    | ok state' =>
      rw [dispatch_ok h, reduce_original h]
      cases action with
      | updateStore vault changeCommitted => exact (hreport vault changeCommitted rfl).regular
      | _ => exact hregular
  · rintro action hmem vault changeCommitted rfl
    exact hreports vault changeCommitted hmem

/-- In every run the form throws exactly when it hears of a vault that was opened elsewhere while
one with less than the reserve was being edited, and no transaction of its own is pending, and when
a string is typed that is no decimal. -/
theorem throws_iff (hbig : ReadsDigits bigNumberFrom) (hvault : ReadFrom d u vault)
    (hreports : ∀ vault changeCommitted, .updateStore vault changeCommitted ∈ actions →
      ReadFrom d u vault) (action : VaultManagerAction) (e : Failure) :
    reduce bigNumberFrom (run bigNumberFrom vault actions) action = .error e ↔
      (e = cannotCreate ∧ Clashes (run bigNumberFrom vault actions) action) ∨
        ∃ representation, typed action = some representation ∧ BadlyFormatted representation e :=
  reduce_error_iff hbig (run_regular hvault hreports)

def noVault : UserVault := ⟨⟨0, 0⟩, 100, .nonExistent⟩

/-- A form with a debt of a hundred BPD; the first try at it is mistyped. -/
def lowDebt : List VaultManagerAction :=
  [.setCollateral (.string "1".toList), .setDebt (.string "1OO".toList),
    .setDebt (.string "100".toList), .startChange, .finishChange]

/-- The first owner opens a vault in another window. -/
theorem throws_iff_opened : ∃ s, Reachable testnet s ∧
    reduce bigNumberOfDigits (run bigNumberOfDigits noVault lowDebt)
      (.updateStore ⟨getVault 100 s, 100, .isOpen⟩ none) = .error cannotCreate ∧
    reduce bigNumberOfDigits (run bigNumberOfDigits noVault lowDebt)
      (.setDebt (.string "1OO".toList)) = .error (badFormat "1OO".toList) := by
  obtain ⟨s, hs, -, hcheck⟩ := runs_reachable testnet testGenesis threeVaults
    (fun s => (getVault 100 s).isEmpty = false) (by decide +kernel)
  have hopen : (getVault 100 s).isEmpty = false := of_decide_eq_true hcheck
  have hvault : ReadFrom testnet 100 noVault :=
    ⟨testGenesis.state, ⟨testGenesis, .refl⟩, by decide +kernel⟩
  have hreports : ∀ vault changeCommitted, .updateStore vault changeCommitted ∈ lowDebt →
      ReadFrom testnet 100 vault := by
    intro vault changeCommitted hmem
    simp [lowDebt] at hmem
  have hrun : run bigNumberOfDigits noVault lowDebt =
      ⟨noVault, ⟨10 ^ 18, 100 * 10 ^ 18⟩, false, true, true⟩ := rfl
  have hthrows := throws_iff bigNumberOfDigits_reads hvault hreports
  refine ⟨s, hs, (hthrows _ _).mpr (.inl ⟨rfl, ?_⟩), (hthrows _ _).mpr (.inr ⟨_, rfl, ?_⟩)⟩
  · rw [hrun]
    exact ⟨by simp [Waits], rfl, by decide, by decide, hopen⟩
  · exact .inl ⟨fun hdescribed => absurd hdescribed.2 (by decide), rfl⟩

/-- Updates of an open vault, none of which ends a pending change. -/
def Meanwhile : Bool → List VaultManagerAction → Prop
  | _, [] => True
  | _, .startChange :: actions => Meanwhile true actions
  | _, .finishChange :: actions => Meanwhile false actions
  | pending, .updateStore vault changeCommitted :: actions =>
    ¬(pending = true ∧ changeCommitted.isSome = true) ∧ Regular vault.toVault ∧
      vault.isEmpty = false ∧ Meanwhile pending actions
  | _, _ :: _ => False

/-- The vaults that the store has reported. -/
def reports (actions : List VaultManagerAction) : List Vault :=
  actions.filterMap fun action => match action with
    | .updateStore vault _ => some vault.toVault
    | _ => none

/-- The run lemma: nothing throws, and both amounts are rebased on one vault after the other. -/
theorem edits_rebased (bigNumberFrom : List Char → Outcome ℕ)
    (hregular : Regular state.original.toVault)
    (hopen : state.original.isEmpty = false) (h : Meanwhile state.changePending actions) :
    ∃ state', actions.foldlM (reduce bigNumberFrom) state = .ok state' ∧
      Regular state'.original.toVault ∧
      state'.original.isEmpty = false ∧
      (state'.original.collateral, state'.edited.collateral) =
        ((reports actions).map Vault.collateral).foldl Edit.rebase
          (state.original.collateral, state.edited.collateral) ∧
      (state'.original.debt, state'.edited.debt) =
        ((reports actions).map Vault.debt).foldl Edit.rebase
          (state.original.debt, state.edited.debt) := by
  induction actions generalizing state with
  | nil => exact ⟨state, rfl, hregular, hopen, rfl, rfl⟩
  | cons action actions ih =>
    cases action with
    | startChange => exact @ih { state with changePending := true } hregular hopen h
    | finishChange => exact @ih (finishChange state) hregular hopen h
    | updateStore vault changeCommitted =>
      obtain ⟨hwaits, hvault, hvaultOpen, hrest⟩ := h
      obtain ⟨state₁, hstep, horiginal, hedited, hpending⟩ :=
        updateStore_open vault hregular hopen hwaits
      obtain ⟨state', hrun, hregular', hopen', hcoll, hdebt⟩ :=
        @ih state₁ (horiginal ▸ hvault) (horiginal ▸ hvaultOpen) (hpending ▸ hrest)
      rw [horiginal, hedited] at hcoll hdebt
      refine ⟨state', ?_, hregular', hopen', hcoll, hdebt⟩
      rw [List.foldlM_cons]
      exact bind_ok.mpr ⟨state₁, hstep, hrun⟩
    | _ => exact absurd h id

/-- The change of an open vault to one with collateral and debt depends on the differences alone. -/
theorem whatChanged_of_differences {original edited : Vault} (hregular : Regular original)
    (hopen : original.isEmpty = false) (hcoll : edited.collateral ≠ 0) (hdebt : edited.debt ≠ 0) :
    original.whatChanged edited rate = .ok
      (if original.collateral = edited.collateral ∧ original.debt = edited.debt then none
        else some (.adjustment (paramsTo original edited rate) none)) := by
  obtain ⟨hcollPos, hdebtPos⟩ := hregular.pos hopen
  rcases whatChanged_total original edited rate hregular.reserve with ⟨h, hsame⟩ | ⟨-, hempty⟩ |
    ⟨change, h, hvalid⟩
  · rw [h, if_pos hsame]
  · rw [hempty] at hopen
    contradiction
  cases whatChanged_ok h with
  | invalidCreation => contradiction
  | creation hempty =>
    rw [hempty] at hopen
    contradiction
  | closure params _ hempty => exact absurd (isEmpty_iff.mp hempty).1 hcoll
  | adjustment setToZero _ _ hne =>
    have hdiffer : ¬(original.collateral = edited.collateral ∧ original.debt = edited.debt) :=
      fun hsame => hne.elim (fun h => h hsame.1) fun h => h hsame.2
    rw [h, setToZero_eq hcollPos hdebtPos h, if_neg hdebt, if_neg hcoll, if_neg hdiffer]

theorem whatChanged_congr {original edited original' edited' : Vault} (hregular : Regular original)
    (hopen : original.isEmpty = false) (hregular' : Regular original')
    (hopen' : original'.isEmpty = false) (hcoll : edited.collateral ≠ 0) (hdebt : edited.debt ≠ 0)
    (hcoll' : edited'.collateral ≠ 0) (hdebt' : edited'.debt ≠ 0)
    (hsameColl : Edit.between original'.collateral edited'.collateral =
      Edit.between original.collateral edited.collateral)
    (hsameDebt : Edit.between original'.debt edited'.debt =
      Edit.between original.debt edited.debt) :
    original'.whatChanged edited' rate = original.whatChanged edited rate := by
  rw [whatChanged_of_differences hregular hopen hcoll hdebt,
    whatChanged_of_differences hregular' hopen' hcoll' hdebt']
  obtain ⟨hraised, hlowered⟩ := Edit.differences_eq hcoll' hcoll hsameColl
  obtain ⟨hdebtRaised, hdebtLowered⟩ := Edit.differences_eq hdebt' hdebt hsameDebt
  have hlt {x y x' y' : ℕ} (h : y' - x' = y - x) : (x' < y') = (x < y) := propext (by omega)
  have heq {x y x' y' : ℕ} (h : y' - x' = y - x) (h' : x' - y' = x - y) : (x' = y') = (x = y) :=
    propext (by omega)
  have hparams : paramsTo original' edited' rate = paramsTo original edited rate := by
    simp only [paramsTo, hlt hraised, hlt hlowered, hlt hdebtRaised, hlt hdebtLowered, hraised,
      hlowered, hdebtRaised, hdebtLowered]
  simp only [hparams, heq hraised hlowered, heq hdebtRaised hdebtLowered]

theorem Meanwhile.reports_open {pending : Bool} (h : Meanwhile pending actions) :
    ∀ v ∈ reports actions, 0 < v.collateral ∧ 0 < v.debt := by
  induction actions generalizing pending with
  | nil =>
    intro v hv
    cases hv
  | cons action actions ih =>
    cases action with
    | startChange => exact ih h
    | finishChange => exact ih h
    | updateStore vault changeCommitted =>
      obtain ⟨-, hvault, hvaultOpen, hrest⟩ := h
      intro v hv
      rcases List.mem_cons.mp hv with rfl | hv
      · exact hvault.pos hvaultOpen
      · exact ih hrest v hv
    | _ => exact absurd h id

/-- An amount that is to be cleared stays cleared. -/
theorem cleared_of_rebased {original original' edited' : ℕ} {amounts : List ℕ}
    (hpos : 0 < original) (hall : ∀ n ∈ amounts, 0 < n)
    (h : (original', edited') = amounts.foldl Edit.rebase (original, 0)) : edited' = 0 := by
  have hclear : Edit.between original 0 = .clear := by
    rw [Edit.between, if_pos hpos, if_pos rfl]
  have hfits : ∀ n ∈ amounts, (Edit.between original 0).Fits n := by
    rw [hclear]
    exact hall
  have hkept := Edit.rebases_of_fits hfits
  rw [← h, hclear] at hkept
  exact Edit.eq_zero_of_clear hkept

/-- An amount that is edited to something keeps the difference where this is covered. -/
theorem difference_of_rebased {original edited original' edited' : ℕ} {amounts : List ℕ}
    (hedited : edited ≠ 0) (hpos : 0 < original')
    (hcovered : ∀ n ∈ amounts, original < n + edited)
    (h : (original', edited') = amounts.foldl Edit.rebase (original, edited)) :
    edited' ≠ 0 ∧ Edit.between original' edited' = Edit.between original edited := by
  have hfits : ∀ n ∈ amounts, (Edit.between original edited).Fits n :=
    fun n hn => Edit.fits_of_covered hedited (hcovered n hn)
  have hkept := Edit.rebases_of_fits hfits
  rw [← h] at hkept
  refine ⟨fun hzero => hedited ?_, hkept⟩
  have hclear : Edit.between original edited = .clear := by
    rw [← hkept, hzero, Edit.between, if_pos hpos, if_pos rfl]
  exact Edit.eq_zero_of_clear hclear

/-- The closure of a vault pays out its collateral and takes its net debt. -/
def closing (v : Vault) : VaultClosureParams where
  withdrawCollateral := v.collateral
  repayBPD := if v.debt - BPD_LIQUIDATION_RESERVE ≠ 0 then
    some (v.debt - BPD_LIQUIDATION_RESERVE) else none

theorem whatChanged_closed {original edited : Vault} (hregular : Regular original)
    (hopen : original.isEmpty = false) (hclosed : edited.isEmpty = true) :
    original.whatChanged edited rate = .ok (some (.closure (closing original))) := by
  obtain ⟨hcoll, hdebt⟩ := isEmpty_iff.mp hclosed
  obtain ⟨hcollPos, -⟩ := hregular.pos hopen
  have hreserve : BPD_LIQUIDATION_RESERVE ≤ original.debt :=
    hregular.reserve.resolve_left fun hempty => Bool.noConfusion (hopen.symm.trans hempty)
  have hdiffer : ¬(original.collateral = edited.collateral ∧ original.debt = edited.debt) :=
    fun hsame => hcollPos.ne' (hsame.1.trans hcoll)
  have hnet : original.netDebt = .ok (original.debt - BPD_LIQUIDATION_RESERVE) := by
    simp only [Vault.netDebt, sub, bind_ok, require_ok, pure_ok]
    exact ⟨(), Nat.not_lt.mpr hreserve, (), hreserve, trivial⟩
  unfold Vault.whatChanged
  rw [if_neg hdiffer, if_neg (Bool.eq_false_iff.mp hopen), if_pos hclosed, hnet]
  rfl

/-- While the form of an open vault waits, it offers the same change all the time: whatever the
store reports of the vault, an adjustment that the vault covers stays as it was asked for, down to
the amounts that would be sent, and a closure stays the closure of the vault as it is. -/
theorem change_kept (bigNumberFrom : List Char → Outcome ℕ)
    (hregular : Regular state.original.toVault)
    (hopen : state.original.isEmpty = false) (h : Meanwhile state.changePending actions) :
    ∃ state', actions.foldlM (reduce bigNumberFrom) state = .ok state' ∧
      (state.edited.isEmpty = true → state'.edited.isEmpty = true ∧ ∀ rate,
        state'.original.whatChanged state'.edited rate =
          .ok (some (.closure (closing state'.original.toVault)))) ∧
      (state.edited.collateral ≠ 0 → state.edited.debt ≠ 0 →
        (∀ v ∈ reports actions,
          state.original.collateral < v.collateral + state.edited.collateral ∧
          state.original.debt < v.debt + state.edited.debt) →
        ∀ rate, state'.original.whatChanged state'.edited rate =
          state.original.whatChanged state.edited rate) := by
  obtain ⟨state', hrun, hregular', hopen', hcoll, hdebt⟩ :=
    edits_rebased bigNumberFrom hregular hopen h
  obtain ⟨hcollPos, hdebtPos⟩ := hregular.pos hopen
  obtain ⟨hcollPos', hdebtPos'⟩ := hregular'.pos hopen'
  have hall := h.reports_open
  refine ⟨state', hrun, fun hclosed => ?_, fun hcollEdited hdebtEdited hcovered rate => ?_⟩
  · obtain ⟨hcollZero, hdebtZero⟩ := isEmpty_iff.mp hclosed
    rw [hcollZero] at hcoll
    rw [hdebtZero] at hdebt
    have hclosed' : state'.edited.isEmpty = true := by
      refine isEmpty_iff.mpr ⟨cleared_of_rebased hcollPos ?_ hcoll,
        cleared_of_rebased hdebtPos ?_ hdebt⟩
      · rw [List.forall_mem_map]
        exact fun v hv => (hall v hv).1
      · rw [List.forall_mem_map]
        exact fun v hv => (hall v hv).2
    exact ⟨hclosed', fun rate => whatChanged_closed hregular' hopen' hclosed'⟩
  · obtain ⟨hcollEdited', hsameColl⟩ := difference_of_rebased hcollEdited hcollPos' (by
      rw [List.forall_mem_map]
      exact fun v hv => (hcovered v hv).1) hcoll
    obtain ⟨hdebtEdited', hsameDebt⟩ := difference_of_rebased hdebtEdited hdebtPos' (by
      rw [List.forall_mem_map]
      exact fun v hv => (hcovered v hv).2) hdebt
    exact whatChanged_congr hregular hopen hregular' hopen' hcollEdited hdebtEdited hcollEdited'
      hdebtEdited' hsameColl hsameDebt

/-- A form in which one RBTC is taken out of a vault and a thousand BPD are borrowed. -/
def testForm : VaultManagerState where
  original := ⟨⟨3 * 10 ^ 18, 3000 * 10 ^ 18⟩, 100, .isOpen⟩
  edited := ⟨2 * 10 ^ 18, 4000 * 10 ^ 18⟩
  changePending := false
  debtDirty := true
  addedMinimumDebt := false

/-- The vault receives a share of another one while the transaction is on the way. -/
def redistributes : List VaultManagerAction :=
  [.startChange, .updateStore ⟨⟨31 * 10 ^ 17, 3100 * 10 ^ 18⟩, 100, .isOpen⟩ none]

theorem change_kept_redistribution : ∃ state',
    redistributes.foldlM (reduce bigNumberOfDigits) testForm = .ok state' ∧
    state'.edited = ⟨21 * 10 ^ 17, 4100 * 10 ^ 18⟩ ∧
    state'.original.whatChanged state'.edited (5 * 10 ^ 15) =
      testForm.original.whatChanged testForm.edited (5 * 10 ^ 15) := by
  have hregular : Regular testForm.original.toVault := .inr (by decide)
  have hmeanwhile : Meanwhile testForm.changePending redistributes :=
    ⟨by decide, .inr (by decide), rfl, trivial⟩
  have hresult : redistributes.foldlM (reduce bigNumberOfDigits) testForm = .ok
      ⟨⟨⟨31 * 10 ^ 17, 3100 * 10 ^ 18⟩, 100, .isOpen⟩, ⟨21 * 10 ^ 17, 4100 * 10 ^ 18⟩, true, true,
        false⟩ := rfl
  obtain ⟨state', hrun, -, hkept⟩ := change_kept bigNumberOfDigits hregular rfl hmeanwhile
  refine ⟨state', hrun, ?_, hkept (by decide) (by decide) ?_ _⟩
  · rw [← Except.ok.inj (hresult.symm.trans hrun)]
  · change ∀ v ∈ [(⟨31 * 10 ^ 17, 3100 * 10 ^ 18⟩ : Vault)], _
    rw [List.forall_mem_singleton]
    decide

/-- No vault exists, and its debt was not typed. -/
def Untouched : VaultManagerAction → Prop
  | .setDebt _ | .addMinimumDebt | .removeMinimumDebt => False
  | .updateStore vault _ => vault.isEmpty = true
  | _ => True

/-- The collateral that was typed last since the form was last reverted, by the user or because a
pending transaction was committed. -/
structure Typed where
  collateral : Decimal
  changePending : Bool

def Typed.next (bigNumberFrom : List Char → Outcome ℕ) (typed : Typed) :
    VaultManagerAction → Typed
  | .startChange => { typed with changePending := true }
  | .finishChange => { typed with changePending := false }
  | .revert => { typed with collateral := 0 }
  | .setCollateral newValue =>
    { typed with
      collateral := (newValue.toDecimal bigNumberFrom).toOption.getD typed.collateral }
  | .updateStore _ changeCommitted =>
    if typed.changePending = true ∧ changeCommitted.isSome = true then ⟨0, false⟩ else typed
  | _ => typed

def typedCollateral (bigNumberFrom : List Char → Outcome ℕ) (actions : List VaultManagerAction) :
    Decimal :=
  (actions.foldl (Typed.next bigNumberFrom) ⟨0, false⟩).collateral

/-- The vault that is to be opened has the collateral that was typed, and the minimum debt as soon
as there is some. -/
structure Opening (typed : Typed) (state : VaultManagerState) : Prop where
  original : state.original.isEmpty = true
  changePending : state.changePending = typed.changePending
  debtDirty : state.debtDirty = false
  collateral : state.edited.collateral = typed.collateral
  debt : state.edited.debt = if typed.collateral = 0 then 0 else BPD_MINIMUM_DEBT
  addedMinimumDebt : state.addedMinimumDebt = true ↔ typed.collateral ≠ 0

section opening

variable {typed : Typed}

theorem Opening.reverted {pending : Bool} (hempty : vault.isEmpty = true)
    (hpending : state.changePending = pending) :
    Opening ⟨0, pending⟩ (revert { state with original := vault }) := by
  obtain ⟨hcoll, hdebt⟩ := isEmpty_iff.mp hempty
  refine ⟨hempty, hpending, rfl, hcoll, hdebt, ?_⟩
  exact ⟨fun h => absurd h Bool.false_ne_true, fun h => absurd rfl h⟩

theorem Opening.setCollateral (h : Opening typed state) (newCollateral : Decimal) :
    Opening { typed with collateral := newCollateral } (setCollateral newCollateral state) := by
  have hdirty := h.debtDirty
  unfold VaultManager.setCollateral
  by_cases hzero : newCollateral = 0
  · rw [if_neg fun hfirst => hfirst.2.2 hzero]
    by_cases hadded : state.addedMinimumDebt = true
    · rw [if_pos ⟨hdirty, hadded, hzero⟩]
      refine ⟨h.original, h.changePending, hdirty, rfl, (if_pos hzero).symm, ?_⟩
      exact ⟨fun h => absurd h Bool.false_ne_true, fun hne => absurd hzero hne⟩
    · rw [if_neg fun hremoves => hadded hremoves.2.1]
      have hnone : typed.collateral = 0 := not_not.mp fun hne =>
        hadded (h.addedMinimumDebt.mpr hne)
      refine ⟨h.original, h.changePending, hdirty, rfl, ?_, ?_⟩
      · exact h.debt.trans ((if_pos hnone).trans (if_pos hzero).symm)
      · exact ⟨fun hyes => absurd hyes hadded, fun hne => absurd hzero hne⟩
  · by_cases hempty : state.edited.isEmpty = true
    · rw [if_pos ⟨hdirty, hempty, hzero⟩]
      refine ⟨h.original, h.changePending, hdirty, rfl, (if_neg hzero).symm, ?_⟩
      exact ⟨fun _ => hzero, fun _ => rfl⟩
    · rw [if_neg fun hadds => hempty hadds.2.1, if_neg fun hremoves => hzero hremoves.2.2]
      have hsome : typed.collateral ≠ 0 := fun hnone => hempty (isEmpty_iff.mpr
        ⟨h.collateral.trans hnone, h.debt.trans (if_pos hnone)⟩)
      refine ⟨h.original, h.changePending, hdirty, rfl, ?_, ?_⟩
      · exact h.debt.trans ((if_neg hsome).trans (if_neg hzero).symm)
      · exact ⟨fun _ => hzero, fun _ => h.addedMinimumDebt.mpr hsome⟩

/-- The step lemma: the debt follows the collateral, and nothing throws but the parser. -/
theorem Opening.step (bigNumberFrom : List Char → Outcome ℕ) (h : Opening typed state)
    (huntouched : Untouched action) :
    Opening (typed.next bigNumberFrom action) (dispatch (reduce bigNumberFrom) state action) ∧
      ∀ e, reduce bigNumberFrom state action = .error e → ∃ representation,
        action = .setCollateral (.string representation) ∧
          fromString bigNumberFrom representation = .error e := by
  cases action with
  | startChange =>
    refine ⟨⟨h.original, rfl, h.debtDirty, h.collateral, h.debt, h.addedMinimumDebt⟩, ?_⟩
    rintro e ⟨⟩
  | finishChange =>
    refine ⟨⟨h.original, rfl, h.debtDirty, h.collateral, h.debt, h.addedMinimumDebt⟩, ?_⟩
    rintro e ⟨⟩
  | revert =>
    refine ⟨.reverted h.original h.changePending, ?_⟩
    rintro e ⟨⟩
  | setCollateral newValue =>
    cases hparsed : newValue.toDecimal bigNumberFrom with
    | ok newCollateral =>
      have hreduce : reduce bigNumberFrom state (.setCollateral newValue) =
          .ok (VaultManager.setCollateral newCollateral state) :=
        bind_ok.mpr ⟨newCollateral, hparsed, rfl⟩
      rw [dispatch_ok hreduce, hreduce, Typed.next, hparsed]
      refine ⟨h.setCollateral newCollateral, ?_⟩
      rintro e ⟨⟩
    | error e =>
      obtain ⟨representation, rfl, herror⟩ := toDecimal_error hparsed
      have hreduce : reduce bigNumberFrom state (.setCollateral (.string representation)) =
          .error e := bind_error.mpr (.inl hparsed)
      rw [dispatch_error hreduce, hreduce, Typed.next, hparsed]
      refine ⟨h, ?_⟩
      rintro _ ⟨⟩
      exact ⟨representation, rfl, herror⟩
  | updateStore vault changeCommitted =>
    by_cases hwaits : Waits changeCommitted state
    · have hreduce : reduce bigNumberFrom state (.updateStore vault changeCommitted) = _ :=
        updateStore_empty h.original huntouched hwaits
      have hstays : ¬(typed.changePending = true ∧ changeCommitted.isSome = true) :=
        h.changePending ▸ hwaits
      rw [dispatch_ok hreduce, hreduce, Typed.next, if_neg hstays]
      refine ⟨⟨huntouched, h.changePending, h.debtDirty, h.collateral, h.debt,
        h.addedMinimumDebt⟩, ?_⟩
      rintro e ⟨⟩
    · have hreduce : reduce bigNumberFrom state (.updateStore vault changeCommitted) = _ :=
        updateStore_committed hwaits
      have hcommits : typed.changePending = true ∧ changeCommitted.isSome = true :=
        h.changePending ▸ not_not.mp hwaits
      have hreverted : Opening ⟨0, state.changePending⟩ (revert { state with original := vault }) :=
        .reverted huntouched rfl
      rw [dispatch_ok hreduce, hreduce, Typed.next, if_pos hcommits]
      refine ⟨⟨hreverted.original, rfl, hreverted.debtDirty, hreverted.collateral, hreverted.debt,
        hreverted.addedMinimumDebt⟩, ?_⟩
      rintro e ⟨⟩
  | _ => exact absurd huntouched id

theorem Opening.run (bigNumberFrom : List Char → Outcome ℕ) (h : Opening typed state)
    (huntouched : ∀ action ∈ actions, Untouched action) :
    Opening (actions.foldl (Typed.next bigNumberFrom) typed)
      (actions.foldl (dispatch (reduce bigNumberFrom)) state) := by
  induction actions generalizing typed state with
  | nil => exact h
  | cons action actions ih =>
    obtain ⟨h₁, -⟩ := h.step bigNumberFrom (huntouched action List.mem_cons_self)
    exact ih h₁ fun a ha => huntouched a (List.mem_cons_of_mem _ ha)

end opening

/-- Whoever opens a vault by typing its collateral alone is offered nothing until there is
collateral, and then a creation with exactly this collateral and the loan that the form computes
from the minimum net debt, whatever the form goes through; and nothing throws but the parser. -/
theorem opens_with_minimum (bigNumberFrom : List Char → Outcome ℕ) (hempty : vault.isEmpty = true)
    (huntouched : ∀ action ∈ actions, Untouched action) :
    (run bigNumberFrom vault actions).edited.collateral = typedCollateral bigNumberFrom actions ∧
      (∀ rate, (run bigNumberFrom vault actions).original.whatChanged
        (run bigNumberFrom vault actions).edited rate = .ok
          (if typedCollateral bigNumberFrom actions = 0 then none
            else some (.creation ⟨typedCollateral bigNumberFrom actions,
              unapplyFee rate BPD_MINIMUM_NET_DEBT⟩))) ∧
      ∀ action e, Untouched action →
        reduce bigNumberFrom (run bigNumberFrom vault actions) action = .error e →
          ∃ representation, action = .setCollateral (.string representation) ∧
            fromString bigNumberFrom representation = .error e := by
  have hstart : Opening ⟨0, false⟩ (revert { init vault with original := vault }) :=
    .reverted hempty rfl
  have h : Opening _ (run bigNumberFrom vault actions) := hstart.run bigNumberFrom huntouched
  refine ⟨h.collateral, fun rate => ?_, fun action e hnext => (h.step bigNumberFrom hnext).2 e⟩
  have hdebt := h.debt
  rw [typedCollateral, ← h.collateral] at *
  rcases whatChanged_empty (run bigNumberFrom vault actions).edited rate h.original with
    ⟨hnone, hchange⟩ | ⟨hsome, hlow, -⟩ | ⟨hsome, hreserve, hchange⟩
  · rw [hchange, if_pos (isEmpty_iff.mp hnone).1]
  · split_ifs at hdebt with hzero
    · rw [isEmpty_iff.mpr ⟨hzero, hdebt⟩] at hsome
      contradiction
    · rw [hdebt] at hlow
      exact absurd hlow (by decide)
  · split_ifs at hdebt with hzero
    · rw [isEmpty_iff.mpr ⟨hzero, hdebt⟩] at hsome
      contradiction
    · rw [hchange, if_neg hzero, hdebt, BPD_MINIMUM_DEBT, Decimal.add, Nat.add_sub_cancel_left]

/-- The collateral is typed, taken back, mistyped and typed again. -/
def typesCollateral : List VaultManagerAction :=
  [.setCollateral (.string "5".toList), .setCollateral (.string "0".toList),
    .setCollateral (.string "0,5".toList), .startChange, .setCollateral (.string "1".toList)]

theorem opens_with_minimum_typed : typedCollateral bigNumberOfDigits typesCollateral = 10 ^ 18 ∧
    (run bigNumberOfDigits noVault typesCollateral).original.whatChanged
      (run bigNumberOfDigits noVault typesCollateral).edited 0 =
        .ok (some (.creation ⟨10 ^ 18, BPD_MINIMUM_NET_DEBT⟩)) := by
  have huntouched : ∀ action ∈ typesCollateral, Untouched action := by
    simp only [typesCollateral, List.forall_mem_cons]
    exact ⟨trivial, trivial, trivial, trivial, trivial, by simp⟩
  have hempty : noVault.isEmpty = true := rfl
  have htyped : typedCollateral bigNumberOfDigits typesCollateral = 10 ^ 18 := rfl
  obtain ⟨-, hoffered, -⟩ := opens_with_minimum bigNumberOfDigits hempty huntouched
  refine ⟨htyped, ?_⟩
  rw [hoffered 0, htyped, unapplyFee_zero, if_neg (by decide)]

end VaultManager

end MoneyProtocol.Sdk.Frontend
