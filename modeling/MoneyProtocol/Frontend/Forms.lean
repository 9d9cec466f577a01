import MoneyProtocol.Sdk.Deposits
import MoneyProtocol.Sdk.Parsing

/-!
# Forms

`StabilityDepositManager` and `StakingManager` keep an amount that the user edits beside what
the store holds, and `StakingViewProvider` knows whether the form is open. Their reducers take
the actions of the user and the updates of the store in the order in which they come. An amount
arrives as it was typed, and the reducers throw where it cannot be parsed.
-/

namespace MoneyProtocol.Sdk.Frontend

/-- What `dispatch` makes of the state of a form: where the reducer throws, it stays as it is. -/
def dispatch {S A : Type} (reduce : S → A → Outcome S) (state : S) (action : A) : S :=
  (reduce state action).toOption.getD state

section

variable {S A : Type} {reduce : S → A → Outcome S} {state state' : S} {action : A}
  {e : Outcome.Failure}

theorem dispatch_ok (h : reduce state action = .ok state') :
    dispatch reduce state action = state' := by
  rw [dispatch, h]
  rfl

theorem dispatch_error (h : reduce state action = .error e) :
    dispatch reduce state action = state := by
  rw [dispatch, h]
  rfl

end

variable (bigNumberFrom : List Char → Outcome ℕ)

structure StabilityDepositManagerState where
  originalDeposit : StabilityDeposit
  editedBPD : Decimal
  changePending : Bool

/-- An update of the store brings the deposit only if it has changed. -/
inductive StabilityDepositManagerAction where
  | startChange
  | finishChange
  | revert
  | setDeposit (newValue : Decimalish)
  | updateStore (stabilityDeposit : Option StabilityDeposit)

namespace StabilityDepositManager

def init (stabilityDeposit : StabilityDeposit) : StabilityDepositManagerState where
  originalDeposit := stabilityDeposit
  editedBPD := stabilityDeposit.currentBPD
  changePending := false

/-- Whether the deposit has changed as only its owner can change it. -/
def changeCommitted (originalDeposit updatedDeposit : StabilityDeposit) : Bool :=
  decide (updatedDeposit.initialBPD ≠ originalDeposit.initialBPD) ||
    decide (updatedDeposit.currentBPD > originalDeposit.currentBPD) ||
    decide (updatedDeposit.collateralGain < originalDeposit.collateralGain) ||
    decide (updatedDeposit.mpReward < originalDeposit.mpReward)

def finishChange (state : StabilityDepositManagerState) : StabilityDepositManagerState :=
  { state with changePending := false }

def revert (state : StabilityDepositManagerState) : StabilityDepositManagerState :=
  { state with editedBPD := state.originalDeposit.currentBPD }

def updateStore (stabilityDeposit : Option StabilityDeposit)
    (state : StabilityDepositManagerState) : StabilityDepositManagerState :=
  match stabilityDeposit with
  | none => state
  | some updatedDeposit =>
    if state.changePending = true ∧
        changeCommitted state.originalDeposit updatedDeposit = true then
      finishChange (revert { state with originalDeposit := updatedDeposit })
    else
      { state with
        originalDeposit := updatedDeposit
        editedBPD := updatedDeposit.apply (state.originalDeposit.whatChanged state.editedBPD) }

def reduce (state : StabilityDepositManagerState) :
    StabilityDepositManagerAction → Outcome StabilityDepositManagerState
  | .startChange => return { state with changePending := true }
  | .finishChange => return finishChange state
  | .setDeposit newValue => do
    let editedBPD ← newValue.toDecimal bigNumberFrom
    return { state with editedBPD := editedBPD }
  | .revert => return revert state
  | .updateStore stabilityDeposit => return updateStore stabilityDeposit state

variable {state : StabilityDepositManagerState} {r : StabilityDeposit}

/-- What the form shows: the deposit, and what has been made of it. -/
def amounts (state : StabilityDepositManagerState) : ℕ × ℕ :=
  (state.originalDeposit.currentBPD, state.editedBPD)

theorem changeCommitted_eq_false {original updated : StabilityDeposit} :
    changeCommitted original updated = false ↔
      updated.initialBPD = original.initialBPD ∧ updated.currentBPD ≤ original.currentBPD ∧
        original.collateralGain ≤ updated.collateralGain ∧
          original.mpReward ≤ updated.mpReward := by
  simp [changeCommitted, and_assoc]

/-- Where nothing was committed, the form is rebased on the new deposit. -/
theorem reduce_update (h : changeCommitted state.originalDeposit r = false) :
    (updateStore (some r) state).originalDeposit = r ∧
      (updateStore (some r) state).changePending = state.changePending ∧
      amounts (updateStore (some r) state) =
        Edit.rebase (amounts state) r.currentBPD := by
  rw [updateStore, if_neg (by rw [h]; simp)]
  exact ⟨rfl, rfl, Prod.ext rfl (applyAmount_amountChanged _ _ _)⟩

/-- Where a pending change was committed, the form is closed with the new deposit in it. -/
theorem reduce_committed (hpending : state.changePending = true)
    (h : changeCommitted state.originalDeposit r = true) :
    updateStore (some r) state = init r := by
  rw [updateStore, if_pos ⟨hpending, h⟩]
  rfl

end StabilityDepositManager

structure StakeManagerState where
  originalStake : MPStake
  editedMP : Decimal

inductive StakeManagerAction where
  | revert
  | setStake (newValue : Decimalish)
  | updateStore (mpStake : Option MPStake)

namespace StakingManager

def init (mpStake : MPStake) : StakeManagerState := ⟨mpStake, mpStake.stakedMP⟩

def reduce (state : StakeManagerState) : StakeManagerAction → Outcome StakeManagerState
  | .setStake newValue => do
    let editedMP ← newValue.toDecimal bigNumberFrom
    return { state with editedMP := editedMP }
  | .revert => return { state with editedMP := state.originalStake.stakedMP }
  | .updateStore none => return state
  | .updateStore (some updatedStake) =>
    return ⟨updatedStake, updatedStake.apply (state.originalStake.whatChanged state.editedMP)⟩

end StakingManager

structure StakingViewProviderState where
  mpStake : MPStake
  changePending : Bool
  adjusting : Bool

/-- An update brings the stake that the store held before, and the new one if it has changed. -/
inductive StakingViewProviderAction where
  | startAdjusting
  | cancelAdjusting
  | startChange
  | abortChange
  | updateStore (oldStake : MPStake) (mpStake : Option MPStake)

inductive StakingView where
  | adjusting
  | none
  | active
  deriving DecidableEq

namespace StakingViewProvider

def init (mpStake : MPStake) : StakingViewProviderState := ⟨mpStake, false, false⟩

def changeCommitted (oldStake updatedStake : MPStake) : Bool :=
  decide (updatedStake.stakedMP ≠ oldStake.stakedMP) ||
    decide (updatedStake.collateralGain < oldStake.collateralGain) ||
    decide (updatedStake.bpdGain < oldStake.bpdGain)

def reduce (state : StakingViewProviderState) :
    StakingViewProviderAction → StakingViewProviderState
  | .startAdjusting => { state with adjusting := true }
  | .cancelAdjusting => { state with adjusting := false }
  | .startChange => { state with changePending := true }
  | .abortChange => { state with changePending := false }
  | .updateStore _ none => state
  | .updateStore oldStake (some updatedStake) =>
    { mpStake := updatedStake
      adjusting := false
      changePending :=
        if changeCommitted oldStake updatedStake = true then false else state.changePending }

def view (state : StakingViewProviderState) : StakingView :=
  if state.adjusting = true then .adjusting
  else if state.mpStake.isEmpty = true then .none else .active

end StakingViewProvider

end MoneyProtocol.Sdk.Frontend
