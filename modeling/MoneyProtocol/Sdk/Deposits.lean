import MoneyProtocol.Library.Edits
import MoneyProtocol.Contracts.StabilityPool
import MoneyProtocol.Store.BaseState

/-!
# Deposits and stakes in the SDK

A stability deposit and a stake of MP are changed by the difference to another amount. The
change of either kind is found and applied in the same way.
-/

namespace MoneyProtocol.Sdk

open Outcome Decimal

/-- `withdrawBPD` with `withdrawAllBPD`, or `depositBPD`; for a stake `unstakeMP` with
`unstakeAllMP`, or `stakeMP`. -/
inductive AmountChange where
  | withdraw (amount : Decimal) (all : Bool)
  | deposit (amount : Decimal)
  deriving DecidableEq

/-- How `whatChanged` compares an amount with another one. -/
def amountChanged (current that : Decimal) : Option AmountChange :=
  if that < current then some (.withdraw (current - that) (decide (that = 0)))
  else if that > current then some (.deposit (that - current))
  else none

theorem amountChanged_self (current : Decimal) : amountChanged current current = none := by
  rw [amountChanged, if_neg (Nat.lt_irrefl _), if_neg (Nat.lt_irrefl _)]

theorem amountChanged_add {current amount : Decimal} (hpos : 0 < amount) :
    amountChanged current (current + amount) = some (.deposit amount) := by
  rw [amountChanged, if_neg (Nat.not_lt.mpr (Nat.le_add_right _ _)),
    if_pos (Nat.lt_add_of_pos_right hpos), Nat.add_sub_cancel_left]

/-- How `apply` changes an amount. -/
def applyAmount (current : Decimal) : Option AmountChange → Decimal
  | none => current
  | some (.withdraw amount all) =>
    if all = true ∨ current ≤ amount then ZERO else current - amount
  | some (.deposit amount) => add current amount

/-- A change that is applied to another amount is an edit of that amount. -/
theorem applyAmount_amountChanged (original edited current : Decimal) :
    applyAmount current (amountChanged original edited) =
      (Edit.between original edited).on current := by
  unfold amountChanged Edit.between
  split_ifs with hlt hzero hgt
  · simp [applyAmount, hzero, Edit.on, ZERO]
  · simp only [applyAmount, hzero, decide_false, Bool.false_eq_true, false_or, Edit.on, ZERO]
    split_ifs with hle
    · exact (Nat.sub_eq_zero_of_le hle).symm
    · rfl
  · rfl
  · rfl

/-- A change is not empty, and all of an amount is no less than it. -/
theorem amountChanged_some {original edited : Decimal} {change : AmountChange}
    (h : amountChanged original edited = some change) :
    (∃ depositBPD, 0 < depositBPD ∧ change = .deposit depositBPD) ∨
      ∃ withdrawBPD all, 0 < withdrawBPD ∧ withdrawBPD ≤ original ∧
        (all = true → withdrawBPD = original) ∧ change = .withdraw withdrawBPD all := by
  unfold amountChanged at h
  split_ifs at h with hlt hgt
  · refine .inr ⟨original - edited, _, Nat.sub_pos_of_lt hlt, Nat.sub_le _ _, fun hall => ?_,
      (Option.some.inj h).symm⟩
    have hzero : edited = 0 := of_decide_eq_true hall
    rw [hzero, Nat.sub_zero]
  · exact .inl ⟨edited - original, Nat.sub_pos_of_lt hgt, (Option.some.inj h).symm⟩

namespace StabilityDeposit

/-- The constructor. -/
def new (initialBPD currentBPD collateralGain mpReward : Decimal) (frontendTag : Address) :
    Outcome StabilityDeposit := do
  require (¬currentBPD > initialBPD) "currentBPD can't be greater than initialBPD"
  return ⟨initialBPD, currentBPD, collateralGain, mpReward, frontendTag⟩

def isEmpty (v : StabilityDeposit) : Bool :=
  decide (v.initialBPD = 0) && decide (v.currentBPD = 0) && decide (v.collateralGain = 0) &&
    decide (v.mpReward = 0)

def whatChanged (v : StabilityDeposit) (thatBPD : Decimal) : Option AmountChange :=
  amountChanged v.currentBPD thatBPD

def apply (v : StabilityDeposit) (change : Option AmountChange) : Decimal :=
  applyAmount v.currentBPD change

end StabilityDeposit

namespace MPStake

def isEmpty (v : MPStake) : Bool :=
  decide (v.stakedMP = 0) && decide (v.collateralGain = 0) && decide (v.bpdGain = 0)

def whatChanged (v : MPStake) (thatStakedMP : Decimal) : Option AmountChange :=
  amountChanged v.stakedMP thatStakedMP

def apply (v : MPStake) (change : Option AmountChange) : Decimal :=
  applyAmount v.stakedMP change

end MPStake

def getStabilityDeposit (address : Address) (s : State) : Outcome StabilityDeposit := do
  let currentBPD ← StabilityPool.getCompoundedBPDDeposit address s
  let collateralGain ← StabilityPool.getDepositorRBTCGain address s
  let mpReward ← StabilityPool.getDepositorMPGain address s
  StabilityDeposit.new (s.stabilityPool.deposits address).initialValue currentBPD collateralGain
    mpReward (s.stabilityPool.deposits address).frontEndTag

def getMPStake (address : Address) (s : State) : Outcome MPStake := do
  let collateralGain ← MPStaking.getPendingRBTCGain address s
  let bpdGain ← MPStaking.getPendingBPDGain address s
  return ⟨s.mpStaking.stakes address, collateralGain, bpdGain⟩

variable {u : Address} {s : State} {r : StabilityDeposit} {m : MPStake}

theorem getStabilityDeposit_ok (h : getStabilityDeposit u s = .ok r) :
    StabilityPool.getCompoundedBPDDeposit u s = .ok r.currentBPD ∧
      StabilityPool.getDepositorRBTCGain u s = .ok r.collateralGain ∧
      StabilityPool.getDepositorMPGain u s = .ok r.mpReward ∧
      r.initialBPD = (s.stabilityPool.deposits u).initialValue ∧ r.currentBPD ≤ r.initialBPD := by
  simp only [getStabilityDeposit, StabilityDeposit.new, bind_ok, require_ok, pure_ok] at h
  obtain ⟨currentBPD, hcurrent, collateralGain, hcollateral, mpReward, hmp, _, hle, rfl⟩ := h
  exact ⟨hcurrent, hcollateral, hmp, rfl, Nat.not_lt.mp hle⟩

theorem getMPStake_ok (h : getMPStake u s = .ok m) :
    m.stakedMP = s.mpStaking.stakes u ∧
      MPStaking.getPendingRBTCGain u s = .ok m.collateralGain ∧
      MPStaking.getPendingBPDGain u s = .ok m.bpdGain := by
  simp only [getMPStake, bind_ok, pure_ok] at h
  obtain ⟨collateralGain, hcollateral, bpdGain, hbpd, rfl⟩ := h
  exact ⟨rfl, hcollateral, hbpd⟩

end MoneyProtocol.Sdk
