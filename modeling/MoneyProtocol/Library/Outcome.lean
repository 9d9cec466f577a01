import Mathlib.Logic.Basic
import Mathlib.Tactic.Common

/-!
# Transactions that may fail

A contract call either returns or fails, and a failed call leaves no trace. Calls are
programs in `Except Failure`; the lemmas below turn "the call returned `b`" into the
list of everything that happened on the way, which is how every later proof opens a call.
-/

namespace Outcome

/-- How a call fails: a `require` with its reason, an `assert` (the invalid opcode),
or a loop that outlives its bound. -/
inductive Failure where
  | revert (reason : String)
  | invalid
  | outOfGas
  deriving DecidableEq, Repr

end Outcome

/-- The outcome of a call. -/
abbrev Outcome (α : Type) := Except Outcome.Failure α

namespace Outcome

variable {α β : Type}

def require (condition : Prop) [Decidable condition] (reason : String) : Outcome Unit :=
  if condition then .ok () else .error (.revert reason)

def assert (condition : Prop) [Decidable condition] : Outcome Unit :=
  if condition then .ok () else .error .invalid

@[simp] theorem bind_ok {x : Outcome α} {f : α → Outcome β} {b : β} :
    (x >>= f) = .ok b ↔ ∃ a, x = .ok a ∧ f a = .ok b := by
  cases x <;> simp [bind, Except.bind]

@[simp] theorem map_ok {x : Outcome α} {f : α → β} {b : β} :
    (f <$> x) = .ok b ↔ ∃ a, x = .ok a ∧ f a = b := by
  cases x <;> simp [Functor.map, Except.map]

@[simp] theorem pure_ok {a b : α} : (pure a : Outcome α) = .ok b ↔ a = b := by
  simp [pure, Except.pure]

@[simp] theorem require_ok {p : Prop} [Decidable p] {reason : String} {u : Unit} :
    require p reason = .ok u ↔ p := by
  by_cases h : p <;> simp [require, h]

@[simp] theorem assert_ok {p : Prop} [Decidable p] {u : Unit} : assert p = .ok u ↔ p := by
  by_cases h : p <;> simp [assert, h]

theorem bind_error {x : Outcome α} {f : α → Outcome β} {e : Failure} :
    (x >>= f) = .error e ↔ x = .error e ∨ ∃ a, x = .ok a ∧ f a = .error e := by
  cases x <;> simp [bind, Except.bind]

/-- The common shape `if p then change s else s` of an optional effect. -/
theorem ite_pure_ok {p : Prop} [Decidable p] {x : Outcome α} {a b : α} :
    (if p then x else pure a) = .ok b ↔ (p ∧ x = .ok b) ∨ (¬p ∧ a = b) := by
  by_cases h : p <;> simp [h]

/-- What a read returns; nothing where it fails. -/
def amount : Outcome ℕ → ℕ
  | .ok v => v
  | .error _ => 0

@[simp] theorem amount_ok {v : ℕ} : amount (.ok v) = v := rfl

theorem amount_le {x : Outcome ℕ} {bound : ℕ} (h : ∀ v, x = .ok v → v ≤ bound) :
    amount x ≤ bound := by
  cases x with
  | error e => exact Nat.zero_le _
  | ok v => exact h v rfl

/-- The call returns a value that passes the check. -/
def succeeds (check : α → Bool) : Outcome α → Bool
  | .ok a => check a
  | .error _ => false

theorem exists_of_succeeds {check : α → Bool} {x : Outcome α} (h : succeeds check x = true) :
    ∃ a, x = .ok a ∧ check a = true := by
  cases x with
  | error e => exact absurd h Bool.false_ne_true
  | ok a => exact ⟨a, rfl, h⟩

/-- The call fails in this way. -/
def failsWith (e : Failure) : Outcome α → Bool
  | .ok _ => false
  | .error e' => decide (e' = e)

theorem eq_error_of_failsWith {e : Failure} {x : Outcome α} (h : failsWith e x = true) :
    x = .error e := by
  cases x with
  | ok a => exact absurd h Bool.false_ne_true
  | error e' => rw [of_decide_eq_true h]

end Outcome
