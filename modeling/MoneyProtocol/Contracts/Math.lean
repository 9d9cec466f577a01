import MoneyProtocol.Library.Outcome
import Mathlib.Tactic.Linarith
import Mathlib.Tactic.Ring

/-!
# Checked arithmetic and collateral ratios

`SafeMath`, `MoneypSafeMath128`, `MoneypMath` and the pure part of `MoneypBase`. Words are
natural numbers; every operation of `SafeMath` fails where the 256-bit word would wrap.
Each operation comes with the equation its result satisfies.
-/

namespace MoneyProtocol

def UINT256_MAX : ℕ := 2 ^ 256 - 1

namespace SafeMath

open Outcome

def add (a b : ℕ) : Outcome ℕ := do
  require (a + b < 2 ^ 256) "SafeMath: addition overflow"
  return a + b

def subWith (a b : ℕ) (errorMessage : String) : Outcome ℕ := do
  require (b ≤ a) errorMessage
  return a - b

def sub (a b : ℕ) : Outcome ℕ := subWith a b "SafeMath: subtraction overflow"

def mul (a b : ℕ) : Outcome ℕ := do
  require (a * b < 2 ^ 256) "SafeMath: multiplication overflow"
  return a * b

def div (a b : ℕ) : Outcome ℕ := do
  require (0 < b) "SafeMath: division by zero"
  return a / b

variable {a b c : ℕ}

@[simp] theorem add_ok : add a b = .ok c ↔ a + b < 2 ^ 256 ∧ a + b = c := by
  simp [add]

@[simp] theorem subWith_ok {message : String} :
    subWith a b message = .ok c ↔ b ≤ a ∧ a - b = c := by
  simp [subWith]

@[simp] theorem sub_ok : sub a b = .ok c ↔ b ≤ a ∧ a - b = c := by
  simp [sub]

@[simp] theorem mul_ok : mul a b = .ok c ↔ a * b < 2 ^ 256 ∧ a * b = c := by
  simp [mul]

@[simp] theorem div_ok : div a b = .ok c ↔ 0 < b ∧ a / b = c := by
  simp [div]

theorem mul_ne_invalid : mul a b ≠ .error .invalid := by
  intro h
  simp only [mul, bind_error, require] at h
  split_ifs at h <;> simp [pure, Except.pure] at h

theorem div_ne_invalid : div a b ≠ .error .invalid := by
  intro h
  simp only [div, bind_error, require] at h
  split_ifs at h <;> simp [pure, Except.pure] at h

end SafeMath

namespace MoneypSafeMath128

open Outcome

def add (a b : ℕ) : Outcome ℕ := do
  require (a + b < 2 ^ 128) "MoneypSafeMath128: addition overflow"
  return a + b

def sub (a b : ℕ) : Outcome ℕ := do
  require (b ≤ a) "MoneypSafeMath128: subtraction overflow"
  return a - b

variable {a b c : ℕ}

@[simp] theorem add_ok : add a b = .ok c ↔ a + b < 2 ^ 128 ∧ a + b = c := by
  simp [add]

@[simp] theorem sub_ok : sub a b = .ok c ↔ b ≤ a ∧ a - b = c := by
  simp [sub]

end MoneypSafeMath128

def DECIMAL_PRECISION : ℕ := 10 ^ 18

namespace MoneypMath

open Outcome

def NICR_PRECISION : ℕ := 10 ^ 20

/-- Product of two 18-digit decimals, rounded half up. -/
def decMul (x y : ℕ) : Outcome ℕ := do
  let prod_xy ← SafeMath.mul x y
  let rounded ← SafeMath.add prod_xy (DECIMAL_PRECISION / 2)
  SafeMath.div rounded DECIMAL_PRECISION

/-- The squaring loop of `decPow`; `n` halves in every round, so `fuel = n` is never used up. -/
def decPowLoop : ℕ → ℕ → ℕ → ℕ → Outcome ℕ
  | 0, _, _, _ => .error .outOfGas
  | fuel + 1, x, y, n =>
    if n > 1 then
      if n % 2 = 0 then do
        let x ← decMul x x
        decPowLoop fuel x y (n / 2)
      else do
        let y ← decMul x y
        let x ← decMul x x
        decPowLoop fuel x y ((n - 1) / 2)
    else decMul x y

def decPow (base minutes : ℕ) : Outcome ℕ :=
  let minutes := if minutes > 525600000 then 525600000 else minutes
  if minutes = 0 then return DECIMAL_PRECISION
  else decPowLoop minutes base DECIMAL_PRECISION minutes

def getAbsoluteDifference (a b : ℕ) : Outcome ℕ :=
  if a ≥ b then SafeMath.sub a b else SafeMath.sub b a

def computeNominalCR (coll debt : ℕ) : Outcome ℕ :=
  if debt > 0 then do
    let scaled ← SafeMath.mul coll NICR_PRECISION
    SafeMath.div scaled debt
  else return UINT256_MAX

def computeCR (coll debt price : ℕ) : Outcome ℕ :=
  if debt > 0 then do
    let usd ← SafeMath.mul coll price
    SafeMath.div usd debt
  else return UINT256_MAX

/-- The value of `computeNominalCR` where no product overflows. -/
def nominalCR (coll debt : ℕ) : ℕ :=
  if debt > 0 then coll * NICR_PRECISION / debt else UINT256_MAX

/-- The value of `computeCR` where no product overflows. -/
def collRatio (coll debt price : ℕ) : ℕ :=
  if debt > 0 then coll * price / debt else UINT256_MAX

theorem computeNominalCR_ok {coll debt r : ℕ} (h : computeNominalCR coll debt = .ok r) :
    nominalCR coll debt = r := by
  unfold computeNominalCR at h
  unfold nominalCR
  split_ifs at h ⊢ with hdebt
  · simp at h
    exact h.2.2
  · simpa using h

theorem computeCR_ok {coll debt price r : ℕ} (h : computeCR coll debt price = .ok r) :
    collRatio coll debt price = r := by
  unfold computeCR at h
  unfold collRatio
  split_ifs at h ⊢ with hdebt
  · simp at h
    exact h.2.2
  · simpa using h

end MoneypMath

namespace MoneypBase

open Outcome

def _100pct : ℕ := 10 ^ 18

/-- Minimum collateral ratio for individual vaults, 110%. -/
def MCR : ℕ := 11 * 10 ^ 17

/-- Critical system collateral ratio, 150%: below it the system is in Recovery Mode. -/
def CCR : ℕ := 15 * 10 ^ 17

def BPD_GAS_COMPENSATION : ℕ := 200 * 10 ^ 18
def MIN_NET_DEBT : ℕ := 1800 * 10 ^ 18
def PERCENT_DIVISOR : ℕ := 200
def BORROWING_FEE_FLOOR : ℕ := DECIMAL_PRECISION / 1000 * 5

def getCompositeDebt (debt : ℕ) : Outcome ℕ := SafeMath.add debt BPD_GAS_COMPENSATION

def getNetDebt (debt : ℕ) : Outcome ℕ := SafeMath.sub debt BPD_GAS_COMPENSATION

def getCollGasCompensation (entireColl : ℕ) : ℕ := entireColl / PERCENT_DIVISOR

def requireUserAcceptsFee (fee amount maxFeePercentage : ℕ) : Outcome Unit := do
  let scaled ← SafeMath.mul fee DECIMAL_PRECISION
  let feePercentage ← SafeMath.div scaled amount
  require (feePercentage ≤ maxFeePercentage) "Fee exceeded provided maximum"

end MoneypBase

end MoneyProtocol
