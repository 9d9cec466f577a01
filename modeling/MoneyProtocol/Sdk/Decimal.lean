import MoneyProtocol.Contracts.Math

/-!
# The decimals of the SDK

`Decimal` is a big integer in units of `10 ^ -18`; no operation overflows. What throws in the
source fails here, an assertion as one.
-/

namespace MoneyProtocol.Sdk

open Outcome

/-- The big integer of a decimal. -/
abbrev Decimal := ℕ

namespace Decimal

def DIGITS : ℕ := 10 ^ 18

def ZERO : Decimal := 0
def HALF : Decimal := 5 * 10 ^ 17
def ONE : Decimal := 10 ^ 18
def INFINITY : Decimal := UINT256_MAX

def roundedMul (x y : ℕ) : ℕ := (x * y + HALF) / DIGITS

def add (a addend : Decimal) : Decimal := a + addend

def sub (a subtrahend : Decimal) : Outcome Decimal := do
  require (subtrahend ≤ a) "negatives not supported by Decimal"
  return a - subtrahend

def mul (a multiplier : Decimal) : Decimal := a * multiplier / DIGITS

def div (a divider : Decimal) : Decimal :=
  if divider = 0 then INFINITY else a * DIGITS / divider

def divCeil (a divider : Decimal) : Decimal :=
  if divider = 0 then INFINITY else (a * DIGITS + (divider - 1)) / divider

def mulDiv (a multiplier divider : Decimal) : Decimal :=
  if divider = 0 then INFINITY else a * multiplier / divider

/-- The loop of `pow`; the exponent halves in every round, so `fuel = exponent` is never used
up. -/
def powLoop : ℕ → ℕ → ℕ → ℕ → ℕ
  | 0, x, y, _ => roundedMul x y
  | fuel + 1, x, y, exponent =>
    if exponent > 1 then
      powLoop fuel (roundedMul x x) (if exponent % 2 = 1 then roundedMul x y else y)
        (exponent / 2)
    else roundedMul x y

def pow (a : Decimal) (exponent : ℕ) : Outcome Decimal := do
  assert (exponent ≤ 0xffffffff)
  if exponent = 0 then return ONE
  else if exponent = 1 then return a
  else return powLoop exponent a DIGITS exponent

end Decimal

/-- A point in time in milliseconds; an invalid one has no time value. -/
abbrev Date := Option ℕ

/-- The constructor takes times up to 8640000000000000 milliseconds. -/
def Date.ofMilliseconds (ms : ℕ) : Date := if ms ≤ 8640000000000000 then some ms else none

/-- A big number that is not a safe integer cannot be converted. -/
def toNumber (n : ℕ) : Outcome ℕ := do
  require (n < 2 ^ 53) "overflow"
  return n

def convertToDate (timestamp : ℕ) : Date := Date.ofMilliseconds (timestamp * 1000)

end MoneyProtocol.Sdk
