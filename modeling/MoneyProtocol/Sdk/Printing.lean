import MoneyProtocol.Sdk.Parsing

/-!
# Printing decimals

`toString` of a decimal. Without a precision the trailing zeros after the point are cut off; with
one half a unit of the last place is added, and the digits beyond that place are cut off. A
carry is one of the sum.
-/

namespace MoneyProtocol.Sdk

open Outcome Digits

namespace Decimal

section

variable (bigNumberToString : ℕ → List Char)

/-- The digits after the point, all of them. -/
def paddedMantissa (value : ℕ) : List Char :=
  List.leftpad PRECISION '0' (bigNumberToString (value % DIGITS))

def toStringWithAutomaticPrecision (a : Decimal) : List Char :=
  let characteristic := bigNumberToString (a / DIGITS)
  if a % DIGITS = 0 then characteristic
  else
    let trimmedMantissa := (paddedMantissa bigNumberToString a).rdropWhile (· == '0')
    characteristic ++ '.' :: trimmedMantissa

def roundUp (a : Decimal) (precision : ℕ) : ℕ :=
  let halfDigit := 10 ^ (PRECISION - 1 - precision) * 5
  a + halfDigit

def toStringWithPrecision (a : Decimal) (precision : ℤ) : Outcome (List Char) := do
  require (0 ≤ precision) "precision must not be negative"
  let precision := precision.toNat
  let value := if precision < PRECISION then roundUp a precision else a
  let characteristic := bigNumberToString (value / DIGITS)
  if precision = 0 then return characteristic
  else
    let trimmedMantissa := (paddedMantissa bigNumberToString value).take precision
    return characteristic ++ '.' :: trimmedMantissa

def toString (a : Decimal) (precision : Option ℤ) : Outcome (List Char) :=
  if a = INFINITY then return ['∞']
  else
    match precision with
    | some precision => toStringWithPrecision bigNumberToString a precision
    | none => return toStringWithAutomaticPrecision bigNumberToString a

end

end Decimal

/-- Big numbers are written in decimal digits, without zeros in front. -/
structure WritesDigits (bigNumberToString : ℕ → List Char) : Prop where
  digits : ∀ n, bigNumberToString n = Nat.toDigits 10 n

/-- A numeral with exactly `p` digits after the point. -/
structure Numeral.FixedPoint (p : ℕ) (r : Numeral) : Prop where
  exponent : r.exponent = none
  point : r.fraction = none ↔ p = 0
  places : r.fractionDigits.length = p
  nonempty : r.integer ≠ []
  leading : r.integer.head? = some '0' → r.integer = ['0']

open Decimal

variable {bigNumberFrom : List Char → Outcome ℕ} {bigNumberToString : ℕ → List Char} {n p : ℕ}

namespace WritesDigits

theorem allDigits (hto : WritesDigits bigNumberToString) : AllDigits (bigNumberToString n) := by
  rw [hto.digits]
  exact toDigits_digits n

theorem number (hto : WritesDigits bigNumberToString) :
    Digits.number (bigNumberToString n) = n := by
  rw [hto.digits, number_toDigits]

theorem ne_nil (hto : WritesDigits bigNumberToString) : bigNumberToString n ≠ [] := by
  rw [hto.digits]
  exact Nat.toDigits_ne_nil

theorem leading (hto : WritesDigits bigNumberToString)
    (h : (bigNumberToString n).head? = some '0') : bigNumberToString n = ['0'] := by
  rw [hto.digits] at h ⊢
  rw [head_toDigits h, Nat.toDigits_zero]

/-- The remainder has at most 18 digits, so that it is filled up to exactly 18. -/
theorem padded (hto : WritesDigits bigNumberToString) :
    AllDigits (paddedMantissa bigNumberToString n) ∧
      Digits.number (paddedMantissa bigNumberToString n) = n % DIGITS ∧
      (paddedMantissa bigNumberToString n).length = PRECISION := by
  have hmantissa : n % DIGITS < 10 ^ PRECISION := Nat.mod_lt n (Nat.pow_pos (by decide))
  have hshort : (bigNumberToString (n % DIGITS)).length ≤ PRECISION := by
    rw [hto.digits, Nat.length_toDigits_le_iff (by decide) PRECISION_pos]
    exact hmantissa
  refine ⟨hto.allDigits.leftpad, ?_, ?_⟩
  · rw [paddedMantissa, number_leftpad, hto.number]
  · rw [paddedMantissa, List.length_leftpad, Nat.max_eq_left hshort]

end WritesDigits

/-- Reading fills up the zeros that printing has cut off. -/
theorem scaled_trimmed (hto : WritesDigits bigNumberToString) (d : Decimal) :
    scaled PRECISION (bigNumberToString (d / DIGITS))
      ((paddedMantissa bigNumberToString d).rdropWhile (· == '0')) = d := by
  obtain ⟨hdigits, hnumber, hlength⟩ := hto.padded (n := d)
  have hprefix := List.rdropWhile_prefix (· == '0') (l := paddedMantissa bigNumberToString d)
  have hzeros := rdropWhile_zeros (paddedMantissa bigNumberToString d)
  have hle := hprefix.length_le
  generalize (paddedMantissa bigNumberToString d).rdropWhile (· == '0') = trimmed at *
  have htrimmed : AllDigits trimmed := hdigits.of_subset hprefix.subset
  rw [hlength] at hle hzeros
  calc scaled PRECISION (bigNumberToString (d / DIGITS)) trimmed
      = number (bigNumberToString (d / DIGITS) ++ trimmed) * 10 ^ (PRECISION - trimmed.length) := by
        rw [scaled_eq htrimmed, List.take_of_length_le hle]
    _ = number (bigNumberToString (d / DIGITS) ++ paddedMantissa bigNumberToString d) := by
        rw [← hzeros, ← List.append_assoc, number_append_zeros]
    _ = d / DIGITS * DIGITS + d % DIGITS := by
        rw [number_append, hto.number, hnumber, hlength]
        rfl
    _ = d := Nat.div_add_mod' d DIGITS

/-- A numeral without an exponent. -/
def Numeral.plain (integer : List Char) (fraction : Option (List Char))
    (hinteger : AllDigits integer) (hfraction : AllDigits (fraction.getD [])) : Numeral where
  integer := integer
  fraction := fraction
  exponent := none
  integer_digits := hinteger
  fraction_digits := hfraction
  exponent_digits := noExponent_digits

theorem Numeral.plain_text {integer : List Char} {fraction : Option (List Char)}
    (hinteger : AllDigits integer) (hfraction : AllDigits (fraction.getD [])) :
    (plain integer fraction hinteger hfraction).text = integer ++ fractionText fraction :=
  List.append_nil _

theorem allDigits_none : AllDigits ((none : Option (List Char)).getD []) := AllDigits.nil

/-- What is printed without a precision is read as the same decimal. -/
theorem fromString_automatic (hfrom : ReadsDigits bigNumberFrom)
    (hto : WritesDigits bigNumberToString) (d : Decimal) :
    fromString bigNumberFrom (toStringWithAutomaticPrecision bigNumberToString d) = .ok d := by
  have hwhole := hto.allDigits (n := d / DIGITS)
  have hnonempty (fraction : List Char) : bigNumberToString (d / DIGITS) ++ fraction ≠ [] :=
    List.append_ne_nil_of_left_ne_nil hto.ne_nil fraction
  unfold toStringWithAutomaticPrecision
  dsimp only
  split_ifs with hmantissa
  · have hread := fromString_text hfrom
      (.plain _ none hwhole allDigits_none) (hnonempty _)
    have hvalue : scaled PRECISION (bigNumberToString (d / DIGITS)) [] = d := by
      rw [scaled, List.append_nil, List.length_nil, pow_zero, Nat.div_one, hto.number]
      exact Nat.div_mul_cancel (Nat.dvd_of_mod_eq_zero hmantissa)
    rw [Numeral.plain_text, fractionText, List.append_nil] at hread
    rw [hread]
    exact congrArg Except.ok hvalue
  · have hdigits : AllDigits ((paddedMantissa bigNumberToString d).rdropWhile (· == '0')) :=
      hto.padded.1.of_subset (List.rdropWhile_prefix _ _).subset
    have hread := fromString_text hfrom (.plain _
      (some ((paddedMantissa bigNumberToString d).rdropWhile (· == '0'))) hwhole hdigits)
      (hnonempty _)
    rw [Numeral.plain_text, fractionText] at hread
    rw [hread]
    exact congrArg Except.ok (scaled_trimmed hto d)

/-- Adding half a unit and cutting the digits off rounds half up. -/
theorem roundUp_cut (d : Decimal) (hp : p < PRECISION) :
    ((roundUp d p / 10 ^ (PRECISION - p) : ℕ) : ℚ) / 10 ^ p =
      roundedHalfUp p ((d : ℚ) / 10 ^ PRECISION) := by
  obtain ⟨k, hk⟩ : ∃ k, PRECISION = p + (k + 1) := ⟨PRECISION - p - 1, by omega⟩
  have hhalf : PRECISION - 1 - p = k := by
    omega
  have hcut : PRECISION - p = k + 1 := by
    omega
  rw [roundUp, hhalf, hcut, hk, roundedHalfUp_scaled]

/-- The digits of the whole part and the first digits of the rest are those of the value cut
there. -/
theorem cut_digits (hp : p ≤ PRECISION) :
    n / DIGITS * 10 ^ p + n % DIGITS / 10 ^ (PRECISION - p) = n / 10 ^ (PRECISION - p) := by
  have hdigits : DIGITS = 10 ^ p * 10 ^ (PRECISION - p) := by
    rw [← pow_add, Nat.add_sub_cancel' hp]
    rfl
  have hpos : 0 < 10 ^ (PRECISION - p) := Nat.pow_pos (by decide)
  have hsplit := Nat.div_add_mod' n DIGITS
  generalize n / DIGITS = q at hsplit ⊢
  generalize n % DIGITS = r at hsplit ⊢
  rw [hdigits, ← Nat.mul_assoc] at hsplit
  rw [← hsplit, Nat.mul_comm _ (10 ^ (PRECISION - p)), Nat.mul_add_div hpos]

/-- The numeral that is printed. -/
theorem exists_printed (hto : WritesDigits bigNumberToString) (d : Decimal) (hp : p < PRECISION) :
    ∃ r : Numeral, r.FixedPoint p ∧
      toStringWithPrecision bigNumberToString d p = .ok r.text ∧
      r.exactValue = roundedHalfUp p ((d : ℚ) / 10 ^ PRECISION) := by
  have hprecision : (0 : ℤ) ≤ p := Int.natCast_nonneg p
  have hwhole := hto.allDigits (n := roundUp d p / DIGITS)
  obtain ⟨hdigits, hnumber, hlength⟩ := hto.padded (n := roundUp d p)
  have htaken : AllDigits ((paddedMantissa bigNumberToString (roundUp d p)).take p) :=
    hdigits.of_subset (List.take_subset _ _)
  have hplaces : ((paddedMantissa bigNumberToString (roundUp d p)).take p).length = p :=
    List.length_take_of_le (hlength.symm ▸ hp.le)
  have hvalue : value (bigNumberToString (roundUp d p / DIGITS))
      ((paddedMantissa bigNumberToString (roundUp d p)).take p) =
      roundedHalfUp p ((d : ℚ) / 10 ^ PRECISION) := by
    rw [← roundUp_cut d hp, value, hplaces, number_append, hto.number, hplaces, number_take hdigits,
      hnumber, hlength, cut_digits hp.le]
  have hprinted : toStringWithPrecision bigNumberToString d p = .ok
      (bigNumberToString (roundUp d p / DIGITS) ++ if p = 0 then [] else
        '.' :: (paddedMantissa bigNumberToString (roundUp d p)).take p) := by
    rw [toStringWithPrecision, Outcome.require, if_pos hprecision]
    dsimp only [Int.toNat_natCast]
    rw [if_pos hp]
    split_ifs with hzero
    · rw [List.append_nil]
      rfl
    · rfl
  rcases Nat.eq_zero_or_pos p with rfl | hpos
  · refine ⟨.plain _ none hwhole allDigits_none,
      ⟨rfl, iff_of_true rfl rfl, rfl, hto.ne_nil, hto.leading⟩, ?_, hvalue⟩
    rw [Numeral.plain_text, fractionText, hprinted, if_pos rfl]
  · refine ⟨.plain _ (some ((paddedMantissa bigNumberToString (roundUp d p)).take p)) hwhole htaken,
      ⟨rfl, iff_of_false (Option.some_ne_none _) hpos.ne', hplaces, hto.ne_nil, hto.leading⟩, ?_,
      hvalue⟩
    rw [Numeral.plain_text, fractionText, hprinted, if_neg hpos.ne']

/-- A finite decimal is printed so that it is read as itself; with a precision below 18 what is
printed is the decimal with exactly that many digits after the point that the value rounds to,
half up. -/
theorem decimal_printed (hfrom : ReadsDigits bigNumberFrom) (hto : WritesDigits bigNumberToString)
    (d : Decimal) (hfinite : d ≠ INFINITY) :
    (∃ text, Decimal.toString bigNumberToString d none = .ok text ∧
      fromString bigNumberFrom text = .ok d) ∧
    ∀ p < PRECISION, ∃ r : Numeral, r.FixedPoint p ∧
      Decimal.toString bigNumberToString d (some p) = .ok r.text ∧
      r.exactValue = roundedHalfUp p ((d : ℚ) / 10 ^ PRECISION) := by
  constructor
  · refine ⟨_, ?_, fromString_automatic hfrom hto d⟩
    rw [Decimal.toString, if_neg hfinite]
    rfl
  · intro p hp
    rw [Decimal.toString, if_neg hfinite]
    exact exists_printed hto d hp

/-- A carry through all nines. -/
theorem decimal_printed_carry :
    (∃ text, Decimal.toString (Nat.toDigits 10) 9999999999999999999 none = .ok text ∧
      fromString bigNumberOfDigits text = .ok 9999999999999999999) ∧
    ∃ r : Numeral, r.FixedPoint 2 ∧
      Decimal.toString (Nat.toDigits 10) 9999999999999999999 (some 2) = .ok r.text ∧
      r.exactValue = roundedHalfUp 2 ((9999999999999999999 : ℕ) / 10 ^ PRECISION) := by
  have hto : WritesDigits (Nat.toDigits 10) := ⟨fun _ => rfl⟩
  obtain ⟨hread, hprinted⟩ :=
    decimal_printed bigNumberOfDigits_reads hto 9999999999999999999 (by decide)
  exact ⟨hread, hprinted 2 (by decide)⟩

example : Decimal.toString (Nat.toDigits 10) 9999999999999999999 (some 2) =
    .ok "10.00".toList := by
  decide

end MoneyProtocol.Sdk
