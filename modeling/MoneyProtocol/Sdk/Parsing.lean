import MoneyProtocol.Library.Digits
import MoneyProtocol.Sdk.Decimal

/-!
# Parsing decimals

`Decimal.from` of a string. The digits after the point are cut to 18 places before an exponent
shifts them: a negative exponent makes no difference to that, a positive one loses the digits
that it would have brought in. Strings are lists of characters.
-/

namespace MoneyProtocol.Sdk

open Outcome Digits

namespace Decimal

def PRECISION : ℕ := 18

/-- After `[0-9]*`. -/
def afterDigits (cs : List Char) : List Char := cs.dropWhile Char.isDigit

/-- After `(\.[0-9]*)?`. -/
def afterFraction : List Char → List Char
  | '.' :: cs => afterDigits cs
  | cs => cs

/-- After `[-+]?`. -/
def afterSign : List Char → List Char
  | '-' :: cs => cs
  | '+' :: cs => cs
  | cs => cs

/-- `(e[-+]?[0-9]+)?$`. -/
def endsInExponent : List Char → Bool
  | [] => true
  | 'e' :: cs => !(afterSign cs).isEmpty && (afterSign cs).all Char.isDigit
  | _ => false

/-- The regular expression `^[0-9]*(\.[0-9]*)?(e[-+]?[0-9]+)?$`. -/
def stringRepresentationFormat (representation : List Char) : Bool :=
  endsInExponent (afterFraction (afterDigits representation))

def badFormat (representation : List Char) : Failure :=
  .revert ("bad decimal format: \"" ++ String.ofList representation ++ "\"")

/-- The mantissa, filled up with zeros or cut to 18 places. -/
def fitMantissa (mantissa : List Char) : List Char :=
  if mantissa.length < PRECISION then
    mantissa ++ List.replicate (PRECISION - mantissa.length) '0'
  else mantissa.take PRECISION

/-- `_fromString`, in at most `fuel` calls; `bigNumberFrom` reads a big number from a string. -/
def fromStringWithin (bigNumberFrom : List Char → Outcome ℕ) : ℕ → List Char → Outcome Decimal
  | 0, _ => .error .outOfGas
  | fuel + 1, representation =>
    if representation = [] ∨ stringRepresentationFormat representation = false then
      .error (badFormat representation)
    else if 'e' ∈ representation then
      match representation.splitOn 'e' with
      | coefficient :: exponent :: _ =>
        if exponent.head? = some '-' then do
          let value ← fromStringWithin bigNumberFrom fuel coefficient
          let power ← bigNumberFrom exponent.tail
          return value / 10 ^ power
        else do
          let exponent := if exponent.head? = some '+' then exponent.tail else exponent
          let value ← fromStringWithin bigNumberFrom fuel coefficient
          let power ← bigNumberFrom exponent
          return value * 10 ^ power
      | _ => .error .invalid
    else if '.' ∉ representation then do
      let value ← bigNumberFrom representation
      return value * DIGITS
    else
      match representation.splitOn '.' with
      | characteristic :: mantissa :: _ => do
        let whole ← (if characteristic = [] then return 0 else bigNumberFrom characteristic)
        let fraction ← bigNumberFrom (fitMantissa mantissa)
        return whole * DIGITS + fraction
      | _ => .error .invalid

/-- The coefficient of a string in the format has no exponent, so two calls are enough. -/
def fromString (bigNumberFrom : List Char → Outcome ℕ) (representation : List Char) :
    Outcome Decimal :=
  fromStringWithin bigNumberFrom 2 representation

end Decimal

/-- A number stands for the string that it is printed as. -/
inductive Decimalish where
  | decimal (value : Decimal)
  | string (representation : List Char)

/-- `Decimal.from`. -/
def Decimalish.toDecimal (bigNumberFrom : List Char → Outcome ℕ) : Decimalish → Outcome Decimal
  | .decimal value => return value
  | .string representation => Decimal.fromString bigNumberFrom representation

inductive Sign where
  | unsigned
  | plus
  | minus
  deriving DecidableEq

def Sign.text : Sign → List Char
  | .unsigned => []
  | .plus => ['+']
  | .minus => ['-']

def fractionText : Option (List Char) → List Char
  | none => []
  | some ds => '.' :: ds

def exponentText : Option (Sign × List Char) → List Char
  | none => []
  | some (sign, ds) => 'e' :: (sign.text ++ ds)

/-- A number as the format describes it. -/
structure Numeral where
  integer : List Char
  fraction : Option (List Char)
  exponent : Option (Sign × List Char)
  integer_digits : AllDigits integer
  fraction_digits : AllDigits (fraction.getD [])
  exponent_digits : ∀ e ∈ exponent, e.2 ≠ [] ∧ AllDigits e.2

namespace Numeral

/-- Up to the exponent. -/
def coefficient (r : Numeral) : List Char := r.integer ++ fractionText r.fraction

def text (r : Numeral) : List Char := r.coefficient ++ exponentText r.exponent

def fractionDigits (r : Numeral) : List Char := r.fraction.getD []

/-- The exact value. -/
def exactValue (r : Numeral) : ℚ :=
  match r.exponent with
  | none => value r.integer r.fractionDigits
  | some (.minus, ds) => value r.integer r.fractionDigits / 10 ^ number ds
  | some (_, ds) => value r.integer r.fractionDigits * 10 ^ number ds

/-- No digit but zeros is brought in by the exponent from beyond the 18th place. -/
def LosesNothing (r : Numeral) : Prop :=
  match r.exponent with
  | none => True
  | some (.minus, _) => True
  | some (_, ds) => ∀ c ∈ (r.fractionDigits.drop 18).take (number ds), c = '0'

end Numeral

/-- The strings that pass the check of the format. -/
def Described (representation : List Char) : Prop :=
  representation ≠ [] ∧ Decimal.stringRepresentationFormat representation = true

/-- The strings that are refused, with the message: those that fail the check, and those that have
an exponent only, whose coefficient fails it. -/
def BadlyFormatted (representation : List Char) (e : Failure) : Prop :=
  (¬Described representation ∧ e = Decimal.badFormat representation) ∨
    (Described representation ∧ representation.head? = some 'e' ∧ e = Decimal.badFormat [])

open Decimal

variable {representation cs ds : List Char}

theorem afterDigits_append (hds : AllDigits ds) : afterDigits (ds ++ cs) = afterDigits cs :=
  List.dropWhile_append_of_pos hds

theorem afterSign_text (sign : Sign) (hne : ds ≠ []) (hds : AllDigits ds) :
    afterSign (sign.text ++ ds) = ds := by
  cases sign with
  | plus => rfl
  | minus => rfl
  | unsigned =>
    show afterSign ds = ds
    obtain ⟨c, cs, rfl⟩ := List.exists_cons_of_ne_nil hne
    have hc := hds c List.mem_cons_self
    unfold afterSign
    split
    · rename_i hminus
      rw [(List.cons.inj hminus).1] at hc
      contradiction
    · rename_i hplus
      rw [(List.cons.inj hplus).1] at hc
      contradiction
    · rfl

theorem afterDigits_exponentText (e : Option (Sign × List Char)) :
    afterDigits (exponentText e) = exponentText e := by
  rcases e with _ | ⟨sign, ds⟩
  · rfl
  · rfl

theorem afterFraction_exponentText (e : Option (Sign × List Char)) :
    afterFraction (exponentText e) = exponentText e := by
  rcases e with _ | ⟨sign, ds⟩
  · rfl
  · rfl

/-- The texts of numerals are in the format. -/
theorem Numeral.text_format (r : Numeral) : stringRepresentationFormat r.text = true := by
  have hfraction :
      afterFraction (afterDigits (fractionText r.fraction ++ exponentText r.exponent)) =
        exponentText r.exponent := by
    have hdigits := r.fraction_digits
    cases hf : r.fraction with
    | none =>
      show afterFraction (afterDigits (exponentText r.exponent)) = _
      rw [afterDigits_exponentText, afterFraction_exponentText]
    | some ds =>
      rw [hf, Option.getD_some] at hdigits
      show afterDigits (ds ++ exponentText r.exponent) = _
      rw [afterDigits_append hdigits, afterDigits_exponentText]
  unfold stringRepresentationFormat text coefficient
  rw [List.append_assoc, afterDigits_append r.integer_digits, hfraction]
  cases he : r.exponent with
  | none => rfl
  | some e =>
    obtain ⟨hne, hds⟩ := r.exponent_digits e he
    have hsign := afterSign_text e.1 hne hds
    show (!(afterSign (e.1.text ++ e.2)).isEmpty && (afterSign (e.1.text ++ e.2)).all Char.isDigit)
      = true
    rw [hsign, Bool.and_eq_true, List.all_eq_true]
    exact ⟨by simpa using hne, hds⟩

theorem noExponent_digits :
    ∀ e ∈ (none : Option (Sign × List Char)), e.2 ≠ [] ∧ AllDigits e.2 :=
  fun e he => absurd he (Option.not_mem_none e)

/-- The numeral up to its exponent. -/
def Numeral.withoutExponent (r : Numeral) : Numeral :=
  { r with exponent := none, exponent_digits := noExponent_digits }

theorem Numeral.withoutExponent_text (r : Numeral) : r.withoutExponent.text = r.coefficient :=
  List.append_nil _

theorem takeWhile_digits (cs : List Char) : AllDigits (cs.takeWhile Char.isDigit) :=
  List.all_eq_true.mp List.all_takeWhile

/-- The rest of a string in the format is the text of an exponent. -/
theorem exists_exponent (h : endsInExponent cs = true) :
    ∃ e, exponentText e = cs ∧ ∀ x ∈ e, x.2 ≠ [] ∧ AllDigits x.2 := by
  unfold endsInExponent at h
  split at h
  · exact ⟨none, rfl, fun x hx => absurd hx (Option.not_mem_none x)⟩
  · rename_i cs
    rw [Bool.and_eq_true, List.all_eq_true] at h
    obtain ⟨hne, hdigits⟩ := h
    have hsign : ∃ sign, Sign.text sign ++ afterSign cs = cs := by
      unfold afterSign
      split
      · exact ⟨.minus, rfl⟩
      · exact ⟨.plus, rfl⟩
      · exact ⟨.unsigned, rfl⟩
    obtain ⟨sign, hsign⟩ := hsign
    refine ⟨some (sign, afterSign cs), congrArg (List.cons 'e') hsign, fun x hx => ?_⟩
    rw [← Option.mem_some.mp hx]
    exact ⟨by simpa using hne, hdigits⟩
  · contradiction

/-- Every string in the format is the text of a numeral. -/
theorem exists_numeral (h : stringRepresentationFormat representation = true) :
    ∃ r : Numeral, r.text = representation := by
  have hsplit : representation.takeWhile Char.isDigit ++ afterDigits representation =
      representation := List.takeWhile_append_dropWhile
  have hfraction : ∃ fraction, fractionText fraction ++ afterFraction (afterDigits representation) =
      afterDigits representation ∧ AllDigits (fraction.getD []) := by
    unfold afterFraction
    split
    · rename_i cs hcs
      rw [hcs]
      refine ⟨some (cs.takeWhile Char.isDigit), ?_, takeWhile_digits cs⟩
      exact congrArg (List.cons '.') List.takeWhile_append_dropWhile
    · exact ⟨none, rfl, fun c hc => absurd hc List.not_mem_nil⟩
  obtain ⟨fraction, hfraction, hdigits⟩ := hfraction
  obtain ⟨e, he, hexponent⟩ := exists_exponent h
  refine ⟨⟨_, fraction, e, takeWhile_digits representation, hdigits, hexponent⟩, ?_⟩
  unfold Numeral.text Numeral.coefficient
  dsimp only
  rw [he, List.append_assoc, hfraction, hsplit]

/-- Big numbers are read from strings of digits. -/
structure ReadsDigits (bigNumberFrom : List Char → Outcome ℕ) : Prop where
  digits : ∀ ds, ds ≠ [] → AllDigits ds → bigNumberFrom ds = .ok (number ds)

theorem splitOn_at {sep : Char} (hcs : sep ∉ cs) (hds : sep ∉ ds) :
    (cs ++ sep :: ds).splitOn sep = [cs, ds] := by
  have hnot {xs : List Char} (hxs : sep ∉ xs) : ∀ c ∈ xs, (c == sep) = false := by
    intro c hc
    rw [beq_eq_false_iff_ne]
    intro heq
    exact hxs (heq ▸ hc)
  unfold List.splitOn
  rw [List.splitOnP_append_cons_of_forall_mem (hnot hcs) sep (beq_self_eq_true sep),
    List.splitOnP_eq_singleton (hnot hds)]

theorem notMem_of_digits {sep : Char} (hsep : sep.isDigit = false) (hds : AllDigits ds) :
    sep ∉ ds := by
  intro hmem
  rw [hds sep hmem] at hsep
  contradiction

theorem PRECISION_pos : 0 < PRECISION := by
  decide

theorem fitMantissa_digits (hds : AllDigits ds) :
    fitMantissa ds ≠ [] ∧ AllDigits (fitMantissa ds) ∧
      number (fitMantissa ds) = number (ds.take PRECISION) * 10 ^ (PRECISION - ds.length) := by
  have hne {xs : List Char} (hlength : xs.length = PRECISION) : xs ≠ [] := by
    intro hnil
    rw [hnil] at hlength
    exact absurd hlength.symm PRECISION_pos.ne'
  unfold fitMantissa
  split_ifs with hshort
  · refine ⟨hne ?_, hds.append (.zeros _), ?_⟩
    · rw [List.length_append, List.length_replicate, Nat.add_sub_cancel' hshort.le]
    · rw [number_append_zeros, List.take_of_length_le hshort.le]
  · have hlong : PRECISION ≤ ds.length := Nat.not_lt.mp hshort
    refine ⟨hne (List.length_take_of_le hlong), hds.of_subset (List.take_subset _ _), ?_⟩
    rw [Nat.sub_eq_zero_of_le hlong, pow_zero, Nat.mul_one]

section

variable {bigNumberFrom : List Char → Outcome ℕ} {fuel : ℕ}

/-- A string without a point. -/
theorem fromStringWithin_whole (hbig : ReadsDigits bigNumberFrom) (hne : ds ≠ [])
    (hds : AllDigits ds) (hformat : stringRepresentationFormat ds = true) :
    fromStringWithin bigNumberFrom (fuel + 1) ds = .ok (scaled PRECISION ds []) := by
  have he : 'e' ∉ ds := notMem_of_digits (by decide) hds
  have hpoint : '.' ∉ ds := notMem_of_digits (by decide) hds
  have hvalue : scaled PRECISION ds [] = number ds * DIGITS := by
    rw [scaled, List.append_nil, List.length_nil, pow_zero, Nat.div_one]
    rfl
  rw [fromStringWithin, if_neg (by simp [hne, hformat]), if_neg he, if_pos hpoint,
    hbig.digits ds hne hds, hvalue]
  rfl

/-- A string with a point. -/
theorem fromStringWithin_point (hbig : ReadsDigits bigNumberFrom) (hcs : AllDigits cs)
    (hds : AllDigits ds) (hformat : stringRepresentationFormat (cs ++ '.' :: ds) = true) :
    fromStringWithin bigNumberFrom (fuel + 1) (cs ++ '.' :: ds) =
      .ok (scaled PRECISION cs ds) := by
  have he : 'e' ∉ cs ++ '.' :: ds := by
    rw [List.mem_append, List.mem_cons, not_or, not_or]
    exact ⟨notMem_of_digits (by decide) hcs, by decide, notMem_of_digits (by decide) hds⟩
  have hpoint : '.' ∈ cs ++ '.' :: ds := List.mem_append_right _ List.mem_cons_self
  have hne : cs ++ '.' :: ds ≠ [] := List.append_ne_nil_of_right_ne_nil _ (List.cons_ne_nil _ _)
  have hsplit : (cs ++ '.' :: ds).splitOn '.' = [cs, ds] :=
    splitOn_at (notMem_of_digits (by decide) hcs) (notMem_of_digits (by decide) hds)
  have hwhole : (if cs = [] then return 0 else bigNumberFrom cs) = .ok (number cs) := by
    split_ifs with hempty
    · rw [hempty]
      rfl
    · exact hbig.digits cs hempty hcs
  obtain ⟨hfit, hfitted, hnumber⟩ := fitMantissa_digits hds
  have hlength : (ds.take PRECISION).length + (PRECISION - ds.length) = PRECISION := by
    rw [List.length_take]
    omega
  have hvalue : scaled PRECISION cs ds = number cs * DIGITS + number (fitMantissa ds) := by
    rw [scaled_eq hds, number_append, hnumber, Nat.add_mul, Nat.mul_assoc, ← pow_add, hlength]
    rfl
  rw [fromStringWithin, if_neg (by simp [hne, hformat]), if_neg he, if_neg (not_not.mpr hpoint),
    hsplit, hvalue]
  dsimp only
  rw [hwhole, hbig.digits _ hfit hfitted]
  rfl

/-- Without an exponent. -/
theorem fromStringWithin_coefficient (hbig : ReadsDigits bigNumberFrom) (r : Numeral)
    (hne : r.coefficient ≠ []) : fromStringWithin bigNumberFrom (fuel + 1) r.coefficient =
      .ok (scaled PRECISION r.integer r.fractionDigits) := by
  have hformat : stringRepresentationFormat r.coefficient = true := by
    rw [← Numeral.withoutExponent_text]
    exact r.withoutExponent.text_format
  have hdigits := r.fraction_digits
  unfold Numeral.coefficient Numeral.fractionDigits at *
  cases hf : r.fraction with
  | none =>
    rw [hf, fractionText, List.append_nil] at hne hformat
    rw [fractionText, List.append_nil]
    exact fromStringWithin_whole hbig hne r.integer_digits hformat
  | some ds =>
    rw [hf] at hformat hdigits
    exact fromStringWithin_point hbig r.integer_digits hdigits hformat

/-- The sign of an exponent is told from its digits. -/
theorem head_of_sign (sign : Sign) (hds : AllDigits ds) :
    ((sign.text ++ ds).head? = some '-' ↔ sign = .minus) ∧
      ((sign.text ++ ds).head? = some '+' ↔ sign = .plus) := by
  have hunsigned {c : Char} (hc : c.isDigit = false) : ds.head? ≠ some c := by
    intro hhead
    exact notMem_of_digits hc hds (List.mem_of_mem_head? hhead)
  cases sign with
  | unsigned => exact ⟨iff_of_false (hunsigned (by decide)) Sign.noConfusion,
      iff_of_false (hunsigned (by decide)) Sign.noConfusion⟩
  | plus => simp [Sign.text]
  | minus => simp [Sign.text]

/-- The exponent shifts what is parsed of the coefficient. -/
theorem fromStringWithin_exponent (hbig : ReadsDigits bigNumberFrom) (sign : Sign)
    (hcs : 'e' ∉ cs) (hne : ds ≠ []) (hds : AllDigits ds)
    (hformat : stringRepresentationFormat (cs ++ 'e' :: (sign.text ++ ds)) = true) :
    fromStringWithin bigNumberFrom (fuel + 1) (cs ++ 'e' :: (sign.text ++ ds)) = (do
      let value ← fromStringWithin bigNumberFrom fuel cs
      return if sign = .minus then value / 10 ^ number ds else value * 10 ^ number ds) := by
  have he : 'e' ∈ cs ++ 'e' :: (sign.text ++ ds) := List.mem_append_right _ List.mem_cons_self
  have hnonempty : cs ++ 'e' :: (sign.text ++ ds) ≠ [] :=
    List.append_ne_nil_of_right_ne_nil _ (List.cons_ne_nil _ _)
  have hsplit : (cs ++ 'e' :: (sign.text ++ ds)).splitOn 'e' = [cs, sign.text ++ ds] := by
    apply splitOn_at hcs
    rw [List.mem_append, not_or]
    refine ⟨?_, notMem_of_digits (by decide) hds⟩
    cases sign <;> decide
  obtain ⟨hminus, hplus⟩ := head_of_sign sign hds
  rw [fromStringWithin, if_neg (by simp [hnonempty, hformat]), if_pos he, hsplit]
  simp only [hminus, hplus]
  cases sign with
  | minus =>
    have htail : (Sign.minus.text ++ ds).tail = ds := rfl
    rw [if_pos rfl, htail, hbig.digits ds hne hds]
    rfl
  | plus =>
    have htail : (Sign.plus.text ++ ds).tail = ds := rfl
    rw [if_neg Sign.noConfusion, if_pos rfl, htail, hbig.digits ds hne hds]
    rfl
  | unsigned =>
    have htext : Sign.unsigned.text ++ ds = ds := rfl
    rw [if_neg Sign.noConfusion, if_neg Sign.noConfusion, htext, hbig.digits ds hne hds]
    rfl

theorem Numeral.coefficient_notMem (r : Numeral) : 'e' ∉ r.coefficient := by
  have hfraction : 'e' ∉ fractionText r.fraction := by
    have hdigits := r.fraction_digits
    cases hf : r.fraction with
    | none => exact List.not_mem_nil
    | some ds =>
      rw [hf] at hdigits
      rw [fractionText, List.mem_cons, not_or]
      exact ⟨by decide, notMem_of_digits (by decide) hdigits⟩
  rw [coefficient, List.mem_append, not_or]
  exact ⟨notMem_of_digits (by decide) r.integer_digits, hfraction⟩

/-- What is parsed of a numeral with a coefficient: the digits after the point are cut first. -/
def Numeral.parsed (r : Numeral) : ℕ :=
  match r.exponent with
  | none => scaled PRECISION r.integer r.fractionDigits
  | some (.minus, ds) => scaled PRECISION r.integer r.fractionDigits / 10 ^ number ds
  | some (_, ds) => scaled PRECISION r.integer r.fractionDigits * 10 ^ number ds

theorem fromString_text (hbig : ReadsDigits bigNumberFrom) (r : Numeral)
    (hne : r.coefficient ≠ []) : fromString bigNumberFrom r.text = .ok r.parsed := by
  have hformat := r.text_format
  have hdigits := r.exponent_digits
  unfold fromString Numeral.text Numeral.parsed at *
  cases he : r.exponent with
  | none =>
    rw [exponentText, List.append_nil]
    exact fromStringWithin_coefficient hbig r hne
  | some e =>
    obtain ⟨sign, ds⟩ := e
    rw [he] at hformat
    obtain ⟨hds, hdigits⟩ := hdigits _ he
    rw [exponentText, fromStringWithin_exponent hbig sign r.coefficient_notMem hds hdigits hformat,
      fromStringWithin_coefficient hbig r hne]
    cases sign <;> rfl

/-- A string that has an exponent only is not parsed. -/
theorem fromString_of_nil (hbig : ReadsDigits bigNumberFrom) (r : Numeral)
    (hnil : r.coefficient = []) : fromString bigNumberFrom r.text = .error (badFormat []) := by
  have hformat := r.text_format
  have hdigits := r.exponent_digits
  unfold fromString Numeral.text at *
  cases he : r.exponent with
  | none =>
    rw [hnil]
    rfl
  | some e =>
    obtain ⟨sign, ds⟩ := e
    rw [he] at hformat
    obtain ⟨hds, hdigits⟩ := hdigits _ he
    rw [exponentText, fromStringWithin_exponent hbig sign r.coefficient_notMem hds hdigits hformat,
      hnil]
    rfl

/-- A string with a coefficient does not begin with the exponent. -/
theorem Numeral.text_head (r : Numeral) (hne : r.text ≠ []) :
    r.text.head? = some 'e' ↔ r.coefficient = [] := by
  have hnot := r.coefficient_notMem
  unfold text at *
  cases hcs : r.coefficient with
  | nil =>
    rw [hcs] at hne
    cases he : r.exponent with
    | none =>
      rw [he] at hne
      exact absurd rfl hne
    | some e => exact iff_of_true rfl rfl
  | cons c cs =>
    rw [hcs, List.mem_cons, not_or] at hnot
    refine iff_of_false (fun hhead => hnot.1 ?_) (List.cons_ne_nil c cs)
    exact (Option.some.inj hhead).symm

/-- The parser throws at the badly formatted strings. -/
theorem fromString_error_iff (hbig : ReadsDigits bigNumberFrom) {e : Failure} :
    fromString bigNumberFrom representation = .error e ↔ BadlyFormatted representation e := by
  by_cases hdescribed : Described representation
  · obtain ⟨r, rfl⟩ := exists_numeral hdescribed.2
    have hhead := r.text_head hdescribed.1
    by_cases hnil : r.coefficient = []
    · rw [fromString_of_nil hbig r hnil, Except.error.injEq]
      constructor
      · exact fun h => .inr ⟨hdescribed, hhead.mpr hnil, h.symm⟩
      · rintro (⟨hnot, -⟩ | ⟨-, -, h⟩)
        · exact absurd hdescribed hnot
        · exact h.symm
    · rw [fromString_text hbig r hnil]
      constructor
      · intro h
        cases h
      · rintro (⟨hnot, -⟩ | ⟨-, hexponent, -⟩)
        · exact absurd hdescribed hnot
        · exact absurd (hhead.mp hexponent) hnil
  · have hrefused :
        representation = [] ∨ stringRepresentationFormat representation = false := by
      by_contra hnot
      rw [not_or, Bool.not_eq_false] at hnot
      exact hdescribed hnot
    rw [fromString, fromStringWithin, if_pos hrefused, Except.error.injEq]
    constructor
    · exact fun h => .inl ⟨hdescribed, h.symm⟩
    · rintro (⟨-, h⟩ | ⟨hd, -⟩)
      · exact h.symm
      · exact absurd hd hdescribed

/-- Cutting the digits first is harmless where the exponent brings in nothing but zeros. -/
theorem Numeral.parsed_eq_iff (r : Numeral) :
    r.parsed = ⌊r.exactValue * 10 ^ 18⌋₊ ↔ r.LosesNothing := by
  have hfraction : AllDigits r.fractionDigits := r.fraction_digits
  have hunit : PRECISION = 18 := rfl
  unfold parsed exactValue LosesNothing
  rw [hunit]
  split
  · rw [floor_value_shifted]
    simp
  · rw [floor_value_divided]
    simp
  · rw [mul_assoc, ← pow_add, Nat.add_comm (number _), floor_value_shifted]
    exact scaled_add_eq_iff hfraction

end

/-- A string that passes the check of the format is parsed, and to the floor of its exact value
in units of `1e-18`, if and only if it has more than an exponent, and the exponent brings in no
digit but zeros from beyond the 18th place. -/
theorem decimal_parsed_iff {bigNumberFrom : List Char → Outcome ℕ} (representation : List Char)
    (hbig : ReadsDigits bigNumberFrom) (hdescribed : Described representation) :
    (∃ r : Numeral, r.text = representation) ∧ ∀ r : Numeral, r.text = representation →
      (fromString bigNumberFrom representation = .ok ⌊r.exactValue * 10 ^ 18⌋₊ ↔
        r.coefficient ≠ [] ∧ r.LosesNothing) := by
  refine ⟨exists_numeral hdescribed.2, ?_⟩
  rintro r rfl
  by_cases hnil : r.coefficient = []
  · rw [fromString_of_nil hbig r hnil]
    exact iff_of_false (fun h => Except.noConfusion rfl rfl (heq_of_eq h)) fun h => h.1 hnil
  · rw [fromString_text hbig r hnil, Except.ok.injEq, r.parsed_eq_iff]
    exact (and_iff_right hnil).symm

/-- Big numbers as they are read from strings of digits, and from nothing else. -/
def bigNumberOfDigits (ds : List Char) : Outcome ℕ :=
  if ds ≠ [] ∧ ds.all Char.isDigit = true then return number ds
  else .error (.revert "invalid BigNumber string")

theorem bigNumberOfDigits_reads : ReadsDigits bigNumberOfDigits :=
  ⟨fun _ hne hds => if_pos ⟨hne, List.all_eq_true.mpr hds⟩⟩

/-- A fraction that is shorter than the exponent. -/
def shortFraction : Numeral where
  integer := "1".toList
  fraction := some "23456789".toList
  exponent := some (.unsigned, "9".toList)
  integer_digits := List.all_eq_true.mp (by decide)
  fraction_digits := List.all_eq_true.mp (by decide)
  exponent_digits := by
    intro e he
    rw [← Option.mem_some.mp he]
    exact ⟨by decide, List.all_eq_true.mp (by decide)⟩

/-- It is shifted without a loss. -/
theorem decimal_parsed_iff_short :
    fromString bigNumberOfDigits "1.23456789e9".toList =
      .ok ⌊shortFraction.exactValue * 10 ^ 18⌋₊ ∧
    fromString bigNumberOfDigits "1.23456789e9".toList = .ok (1234567890 * 10 ^ 18) := by
  obtain ⟨-, h⟩ := decimal_parsed_iff "1.23456789e9".toList bigNumberOfDigits_reads
    ⟨by decide, by decide⟩
  refine ⟨(h shortFraction rfl).mpr ⟨by decide, ?_⟩, rfl⟩
  exact fun c hc => absurd hc List.not_mem_nil

/-- The 19th digit after the point is lost although the exponent brings it in; and a string that
has an exponent only passes the check and is then refused. -/
theorem decimal_digit_lost : (∃ r : Numeral, r.text = "0.1234567890123456789e1".toList ∧
      ⌊r.exactValue * 10 ^ 18⌋₊ = 1234567890123456789 ∧
      fromString bigNumberOfDigits r.text = .ok 1234567890123456780) ∧
    Described "e5".toList ∧
      fromString bigNumberOfDigits "e5".toList = .error (badFormat []) := by
  refine ⟨⟨⟨"0".toList, some "1234567890123456789".toList, some (.unsigned, "1".toList), ?_, ?_,
    ?_⟩, rfl, ?_, rfl⟩, ⟨by decide, by decide⟩, rfl⟩
  · exact List.all_eq_true.mp (by decide)
  · exact List.all_eq_true.mp (by decide)
  · intro e he
    rw [← Option.mem_some.mp he]
    exact ⟨by decide, List.all_eq_true.mp (by decide)⟩
  · unfold Numeral.exactValue
    dsimp only
    rw [mul_assoc, ← pow_add, floor_value_shifted]
    rfl

end MoneyProtocol.Sdk
