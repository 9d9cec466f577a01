import Mathlib.Algebra.Order.Floor.Semifield
import Mathlib.Data.List.DropRight
import Mathlib.Data.Nat.Digits.Lemmas
import Mathlib.Data.Rat.Floor
import Mathlib.Tactic.FieldSimp
import Mathlib.Tactic.IntervalCases
import Mathlib.Tactic.Ring

/-!
# Strings of digits

The number that a string of decimal digits stands for, and a number with a fraction in units of a
power of ten. Only the digits within the unit count; a shift to the left that comes after the
rounding loses the digits that it would have brought in.
-/

namespace Digits

/-- The digit of a character. -/
def digit (c : Char) : ℕ := c.toNat - '0'.toNat

/-- The number of a string of digits. -/
def number (ds : List Char) : ℕ := Nat.ofDigits 10 (ds.reverse.map digit)

def AllDigits (ds : List Char) : Prop := ∀ c ∈ ds, c.isDigit = true

variable {xs ys integer fraction : List Char} {n p k : ℕ} {c : Char}

theorem digit_lt (h : c.isDigit = true) : digit c < 10 := by
  obtain ⟨-, hle⟩ := Char.isDigit_iff_toNat.mp h
  have hnine : '9'.toNat < '0'.toNat + 10 := by
    decide
  unfold digit
  omega

theorem digit_eq_zero (h : c.isDigit = true) : digit c = 0 ↔ c = '0' := by
  obtain ⟨hle, -⟩ := Char.isDigit_iff_toNat.mp h
  rw [← Char.toNat_inj, digit]
  omega

namespace AllDigits

theorem nil : AllDigits [] := fun _ hc => absurd hc List.not_mem_nil

theorem append (hx : AllDigits xs) (hy : AllDigits ys) : AllDigits (xs ++ ys) := by
  intro c hc
  rcases List.mem_append.mp hc with hc | hc
  · exact hx c hc
  · exact hy c hc

theorem of_subset (h : AllDigits ys) (hsub : xs ⊆ ys) : AllDigits xs := fun c hc => h c (hsub hc)

theorem zeros (n : ℕ) : AllDigits (List.replicate n '0') := by
  intro c hc
  rw [List.eq_of_mem_replicate hc]
  rfl

end AllDigits

theorem number_append : number (xs ++ ys) = number xs * 10 ^ ys.length + number ys := by
  rw [number, List.reverse_append, List.map_append, Nat.ofDigits_append, List.length_map,
    List.length_reverse, Nat.mul_comm, Nat.add_comm]
  rfl

theorem number_singleton (c : Char) : number [c] = digit c := by
  rw [number, List.reverse_singleton, List.map_singleton, Nat.ofDigits_singleton]

theorem number_zeros (n : ℕ) : number (List.replicate n '0') = 0 := by
  have hdigit : digit '0' = 0 := rfl
  rw [number, List.reverse_replicate, List.map_replicate, hdigit, Nat.ofDigits_replicate_zero]

theorem number_append_zeros (n : ℕ) :
    number (xs ++ List.replicate n '0') = number xs * 10 ^ n := by
  rw [number_append, number_zeros, List.length_replicate, Nat.add_zero]

theorem number_lt (h : AllDigits xs) : number xs < 10 ^ xs.length := by
  have hlt := Nat.ofDigits_lt_base_pow_length (b := 10) (l := xs.reverse.map digit) (by decide) ?_
  · rw [List.length_map, List.length_reverse] at hlt
    exact hlt
  · intro v hv
    obtain ⟨c, hc, rfl⟩ := List.mem_map.mp hv
    exact digit_lt (h c (List.mem_reverse.mp hc))

/-- Only zeros stand for zero. -/
theorem number_eq_zero (h : AllDigits xs) : number xs = 0 ↔ ∀ c ∈ xs, c = '0' := by
  induction xs with
  | nil => exact ⟨fun _ _ hc => absurd hc List.not_mem_nil, fun _ => rfl⟩
  | cons c xs ih =>
    have hpow : 10 ^ xs.length ≠ 0 := (Nat.pow_pos (by decide)).ne'
    rw [← List.singleton_append, number_append, number_singleton, Nat.add_eq_zero_iff,
      Nat.mul_eq_zero, or_iff_left hpow, digit_eq_zero (h c List.mem_cons_self),
      ih (h.of_subset (List.subset_cons_self c xs)), List.singleton_append, List.forall_mem_cons]

/-- The leading digits of a number. -/
theorem number_take (h : AllDigits xs) : number (xs.take p) = number xs / 10 ^ (xs.length - p) := by
  have hlength : (xs.drop p).length = xs.length - p := List.length_drop
  have hrest := number_lt (h.of_subset (List.drop_subset p xs))
  have hsplit : number xs = number (xs.take p) * 10 ^ (xs.length - p) + number (xs.drop p) := by
    rw [← hlength, ← number_append, List.take_append_drop]
  rw [hlength] at hrest
  rw [hsplit, Nat.mul_comm, Nat.mul_add_div (Nat.pow_pos (by decide)), Nat.div_eq_of_lt hrest,
    Nat.add_zero]

theorem digit_digitChar (h : n < 10) : digit n.digitChar = n := by
  interval_cases n <;> rfl

theorem toDigits_digits (n : ℕ) : AllDigits (Nat.toDigits 10 n) :=
  fun _ hc => Nat.isDigit_of_mem_toDigits (by decide) (by decide) hc

/-- Every number is written in digits that stand for it. -/
theorem number_toDigits (n : ℕ) : number (Nat.toDigits 10 n) = n := by
  induction n using Nat.strong_induction_on with
  | _ n ih =>
    rw [Nat.toDigits_eq_if (by decide)]
    split_ifs with hsmall
    · rw [number_singleton, digit_digitChar hsmall]
    · have hlast : n % 10 < 10 := Nat.mod_lt n (by decide)
      rw [number_append, ih (n / 10) (by omega), number_singleton, digit_digitChar hlast,
        List.length_singleton]
      omega

/-- Only zero is written with a zero in front. -/
theorem head_toDigits (h : (Nat.toDigits 10 n).head? = some '0') : n = 0 := by
  induction n using Nat.strong_induction_on with
  | _ n ih =>
    rw [Nat.toDigits_eq_if (by decide)] at h
    split_ifs at h with hsmall
    · have hdigit := congrArg digit (Option.some.inj h)
      rw [digit_digitChar hsmall] at hdigit
      exact hdigit
    · rw [List.head?_append_of_ne_nil _ Nat.toDigits_ne_nil] at h
      have hzero := ih (n / 10) (by omega) h
      omega

theorem number_leftpad : number (List.leftpad n '0' xs) = number xs := by
  rw [List.leftpad, number_append, number_zeros, Nat.zero_mul, Nat.zero_add]

theorem AllDigits.leftpad (h : AllDigits xs) : AllDigits (List.leftpad n '0' xs) :=
  (AllDigits.zeros _).append h

/-- Without its trailing zeros a string is as long as there are zeros to fill it up. -/
theorem rdropWhile_zeros (xs : List Char) : xs.rdropWhile (· == '0') ++
    List.replicate (xs.length - (xs.rdropWhile (· == '0')).length) '0' = xs := by
  have hsplit := List.rdropWhile_append_rtakeWhile (p := (· == '0')) (l := xs)
  have hlength := congrArg List.length hsplit
  have hzeros : xs.rtakeWhile (· == '0') =
      List.replicate (xs.rtakeWhile (· == '0')).length '0' := by
    rw [List.eq_replicate_iff]
    exact ⟨rfl, fun c hc => eq_of_beq (List.mem_rtakeWhile_imp (p := (· == '0')) hc)⟩
  rw [List.length_append] at hlength
  have hcount : xs.length - (xs.rdropWhile (· == '0')).length =
      (xs.rtakeWhile (· == '0')).length := by
    omega
  rw [hcount, ← hzeros, hsplit]

/-- The number with these digits before and after the point in units of `10 ^ -p`, rounded
down. -/
def scaled (p : ℕ) (integer fraction : List Char) : ℕ :=
  number (integer ++ fraction) * 10 ^ p / 10 ^ fraction.length

/-- The digits after the unit do not count. -/
theorem scaled_eq (h : AllDigits fraction) : scaled p integer fraction =
    number (integer ++ fraction.take p) * 10 ^ (p - fraction.length) := by
  unfold scaled
  rcases Nat.le_total fraction.length p with hle | hle
  · have hpow : 10 ^ p = 10 ^ (p - fraction.length) * 10 ^ fraction.length := by
      rw [← pow_add, Nat.sub_add_cancel hle]
    rw [List.take_of_length_le hle, hpow, ← Nat.mul_assoc,
      Nat.mul_div_cancel _ (Nat.pow_pos (by decide))]
  · have hlength : (fraction.drop p).length = fraction.length - p := List.length_drop
    have hpow : 10 ^ fraction.length = 10 ^ (fraction.length - p) * 10 ^ p := by
      rw [← pow_add, Nat.sub_add_cancel hle]
    have hrest := number_lt (h.of_subset (List.drop_subset p fraction))
    rw [hlength] at hrest
    rw [hpow, Nat.mul_div_mul_right _ _ (Nat.pow_pos (by decide)), Nat.sub_eq_zero_of_le hle,
      pow_zero, Nat.mul_one]
    have hsplit : number (integer ++ fraction) =
        number (integer ++ fraction.take p) * 10 ^ (fraction.length - p) +
          number (fraction.drop p) := by
      rw [← hlength, ← number_append, List.append_assoc, List.take_append_drop]
    rw [hsplit, Nat.mul_comm, Nat.mul_add_div (Nat.pow_pos (by decide)),
      Nat.div_eq_of_lt hrest, Nat.add_zero]

/-- A shift after the rounding loses the digits that it brings in. -/
theorem scaled_add (h : AllDigits fraction) : scaled (p + k) integer fraction =
    scaled p integer fraction * 10 ^ k +
      number ((fraction.drop p).take k) * 10 ^ (p + k - fraction.length) := by
  have hlength : ((fraction.drop p).take k).length + (p + k - fraction.length) =
      p - fraction.length + k := by
    rw [List.length_take, List.length_drop]
    omega
  rw [scaled_eq h, scaled_eq h, List.take_add, ← List.append_assoc, number_append, Nat.add_mul,
    Nat.mul_assoc, ← pow_add, hlength, pow_add, Nat.mul_assoc]

theorem scaled_add_eq_iff (h : AllDigits fraction) :
    scaled p integer fraction * 10 ^ k = scaled (p + k) integer fraction ↔
      ∀ c ∈ (fraction.drop p).take k, c = '0' := by
  have hdigits : AllDigits ((fraction.drop p).take k) :=
    fun c hc => h c (List.mem_of_mem_drop (List.mem_of_mem_take hc))
  rw [scaled_add h, ← number_eq_zero hdigits, left_eq_add, Nat.mul_eq_zero]
  exact or_iff_left (Nat.pow_pos (by decide)).ne'

/-- The value of the digits before and after the point. -/
def value (integer fraction : List Char) : ℚ :=
  number (integer ++ fraction) / 10 ^ fraction.length

theorem floor_value_shifted : ⌊value integer fraction * 10 ^ p⌋₊ = scaled p integer fraction := by
  rw [scaled, ← Nat.floor_div_eq_div (K := ℚ), value]
  congr 1
  push_cast
  ring

theorem floor_value_divided :
    ⌊value integer fraction / 10 ^ k * 10 ^ p⌋₊ = scaled p integer fraction / 10 ^ k := by
  rw [scaled, Nat.div_div_eq_div_mul, ← Nat.floor_div_eq_div (K := ℚ), value]
  congr 1
  push_cast
  field_simp

/-- Rounded half up at the `p`-th digit after the point. -/
def roundedHalfUp (p : ℕ) (q : ℚ) : ℚ := ⌊q * 10 ^ p + 1 / 2⌋₊ / 10 ^ p

/-- Half a unit is added before the digits beyond the `p`-th are cut off. -/
theorem roundedHalfUp_scaled : roundedHalfUp p ((n : ℚ) / 10 ^ (p + (k + 1))) =
    ((n + 10 ^ k * 5) / 10 ^ (k + 1) : ℕ) / 10 ^ p := by
  rw [roundedHalfUp, ← Nat.floor_div_eq_div (K := ℚ)]
  congr 3
  push_cast
  rw [pow_add, pow_succ]
  field_simp
  ring

end Digits
