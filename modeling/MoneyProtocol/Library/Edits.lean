import Mathlib.Data.List.Basic
import Mathlib.Tactic.Common

/-!
# Edits of an amount that others change

A form shows an amount and the edited amount beside it. Whenever the amount changes under the
form, the edit is taken again as a difference and made on the new amount. A raise is never lost
this way. Where the amount only falls, it does not matter how often the form looks.
-/

/-- The difference that a form asks for. -/
inductive Edit where
  | keep
  | raise (v : ℕ)
  | lower (v : ℕ)
  | clear
  deriving DecidableEq

namespace Edit

variable {original edited amount m n : ℕ} {amounts : List ℕ} {c : Edit}

/-- An amount that is edited to nothing is cleared, whatever it is. -/
def between (original edited : ℕ) : Edit :=
  if edited < original then
    if edited = 0 then .clear else .lower (original - edited)
  else if original < edited then .raise (edited - original)
  else .keep

def on (amount : ℕ) : Edit → ℕ
  | .keep => amount
  | .raise v => amount + v
  | .lower v => amount - v
  | .clear => 0

/-- The edit can be made on the amount as it was meant. -/
def Fits (amount : ℕ) : Edit → Prop
  | .keep => True
  | .raise v => 0 < v
  | .lower v => 0 < v ∧ v < amount
  | .clear => 0 < amount

/-- Each of the four cases, with the edited amount in it. -/
theorem between_cases (original edited : ℕ) :
    (edited = original ∧ between original edited = .keep) ∨
    (original < edited ∧ between original edited = .raise (edited - original)) ∨
    (0 < edited ∧ edited < original ∧ between original edited = .lower (original - edited)) ∨
    (edited = 0 ∧ 0 < original ∧ between original edited = .clear) := by
  unfold between
  split_ifs with hlt hzero hgt
  · exact .inr (.inr (.inr ⟨hzero, by omega, rfl⟩))
  · exact .inr (.inr (.inl ⟨by omega, hlt, rfl⟩))
  · exact .inr (.inl ⟨hgt, rfl⟩)
  · exact .inl ⟨by omega, rfl⟩

theorem between_self : between amount amount = .keep := by
  rw [between, if_neg (Nat.lt_irrefl _), if_neg (Nat.lt_irrefl _)]

theorem on_between_cleared (h : 0 < original) : (between original 0).on amount = 0 := by
  rw [between, if_pos h, if_pos rfl, on]

theorem on_between (original edited : ℕ) : (between original edited).on original = edited := by
  rcases between_cases original edited with ⟨heq, h⟩ | ⟨hlt, h⟩ | ⟨-, hlt, h⟩ | ⟨hzero, -, h⟩
  · rw [h, on, heq]
  · rw [h, on]
    omega
  · rw [h, on]
    omega
  · rw [h, on, hzero]

theorem eq_zero_of_clear (h : between original edited = .clear) : edited = 0 := by
  rw [← on_between original edited, h, on]

/-- Where less is taken off than there is, the edit fits. -/
theorem fits_of_covered (h : edited ≠ 0) (hcovered : original < amount + edited) :
    (between original edited).Fits amount := by
  rcases between_cases original edited with ⟨-, hc⟩ | ⟨hlt, hc⟩ | ⟨-, hlt, hc⟩ | ⟨hzero, -⟩
  · rw [hc]
    trivial
  · rw [hc]
    exact Nat.sub_pos_of_lt hlt
  · rw [hc]
    exact ⟨Nat.sub_pos_of_lt hlt, by omega⟩
  · exact absurd hzero h

/-- An amount that is not edited to nothing moves by the difference. -/
theorem on_of_ne_zero (h : edited ≠ 0) :
    (between original edited).on amount = amount + (edited - original) - (original - edited) := by
  rcases between_cases original edited with ⟨heq, hc⟩ | ⟨hlt, hc⟩ | ⟨-, hlt, hc⟩ | ⟨hzero, -⟩
  · rw [hc, on, heq, Nat.sub_self, Nat.add_zero, Nat.sub_zero]
  · rw [hc, on, Nat.sub_eq_zero_of_le (Nat.le_of_lt hlt), Nat.sub_zero]
  · rw [hc, on, Nat.sub_eq_zero_of_le (Nat.le_of_lt hlt), Nat.add_zero]
  · exact absurd hzero h

/-- Amounts that are not edited to nothing differ by what their edits are. -/
theorem differences_eq {original' edited' : ℕ} (h : edited ≠ 0) (h' : edited' ≠ 0)
    (hsame : between original edited = between original' edited') :
    edited - original = edited' - original' ∧ original - edited = original' - edited' := by
  -- an amount that is large enough for both tells them apart
  have hon := congrArg (on (original + original')) hsame
  rw [on_of_ne_zero h, on_of_ne_zero h'] at hon
  omega

/-- An edit that fits is found again in the amount that it leads to. -/
theorem between_on (hfits : c.Fits amount) : between amount (c.on amount) = c := by
  unfold between
  cases c with
  | keep => simp [on]
  | raise v =>
    have hpos : 0 < v := hfits
    rw [on, if_neg (by omega), if_pos (by omega), Nat.add_sub_cancel_left]
  | lower v =>
    obtain ⟨hpos, hlt⟩ : 0 < v ∧ v < amount := hfits
    rw [on, if_pos (by omega), if_neg (by omega), Nat.sub_sub_self (Nat.le_of_lt hlt)]
  | clear =>
    have hpos : 0 < amount := hfits
    rw [on, if_pos hpos, if_pos rfl]

/-- Where nothing is to be left, nothing is left of a smaller amount either. -/
theorem on_between_zero (h : m ≤ n) : (between n 0).on m = 0 := by
  rcases between_cases n 0 with ⟨hzero, hc⟩ | ⟨hlt, -⟩ | ⟨hlt, -⟩ | ⟨-, -, hc⟩
  · rw [hc]
    exact Nat.le_zero.mp (hzero ▸ h)
  · exact absurd hlt (Nat.not_lt_zero n)
  · exact absurd hlt (Nat.lt_irrefl 0)
  · rw [hc]
    rfl

/-- A second look at an amount that has fallen further makes no difference. -/
theorem on_between_on (h : m ≤ n) :
    (between n ((between original edited).on n)).on m = (between original edited).on m := by
  rcases between_cases original edited with ⟨-, hc⟩ | ⟨hlt, hc⟩ | ⟨-, hlt, hc⟩ | ⟨-, -, hc⟩
  · rw [hc, between_on (c := .keep) trivial]
  · rw [hc, between_on (c := .raise (edited - original)) (Nat.sub_pos_of_lt hlt)]
  · rw [hc]
    by_cases hfits : original - edited < n
    · rw [between_on (c := .lower (original - edited)) ⟨Nat.sub_pos_of_lt hlt, hfits⟩]
    · -- the amount has been used up, and so will any smaller one be
      have hn : (lower (original - edited)).on n = 0 := Nat.sub_eq_zero_of_le (by omega)
      have hm : (lower (original - edited)).on m = 0 := Nat.sub_eq_zero_of_le (by omega)
      rw [hn, hm]
      exact on_between_zero h
  · rw [hc]
    exact on_between_zero h

/-- The form takes notice of a new amount. -/
def rebase (form : ℕ × ℕ) (amount : ℕ) : ℕ × ℕ := (amount, (between form.1 form.2).on amount)

/-- As long as it fits, the edit stays the same. -/
theorem rebases_of_fits (h : ∀ n ∈ amounts, (between original edited).Fits n) :
    between (amounts.foldl rebase (original, edited)).1
      (amounts.foldl rebase (original, edited)).2 =
      between original edited := by
  induction amounts generalizing original edited with
  | nil => rfl
  | cons n amounts ih =>
    have hfirst := between_on (h n List.mem_cons_self)
    rw [List.foldl_cons, rebase, ih, hfirst]
    intro m hm
    rw [hfirst]
    exact h m (List.mem_cons_of_mem _ hm)

/-- While the amount falls only the last look counts. -/
theorem rebases_of_falling (h : (original :: amounts).IsChain (· ≥ ·)) :
    amounts.foldl rebase (original, edited) =
      (amounts.getLastD original, (between original edited).on (amounts.getLastD original)) := by
  induction amounts generalizing original edited with
  | nil => exact Prod.ext rfl (on_between _ _).symm
  | cons n amounts ih =>
    have hfalling := (List.isChain_cons_cons.mp h).2
    have hbounds := (List.pairwise_cons.mp (List.isChain_iff_pairwise.mp hfalling)).1
    have hlast : amounts.getLastD n ≤ n := by
      rcases List.mem_cons.mp (List.getLastD_mem_cons (l := amounts) (a := n)) with heq | hmem
      · exact Nat.le_of_eq heq
      · exact hbounds _ hmem
    rw [List.foldl_cons, rebase, ih hfalling, List.getLastD_cons, on_between_on hlast]

end Edit
