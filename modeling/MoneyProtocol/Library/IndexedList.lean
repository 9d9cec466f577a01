import Mathlib.Data.List.Basic
import Mathlib.Data.List.Nodup

/-!
# Lists whose members know their slot

Every member of the list carries the index of its slot. Such a list has no duplicates, and a
member is removed in one step: the last member moves into its slot, and the list is cut.
-/

namespace IndexedList

variable {K : Type} {index : K → ℕ} {xs : List K} {x y : K} {i j : ℕ}

/-- Every member carries the index of its slot. -/
def Indexed (index : K → ℕ) (xs : List K) : Prop := ∀ i x, xs[i]? = some x → index x = i

theorem Indexed.getElem? (h : Indexed index xs) (hx : x ∈ xs) : xs[index x]? = some x := by
  obtain ⟨i, hi⟩ := List.mem_iff_getElem?.mp hx
  rw [h i x hi]
  exact hi

theorem Indexed.nodup (h : Indexed index xs) : xs.Nodup := by
  rw [List.nodup_iff_injective_get]
  intro i j hij
  have hi := h i (xs.get i) (by simp)
  have hj := h j (xs.get j) (by simp)
  rw [hij] at hi
  exact Fin.ext (hi.symm.trans hj)

/-- The list with the last member moved to the slot `i`. -/
def swapRemove (i : ℕ) (last : K) (xs : List K) : List K := (xs.set i last).dropLast

theorem getElem?_swapRemove : (swapRemove i x xs)[j]? =
    if j < xs.length - 1 then if i = j then some x else xs[j]? else none := by
  unfold swapRemove
  rw [List.getElem?_dropLast, List.length_set, List.getElem?_set]
  split_ifs with hlt heq hi
  · rfl
  · omega
  · rfl
  · rfl

section

variable {last : K} (h : Indexed index xs) (hx : x ∈ xs)
  (hlast : xs[xs.length - 1]? = some last)

include h hlast

/-- The member that moved carries its new slot. -/
theorem Indexed.swapRemove {index' : K → ℕ} (hmoved : index' last = index x)
    (hsame : ∀ y, y ≠ last → y ≠ x → index' y = index y) :
    Indexed index' (swapRemove (index x) last xs) := by
  intro j y hy
  rw [getElem?_swapRemove] at hy
  split_ifs at hy with hlt heq
  · obtain rfl := Option.some.inj hy
    exact hmoved.trans heq
  · have hj := h j y hy
    rw [hsame y ?_ ?_]
    · exact hj
    · rintro rfl
      have := h _ _ hlast
      omega
    · rintro rfl
      exact heq hj

include hx

theorem Indexed.mem_swapRemove : y ∈ IndexedList.swapRemove (index x) last xs ↔ y ∈ xs ∧ y ≠ x := by
  have hslot := h.getElem? hx
  have hlt : index x < xs.length := (List.getElem?_eq_some_iff.mp hslot).1
  have hlastSlot := h _ _ hlast
  rw [List.mem_iff_getElem?]
  constructor
  · rintro ⟨j, hy⟩
    rw [getElem?_swapRemove] at hy
    split_ifs at hy with hj heq
    · obtain rfl := Option.some.inj hy
      refine ⟨List.mem_of_getElem? hlast, ?_⟩
      rintro rfl
      omega
    · refine ⟨List.mem_of_getElem? hy, ?_⟩
      rintro rfl
      exact heq (h _ _ hy)
  · rintro ⟨hy, hne⟩
    obtain ⟨j, hj⟩ := List.mem_iff_getElem?.mp hy
    have hjlt : j < xs.length := (List.getElem?_eq_some_iff.mp hj).1
    by_cases hend : j = xs.length - 1
    · -- the last member is found in the slot of `x`
      obtain rfl : y = last := by
        rw [hend, hlast] at hj
        exact (Option.some.inj hj).symm
      refine ⟨index x, ?_⟩
      rw [getElem?_swapRemove, if_pos ?_, if_pos rfl]
      by_contra hge
      have hsame : index x = xs.length - 1 := by omega
      rw [hsame, hlast] at hslot
      exact hne (Option.some.inj hslot)
    · refine ⟨j, ?_⟩
      rw [getElem?_swapRemove, if_pos (by omega), if_neg ?_]
      · exact hj
      · rintro rfl
        rw [hslot] at hj
        exact hne (Option.some.inj hj).symm

end

theorem Indexed.append {index' : K → ℕ} (h : Indexed index xs) (hx : x ∉ xs)
    (hnew : index' x = xs.length) (hsame : ∀ y, y ≠ x → index' y = index y) :
    Indexed index' (xs ++ [x]) := by
  intro j y hy
  rw [List.getElem?_append] at hy
  split_ifs at hy with hlt
  · have hne : y ≠ x := by
      rintro rfl
      exact hx (List.mem_of_getElem? hy)
    rw [hsame y hne]
    exact h j y hy
  · obtain ⟨hj, rfl⟩ := List.getElem?_eq_some_iff.mp hy
    simp only [List.length_singleton, Nat.lt_one_iff] at hj
    simp only [List.getElem_singleton, hnew]
    omega

theorem Indexed.congr {index' : K → ℕ} (h : Indexed index xs) (hsame : ∀ y, index' y = index y) :
    Indexed index' xs :=
  fun i x hx => (hsame x).trans (h i x hx)

end IndexedList
