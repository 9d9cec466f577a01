import MoneyProtocol.Contracts.MultiVaultGetter
import MoneyProtocol.Book.Runs

/-!
# Pages are slices of the list

The two loops of a page follow the links of the list. On a well-linked list they visit its owners
one after the other, so that a page is a slice of the list, from the head or from the tail, and
consecutive pages make up the whole.
-/

namespace MoneyProtocol.MultiVaultGetter

open LinkedList

variable {next : Address → Address} {a : Address} {s : State} {xs : List Address} {n count : ℕ}

theorem skip_visits (h : Visits next 0 a xs) (hn : n ≤ xs.length) :
    Visits next 0 (skip next n a) (xs.drop n) := by
  induction n generalizing a xs with
  | zero => exact h
  | succ n ih =>
    cases xs with
    | nil => contradiction
    | cons x xs =>
      obtain ⟨rfl, -, hrest⟩ := h
      rw [List.length_cons, Nat.succ_le_succ_iff] at hn
      rw [skip, List.drop_succ_cons]
      exact ih hrest hn

theorem fill_visits (h : Visits next 0 a xs) (hcount : count ≤ xs.length) :
    fill next s count a = (xs.take count).map (combinedVaultData s) := by
  induction count generalizing a xs with
  | zero => rfl
  | succ count ih =>
    cases xs with
    | nil => contradiction
    | cons x xs =>
      obtain ⟨rfl, -, hrest⟩ := h
      rw [List.length_cons, Nat.succ_le_succ_iff] at hcount
      rw [fill, List.take_succ_cons, List.map_cons, ih hrest hcount]

/-- A walk that skips and fills gives a slice of what it visits. -/
theorem page_visits (h : Visits next 0 a xs) (hn : n < xs.length) :
    fill next s (if count > xs.length - n then xs.length - n else count) (skip next n a) =
      ((xs.drop n).take count).map (combinedVaultData s) := by
  have hvisits := skip_visits h hn.le
  have hlength : (xs.drop n).length = xs.length - n := List.length_drop
  split_ifs with hmax
  · -- the page ends with the list
    rw [fill_visits hvisits hlength.ge, ← hlength, List.take_length,
      List.take_of_length_le (hlength.trans_le hmax.le)]
  · exact fill_visits hvisits (hlength.symm ▸ not_lt.mp hmax)

/-- The owners in the order in which a page counts them, and the number of those in front of it. -/
def counted (startIdx : ℤ) (xs : List Address) : List Address :=
  if 0 ≤ startIdx then xs.drop startIdx.toNat else xs.reverse.drop (-startIdx - 1).toNat

/-- The pages of these lengths, one after the other from an index on. -/
def pages (startIdx : ℤ) (s : State) : List ℕ → List CombinedVaultData
  | [] => []
  | count :: counts =>
    let nextIdx := if 0 ≤ startIdx then startIdx + count else startIdx - count
    getMultipleSortedVaults startIdx count s ++ pages nextIdx s counts

theorem getMultipleSortedVaults_eq (hlinked : SortedVaults.Linked s.sortedVaults xs)
    (startIdx : ℤ) (count : ℕ) : getMultipleSortedVaults startIdx count s =
      ((counted startIdx xs).take count).map (combinedVaultData s) := by
  have hsize : SortedVaults.getSize s.sortedVaults = xs.length := hlinked.size_eq
  simp only [getMultipleSortedVaults, hsize]
  unfold counted
  by_cases hdescend : 0 ≤ startIdx
  · rw [if_pos hdescend, if_pos hdescend, if_pos hdescend]
    by_cases hend : startIdx.toNat ≥ xs.length
    · rw [if_pos hend, List.drop_eq_nil_of_le hend, List.take_nil, List.map_nil]
    · rw [if_neg hend]
      exact page_visits hlinked.represents.visits (not_le.mp hend)
  · have hidx : -(startIdx + 1) = -startIdx - 1 := by ring
    have hlength : xs.length = xs.reverse.length := List.length_reverse.symm
    rw [if_neg hdescend, if_neg hdescend, if_neg hdescend, hidx, hlength]
    by_cases hend : (-startIdx - 1).toNat ≥ xs.reverse.length
    · rw [if_pos hend, List.drop_eq_nil_of_le hend, List.take_nil, List.map_nil]
    · rw [if_neg hend]
      exact page_visits hlinked.represents.visits_reverse (not_le.mp hend)

/-- The next page starts where the one before it ends. -/
theorem counted_next {startIdx : ℤ} :
    counted (if 0 ≤ startIdx then startIdx + count else startIdx - count) xs =
      (counted startIdx xs).drop count := by
  unfold counted
  by_cases hdescend : 0 ≤ startIdx
  · have hnext : 0 ≤ startIdx + count := by omega
    have hsum : (startIdx + count).toNat = startIdx.toNat + count := by omega
    rw [if_pos hdescend, if_pos hnext, if_pos hdescend, List.drop_drop, hsum]
  · have hnext : ¬0 ≤ startIdx - count := by omega
    have hsum : (-(startIdx - count) - 1).toNat = (-startIdx - 1).toNat + count := by omega
    rw [if_neg hdescend, if_neg hnext, if_neg hdescend, List.drop_drop, hsum]

theorem pages_eq (hlinked : SortedVaults.Linked s.sortedVaults xs) (startIdx : ℤ)
    (counts : List ℕ) : pages startIdx s counts =
      ((counted startIdx xs).take counts.sum).map (combinedVaultData s) := by
  induction counts generalizing startIdx with
  | nil => rfl
  | cons count counts ih =>
    rw [pages, ih, getMultipleSortedVaults_eq hlinked, counted_next, List.sum_cons,
      List.take_add, List.map_append]

/-- A page is the slice of the list that its arguments name, and consecutive pages, from either
end and of any lengths, are a longer slice: the whole list once they are long enough. -/
theorem pagination_slices (hlinked : SortedVaults.Linked s.sortedVaults xs) :
    (∀ startIdx count, getMultipleSortedVaults startIdx count s =
      ((if 0 ≤ startIdx then xs.drop startIdx.toNat
        else xs.reverse.drop (-startIdx - 1).toNat).take count).map (combinedVaultData s)) ∧
      ∀ counts : List ℕ, (∀ startIdx, pages startIdx s counts =
          ((counted startIdx xs).take counts.sum).map (combinedVaultData s)) ∧
        (xs.length ≤ counts.sum → pages 0 s counts = xs.map (combinedVaultData s) ∧
          pages (-1) s counts = xs.reverse.map (combinedVaultData s)) := by
  refine ⟨getMultipleSortedVaults_eq hlinked, ?_⟩
  intro counts
  refine ⟨fun startIdx => pages_eq hlinked startIdx counts, ?_⟩
  intro hlong
  rw [pages_eq hlinked, pages_eq hlinked]
  constructor
  · exact congrArg _ (List.take_of_length_le hlong)
  · have hlong : xs.reverse.length ≤ counts.sum := List.length_reverse.trans_le hlong
    exact congrArg _ (List.take_of_length_le hlong)

/-- Three vaults: the second and the third, and all of them in two pages from the tail. -/
theorem pagination_slices_three : ∃ s xs, Reachable testnet s ∧
    SortedVaults.Linked s.sortedVaults xs ∧ xs.length = 3 ∧
      (getMultipleSortedVaults 1 5 s).map CombinedVaultData.owner = [102, 101] ∧
      getMultipleSortedVaults 1 5 s = ((xs.drop 1).take 5).map (combinedVaultData s) ∧
      pages (-1) s [2, 2] = xs.reverse.map (combinedVaultData s) := by
  obtain ⟨s, h, -, hcheck⟩ := runs_reachable testnet testGenesis
    [⟨testBlock 60000, 100, 5 * 10 ^ 18, .openVault (10 ^ 16) (10000 * 10 ^ 18) 0 0⟩,
      ⟨testBlock 60000, 101, 55 * 10 ^ 15, .openVault (10 ^ 16) (2000 * 10 ^ 18) 0 0⟩,
      ⟨testBlock 60000, 102, 6 * 10 ^ 16, .openVault (10 ^ 16) (2000 * 10 ^ 18) 0 0⟩]
    (fun s => decide (SortedVaults.getSize s.sortedVaults = 3 ∧
      (getMultipleSortedVaults 1 5 s).map CombinedVaultData.owner = [102, 101]))
    (by decide +kernel)
  obtain ⟨hsize, howners⟩ := of_decide_eq_true hcheck
  obtain ⟨xs, hxs⟩ := h.registry
  have hlength : xs.length = 3 := hxs.linked.size_eq.symm.trans hsize
  have hslices := pagination_slices hxs.linked
  have hlong : xs.length ≤ [2, 2].sum := by simp [hlength]
  exact ⟨s, xs, h, hxs.linked, hlength, howners, hslices.1 1 5, ((hslices.2 [2, 2]).2 hlong).2⟩

end MoneyProtocol.MultiVaultGetter
