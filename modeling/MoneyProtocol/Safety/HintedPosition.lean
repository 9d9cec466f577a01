import MoneyProtocol.Book.Effects
import MoneyProtocol.Book.Order
import MoneyProtocol.Safety.SortedList

/-!
# Positions that a hint names

A pair of neighbours whose ratios enclose the new one is not refused as a hint: the owner is linked
in between, without a walk. It also stands when another owner leaves the list, so that an
adjustment, which removes its owner first, finds it as the search left it.
-/

namespace MoneyProtocol

open Outcome MoneypMath MoneypBase Book LinkedList VaultManager

variable {d : Deployment} {s s' : State} {block : Block} {a p n : Address} {NICR maxSize value : ℕ}
  {xs : List Address} {ratio : Address → ℕ} {read : Address → Outcome ℕ}

namespace SortedVaults

variable {data data' : SortedVaults}

/-- The owners of the list have these ratios where they can be read. -/
def Known (ratio : Address → ℕ) (read : Address → Outcome ℕ) (xs : List Address) : Prop :=
  ∀ u ∈ xs, ∀ r, read u = .ok r → ratio u = r

/-- `p` and `n` are neighbours whose ratios enclose this one. -/
abbrev Between (ratio : Address → ℕ) (NICR : ℕ) (xs : List Address) (p n : Address) : Prop :=
  ValidPosition (fun u => .ok (ratio u)) NICR xs p n

theorem ValidPosition.between (h : ValidPosition read NICR xs p n) (hread : Known ratio read xs) :
    Between ratio NICR xs p n := by
  obtain ⟨as, bs, rfl, rfl, rfl, hencloses⟩ := h
  refine ⟨as, bs, rfl, rfl, rfl, ?_, ?_⟩
  · intro has
    obtain ⟨r, hr, hle⟩ := hencloses.prev has
    exact ⟨r, congrArg _ (hread _ (List.mem_append_left _ (getLastD_mem has)) r hr), hle⟩
  · intro hbs
    obtain ⟨r, hr, hle⟩ := hencloses.next hbs
    exact ⟨r, congrArg _ (hread _ (List.mem_append_right _ (headD_mem hbs)) r hr), hle⟩

/-- Nobody is between two owners of the list but through a removal, and that leaves the position
open. -/
theorem Between.erase (h : Between ratio NICR xs p n) (hp : p ≠ a) (hn : n ≠ a) :
    Between ratio NICR (xs.erase a) p n := by
  obtain ⟨as, bs, rfl, rfl, rfl, hencloses⟩ := h
  by_cases ha : a ∈ as
  · obtain ⟨as₁, as₂, -, rfl, herase⟩ := List.exists_erase_eq ha
    have hne : as₂ ≠ [] := by
      rintro rfl
      simp at hp
    have hlast : (as₁ ++ a :: as₂).getLastD 0 = (as₁ ++ as₂).getLastD 0 := by
      rw [getLastD_append, getLastD_append, List.getLastD_cons]
      cases as₂ with
      | nil => exact absurd rfl hne
      | cons b as₂ => simp only [List.getLastD_cons]
    rw [List.erase_append_left _ ha, herase]
    refine ⟨as₁ ++ as₂, bs, rfl, hlast, rfl, fun _ => ?_, hencloses.next⟩
    have hprev := hencloses.prev (by simp)
    rwa [hlast] at hprev
  · rw [List.erase_append_right _ ha]
    cases bs with
    | nil => exact ⟨as, [], rfl, rfl, rfl, hencloses⟩
    | cons b bs =>
      have hb : b ≠ a := hn
      rw [List.erase_cons_tail (by simpa using hb)]
      exact ⟨as, b :: bs.erase a, rfl, rfl, rfl, hencloses.prev, fun _ => hencloses.next (by simp)⟩

/-- A position between two neighbours is refused only where their ratios cannot be read. -/
theorem not_refused {valid : Bool} (h : Linked data xs) (hbetween : Between ratio NICR xs p n)
    (hread : Known ratio read xs) (hv : validInsertPosition read NICR p n data = .ok valid) :
    valid = true := by
  obtain ⟨as, bs, rfl, rfl, rfl, hencloses⟩ := hbetween
  have hprev (has : as ≠ []) (r : ℕ) (hr : read (as.getLastD 0) = .ok r) : NICR ≤ r := by
    obtain ⟨_, hratio, hle⟩ := hencloses.prev has
    rw [← hread _ (List.mem_append_left _ (getLastD_mem has)) r hr, Except.ok.inj hratio]
    exact hle
  have hnext (hbs : bs ≠ []) (r : ℕ) (hr : read (bs.headD 0) = .ok r) : r ≤ NICR := by
    obtain ⟨_, hratio, hle⟩ := hencloses.next hbs
    rw [← hread _ (List.mem_append_right _ (headD_mem hbs)) r hr, Except.ok.inj hratio]
    exact hle
  have hlast := h.getLastD_eq_zero
  have hfirst := h.headD_eq_zero
  unfold validInsertPosition at hv
  by_cases hboth : as.getLastD 0 = 0 ∧ bs.headD 0 = 0
  · rw [if_pos hboth] at hv
    have hsize := h.size_eq
    rw [hlast.mp hboth.1, hfirst.mp hboth.2] at hsize
    rw [← pure_ok.mp hv, isEmpty, hsize]
    rfl
  · rw [if_neg hboth] at hv
    by_cases hzero : as.getLastD 0 = 0
    · have hbs : bs ≠ [] := fun hbs => hboth ⟨hzero, hfirst.mpr hbs⟩
      rw [if_pos hzero, if_pos (h.head_eq (hlast.mp hzero)).symm] at hv
      obtain ⟨r, hr, hv⟩ := bind_ok.mp hv
      rw [← pure_ok.mp hv]
      exact decide_eq_true (hnext hbs r hr)
    · have has : as ≠ [] := fun has => hzero (hlast.mpr has)
      rw [if_neg hzero] at hv
      by_cases hend : bs.headD 0 = 0
      · rw [if_pos hend, if_pos (h.tail_eq (hfirst.mp hend)).symm] at hv
        obtain ⟨r, hr, hv⟩ := bind_ok.mp hv
        rw [← pure_ok.mp hv]
        exact decide_eq_true (hprev has r hr)
      · have hbs : bs ≠ [] := fun hbs => hend (hfirst.mpr hbs)
        have hadjacent : (data.nodes (as.getLastD 0)).nextId = bs.headD 0 := by
          obtain ⟨as, x, rfl⟩ := List.eq_nil_or_concat' as |>.resolve_left has
          have h' : Linked data (as ++ x :: bs) := by
            simpa using h
          simpa using h'.represents.next_eq
        rw [if_neg hend, if_pos hadjacent] at hv
        obtain ⟨r, hr, hv⟩ := bind_ok.mp hv
        rw [if_pos (hprev has r hr)] at hv
        obtain ⟨r', hr', hv⟩ := bind_ok.mp hv
        rw [← pure_ok.mp hv]
        exact decide_eq_true (hnext hbs r' hr')

/-- `a` has been put between `p` and `n`. -/
def PutBetween (a p n : Address) (xs : List Address) (data : SortedVaults) : Prop :=
  ∃ as bs, xs = as ++ bs ∧ p = as.getLastD 0 ∧ n = bs.headD 0 ∧ Linked data (as ++ a :: bs)

theorem insert_between (h : Linked data xs) (hbetween : Between ratio NICR xs p n)
    (hread : Known ratio read xs) (hi : insert read maxSize a NICR p n data = .ok data') :
    PutBetween a p n xs data' := by
  simp only [insert, bind_ok, require_ok, pure_ok, SafeMath.add_ok] at hi
  obtain ⟨_, -, _, hcontains, _, hzero, _, -, valid, hvalid, q, hq, _, ⟨-, rfl⟩, rfl⟩ := hi
  rw [not_refused h hbetween hread hvalid, if_pos rfl] at hq
  rw [← pure_ok.mp hq]
  obtain ⟨as, bs, rfl, rfl, rfl, -⟩ := hbetween
  refine ⟨as, bs, rfl, rfl, rfl, ?_⟩
  dsimp only
  rw [link_size]
  exact h.link (fun hmem => hcontains (h.contains_iff.mpr hmem)) hzero

theorem reInsert_between (h : Linked data xs) (hbetween : Between ratio NICR xs p n) (hp : p ≠ a)
    (hn : n ≠ a) (hread : Known ratio read (xs.erase a))
    (hi : reInsert read maxSize a NICR p n data = .ok data') :
    PutBetween a p n (xs.erase a) data' := by
  simp only [reInsert, bind_ok, require_ok] at hi
  obtain ⟨_, -, _, -, data₁, hremove, hinsert⟩ := hi
  obtain ⟨as, bs, rfl, h₁⟩ := remove_sound h hremove
  have herase : (as ++ a :: bs).erase a = as ++ bs := erase_middle h.nodup
  rw [herase] at hread ⊢
  apply insert_between h₁ _ hread hinsert
  rw [← herase]
  exact hbetween.erase hp hn

end SortedVaults

namespace BorrowerOperations

/-- What an opening does to the list. -/
theorem openVault_inserts {maxFee amount : ℕ} {upperHint lowerHint : Address}
    (h : openVault d block a value maxFee amount upperHint lowerHint s = .ok s')
    (hlength : s.book.vaultOwners.length < 2 ^ 128) :
    ∃ debt data read, s'.book = s.book.opened a value debt data ∧ s.book.Reads a read ∧
      SortedVaults.insert read d.maxSize a (nominalCR value debt) upperHint lowerHint
        s.sortedVaults = .ok data := by
  simp only [openVault, getCompositeDebt, bind_ok, Prod.exists, SafeMath.add_ok] at h
  obtain ⟨_, s₀, hprice, _, -, _, -, _, -, netDebt, s₁, hfee, _, -, _, ⟨-, rfl⟩, _, -, _, -, NICR,
    hNICR, _, -, s₂, hinit, s₃, hinsert, s₄, hadd, s₅, hcoll, s₆, hmint, hreserve⟩ := h
  have h₁ : s₁.book = s.book := by
    rw [chargeBorrowingFee_book hfee, PriceFeed.fetchPrice_book hprice]
  obtain ⟨-, h₂⟩ := initVault_book hinit
  obtain ⟨data, hdata, rfl⟩ := insertSorted_ok hinsert
  have hv : s₁.vault a = s.book.vaults a := congrFun (congrArg Book.vaults h₁) a
  rw [h₁, hv] at h₂
  refine ⟨netDebt + BPD_GAS_COMPENSATION, data, fun u => getNominalICR u s₂, ?_, ?_, ?_⟩
  · rw [withdrawBPD_book hreserve, withdrawBPD_book hmint, activePoolAddColl_book hcoll,
      addVaultOwnerToArray_book hadd, setSortedVaults_book, h₂]
    simp only [Book.opened, Function.update_self, Function.update_idem, Nat.mod_eq_of_lt hlength]
  · apply reads_of_same
    · intro u hu
      rw [h₂]
      exact Function.update_of_ne hu _ _
    · intro u hu
      rw [h₂]
      exact Function.update_of_ne hu _ _
    · rw [h₂]
    · rw [h₂]
  · have hsorted : s₂.sortedVaults = s.sortedVaults := congrArg Book.sortedVaults h₂
    rw [computeNominalCR_ok hNICR, ← hsorted]
    exact hdata

/-- What an adjustment does to it. -/
theorem adjustVaultInternal_reInserts {sender : Address} {adj : Adjustment}
    (hdefault : sender ≠ d.defaultPool)
    (h : adjustVaultInternal d block sender value a adj s = .ok s') :
    ∃ coll debt data read, (s'.vault a).coll = coll ∧ (s'.vault a).debt = debt ∧
      s'.sortedVaults = data ∧ s.book.Reads a read ∧
      SortedVaults.reInsert read d.maxSize a (nominalCR coll debt) adj.upperHint adj.lowerHint
        s.sortedVaults = .ok data := by
  simp only [adjustVaultInternal, bind_ok, Prod.exists] at h
  obtain ⟨_, s₀, hprice, recovery, -, _, -, _, -, _, -, _, -, _, -, s₁, hpending, net, s₂, hfee, _,
    -, _, -, _, -, _, -, _, -, s₃, hupdate, s₄, hstake, NICR, hNICR, s₅, hinsert, hmove⟩ := h
  have h₀ := PriceFeed.fetchPrice_book hprice
  have h₂ := chargeBorrowingFee_book hfee
  obtain ⟨coll, debt, hnew, h₃⟩ := updateVaultFromAdjustment_book hupdate
  obtain ⟨-, h₄⟩ := updateStakeAndTotalStakes_book hstake
  obtain ⟨data, hdata, rfl⟩ := reInsertSorted_ok hinsert
  have hv : s₂.vault a = s₁.book.vaults a := congrFun (congrArg Book.vaults h₂) a
  have hself : s₃.vault a = { s₁.book.vaults a with coll := coll, debt := debt } := by
    have hvault := congrFun (congrArg Book.vaults h₃) a
    rw [hv] at hvault
    exact hvault.trans (Function.update_self _ _ _)
  rw [hv, h₂] at h₃
  rw [hself, h₃] at h₄
  have hfinal : s'.book = s₁.book.restaked a coll debt data := by
    rw [moveTokensAndRBTCfromAdjustment_book hdefault hmove, setSortedVaults_book, h₄]
    simp [Book.restaked, Book.newStake]
  have hratio (u : Address) : s₁.book.nominalICR u = s.book.nominalICR u ∧
      s₁.sortedVaults = s.sortedVaults := by
    rw [← h₀]
    rcases applyPendingRewards_book (P := .any) hpending with ⟨-, -, hbook⟩ | ⟨-, rfl⟩
    · constructor
      · rw [hbook]
        exact nominalICR_collected
      · have hsorted : s₁.sortedVaults = s₀.sortedVaults := congrArg Book.sortedVaults hbook
        rw [hsorted]
        exact congrArg Book.sortedVaults h₀
    · exact ⟨rfl, congrArg Book.sortedVaults h₀⟩
  have hsorted : s₄.sortedVaults = s₁.sortedVaults := congrArg Book.sortedVaults h₄
  have hNICR' : nominalCR coll debt = NICR := by
    simp only [getNewNominalICRFromVaultChange, hnew, bind_ok, Except.ok.injEq] at hNICR
    obtain ⟨_, rfl, hNICR⟩ := hNICR
    exact computeNominalCR_ok hNICR
  have hvault : s'.vault a = s'.book.vaults a := rfl
  refine ⟨coll, debt, data, fun u => getNominalICR u s₄, ?_, ?_, ?_, ?_, ?_⟩
  · rw [hvault, hfinal]
    simp [Book.restaked]
  · rw [hvault, hfinal]
    simp [Book.restaked]
  · exact congrArg Book.sortedVaults hfinal
  · intro u r hu hr
    rw [← (hratio u).1]
    apply reads_of_same _ _ _ _ u r hu hr
    · intro u hu
      rw [h₄]
      simp [Function.update_of_ne hu]
    all_goals
      intros
      rw [h₄]
  · rw [hNICR', ← (hratio a).2, ← hsorted]
    exact hdata

end BorrowerOperations

end MoneyProtocol
