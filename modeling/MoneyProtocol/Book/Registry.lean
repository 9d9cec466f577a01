import MoneyProtocol.Book.Moves
import MoneyProtocol.Library.IndexedList

/-!
# The registry of vaults

Three records say who has a vault: the status, the array of owners and the sorted list. They
agree in every book that moves reach, and so do the totals kept beside the records.
-/

namespace MoneyProtocol.Book

open PointSum IndexedList MoneypMath MoneypBase

variable {b b' : Book} {a u : Address} {P : Policy} {xs : List Address}

/-- What the sorted list accepts has collateral. -/
theorem coll_pos {coll debt : ℕ} (hpos : 0 < nominalCR coll debt) (hdebt : minDebt ≤ debt) :
    0 < coll := by
  by_contra hzero
  obtain rfl : coll = 0 := by omega
  simp only [nominalCR] at hpos
  split_ifs at hpos with hd
  · simp at hpos
  · have : 0 < minDebt := by decide
    omega

/-- The book is in order, with the owners listed as `xs`. -/
structure Registry (b : Book) (xs : List Address) : Prop where
  linked : SortedVaults.Linked b.sortedVaults xs
  active : ∀ a, b.Active a ↔ a ∈ xs
  owners : ∀ a, a ∈ b.vaultOwners ↔ a ∈ xs
  indexed : Indexed (fun a => (b.vaults a).arrayIndex) b.vaultOwners
  inactive : ∀ a, a ∉ xs → (b.vaults a).coll = 0 ∧ (b.vaults a).debt = 0 ∧ (b.vaults a).stake = 0
  funded : ∀ a ∈ xs, 0 < (b.vaults a).coll ∧ minDebt ≤ (b.vaults a).debt
  stakes : b.totalStakes = total Vault.stake b.vaults
  snapshots : ∀ a, (b.rewardSnapshots a).RBTC ≤ b.B_RBTC ∧
    (b.rewardSnapshots a).BPDDebt ≤ b.B_BPDDebt

namespace Registry

theorem perm (h : b.Registry xs) : b.vaultOwners.Perm xs :=
  (List.perm_ext_iff_of_nodup h.indexed.nodup h.linked.nodup).mpr h.owners

theorem length_eq (h : b.Registry xs) : b.vaultOwners.length = xs.length := h.perm.length_eq

theorem pendingRBTC_of_notMem (h : b.Registry xs) (ha : a ∉ xs) : b.pendingRBTC a = 0 :=
  if_neg (fun hactive => ha ((h.active a).mp hactive))

theorem pendingDebt_of_notMem (h : b.Registry xs) (ha : a ∉ xs) : b.pendingDebt a = 0 :=
  if_neg (fun hactive => ha ((h.active a).mp hactive))

/-- There are no more owners than wei of collateral. -/
theorem length_le_coll (h : b.Registry xs) : b.vaultOwners.length ≤ total Vault.coll b.vaults := by
  rw [h.length_eq, ← List.toFinset_card_of_nodup h.linked.nodup, Finset.card_eq_sum_ones]
  unfold total
  refine (Finset.sum_le_sum fun a ha => ?_).trans
    (Finset.sum_le_sum_of_subset (f := fun a => (b.vaults a).coll) (Finset.subset_univ _))
  exact (h.funded a (List.mem_toFinset.mp ha)).1

theorem opened {coll debt maxSize : ℕ} {p n : Address} {data : SortedVaults}
    {read : Address → Outcome ℕ} (h : b.Registry xs) (hinactive : ¬b.Active a)
    (hdebt : minDebt ≤ debt)
    (hinsert : SortedVaults.insert read maxSize a (nominalCR coll debt) p n b.sortedVaults =
      .ok data) :
    ∃ ys zs, xs = ys ++ zs ∧ SortedVaults.Encloses read (nominalCR coll debt) ys zs ∧
      (b.opened a coll debt data).Registry (ys ++ a :: zs) := by
  obtain ⟨hmem, hzero, hpos, ys, zs, rfl, hencloses, hlinked⟩ :=
    SortedVaults.insert_sound h.linked hinsert
  refine ⟨ys, zs, rfl, hencloses, ?_⟩
  obtain ⟨hcoll₀, hdebt₀, hstake₀⟩ := h.inactive a hmem
  have hperm : ∀ u, u ∈ ys ++ a :: zs ↔ u = a ∨ u ∈ ys ++ zs := by
    intro u
    simp only [List.mem_append, List.mem_cons]
    tauto
  have hcoll := coll_pos hpos hdebt
  constructor
  · exact hlinked
  · intro u
    rw [hperm]
    by_cases hu : u = a
    · subst hu
      simp [Active, Book.opened]
    · simp only [Active, Book.opened, Function.update_of_ne hu, hu, false_or]
      exact h.active u
  · intro u
    rw [hperm]
    simp only [Book.opened, List.mem_append, List.mem_singleton, h.owners]
    tauto
  · refine h.indexed.append (fun hin => hmem ((h.owners a).mp hin)) ?_ (fun u hu => ?_)
    · simp [Book.opened]
    · simp [Book.opened, Function.update_of_ne hu]
  · intro u hu
    rw [hperm, not_or] at hu
    simp only [Book.opened, Function.update_of_ne hu.1]
    exact h.inactive u hu.2
  · intro u hu
    rw [hperm] at hu
    by_cases hua : u = a
    · subst hua
      simp only [Book.opened, Function.update_self]
      omega
    · simp only [Book.opened, Function.update_of_ne hua]
      exact h.funded u (hu.resolve_left hua)
  · have htotal := total_update Vault.stake b.vaults a ⟨(b.vaults a).debt + debt,
      (b.vaults a).coll + coll, b.newStake ((b.vaults a).coll + coll), .active,
      b.vaultOwners.length⟩
    have hstakes := h.stakes
    simp only [Book.opened]
    simp only at htotal
    omega
  · intro u
    by_cases hu : u = a
    · subst hu
      simp [Book.opened]
    · simp only [Book.opened, Function.update_of_ne hu]
      exact h.snapshots u

theorem collected (h : b.Registry xs) : (b.collected a).Registry xs := by
  constructor
  · exact h.linked
  · intro u
    rw [← h.active u]
    by_cases hu : u = a
    · subst hu
      simp [Active, Book.collected]
    · simp [Active, Book.collected, Function.update_of_ne hu]
  · exact h.owners
  · refine h.indexed.congr fun u => ?_
    by_cases hu : u = a
    · subst hu
      simp [Book.collected]
    · simp [Book.collected, Function.update_of_ne hu]
  · intro u hu
    by_cases hua : u = a
    · subst hua
      simp only [Book.collected, Function.update_self, entireColl, entireDebt,
        h.pendingRBTC_of_notMem hu, h.pendingDebt_of_notMem hu, add_zero]
      exact h.inactive u hu
    · simp only [Book.collected, Function.update_of_ne hua]
      exact h.inactive u hu
  · intro u hu
    obtain ⟨hcoll, hdebt⟩ := h.funded u hu
    by_cases hua : u = a
    · subst hua
      simp only [Book.collected, Function.update_self, entireColl, entireDebt]
      omega
    · simp only [Book.collected, Function.update_of_ne hua]
      exact ⟨hcoll, hdebt⟩
  · refine h.stakes.trans (total_update_same Vault.stake b.vaults a _ ?_).symm
    rfl
  · intro u
    by_cases hua : u = a
    · subst hua
      simp [Book.collected]
    · simp only [Book.collected, Function.update_of_ne hua]
      exact h.snapshots u

theorem restaked {coll debt maxSize : ℕ} {p n : Address} {data : SortedVaults}
    {read : Address → Outcome ℕ} (h : b.Registry xs)
    (hdebt : minDebt ≤ (b.vaults a).debt → minDebt ≤ debt)
    (hinsert : SortedVaults.reInsert read maxSize a (nominalCR coll debt) p n b.sortedVaults =
      .ok data) :
    ∃ as bs ys zs, xs = as ++ a :: bs ∧ as ++ bs = ys ++ zs ∧
      SortedVaults.Encloses read (nominalCR coll debt) ys zs ∧
      (b.restaked a coll debt data).Registry (ys ++ a :: zs) := by
  obtain ⟨hpos, as, bs, ys, zs, rfl, hsplit, hencloses, hlinked⟩ :=
    SortedVaults.reInsert_sound h.linked hinsert
  refine ⟨as, bs, ys, zs, rfl, hsplit, hencloses, ?_⟩
  have hperm : ∀ u, u ∈ ys ++ a :: zs ↔ u ∈ as ++ a :: bs := by
    intro u
    have := congrArg (u ∈ ·) hsplit
    simp only [List.mem_append, eq_iff_iff] at this
    simp only [List.mem_append, List.mem_cons]
    tauto
  have hmem : a ∈ as ++ a :: bs := by simp
  have hmin : minDebt ≤ debt := hdebt (h.funded a hmem).2
  have hcoll := coll_pos hpos hmin
  constructor
  · exact hlinked
  · intro u
    rw [hperm, ← h.active u]
    by_cases hu : u = a
    · subst hu
      simp [Active, Book.restaked]
    · simp [Active, Book.restaked, Function.update_of_ne hu]
  · intro u
    rw [hperm]
    exact h.owners u
  · refine h.indexed.congr fun u => ?_
    by_cases hu : u = a
    · subst hu
      simp [Book.restaked]
    · simp [Book.restaked, Function.update_of_ne hu]
  · intro u hu
    rw [hperm] at hu
    have hne : u ≠ a := fun hua => hu (hua ▸ hmem)
    simp only [Book.restaked, Function.update_of_ne hne]
    exact h.inactive u hu
  · intro u hu
    rw [hperm] at hu
    by_cases hua : u = a
    · subst hua
      simp only [Book.restaked, Function.update_self]
      exact ⟨hcoll, hmin⟩
    · simp only [Book.restaked, Function.update_of_ne hua]
      exact h.funded u hu
  · have htotal := total_update Vault.stake b.vaults a
      { b.vaults a with coll := coll, debt := debt, stake := b.newStake coll }
    have hle := le_total Vault.stake b.vaults a
    have hstakes := h.stakes
    simp only [Book.restaked]
    simp only at htotal
    omega
  · exact h.snapshots

theorem closed {moved : Address} {st : Status} {data : SortedVaults} (h : b.Registry xs)
    (hst : st ≠ .active) (hmoved : b.vaultOwners[b.vaultOwners.length - 1]? = some moved)
    (hremove : SortedVaults.remove a b.sortedVaults = .ok data) :
    ∃ ys zs, xs = ys ++ a :: zs ∧ (b.closed a st moved data).Registry (ys ++ zs) := by
  obtain ⟨ys, zs, rfl, hlinked⟩ := SortedVaults.remove_sound h.linked hremove
  refine ⟨ys, zs, rfl, ?_⟩
  have hmem : a ∈ ys ++ a :: zs := by simp
  have hperm : ∀ u, u ∈ ys ++ zs ↔ u ∈ ys ++ a :: zs ∧ u ≠ a := by
    intro u
    have hnodup := h.linked.nodup
    rw [List.nodup_middle, List.nodup_cons] at hnodup
    simp only [List.mem_append, List.mem_cons] at hnodup ⊢
    constructor
    · rintro hu
      refine ⟨by tauto, ?_⟩
      rintro rfl
      exact hnodup.1 hu
    · tauto
  constructor
  · exact hlinked
  · intro u
    rw [hperm, ← h.active u]
    by_cases hu : u = a
    · subst hu
      obtain ⟨i, hi⟩ := @closed_self b u st moved data
      simp [Active, hi, hst]
    · obtain ⟨i, hi⟩ := @closed_of_ne b a u st moved data hu
      simp [Active, hi, hu]
  · intro u
    rw [hperm, ← h.owners u]
    exact h.indexed.mem_swapRemove ((h.owners a).mpr hmem) hmoved
  · refine h.indexed.swapRemove hmoved ?_ (fun u hum hua => ?_)
    · simp [Book.closed]
    · simp [Book.closed, Function.update_of_ne hum, Function.update_of_ne hua]
  · intro u hu
    by_cases hua : u = a
    · subst hua
      obtain ⟨i, hi⟩ := @closed_self b u st moved data
      simp [hi]
    · obtain ⟨i, hi⟩ := @closed_of_ne b a u st moved data hua
      rw [hi]
      exact h.inactive u fun hin => hu ((hperm u).mpr ⟨hin, hua⟩)
  · intro u hu
    obtain ⟨hin, hua⟩ := (hperm u).mp hu
    obtain ⟨i, hi⟩ := @closed_of_ne b a u st moved data hua
    rw [hi]
    exact h.funded u hin
  · have hout := total_update Vault.stake b.vaults a ⟨0, 0, 0, st, (b.vaults a).arrayIndex⟩
    have hin := total_update_same Vault.stake
      (Function.update b.vaults a ⟨0, 0, 0, st, (b.vaults a).arrayIndex⟩) moved
      { Function.update b.vaults a ⟨0, 0, 0, st, (b.vaults a).arrayIndex⟩ moved with
        arrayIndex := (b.vaults a).arrayIndex } rfl
    have hstakes := h.stakes
    simp only [Book.closed]
    rw [hin]
    simp only at hout
    omega
  · intro u
    by_cases hua : u = a
    · subst hua
      simp [Book.closed]
    · simp only [Book.closed, Function.update_of_ne hua]
      exact h.snapshots u

theorem redistributed {debt coll RBTCPerUnit debtPerUnit RBTCError debtError : ℕ}
    (h : b.Registry xs) :
    (b.redistributed debt coll RBTCPerUnit debtPerUnit RBTCError debtError).Registry xs := by
  refine ⟨h.linked, h.active, h.owners, h.indexed, h.inactive, h.funded, h.stakes, fun u => ?_⟩
  obtain ⟨hRBTC, hdebt⟩ := h.snapshots u
  exact ⟨Nat.le_add_right_of_le hRBTC, Nat.le_add_right_of_le hdebt⟩

theorem snapshotted {totalColl : ℕ} (h : b.Registry xs) : (b.snapshotted totalColl).Registry xs :=
  ⟨h.linked, h.active, h.owners, h.indexed, h.inactive, h.funded, h.stakes, h.snapshots⟩

/-- Every move keeps the registry. -/
theorem move (h : b.Registry xs) (hmove : Move P b b') : ∃ ys, b'.Registry ys := by
  cases hmove with
  | opened hinactive hdebt _ _ _ hinsert =>
    obtain ⟨_, _, -, -, h'⟩ := h.opened hinactive hdebt hinsert
    exact ⟨_, h'⟩
  | collected => exact ⟨xs, h.collected⟩
  | restaked _ _ hdebt _ _ hinsert =>
    obtain ⟨_, _, _, _, -, -, -, h'⟩ := h.restaked hdebt hinsert
    exact ⟨_, h'⟩
  | closed hst _ _ _ _ hmoved hremove =>
    obtain ⟨_, _, -, h'⟩ := h.closed hst hmoved hremove
    exact ⟨_, h'⟩
  | redistributed => exact ⟨xs, h.redistributed⟩
  | snapshotted => exact ⟨xs, h.snapshotted⟩

theorem moves (h : b.Registry xs) (hmoves : Moves P b b') : ∃ ys, b'.Registry ys := by
  induction hmoves with
  | refl => exact ⟨xs, h⟩
  | tail _ hmove ih =>
    obtain ⟨ys, hys⟩ := ih
    exact hys.move hmove

end Registry

/-- The first owner makes the array non-empty, and the last one cannot leave it. -/
theorem Move.owners_pos (h : Move P b b') (hpos : 0 < b.vaultOwners.length) :
    0 < b'.vaultOwners.length := by
  cases h with
  | opened => simp [Book.opened]
  | collected => exact hpos
  | restaked => exact hpos
  | closed _ _ hlength =>
    simp only [Book.closed, List.length_dropLast, List.length_set]
    omega
  | redistributed => exact hpos
  | snapshotted => exact hpos

theorem Moves.owners_pos (h : Moves P b b') (hpos : 0 < b.vaultOwners.length) :
    0 < b'.vaultOwners.length := by
  induction h with
  | refl => exact hpos
  | tail _ hmove ih => exact hmove.owners_pos ih

end MoneyProtocol.Book
