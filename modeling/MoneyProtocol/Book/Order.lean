import MoneyProtocol.Book.Runs
import Mathlib.Data.List.Chain
import Mathlib.Data.Nat.ModEq

/-!
# The order of the list

The list is sorted by nominal ratio although the ratios are not stored: they move together
at every redistribution. Each ratio is rounded, so a redistribution keeps the order only of
neighbours that are further apart than the rounding, or alike.
-/

namespace MoneyProtocol.Book

open MoneypMath MoneypBase

variable {b b' : Book} {a u w : Address} {P : Policy} {xs ys zs : List Address}

/-- The list is sorted, the largest nominal ratio first. -/
def Ordered (b : Book) (xs : List Address) : Prop :=
  xs.Pairwise fun u w => b.nominalICR w ≤ b.nominalICR u

theorem nominalCR_le {coll debt coll' debt' : ℕ} (hdebt : 0 < debt) (hdebt' : 0 < debt')
    (h : coll' * debt ≤ coll * debt') : nominalCR coll' debt' ≤ nominalCR coll debt := by
  rw [nominalCR, nominalCR, if_pos hdebt, if_pos hdebt', Nat.le_div_iff_mul_le hdebt]
  refine Nat.le_of_mul_le_mul_right ?_ hdebt'
  calc coll' * NICR_PRECISION / debt' * debt * debt'
      = coll' * NICR_PRECISION / debt' * debt' * debt := by ring
    _ ≤ coll' * NICR_PRECISION * debt := Nat.mul_le_mul_right _ (Nat.div_mul_le_self _ _)
    _ = coll' * debt * NICR_PRECISION := by ring
    _ ≤ coll * debt' * NICR_PRECISION := Nat.mul_le_mul_right _ h
    _ = coll * NICR_PRECISION * debt' := by ring

/-- A ratio depends on the vault, its snapshot and the accumulators. -/
theorem nominalICR_congr {v : Address}
    (hvault : ∃ i, b'.vaults u = { b.vaults v with arrayIndex := i })
    (hsnapshot : b'.rewardSnapshots u = b.rewardSnapshots v) (hRBTC : b'.B_RBTC = b.B_RBTC)
    (hdebt : b'.B_BPDDebt = b.B_BPDDebt) : b'.nominalICR u = b.nominalICR v := by
  obtain ⟨i, hi⟩ := hvault
  simp only [nominalICR, entireColl, entireDebt, pendingRBTC, pendingDebt, hi, hsnapshot, hRBTC,
    hdebt]

theorem Ordered.congr (h : b.Ordered xs) (hsame : ∀ u ∈ xs, b'.nominalICR u = b.nominalICR u) :
    b'.Ordered xs :=
  h.imp_of_mem fun hu hw hle => by rwa [hsame _ hu, hsame _ hw]

/-- The first key of a sorted list has the largest ratio, and the last the smallest. -/
theorem Ordered.le_headD (h : b.Ordered xs) (hu : u ∈ xs) :
    b.nominalICR u ≤ b.nominalICR (xs.headD 0) := by
  cases xs with
  | nil => contradiction
  | cons x xs =>
    rcases List.mem_cons.mp hu with rfl | hu
    · exact le_rfl
    · exact (List.pairwise_cons.mp h).1 u hu

theorem Ordered.getLastD_le (h : b.Ordered xs) (hu : u ∈ xs) :
    b.nominalICR (xs.getLastD 0) ≤ b.nominalICR u := by
  rcases xs.eq_nil_or_concat with rfl | ⟨front, x, rfl⟩
  · contradiction
  · rw [List.concat_eq_append] at h hu ⊢
    rw [List.getLastD_concat]
    rcases List.mem_append.mp hu with hu | hu
    · exact (List.pairwise_append.mp h).2.2 u hu x (by simp)
    · rw [List.mem_singleton.mp hu]

/-- A key goes between neighbours that enclose its ratio. -/
theorem Ordered.insert {read : Address → Outcome ℕ} {NICR : ℕ} (h : b.Ordered (ys ++ zs))
    (ha : a ∉ ys ++ zs) (hread : b.Reads a read) (hencloses : SortedVaults.Encloses read NICR ys zs)
    (hsame : ∀ u, u ≠ a → b'.nominalICR u = b.nominalICR u) (hself : b'.nominalICR a = NICR) :
    b'.Ordered (ys ++ a :: zs) := by
  have hne : ∀ u ∈ ys ++ zs, u ≠ a := fun u hu hua => ha (hua ▸ hu)
  have h' : b'.Ordered (ys ++ zs) := h.congr fun u hu => hsame u (hne u hu)
  obtain ⟨hys, hzs, hcross⟩ := List.pairwise_append.mp h'
  refine List.pairwise_append.mpr ⟨hys, List.pairwise_cons.mpr ⟨fun u hu => ?_, hzs⟩, ?_⟩
  · obtain ⟨r, hr, hle⟩ := hencloses.next (List.ne_nil_of_mem hu)
    have hmem : zs.headD 0 ∈ zs := LinkedList.headD_mem (List.ne_nil_of_mem hu)
    have hfirst := hne _ (List.mem_append_right ys hmem)
    rw [hself]
    calc b'.nominalICR u ≤ b'.nominalICR (zs.headD 0) := Ordered.le_headD hzs hu
      _ = r := by rw [hsame _ hfirst, hread _ _ hfirst hr]
      _ ≤ NICR := hle
  · intro u hu w hw
    rcases List.mem_cons.mp hw with rfl | hw
    · obtain ⟨r, hr, hle⟩ := hencloses.prev (List.ne_nil_of_mem hu)
      have hmem : ys.getLastD 0 ∈ ys := LinkedList.getLastD_mem (List.ne_nil_of_mem hu)
      have hlast := hne _ (List.mem_append_left zs hmem)
      rw [hself]
      calc NICR ≤ r := hle
        _ = b'.nominalICR (ys.getLastD 0) := by rw [hsame _ hlast, hread _ _ hlast hr]
        _ ≤ b'.nominalICR u := Ordered.getLastD_le hys hu
    · exact hcross u hu w hw

/-- What one unit staked gains of a redistributed amount. -/
def perUnit (b : Book) (amount lastError : ℕ) : ℕ :=
  (amount * DECIMAL_PRECISION + lastError) / b.totalStakes

/-- What a vault gains of redistributed collateral, and of redistributed debt, rounded down.
The rewards it has not collected yet can round up by one wei more. -/
def collGain (b : Book) (coll : ℕ) (a : Address) : ℕ :=
  (b.vaults a).stake * b.perUnit coll b.lastRBTCError_Redistribution / DECIMAL_PRECISION

def debtGain (b : Book) (debt : ℕ) (a : Address) : ℕ :=
  (b.vaults a).stake * b.perUnit debt b.lastBPDDebtError_Redistribution / DECIMAL_PRECISION

/-- The ratios stay apart by a wei of collateral and a wei of debt. -/
def Apart (b : Book) (debt coll : ℕ) (u w : Address) : Prop :=
  (b.entireColl w + b.collGain coll w + 1) * (b.entireDebt u + b.debtGain debt u + 1) ≤
    (b.entireColl u + b.collGain coll u) * (b.entireDebt w + b.debtGain debt w)

/-- Two vaults with the same amounts and the same history. -/
structure Alike (b : Book) (u w : Address) : Prop where
  coll : (b.vaults u).coll = (b.vaults w).coll
  debt : (b.vaults u).debt = (b.vaults w).debt
  stake : (b.vaults u).stake = (b.vaults w).stake
  snapshotRBTC : (b.rewardSnapshots u).RBTC = (b.rewardSnapshots w).RBTC
  snapshotDebt : (b.rewardSnapshots u).BPDDebt = (b.rewardSnapshots w).BPDDebt

/-- Rounding cannot turn two neighbours around when `debt` and `coll` are redistributed. -/
def KeepsOrder (b : Book) (debt coll : ℕ) : Prop :=
  ∀ u ∈ b.vaultOwners, SortedVaults.getNext u b.sortedVaults ≠ 0 →
    b.Apart debt coll u (SortedVaults.getNext u b.sortedVaults) ∨
      b.Alike u (SortedVaults.getNext u b.sortedVaults)

/-- A reward that grows is rounded up by one at most. -/
theorem redistributed_pending (stake x n : ℕ) {accumulated snapshot : ℕ}
    (h : snapshot ≤ accumulated) :
    stake * (accumulated - snapshot) / n + stake * x / n ≤
        stake * (accumulated + x - snapshot) / n ∧
      stake * (accumulated + x - snapshot) / n ≤
        stake * (accumulated - snapshot) / n + stake * x / n + 1 := by
  have hsplit : stake * (accumulated + x - snapshot) =
      stake * (accumulated - snapshot) + stake * x := by
    rw [← Nat.mul_add]
    congr 1
    omega
  rw [hsplit]
  exact ⟨Nat.div_add_div_le_add_div, Nat.add_div_le_div_add_div_add_one _ _ _⟩

section

variable {debt coll RBTCPerUnit debtPerUnit RBTCError debtError : ℕ}

theorem perUnit_eq {amount lastError x error : ℕ}
    (h : x * b.totalStakes + error = amount * DECIMAL_PRECISION + lastError)
    (hlt : error < b.totalStakes) : b.perUnit amount lastError = x := by
  unfold perUnit
  rw [← h, Nat.mul_comm, Nat.mul_add_div (by omega), Nat.div_eq_of_lt hlt, Nat.add_zero]

/-- Two neighbours that are apart or alike keep their order. -/
theorem redistributed_le (hxs : b.Registry xs) (hu : u ∈ xs) (hw : w ∈ xs)
    (hRBTC : b.perUnit coll b.lastRBTCError_Redistribution = RBTCPerUnit)
    (hdebt : b.perUnit debt b.lastBPDDebtError_Redistribution = debtPerUnit)
    (h : b.Apart debt coll u w ∨ b.Alike u w) :
    (b.redistributed debt coll RBTCPerUnit debtPerUnit RBTCError debtError).nominalICR w ≤
      (b.redistributed debt coll RBTCPerUnit debtPerUnit RBTCError debtError).nominalICR u := by
  have hactive (v : Address) (hv : v ∈ xs) : (b.vaults v).status = .active := (hxs.active v).mpr hv
  rcases h with hapart | halike
  · have hpos (v : Address) (hv : v ∈ xs) : 0 < (b.vaults v).debt :=
      lt_of_lt_of_le (by decide) (hxs.funded v hv).2
    have hgain (v : Address) (hv : v ∈ xs) :
        b.entireColl v + b.collGain coll v ≤
            (b.redistributed debt coll RBTCPerUnit debtPerUnit RBTCError debtError).entireColl v ∧
          (b.redistributed debt coll RBTCPerUnit debtPerUnit RBTCError debtError).entireColl v ≤
            b.entireColl v + b.collGain coll v + 1 := by
      have := redistributed_pending (b.vaults v).stake RBTCPerUnit DECIMAL_PRECISION
        (hxs.snapshots v).1
      simp only [entireColl, pendingRBTC, collGain, hRBTC, redistributed, hactive v hv, if_true]
      omega
    have howes (v : Address) (hv : v ∈ xs) :
        b.entireDebt v + b.debtGain debt v ≤
            (b.redistributed debt coll RBTCPerUnit debtPerUnit RBTCError debtError).entireDebt v ∧
          (b.redistributed debt coll RBTCPerUnit debtPerUnit RBTCError debtError).entireDebt v ≤
            b.entireDebt v + b.debtGain debt v + 1 := by
      have := redistributed_pending (b.vaults v).stake debtPerUnit DECIMAL_PRECISION
        (hxs.snapshots v).2
      simp only [entireDebt, pendingDebt, debtGain, hdebt, redistributed, hactive v hv, if_true]
      omega
    apply nominalCR_le
    · exact lt_of_lt_of_le (hpos u hu) (Nat.le_add_right _ _)
    · exact lt_of_lt_of_le (hpos w hw) (Nat.le_add_right _ _)
    · exact (Nat.mul_le_mul (hgain w hw).2 (howes u hu).2).trans
        (hapart.trans (Nat.mul_le_mul (hgain u hu).1 (howes w hw).1))
  · have hsame :
        (b.redistributed debt coll RBTCPerUnit debtPerUnit RBTCError debtError).nominalICR u =
        (b.redistributed debt coll RBTCPerUnit debtPerUnit RBTCError debtError).nominalICR w := by
      simp only [nominalICR, entireColl, entireDebt, pendingRBTC, pendingDebt, redistributed,
        hactive u hu, hactive w hw, halike.coll, halike.debt, halike.stake, halike.snapshotRBTC,
        halike.snapshotDebt]
    exact hsame.ge

theorem Ordered.redistributed (hxs : b.Registry xs) (hkeeps : b.KeepsOrder debt coll)
    (hRBTC : b.perUnit coll b.lastRBTCError_Redistribution = RBTCPerUnit)
    (hdebt : b.perUnit debt b.lastBPDDebtError_Redistribution = debtPerUnit) :
    (b.redistributed debt coll RBTCPerUnit debtPerUnit RBTCError debtError).Ordered xs := by
  set b' := b.redistributed debt coll RBTCPerUnit debtPerUnit RBTCError debtError
  have htrans : IsTrans Address fun u w => b'.nominalICR w ≤ b'.nominalICR u :=
    ⟨fun _ _ _ h₁ h₂ => h₂.trans h₁⟩
  unfold Ordered
  rw [← List.isChain_iff_pairwise, List.isChain_iff_forall_rel_of_append_cons_cons]
  intro u w front back hsplit
  have hu : u ∈ xs := by simp [hsplit]
  have hw : w ∈ xs := by simp [hsplit]
  apply redistributed_le hxs hu hw hRBTC hdebt
  have hnext : SortedVaults.getNext u b.sortedVaults = w := by
    have hlinked := hxs.linked.represents
    rw [hsplit] at hlinked
    exact hlinked.next_eq
  have hkept := hkeeps u ((hxs.owners u).mpr hu)
  rw [hnext] at hkept
  apply hkept
  rintro rfl
  exact hxs.linked.represents.null_notMem hw

end

section

variable {coll debt : ℕ} {st : Status} {moved : Address} {data : SortedVaults}

/-- A vault that is up to date has the ratio of its recorded amounts. -/
theorem nominalICR_current (hRBTC : b.B_RBTC ≤ (b.rewardSnapshots a).RBTC)
    (hdebt : b.B_BPDDebt ≤ (b.rewardSnapshots a).BPDDebt) :
    b.nominalICR a = nominalCR (b.vaults a).coll (b.vaults a).debt := by
  simp [nominalICR, entireColl, entireDebt, pendingRBTC, pendingDebt, Nat.sub_eq_zero_of_le hRBTC,
    Nat.sub_eq_zero_of_le hdebt]

theorem nominalICR_opened (h : b.Registry xs) (ha : a ∉ xs) :
    (b.opened a coll debt data).nominalICR a = nominalCR coll debt := by
  obtain ⟨hcoll, hdebt, -⟩ := h.inactive a ha
  rw [nominalICR_current (by simp [Book.opened]) (by simp [Book.opened])]
  simp [Book.opened, hcoll, hdebt]

theorem nominalICR_opened_of_ne (hu : u ≠ a) :
    (b.opened a coll debt data).nominalICR u = b.nominalICR u :=
  nominalICR_congr ⟨_, by simp only [Book.opened, Function.update_of_ne hu]; rfl⟩
    (by simp [Book.opened, Function.update_of_ne hu]) rfl rfl

theorem nominalICR_collected : (b.collected a).nominalICR u = b.nominalICR u := by
  by_cases hu : u = a
  · subst hu
    rw [nominalICR_current (by simp [Book.collected]) (by simp [Book.collected])]
    simp [Book.collected, nominalICR]
  · exact nominalICR_congr ⟨_, by simp only [Book.collected, Function.update_of_ne hu]; rfl⟩
      (by simp [Book.collected, Function.update_of_ne hu]) rfl rfl

theorem nominalICR_restaked (hRBTC : b.B_RBTC ≤ (b.rewardSnapshots a).RBTC)
    (hdebt : b.B_BPDDebt ≤ (b.rewardSnapshots a).BPDDebt) :
    (b.restaked a coll debt data).nominalICR a = nominalCR coll debt := by
  have hcurrent := @nominalICR_current (b.restaked a coll debt data) a hRBTC hdebt
  rw [hcurrent]
  simp [Book.restaked]

theorem nominalICR_restaked_of_ne (hu : u ≠ a) :
    (b.restaked a coll debt data).nominalICR u = b.nominalICR u :=
  nominalICR_congr ⟨_, by simp only [Book.restaked, Function.update_of_ne hu]; rfl⟩ rfl rfl rfl

theorem nominalICR_closed_of_ne (hu : u ≠ a) :
    (b.closed a st moved data).nominalICR u = b.nominalICR u :=
  nominalICR_congr (closed_of_ne hu) (by simp [Book.closed, Function.update_of_ne hu]) rfl rfl

end

/-- The policy of runs that keep the order: no stale vault is restaked, and no redistribution
comes between two neighbours. -/
def Policy.keepsOrder : Policy :=
  ⟨True, fun b debt coll => b.KeepsOrder debt coll, fun _ _ _ => True⟩

theorem Ordered.move (hxs : b.Registry xs) (h : b.Ordered xs) (hmove : Move .keepsOrder b b') :
    ∃ ys, b'.Registry ys ∧ b'.Ordered ys := by
  cases hmove with
  | @opened a coll debt _ _ _ data _ hinactive hdebt _ _ hread hinsert =>
    obtain ⟨ys, zs, rfl, hencloses, hregistry⟩ := hxs.opened hinactive hdebt hinsert
    have ha : a ∉ ys ++ zs := fun hmem => hinactive ((hxs.active a).mpr hmem)
    exact ⟨_, hregistry, h.insert ha hread hencloses (fun _ => nominalICR_opened_of_ne)
      (nominalICR_opened hxs ha)⟩
  | collected => exact ⟨xs, hxs.collected, h.congr fun _ _ => nominalICR_collected⟩
  | @restaked a coll debt _ _ _ data _ hpolicy hnone hdebt _ hread hinsert =>
    obtain ⟨as, bs, ys, zs, rfl, hsplit, hencloses, hregistry⟩ := hxs.restaked hdebt hinsert
    have hrest : b.Ordered (ys ++ zs) := by
      rw [← hsplit]
      exact h.sublist ((List.sublist_cons_self a bs).append_left as)
    have ha : a ∉ ys ++ zs := by
      rw [← hsplit]
      exact (List.nodup_cons.mp (List.nodup_middle.mp hxs.linked.nodup)).1
    have hRBTC := hnone ((hxs.active a).mpr (by simp))
    have hcurrent : b.B_BPDDebt ≤ (b.rewardSnapshots a).BPDDebt := by
      by_contra hlt
      exact hpolicy trivial ⟨hRBTC, not_le.mp hlt⟩
    exact ⟨_, hregistry, hrest.insert ha hread hencloses (fun _ => nominalICR_restaked_of_ne)
      (nominalICR_restaked hRBTC hcurrent)⟩
  | @closed a moved st data hst _ _ _ _ hmoved hremove =>
    obtain ⟨ys, zs, rfl, hregistry⟩ := hxs.closed hst hmoved hremove
    have ha : a ∉ ys ++ zs := (List.nodup_cons.mp (List.nodup_middle.mp hxs.linked.nodup)).1
    refine ⟨_, hregistry, ?_⟩
    apply Ordered.congr (h.sublist ((List.sublist_cons_self a zs).append_left ys))
    rintro u hu
    exact nominalICR_closed_of_ne fun hua => ha (hua ▸ hu)
  | redistributed hpolicy hRBTC hRBTCError hdebt hdebtError =>
    exact ⟨xs, hxs.redistributed, Ordered.redistributed hxs hpolicy (perUnit_eq hRBTC hRBTCError)
      (perUnit_eq hdebt hdebtError)⟩
  | snapshotted => exact ⟨xs, hxs.snapshotted, h.congr fun _ _ => rfl⟩

theorem Ordered.moves (hxs : b.Registry xs) (h : b.Ordered xs)
    (hmoves : Moves .keepsOrder b b') : ∃ ys, b'.Registry ys ∧ b'.Ordered ys := by
  induction hmoves with
  | refl => exact ⟨xs, hxs, h⟩
  | tail _ hmove ih =>
    obtain ⟨ys, hys, h⟩ := ih
    exact h.move hys hmove

end MoneyProtocol.Book
