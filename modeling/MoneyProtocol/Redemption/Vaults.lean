import MoneyProtocol.Redemption.Lots

/-!
# What a redemption leaves of the vaults

A vault with a lot is closed and its owner credited the rest of the collateral, or, where the
amount runs out in it, keeps the rest of both. Every other vault keeps what it has recorded, but
for the rewards that are applied where a last lot is cancelled.
-/

namespace MoneyProtocol

open Outcome MoneypMath MoneypBase

namespace Book

variable {b : Book} {a : Address} {price NICR n amount : ℕ} {xs ys : List Address}

/-- The lots are of vaults from `a` upwards, one after the other. -/
theorem lots_initial (h : SortedVaults.Linked b.sortedVaults (xs ++ a :: ys)) :
    (b.lots price NICR n a amount).map Lot.vault <+: a :: xs.reverse := by
  induction n generalizing a amount xs ys with
  | zero => exact List.nil_prefix
  | succ n ih =>
    by_cases hvisit : a ≠ 0 ∧ amount > 0
    · by_cases hless : amount < b.redeemable a
      · by_cases hpart : b.TakesPart price NICR a amount
        · rw [lots_part hvisit hless hpart]
          exact List.prefix_append [a] _
        · rw [lots_cancelled hless hpart]
          exact List.nil_prefix
      · have hprev : SortedVaults.getPrev a b.sortedVaults = xs.getLastD 0 := h.represents.prev_eq
        rw [lots_full hvisit (Nat.not_lt.mp hless), hprev, List.map_cons, List.prefix_cons_inj]
        rcases xs.eq_nil_or_concat with rfl | ⟨front, p, rfl⟩
        · have hend : ([] : List Address).getLastD 0 = 0 := rfl
          rw [hend, lots_idle fun hzero => hzero.1 rfl]
          exact List.nil_prefix
        · rw [List.concat_eq_append] at h ⊢
          rw [List.getLastD_concat, List.reverse_append]
          rw [List.append_assoc] at h
          exact ih h
    · rw [lots_idle hvisit]
      exact List.nil_prefix

theorem lots_vault_mem (h : SortedVaults.Linked b.sortedVaults (xs ++ a :: ys)) {l : Lot}
    (hl : l ∈ b.lots price NICR n a amount) : l.vault = a ∨ l.vault ∈ xs := by
  have hmem := (lots_initial h).subset (List.mem_map_of_mem hl)
  rw [List.mem_cons, List.mem_reverse] at hmem
  exact hmem

theorem lots_nodup (h : SortedVaults.Linked b.sortedVaults (xs ++ a :: ys)) :
    ((b.lots price NICR n a amount).map Lot.vault).Nodup := by
  apply (lots_initial h).sublist.nodup
  have hnodup := h.nodup
  rw [List.nodup_append] at hnodup
  rw [List.nodup_cons, List.mem_reverse, List.nodup_reverse]
  refine ⟨fun ha => ?_, hnodup.1⟩
  exact hnodup.2.2 a ha a List.mem_cons_self rfl

/-- All lots but the last take all there is to redeem. -/
theorem lots_full_of_dropLast {l : Lot} (hl : l ∈ (b.lots price NICR n a amount).dropLast) :
    l.BPD = b.redeemable l.vault := by
  induction n generalizing a amount with
  | zero => exact absurd hl List.not_mem_nil
  | succ n ih =>
    by_cases hvisit : a ≠ 0 ∧ amount > 0
    · by_cases hless : amount < b.redeemable a
      · by_cases hpart : b.TakesPart price NICR a amount
        · rw [lots_part hvisit hless hpart] at hl
          exact absurd hl List.not_mem_nil
        · rw [lots_cancelled hless hpart] at hl
          exact absurd hl List.not_mem_nil
      · rw [lots_full hvisit (Nat.not_lt.mp hless)] at hl
        cases hrest : b.lots price NICR n (SortedVaults.getPrev a b.sortedVaults)
            (amount - b.redeemable a) with
        | nil =>
          rw [hrest] at hl
          exact absurd hl List.not_mem_nil
        | cons l' ls =>
          rw [hrest, List.dropLast_cons_cons, List.mem_cons, ← hrest] at hl
          rcases hl with rfl | hl
          · rfl
          · exact ih hl
    · rw [lots_idle hvisit] at hl
      exact absurd hl List.not_mem_nil

namespace Untouched

variable {b' : Book}

theorem coll (h : Untouched b b' a) : (b'.vaults a).coll = (b.vaults a).coll := by
  obtain ⟨i, hi⟩ := h.vault
  rw [hi]

theorem debt (h : Untouched b b' a) : (b'.vaults a).debt = (b.vaults a).debt := by
  obtain ⟨i, hi⟩ := h.vault
  rw [hi]

theorem redeemable (h : Untouched b b' a) : b'.redeemable a = b.redeemable a := by
  unfold Book.redeemable
  rw [h.appliedDebt]

end Untouched

end Book

namespace VaultManager

open Book

variable {d : Deployment} {s s' s₁ : State} {a u : Address} {price n coll debt NICR : ℕ}
  {b₀ : Book} {hints : RedemptionHints} {t t' : RedemptionTotals} {xs zs : List Address} {l : Lot}
  {amount : ℕ}

/-- What becomes of a vault with a lot. -/
inductive Taken (price : ℕ) (s s' : State) (l : Lot) : Prop
  | closed (hall : l.BPD = s.book.redeemable l.vault)
      (hreserve : BPD_GAS_COMPENSATION ≤ s.book.appliedDebt l.vault)
      (hcoll : l.RBTC price ≤ s.book.entireColl l.vault)
      (hstatus : (s'.vault l.vault).status = .closedByRedemption)
      (hcredit : s'.credits l.vault = s.credits l.vault +
        (s.book.entireColl l.vault - l.RBTC price))
  | part (hleft : minDebt ≤ s.book.appliedDebt l.vault - l.BPD)
      (hdebt : (s'.vault l.vault).debt + l.BPD = s.book.appliedDebt l.vault)
      (hcoll : (s'.vault l.vault).coll + l.RBTC price = s.book.entireColl l.vault)
      (hstatus : (s'.vault l.vault).status = (s.vault l.vault).status)
      (hcredit : s'.credits l.vault = s.credits l.vault)

/-- A vault without a lot keeps what it has recorded, or has its rewards applied. -/
structure Spared (s s' : State) (u : Address) : Prop where
  record : (s'.vault u).coll = (s.vault u).coll ∧ (s'.vault u).debt = (s.vault u).debt ∨
    (s'.vault u).coll = s.book.entireColl u ∧ (s'.vault u).debt = s.book.appliedDebt u
  status : (s'.vault u).status = (s.vault u).status
  credit : s'.credits u = s.credits u

theorem Spared.of_untouched (h : Untouched s.book s'.book u)
    (hcredit : s'.credits u = s.credits u) : Spared s s' u :=
  ⟨.inl ⟨h.coll, h.debt⟩, h.status, hcredit⟩

/-- What happens to a vault that was not touched before. -/
theorem Spared.later (hsame : Untouched s.book s₁.book u) (hcredit : s₁.credits u = s.credits u)
    (h : Spared s₁ s' u) : Spared s s' u := by
  refine ⟨?_, h.status.trans hsame.status, h.credit.trans hcredit⟩
  rcases h.record with ⟨hcoll, hdebt⟩ | ⟨hcoll, hdebt⟩
  · exact .inl ⟨hcoll.trans hsame.coll, hdebt.trans hsame.debt⟩
  · exact .inr ⟨hcoll.trans hsame.entireColl, hdebt.trans hsame.appliedDebt⟩

theorem Taken.later (hsame : Untouched s.book s₁.book l.vault)
    (hcredit : s₁.credits l.vault = s.credits l.vault) (h : Taken price s₁ s' l) :
    Taken price s s' l := by
  cases h with
  | closed hall hreserve hcoll hstatus hcredit' =>
    rw [hsame.redeemable] at hall
    rw [hsame.appliedDebt] at hreserve
    rw [hsame.entireColl] at hcoll hcredit'
    rw [hcredit] at hcredit'
    exact .closed hall hreserve hcoll hstatus hcredit'
  | part hleft hdebt hcoll hstatus hcredit' =>
    rw [hsame.appliedDebt] at hleft hdebt
    rw [hsame.entireColl] at hcoll
    exact .part hleft hdebt hcoll (hstatus.trans hsame.status) (hcredit'.trans hcredit)

theorem applyPendingRewards_untouched (hu : u ≠ a) (h : applyPendingRewards d a s = .ok s') :
    Untouched s.book s'.book u := by
  rcases applyPendingRewards_book (P := .any) h with ⟨-, -, hbook⟩ | ⟨-, rfl⟩
  · rw [hbook]
    exact .collected hu
  · exact .refl _ _

/-- The vault that the amount runs out in. -/
theorem redeemPartially_record (h : redeemPartially d a coll debt NICR hints s = .ok s') :
    (s'.vault a).coll = coll ∧ (s'.vault a).debt = debt ∧
      ∀ u, u ≠ a → Untouched s.book s'.book u := by
  simp only [redeemPartially, bind_ok] at h
  obtain ⟨_, hinsert, hstake⟩ := h
  obtain ⟨_, -, rfl⟩ := BorrowerOperations.reInsertSorted_ok hinsert
  obtain ⟨-, hbook⟩ := updateStakeAndTotalStakes_book hstake
  have hvault : s'.vault a = s'.book.vaults a := rfl
  rw [hvault, hbook]
  refine ⟨by simp [setVault, State.vault], by simp [setVault, State.vault], fun u hu => ?_⟩
  refine ⟨⟨(s.vault u).arrayIndex, ?_⟩, rfl, rfl, rfl⟩
  simp [setVault, setSortedVaults, State.vault, State.book, Function.update_of_ne hu]

/-- The vault that all is taken from. -/
theorem redeemFully_taken (hahead : SameAhead b₀ s.book a xs) (hzs : s.book.Registry zs)
    (hpending : applyPendingRewards d a s = .ok s₁)
    (h : redeemFully d a (b₀.entireColl a - (⟨a, b₀.redeemable a⟩ : Lot).RBTC price) s₁ = .ok s') :
    Closes (redemptionSurplus price) .closedByRedemption s s' a ∧ ∃ ys, s'.book.Registry ys := by
  constructor
  · apply redeemFully_closes hzs hpending _ h
    unfold redemptionSurplus Lot.RBTC redeemable
    rw [hahead.entireColl, hahead.appliedDebt]
  · obtain ⟨w, x, hstake, hclose, hbook⟩ := redeemFully_book h
    have hmove : Move .any s₁.book s'.book :=
      hbook ▸ removeStake_closeVault_move (applyPendingRewards_none hpending) hstake hclose
    exact hzs.moves ((applyPendingRewards_moves (P := .any) hpending).tail hmove)

theorem SameAhead.prev_mem (hahead : SameAhead b₀ s.book a xs)
    (hprev : SortedVaults.getPrev a b₀.sortedVaults ≠ 0) :
    SortedVaults.getPrev a b₀.sortedVaults ∈ xs := by
  rw [hahead.getPrev.2] at hprev ⊢
  rcases xs.eq_nil_or_concat with rfl | ⟨front, p, rfl⟩
  · exact absurd rfl hprev
  · rw [List.concat_eq_append, List.getLastD_concat]
    exact List.mem_append_right _ List.mem_cons_self

theorem SameAhead.notMem (hahead : SameAhead b₀ s.book a xs) : a ∉ xs := by
  obtain ⟨ys, hlinked⟩ := hahead.before
  intro ha
  exact (List.nodup_append.mp hlinked.nodup).2.2 a ha a List.mem_cons_self rfl

/-- After the loop has gone past a vault, it leaves it alone. -/
theorem redeemLoop_behind (hahead : a = 0 ∨ SameAhead b₀ s.book a xs) (hzs : s.book.Registry zs)
    (hu : a ≠ 0 → u ≠ a ∧ u ∉ xs) (h : redeemLoop d price hints n a t s = .ok (t', s')) :
    Untouched s.book s'.book u ∧ s'.credits u = s.credits u := by
  induction n generalizing a t s xs zs with
  | zero =>
    simp only [redeemLoop, pure_ok, Prod.mk.injEq] at h
    rw [h.2]
    exact ⟨.refl _ _, rfl⟩
  | succ n ih =>
    by_cases hvisit : a ≠ 0 ∧ t.remainingBPD > 0
    · obtain ⟨hua, huxs⟩ := hu hvisit.1
      have hahead := hahead.resolve_left hvisit.1
      obtain ⟨s₁, hpending, hround⟩ := redeemLoop_visit hvisit hahead h
      have hsame := applyPendingRewards_untouched hua hpending
      have hcredit := congrFun (credits_of_standing (applyPendingRewards_standing hpending)) u
      cases hround with
      | cancelled _ _ _ hs =>
        rw [hs]
        exact ⟨hsame, hcredit⟩
      | part _ _ _ _ hs =>
        exact ⟨hsame.trans ((redeemPartially_record hs).2.2 u hua),
          (redeemPartially_status hs u).2.trans hcredit⟩
      | full _ _ _ hs hrest hnext =>
        obtain ⟨hcloses, ys, hys⟩ := redeemFully_taken hahead hzs hpending hs
        have hfront (hprev : SortedVaults.getPrev a b₀.sortedVaults ≠ 0) :
            u ≠ SortedVaults.getPrev a b₀.sortedVaults ∧ u ∉ xs.dropLast := by
          constructor
          · intro heq
            rw [heq] at huxs
            exact huxs (SameAhead.prev_mem hahead hprev)
          · exact fun hmem => huxs (List.mem_of_mem_dropLast hmem)
        obtain ⟨hlater, hcredits⟩ := ih hnext hys hfront hrest
        exact ⟨(hcloses.others u hua).trans hlater, hcredits.trans (hcloses.credits u hua)⟩
    · rw [redeemLoop_idle hvisit, Except.ok.injEq, Prod.mk.injEq] at h
      rw [h.2]
      exact ⟨.refl _ _, rfl⟩

/-- Where the redemption is cancelled, the vault has its rewards applied. -/
theorem applyPendingRewards_spared (h : applyPendingRewards d a s = .ok s') (u : Address) :
    Spared s s' u := by
  have hcredits := credits_of_standing (applyPendingRewards_standing h)
  by_cases hu : u = a
  · rw [hu]
    exact ⟨.inr ⟨applyPendingRewards_coll h, applyPendingRewards_debt h⟩,
      applyPendingRewards_status h a, congrFun hcredits a⟩
  · exact .of_untouched (applyPendingRewards_untouched hu h) (congrFun hcredits u)

/-- The lot that the amount runs out in. -/
theorem redeemPartially_taken (hahead : SameAhead b₀ s.book a xs)
    (hpending : applyPendingRewards d a s = .ok s₁)
    (hless : amount < b₀.redeemable a) (hpart : minDebt ≤ b₀.appliedDebt a - amount)
    (hRBTC : (⟨a, amount⟩ : Lot).RBTC price ≤ b₀.entireColl a)
    (h : redeemPartially d a (b₀.entireColl a - (⟨a, amount⟩ : Lot).RBTC price)
      (b₀.appliedDebt a - amount) NICR hints s₁ = .ok s') :
    Taken price s s' ⟨a, amount⟩ ∧ ∀ u, u ≠ a → Spared s s' u := by
  obtain ⟨hcoll', hdebt', hothers⟩ := redeemPartially_record h
  have hcredits := credits_of_standing (applyPendingRewards_standing hpending)
  constructor
  · obtain ⟨hstatus', hcredit'⟩ := redeemPartially_status h a
    have hsmall : amount ≤ b₀.appliedDebt a := by
      unfold redeemable at hless
      omega
    rw [← hahead.appliedDebt] at hdebt' hsmall hpart
    rw [← hahead.entireColl] at hcoll' hRBTC
    refine .part hpart ?_ ?_ (hstatus'.trans (applyPendingRewards_status hpending a))
      (hcredit'.trans (congrFun hcredits a))
    · dsimp only
      rw [hdebt', Nat.sub_add_cancel hsmall]
    · rw [hcoll', Nat.sub_add_cancel hRBTC]
  · intro u hu
    apply Spared.of_untouched
    · exact (applyPendingRewards_untouched hu hpending).trans (hothers u hu)
    · exact (redeemPartially_status h u).2.trans (congrFun hcredits u)

/-- A vault that was closed is not met again. -/
theorem SameAhead.behind (hahead : SameAhead b₀ s.book a xs)
    (hprev : SortedVaults.getPrev a b₀.sortedVaults ≠ 0) :
    a ≠ SortedVaults.getPrev a b₀.sortedVaults ∧ a ∉ xs.dropLast := by
  have hnot := SameAhead.notMem hahead
  refine ⟨fun heq => hnot ?_, fun hmem => hnot (List.mem_of_mem_dropLast hmem)⟩
  have hmem := SameAhead.prev_mem hahead hprev
  rw [← heq] at hmem
  exact hmem

theorem SameAhead.lots_ne (hahead : SameAhead b₀ s.book a xs) (ha : a ≠ 0)
    (hnext : SortedVaults.getPrev a b₀.sortedVaults = 0 ∨
      SameAhead b₀ s'.book (SortedVaults.getPrev a b₀.sortedVaults) xs.dropLast)
    (hl : l ∈ b₀.lots price NICR n (SortedVaults.getPrev a b₀.sortedVaults) amount) :
    l.vault ≠ a := by
  intro heq
  have hnot := SameAhead.notMem hahead
  have hnextAhead := hnext.resolve_left fun hzero => by
    rw [hzero, lots_idle fun hvisit => hvisit.1 rfl] at hl
    exact absurd hl List.not_mem_nil
  obtain ⟨zs, hlinked⟩ := hnextAhead.before
  rcases lots_vault_mem hlinked hl with hfirst | hmem
  · apply hnot
    rw [← heq, hfirst]
    apply SameAhead.prev_mem hahead
    rw [← hfirst, heq]
    exact ha
  · exact hnot (heq ▸ List.mem_of_mem_dropLast hmem)

/-- The loop takes the lots, and spares the other vaults. -/
theorem redeemLoop_vaults (hahead : a = 0 ∨ SameAhead b₀ s.book a xs) (hzs : s.book.Registry zs)
    (h : redeemLoop d price hints n a t s = .ok (t', s')) :
    (∀ l ∈ b₀.lots price hints.partialRedemptionHintNICR n a t.remainingBPD, Taken price s s' l) ∧
      ∀ u, u ∉ (b₀.lots price hints.partialRedemptionHintNICR n a t.remainingBPD).map Lot.vault →
        Spared s s' u := by
  have hspared (s : State) (u : Address) : Spared s s u := .of_untouched (.refl _ _) rfl
  induction n generalizing a t s xs zs with
  | zero =>
    simp only [redeemLoop, pure_ok, Prod.mk.injEq] at h
    rw [h.2]
    exact ⟨fun l hl => absurd hl List.not_mem_nil, fun u _ => hspared _ u⟩
  | succ n ih =>
    by_cases hvisit : a ≠ 0 ∧ t.remainingBPD > 0
    · have hahead := hahead.resolve_left hvisit.1
      obtain ⟨s₁, hpending, hround⟩ := redeemLoop_visit hvisit hahead h
      cases hround with
      | cancelled hless hpart _ hs =>
        rw [lots_cancelled hless hpart, hs]
        exact ⟨fun l hl => absurd hl List.not_mem_nil,
          fun u _ => applyPendingRewards_spared hpending u⟩
      | part hless hpart hRBTC _ hs =>
        obtain ⟨htaken, hothers⟩ := redeemPartially_taken hahead hpending hless hpart.2 hRBTC hs
        rw [lots_part hvisit hless hpart]
        constructor
        · intro l hl
          rw [List.mem_singleton.mp hl]
          exact htaken
        · intro u hu
          rw [List.map_singleton, List.mem_singleton] at hu
          exact hothers u hu
      | full hle hreserve hRBTC hs hrest hnext =>
        obtain ⟨hcloses, ys, hys⟩ := redeemFully_taken hahead hzs hpending hs
        obtain ⟨htaken, hothers⟩ := ih hnext hys hrest
        rw [lots_full hvisit hle]
        constructor
        · intro l hl
          rcases List.mem_cons.mp hl with rfl | hl
          · obtain ⟨hlater, hcredit⟩ := redeemLoop_behind hnext hys (SameAhead.behind hahead) hrest
            refine .closed ?_ ?_ ?_ (hlater.status.trans hcloses.status) ?_
            · dsimp only
              unfold redeemable
              rw [hahead.appliedDebt]
            · dsimp only
              rw [hahead.appliedDebt]
              exact hreserve
            · rw [← hahead.entireColl] at hRBTC
              exact hRBTC
            · rw [hcredit, hcloses.credit]
              unfold redemptionSurplus Lot.RBTC redeemable
              rw [hahead.appliedDebt]
          · have hne := SameAhead.lots_ne hahead hvisit.1 hnext hl
            exact (htaken l hl).later (hcloses.others _ hne) (hcloses.credits _ hne)
        · intro u hu
          rw [List.map_cons, List.mem_cons, not_or] at hu
          exact (hothers u hu.2).later (hcloses.others u hu.1) (hcloses.credits u hu.1)
    · rw [redeemLoop_idle hvisit, Except.ok.injEq, Prod.mk.injEq] at h
      rw [h.2, lots_idle hvisit]
      exact ⟨fun l hl => absurd hl List.not_mem_nil, fun u _ => hspared _ u⟩

end VaultManager

end MoneyProtocol
