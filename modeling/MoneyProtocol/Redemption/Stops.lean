import MoneyProtocol.Redemption.Vaults
import MoneyProtocol.Safety.RedemptionHints

/-!
# Where the hints stop

The walk of the hints ends inside a vault that has more debt than is left to redeem, after its
last iteration, or at the end of the list. The amount it gives back does not say which. Only in
the first case does the minimum net debt close the gap to the next sum of whole vaults, unless
debt was hidden on the way.
-/

namespace MoneyProtocol

open Outcome MoneypMath MoneypBase HintHelpers

namespace SortedVaults

/-- In front of a vault is another one, or the end of the list. -/
theorem Linked.getPrev_mem {data : SortedVaults} {zs : List Address} {a : Address}
    (h : Linked data zs) (ha : a ∈ zs) : getPrev a data = 0 ∨ getPrev a data ∈ zs := by
  obtain ⟨front, ys, rfl⟩ := List.append_of_mem ha
  have hprev : getPrev a data = front.getLastD 0 := h.represents.prev_eq
  rw [hprev]
  rcases front.eq_nil_or_concat with rfl | ⟨front, p, rfl⟩
  · exact .inl rfl
  · rw [List.concat_eq_append, List.getLastD_concat]
    simp

end SortedVaults

namespace Book

variable {b : Book} {a : Address} {price NICR n k amount hidden v : ℕ} {zs : List Address}

/-- The debt of a vault that the hints count, and the redemption does not see. -/
def hiddenDebt (b : Book) (a : Address) : ℕ := b.entireDebt a - b.appliedDebt a

/-- Where the walk of the hints has stopped inside a vault: the vault in front of it, the
iterations that are left, and the debt hidden on the way. -/
structure Stop where
  next : Address
  iterations : ℕ
  hidden : ℕ

/-- The walk of the hints from `a` upwards, with `hidden` debt on the way to it. -/
def stop (b : Book) : ℕ → Address → ℕ → ℕ → Option Stop
  | 0, _, _, _ => none
  | n + 1, a, amount, hidden =>
    if a ≠ 0 ∧ amount > 0 then
      let netBPDDebt := b.entireDebt a - BPD_GAS_COMPENSATION
      let next := SortedVaults.getPrev a b.sortedVaults
      if netBPDDebt > amount then some ⟨next, n, hidden + b.hiddenDebt a⟩
      else stop b n next (amount - netBPDDebt) (hidden + b.hiddenDebt a)
    else none

/-- All that can be redeemed of some vaults from `a` upwards is just this amount. -/
def AddsUp (b : Book) : ℕ → Address → ℕ → Prop
  | 0, _, amount => amount = 0
  | n + 1, a, amount => amount = 0 ∨ (a ≠ 0 ∧ b.redeemable a ≤ amount ∧
      AddsUp b n (SortedVaults.getPrev a b.sortedVaults) (amount - b.redeemable a))

instance AddsUp.decidable (b : Book) :
    (n : ℕ) → (a : Address) → (amount : ℕ) → Decidable (b.AddsUp n a amount)
  | 0, _, amount => inferInstanceAs (Decidable (amount = 0))
  | n + 1, a, amount =>
    haveI := AddsUp.decidable b n (SortedVaults.getPrev a b.sortedVaults)
      (amount - b.redeemable a)
    inferInstanceAs (Decidable (_ ∨ _))

/-- The walk stops inside a vault, and what was hidden on the way is redeemed of the vaults in
front of it. Where nothing was hidden, that is none of them. -/
def StopsInside (b : Book) (n : ℕ) (a : Address) (amount : ℕ) : Prop :=
  ∃ e ∈ b.stop n a amount 0, b.AddsUp e.iterations e.next e.hidden

instance (b : Book) (n : ℕ) (a : Address) (amount : ℕ) : Decidable (b.StopsInside n a amount) :=
  inferInstanceAs (Decidable (∃ e ∈ b.stop n a amount 0, b.AddsUp e.iterations e.next e.hidden))

theorem le_appliedDebt : (b.vaults a).debt ≤ b.appliedDebt a := by
  unfold appliedDebt
  split_ifs
  · exact Nat.le_add_right _ _
  · exact le_rfl

/-- No vault in the list has less than the minimum to redeem. -/
theorem Registry.le_redeemable (h : b.Registry zs) (ha : a ∈ zs) :
    MIN_NET_DEBT ≤ b.redeemable a ∧ b.redeemable a + BPD_GAS_COMPENSATION = b.appliedDebt a := by
  have hfunded := (h.funded a ha).2
  have happlied : (b.vaults a).debt ≤ b.appliedDebt a := le_appliedDebt
  have hmin : minDebt = MIN_NET_DEBT + BPD_GAS_COMPENSATION := rfl
  unfold redeemable
  omega

theorem addsUp_zero : b.AddsUp n a 0 := by
  cases n with
  | zero => rfl
  | succ n => exact .inl rfl

theorem addsUp_nowhere : b.AddsUp n 0 amount ↔ amount = 0 := by
  cases n with
  | zero => exact Iff.rfl
  | succ n =>
    constructor
    · rintro (h | ⟨h, -⟩)
      · exact h
      · exact absurd rfl h
    · exact Or.inl

theorem addsUp_succ (hpos : 0 < amount) : b.AddsUp (n + 1) a amount ↔ a ≠ 0 ∧
    b.redeemable a ≤ amount ∧
      b.AddsUp n (SortedVaults.getPrev a b.sortedVaults) (amount - b.redeemable a) := by
  rw [AddsUp, or_iff_right hpos.ne']

/-- Whole lots redeem the amount if it is the sum of whole vaults. -/
theorem redeemedBy_lots_iff
    (hfull : ∀ l ∈ b.lots price NICR n a amount, l.BPD = b.redeemable l.vault) :
    redeemedBy (b.lots price NICR n a amount) = amount ↔ b.AddsUp n a amount := by
  induction n generalizing a amount with
  | zero => exact eq_comm
  | succ n ih =>
    by_cases hvisit : a ≠ 0 ∧ amount > 0
    · rw [addsUp_succ hvisit.2]
      by_cases hless : amount < b.redeemable a
      · have hnone : redeemedBy (b.lots price NICR (n + 1) a amount) ≠ amount := by
          by_cases hpart : b.TakesPart price NICR a amount
          · rw [lots_part hvisit hless hpart] at hfull
            exact absurd (hfull _ (List.mem_singleton_self _)) hless.ne
          · rw [lots_cancelled hless hpart]
            exact hvisit.2.ne
        constructor
        · exact fun h => absurd h hnone
        · exact fun h => absurd h.2.1 (Nat.not_le.mpr hless)
      · have hle := Nat.not_lt.mp hless
        rw [lots_full hvisit hle] at hfull ⊢
        rw [← ih fun l hl => hfull l (List.mem_cons_of_mem _ hl)]
        rw [redeemedBy, List.map_cons, List.sum_cons, ← redeemedBy]
        dsimp only
        constructor
        · intro h
          exact ⟨hvisit.1, hle, Nat.eq_sub_of_add_eq' h⟩
        · rintro ⟨-, -, h⟩
          rw [h, Nat.add_sub_cancel' hle]
    · rw [lots_idle hvisit]
      have hzero : redeemedBy [] = 0 := rfl
      rw [hzero]
      constructor
      · rintro rfl
        exact addsUp_zero
      · intro h
        by_cases ha : a = 0
        · rw [ha, addsUp_nowhere] at h
          exact h.symm
        · by_contra hne
          exact hvisit ⟨ha, Nat.pos_of_ne_zero (Ne.symm hne)⟩

/-- Between a sum of whole vaults and the minimum net debt below it, there is nothing that can be
redeemed exactly, whatever ratio is hinted. -/
theorem redeemedBy_lots_ne (hzs : b.Registry zs) (ha : a = 0 ∨ a ∈ zs) (hsum : b.AddsUp k a amount)
    (hlow : amount < v + MIN_NET_DEBT) (hhigh : v < amount) :
    redeemedBy (b.lots price NICR n a v) ≠ v := by
  induction n generalizing a k amount v with
  | zero =>
    have hzero : redeemedBy (b.lots price NICR 0 a v) = 0 := rfl
    rw [hzero]
    rintro rfl
    cases k with
    | zero => exact hhigh.ne' hsum
    | succ k =>
      obtain ⟨hne, hle, -⟩ := (addsUp_succ hhigh).mp hsum
      have := (hzs.le_redeemable (ha.resolve_left hne)).1
      omega
  | succ n ih =>
    cases k with
    | zero =>
      have : amount = 0 := hsum
      omega
    | succ k =>
      obtain ⟨hne, hle, hrest⟩ := (addsUp_succ (Nat.zero_lt_of_lt hhigh)).mp hsum
      have hmem := ha.resolve_left hne
      obtain ⟨hmin, happlied⟩ := hzs.le_redeemable hmem
      have hminDebt : minDebt = MIN_NET_DEBT + BPD_GAS_COMPENSATION := rfl
      have hvisit : a ≠ 0 ∧ v > 0 := ⟨hne, by omega⟩
      by_cases hless : v < b.redeemable a
      · have hcancelled : ¬b.TakesPart price NICR a v := by
          intro hpart
          have := hpart.2
          omega
        rw [lots_cancelled hless hcancelled]
        exact hvisit.2.ne
      · have hle' := Nat.not_lt.mp hless
        have hrestNe := @ih _ _ _ (v - b.redeemable a) (hzs.linked.getPrev_mem hmem) hrest
          (by omega) (by omega)
        rw [lots_full hvisit hle', redeemedBy, List.map_cons, List.sum_cons, ← redeemedBy]
        dsimp only
        omega

end Book

namespace HintHelpers

open Book VaultManager

variable {s : State} {a : Address} {price n amount : ℕ} {w : HintWalk} {zs : List Address}

/-- What the walk leaves out comes, with the minimum net debt, to whole vaults if and only if it
has stopped inside a vault. -/
theorem hintLoop_addsUp_iff (hidden : ℕ) (hzs : s.book.Registry zs) (ha : a = 0 ∨ a ∈ zs)
    (hwalk : hintLoop price s n a amount = .ok w) (hrest : 0 < w.remainingBPD) :
    s.book.AddsUp n a (amount - w.remainingBPD + MIN_NET_DEBT + hidden) ↔
      ∃ e ∈ s.book.stop n a amount hidden, s.book.AddsUp e.iterations e.next e.hidden := by
  have hpos : 0 < MIN_NET_DEBT := by decide
  induction n generalizing a amount hidden with
  | zero =>
    constructor
    · intro h
      have : amount - w.remainingBPD + MIN_NET_DEBT + hidden = 0 := h
      omega
    · rintro ⟨e, he, -⟩
      contradiction
  | succ n ih =>
    rw [addsUp_succ (by omega), stop]
    rcases hintLoop_succ hwalk with ⟨hidle, rfl⟩ | ⟨hvisit, -, hround⟩
    · have hzero : a = 0 := by
        by_contra hne
        exact hidle ⟨hne, hrest⟩
      rw [if_neg hidle]
      constructor
      · exact fun h => absurd hzero h.1
      · rintro ⟨e, he, -⟩
        contradiction
    · rw [if_pos hvisit]
      have hmem := ha.resolve_left hvisit.1
      obtain ⟨hmin, happlied⟩ := hzs.le_redeemable hmem
      have hentire : s.book.appliedDebt a ≤ s.book.entireDebt a := appliedDebt_le
      have hhidden : s.book.hiddenDebt a = s.book.entireDebt a - s.book.appliedDebt a := rfl
      rcases hround with ⟨hlt, hpart⟩ | ⟨hle, hnext⟩
      · have hgap : amount - w.remainingBPD + MIN_NET_DEBT =
            s.book.entireDebt a - BPD_GAS_COMPENSATION := by
          rcases hintPartially_ok hpart with ⟨hleft, rfl⟩ | ⟨lot, hlot, hexcess, hleft, -⟩
          · dsimp only
            omega
          · omega
        have hseen : amount - w.remainingBPD + MIN_NET_DEBT + hidden - s.book.redeemable a =
            hidden + s.book.hiddenDebt a := by
          omega
        rw [if_pos hlt, hseen]
        constructor
        · rintro ⟨-, -, h⟩
          exact ⟨_, rfl, h⟩
        · rintro ⟨e, he, h⟩
          obtain rfl := Option.some.inj he
          exact ⟨hvisit.1, by omega, h⟩
      · have htaken := hintLoop_le hnext
        have hseen : amount - w.remainingBPD + MIN_NET_DEBT + hidden - s.book.redeemable a =
            amount - (s.book.entireDebt a - BPD_GAS_COMPENSATION) - w.remainingBPD +
              MIN_NET_DEBT + (hidden + s.book.hiddenDebt a) := by
          omega
        have hlater := ih (hidden + s.book.hiddenDebt a) (hzs.linked.getPrev_mem hmem) hnext
        rw [if_neg (Nat.not_lt.mpr hle), hseen]
        constructor
        · exact fun h => hlater.mp h.2.2
        · exact fun h => ⟨hvisit.1, by omega, hlater.mpr h⟩

end HintHelpers

namespace VaultManager

open Book

variable {d : Deployment} {s s' : State} {a : Address} {price n coll debt : ℕ} {b₀ : Book}
  {hints : RedemptionHints} {t t' : RedemptionTotals} {xs : List Address}

/-- A vault with a nominal ratio of zero is not put back into the list. -/
theorem redeemPartially_ratio {NICR : ℕ}
    (h : redeemPartially d a coll debt NICR hints s = .ok s') : 0 < NICR := by
  simp only [redeemPartially, bind_ok] at h
  obtain ⟨_, hinsert, -⟩ := h
  obtain ⟨data, hdata, -⟩ := BorrowerOperations.reInsertSorted_ok hinsert
  simp only [SortedVaults.reInsert, bind_ok, require_ok] at hdata
  obtain ⟨_, -, _, hpos, -⟩ := hdata
  exact hpos

/-- With no ratio hinted, all lots are whole vaults. -/
theorem redeemLoop_whole (hNICR : hints.partialRedemptionHintNICR = 0)
    (hahead : a = 0 ∨ SameAhead b₀ s.book a xs)
    (h : redeemLoop d price hints n a t s = .ok (t', s')) {l : Lot}
    (hl : l ∈ b₀.lots price 0 n a t.remainingBPD) : l.BPD = b₀.redeemable l.vault := by
  induction n generalizing a t s xs with
  | zero => exact absurd hl List.not_mem_nil
  | succ n ih =>
    by_cases hvisit : a ≠ 0 ∧ t.remainingBPD > 0
    · obtain ⟨s₁, -, hround⟩ := redeemLoop_visit hvisit (hahead.resolve_left hvisit.1) h
      cases hround with
      | cancelled hless hpart =>
        rw [hNICR] at hpart
        rw [lots_cancelled hless hpart] at hl
        exact absurd hl List.not_mem_nil
      | part _ _ _ _ hs =>
        have hpos := redeemPartially_ratio hs
        omega
      | full hle _ _ _ hrest hnext =>
        rw [lots_full hvisit hle] at hl
        rcases List.mem_cons.mp hl with rfl | hl
        · rfl
        · exact ih hnext hrest hl
    · rw [lots_idle hvisit] at hl
      exact absurd hl List.not_mem_nil

end VaultManager

end MoneyProtocol
