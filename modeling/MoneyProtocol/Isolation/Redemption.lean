import MoneyProtocol.Isolation.Vaults
import MoneyProtocol.Redemption.Vaults
import MoneyProtocol.Safety.RedemptionHints

/-!
# Redemptions do not weaken a vault

A redemption takes from a vault at most the value of the debt that it cancels. So a vault that
is worth its debt, and stays open, has no lower a ratio afterwards. The exception is a vault with
debt pending but no collateral: what its pending debt comes to depends on its stake, and that is
set anew.
-/

namespace MoneyProtocol

open Outcome MoneypMath MoneypBase Book VaultManager

variable {d : Deployment} {s s' : State} {block : Block} {a u : Address} {price n : ℕ}
  {xs : List Address} {t : Transaction}

/-- Giving up collateral worth no more than the debt cancelled raises a ratio of 100% or more. -/
theorem collRatio_raised {coll debt x y : ℕ} (hworth : x * price ≤ y * DECIMAL_PRECISION)
    (hleft : y < debt) (hfull : DECIMAL_PRECISION ≤ collRatio coll debt price) :
    collRatio coll debt price ≤ collRatio (coll - x) (debt - y) price := by
  have hdebt : 0 < debt := by omega
  have hdebt' : 0 < debt - y := by omega
  unfold collRatio at hfull ⊢
  rw [if_pos hdebt] at hfull ⊢
  rw [if_pos hdebt', Nat.le_div_iff_mul_le hdebt']
  have hratio := Nat.div_mul_le_self (coll * price) debt
  calc coll * price / debt * (debt - y)
      = coll * price / debt * debt - coll * price / debt * y := Nat.mul_sub _ _ _
    _ ≤ coll * price - y * DECIMAL_PRECISION := by
      rw [Nat.mul_comm y]
      exact tsub_le_tsub hratio (Nat.mul_le_mul_right y hfull)
    _ ≤ coll * price - x * price := Nat.sub_le_sub_left hworth _
    _ = (coll - x) * price := (Nat.sub_mul _ _ _).symm

namespace Book

variable {b b' b'' : Book}

/-- What a vault with nothing pending comes to. -/
theorem entire_of_current (hRBTC : b.B_RBTC ≤ (b.rewardSnapshots u).RBTC) (hfresh : ¬b.Stale u) :
    b.entireColl u = (b.vaults u).coll ∧ b.entireDebt u = (b.vaults u).debt := by
  have hdebt : b.B_BPDDebt ≤ (b.rewardSnapshots u).BPDDebt :=
    not_lt.mp fun hlt => hfresh ⟨hRBTC, hlt⟩
  constructor
  · simp [entireColl, pendingRBTC, Nat.sub_eq_zero_of_le hRBTC]
  · simp [entireDebt, pendingDebt, Nat.sub_eq_zero_of_le hdebt]

/-- The vault of `u` is closed, or its ratio is no lower unless it was under 100%. -/
structure Raised (price : ℕ) (b b' : Book) (u : Address) : Prop where
  active : b'.Active u → b.Active u
  fresh : b'.Active u → ¬b.Stale u → ¬b'.Stale u
  ratio : b'.Active u → ¬b.Stale u → DECIMAL_PRECISION ≤ b.ICR price u →
    b.ICR price u ≤ b'.ICR price u

theorem Untouched.raised (h : Untouched b b' u) : Raised price b b' u := by
  constructor
  · intro hactive
    exact h.status.symm.trans hactive
  · intro _ hfresh
    rw [Stale, h.B_RBTC, h.B_BPDDebt, h.snapshot]
    exact hfresh
  · intro _ _ _
    exact h.ICR.ge

theorem Raised.trans (h : Raised price b b' u) (h' : Raised price b' b'' u) :
    Raised price b b'' u := by
  constructor
  · exact fun hactive => h.active (h'.active hactive)
  · exact fun hactive hfresh => h'.fresh hactive (h.fresh (h'.active hactive) hfresh)
  · intro hactive hfresh hfull
    have hfirst := h.ratio (h'.active hactive) hfresh hfull
    exact hfirst.trans (h'.ratio hactive (h.fresh (h'.active hactive) hfresh) (hfull.trans hfirst))

/-- A vault that collects its rewards comes to the same. -/
theorem Raised.collected : Raised price b (b.collected a) u := by
  by_cases hu : u = a
  · subst hu
    have hcoll : (b.collected u).entireColl u = b.entireColl u := by
      simp [entireColl, pendingRBTC, Book.collected]
    have hdebt : (b.collected u).entireDebt u = b.entireDebt u := by
      simp [entireDebt, pendingDebt, Book.collected]
    constructor
    · intro hactive
      simpa [Book.Active, Book.collected] using hactive
    · intro _ _
      simp [Stale, Book.collected]
    · intro _ _ _
      rw [Book.ICR, Book.ICR, hcoll, hdebt]
  · exact (Untouched.collected hu).raised

theorem Raised.of_closed {st : Status} (hst : st ≠ .active)
    (h : (b'.vaults u).status = st) : Raised price b b' u := by
  have hnot : ¬b'.Active u := fun hactive => hst (h.symm.trans hactive)
  exact ⟨fun h => absurd h hnot, fun h => absurd h hnot, fun h => absurd h hnot⟩

end Book

namespace VaultManager

variable {hints : RedemptionHints}

theorem applyPendingRewards_raised (h : applyPendingRewards d a s = .ok s') :
    Raised price s.book s'.book u := by
  rcases applyPendingRewards_book (P := .any) h with ⟨-, -, hbook⟩ | ⟨-, rfl⟩
  · rw [hbook]
    exact .collected
  · exact (Untouched.refl _ _).raised

theorem redeemPartially_raised {x y NICR : ℕ} (hactive : s.Active a)
    (hnone : s.book.B_RBTC ≤ (s.book.rewardSnapshots a).RBTC)
    (hworth : x * price ≤ y * DECIMAL_PRECISION) (hleft : y < (s.vault a).debt)
    (h : redeemPartially d a ((s.vault a).coll - x) ((s.vault a).debt - y) NICR hints s = .ok s') :
    Raised price s.book s'.book u := by
  obtain ⟨hcoll, hdebt, hothers⟩ := redeemPartially_record h
  by_cases hu : u = a
  · subst hu
    have hsnapshots : s'.book.B_RBTC = s.book.B_RBTC ∧ s'.book.B_BPDDebt = s.book.B_BPDDebt ∧
        s'.book.rewardSnapshots = s.book.rewardSnapshots := by
      simp only [redeemPartially, bind_ok] at h
      obtain ⟨_, hinsert, hstake⟩ := h
      obtain ⟨_, -, rfl⟩ := BorrowerOperations.reInsertSorted_ok hinsert
      obtain ⟨-, hbook⟩ := updateStakeAndTotalStakes_book hstake
      rw [hbook]
      exact ⟨rfl, rfl, rfl⟩
    obtain ⟨hRBTC, hBPDDebt, hsnapshot⟩ := hsnapshots
    have hfresh (hstale : ¬s.book.Stale u) : ¬s'.book.Stale u := by
      rw [Stale, hRBTC, hBPDDebt, hsnapshot]
      exact hstale
    refine ⟨fun _ => hactive, fun _ => hfresh, fun _ hstale hfull => ?_⟩
    obtain ⟨hbefore, hbefore'⟩ := entire_of_current hnone hstale
    obtain ⟨hafter, hafter'⟩ := entire_of_current (b := s'.book) (u := u)
      (by rw [hRBTC, hsnapshot]; exact hnone) (hfresh hstale)
    have hrecord : (s'.book.vaults u).coll = (s.vault u).coll - x ∧
        (s'.book.vaults u).debt = (s.vault u).debt - y := ⟨hcoll, hdebt⟩
    rw [Book.ICR, hbefore, hbefore'] at hfull ⊢
    rw [Book.ICR, hafter, hafter', hrecord.1, hrecord.2]
    exact collRatio_raised hworth hleft hfull
  · exact (hothers u hu).raised

theorem redeemLoop_raised {v v' : RedemptionTotals} (hxs : s.book.Registry xs)
    (h : redeemLoop d price hints n a v s = .ok (v', s')) (u : Address) :
    Raised price s.book s'.book u := by
  induction n generalizing a v s xs u with
  | zero =>
    simp only [redeemLoop, pure_ok, Prod.mk.injEq] at h
    rw [h.2]
    exact (Untouched.refl _ _).raised
  | succ n ih =>
    simp only [redeemLoop] at h
    split_ifs at h with hvisit
    · simp only [bind_ok, Prod.exists] at h
      obtain ⟨s₁, hpending, w, s₂, hw, h⟩ := h
      have hfirst : Raised price s.book s₁.book u := applyPendingRewards_raised hpending
      have hdebt := applyPendingRewards_debt hpending
      have hcoll := applyPendingRewards_coll hpending
      obtain ⟨hlot, hRBTCLot, hreserve, hsmall, -, ⟨hcancel, rfl⟩ | ⟨hcancel, hfull, hredeem⟩ |
        ⟨hcancel, hpartial, hminimum, -, hredeem⟩⟩ := redeemCollateralFromVault_ok hw
      · rw [if_pos hcancel] at h
        simp only [pure_ok, Prod.mk.injEq] at h
        rw [← h.2]
        exact hfirst
      · simp only [hcancel, Bool.false_eq_true, if_false, bind_ok] at h
        obtain ⟨t₁, -, h⟩ := h
        have hleft : (s₁.vault a).coll - w.RBTCLot = redemptionSurplus price s.book a := by
          have hall : w.BPDLot = s.book.appliedDebt a - BPD_GAS_COMPENSATION := by omega
          rw [hRBTCLot, hall, redemptionSurplus, ← hcoll]
          rfl
        have hcloses := redeemFully_closes hxs hpending hleft hredeem
        obtain ⟨w', x, hstake, hclose, hbook⟩ := redeemFully_book hredeem
        have hmove : Move .any s₁.book s₂.book :=
          hbook ▸ removeStake_closeVault_move (applyPendingRewards_none hpending) hstake hclose
        obtain ⟨ys, hys⟩ := hxs.moves ((applyPendingRewards_moves (P := .any) hpending).tail hmove)
        have hsecond : Raised price s.book s₂.book u := by
          by_cases hu : u = a
          · subst hu
            have hclosed : Status.closedByRedemption ≠ .active := by decide
            exact .of_closed hclosed hcloses.status
          · exact (hcloses.others u hu).raised
        exact hsecond.trans (ih hys h u)
      · -- the amount runs out in this vault
        simp only [hcancel, Bool.false_eq_true, if_false, bind_ok] at h
        obtain ⟨t₁, ht₁, h⟩ := h
        rw [redeemLoop_done (by rw [addRedemptionToTotals_ok ht₁]; simp only; omega)] at h
        simp only [Except.ok.injEq, Prod.mk.injEq] at h
        rw [← h.2]
        by_cases hactive : s₁.Active a
        · have hpos : 0 < MIN_NET_DEBT := by decide
          refine hfirst.trans (redeemPartially_raised hactive
            (applyPendingRewards_none hpending hactive) ?_ (by omega) hredeem)
          rw [hRBTCLot]
          exact Nat.div_mul_le_self _ _
        · obtain ⟨-, -, hothers⟩ := redeemPartially_record hredeem
          by_cases hu : u = a
          · subst hu
            have hstatus := (redeemPartially_status hredeem u).1
            exact .of_closed hactive hstatus
          · exact hfirst.trans (hothers u hu).raised
    · simp only [pure_ok, Prod.mk.injEq] at h
      rw [h.2]
      exact (Untouched.refl _ _).raised

theorem redeemCollateral_raised {sender : Address} {amount maxIterations maxFee : ℕ}
    (hxs : s.book.Registry xs) (hsender : sender ≠ d.defaultPool)
    (h : redeemCollateral d block sender amount hints maxIterations maxFee s = .ok s') :
    ∃ price s₀, PriceFeed.fetchPrice block s = .ok (price, s₀) ∧
      ∀ u, Raised price s.book s'.book u := by
  simp only [redeemCollateral, bind_ok, Prod.exists] at h
  obtain ⟨_, -, _, -, price, s₀, hprice, _, -, _, -, _, -, _, -, _, -, first, -, t, s₁, hloop,
    hsettle⟩ := h
  have h₀ := PriceFeed.fetchPrice_book hprice
  obtain ⟨hbook, -⟩ := settleRedemption_vaults hsender hsettle
  refine ⟨price, s₀, hprice, fun u => ?_⟩
  rw [hbook, ← h₀]
  exact redeemLoop_raised (h₀ ▸ hxs) hloop u

end VaultManager

/-- After a redemption every vault that is still open has at least the ratio it had, if it was
worth its debt and had no debt pending without collateral. -/
theorem redemption_raises_ratios (hs : Reachable d s) (hsigned : t.Signed d)
    (hrole : t.operation.role = .redeems) (h : transact d t s = .ok s') :
    ∃ price s₀, PriceFeed.fetchPrice t.block s = .ok (price, s₀) ∧ ∀ u, s'.Active u →
      ¬s.book.Stale u → DECIMAL_PRECISION ≤ s.book.ICR price u →
        s.book.ICR price u ≤ s'.book.ICR price u := by
  obtain ⟨xs, hxs⟩ := hs.registry
  have hsender := hsigned.1.ne d.defaultPool_mem
  obtain ⟨block, sender, value, operation⟩ := t
  cases operation with
  | redeemCollateral =>
    obtain ⟨price, s₀, hprice, hraised⟩ := redeemCollateral_raised hxs hsender (nonPayable_ok h)
    exact ⟨price, s₀, hprice, fun u => (hraised u).ratio⟩
  | _ => cases hrole

/-- Redeems 100 BPD from the second vault. -/
def redeemsSecond : Transaction :=
  ⟨lateBlock 60000, 100, 0,
    .redeemCollateral (100 * 10 ^ 18) ⟨101, 0, 0, 2527646129541864⟩ 5 (10 ^ 18)⟩

theorem redemption_raises_ratios_partial : ∃ s s' s₀, Reachable testnet s ∧
    transact testnet redeemsSecond s = .ok s' ∧
    PriceFeed.fetchPrice (lateBlock 60000) s = .ok (60000 * 10 ^ 18, s₀) ∧ s'.Active 101 ∧
    (s'.vault 101).debt + 100 * 10 ^ 18 = (s.vault 101).debt ∧
    s.book.ICR (60000 * 10 ^ 18) 101 ≤ s'.book.ICR (60000 * 10 ^ 18) 101 := by
  obtain ⟨s, s', hs, h, hcheck⟩ := runsThen_reachable testnet testGenesis threeVaults
    redeemsSecond (fun s s' => s'.Active 101 ∧ ¬s.book.Stale 101 ∧
      DECIMAL_PRECISION ≤ s.book.ICR (60000 * 10 ^ 18) 101 ∧
      (s'.vault 101).debt + 100 * 10 ^ 18 = (s.vault 101).debt) (by decide +kernel)
  obtain ⟨hopen, hfresh, hfull, hrepaid⟩ := of_decide_eq_true hcheck
  obtain ⟨price, s₀, hprice, hraised⟩ :=
    redemption_raises_ratios hs (t := redeemsSecond) (by decide) rfl h
  obtain ⟨rfl, -⟩ := Prod.mk.inj (Except.ok.inj hprice)
  exact ⟨s, s', s₀, hs, h, hprice, hopen, hrepaid, hraised 101 hopen hfresh hfull⟩

end MoneyProtocol
