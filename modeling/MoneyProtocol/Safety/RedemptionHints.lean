import MoneyProtocol.Safety.Reserves
import MoneyProtocol.Contracts.HintHelpers

/-!
# Redemption hints

`getRedemptionHints` predicts a redemption without running it. It counts all the pending debt
of a vault, while the redemption applies the rewards of a vault only if it has collateral
pending. As long as no vault on the way has debt pending alone, the prediction is exact, and a
redemption with the hints redeems what they promise.
-/

namespace MoneyProtocol

open Outcome MoneypMath MoneypBase Book VaultManager HintHelpers

variable {d : Deployment} {s s' s₀ : State} {block : Block} {a : Address} {b b₀ : Book}
  {price n amount : ℕ} {hints : RedemptionHints} {xs : List Address}

namespace Book

/-- The vault has debt pending, and its rewards are not applied. -/
def Hides (b : Book) (a : Address) : Prop := b.Stale a ∧ 0 < b.pendingDebt a

/-- A redemption of `amount` from `a` upwards, as the hints see it, comes by a vault that hides
debt. -/
def VisitsHidden (b : Book) : ℕ → Address → ℕ → Prop
  | 0, _, _ => False
  | n + 1, a, amount =>
    (a ≠ 0 ∧ amount > 0) ∧ (b.Hides a ∨ (b.entireDebt a - BPD_GAS_COMPENSATION ≤ amount ∧
      b.VisitsHidden n (SortedVaults.getPrev a b.sortedVaults)
        (amount - (b.entireDebt a - BPD_GAS_COMPENSATION))))

instance (b : Book) (a : Address) : Decidable (b.Hides a) := inferInstanceAs (Decidable (_ ∧ _))

instance VisitsHidden.decidable (b : Book) :
    (n : ℕ) → (a : Address) → (amount : ℕ) → Decidable (b.VisitsHidden n a amount)
  | 0, _, _ => isFalse fun h => h
  | n + 1, a, amount =>
    haveI := VisitsHidden.decidable b n (SortedVaults.getPrev a b.sortedVaults)
      (amount - (b.entireDebt a - BPD_GAS_COMPENSATION))
    inferInstanceAs (Decidable (_ ∧ (_ ∨ (_ ∧ _))))

theorem appliedDebt_eq (h : ¬b.Hides a) : b.appliedDebt a = b.entireDebt a := by
  unfold appliedDebt
  split_ifs with hRBTC
  · rfl
  · have hzero : b.pendingDebt a = 0 := by
      by_contra hne
      apply h
      refine ⟨⟨not_lt.mp hRBTC, ?_⟩, Nat.pos_of_ne_zero hne⟩
      by_contra hle
      apply hne
      unfold pendingDebt
      rw [Nat.sub_eq_zero_of_le (not_lt.mp hle), Nat.mul_zero, Nat.zero_div, ite_self]
    rw [entireDebt, hzero, Nat.add_zero]

end Book

theorem hintPartially_ok {net : ℕ} {w : HintWalk}
    (h : hintPartially price a net amount s = .ok w) :
    (net ≤ MIN_NET_DEBT ∧ w = ⟨0, amount⟩) ∨
      ∃ lot, lot = min amount (net - MIN_NET_DEBT) ∧ MIN_NET_DEBT < net ∧
        w.remainingBPD = amount - lot ∧
        w.partialRedemptionHintNICR = nominalCR (s.book.entireColl a -
          lot * DECIMAL_PRECISION / price) (net - lot + BPD_GAS_COMPENSATION) := by
  unfold hintPartially at h
  split_ifs at h with hmin
  · right
    simp only [getCompositeDebt, bind_ok, pure_ok, SafeMath.sub_ok, SafeMath.add_ok,
      SafeMath.mul_ok, SafeMath.div_ok] at h
    obtain ⟨_, ⟨-, rfl⟩, _, hpending, _, ⟨-, rfl⟩, _, ⟨-, rfl⟩, _, ⟨-, rfl⟩, _, ⟨-, rfl⟩, _,
      ⟨-, rfl⟩, _, ⟨-, rfl⟩, NICR, hNICR, _, ⟨-, rfl⟩, rfl⟩ := h
    refine ⟨_, rfl, hmin, rfl, ?_⟩
    rw [← computeNominalCR_ok hNICR, getPendingRBTCReward_ok hpending]
    rfl
  · exact .inl ⟨not_lt.mp hmin, (pure_ok.mp h).symm⟩

/-- One round of the walk: it ends in the vault, or goes on with what the vault leaves. -/
theorem hintLoop_succ {w : HintWalk} (h : hintLoop price s (n + 1) a amount = .ok w) :
    (¬(a ≠ 0 ∧ amount > 0) ∧ w = ⟨0, amount⟩) ∨
      ((a ≠ 0 ∧ amount > 0) ∧ BPD_GAS_COMPENSATION ≤ (s.vault a).debt ∧
        ((amount < s.book.entireDebt a - BPD_GAS_COMPENSATION ∧
          hintPartially price a (s.book.entireDebt a - BPD_GAS_COMPENSATION) amount s = .ok w) ∨
        (s.book.entireDebt a - BPD_GAS_COMPENSATION ≤ amount ∧
          hintLoop price s n (SortedVaults.getPrev a s.sortedVaults)
            (amount - (s.book.entireDebt a - BPD_GAS_COMPENSATION)) = .ok w))) := by
  rw [hintLoop] at h
  by_cases hvisit : a ≠ 0 ∧ amount > 0
  · right
    rw [if_pos hvisit] at h
    simp only [getNetDebt, bind_ok, SafeMath.sub_ok, SafeMath.add_ok] at h
    obtain ⟨_, ⟨hreserve, rfl⟩, _, hpending, _, ⟨-, rfl⟩, h⟩ := h
    rw [getPendingBPDDebtReward_ok hpending] at h
    have hnet : (s.vault a).debt - BPD_GAS_COMPENSATION + s.book.pendingDebt a =
        s.book.entireDebt a - BPD_GAS_COMPENSATION := by
      have hdebt : s.book.entireDebt a = (s.vault a).debt + s.book.pendingDebt a := rfl
      omega
    rw [hnet] at h
    refine ⟨hvisit, hreserve, ?_⟩
    split_ifs at h with hpart
    · exact .inl ⟨hpart, h⟩
    · simp only [bind_ok, SafeMath.sub_ok] at h
      obtain ⟨_, ⟨hle, rfl⟩, h⟩ := h
      exact .inr ⟨hle, h⟩
  · rw [if_neg hvisit] at h
    exact .inl ⟨hvisit, (pure_ok.mp h).symm⟩

/-- The walk takes nothing that is not there. -/
theorem hintLoop_le {w : HintWalk} (h : hintLoop price s n a amount = .ok w) :
    w.remainingBPD ≤ amount := by
  induction n generalizing a amount with
  | zero => rw [← pure_ok.mp h]
  | succ n ih =>
    rcases hintLoop_succ h with ⟨-, rfl⟩ | ⟨-, -, ⟨-, hpart⟩ | ⟨hle, h⟩⟩
    · exact le_rfl
    · rcases hintPartially_ok hpart with ⟨-, rfl⟩ | ⟨lot, -, -, hrest, -⟩
      · exact le_rfl
      · omega
    · have := ih h
      omega

theorem redeemLoop_nothing {t t' : RedemptionTotals} (hzero : t.remainingBPD = 0)
    (h : redeemLoop d price hints n a t s = .ok (t', s')) :
    t'.totalBPDToRedeem = t.totalBPDToRedeem + t.remainingBPD := by
  rw [redeemLoop_done hzero, Except.ok.injEq, Prod.mk.injEq] at h
  rw [← h.1, hzero, Nat.add_zero]

/-- A redemption of what the walk took redeems all of it. -/
theorem redeemLoop_hinted {t t' : RedemptionTotals} {w : HintWalk}
    (hahead : a = 0 ∨ SameAhead s₀.book s.book a xs) (hwalk : hintLoop price s₀ n a amount = .ok w)
    (hhidden : ¬s₀.book.VisitsHidden n a amount)
    (hNICR : hints.partialRedemptionHintNICR = w.partialRedemptionHintNICR)
    (hrest : t.remainingBPD + w.remainingBPD = amount)
    (h : redeemLoop d price hints n a t s = .ok (t', s')) :
    t'.totalBPDToRedeem = t.totalBPDToRedeem + t.remainingBPD := by
  induction n generalizing a t s xs amount with
  | zero =>
    refine redeemLoop_nothing ?_ h
    rw [← pure_ok.mp hwalk] at hrest
    simpa using hrest
  | succ n ih =>
    by_cases hzero : t.remainingBPD = 0
    · exact redeemLoop_nothing hzero h
    rcases hintLoop_succ hwalk with ⟨-, rfl⟩ | ⟨hvisit, hreserve, hround⟩
    · exact redeemLoop_nothing (by simpa using hrest) h
    have hahead := hahead.resolve_left hvisit.1
    have hseen : ¬s₀.book.Hides a := fun hh => hhidden ⟨hvisit, .inl hh⟩
    rw [redeemLoop, if_pos ⟨hvisit.1, Nat.pos_of_ne_zero hzero⟩] at h
    simp only [bind_ok, Prod.exists] at h
    obtain ⟨s₁, hpending, v, s₂, hv, h⟩ := h
    have hdebt : (s₁.vault a).debt = s₀.book.entireDebt a := by
      rw [applyPendingRewards_debt hpending, hahead.appliedDebt, appliedDebt_eq hseen]
    have hcoll : (s₁.vault a).coll = s₀.book.entireColl a :=
      (applyPendingRewards_coll hpending).trans hahead.entireColl
    have hlots := redeemCollateralFromVault_ok hv
    have hcancelled := redeemCollateralFromVault_cancelled hv
    rw [hdebt, hcoll] at hlots hcancelled
    obtain ⟨hlot, hRBTCLot, henough, -, -, hcases⟩ := hlots
    have hmin : 0 < MIN_NET_DEBT := by decide
    rcases hround with ⟨hlt, hpart⟩ | ⟨hle, hnext⟩
    · -- the walk ends in this vault, with the rest of what it took
      rcases hintPartially_ok hpart with ⟨-, rfl⟩ | ⟨lot, hmax, hexcess, hleft, hratio⟩
      · simp only at hrest
        omega
      have hall : v.BPDLot = t.remainingBPD := by omega
      have hkept : v.cancelledPartial = false := by
        rw [Bool.eq_false_iff]
        intro hcancel
        obtain ⟨-, hwrong | hlow⟩ := hcancelled hcancel
        · apply hwrong
          have hlotEq : v.BPDLot = lot := by omega
          have hcomposite : s₀.book.entireDebt a - BPD_GAS_COMPENSATION - lot +
              BPD_GAS_COMPENSATION = s₀.book.entireDebt a - lot := by omega
          rw [hNICR, hratio, hRBTCLot, hlotEq, hcomposite]
        · omega
      simp only [hkept, Bool.false_eq_true, if_false, bind_ok] at h
      obtain ⟨t₁, ht₁, h⟩ := h
      rw [addRedemptionToTotals_ok ht₁, redeemLoop_done (by simp only; omega), Except.ok.injEq,
        Prod.mk.injEq] at h
      rw [← h.1, hall]
    · -- the vault is closed, and the loop goes on as the walk does
      have htaken := hintLoop_le hnext
      have hall : v.BPDLot = s₀.book.entireDebt a - BPD_GAS_COMPENSATION := by omega
      have hfull : s₀.book.entireDebt a - v.BPDLot = BPD_GAS_COMPENSATION := by omega
      rcases hcases with ⟨hcancel, -⟩ | ⟨hkept, -, hredeem⟩ | ⟨-, hpartial, -⟩
      · exact absurd hfull (hcancelled hcancel).1
      · simp only [hkept, Bool.false_eq_true, if_false, bind_ok] at h
        obtain ⟨t₁, ht₁, h⟩ := h
        have hnextAhead := redeemFully_ahead hahead hpending hredeem
        have hprev : SortedVaults.getPrev a s.sortedVaults =
            SortedVaults.getPrev a s₀.sortedVaults :=
          hahead.getPrev.1.trans hahead.getPrev.2.symm
        rw [hprev] at h hnextAhead
        rw [addRedemptionToTotals_ok ht₁] at h
        have htotal := ih hnextAhead hnext (fun hh => hhidden ⟨hvisit, .inr ⟨hle, hh⟩⟩)
          (by simp only; omega) h
        rw [htotal]
        simp only
        omega
      · exact absurd hfull hpartial

section

variable {u : Address} {t t' : RedemptionTotals}

/-- The reserve of a closed vault is burned in the Gas Pool. -/
theorem redeemFully_balances {newColl : ℕ} (hu : u ≠ d.gasPool)
    (h : redeemFully d a newColl s = .ok s') :
    s'.bpdToken.balances u = s.bpdToken.balances u := by
  simp only [redeemFully, redeemCloseVault, ActivePool.decreaseBPDDebt,
    CollSurplusPool.accountSurplus, bind_ok, pure_ok] at h
  obtain ⟨_, hstake, _, hclose, _, hburn, _, ⟨_, -, rfl⟩, _, ⟨_, -, rfl⟩, hsend⟩ := h
  obtain ⟨-, rfl⟩ := removeStake_ok hstake
  obtain ⟨-, -, -, rfl⟩ := BPDToken.burn_ok hburn
  rw [ActivePool.sendRBTC_bpdToken hsend]
  simp only [Function.update_of_ne hu, bpdToken_of_aside (closeVault_aside hclose)]
  rfl

theorem redeemLoop_balances (hu : u ≠ d.gasPool)
    (h : redeemLoop d price hints n a t s = .ok (t', s')) :
    s'.bpdToken.balances u = s.bpdToken.balances u := by
  induction n generalizing a t s with
  | zero =>
    simp only [redeemLoop, pure_ok, Prod.mk.injEq] at h
    rw [h.2]
  | succ n ih =>
    simp only [redeemLoop] at h
    split_ifs at h
    · simp only [bind_ok, Prod.exists] at h
      obtain ⟨s₁, hpending, v, s₂, hv, h⟩ := h
      have hround : s₂.bpdToken.balances u = s.bpdToken.balances u := by
        rw [← bpdToken_of_aside (applyPendingRewards_aside hpending)]
        obtain ⟨-, -, -, -, -, ⟨-, rfl⟩ | ⟨-, -, hfull⟩ | ⟨-, -, -, -, hpartial⟩⟩ :=
          redeemCollateralFromVault_ok hv
        · rfl
        · exact redeemFully_balances hu hfull
        · rw [bpdToken_of_aside (redeemPartially_aside hpartial)]
      split_ifs at h
      · simp only [pure_ok, Prod.mk.injEq] at h
        rw [← h.2, hround]
      · simp only [bind_ok] at h
        obtain ⟨_, -, h⟩ := h
        rw [ih h, hround]
    · simp only [pure_ok, Prod.mk.injEq] at h
      rw [h.2]

/-- The settlement burns what was redeemed. -/
theorem settleRedemption_drawn {sender : Address} {maxFee supply : ℕ} {t : RedemptionTotals}
    (h : settleRedemption d block sender price maxFee supply t s = .ok s') :
    0 < t.totalRBTCDrawn := by
  simp only [settleRedemption, bind_ok, require_ok] at h
  obtain ⟨_, hdrawn, -⟩ := h
  exact hdrawn

theorem settleRedemption_balance {sender : Address} {maxFee supply : ℕ}
    (h : settleRedemption d block sender price maxFee supply t s = .ok s') :
    s'.bpdToken.balances sender + t.totalBPDToRedeem = s.bpdToken.balances sender := by
  simp only [settleRedemption, ActivePool.decreaseBPDDebt, bind_ok, pure_ok] at h
  obtain ⟨_, -, _, hrate, _, -, _, -, _, hfee, _, hshare, _, -, _, hburn, _, ⟨_, -, rfl⟩, hsend⟩ :=
    h
  obtain ⟨_, _, rfl⟩ := updateBaseRateFromRedemption_ok hrate
  obtain ⟨_, rfl⟩ := MPStaking.increaseF_RBTC_ok hshare
  obtain ⟨-, hle, -, rfl⟩ := BPDToken.burn_ok hburn
  rw [ActivePool.sendRBTC_bpdToken hfee] at hle
  rw [ActivePool.sendRBTC_bpdToken hsend]
  simp only [Function.update_self, ActivePool.sendRBTC_bpdToken hfee]
  exact Nat.sub_add_cancel hle

end

/-- What a redemption redeems of the vaults, before it is settled. -/
def redeemedBPD (d : Deployment) (block : Block) (BPDamount : ℕ) (hints : RedemptionHints)
    (maxIterations : ℕ) (s : State) : Outcome ℕ := do
  let (price, s) ← PriceFeed.fetchPrice block s
  let currentBorrower ← firstBorrower price hints s
  let maxIterations := if maxIterations = 0 then UINT256_MAX else maxIterations
  let (t, _) ← redeemLoop d price hints maxIterations currentBorrower ⟨BPDamount, 0, 0⟩ s
  return t.totalBPDToRedeem

/-- The hints were computed from a vault that hides debt. -/
def HintsSeeHidden (h : RedemptionHint) (BPDamount maxIterations : ℕ) (s : State) : Prop :=
  s.book.VisitsHidden (if maxIterations = 0 then UINT256_MAX else maxIterations)
    h.firstRedemptionHint BPDamount

/-- Fetching the price does not change where the walk ends. -/
theorem skipUnderCollateralized_congr {fuel : ℕ} (f : PriceFeed) :
    skipUnderCollateralized price { s with priceFeed := f } fuel a =
      skipUnderCollateralized price s fuel a := by
  induction fuel generalizing a with
  | zero => rfl
  | succ fuel ih =>
    simp only [skipUnderCollateralized, ih]
    rfl

/-- Whether the hint is found valid or not, the redemption starts where the hints did. -/
theorem firstBorrower_hinted {first current : Address}
    (hskip : skipUnderCollateralized price s (s.sortedVaults.size + 1)
      (SortedVaults.getLast s.sortedVaults) = .ok first)
    (hhint : hints.firstRedemptionHint = first) (h : firstBorrower price hints s = .ok current) :
    current = first := by
  simp only [firstBorrower, bind_ok] at h
  obtain ⟨valid, -, h⟩ := h
  split_ifs at h
  · rw [← pure_ok.mp h, hhint]
  · rw [hskip, Except.ok.injEq] at h
    exact h.symm

/-- A redemption takes what it redeems from its sender. -/
theorem redeemCollateral_redeemed {sender : Address} {maxIterations maxFee : ℕ}
    (hsender : d.External sender)
    (h : redeemCollateral d block sender amount hints maxIterations maxFee s = .ok s') :
    ∃ v, redeemedBPD d block amount hints maxIterations s = .ok v ∧
      s'.bpdToken.balances sender + v = s.bpdToken.balances sender := by
  simp only [redeemCollateral, bind_ok, Prod.exists] at h
  obtain ⟨_, -, _, -, price, s₀, hprice, _, -, _, -, _, -, _, -, _, -, current, hcurrent, t, s₁,
    hloop, hsettle⟩ := h
  refine ⟨t.totalBPDToRedeem, ?_, ?_⟩
  · simp only [redeemedBPD, bind_ok, pure_ok, Prod.exists]
    exact ⟨price, s₀, hprice, current, hcurrent, t, s₁, hloop, rfl⟩
  · obtain ⟨f, hs₀⟩ := PriceFeed.fetchPrice_ok hprice
    rw [settleRedemption_balance hsettle, redeemLoop_balances (hsender.ne d.gasPool_mem) hloop, hs₀]

/-- A redemption with the hints, in the state and at the price they were computed for, redeems
exactly the truncated amount, unless they were computed from a vault that hides debt. -/
theorem redeemedBPD_hinted {BPDamount maxIterations : ℕ} {hint : RedemptionHint}
    (hs : Reachable d s) (hprice : PriceFeed.fetchPrice block s = .ok (price, s₀))
    (hhint : getRedemptionHints BPDamount price maxIterations s = .ok hint)
    (hfirst : hints.firstRedemptionHint = hint.firstRedemptionHint)
    (hNICR : hints.partialRedemptionHintNICR = hint.partialRedemptionHintNICR)
    (hseen : ¬HintsSeeHidden hint BPDamount maxIterations s) :
    (∀ v, redeemedBPD d block hint.truncatedBPDamount hints maxIterations s = .ok v →
      v = hint.truncatedBPDamount) ∧
    ∀ sender maxFee s', d.External sender →
      redeemCollateral d block sender hint.truncatedBPDamount hints maxIterations maxFee s =
        .ok s' →
      s'.bpdToken.balances sender + hint.truncatedBPDamount = s.bpdToken.balances sender := by
  have hredeemed : ∀ v, redeemedBPD d block hint.truncatedBPDamount hints maxIterations s = .ok v →
      v = hint.truncatedBPDamount := by
    intro v h
    obtain ⟨zs, hzs⟩ := hs.registry
    obtain ⟨f, hs₀⟩ := PriceFeed.fetchPrice_ok hprice
    simp only [getRedemptionHints, bind_ok, pure_ok, SafeMath.sub_ok] at hhint
    obtain ⟨first, hskip, w, hwalk, _, ⟨hle, rfl⟩, rfl⟩ := hhint
    simp only [redeemedBPD, hprice, bind_ok, pure_ok, Prod.exists, Except.ok.injEq,
      Prod.mk.injEq] at h
    obtain ⟨_, _, ⟨rfl, rfl⟩, current, hcurrent, t, s₁, hloop, rfl⟩ := h
    have hlinked : SortedVaults.Linked s₀.sortedVaults zs := by
      rw [hs₀]
      exact hzs.linked
    have hbook : s₀.book = s.book := PriceFeed.fetchPrice_book hprice
    rw [← skipUnderCollateralized_congr f, ← hs₀] at hskip
    have hstart : current = first := by
      refine firstBorrower_hinted ?_ hfirst hcurrent
      rw [← hskip, hs₀]
    rw [hstart] at hloop hcurrent
    have hahead : ∃ xs, first = 0 ∨ SameAhead s.book s₀.book first xs := by
      rw [← hbook]
      rcases firstBorrower_mem hlinked hcurrent with hzero | hmem
      · exact ⟨[], .inl hzero⟩
      · obtain ⟨xs, ys, rfl⟩ := List.append_of_mem hmem
        exact ⟨xs, .inr (.refl hlinked)⟩
    obtain ⟨xs, hahead⟩ := hahead
    have htotal := redeemLoop_hinted hahead hwalk hseen hNICR (Nat.sub_add_cancel hle) hloop
    simpa using htotal
  refine ⟨hredeemed, fun sender maxFee s' hsender h => ?_⟩
  obtain ⟨v, hv, hbalance⟩ := redeemCollateral_redeemed hsender h
  rw [← hredeemed v hv]
  exact hbalance

instance (h : RedemptionHint) (BPDamount maxIterations : ℕ) (s : State) :
    Decidable (HintsSeeHidden h BPDamount maxIterations s) :=
  inferInstanceAs (Decidable (Book.VisitsHidden _ _ _ _))

/-- The redemption of `BPDamount` by `sender` with the hints for it, and what it redeems. -/
def redeemWithHints (d : Deployment) (block : Block) (sender : Address)
    (price BPDamount maxIterations : ℕ) (s : State) : Outcome (RedemptionHint × ℕ × State) := do
  let hint ← getRedemptionHints BPDamount price maxIterations s
  let hints := ⟨hint.firstRedemptionHint, 0, 0, hint.partialRedemptionHintNICR⟩
  let v ← redeemedBPD d block hint.truncatedBPDamount hints maxIterations s
  let s' ← redeemCollateral d block sender hint.truncatedBPDamount hints maxIterations (10 ^ 18) s
  return (hint, v, s')

theorem redeemWithHints_ok {sender : Address} {BPDamount maxIterations v : ℕ}
    {hint : RedemptionHint}
    (h : redeemWithHints d block sender price BPDamount maxIterations s = .ok (hint, v, s')) :
    let hints : RedemptionHints := ⟨hint.firstRedemptionHint, 0, 0, hint.partialRedemptionHintNICR⟩
    getRedemptionHints BPDamount price maxIterations s = .ok hint ∧
      redeemedBPD d block hint.truncatedBPDamount hints maxIterations s = .ok v ∧
      redeemCollateral d block sender hint.truncatedBPDamount hints maxIterations (10 ^ 18) s =
        .ok s' := by
  simp only [redeemWithHints, bind_ok, pure_ok, Prod.mk.injEq] at h
  obtain ⟨_, hhint, _, hv, _, hs', rfl, rfl, rfl⟩ := h
  exact ⟨hhint, hv, hs'⟩

/-- A block after the bootstrap period. -/
def lateBlock (price : ℕ) : Block := { testBlock price with timestamp := BOOTSTRAP_PERIOD }

/-- The vault of 103 is redeemed in full, that of 100 with its pending rewards in part. -/
theorem redeemedBPD_hinted_partial : ∃ (s s' : State) (hint : RedemptionHint),
    Reachable testnet s ∧ 0 < s.book.pendingDebt 100 ∧
    hint.truncatedBPDamount = 2510 * 10 ^ 18 ∧
    s'.bpdToken.balances 100 + hint.truncatedBPDamount = s.bpdToken.balances 100 := by
  obtain ⟨s, hs, -, hcheck⟩ := runs_reachable testnet testGenesis
    [⟨testBlock 60000, 100, 5 * 10 ^ 18, .openVault (10 ^ 16) (10000 * 10 ^ 18) 0 0⟩,
      ⟨testBlock 60000, 101, 55 * 10 ^ 15, .openVault (10 ^ 16) (2000 * 10 ^ 18) 0 0⟩,
      ⟨testBlock 44000, 102, 0, .liquidate 101⟩,
      ⟨testBlock 44000, 103, 10 ^ 17, .openVault (10 ^ 16) (2000 * 10 ^ 18) 0 0⟩]
    (fun s => 0 < s.book.pendingDebt 100 ∧ succeeds (fun r => decide
      (r.1.truncatedBPDamount = 2510 * 10 ^ 18 ∧ ¬HintsSeeHidden r.1 (2510 * 10 ^ 18) 5 s))
      (redeemWithHints testnet (lateBlock 44000) 100 (44000 * 10 ^ 18) (2510 * 10 ^ 18) 5 s))
    (by decide +kernel)
  obtain ⟨hpending, hredeem⟩ := of_decide_eq_true hcheck
  obtain ⟨⟨hint, v, s'⟩, hredeem, hcheck⟩ := exists_of_succeeds hredeem
  obtain ⟨hamount, hseen⟩ := of_decide_eq_true hcheck
  obtain ⟨hhint, -, h⟩ := redeemWithHints_ok hredeem
  exact ⟨s, s', hint, hs, hpending, hamount,
    (redeemedBPD_hinted hs rfl hhint rfl rfl hseen).2 100 (10 ^ 18) s' (by decide +kernel) h⟩

/-- The vault of 100 hides some debt after a redistribution; a redemption that should take 500 BPD
from it with the hint it was given is cancelled there. -/
theorem hinted_redemption_cancelled : ¬∀ (d : Deployment) (block : Block) (s s₀ s' : State)
    (price BPDamount maxIterations maxFee : ℕ) (sender : Address) (hint : RedemptionHint)
    (hints : RedemptionHints), Reachable d s →
      PriceFeed.fetchPrice block s = .ok (price, s₀) →
      getRedemptionHints BPDamount price maxIterations s = .ok hint →
      hints.firstRedemptionHint = hint.firstRedemptionHint →
      hints.partialRedemptionHintNICR = hint.partialRedemptionHintNICR →
      redeemCollateral d block sender hint.truncatedBPDamount hints maxIterations maxFee s =
        .ok s' →
      redeemedBPD d block hint.truncatedBPDamount hints maxIterations s =
        .ok hint.truncatedBPDamount := by
  intro hall
  obtain ⟨s, hs, -, hcheck⟩ := runs_reachable testnet testGenesis
    [⟨testBlock 60000, 100, 10 ^ 24, .openVault (10 ^ 16) (10000 * 10 ^ 18) 0 0⟩,
      ⟨testBlock 60000, 101, 55 * 10 ^ 15, .openVault (10 ^ 16) (2000 * 10 ^ 18) 0 0⟩,
      ⟨testBlock 60000, 100, 0, .provideToSP (2210 * 10 ^ 18 - 10 ^ 10) 0⟩,
      ⟨testBlock 44000, 102, 0, .liquidate 101⟩,
      ⟨testBlock 44000, 103, 10 ^ 17, .openVault (10 ^ 16) (2000 * 10 ^ 18) 0 0⟩]
    (fun s => succeeds (fun r => decide (r.2.1 ≠ r.1.truncatedBPDamount))
      (redeemWithHints testnet (lateBlock 44000) 100 (44000 * 10 ^ 18) (2510 * 10 ^ 18) 0 s))
    (by decide +kernel)
  obtain ⟨⟨hint, v, s'⟩, hredeem, hcheck⟩ := exists_of_succeeds hcheck
  obtain ⟨hhint, hv, h⟩ := redeemWithHints_ok hredeem
  have hexact := hall testnet (lateBlock 44000) s _ s' _ _ _ _ 100 hint _ hs rfl hhint rfl rfl h
  rw [hv, Except.ok.injEq] at hexact
  exact of_decide_eq_true hcheck hexact

end MoneyProtocol
