import MoneyProtocol.Safety.Surplus

/-!
# The lots of a redemption

Which vaults a redemption takes BPD from, and how much from each, is decided before it starts: by
the list, the debts with their rewards applied, the amount, and the ratio that the hint gives for
the last vault. The loop takes these lots one after the other.
-/

namespace MoneyProtocol

open Outcome MoneypMath MoneypBase

/-- What a redemption takes from one vault. -/
structure Lot where
  vault : Address
  BPD : ℕ

/-- The collateral drawn for a lot. -/
def Lot.RBTC (price : ℕ) (l : Lot) : ℕ := l.BPD * DECIMAL_PRECISION / price

def redeemedBy (lots : List Lot) : ℕ := (lots.map Lot.BPD).sum

def drawnBy (price : ℕ) (lots : List Lot) : ℕ := (lots.map (Lot.RBTC price)).sum

namespace Book

variable {b b₀ : Book} {a : Address} {price NICR n amount : ℕ}

/-- The debt of a vault that can be redeemed. -/
def redeemable (b : Book) (a : Address) : ℕ := b.appliedDebt a - BPD_GAS_COMPENSATION

/-- The hint is up to date for a redemption that runs out in this vault, and enough debt is left
in it. -/
def TakesPart (b : Book) (price NICR : ℕ) (a : Address) (amount : ℕ) : Prop :=
  nominalCR (b.entireColl a - amount * DECIMAL_PRECISION / price) (b.appliedDebt a - amount) =
      NICR ∧ minDebt ≤ b.appliedDebt a - amount

instance (b : Book) (price NICR : ℕ) (a : Address) (amount : ℕ) :
    Decidable (b.TakesPart price NICR a amount) :=
  inferInstanceAs (Decidable (_ ∧ _))

/-- The lots of a redemption of `amount` from `a` upwards, in at most `n` rounds. -/
def lots (b : Book) (price NICR : ℕ) : ℕ → Address → ℕ → List Lot
  | 0, _, _ => []
  | n + 1, a, amount =>
    if a ≠ 0 ∧ amount > 0 then
      if amount < b.redeemable a then
        if b.TakesPart price NICR a amount then [⟨a, amount⟩] else []
      else ⟨a, b.redeemable a⟩ :: lots b price NICR n (SortedVaults.getPrev a b.sortedVaults)
        (amount - b.redeemable a)
    else []

theorem lots_idle (h : ¬(a ≠ 0 ∧ amount > 0)) : b.lots price NICR n a amount = [] := by
  cases n with
  | zero => rfl
  | succ n => rw [lots, if_neg h]

theorem lots_cancelled (h : amount < b.redeemable a) (hpart : ¬b.TakesPart price NICR a amount) :
    b.lots price NICR (n + 1) a amount = [] := by
  rw [lots, if_pos h, if_neg hpart, ite_self]

theorem lots_part (hvisit : a ≠ 0 ∧ amount > 0) (h : amount < b.redeemable a)
    (hpart : b.TakesPart price NICR a amount) :
    b.lots price NICR (n + 1) a amount = [⟨a, amount⟩] := by
  rw [lots, if_pos hvisit, if_pos h, if_pos hpart]

theorem lots_full (hvisit : a ≠ 0 ∧ amount > 0) (h : b.redeemable a ≤ amount) :
    b.lots price NICR (n + 1) a amount = ⟨a, b.redeemable a⟩ ::
      b.lots price NICR n (SortedVaults.getPrev a b.sortedVaults) (amount - b.redeemable a) := by
  rw [lots, if_pos hvisit, if_neg (Nat.not_lt.mpr h)]

end Book

namespace VaultManager

open Book

variable {d : Deployment} {s s' : State} {a : Address} {price n : ℕ} {b₀ : Book}
  {hints : RedemptionHints} {t t' : RedemptionTotals} {xs : List Address}

/-- The totals after one more lot. -/
def RedemptionTotals.take (price : ℕ) (t : RedemptionTotals) (l : Lot) : RedemptionTotals :=
  ⟨t.remainingBPD - l.BPD, t.totalBPDToRedeem + l.BPD, t.totalRBTCDrawn + l.RBTC price⟩

/-- What a visit to the vault `a` comes to: it is cancelled, the amount runs out in the vault, or
the vault is closed and the loop goes on. -/
inductive Visit (d : Deployment) (price : ℕ) (hints : RedemptionHints) (b₀ : Book) (n : ℕ)
    (a : Address) (xs : List Address) (t t' : RedemptionTotals) (s₁ s' : State) : Prop
  | cancelled (hless : t.remainingBPD < b₀.redeemable a)
      (hpart : ¬b₀.TakesPart price hints.partialRedemptionHintNICR a t.remainingBPD)
      (ht : t' = t) (hs : s' = s₁)
  | part (hless : t.remainingBPD < b₀.redeemable a)
      (hpart : b₀.TakesPart price hints.partialRedemptionHintNICR a t.remainingBPD)
      (hcoll : (⟨a, t.remainingBPD⟩ : Lot).RBTC price ≤ b₀.entireColl a)
      (ht : t' = t.take price ⟨a, t.remainingBPD⟩)
      (hs : redeemPartially d a (b₀.entireColl a - (⟨a, t.remainingBPD⟩ : Lot).RBTC price)
        (b₀.appliedDebt a - t.remainingBPD) hints.partialRedemptionHintNICR hints s₁ = .ok s')
  | full {s₂ : State} (hle : b₀.redeemable a ≤ t.remainingBPD)
      (hreserve : BPD_GAS_COMPENSATION ≤ b₀.appliedDebt a)
      (hcoll : (⟨a, b₀.redeemable a⟩ : Lot).RBTC price ≤ b₀.entireColl a)
      (hs : redeemFully d a (b₀.entireColl a - (⟨a, b₀.redeemable a⟩ : Lot).RBTC price) s₁ =
        .ok s₂)
      (hrest : redeemLoop d price hints n (SortedVaults.getPrev a b₀.sortedVaults)
        (t.take price ⟨a, b₀.redeemable a⟩) s₂ = .ok (t', s'))
      (hahead : SortedVaults.getPrev a b₀.sortedVaults = 0 ∨
        SameAhead b₀ s₂.book (SortedVaults.getPrev a b₀.sortedVaults) xs.dropLast)

theorem redeemLoop_idle (hidle : ¬(a ≠ 0 ∧ t.remainingBPD > 0)) :
    redeemLoop d price hints n a t s = .ok (t, s) := by
  cases n with
  | zero => rfl
  | succ n =>
    rw [redeemLoop, if_neg hidle]
    rfl

/-- One round of the loop. -/
theorem redeemLoop_visit (hvisit : a ≠ 0 ∧ t.remainingBPD > 0) (hahead : SameAhead b₀ s.book a xs)
    (h : redeemLoop d price hints (n + 1) a t s = .ok (t', s')) :
    ∃ s₁, applyPendingRewards d a s = .ok s₁ ∧ Visit d price hints b₀ n a xs t t' s₁ s' := by
  rw [redeemLoop, if_pos hvisit] at h
  simp only [bind_ok, Prod.exists] at h
  obtain ⟨s₁, hpending, v, s₂, hv, h⟩ := h
  refine ⟨s₁, hpending, ?_⟩
  have hdebt := (applyPendingRewards_debt hpending).trans hahead.appliedDebt
  have hcoll : (s₁.vault a).coll = b₀.entireColl a :=
    (applyPendingRewards_coll hpending).trans hahead.entireColl
  have hprev : SortedVaults.getPrev a s.sortedVaults = SortedVaults.getPrev a b₀.sortedVaults :=
    hahead.getPrev.1.trans hahead.getPrev.2.symm
  have hcancelled := redeemCollateralFromVault_cancelled hv
  obtain ⟨hlot, hRBTCLot, hreserve, -, hRBTC, hcases⟩ := redeemCollateralFromVault_ok hv
  rw [hdebt, hcoll] at hcancelled
  rw [hdebt] at hlot hreserve
  rw [hdebt, hcoll] at hcases
  rw [hcoll] at hRBTC
  have hmin : minDebt = MIN_NET_DEBT + BPD_GAS_COMPENSATION := rfl
  rcases hcases with ⟨hcancel, rfl⟩ | ⟨hkept, hfull, hredeem⟩ |
    ⟨hkept, hpart, hleft, hNICR, hredeem⟩
  · obtain ⟨hpart, hwrong⟩ := hcancelled hcancel
    have hless : t.remainingBPD < b₀.redeemable a := by
      unfold redeemable
      omega
    have hall : v.BPDLot = t.remainingBPD := by
      unfold redeemable at hless
      omega
    rw [if_pos hcancel] at h
    simp only [pure_ok, Prod.mk.injEq] at h
    refine .cancelled hless ?_ h.1.symm h.2.symm
    rw [hRBTCLot, hall] at hwrong
    intro htakes
    rcases hwrong with hwrong | hlow
    · exact hwrong htakes.1
    · have := htakes.2
      omega
  · have hle : b₀.redeemable a ≤ t.remainingBPD := by
      unfold redeemable
      omega
    have hall : v.BPDLot = b₀.redeemable a := by
      unfold redeemable
      omega
    simp only [hkept, Bool.false_eq_true, if_false, bind_ok] at h
    obtain ⟨t₁, ht₁, h⟩ := h
    have hnext := redeemFully_ahead hahead hpending hredeem
    rw [addRedemptionToTotals_ok ht₁, hRBTCLot, hall, hprev] at h
    rw [hprev] at hnext
    rw [hRBTCLot, hall] at hredeem hRBTC
    exact .full hle hreserve hRBTC hredeem h hnext
  · have hless : t.remainingBPD < b₀.redeemable a := by
      unfold redeemable
      omega
    have hall : v.BPDLot = t.remainingBPD := by
      unfold redeemable at hless
      omega
    simp only [hkept, Bool.false_eq_true, if_false, bind_ok] at h
    obtain ⟨t₁, ht₁, h⟩ := h
    rw [redeemLoop_done (by rw [addRedemptionToTotals_ok ht₁]; simp only; omega)] at h
    simp only [Except.ok.injEq, Prod.mk.injEq] at h
    obtain ⟨rfl, rfl⟩ := h
    rw [addRedemptionToTotals_ok ht₁]
    rw [hRBTCLot, hall] at hredeem hRBTC hNICR ⊢
    rw [hall] at hleft
    exact .part hless ⟨computeNominalCR_ok hNICR, by omega⟩ hRBTC rfl hredeem

/-- The totals are those of the lots. -/
theorem redeemLoop_totals (hahead : a = 0 ∨ SameAhead b₀ s.book a xs)
    (h : redeemLoop d price hints n a t s = .ok (t', s')) :
    t'.totalBPDToRedeem = t.totalBPDToRedeem +
        redeemedBy (b₀.lots price hints.partialRedemptionHintNICR n a t.remainingBPD) ∧
      t'.totalRBTCDrawn = t.totalRBTCDrawn +
        drawnBy price (b₀.lots price hints.partialRedemptionHintNICR n a t.remainingBPD) := by
  induction n generalizing a t s xs with
  | zero =>
    simp only [redeemLoop, pure_ok, Prod.mk.injEq] at h
    rw [← h.1]
    exact ⟨rfl, rfl⟩
  | succ n ih =>
    by_cases hvisit : a ≠ 0 ∧ t.remainingBPD > 0
    · obtain ⟨s₁, -, hround⟩ := redeemLoop_visit hvisit (hahead.resolve_left hvisit.1) h
      cases hround with
      | cancelled hless hpart ht =>
        rw [ht, lots_cancelled hless hpart]
        exact ⟨rfl, rfl⟩
      | part hless hpart _ ht =>
        rw [ht, lots_part hvisit hless hpart]
        simp [RedemptionTotals.take, redeemedBy, drawnBy]
      | full hle _ _ _ hrest hnext =>
        obtain ⟨hredeemed, hdrawn⟩ := ih hnext hrest
        rw [hredeemed, hdrawn, lots_full hvisit hle]
        simp only [RedemptionTotals.take, redeemedBy, drawnBy, List.map_cons, List.sum_cons]
        exact ⟨Nat.add_assoc _ _ _, Nat.add_assoc _ _ _⟩
    · rw [redeemLoop_idle hvisit, Except.ok.injEq, Prod.mk.injEq] at h
      rw [← h.1, lots_idle hvisit]
      exact ⟨rfl, rfl⟩

/-- A redemption that has passed its checks and redeemed the vaults. -/
structure Redeemed where
  price : ℕ
  supply : ℕ
  first : Address
  totals : RedemptionTotals
  state : State

/-- The iterations of the loop; zero stands for no limit. -/
def iterations (maxIterations : ℕ) : ℕ := if maxIterations = 0 then UINT256_MAX else maxIterations

def redeemVaults (d : Deployment) (block : Block) (msgSender : Address) (BPDamount : ℕ)
    (hints : RedemptionHints) (maxIterations maxFeePercentage : ℕ) (s : State) :
    Outcome Redeemed := do
  requireValidMaxFeePercentage maxFeePercentage
  requireAfterBootstrapPeriod d block
  let (price, s) ← PriceFeed.fetchPrice block s
  requireTCRoverMCR price s
  requireAmountGreaterThanZero BPDamount
  requireBPDBalanceCoversRedemption msgSender BPDamount s
  let supply ← getEntireSystemDebt s
  assert (s.bpdToken.balances msgSender ≤ supply)
  let first ← firstBorrower price hints s
  let (t, s) ← redeemLoop d price hints (iterations maxIterations) first ⟨BPDamount, 0, 0⟩ s
  return ⟨price, supply, first, t, s⟩

variable {block : Block} {sender : Address} {amount maxIterations maxFee : ℕ} {r : Redeemed}

/-- The rest is the settlement. -/
theorem redeemCollateral_eq :
    redeemCollateral d block sender amount hints maxIterations maxFee s = (do
      let r ← redeemVaults d block sender amount hints maxIterations maxFee s
      settleRedemption d block sender r.price maxFee r.supply r.totals r.state) := by
  simp only [redeemCollateral, redeemVaults, iterations, bind_assoc, pure_bind]

/-- What has been redeemed can be read off the state before. -/
structure Redeems (d : Deployment) (block : Block) (sender : Address) (amount : ℕ)
    (hints : RedemptionHints) (maxIterations : ℕ) (s : State) (r : Redeemed) : Prop where
  priced : ∃ f, PriceFeed.fetchPrice block s = .ok (r.price, { s with priceFeed := f }) ∧
    firstBorrower r.price hints { s with priceFeed := f } = .ok r.first ∧
    redeemLoop d r.price hints (iterations maxIterations) r.first ⟨amount, 0, 0⟩
      { s with priceFeed := f } = .ok (r.totals, r.state)
  ratio : ∃ TCR, getTCR r.price s = .ok TCR ∧ MCR ≤ TCR
  amount_pos : 0 < amount
  amount_le : amount ≤ s.bpdToken.balances sender
  balance_le : s.bpdToken.balances sender ≤ r.supply
  supply_eq : r.supply = s.activePool.BPDDebt + s.defaultPool.BPDDebt

theorem redeemVaults_ok
    (h : redeemVaults d block sender amount hints maxIterations maxFee s = .ok r) :
    Redeems d block sender amount hints maxIterations s r := by
  simp only [redeemVaults, requireTCRoverMCR, requireAmountGreaterThanZero,
    requireBPDBalanceCoversRedemption, getEntireSystemDebt, bind_ok, pure_ok, require_ok, assert_ok,
    SafeMath.add_ok, Prod.exists] at h
  obtain ⟨_, -, _, -, price, _, hprice, _, ⟨TCR, hTCR, hle⟩, _, hpos, _, hcovers, _, ⟨-, rfl⟩, _,
    hbalance, first, hfirst, t, s₁, hloop, rfl⟩ := h
  obtain ⟨f, rfl⟩ := PriceFeed.fetchPrice_ok hprice
  exact ⟨⟨f, hprice, hfirst, hloop⟩, ⟨TCR, hTCR, hle⟩, hpos, hcovers, hbalance, rfl⟩

/-- The vault it starts with, with the list ahead of it. -/
theorem firstBorrower_ahead {zs : List Address}
    (hlinked : SortedVaults.Linked s.sortedVaults zs)
    (h : firstBorrower price hints s = .ok a) : ∃ xs, a = 0 ∨ SameAhead s.book s.book a xs := by
  rcases firstBorrower_mem hlinked h with hzero | hmem
  · exact ⟨[], .inl hzero⟩
  · obtain ⟨xs, ys, rfl⟩ := List.append_of_mem hmem
    exact ⟨xs, .inr (.refl hlinked)⟩

/-- The lots that a redemption takes, read off the state before it. -/
def lotsOf (hints : RedemptionHints) (maxIterations amount : ℕ) (s : State) (r : Redeemed) :
    List Lot :=
  s.book.lots r.price hints.partialRedemptionHintNICR (iterations maxIterations) r.first amount

theorem Redeems.totals {zs : List Address} (hlinked : SortedVaults.Linked s.sortedVaults zs)
    (h : Redeems d block sender amount hints maxIterations s r) :
    r.totals.totalBPDToRedeem = redeemedBy (lotsOf hints maxIterations amount s r) ∧
      r.totals.totalRBTCDrawn = drawnBy r.price (lotsOf hints maxIterations amount s r) := by
  obtain ⟨f, -, hfirst, hloop⟩ := h.priced
  obtain ⟨xs, hahead⟩ := firstBorrower_ahead (s := { s with priceFeed := f }) hlinked hfirst
  obtain ⟨hredeemed, hdrawn⟩ := redeemLoop_totals hahead hloop
  rw [Nat.zero_add] at hredeemed hdrawn
  exact ⟨hredeemed, hdrawn⟩

end VaultManager

end MoneyProtocol
