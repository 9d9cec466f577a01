import MoneyProtocol.Redemption.Stops
import MoneyProtocol.Safety.RedemptionFairness
import MoneyProtocol.Sdk.Redemption
import MoneyProtocol.Sdk.Vault

/-!
# Truncated redemptions

Where an amount cannot be redeemed in full, `redeemBPD` truncates it, and can raise what is left
by the minimum net debt. That is the next amount that can be redeemed if the walk of the hints
stopped inside a vault. If it stopped after its last iteration or at the end of the list, the
raised redemption takes no more than the truncated one.
-/

namespace MoneyProtocol.Sdk

open Outcome Decimal VaultManager HintHelpers Book

variable {d : Deployment} {s s' s₀ : State} {t : Transaction} {block : Block} {first : Address}
  {timestamp price amount v maxIterations maxFee : ℕ} {findHints : ℕ → Address × Address}
  {maxRedemptionRate newMaxRedemptionRate : Option Decimal} {zs : List Address}

/-- A prepared redemption with the amount that was asked for. -/
structure PopulatedBitcoinsRedemption extends PopulatedRedemption where
  attemptedBPDAmount : Decimal

variable {p q : PopulatedBitcoinsRedemption}

def PopulatedBitcoinsRedemption.isTruncated (p : PopulatedBitcoinsRedemption) : Prop :=
  p.truncatedAmount < p.attemptedBPDAmount

instance (p : PopulatedBitcoinsRedemption) : Decidable p.isTruncated :=
  inferInstanceAs (Decidable (_ < _))

/-- What `redeemBPD` returns. -/
def prepareRedemption (findHints : ℕ → Address × Address) (timestamp price amount : ℕ)
    (maxRedemptionRate : Option Decimal) (s : State) : Outcome PopulatedBitcoinsRedemption := do
  let p ← redeemBPD findHints timestamp price amount maxRedemptionRate s
  return ⟨p, amount⟩

/-- The maximum of the first call is used again unless there is a new one. -/
def increaseAmountByMinimumNetDebt (timestamp price : ℕ)
    (maxRedemptionRate newMaxRedemptionRate : Option Decimal) (p : PopulatedBitcoinsRedemption)
    (s : State) : Outcome PopulatedBitcoinsRedemption := do
  require p.isTruncated ("PopulatedBitcoinsRedemption: increaseAmountByMinimumNetDebt() can " ++
    "only be called when amount is truncated")
  let attemptedBPDAmount := add p.truncatedAmount BPD_MINIMUM_NET_DEBT
  let hints : RedemptionHints := ⟨p.hints.firstRedemptionHint, 0, 0, 0⟩
  match newMaxRedemptionRate <|> maxRedemptionRate with
  | some maxRedemptionRate =>
    return ⟨⟨attemptedBPDAmount, hints, maxRedemptionRate⟩, attemptedBPDAmount⟩
  | none => do
    let maxRedemptionRate ← defaultMaxRedemptionRate timestamp price attemptedBPDAmount s
    return ⟨⟨attemptedBPDAmount, hints, maxRedemptionRate⟩, attemptedBPDAmount⟩

/-- The raised amount is redeemed exactly and by whole vaults, and no amount between the truncated
one and it can be redeemed exactly, whatever the other hints are. -/
structure RaisedExactly (d : Deployment) (block : Block) (sender : Address)
    (p : PopulatedBitcoinsRedemption) (s s' : State) : Prop where
  burned : s'.bpdToken.balances sender + (p.truncatedAmount + BPD_MINIMUM_NET_DEBT) =
    s.bpdToken.balances sender
  whole : ∃ lots : List Lot, redeemedBy lots = p.truncatedAmount + BPD_MINIMUM_NET_DEBT ∧
    (∀ l ∈ lots, RedeemedFully s s' l) ∧ ∀ u ∉ lots.map Lot.vault, Keeps s s' u
  next : ∀ v, p.truncatedAmount < v → v < p.truncatedAmount + BPD_MINIMUM_NET_DEBT →
    ∀ hints maxIterations, hints.firstRedemptionHint = p.hints.firstRedemptionHint →
      redeemedBPD d block v hints maxIterations s ≠ .ok v

/-- What is left out of a truncated redemption is what the walk of the hints leaves. -/
theorem prepareRedemption_walk
    (h : prepareRedemption findHints timestamp price amount maxRedemptionRate s = .ok p)
    (htruncated : p.isTruncated) :
    ∃ w, hintLoop price s redeemMaxIterations p.hints.firstRedemptionHint amount = .ok w ∧
      0 < w.remainingBPD ∧ p.truncatedAmount = amount - w.remainingBPD ∧
      skipUnderCollateralized price s (s.sortedVaults.size + 1)
        (SortedVaults.getLast s.sortedVaults) = .ok p.hints.firstRedemptionHint := by
  simp only [prepareRedemption, bind_ok, pure_ok] at h
  obtain ⟨p', hp, rfl⟩ := h
  simp only [redeemBPD, findRedemptionHints, getRedemptionHints, bind_ok, pure_ok, Prod.exists,
    SafeMath.sub_ok, Prod.mk.injEq] at hp
  obtain ⟨truncated, hints, ⟨hint, ⟨first, hskip, w, hwalk, _, ⟨hle, rfl⟩, rfl⟩, rfl, rfl⟩, _, -,
    hp⟩ := hp
  have hparts : p'.truncatedAmount = amount - w.remainingBPD ∧
      p'.hints.firstRedemptionHint = first := by
    cases maxRedemptionRate with
    | some maxRedemptionRate =>
      obtain rfl := pure_ok.mp hp
      exact ⟨rfl, rfl⟩
    | none =>
      simp only [bind_ok, pure_ok] at hp
      obtain ⟨_, -, rfl⟩ := hp
      exact ⟨rfl, rfl⟩
  have hless : amount - w.remainingBPD < amount := by
    rw [← hparts.1]
    exact htruncated
  dsimp only
  rw [hparts.2]
  exact ⟨w, hwalk, by omega, hparts.1, hskip⟩

theorem increaseAmountByMinimumNetDebt_ok
    (h : increaseAmountByMinimumNetDebt timestamp price maxRedemptionRate newMaxRedemptionRate p s =
      .ok q) :
    q.truncatedAmount = p.truncatedAmount + BPD_MINIMUM_NET_DEBT ∧
      q.hints = ⟨p.hints.firstRedemptionHint, 0, 0, 0⟩ := by
  simp only [increaseAmountByMinimumNetDebt, bind_ok] at h
  obtain ⟨_, -, h⟩ := h
  cases hmax : newMaxRedemptionRate <|> maxRedemptionRate with
  | some maxRedemptionRate =>
    rw [hmax] at h
    obtain rfl := pure_ok.mp h
    exact ⟨rfl, rfl⟩
  | none =>
    rw [hmax] at h
    simp only [bind_ok, pure_ok] at h
    obtain ⟨_, -, rfl⟩ := h
    exact ⟨rfl, rfl⟩

/-- Hints with the first vault of the walk start the redemption there. -/
theorem firstBorrower_fetched {hints : RedemptionHints} {current : Address} {f : PriceFeed}
    (hskip : skipUnderCollateralized price s (s.sortedVaults.size + 1)
      (SortedVaults.getLast s.sortedVaults) = .ok first)
    (hhint : hints.firstRedemptionHint = first)
    (h : firstBorrower price hints { s with priceFeed := f } = .ok current) : current = first := by
  have hskip : skipUnderCollateralized price { s with priceFeed := f } (s.sortedVaults.size + 1)
      (SortedVaults.getLast s.sortedVaults) = .ok first := by
    rw [skipUnderCollateralized_congr]
    exact hskip
  exact firstBorrower_hinted hskip hhint h

theorem redeemedBPD_lots {hints : RedemptionHints} (hzs : s.book.Registry zs)
    (hprice : PriceFeed.fetchPrice block s = .ok (price, s₀))
    (hskip : skipUnderCollateralized price s (s.sortedVaults.size + 1)
      (SortedVaults.getLast s.sortedVaults) = .ok first)
    (hhint : hints.firstRedemptionHint = first)
    (h : redeemedBPD d block amount hints maxIterations s = .ok v) :
    v = redeemedBy (s.book.lots price hints.partialRedemptionHintNICR (iterations maxIterations)
      first amount) := by
  simp only [redeemedBPD, hprice, bind_ok, pure_ok, Prod.exists, Except.ok.injEq,
    Prod.mk.injEq] at h
  obtain ⟨_, _, ⟨rfl, rfl⟩, current, hfirst, r, s₁, hloop, rfl⟩ := h
  obtain ⟨f, rfl⟩ := PriceFeed.fetchPrice_ok hprice
  obtain ⟨xs, hahead⟩ := firstBorrower_ahead (s := { s with priceFeed := f }) hzs.linked hfirst
  obtain rfl := firstBorrower_fetched hskip hhint hfirst
  have hredeemed := (redeemLoop_totals hahead hloop).1
  rw [Nat.zero_add] at hredeemed
  exact hredeemed

/-- The raised redemption works if and only if the walk of the hints stopped inside a vault, and
any debt that was hidden on the way is made up for by the vaults in front of it. -/
theorem raised_redemption_iff (hs : Reachable d s) (hsigned : t.Signed d)
    (hprice : PriceFeed.fetchPrice t.block s = .ok (price, s₀))
    (hp : prepareRedemption findHints timestamp price amount maxRedemptionRate s = .ok p)
    (htruncated : p.isTruncated)
    (hq : increaseAmountByMinimumNetDebt timestamp price maxRedemptionRate newMaxRedemptionRate p
      s = .ok q)
    (hop : t.operation = q.operation maxFee) (h : transact d t s = .ok s') :
    RaisedExactly d t.block t.sender p s s' ↔
      s.book.StopsInside redeemMaxIterations p.hints.firstRedemptionHint amount := by
  obtain ⟨zs, hzs⟩ := hs.registry
  obtain ⟨w, hwalk, hrest, htruncatedAmount, hskip⟩ := prepareRedemption_walk hp htruncated
  obtain ⟨hraised, hhints⟩ := increaseAmountByMinimumNetDebt_ok hq
  have hsender : d.External t.sender := hsigned.1
  simp only [transact, hop, PopulatedRedemption.operation, nonPayable, hraised, hhints,
    bind_ok] at h
  obtain ⟨_, -, h⟩ := h
  obtain ⟨r, -, hredeems, -, htakes⟩ := redeemCollateral_takes hzs hsender h
  obtain ⟨ys, hys⟩ := redeemCollateral_registry hzs hsender h
  obtain ⟨f, hfetch, hfirst, hloop⟩ := hredeems.priced
  rw [hprice, Except.ok.injEq, Prod.mk.injEq] at hfetch
  obtain ⟨rfl, rfl⟩ := hfetch
  have hmem := firstBorrower_mem (s := { s with priceFeed := f }) hzs.linked hfirst
  obtain ⟨xs, hahead⟩ := firstBorrower_ahead (s := { s with priceFeed := f }) hzs.linked hfirst
  have hstart : r.first = p.hints.firstRedemptionHint := firstBorrower_fetched hskip rfl hfirst
  have hwhole (l : Lot) (hl : l ∈ lotsOf ⟨p.hints.firstRedemptionHint, 0, 0, 0⟩
      redeemMaxIterations (p.truncatedAmount + BPD_MINIMUM_NET_DEBT) s r) :
      l.BPD = s.book.redeemable l.vault :=
    redeemLoop_whole rfl hahead hloop hl
  have hstops : s.book.AddsUp redeemMaxIterations p.hints.firstRedemptionHint
      (p.truncatedAmount + BPD_MINIMUM_NET_DEBT) ↔
        s.book.StopsInside redeemMaxIterations p.hints.firstRedemptionHint amount := by
    rw [htruncatedAmount]
    exact hintLoop_addsUp_iff 0 hzs (hstart ▸ hmem) hwalk hrest
  have hlots : redeemedBy (lotsOf ⟨p.hints.firstRedemptionHint, 0, 0, 0⟩ redeemMaxIterations
      (p.truncatedAmount + BPD_MINIMUM_NET_DEBT) s r) =
        p.truncatedAmount + BPD_MINIMUM_NET_DEBT ↔
      s.book.AddsUp redeemMaxIterations r.first (p.truncatedAmount + BPD_MINIMUM_NET_DEBT) :=
    redeemedBy_lots_iff hwhole
  rw [← hstops, ← hstart, ← hlots]
  constructor
  · intro hexact
    have hburned := hexact.burned
    rw [← htakes.burned] at hburned
    exact (Nat.add_left_cancel hburned).symm
  · intro hsum
    refine ⟨?_, ⟨_, hsum, fun l hl => ?_, htakes.kept⟩, ?_⟩
    · rw [← htakes.burned]
      exact congrArg _ hsum.symm
    · exact (htakes.taken l hl).fully hys (hwhole l hl)
    · intro v hlow hhigh hints maxIterations hhint hredeemed
      have heq := redeemedBPD_lots hzs hprice hskip hhint hredeemed
      rw [← hstart] at heq
      exact redeemedBy_lots_ne hzs hmem (hlots.mp hsum) (Nat.add_lt_add_right hlow _) hhigh
        heq.symm

/-- 100 asks for a redemption, raises it and sends it, with a maximum of 100%. -/
def testRaised (price amount : ℕ) (s : State) :
    Outcome (PopulatedBitcoinsRedemption × PopulatedBitcoinsRedemption × State) := do
  let p ← prepareRedemption (fun _ => (0, 0)) BOOTSTRAP_PERIOD (price * 10 ^ 18) amount none s
  let q ← increaseAmountByMinimumNetDebt BOOTSTRAP_PERIOD (price * 10 ^ 18) none none p s
  let s' ← transact testnet ⟨lateBlock price, 100, 0, q.operation ONE⟩ s
  return (p, q, s')

theorem testRaised_ok {price : ℕ} (h : testRaised price amount s = .ok (p, q, s')) :
    prepareRedemption (fun _ => (0, 0)) BOOTSTRAP_PERIOD (price * 10 ^ 18) amount none s = .ok p ∧
      increaseAmountByMinimumNetDebt BOOTSTRAP_PERIOD (price * 10 ^ 18) none none p s = .ok q ∧
      transact testnet ⟨lateBlock price, 100, 0, q.operation ONE⟩ s = .ok s' := by
  simp only [testRaised, bind_ok, pure_ok, Prod.mk.injEq] at h
  obtain ⟨_, hp, _, hq, _, hs', rfl, rfl, rfl⟩ := h
  exact ⟨hp, hq, hs'⟩

/-- The vault of 103 has 2010 BPD to redeem; 1000 of them are truncated to 210. -/
theorem raised_redemption_iff_inside : ∃ s s' p, Reachable testnet s ∧
    p.truncatedAmount = 210 * 10 ^ 18 ∧ RaisedExactly testnet (lateBlock 60000) 100 p s s' := by
  obtain ⟨s, hs, -, hcheck⟩ := runs_reachable testnet testGenesis
    [⟨testBlock 60000, 100, 5 * 10 ^ 18, .openVault (10 ^ 16) (10000 * 10 ^ 18) 0 0⟩,
      ⟨testBlock 60000, 103, 10 ^ 17, .openVault (10 ^ 16) (2000 * 10 ^ 18) 0 0⟩]
    (fun s => succeeds (fun r => decide (r.1.isTruncated ∧
        r.1.truncatedAmount = 210 * 10 ^ 18 ∧
        s.book.StopsInside redeemMaxIterations r.1.hints.firstRedemptionHint (1000 * 10 ^ 18)))
      (testRaised 60000 (1000 * 10 ^ 18) s)) (by decide +kernel)
  obtain ⟨⟨p, q, s'⟩, hraised, hcheck⟩ := exists_of_succeeds hcheck
  obtain ⟨htruncated, hamount, hstops⟩ := of_decide_eq_true hcheck
  obtain ⟨hp, hq, h⟩ := testRaised_ok hraised
  have hsender : testnet.External 100 := by decide +kernel
  exact ⟨s, s', p, hs, hamount,
    (raised_redemption_iff hs ⟨hsender, trivial⟩ rfl hp htruncated hq rfl h).mpr hstops⟩

/-- The vault of 101 is below the minimum ratio, so that the list ends with the vault of 100. The
raised redemption is of 11850 BPD, and takes the 10050 of the truncated one. -/
theorem raised_redemption_truncated : ¬∀ (d : Deployment) (s s₀ s' : State) (t : Transaction)
    (findHints : ℕ → Address × Address) (timestamp price amount maxFee : ℕ)
    (maxRedemptionRate newMaxRedemptionRate : Option Decimal) (p q : PopulatedBitcoinsRedemption),
    Reachable d s → t.Signed d → PriceFeed.fetchPrice t.block s = .ok (price, s₀) →
      prepareRedemption findHints timestamp price amount maxRedemptionRate s = .ok p →
      p.isTruncated →
      increaseAmountByMinimumNetDebt timestamp price maxRedemptionRate newMaxRedemptionRate p s =
        .ok q →
      t.operation = q.operation maxFee → transact d t s = .ok s' →
      RaisedExactly d t.block t.sender p s s' := by
  intro hall
  obtain ⟨s, hs, -, hcheck⟩ := runs_reachable testnet testGenesis
    [⟨testBlock 60000, 100, 5 * 10 ^ 18, .openVault (10 ^ 16) (10000 * 10 ^ 18) 0 0⟩,
      ⟨testBlock 60000, 101, 5 * 10 ^ 16, .openVault (10 ^ 16) (2000 * 10 ^ 18) 0 0⟩,
      ⟨testBlock 60000, 101, 0, .transfer 100 (2000 * 10 ^ 18)⟩]
    (fun s => succeeds (fun r => decide (r.1.isTruncated ∧
        r.2.2.bpdToken.balances 100 + (r.1.truncatedAmount + BPD_MINIMUM_NET_DEBT) ≠
          s.bpdToken.balances 100))
      (testRaised 44000 (12000 * 10 ^ 18) s)) (by decide +kernel)
  obtain ⟨⟨p, q, s'⟩, hraised, hcheck⟩ := exists_of_succeeds hcheck
  obtain ⟨htruncated, hwrong⟩ := of_decide_eq_true hcheck
  obtain ⟨hp, hq, h⟩ := testRaised_ok hraised
  have hsender : testnet.External 100 := by decide +kernel
  have hexact := hall testnet s _ s' _ _ _ _ _ ONE none none p q hs ⟨hsender, trivial⟩ rfl hp
    htruncated hq rfl h
  exact hwrong hexact.burned

end MoneyProtocol.Sdk
