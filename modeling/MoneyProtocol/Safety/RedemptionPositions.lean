import MoneyProtocol.Redemption.Positions
import MoneyProtocol.Safety.DefaultPool
import MoneyProtocol.Safety.RedemptionFairness

/-!
# Nobody picks the vault

On a list that is ordered, a first hint is accepted at one place only, the one that the walk from
the tail finds. The hints for the place of the last vault do not matter either. Two redemptions
that differ in their hints alone therefore take the same amounts from the same vaults.
-/

namespace MoneyProtocol

open Outcome MoneypMath MoneypBase Book VaultManager HintHelpers PointSum

variable {d : Deployment} {s s' s₀ : State} {block : Block} {a u sender : Address} {price : ℕ}
  {hints hints' : RedemptionHints} {xs ys zs : List Address}

namespace VaultManager

/-- The ratio is not below the minimum. -/
def Sound (price : ℕ) (s : State) (u : Address) : Prop := MCR ≤ amount (getCurrentICR u price s)

instance (price : ℕ) (s : State) (u : Address) : Decidable (Sound price s u) :=
  inferInstanceAs (Decidable (_ ≤ _))

/-- The first sound vault from the tail on. -/
def lowestSound (price : ℕ) (s : State) : Address :=
  ((SortedVaults.lastVaults s.sortedVaults.size s.sortedVaults).find? fun u =>
    decide (Sound price s u)).getD 0

theorem sound_iff {ICR : ℕ} (h : getCurrentICR u price s = .ok ICR) :
    Sound price s u ↔ ¬ICR < MCR := by
  rw [Sound, h, amount_ok, not_lt]

/-- The walk from the tail ends at the first sound vault. -/
theorem skipUnderCollateralized_find {fuel : ℕ}
    (hlinked : SortedVaults.Linked s.sortedVaults (xs ++ ys))
    (hreadable : ∀ u ∈ xs, ∃ ICR, getCurrentICR u price s = .ok ICR) (hfuel : xs.length < fuel) :
    skipUnderCollateralized price s fuel (xs.getLastD 0) =
      .ok ((xs.reverse.find? fun u => decide (Sound price s u)).getD 0) := by
  induction fuel generalizing xs ys with
  | zero => contradiction
  | succ fuel ih =>
    rcases xs.eq_nil_or_concat with rfl | ⟨front, x, rfl⟩
    · rfl
    · rw [List.concat_eq_append] at hlinked hreadable hfuel ⊢
      rw [List.append_assoc] at hlinked
      have hx : x ≠ 0 := hlinked.ne_zero (by simp)
      have hprev : SortedVaults.getPrev x s.sortedVaults = front.getLastD 0 :=
        hlinked.represents.prev_eq
      obtain ⟨ICR, hICR⟩ := hreadable x (by simp)
      rw [List.getLastD_concat, skipUnderCollateralized, if_neg hx, List.reverse_append,
        List.reverse_singleton, List.singleton_append, List.find?_cons]
      simp only [hICR, bind_ok, Except.ok.injEq, exists_eq_left']
      by_cases hlow : ICR < MCR
      · have hunsound : ¬Sound price s x := fun h => (sound_iff hICR).mp h hlow
        rw [if_pos hlow, decide_eq_false hunsound, hprev]
        apply ih hlinked
        · exact fun u hu => hreadable u (List.mem_append_left _ hu)
        · rw [List.length_append, List.length_singleton] at hfuel
          omega
      · rw [if_neg hlow, decide_eq_true ((sound_iff hICR).mpr hlow)]
        rfl

end VaultManager

theorem OrderedByICR.exists_ICR (h : OrderedByICR price s)
    (hlinked : SortedVaults.Linked s.sortedVaults zs) (hu : u ∈ zs) :
    ∃ ICR, getCurrentICR u price s = .ok ICR := by
  have hmem : u ∈ SortedVaults.lastVaults s.sortedVaults.size s.sortedVaults := by
    rw [SortedVaults.lastVaults_eq hlinked, hlinked.size_eq,
      List.take_of_length_le List.length_reverse.le]
    exact List.mem_reverse.mpr hu
  obtain ⟨ICR, hICR, -⟩ := exists_of_succeeds (h.readable u hmem)
  exact ⟨ICR, hICR⟩

/-- A vault with a sound ratio in front of unsound ones is the first sound vault. -/
theorem OrderedByICR.lowestSound_eq (h : OrderedByICR price s)
    (hlinked : SortedVaults.Linked s.sortedVaults (xs ++ a :: ys)) (ha : Sound price s a)
    (hnext : ∀ y ∈ ys.head?, ¬Sound price s y) : lowestSound price s = a := by
  have hbehind : ∀ u ∈ ys.reverse, ¬decide (Sound price s u) = true := by
    intro u hu
    rw [decide_eq_true_iff]
    have hordered := h.ordered
    rw [lastVaults_split hlinked] at hordered
    cases ys with
    | nil => contradiction
    | cons y ys =>
      have hy := hnext y rfl
      rw [List.reverse_cons, List.mem_append, List.mem_singleton] at hu
      rcases hu with hu | rfl
      · rw [List.reverse_cons] at hordered
        have hle := (List.pairwise_append.mp (List.pairwise_append.mp hordered).1).2.2 u hu y
          (List.mem_singleton_self y)
        exact fun hsound => hy (le_trans hsound hle)
      · exact hy
  rw [lowestSound, lastVaults_split hlinked, List.find?_append,
    List.find?_eq_none.mpr hbehind, Option.none_or, List.find?_cons, decide_eq_true ha]
  rfl

/-- Whatever the hint is, the redemption starts at the first sound vault. -/
theorem OrderedByICR.firstBorrower_eq (h : OrderedByICR price s)
    (hlinked : SortedVaults.Linked s.sortedVaults zs) (hints : RedemptionHints) :
    firstBorrower price hints s = .ok (lowestSound price s) := by
  have hwalk : skipUnderCollateralized price s (s.sortedVaults.size + 1)
      (SortedVaults.getLast s.sortedVaults) = .ok (lowestSound price s) := by
    have htail : SortedVaults.getLast s.sortedVaults = zs.getLastD 0 :=
      hlinked.represents.tail_eq
    rw [htail, lowestSound, SortedVaults.lastVaults_eq hlinked, hlinked.size_eq,
      List.take_of_length_le List.length_reverse.le]
    rw [← List.append_nil zs] at hlinked
    apply skipUnderCollateralized_find hlinked
    · intro u hu
      rw [List.append_nil] at hlinked
      exact h.exists_ICR hlinked hu
    · exact Nat.lt_succ_self _
  have hinvalid
      (hvalid : isValidFirstRedemptionHint hints.firstRedemptionHint price s = .ok false) :
      firstBorrower price hints s = .ok (lowestSound price s) := by
    rw [firstBorrower, hvalid]
    exact hwalk
  by_cases hno : hints.firstRedemptionHint = 0 ∨
      ¬SortedVaults.contains hints.firstRedemptionHint s.sortedVaults
  · apply hinvalid
    rw [isValidFirstRedemptionHint, if_pos hno]
    rfl
  · have hcontains := (not_or.mp hno).2
    rw [not_not] at hcontains
    obtain ⟨xs, ys, rfl⟩ := List.append_of_mem (hlinked.contains_iff.mp hcontains)
    obtain ⟨ICR, hICR⟩ := h.exists_ICR hlinked (u := hints.firstRedemptionHint) (by simp)
    have hnext : SortedVaults.getNext hints.firstRedemptionHint s.sortedVaults = ys.headD 0 :=
      hlinked.represents.next_eq
    by_cases hlow : ICR < MCR
    · apply hinvalid
      rw [isValidFirstRedemptionHint, if_neg hno, hICR]
      exact if_pos hlow
    · have hsound := (sound_iff hICR).mpr hlow
      cases ys with
      | nil =>
        have hvalid : isValidFirstRedemptionHint hints.firstRedemptionHint price s = .ok true := by
          rw [isValidFirstRedemptionHint, if_neg hno, hICR]
          exact (if_neg hlow).trans (if_pos hnext)
        rw [h.lowestSound_eq hlinked hsound fun y hy => absurd hy (Option.not_mem_none y)]
        rw [firstBorrower, hvalid]
        rfl
      | cons y ys =>
        rw [List.headD_cons] at hnext
        obtain ⟨nextICR, hnextICR⟩ := h.exists_ICR hlinked (u := y) (by simp)
        have hy : y ≠ 0 := hlinked.ne_zero (by simp)
        have hvalid : isValidFirstRedemptionHint hints.firstRedemptionHint price s =
            .ok (decide (nextICR < MCR)) := by
          rw [isValidFirstRedemptionHint, if_neg hno, hICR, hnext]
          refine (if_neg hlow).trans ((if_neg hy).trans ?_)
          rw [hnextICR]
          rfl
        by_cases hnextLow : nextICR < MCR
        · rw [h.lowestSound_eq hlinked hsound fun z hz => by
            rw [List.head?_cons, Option.mem_some_iff] at hz
            rw [← hz, sound_iff hnextICR, not_not]
            exact hnextLow]
          rw [firstBorrower, hvalid, decide_eq_true hnextLow]
          rfl
        · rw [decide_eq_false hnextLow] at hvalid
          exact hinvalid hvalid

/-- No sound vault has a smaller ratio. -/
structure Lowest (price : ℕ) (s : State) (a : Address) : Prop where
  active : s.Active a
  ratio : ∃ ICR, getCurrentICR a price s = .ok ICR ∧ MCR ≤ ICR ∧
    ∀ u, s.Active u → ∀ r, getCurrentICR u price s = .ok r → MCR ≤ r → ICR ≤ r

theorem OrderedByICR.lowest (h : OrderedByICR price s) (hzs : s.book.Registry zs)
    (hne : lowestSound price s ≠ 0) : Lowest price s (lowestSound price s) := by
  have hlinked : SortedVaults.Linked s.sortedVaults zs := hzs.linked
  have hlist : SortedVaults.lastVaults s.sortedVaults.size s.sortedVaults = zs.reverse := by
    rw [SortedVaults.lastVaults_eq hlinked, hlinked.size_eq,
      List.take_of_length_le List.length_reverse.le]
  have hordered := h.ordered
  unfold lowestSound at hne ⊢
  rw [hlist] at hordered hne ⊢
  cases hfind : zs.reverse.find? fun u => decide (Sound price s u) with
  | none =>
    rw [hfind] at hne
    contradiction
  | some a =>
    obtain ⟨hsound, behind, ahead, hsplit, hunsound⟩ := List.find?_eq_some_iff_append.mp hfind
    have ha : a ∈ zs := by
      rw [← List.mem_reverse, hsplit]
      simp
    obtain ⟨ICR, hICR⟩ := h.exists_ICR hlinked ha
    have hle := (sound_iff hICR).mp (of_decide_eq_true hsound)
    refine ⟨(hzs.active a).mpr ha, ICR, hICR, not_lt.mp hle, fun u hu r hr hsound' => ?_⟩
    have hmem : u ∈ zs.reverse := List.mem_reverse.mpr ((hzs.active u).mp hu)
    rw [hsplit, List.mem_append, List.mem_cons] at hmem
    rcases hmem with hmem | rfl | hmem
    · have hdecided := hunsound u hmem
      rw [Bool.not_eq_true', decide_eq_false_iff_not, sound_iff hr, not_not] at hdecided
      omega
    · rw [hICR, Except.ok.injEq] at hr
      exact hr.le
    · rw [hsplit] at hordered
      have hup := (List.pairwise_cons.mp (List.pairwise_append.mp hordered).2.1).1 u hmem
      rw [hICR, hr] at hup
      exact hup

theorem entireColl_lt (hs : Reachable d s) (u : Address) : s.book.entireColl u < 2 ^ 129 := by
  obtain ⟨zs, hzs⟩ := hs.registry
  have hcoll := hs.balanced.coll
  have hbacking := hs.balanced.backing
  have hpooled := hs.balanced.pooled
  have hnative := hs.balanced.native
  have hactive := le_total id s.rbtc d.activePool
  have hdefault := le_total id s.rbtc d.defaultPool
  have hrecorded := le_total Vault.coll s.vaultManager.vaults u
  have hpending : s.book.pending .RBTC u ≤ s.book.pooled .RBTC := pending_le hzs hs.dust.1 u
  simp only [State.ledger, id_eq] at hcoll hbacking hpooled hnative hactive hdefault
  have heq : s.book.entireColl u = (s.vaultManager.vaults u).coll + s.book.pending .RBTC u := rfl
  have hpool : s.book.pooled .RBTC = s.defaultPool.RBTC := rfl
  omega

/-- Where the ratios in the list can be read, so can all nominal ratios. -/
theorem OrderedByICR.allReadable (hs : Reachable d s) (h : OrderedByICR price s) :
    Readable s := by
  obtain ⟨zs, hzs⟩ := hs.registry
  intro u
  by_cases hu : u ∈ zs
  · obtain ⟨ICR, hICR⟩ := h.exists_ICR hzs.linked hu
    simp only [getCurrentICR, bind_ok, Prod.exists] at hICR
    obtain ⟨coll, debt, hamounts, -⟩ := hICR
    have hfits : coll * NICR_PRECISION < 2 ^ 256 := by
      rw [(getCurrentVaultAmounts_ok hamounts).1]
      calc s.book.entireColl u * NICR_PRECISION < 2 ^ 129 * NICR_PRECISION :=
            Nat.mul_lt_mul_of_pos_right (entireColl_lt hs u) (by decide)
        _ < 2 ^ 256 := by decide
    simp only [getNominalICR, hamounts, bind_ok, Except.ok.injEq, exists_eq_left']
    unfold computeNominalCR
    split_ifs with hdebt
    · simp only [bind_ok, SafeMath.mul_ok, SafeMath.div_ok]
      exact ⟨_, _, ⟨hfits, rfl⟩, hdebt, rfl⟩
    · exact ⟨_, rfl⟩
  · obtain ⟨hcoll, hdebt, -⟩ := hzs.inactive u hu
    obtain ⟨hsnapshot, hsnapshot'⟩ := hzs.snapshots u
    have hinactive : (s.vault u).status ≠ .active := fun h => hu ((hzs.active u).mp h)
    have hcoll : (s.vault u).coll = 0 := hcoll
    have hdebt : (s.vault u).debt = 0 := hdebt
    have hamounts := getCurrentVaultAmounts_current (a := u)
      (pendingReward_none hsnapshot (.inr hinactive))
      (pendingReward_none hsnapshot' (.inr hinactive))
      (by rw [hcoll]; exact Nat.two_pow_pos 256) (by rw [hdebt]; exact Nat.two_pow_pos 256)
    refine ⟨UINT256_MAX, ?_⟩
    rw [getNominalICR, hamounts, hcoll, hdebt]
    rfl

namespace VaultManager

variable {BPDamount maxIterations maxFee : ℕ} {r r' : Redeemed} {data : SortedVaults}

/-- The fee that the settlement asks for. -/
def redemptionFeeOf (block : Block) (r : Redeemed) : Outcome ℕ := do
  let s ← updateBaseRateFromRedemption block r.totals.totalRBTCDrawn r.price r.supply r.state
  getRedemptionFee r.totals.totalRBTCDrawn s

/-- With other places for the vaults. -/
def Redeemed.relisted (data : SortedVaults) (r : Redeemed) : Redeemed :=
  { r with state := setSortedVaults data r.state }

/-- Two redemptions of the same vaults, from the lowest one upwards, by the same amounts and for
the same fee. -/
structure SameRedemption (block : Block) (hints hints' : RedemptionHints)
    (maxIterations BPDamount : ℕ) (s : State) (r r' : Redeemed) (s₁ s₂ : State) : Prop where
  first : Lowest r.price s r.first
  start : r'.first = r.first
  lots : lotsOf hints' maxIterations BPDamount s r' = lotsOf hints maxIterations BPDamount s r
  taken : ∀ l ∈ lotsOf hints maxIterations BPDamount s r,
    Taken r.price s r.state l ∧ Taken r.price s r'.state l
  spared : ∀ u ∉ (lotsOf hints maxIterations BPDamount s r).map Lot.vault,
    Spared s r.state u ∧ Spared s r'.state u
  drawn : r'.totals.totalRBTCDrawn = r.totals.totalRBTCDrawn ∧
    r.totals.totalRBTCDrawn = drawnBy r.price (lotsOf hints maxIterations BPDamount s r)
  redeemed : r'.totals.totalBPDToRedeem = r.totals.totalBPDToRedeem ∧
    r.totals.totalBPDToRedeem = redeemedBy (lotsOf hints maxIterations BPDamount s r)
  charged : ∃ fee, redemptionFeeOf block r = .ok fee ∧ redemptionFeeOf block r' = .ok fee
  left : ∃ data, s₂ = setSortedVaults data s₁

theorem Taken.relisted {l : Lot} (data : SortedVaults) (h : Taken price s s' l) :
    Taken price s (setSortedVaults data s') l := by
  cases h with
  | closed hall hreserve hcoll hstatus hcredit => exact .closed hall hreserve hcoll hstatus hcredit
  | part hleft hdebt hcoll hstatus hcredit => exact .part hleft hdebt hcoll hstatus hcredit

theorem Spared.relisted (data : SortedVaults) (h : Spared s s' u) :
    Spared s (setSortedVaults data s') u :=
  ⟨h.record, h.status, h.credit⟩

theorem settleRedemption_fee {supply : ℕ} {t : RedemptionTotals}
    (h : settleRedemption d block sender price maxFee supply t s = .ok s') (first : Address) :
    ∃ fee, ∀ data, redemptionFeeOf block ⟨price, supply, first, t, setSortedVaults data s⟩ =
      .ok fee := by
  simp only [settleRedemption, bind_ok] at h
  obtain ⟨_, -, s₁, hrate, fee, hfee, -⟩ := h
  refine ⟨fee, fun data => ?_⟩
  simp only [redemptionFeeOf, bind_ok]
  exact ⟨_, updateBaseRateFromRedemption_relisted hrate, hfee⟩

/-- Other hints change nothing but places. -/
theorem redeemVaults_hints (hs : Reachable d s)
    (hordered : ∀ price s₀, PriceFeed.fetchPrice block s = .ok (price, s₀) → OrderedByICR price s)
    (hNICR : hints'.partialRedemptionHintNICR = hints.partialRedemptionHintNICR)
    (h : redeemVaults d block sender BPDamount hints maxIterations maxFee s = .ok r) :
    r.first = lowestSound r.price s ∧ OrderedByICR r.price s ∧
      ∃ data, redeemVaults d block sender BPDamount hints' maxIterations maxFee s =
        .ok (r.relisted data) := by
  obtain ⟨zs, hzs⟩ := hs.registry
  simp only [redeemVaults, bind_ok, pure_ok, Prod.exists] at h
  obtain ⟨_, hmax, _, hbootstrap, price, s₁, hprice, _, hratio, _, hpos, _, hcovers, supply,
    hsupply, _, hbalance, first, hfirst, t, s₂, hloop, rfl⟩ := h
  obtain ⟨f, rfl⟩ := PriceFeed.fetchPrice_ok hprice
  have hordered := hordered price _ hprice
  have hreadable : Readable s := hordered.allReadable hs
  have hreadable : Readable { s with priceFeed := f } := fun u => hreadable u
  have hordered₀ : OrderedByICR price { s with priceFeed := f } :=
    ⟨hordered.readable, hordered.ordered⟩
  have hstart (hints : RedemptionHints) :
      firstBorrower price hints { s with priceFeed := f } = .ok (lowestSound price s) :=
    hordered₀.firstBorrower_eq hzs.linked hints
  rw [hstart, Except.ok.injEq] at hfirst
  obtain ⟨data, hloop'⟩ := redeemLoop_hints hreadable hzs hNICR hloop
  refine ⟨hfirst.symm, hordered, data, ?_⟩
  simp only [redeemVaults, bind_ok, pure_ok, Prod.exists]
  refine ⟨(), hmax, (), hbootstrap, price, _, hprice, (), hratio, (), hpos, (), hcovers, supply,
    hsupply, (), hbalance, first, ?_, t, _, hloop', rfl⟩
  rw [hstart, hfirst]

/-- A redemption that succeeds does so with other hints, to the same effect. -/
theorem redeemCollateral_hints (hs : Reachable d s)
    (hordered : ∀ price s₀, PriceFeed.fetchPrice block s = .ok (price, s₀) → OrderedByICR price s)
    (hNICR : hints'.partialRedemptionHintNICR = hints.partialRedemptionHintNICR)
    (h : redeemCollateral d block sender BPDamount hints maxIterations maxFee s = .ok s') :
    ∃ r r' s₂, redeemVaults d block sender BPDamount hints maxIterations maxFee s = .ok r ∧
      redeemVaults d block sender BPDamount hints' maxIterations maxFee s = .ok r' ∧
      redeemCollateral d block sender BPDamount hints' maxIterations maxFee s = .ok s₂ ∧
      SameRedemption block hints hints' maxIterations BPDamount s r r' s' s₂ := by
  obtain ⟨zs, hzs⟩ := hs.registry
  rw [redeemCollateral_eq, bind_ok] at h
  obtain ⟨r, hr, hsettle⟩ := h
  obtain ⟨hfirst, hordered, data, hr'⟩ := redeemVaults_hints hs hordered hNICR hr
  have hredeems := redeemVaults_ok hr
  obtain ⟨hredeemed, hdrawn⟩ := hredeems.totals hzs.linked
  have hlots : lotsOf hints' maxIterations BPDamount s (r.relisted data) =
      lotsOf hints maxIterations BPDamount s r := by
    unfold lotsOf Redeemed.relisted
    rw [hNICR]
  obtain ⟨f, -, hfirst', hloop⟩ := hredeems.priced
  obtain ⟨xs, hahead⟩ := firstBorrower_ahead (s := { s with priceFeed := f }) hzs.linked hfirst'
  obtain ⟨htaken, hspared⟩ := redeemLoop_vaults hahead hzs hloop
  have hsame (u : Address) : Untouched s.book ({ s with priceFeed := f } : State).book u :=
    .refl _ _
  obtain ⟨fee, hfee⟩ := settleRedemption_fee hsettle r.first
  refine ⟨r, r.relisted data, setSortedVaults data s', hr, hr', ?_, ?_⟩
  · rw [redeemCollateral_eq, bind_ok]
    exact ⟨_, hr', settleRedemption_relisted hsettle⟩
  · refine ⟨?_, rfl, hlots, ?_, ?_, ⟨rfl, hdrawn⟩, ⟨rfl, hredeemed⟩, ⟨fee, hfee _, hfee _⟩, data,
      rfl⟩
    · rw [hfirst]
      apply hordered.lowest hzs
      intro hzero
      have hpos := settleRedemption_drawn hsettle
      rw [hdrawn, lotsOf, hfirst, hzero, lots_idle fun hvisit => hvisit.1 rfl] at hpos
      exact absurd hpos (lt_irrefl _)
    · intro l hl
      have htaken := (htaken l hl).later (hsame l.vault) rfl
      exact ⟨htaken, htaken.relisted data⟩
    · intro u hu
      have hspared := (hspared u hu).later (hsame u) rfl
      exact ⟨hspared, hspared.relisted data⟩

/-- Whatever the hints for the places are, two calls both fail, or redeem the same vaults from the
lowest one upwards by the same amounts for the same fee. -/
theorem redemption_ignores_places (sender : Address) (BPDamount maxIterations maxFee : ℕ)
    (hints hints' : RedemptionHints) (hs : Reachable d s)
    (hordered : ∀ price s₀, PriceFeed.fetchPrice block s = .ok (price, s₀) → OrderedByICR price s)
    (hNICR : hints'.partialRedemptionHintNICR = hints.partialRedemptionHintNICR) :
    (∃ e e', redeemCollateral d block sender BPDamount hints maxIterations maxFee s = .error e ∧
      redeemCollateral d block sender BPDamount hints' maxIterations maxFee s = .error e') ∨
    ∃ r r' s₁ s₂,
      redeemVaults d block sender BPDamount hints maxIterations maxFee s = .ok r ∧
      redeemVaults d block sender BPDamount hints' maxIterations maxFee s = .ok r' ∧
      redeemCollateral d block sender BPDamount hints maxIterations maxFee s = .ok s₁ ∧
      redeemCollateral d block sender BPDamount hints' maxIterations maxFee s = .ok s₂ ∧
      SameRedemption block hints hints' maxIterations BPDamount s r r' s₁ s₂ := by
  cases h : redeemCollateral d block sender BPDamount hints maxIterations maxFee s with
  | ok s₁ =>
    obtain ⟨r, r', s₂, hr, hr', h', hsame⟩ := redeemCollateral_hints hs hordered hNICR h
    exact .inr ⟨r, r', s₁, s₂, hr, hr', rfl, h', hsame⟩
  | error e =>
    cases h' : redeemCollateral d block sender BPDamount hints' maxIterations maxFee s with
    | error e' => exact .inl ⟨e, e', rfl, rfl⟩
    | ok s₂ =>
      obtain ⟨-, -, s₁, -, -, hother, -⟩ := redeemCollateral_hints hs hordered hNICR.symm h'
      rw [h] at hother
      contradiction

/-- The vault of 103 is redeemed in full and that of 100 in part, with the hint for the first vault
and without, and with other neighbours for the last. -/
theorem redemption_ignores_places_partial : ∃ s hint r r' s₁ s₂, Reachable testnet s ∧
    OrderedByICR (44000 * 10 ^ 18) s ∧
    getRedemptionHints (2510 * 10 ^ 18) (44000 * 10 ^ 18) 5 s = .ok hint ∧
    SameRedemption (lateBlock 44000)
      ⟨hint.firstRedemptionHint, 0, 0, hint.partialRedemptionHintNICR⟩
      ⟨0, 100, 103, hint.partialRedemptionHintNICR⟩ 5 hint.truncatedBPDamount s r r' s₁ s₂ := by
  obtain ⟨s, hs, -, hcheck⟩ := runs_reachable testnet testGenesis
    [⟨testBlock 60000, 100, 5 * 10 ^ 18, .openVault (10 ^ 16) (10000 * 10 ^ 18) 0 0⟩,
      ⟨testBlock 60000, 101, 55 * 10 ^ 15, .openVault (10 ^ 16) (2000 * 10 ^ 18) 0 0⟩,
      ⟨testBlock 44000, 102, 0, .liquidate 101⟩,
      ⟨testBlock 44000, 103, 10 ^ 17, .openVault (10 ^ 16) (2000 * 10 ^ 18) 0 0⟩]
    (fun s => OrderedByICR (44000 * 10 ^ 18) s ∧ succeeds (fun _ => true)
      (redeemWithHints testnet (lateBlock 44000) 100 (44000 * 10 ^ 18) (2510 * 10 ^ 18) 5 s))
    (by decide +kernel)
  obtain ⟨hordered, hredeem⟩ := of_decide_eq_true hcheck
  obtain ⟨⟨hint, v, s₁⟩, hredeem, -⟩ := exists_of_succeeds hredeem
  obtain ⟨hhint, -, h⟩ := redeemWithHints_ok hredeem
  have hprice (price : ℕ) (s₀ : State)
      (hfetch : PriceFeed.fetchPrice (lateBlock 44000) s = .ok (price, s₀)) :
      OrderedByICR price s := by
    have hfetched : PriceFeed.fetchPrice (lateBlock 44000) s = .ok (44000 * 10 ^ 18, _) := rfl
    rw [hfetched, Except.ok.injEq, Prod.mk.injEq] at hfetch
    rw [← hfetch.1]
    exact hordered
  rcases redemption_ignores_places 100 hint.truncatedBPDamount 5 (10 ^ 18)
    ⟨hint.firstRedemptionHint, 0, 0, hint.partialRedemptionHintNICR⟩
    ⟨0, 100, 103, hint.partialRedemptionHintNICR⟩ hs hprice rfl with
    ⟨e, e', hfailed, -⟩ | ⟨r, r', s₁, s₂, -, -, -, -, hsame⟩
  · rw [h] at hfailed
    contradiction
  · exact ⟨s, hint, r, r', s₁, s₂, hs, hordered, hhint, hsame⟩

end VaultManager

end MoneyProtocol
