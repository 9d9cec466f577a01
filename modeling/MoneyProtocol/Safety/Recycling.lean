import MoneyProtocol.Contracts.BorrowerWrappersScript
import MoneyProtocol.Frontend.ContractChecks
import MoneyProtocol.Redemption.Stops
import MoneyProtocol.Safety.RedemptionRate

/-!
# Recycling keeps the ratio

The script borrows what the claimed RBTC bear at the ratio of the vault. All roundings are in
favour of the ratio, and they take at most two wei off what is borrowed with its fee. Debt that a
vault hides is not applied before the vault gets its new stake, and changes with the stake.
-/

namespace MoneyProtocol

open Outcome MoneypMath MoneypBase Book VaultManager BorrowerOperations BorrowerWrappersScript

variable {d : Deployment} {s s' s₁ s₂ : State} {block : Block} {a upperHint lowerHint : Address}
  {maxFee claimed v price rate : ℕ}

/-- A top-up, as the state before it determines it. -/
structure TopUp where
  claimed : ℕ
  price : ℕ
  isRecoveryMode : Bool
  ICR : ℕ
  rate : ℕ

namespace TopUp

/-- The debt that the claimed RBTC bear at the ratio of the vault. -/
def worth (t : TopUp) : ℕ := t.claimed * t.price / t.ICR

def netDebt (t : TopUp) : ℕ := t.worth * DECIMAL_PRECISION / (DECIMAL_PRECISION + t.rate)

/-- What is borrowed, with the fee. -/
def addedDebt (t : TopUp) : ℕ :=
  t.netDebt + if t.isRecoveryMode then 0 else t.rate * t.netDebt / DECIMAL_PRECISION

variable {t : TopUp}

/-- With the fee no more is borrowed than the RBTC bear. -/
theorem addedDebt_le (t : TopUp) : t.addedDebt ≤ t.worth := by
  have hpos : 0 < DECIMAL_PRECISION + t.rate := Nat.add_pos_left DECIMAL_PRECISION_pos _
  have hnet : t.netDebt * (DECIMAL_PRECISION + t.rate) ≤ t.worth * DECIMAL_PRECISION :=
    Nat.div_mul_le_self _ _
  have hfee : t.rate * t.netDebt / DECIMAL_PRECISION * DECIMAL_PRECISION ≤ t.rate * t.netDebt :=
    Nat.div_mul_le_self _ _
  apply Nat.le_of_mul_le_mul_right _ DECIMAL_PRECISION_pos
  apply le_trans _ hnet
  unfold addedDebt
  split_ifs
  · rw [Nat.add_zero]
    exact Nat.mul_le_mul_left _ (Nat.le_add_right _ _)
  · rw [Nat.add_mul, Nat.mul_add]
    apply Nat.add_le_add_left
    rw [Nat.mul_comm t.netDebt]
    exact hfee

/-- The two divisions lose at most two wei. -/
theorem worth_le (hmode : t.isRecoveryMode = false) (hrate : t.rate < DECIMAL_PRECISION) :
    t.worth ≤ t.addedDebt + 2 := by
  have hpos : 0 < DECIMAL_PRECISION + t.rate := Nat.add_pos_left DECIMAL_PRECISION_pos _
  have hnet : t.worth * DECIMAL_PRECISION <
      t.netDebt * (DECIMAL_PRECISION + t.rate) + (DECIMAL_PRECISION + t.rate) :=
    Nat.lt_div_mul_add hpos
  have hfee : t.rate * t.netDebt <
      t.rate * t.netDebt / DECIMAL_PRECISION * DECIMAL_PRECISION + DECIMAL_PRECISION :=
    Nat.lt_div_mul_add DECIMAL_PRECISION_pos
  have hadded : t.addedDebt = t.netDebt + t.rate * t.netDebt / DECIMAL_PRECISION := by
    rw [addedDebt, hmode, if_neg Bool.false_ne_true]
  have hlt : t.worth * DECIMAL_PRECISION < (t.addedDebt + 3) * DECIMAL_PRECISION := by
    rw [hadded]
    generalize t.rate * t.netDebt / DECIMAL_PRECISION = fee at hfee ⊢
    calc t.worth * DECIMAL_PRECISION
        < t.netDebt * (DECIMAL_PRECISION + t.rate) + (DECIMAL_PRECISION + t.rate) := hnet
      _ = t.netDebt * DECIMAL_PRECISION + t.rate * t.netDebt + (DECIMAL_PRECISION + t.rate) := by
        ring
      _ ≤ t.netDebt * DECIMAL_PRECISION + (fee * DECIMAL_PRECISION + DECIMAL_PRECISION) +
          (DECIMAL_PRECISION + DECIMAL_PRECISION) :=
        Nat.add_le_add (Nat.add_le_add_left hfee.le _) (Nat.add_le_add_left hrate.le _)
      _ = (t.netDebt + fee + 3) * DECIMAL_PRECISION := by ring
  have := Nat.lt_of_mul_lt_mul_right hlt
  omega

/-- Collateral and debt that grow at the same ratio. -/
theorem borne {coll debt : ℕ} (hdebt : 0 < debt) (hratio : collRatio coll debt t.price = t.ICR)
    (hpos : 0 < t.ICR) : debt + t.addedDebt ≤ (coll + t.claimed) * t.price / t.ICR := by
  have hold : debt * t.ICR ≤ coll * t.price := by
    rw [← hratio, collRatio, if_pos hdebt, Nat.mul_comm]
    exact Nat.div_mul_le_self _ _
  have hnew : t.addedDebt * t.ICR ≤ t.claimed * t.price :=
    (Nat.mul_le_mul_right _ t.addedDebt_le).trans (Nat.div_mul_le_self _ _)
  rw [Nat.le_div_iff_mul_le hpos, Nat.add_mul, Nat.add_mul]
  exact Nat.add_le_add hold hnew

end TopUp

namespace Book

/-- The debt that a vault hides once its stake is that of `coll`. -/
def restakedHidden (b : Book) (a : Address) (coll : ℕ) : ℕ :=
  if b.Stale a then
    b.newStake coll * (b.B_BPDDebt - (b.rewardSnapshots a).BPDDebt) / DECIMAL_PRECISION
  else 0

/-- With the new stake the hidden debt grows by no more than the roundings leave, and outside
Recovery Mode shrinks by no more than they have taken. -/
def HidesEvenly (b : Book) (a : Address) (t : TopUp) : Prop :=
  b.restakedHidden a (b.entireColl a + t.claimed) ≤ b.hiddenDebt a +
      ((b.entireColl a + t.claimed) * t.price / t.ICR - (b.entireDebt a + t.addedDebt)) ∧
    (t.isRecoveryMode = false → b.hiddenDebt a ≤
      b.restakedHidden a (b.entireColl a + t.claimed) + (t.addedDebt + 2 - t.worth))

instance (b : Book) (a : Address) (t : TopUp) : Decidable (b.HidesEvenly a t) :=
  inferInstanceAs (Decidable (_ ∧ (_ → _)))

variable {b : Book} {t : TopUp} {coll : ℕ}

theorem hidesEvenly_of_not_stale (h : ¬b.Stale a) : b.HidesEvenly a t := by
  have hshown : ¬b.Hides a := fun hhides => h hhides.1
  have hhidden : b.hiddenDebt a = 0 := by
    rw [hiddenDebt, appliedDebt_eq hshown, Nat.sub_self]
  have hrestaked : b.restakedHidden a (b.entireColl a + t.claimed) = 0 := if_neg h
  unfold HidesEvenly
  rw [hhidden, hrestaked]
  exact ⟨Nat.zero_le _, fun _ => Nat.zero_le _⟩

end Book

/-- Collecting leaves a stale vault as it is. -/
theorem applyPendingRewards_stale (hstale : s.book.Stale a)
    (h : applyPendingRewards d a s = .ok s') : s' = s := by
  rcases applyPendingRewards_book (P := .any) h with ⟨hpending, -, -⟩ | ⟨-, hsame⟩
  · rw [hasPendingRewards] at hpending
    split_ifs at hpending
    exact absurd (of_decide_eq_true hpending) (not_lt.mpr hstale.1)
  · exact hsame

/-- Collecting leaves no debt pending in any other vault. -/
theorem applyPendingRewards_current (hactive : s.book.Active a) (hstale : ¬s.book.Stale a)
    (h : applyPendingRewards d a s = .ok s') :
    s'.book.B_BPDDebt ≤ (s'.book.rewardSnapshots a).BPDDebt := by
  have hstatus : (s.vault a).status = .active := hactive
  rcases applyPendingRewards_book (P := .any) h with ⟨-, -, hbook⟩ | ⟨hnone, rfl⟩
  · rw [hbook]
    simp [Book.collected]
  · rw [hasPendingRewards, if_neg (not_not.mpr hstatus)] at hnone
    by_contra hlt
    exact hstale ⟨not_lt.mp (of_decide_eq_false hnone), not_le.mp hlt⟩

/-- After an adjustment no collateral is pending, and no debt but that which stays hidden. -/
theorem AdjustmentEffect.entire {adj : Adjustment} (e : AdjustmentEffect d block v a adj s s') :
    s'.book.entireColl a = e.newColl ∧
      s'.book.entireDebt a = e.newDebt + s.book.restakedHidden a e.newColl := by
  have hfetched : e.fetched.book = s.book := PriceFeed.fetchPrice_book e.fetches
  have hactive : e.fetched.book.Active a := by
    rw [hfetched]
    exact e.active
  have hcollected : e.collected.book.Active a := by
    rcases applyPendingRewards_book (P := .any) e.collects with ⟨-, -, hbook⟩ | ⟨-, hsame⟩
    · rw [hbook]
      simpa [Book.Active, Book.collected] using hactive
    · rw [hsame]
      exact hactive
  have hnone := applyPendingRewards_none e.collects hcollected
  have hstatus : (e.collected.book.vaults a).status = .active := hcollected
  have hpending : e.collected.book.newStake e.newColl *
      (e.collected.book.B_BPDDebt - (e.collected.book.rewardSnapshots a).BPDDebt) /
        DECIMAL_PRECISION = s.book.restakedHidden a e.newColl := by
    rw [← hfetched]
    unfold Book.restakedHidden
    split_ifs with hstale
    · rw [applyPendingRewards_stale hstale e.collects]
    · rw [Nat.sub_eq_zero_of_le (applyPendingRewards_current hactive hstale e.collects),
        Nat.mul_zero, Nat.zero_div]
  rw [e.book, ← hpending]
  constructor
  · simp [entireColl, pendingRBTC, Book.restaked, Nat.sub_eq_zero_of_le hnone]
  · simp [entireDebt, pendingDebt, Book.restaked, hstatus, Book.newStake]

/-- After an adjustment a vault that hid nothing has a snapshot of the present. -/
theorem AdjustmentEffect.current {adj : Adjustment} {xs : List Address}
    (e : AdjustmentEffect d block v a adj s s') (hxs : s.book.Registry xs)
    (hstale : ¬s.book.Stale a) :
    s'.book.rewardSnapshots a = ⟨s'.book.B_RBTC, s'.book.B_BPDDebt⟩ := by
  have hfetched : e.fetched.book = s.book := PriceFeed.fetchPrice_book e.fetches
  obtain ⟨hactive, ys, hys⟩ := e.collected_registry hxs
  obtain ⟨hRBTC, hdebt⟩ := hys.snapshots a
  have hnone := applyPendingRewards_none e.collects hactive
  have hcurrent : e.collected.book.B_BPDDebt ≤ (e.collected.book.rewardSnapshots a).BPDDebt := by
    rw [← hfetched] at hstale
    apply applyPendingRewards_current _ hstale e.collects
    rw [hfetched]
    exact e.active
  rw [e.book]
  show e.collected.book.rewardSnapshots a = ⟨e.collected.book.B_RBTC, e.collected.book.B_BPDDebt⟩
  rw [← hRBTC.antisymm hnone, ← hdebt.antisymm hcurrent]

/-- The pools and the price that ratios are read from. -/
def State.outlook (s : State) : ActivePool × DefaultPool × PriceFeed :=
  (s.activePool, s.defaultPool, s.priceFeed)

theorem callWithValue_outlook {caller : Address} (ha : d.External a)
    (h : callWithValue d caller a v s = .ok s') : s'.outlook = s.outlook := by
  rw [callWithValue_external ha h]
  rfl

namespace StabilityPool

theorem Bookkeeping.outlook (h : Bookkeeping s s') : s'.outlook = s.outlook := by
  obtain ⟨_, _, _, _, rfl⟩ := h
  rfl

theorem sendBPDToDepositor_outlook (h : sendBPDToDepositor d a v s = .ok s') :
    s'.outlook = s.outlook := by
  simp only [sendBPDToDepositor] at h
  split_ifs at h
  · rw [pure_ok.mp h]
  · simp only [BPDToken.returnFromPool, decreaseBPD, bind_ok, pure_ok] at h
    obtain ⟨_, hmove, _, -, rfl⟩ := h
    obtain ⟨-, -, -, rfl⟩ := BPDToken._transfer_ok hmove
    rfl

theorem sendRBTCGainToDepositor_outlook (ha : d.External a)
    (h : sendRBTCGainToDepositor d a v s = .ok s') : s'.outlook = s.outlook := by
  simp only [sendRBTCGainToDepositor] at h
  split_ifs at h
  · rw [pure_ok.mp h]
  · simp only [takeRBTC, bind_ok, pure_ok] at h
    obtain ⟨_, ⟨_, -, rfl⟩, h⟩ := h
    exact (callWithValue_outlook ha h).trans rfl

theorem withdrawFromSP_outlook (ha : d.External a) (h : withdrawFromSP d block a 0 s = .ok s') :
    s'.outlook = s.outlook := by
  simp only [withdrawFromSP, bind_ok, ite_pure_ok] at h
  obtain ⟨t, hprice, _, -, t₁, hissue, gain, -, _, -, _, -, t₂, hpay, _, -, _, -, t₃, hsend, _, -,
    hgain⟩ := h
  obtain ⟨-, rfl⟩ : (0 : ℕ) = 0 ∧ s = t := by simpa using hprice
  have h₁ : t₁.outlook = s.outlook := by
    obtain ⟨_, _, _, rfl⟩ := triggerMPIssuance_ok hissue
    rfl
  have h₂ : t₂.outlook = t₁.outlook := by
    obtain ⟨_, rfl⟩ := payOutMPGains_ok hpay
    rfl
  rw [sendRBTCGainToDepositor_outlook ha hgain, updateDepositAndSnapshots_bookkeeping.outlook,
    sendBPDToDepositor_outlook hsend, updateFrontEndStakeAndSnapshots_bookkeeping.outlook, h₂, h₁]

end StabilityPool

theorem MPStaking.unstake_outlook (ha : d.External a) (h : unstake d block a 0 s = .ok s') :
    s'.outlook = s.outlook := by
  simp only [unstake, sendGains, BPDToken.transfer, bind_ok] at h
  obtain ⟨_, -, RBTCGain, -, BPDGain, -, t, ht, t₁, ⟨_, -, hmove⟩, hsend⟩ := h
  obtain rfl : updateUserSnapshots a s = t := by simpa using ht
  obtain ⟨-, -, -, rfl⟩ := BPDToken._transfer_ok hmove
  exact (callWithValue_outlook ha hsend).trans rfl

/-- What is read of the vaults, of the price and of the base rate is the same in both states. -/
structure SameTerms (s s₁ : State) : Prop where
  book : s₁.book = s.book
  outlook : s₁.outlook = s.outlook
  lastFee : s₁.lastFee = s.lastFee

theorem SameTerms.system (h : SameTerms s s₁) : s₁.system = s.system := by
  have hactive : s₁.activePool = s.activePool := congrArg Prod.fst h.outlook
  have hdefault : s₁.defaultPool = s.defaultPool := congrArg (fun o => o.2.1) h.outlook
  rw [State.system, State.system, hactive, hdefault]

theorem SameTerms.priceFeed (h : SameTerms s s₁) : s₁.priceFeed = s.priceFeed :=
  congrArg (fun o => o.2.2) h.outlook

/-- One of the two functions has run, and `claimed` is the RBTC that it has claimed first. -/
def Recycles (d : Deployment) (block : Block) (a : Address) (maxFee : ℕ)
    (upperHint lowerHint : Address) (claimed : ℕ) (s s' : State) : Prop :=
  (∃ s₁, StabilityPool.withdrawFromSP d block a 0 s = .ok s₁ ∧
      s₁.rbtc a = s.rbtc a + claimed ∧
      claimSPRewardsAndRecycle d block a maxFee upperHint lowerHint s = .ok s') ∨
    ∃ s₁, MPStaking.unstake d block a 0 s = .ok s₁ ∧ s₁.rbtc a = s.rbtc a + claimed ∧
      claimStakingGainsAndRecycle d block a maxFee upperHint lowerHint s = .ok s'

theorem stakeClaimed_book {before after : ℕ} (h : stakeClaimed d block a before after s = .ok s') :
    s'.book = s.book := by
  simp only [stakeClaimed, bind_ok, ite_pure_ok] at h
  obtain ⟨_, -, ⟨-, h⟩ | ⟨-, rfl⟩⟩ := h
  · exact MPStaking.stake_book h
  · rfl

/-- What both functions come down to: a top-up after a claim that leaves the terms alone, and
calls that leave the vaults alone. -/
theorem Recycles.topUp (ha : d.External a) (hclaimed : 0 < claimed)
    (h : Recycles d block a maxFee upperHint lowerHint claimed s s') :
    ∃ s₁ s₂ BPDAmount, SameTerms s s₁ ∧
      topUpVault d block a claimed maxFee upperHint lowerHint s₁ = .ok (BPDAmount, s₂) ∧
      s'.book = s₂.book := by
  rcases h with ⟨s₁, hclaim, hgain, h⟩ | ⟨s₁, hclaim, hgain, h⟩
  · have hterms : SameTerms s s₁ := ⟨StabilityPool.withdrawFromSP_book hclaim,
      StabilityPool.withdrawFromSP_outlook ha hclaim,
      lastFee_of_standing (StabilityPool.withdrawFromSP_standing hclaim)⟩
    simp only [claimSPRewardsAndRecycle, hclaim, bind_ok, Except.ok.injEq, SafeMath.sub_ok] at h
    obtain ⟨_, rfl, _, ⟨-, rfl⟩, s₃, h, hstake⟩ := h
    rw [hgain, Nat.add_sub_cancel_left, if_pos hclaimed] at h
    simp only [bind_ok, ite_pure_ok, Prod.exists] at h
    obtain ⟨BPDAmount, s₂, htop, hprovide⟩ := h
    refine ⟨s₁, s₂, BPDAmount, hterms, htop, ?_⟩
    rw [stakeClaimed_book hstake]
    rcases hprovide with ⟨-, hprovide⟩ | ⟨-, rfl⟩
    · exact StabilityPool.provideToSP_book hprovide
    · rfl
  · have hterms : SameTerms s s₁ := ⟨MPStaking.unstake_book hclaim,
      MPStaking.unstake_outlook ha hclaim,
      lastFee_of_standing (MPStaking.unstake_standing hclaim)⟩
    simp only [claimStakingGainsAndRecycle, hclaim, bind_ok, Except.ok.injEq, SafeMath.sub_ok,
      Prod.exists] at h
    obtain ⟨_, rfl, _, ⟨-, rfl⟩, _, -, BPDAmount, s₂, htop, _, -, h⟩ := h
    rw [hgain, Nat.add_sub_cancel_left, if_pos hclaimed] at htop
    refine ⟨s₁, s₂, BPDAmount, hterms, htop, ?_⟩
    split_ifs at h
    · simp only [bind_ok] at h
      obtain ⟨s₃, hprovide, hstake⟩ := h
      rw [stakeClaimed_book hstake, StabilityPool.provideToSP_book hprovide]
    · rw [pure_ok.mp h]

/-- A second call in the block gives the same price. -/
theorem PriceFeed.fetchPrice_again {price' : ℕ} (hfeed : s₂.priceFeed = s₁.priceFeed)
    (h : PriceFeed.fetchPrice block s = .ok (price, s₁))
    (hagain : PriceFeed.fetchPrice block s₂ = .ok (price', s')) : price' = price := by
  have hfrom : ∀ feeds, fetchPriceFrom block feeds s = .ok (price, s₁) →
      fetchPriceFrom block feeds s₂ = .ok (price', s') → price' = price := by
    intro feeds
    induction feeds with
    | nil =>
      intro h hagain
      simp only [fetchPriceFrom, Except.ok.injEq, Prod.mk.injEq] at h hagain
      rw [← h.1, ← hagain.1, hfeed, h.2]
    | cons i feeds ih =>
      intro h hagain
      simp only [fetchPriceFrom] at h hagain
      cases hanswer : block.latestAnswer i with
      | none =>
        rw [hanswer] at h
        cases h
      | some answer =>
        obtain ⟨answer, success⟩ := answer
        rw [hanswer] at h hagain
        cases success
        · exact ih h hagain
        · simp only [if_true, Except.ok.injEq, Prod.mk.injEq] at h hagain
          rw [← h.1, ← hagain.1]
  exact hfrom _ h hagain

/-- The rate depends on the base rate and its time only. -/
theorem normalBorrowingRate_congr {timestamp : ℕ} (h : s'.lastFee = s.lastFee) :
    Sdk.normalBorrowingRate timestamp s' = Sdk.normalBorrowingRate timestamp s := by
  have hrate : s'.vaultManager.baseRate = s.vaultManager.baseRate := congrArg Prod.fst h
  have htime : s'.vaultManager.lastFeeOperationTime = s.vaultManager.lastFeeOperationTime :=
    congrArg Prod.snd h
  rw [Sdk.normalBorrowingRate, Sdk.normalBorrowingRate, Sdk.decayedBaseRate, Sdk.decayedBaseRate,
    hrate, htime]

theorem getBorrowingRateWithDecay_ok (h : getBorrowingRateWithDecay block s = .ok rate) :
    rate = Sdk.normalBorrowingRate block.timestamp s := by
  simp only [getBorrowingRateWithDecay, calcBorrowingRate, bind_ok, pure_ok, SafeMath.add_ok] at h
  obtain ⟨_, hdecay, _, ⟨-, rfl⟩, rfl⟩ := h
  obtain ⟨-, rfl⟩ := calcDecayedBaseRate_ok hdecay
  rfl

theorem borrowingRate_lt (h : getBorrowingRateWithDecay block s = .ok rate) :
    rate < DECIMAL_PRECISION := by
  simp only [getBorrowingRateWithDecay, calcBorrowingRate, bind_ok, pure_ok] at h
  obtain ⟨_, -, _, -, rfl⟩ := h
  exact (Nat.min_le_right _ _).trans_lt (by decide)

/-- The terms of a top-up of the vault of `a` as they are read in `s`. -/
structure TopUp.BeginsAt (t : TopUp) (block : Block) (a : Address) (s : State) : Prop where
  fetches : ∃ s₀, PriceFeed.fetchPrice block s = .ok (t.price, s₀)
  mode : checkRecoveryMode t.price s = .ok t.isRecoveryMode
  ratio : getCurrentICR a t.price s = .ok t.ICR
  borrowing : getBorrowingRateWithDecay block s = .ok t.rate

/-- What a top-up leaves in the vault. -/
structure TopUp.Effect (t : TopUp) (a : Address) (s s' : State) : Prop where
  positive : 0 < t.ICR
  active : s.Active a
  recordedColl : (s'.vault a).coll = s.book.entireColl a + t.claimed
  recordedDebt : (s'.vault a).debt = s.book.appliedDebt a + t.addedDebt
  coll : s'.book.entireColl a = s.book.entireColl a + t.claimed
  debt : s'.book.entireDebt a = s.book.appliedDebt a + t.addedDebt +
    s.book.restakedHidden a (s.book.entireColl a + t.claimed)
  fits : s.book.entireColl a + t.claimed < 2 ^ 256 ∧ s.book.appliedDebt a + t.addedDebt < 2 ^ 256
  current : ¬s.book.Stale a → s'.book.rewardSnapshots a = ⟨s'.book.B_RBTC, s'.book.B_BPDDebt⟩
  ratio : ∃ ICR, computeCR (s.book.entireColl a + t.claimed)
    (s.book.appliedDebt a + t.addedDebt) t.price = .ok ICR

/-- The script borrows what the terms determine. -/
theorem getNetBPDAmount_ok {t : TopUp} (ht : t.BeginsAt block a s) (hsame : SameTerms s s₁)
    (h : getNetBPDAmount block a t.claimed s₁ = .ok (v, s₂)) :
    v = t.netDebt ∧ 0 < t.ICR ∧ PriceFeed.fetchPrice block s₁ = .ok (t.price, s₂) := by
  simp only [getNetBPDAmount, bind_ok, Prod.exists, pure_ok, Prod.mk.injEq, SafeMath.mul_ok,
    SafeMath.add_ok, SafeMath.div_ok] at h
  obtain ⟨price, s₀, hprice, ICR, hICR, _, ⟨-, rfl⟩, _, ⟨hpos, rfl⟩, rate, hrate, _, ⟨-, rfl⟩, _,
    ⟨-, rfl⟩, _, ⟨-, rfl⟩, rfl, rfl⟩ := h
  obtain ⟨s₀', hfetches⟩ := ht.fetches
  obtain rfl : price = t.price := PriceFeed.fetchPrice_same hsame.priceFeed hfetches hprice
  have hbook : s₀.book = s.book := (PriceFeed.fetchPrice_book hprice).trans hsame.book
  have hfee : s₀.lastFee = s.lastFee :=
    (lastFee_of_standing (PriceFeed.fetchPrice_standing hprice)).trans hsame.lastFee
  have hratio := getCurrentICR_collRatio ht.ratio
  rw [← hbook, getCurrentICR_collRatio hICR] at hratio
  have hborrowing := getBorrowingRateWithDecay_ok hrate
  rw [normalBorrowingRate_congr hfee, ← getBorrowingRateWithDecay_ok ht.borrowing] at hborrowing
  rw [TopUp.netDebt, TopUp.worth, ← hratio, ← hborrowing]
  exact ⟨rfl, hpos, hprice⟩

theorem topUpVault_effect {t : TopUp} {BPDAmount : ℕ} {xs : List Address} (ha : d.External a)
    (hxs : s.book.Registry xs) (hclaimed : 0 < t.claimed) (ht : t.BeginsAt block a s)
    (hsame : SameTerms s s₁)
    (h : topUpVault d block a t.claimed maxFee upperHint lowerHint s₁ = .ok (BPDAmount, s₂)) :
    t.Effect a s s₂ := by
  simp only [topUpVault, requireUserHasVault, bind_ok, pure_ok, require_ok, Prod.exists,
    Prod.mk.injEq] at h
  obtain ⟨_, hvault, net, s₃, hnet, s₄, hsend, s₅, hadjust, rfl, rfl⟩ := h
  obtain ⟨rfl, hpos, hfetches⟩ := getNetBPDAmount_ok ht hsame hnet
  obtain ⟨e⟩ := adjustVaultInternal_effect (ha.ne d.activePool_mem) (ha.ne d.defaultPool_mem)
    hadjust
  have hfeed : s₄.priceFeed = s₃.priceFeed := by
    obtain ⟨-, rfl⟩ := transferRBTC_ok.mp hsend
    rfl
  have hprice : e.price = t.price := PriceFeed.fetchPrice_again hfeed hfetches e.fetches
  have hbook : s₄.book = s.book := by
    rw [transferRBTC_book hsend, PriceFeed.fetchPrice_book hfetches, hsame.book]
  have hsystem : e.fetched.system = s.system := by
    rw [PriceFeed.fetchPrice_system e.fetches, transferRBTC_system hsend,
      PriceFeed.fetchPrice_system hfetches, hsame.system]
  have hfee : e.fetched.lastFee = s.lastFee := by
    rw [lastFee_of_standing (PriceFeed.fetchPrice_standing e.fetches),
      lastFee_of_standing (transferRBTC_standing hsend),
      lastFee_of_standing (PriceFeed.fetchPrice_standing hfetches), hsame.lastFee]
  have hmode : e.isRecoveryMode = t.isRecoveryMode := by
    have hread := e.mode
    rw [hprice, Sdk.Frontend.checkRecoveryMode_of_system hsystem, ht.mode, Except.ok.injEq] at hread
    exact hread.symm
  have hnet : e.netDebtChange = t.addedDebt := by
    have hcharged := Sdk.chargeBorrowingFee_net e.charges
    rw [Sdk.applyPendingRewards_rate e.collects, normalBorrowingRate_congr hfee,
      ← getBorrowingRateWithDecay_ok ht.borrowing, Bool.not_true, Bool.or_false, hmode,
      Sdk.applyFee_eq] at hcharged
    rw [hcharged, TopUp.addedDebt]
    split_ifs
    · rw [Nat.zero_mul, Nat.zero_div]
    · rfl
  have hfetched : e.fetched.book = s.book := (PriceFeed.fetchPrice_book e.fetches).trans hbook
  have hamounts := e.amounts
  have hchange : getCollChange t.claimed 0 = (t.claimed, true) := if_pos hclaimed.ne'
  simp only [hchange, getNewVaultAmounts, getNewAmount, if_true, SafeMath.add_ok, bind_ok, pure_ok,
    Prod.mk.injEq, Sdk.applyPendingRewards_coll e.collects, applyPendingRewards_debt e.collects,
    hfetched, hnet] at hamounts
  obtain ⟨_, ⟨hfitsColl, rfl⟩, _, ⟨hfitsDebt, rfl⟩, hcoll, hdebt⟩ := hamounts
  obtain ⟨hentireColl, hentireDebt⟩ := AdjustmentEffect.entire e
  rw [hbook, ← hcoll, ← hdebt] at hentireDebt
  have hactive : s₄.book.Active a := e.active
  rw [hbook] at hactive
  have hself : s₅.vault a = _ := congrFun (congrArg Book.vaults e.book) a
  rw [← hbook] at hxs
  have hcurrent := AdjustmentEffect.current e hxs
  rw [hbook] at hcurrent
  refine ⟨hpos, hactive, ?_, ?_, hentireColl.trans hcoll.symm, hentireDebt,
    ⟨hfitsColl, hfitsDebt⟩, hcurrent, e.newICR, ?_⟩
  · rw [hself, hcoll]
    simp [Book.restaked]
  · rw [hself, hdebt]
    simp [Book.restaked]
  · rw [hcoll, hdebt, ← hprice]
    exact e.new

/-- Recycling keeps the ratio, now `ICR`; outside Recovery Mode the recorded debt grows by
the debt that the claimed RBTC bear up to two wei, and the entire debt by no less. -/
structure TopUp.Keeps (t : TopUp) (a : Address) (s s' : State) (ICR : ℕ) : Prop where
  ratio : t.ICR ≤ ICR
  borrowed : t.isRecoveryMode = false → (s'.vault a).debt ≤ s.book.appliedDebt a + t.worth ∧
    s.book.appliedDebt a + t.worth ≤ (s'.vault a).debt + 2
  raised : t.isRecoveryMode = false →
    s.book.entireDebt a + t.worth ≤ s'.book.entireDebt a + 2

theorem TopUp.Effect.keeps_iff {t : TopUp} {ICR : ℕ} (e : t.Effect a s s')
    (hdebt : 0 < s.book.appliedDebt a) (hbefore : getCurrentICR a t.price s = .ok t.ICR)
    (hrate : t.rate < DECIMAL_PRECISION) (hafter : getCurrentICR a t.price s' = .ok ICR) :
    t.Keeps a s s' ICR ↔ s.book.HidesEvenly a t := by
  have hle : s.book.appliedDebt a ≤ s.book.entireDebt a := appliedDebt_le
  have hborne := t.borne (hdebt.trans_le hle) (getCurrentICR_collRatio hbefore) e.positive
  have hhidden : s.book.entireDebt a = s.book.appliedDebt a + s.book.hiddenDebt a := by
    rw [hiddenDebt, Nat.add_sub_cancel' hle]
  have hadded := t.addedDebt_le
  have hlost : t.isRecoveryMode = false → t.worth ≤ t.addedDebt + 2 :=
    fun hmode => TopUp.worth_le hmode hrate
  have hpos : 0 < s'.book.entireDebt a := by
    rw [e.debt]
    omega
  have hratio : t.ICR ≤ ICR ↔ s'.book.entireDebt a ≤
      (s.book.entireColl a + t.claimed) * t.price / t.ICR := by
    rw [← getCurrentICR_collRatio hafter, collRatio, if_pos hpos, e.coll,
      Nat.le_div_iff_mul_le hpos, Nat.le_div_iff_mul_le e.positive, Nat.mul_comm]
  rw [hhidden] at hborne
  unfold HidesEvenly
  rw [hhidden]
  constructor
  · intro h
    have hkept := hratio.mp h.ratio
    rw [e.debt] at hkept
    refine ⟨by omega, fun hmode => ?_⟩
    have hraised := h.raised hmode
    rw [e.debt, hhidden] at hraised
    omega
  · rintro ⟨hgrown, hshrunk⟩
    refine ⟨hratio.mpr ?_, fun hmode => ?_, fun hmode => ?_⟩
    · rw [e.debt]
      omega
    · have := hlost hmode
      rw [e.recordedDebt]
      omega
    · have := hlost hmode
      have := hshrunk hmode
      rw [e.debt, hhidden]
      omega

theorem TopUp.Effect.of_book {t : TopUp} (e : t.Effect a s s₂) (h : s'.book = s₂.book) :
    t.Effect a s s' := by
  have hvault : s'.vault a = s₂.vault a := congrFun (congrArg Book.vaults h) a
  obtain ⟨hpos, hactive, hcoll, hdebt, hentireColl, hentireDebt, hfits, hcurrent, hratio⟩ := e
  rw [← hvault] at hcoll hdebt
  rw [← h] at hentireColl hentireDebt hcurrent
  exact ⟨hpos, hactive, hcoll, hdebt, hentireColl, hentireDebt, hfits, hcurrent, hratio⟩

/-- Nothing is pending since the present. -/
theorem pendingReward_self (accumulated : ℕ) (vault : Vault) :
    pendingReward accumulated accumulated vault = .ok 0 := by
  simp [pendingReward, SafeMath.sub_ok]

theorem add_nothing (h : v < 2 ^ 256) : SafeMath.add v 0 = .ok v := by
  rw [SafeMath.add_ok, Nat.add_zero]
  exact ⟨h, rfl⟩

/-- The ratio of a vault that hid nothing can be read after the top-up. -/
theorem TopUp.Effect.readable {t : TopUp} (e : t.Effect a s s') (hstale : ¬s.book.Stale a) :
    ∃ ICR, getCurrentICR a t.price s' = .ok ICR := by
  obtain ⟨ICR, hICR⟩ := e.ratio
  obtain ⟨hcoll, hdebt⟩ := e.fits
  have hsnapshot : rewardSnapshot a s' = ⟨s'.vaultManager.B_RBTC, s'.vaultManager.B_BPDDebt⟩ :=
    e.current hstale
  have hamounts : getCurrentVaultAmounts a s' =
      .ok (s.book.entireColl a + t.claimed, s.book.appliedDebt a + t.addedDebt) := by
    rw [getCurrentVaultAmounts, getPendingRBTCReward, getPendingBPDDebtReward, hsnapshot,
      pendingReward_self, pendingReward_self, e.recordedColl, e.recordedDebt, bind_ok]
    refine ⟨0, rfl, ?_⟩
    rw [bind_ok]
    refine ⟨0, rfl, ?_⟩
    rw [bind_ok]
    refine ⟨_, add_nothing hcoll, ?_⟩
    rw [bind_ok]
    exact ⟨_, add_nothing hdebt, pure_ok.mpr rfl⟩
  refine ⟨ICR, ?_⟩
  rw [getCurrentICR, bind_ok]
  exact ⟨_, hamounts, hICR⟩

/-- In a reachable state, what was claimed is put into the vault of an outside account. If the
vault hides no debt, its ratio is kept; and whenever the ratio can be read, it is kept if and
only if the hidden debt stays even. -/
theorem recycling_keeps_ratio_iff {t : TopUp} (hs : Reachable d s) (ha : d.External a)
    (hclaimed : 0 < t.claimed) (ht : t.BeginsAt block a s)
    (h : Recycles d block a maxFee upperHint lowerHint t.claimed s s') :
    (¬s.book.Stale a → ∃ ICR, getCurrentICR a t.price s' = .ok ICR ∧ t.Keeps a s s' ICR) ∧
      ∀ ICR, getCurrentICR a t.price s' = .ok ICR →
        (t.Keeps a s s' ICR ↔ s.book.HidesEvenly a t) := by
  obtain ⟨xs, hxs⟩ := hs.registry
  obtain ⟨s₁, s₂, BPDAmount, hsame, htop, hbook⟩ := h.topUp ha hclaimed
  have e := (topUpVault_effect ha hxs hclaimed ht hsame htop).of_book hbook
  have hdebt : 0 < s.book.appliedDebt a := by
    have hmin := (hxs.funded a ((hxs.active a).mp e.active)).2
    have hpos : 0 < minDebt := by
      decide
    have hle : (s.book.vaults a).debt ≤ s.book.appliedDebt a := le_appliedDebt
    omega
  have hkeeps (ICR : ℕ) (hafter : getCurrentICR a t.price s' = .ok ICR) :=
    e.keeps_iff hdebt ht.ratio (borrowingRate_lt ht.borrowing) hafter
  refine ⟨fun hstale => ?_, hkeeps⟩
  obtain ⟨ICR, hICR⟩ := e.readable hstale
  exact ⟨ICR, hICR, (hkeeps ICR hICR).mpr (hidesEvenly_of_not_stale hstale)⟩

/-- The terms of a top-up with `claimed` RBTC. -/
def TopUp.read (block : Block) (a : Address) (claimed : ℕ) (s : State) : Outcome TopUp := do
  let (price, _) ← PriceFeed.fetchPrice block s
  let isRecoveryMode ← checkRecoveryMode price s
  let ICR ← getCurrentICR a price s
  let rate ← getBorrowingRateWithDecay block s
  return ⟨claimed, price, isRecoveryMode, ICR, rate⟩

theorem TopUp.read_ok {t : TopUp} (h : read block a claimed s = .ok t) :
    t.claimed = claimed ∧ t.BeginsAt block a s := by
  simp only [read, bind_ok, pure_ok, Prod.exists] at h
  obtain ⟨_, s₀, hprice, _, hmode, _, hICR, _, hrate, rfl⟩ := h
  exact ⟨rfl, ⟨s₀, hprice⟩, hmode, hICR, hrate⟩

/-- 100 recycles what the Stability Pool owes it, and the terms and both states pass the
check. -/
def recycles (block : Block) (check : TopUp → State → State → Bool) (s : State) : Bool :=
  succeeds (fun s₁ => decide (s.rbtc 100 < s₁.rbtc 100) && succeeds (fun t =>
      succeeds (check t s) (claimSPRewardsAndRecycle testnet block 100 (10 ^ 16) 0 0 s))
    (TopUp.read block 100 (s₁.rbtc 100 - s.rbtc 100) s))
    (StabilityPool.withdrawFromSP testnet block 100 0 s)

theorem exists_of_recycles {check : TopUp → State → State → Bool}
    (h : recycles block check s = true) : ∃ t s', 0 < t.claimed ∧ t.BeginsAt block 100 s ∧
      Recycles testnet block 100 (10 ^ 16) 0 0 t.claimed s s' ∧ check t s s' = true := by
  obtain ⟨s₁, hclaim, h⟩ := exists_of_succeeds h
  rw [Bool.and_eq_true] at h
  have hmore := of_decide_eq_true h.1
  obtain ⟨t, hread, h⟩ := exists_of_succeeds h.2
  obtain ⟨s', hrecycle, hcheck⟩ := exists_of_succeeds h
  obtain ⟨hclaimed, ht⟩ := TopUp.read_ok hread
  refine ⟨t, s', ?_, ht, .inl ⟨s₁, hclaim, ?_, hrecycle⟩, hcheck⟩
  · rw [hclaimed]
    exact Nat.sub_pos_of_lt hmore
  · rw [hclaimed, Nat.add_sub_cancel' hmore.le]

/-- 100 has a large vault and, but for `gap`, enough BPD in the Stability Pool for the debt of
101, which is liquidated. -/
def gainsAfter (gap : ℕ) : List Transaction :=
  [⟨testBlock 60000, 100, 10 ^ 24, .openVault (10 ^ 16) (10000 * 10 ^ 18) 0 0⟩,
    ⟨testBlock 60000, 101, 55 * 10 ^ 15, .openVault (10 ^ 16) (2000 * 10 ^ 18) 0 0⟩,
    ⟨testBlock 60000, 100, 0, .provideToSP (2210 * 10 ^ 18 - gap) 0⟩,
    ⟨testBlock 44000, 102, 0, .liquidate 101⟩]

/-- The whole debt of 101 was offset, and no vault hides any. -/
theorem recycling_keeps_ratio_iff_offset : ∃ (t : TopUp) (s s' : State) (ICR : ℕ),
    Reachable testnet s ∧ Recycles testnet (testBlock 44000) 100 (10 ^ 16) 0 0 t.claimed s s' ∧
    getCurrentICR 100 t.price s' = .ok ICR ∧ t.Keeps 100 s s' ICR ∧ t.addedDebt ≠ 0 := by
  obtain ⟨s, hs, -, hcheck⟩ := runs_reachable testnet testGenesis (gainsAfter 0)
    (recycles (testBlock 44000) fun t s _ => decide (¬s.book.Stale 100 ∧ t.addedDebt ≠ 0))
    (by decide +kernel)
  obtain ⟨t, s', hclaimed, ht, h, hcheck⟩ := exists_of_recycles hcheck
  obtain ⟨hstale, hadded⟩ := of_decide_eq_true hcheck
  have hexternal : testnet.External 100 := by
    decide +kernel
  obtain ⟨hkept, -⟩ := recycling_keeps_ratio_iff hs hexternal hclaimed ht h
  obtain ⟨ICR, hICR, hkeeps⟩ := hkept hstale
  exact ⟨t, s, s', ICR, hs, h, hICR, hkeeps, hadded⟩

/-- A redistribution of `1e10` wei of debt with too little collateral to show leaves the vault
of 100 with hidden debt. The top-up gives it a larger stake, and with it more of that debt. -/
theorem recycling_lowers_ratio : ¬∀ (d : Deployment) (s s' : State) (block : Block) (a : Address)
    (maxFee : ℕ) (upperHint lowerHint : Address) (t : TopUp) (ICR : ℕ), Reachable d s →
      d.External a → 0 < t.claimed → t.BeginsAt block a s →
      Recycles d block a maxFee upperHint lowerHint t.claimed s s' →
      getCurrentICR a t.price s' = .ok ICR → t.ICR ≤ ICR := by
  intro hall
  obtain ⟨s, hs, -, hcheck⟩ := runs_reachable testnet testGenesis (gainsAfter (10 ^ 10))
    (recycles (testBlock 44000) fun t _ s' =>
      succeeds (fun ICR => decide (ICR < t.ICR)) (getCurrentICR 100 t.price s'))
    (by decide +kernel)
  obtain ⟨t, s', hclaimed, ht, h, hcheck⟩ := exists_of_recycles hcheck
  obtain ⟨ICR, hICR, hlt⟩ := exists_of_succeeds hcheck
  have hexternal : testnet.External 100 := by
    decide +kernel
  exact absurd (hall testnet s s' _ 100 _ 0 0 t ICR hs hexternal hclaimed ht h hICR)
    (not_le.mpr (of_decide_eq_true hlt))

end MoneyProtocol
