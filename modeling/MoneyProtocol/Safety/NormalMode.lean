import MoneyProtocol.Safety.RecoveryMode

/-!
# Borrower operations in Normal Mode

The ratio of the system that a borrower operation predicts is the one it leaves, and at least
the critical ratio. The ratio of the vault is predicted from its recorded debt: it is what the
vault is left with, unless the vault is stale, in which case debt is pending that the
prediction misses.
-/

namespace MoneyProtocol

open Outcome MoneypMath MoneypBase Book VaultManager PointSum

variable {d : Deployment} {s s' : State} {t : Transaction} {price : ℕ}

namespace BorrowerOperations

/-- The `newTCR` of an opening. -/
def openingTCR (d : Deployment) (block : Block) (msgValue maxFeePercentage BPDAmount : ℕ)
    (s : State) : Outcome ℕ := do
  let (price, s) ← PriceFeed.fetchPrice block s
  let isRecoveryMode ← checkRecoveryMode price s
  let (netDebt, s) ← chargeBorrowingFee d block isRecoveryMode BPDAmount maxFeePercentage s
  let compositeDebt ← getCompositeDebt netDebt
  getNewTCRFromVaultChange msgValue true compositeDebt true price s

/-- The `newTCR` of an adjustment. -/
def adjustmentTCR (d : Deployment) (block : Block) (msgValue : ℕ) (borrower : Address)
    (a : Adjustment) (s : State) : Outcome ℕ := do
  let (price, s) ← PriceFeed.fetchPrice block s
  let isRecoveryMode ← checkRecoveryMode price s
  let s ← VaultManager.applyPendingRewards d borrower s
  let (collChange, isCollIncrease) := getCollChange msgValue a.collWithdrawal
  let (netDebtChange, s) ←
    chargeBorrowingFee d block (isRecoveryMode || !a.isDebtIncrease) a.BPDChange
      a.maxFeePercentage s
  getNewTCRFromVaultChange collChange isCollIncrease netDebtChange a.isDebtIncrease price s

/-- The `newTCR` of a closure. -/
def closingTCR (d : Deployment) (block : Block) (msgSender : Address) (s : State) :
    Outcome ℕ := do
  let (price, s) ← PriceFeed.fetchPrice block s
  let s ← VaultManager.applyPendingRewards d msgSender s
  getNewTCRFromVaultChange (s.vault msgSender).coll false (s.vault msgSender).debt false price s

variable {block : Block} {borrower : Address} {value maxFee amount : ℕ} {adj : Adjustment}

theorem OpeningEffect.normal_TCR (e : OpeningEffect d block borrower value maxFee amount s s')
    (hnormal : CCR ≤ s.TCR e.price) :
    ∃ newTCR, openingTCR d block value maxFee amount s = .ok newTCR ∧
      getTCR e.price s' = .ok newTCR ∧ CCR ≤ newTCR := by
  have hmode := checkRecoveryMode_ok e.mode
  rw [State.TCR, PriceFeed.fetchPrice_system e.fetches, ← State.TCR,
    decide_eq_false hnormal.not_gt] at hmode
  have hvalid := e.valid
  rw [hmode] at hvalid
  simp only [requireValidOpening, requireNewTCRisAboveCCR, Bool.false_eq_true, if_false, bind_ok,
    require_ok] at hvalid
  obtain ⟨_, -, newTCR, hTCR, hCCR⟩ := hvalid
  refine ⟨newTCR, ?_, ?_, hCCR⟩
  · simp only [openingTCR, getCompositeDebt, bind_ok, Prod.exists, SafeMath.add_ok]
    exact ⟨_, _, e.fetches, _, e.mode, _, _, e.charges, _, ⟨e.room, rfl⟩, hTCR⟩
  · apply getNewTCR_ok hTCR
    rw [e.system, chargeBorrowingFee_system e.charges, PriceFeed.fetchPrice_system e.fetches]
    rfl

theorem AdjustmentEffect.normal (e : AdjustmentEffect d block value borrower adj s s')
    (hnormal : CCR ≤ s.TCR e.price) : e.isRecoveryMode = false ∧ MCR ≤ e.newICR ∧
      ∃ newTCR, adjustmentTCR d block value borrower adj s = .ok newTCR ∧
        getTCR e.price s' = .ok newTCR ∧ CCR ≤ newTCR := by
  have hmode := checkRecoveryMode_ok e.mode
  rw [State.TCR, PriceFeed.fetchPrice_system e.fetches, ← State.TCR,
    decide_eq_false hnormal.not_gt] at hmode
  have hvalid := e.valid
  rw [hmode] at hvalid
  simp only [requireValidAdjustmentInCurrentMode, requireICRisAboveMCR, requireNewTCRisAboveCCR,
    Bool.false_eq_true, if_false, bind_ok, require_ok] at hvalid
  obtain ⟨_, hMCR, newTCR, hTCR, hCCR⟩ := hvalid
  refine ⟨hmode, hMCR, newTCR, ?_, ?_, hCCR⟩
  · simp only [adjustmentTCR, bind_ok, Prod.exists]
    exact ⟨_, _, e.fetches, _, e.mode, _, e.collects, _, _, e.charges, hTCR⟩
  · apply getNewTCR_ok hTCR
    rw [e.system, chargeBorrowingFee_system e.charges, applyPendingRewards_system e.collects,
      PriceFeed.fetchPrice_system e.fetches]

theorem ClosureEffect.normal_TCR (e : ClosureEffect d block borrower s s') :
    ∃ newTCR, closingTCR d block borrower s = .ok newTCR ∧
      getTCR e.price s' = .ok newTCR ∧ CCR ≤ newTCR := by
  refine ⟨e.newTCR, ?_, ?_, e.valid⟩
  · simp only [closingTCR, bind_ok, Prod.exists]
    exact ⟨_, _, e.fetches, _, e.collects, e.ratio⟩
  · apply getNewTCR_ok e.ratio
    rw [e.system, applyPendingRewards_system e.collects, PriceFeed.fetchPrice_system e.fetches]
    rfl

end BorrowerOperations

/-- For a vault with no collateral pending, the ratio that `getCurrentICR` reads is at least the
minimum exactly if the entire debt is covered; a debt that is covered can always be read. -/
theorem currentICR_iff {a : Address} (hactive : s.Active a)
    (hsnapshots : (s.book.rewardSnapshots a).RBTC ≤ s.book.B_RBTC ∧
      (s.book.rewardSnapshots a).BPDDebt ≤ s.book.B_BPDDebt)
    (hnone : s.book.B_RBTC ≤ (s.book.rewardSnapshots a).RBTC)
    (hdebt : 0 < (s.vault a).debt) (hroom : (s.vault a).coll * price < 2 ^ 256) :
    (∃ ICR, getCurrentICR a price s = .ok ICR ∧ MCR ≤ ICR) ↔
      MCR * s.book.entireDebt a ≤ (s.vault a).coll * price := by
  have hstatus : (s.book.vaults a).status = .active := hactive
  have hpendingRBTC : s.book.pendingRBTC a = 0 := by
    rw [pendingRBTC, if_pos hstatus, Nat.sub_eq_zero_of_le hnone, mul_zero, Nat.zero_div]
  have hcoll : s.book.entireColl a = (s.vault a).coll := by
    rw [entireColl, hpendingRBTC]
    rfl
  have hpos : 0 < s.book.entireDebt a := Nat.lt_add_right _ hdebt
  constructor
  · rintro ⟨ICR, hICR, hMCR⟩
    simp only [getCurrentICR, bind_ok, Prod.exists] at hICR
    obtain ⟨_, _, hamounts, hICR⟩ := hICR
    obtain ⟨rfl, rfl⟩ := getCurrentVaultAmounts_ok hamounts
    have hratio := computeCR_ok hICR
    rw [collRatio, if_pos hpos, hcoll] at hratio
    rwa [← Nat.le_div_iff_mul_le hpos, hratio]
  · intro hcovered
    have hMCR : MCR = 11 * 10 ^ 17 := rfl
    have hprecision : DECIMAL_PRECISION = 10 ^ 18 := rfl
    have hpendingDebt : s.book.pendingDebt a = (s.vault a).stake *
        (s.book.B_BPDDebt - (s.book.rewardSnapshots a).BPDDebt) / DECIMAL_PRECISION :=
      if_pos hstatus
    have hentire : s.book.entireDebt a = (s.vault a).debt + s.book.pendingDebt a := rfl
    -- the pending debt is part of a covered debt, so computing it does not overflow
    have hmul : (s.vault a).stake *
        (s.book.B_BPDDebt - (s.book.rewardSnapshots a).BPDDebt) < 2 ^ 256 := by
      have hlt := Nat.lt_mul_div_succ ((s.vault a).stake *
        (s.book.B_BPDDebt - (s.book.rewardSnapshots a).BPDDebt))
        (b := DECIMAL_PRECISION) (by decide)
      rw [← hpendingDebt] at hlt
      rw [hentire] at hcovered
      norm_num [hMCR, hprecision] at hlt hcovered hroom ⊢
      omega
    have hread : getPendingRBTCReward a s = .ok 0 := by
      have hzero : s.vaultManager.B_RBTC - (rewardSnapshot a s).RBTC = 0 :=
        Nat.sub_eq_zero_of_le hnone
      simp only [getPendingRBTCReward, pendingReward, bind_ok, SafeMath.sub_ok]
      exact ⟨_, ⟨hsnapshots.1, rfl⟩, by rw [hzero]; rfl⟩
    obtain ⟨v, hread'⟩ : ∃ v, getPendingBPDDebtReward a s = .ok v :=
      pendingReward_succeeds hsnapshots.2 hmul
    obtain rfl := getPendingBPDDebtReward_ok hread'
    have hMCRpos : 1 ≤ MCR := by decide
    have hdebtRoom : s.book.entireDebt a < 2 ^ 256 :=
      (Nat.le_mul_of_pos_left _ hMCRpos).trans_lt (hcovered.trans_lt hroom)
    have hcollRoom : (s.vault a).coll < 2 ^ 256 := by
      have hprice : 0 < price := by
        rcases Nat.eq_zero_or_pos price with hzero | hprice
        · rw [hzero, mul_zero] at hcovered
          have := Nat.mul_pos hMCRpos hpos
          omega
        · exact hprice
      exact (Nat.le_mul_of_pos_right _ hprice).trans_lt hroom
    refine ⟨(s.vault a).coll * price / s.book.entireDebt a, ?_, ?_⟩
    · simp only [getCurrentICR, getCurrentVaultAmounts, bind_ok, hread, hread', Prod.exists,
        Except.ok.injEq, SafeMath.add_ok, pure_ok, Prod.mk.injEq]
      refine ⟨_, _, ⟨_, rfl, _, rfl, _, ⟨hcollRoom, rfl⟩, _, ⟨hdebtRoom, rfl⟩, rfl, rfl⟩, ?_⟩
      change computeCR (s.vault a).coll (s.book.entireDebt a) price = _
      rw [computeCR, if_pos hpos]
      simp only [bind_ok, SafeMath.mul_ok, SafeMath.div_ok]
      exact ⟨_, ⟨hroom, rfl⟩, hpos, rfl⟩
    · exact (Nat.le_div_iff_mul_le hpos).mpr hcovered

namespace BorrowerOperations

variable {block : Block} {borrower : Address} {value maxFee amount : ℕ} {adj : Adjustment}
  {xs : List Address}

/-- A new vault has no rewards pending. -/
theorem OpeningEffect.normal_ICR (e : OpeningEffect d block borrower value maxFee amount s s')
    (hxs : s.book.Registry xs) (hlength : s.book.vaultOwners.length < 2 ^ 128)
    (hnormal : CCR ≤ s.TCR e.price) :
    ∃ ICR, getCurrentICR borrower e.price s' = .ok ICR ∧ MCR ≤ ICR := by
  have hmode := checkRecoveryMode_ok e.mode
  rw [State.TCR, PriceFeed.fetchPrice_system e.fetches, ← State.TCR,
    decide_eq_false hnormal.not_gt] at hmode
  have hvalid := e.valid
  rw [hmode] at hvalid
  simp only [requireValidOpening, requireICRisAboveMCR, Bool.false_eq_true, if_false, bind_ok,
    require_ok] at hvalid
  obtain ⟨_, hMCR, -⟩ := hvalid
  have hbook := e.book hlength
  have hnotMem : borrower ∉ xs := fun h => e.inactive ((hxs.active borrower).mpr h)
  obtain ⟨hcoll, hdebt, -⟩ := hxs.inactive borrower hnotMem
  have hvault : s'.vault borrower = ⟨e.netDebt + BPD_GAS_COMPENSATION, value,
      s.book.newStake value, .active, s.book.vaultOwners.length⟩ := by
    have hself := congrFun (congrArg Book.vaults hbook) borrower
    simp only [Book.opened, Function.update_self, hcoll, hdebt, zero_add] at hself
    exact hself
  have hsnapshots : s'.book.rewardSnapshots borrower = ⟨s'.book.B_RBTC, s'.book.B_BPDDebt⟩ := by
    rw [hbook]
    simp [Book.opened]
  have hpos : 0 < e.netDebt + BPD_GAS_COMPENSATION := by
    have : 0 < BPD_GAS_COMPENSATION := by decide
    omega
  have hratio := e.ratio
  rw [computeCR, if_pos hpos] at hratio
  simp only [bind_ok, SafeMath.mul_ok, SafeMath.div_ok] at hratio
  obtain ⟨_, ⟨hroom, rfl⟩, -, hratio⟩ := hratio
  rw [currentICR_iff (by rw [State.Active, hvault]) (by rw [hsnapshots]; exact ⟨le_rfl, le_rfl⟩)
    (by rw [hsnapshots]) (by rw [hvault]; exact hpos) (by rw [hvault]; exact hroom)]
  have hentire : s'.book.entireDebt borrower = e.netDebt + BPD_GAS_COMPENSATION := by
    have hdebt : (s'.book.vaults borrower).debt = e.netDebt + BPD_GAS_COMPENSATION :=
      congrArg Vault.debt hvault
    rw [entireDebt, pendingDebt, hsnapshots, Nat.sub_self, mul_zero, Nat.zero_div, ite_self,
      add_zero, hdebt]
  rw [hentire, hvault, ← Nat.le_div_iff_mul_le hpos, hratio]
  exact hMCR

/-- The debt that stays pending in the vault, after its stake follows the new collateral. -/
def staleDebt (b : Book) (borrower : Address) (newColl : ℕ) : ℕ :=
  b.newStake newColl * (b.B_BPDDebt - (b.rewardSnapshots borrower).BPDDebt) / DECIMAL_PRECISION

/-- The adjustment asks for an amount of collateral that covers the new debt with the debt
that stays pending. -/
def CoversStaleDebt (d : Deployment) (block : Block) (value : ℕ) (borrower : Address)
    (a : Adjustment) (s : State) : Prop :=
  ∀ price s₀ netDebtChange s₁ newColl newDebt,
    PriceFeed.fetchPrice block s = .ok (price, s₀) →
    chargeBorrowingFee d block (!a.isDebtIncrease) a.BPDChange a.maxFeePercentage s₀ =
      .ok (netDebtChange, s₁) →
    getNewVaultAmounts (s.vault borrower).coll (s.vault borrower).debt
      (getCollChange value a.collWithdrawal).1 (getCollChange value a.collWithdrawal).2
      netDebtChange a.isDebtIncrease = .ok (newColl, newDebt) →
    MCR * (newDebt + staleDebt s.book borrower newColl) ≤ newColl * price

theorem applyPendingRewards_stale (hs : s.book.Stale borrower)
    (h : applyPendingRewards d borrower s = .ok s') : s' = s := by
  have hnone : hasPendingRewards borrower s = false := by
    unfold hasPendingRewards
    split_ifs
    · rfl
    · exact decide_eq_false hs.1.not_gt
  rw [applyPendingRewards, hnone] at h
  exact (pure_ok.mp h).symm

/-- The ratio that the vault is left with is at least the minimum, unless the vault is stale and
the debt that stays pending is not covered. -/
theorem AdjustmentEffect.normal_ICR_iff (e : AdjustmentEffect d block value borrower adj s s')
    (hxs : s.book.Registry xs) (hnormal : CCR ≤ s.TCR e.price) :
    (∃ ICR, getCurrentICR borrower e.price s' = .ok ICR ∧ MCR ≤ ICR) ↔
      (s.book.Stale borrower → CoversStaleDebt d block value borrower adj s) := by
  obtain ⟨hmode, hMCR, -⟩ := e.normal hnormal
  have hfetched := PriceFeed.fetchPrice_book e.fetches
  obtain ⟨hactive, ys, hys⟩ := e.collected_registry hxs
  have hnone := applyPendingRewards_none e.collects hactive
  have hpos : 0 < e.newDebt := by
    have hmin : 0 < minDebt := by decide
    exact hmin.trans_le (e.minimum (hys.funded borrower ((hys.active borrower).mp hactive)).2)
  have hroom := e.new
  rw [computeCR, if_pos hpos] at hroom
  simp only [bind_ok, SafeMath.mul_ok, SafeMath.div_ok] at hroom
  obtain ⟨_, ⟨hroom, rfl⟩, -, hratio⟩ := hroom
  have hvault : s'.vault borrower = { e.collected.vault borrower with
      coll := e.newColl, debt := e.newDebt, stake := e.collected.book.newStake e.newColl } := by
    have hself := congrFun (congrArg Book.vaults e.book) borrower
    simp only [Book.restaked, Function.update_self] at hself
    exact hself
  have hsnapshot : s'.book.rewardSnapshots borrower =
      e.collected.book.rewardSnapshots borrower := by
    rw [e.book]
    rfl
  have hB : s'.book.B_RBTC = e.collected.book.B_RBTC ∧
      s'.book.B_BPDDebt = e.collected.book.B_BPDDebt := by
    rw [e.book]
    exact ⟨rfl, rfl⟩
  have hstatus : s'.Active borrower := by
    rw [State.Active, hvault]
    exact hactive
  have hentire : s'.book.entireDebt borrower =
      e.newDebt + staleDebt e.collected.book borrower e.newColl := by
    have hself : s'.book.vaults borrower = _ := hvault
    rw [entireDebt, pendingDebt, hself, hsnapshot, hB.2, staleDebt]
    simp only [if_pos (show (e.collected.vault borrower).status = .active from hactive)]
  have hiff : (∃ ICR, getCurrentICR borrower e.price s' = .ok ICR ∧ _) ↔ _ := currentICR_iff hstatus
    (by rw [hsnapshot, hB.1, hB.2]; exact hys.snapshots borrower)
    (by rw [hsnapshot, hB.1]; exact hnone) (by rw [hvault]; exact hpos)
    (by rw [hvault]; exact hroom)
  rw [hiff, hentire, hvault]
  have hcharges := e.charges
  rw [hmode, Bool.false_or] at hcharges
  by_cases hstale : s.book.Stale borrower
  · have hsame : e.collected = e.fetched := by
      apply applyPendingRewards_stale _ e.collects
      rw [hfetched]
      exact hstale
    have hamounts := e.amounts
    have hv : e.fetched.vault borrower = s.vault borrower :=
      congrFun (congrArg Book.vaults hfetched) borrower
    rw [hsame] at hcharges hamounts ⊢
    rw [hv] at hamounts
    rw [hfetched]
    constructor
    · intro hcovered _ price s₀ net s₁ coll debt hprice hfee hnew
      rw [e.fetches, Except.ok.injEq, Prod.mk.injEq] at hprice
      obtain ⟨rfl, rfl⟩ := hprice
      rw [hcharges, Except.ok.injEq, Prod.mk.injEq] at hfee
      obtain ⟨rfl, rfl⟩ := hfee
      rw [hamounts, Except.ok.injEq, Prod.mk.injEq] at hnew
      obtain ⟨rfl, rfl⟩ := hnew
      exact hcovered
    · intro hcovers
      exact hcovers hstale _ _ _ _ _ _ e.fetches hcharges hamounts
  · -- nothing is pending, so the recorded debt is the whole debt
    have hfresh : ¬e.collected.book.Stale borrower :=
      applyPendingRewards_fresh e.collects (by rw [hfetched]; exact hstale)
    have hcurrent : e.collected.book.B_BPDDebt ≤
        (e.collected.book.rewardSnapshots borrower).BPDDebt := by
      by_contra hlt
      exact hfresh ⟨hnone, not_le.mp hlt⟩
    have hzero : staleDebt e.collected.book borrower e.newColl = 0 := by
      rw [staleDebt, Nat.sub_eq_zero_of_le hcurrent, mul_zero, Nat.zero_div]
    rw [hzero, add_zero]
    refine iff_of_true ?_ fun h => absurd h hstale
    rw [← Nat.le_div_iff_mul_le hpos, hratio]
    exact hMCR

end BorrowerOperations

/-- The `newTCR` that the call of a borrower computes. -/
def Transaction.newTCR (d : Deployment) (t : Transaction) (s : State) : Outcome ℕ :=
  match t.operation with
  | .openVault maxFeePercentage BPDAmount _ _ => do
    let s ← transferRBTC t.sender d.borrowerOperations t.value s
    BorrowerOperations.openingTCR d t.block t.value maxFeePercentage BPDAmount s
  | .closeVault => BorrowerOperations.closingTCR d t.block t.sender s
  | _ => do
    let (value, a, s) ← t.adjustment d s
    BorrowerOperations.adjustmentTCR d t.block value t.sender a s

/-- The system is left at the ratio that the call computed, no lower than the critical one, and
the sender's vault, unless it was closed, at no less than the minimum. -/
structure Transaction.LeavesSafe (d : Deployment) (t : Transaction) (price : ℕ) (s s' : State) :
    Prop where
  system : ∃ newTCR, t.newTCR d s = .ok newTCR ∧ getTCR price s' = .ok newTCR ∧ CCR ≤ newTCR
  vault : t.operation ≠ .closeVault →
    ∃ ICR, getCurrentICR t.sender price s' = .ok ICR ∧ MCR ≤ ICR

/-- The collateral that an adjusting transaction asks for covers the debt that stays pending. -/
def Transaction.CoversStaleDebt (d : Deployment) (t : Transaction) (s : State) : Prop :=
  ∀ value a s₁, t.adjustment d s = .ok (value, a, s₁) →
    BorrowerOperations.CoversStaleDebt d t.block value t.sender a s₁

/-- In Normal Mode an operation of a borrower leaves the system and the vault safe exactly if
the vault is not stale or the debt that stays pending in it is covered. -/
theorem normalMode_safe_iff {s₀ : State} (hs : Reachable d s) (hsigned : t.Signed d)
    (hprice : PriceFeed.fetchPrice t.block s = .ok (price, s₀)) (hnormal : CCR ≤ s.TCR price)
    (hop : t.operation.Borrows ∨ t.operation = .closeVault) (h : transact d t s = .ok s') :
    t.LeavesSafe d price s s' ↔ (s.book.Stale t.sender → t.CoversStaleDebt d s) := by
  obtain ⟨xs, hxs⟩ := hs.registry
  have hadjust (hop : t.operation.Adjusts) (hne : t.operation ≠ .closeVault)
      (hnew : t.newTCR d s = (do
        let (value, a, s) ← t.adjustment d s
        BorrowerOperations.adjustmentTCR d t.block value t.sender a s)) :
      t.LeavesSafe d price s s' ↔ (s.book.Stale t.sender → t.CoversStaleDebt d s) := by
    obtain ⟨value, adj, s₁, sender, hadj, hsame, hactive, hdefault, h⟩ :=
      transact_adjustment hsigned hop h
    obtain ⟨e⟩ := BorrowerOperations.adjustVaultInternal_effect hactive hdefault h
    obtain rfl := PriceFeed.fetchPrice_same hsame.priceFeed hprice e.fetches
    have hTCR : CCR ≤ s₁.TCR e.price := by
      rw [State.TCR, hsame.system]
      exact hnormal
    obtain ⟨-, -, newTCR, hnewTCR, hleft, hCCR⟩ := e.normal hTCR
    have hiff := e.normal_ICR_iff (hsame.book ▸ hxs) hTCR
    rw [hsame.book] at hiff
    have hcovers : t.CoversStaleDebt d s ↔
        BorrowerOperations.CoversStaleDebt d t.block value t.sender adj s₁ := by
      constructor
      · exact fun hall => hall _ _ _ hadj
      · intro hcovers value' adj' s₁' hadj'
        rw [hadj, Except.ok.injEq, Prod.mk.injEq, Prod.mk.injEq] at hadj'
        obtain ⟨rfl, rfl, rfl⟩ := hadj'
        exact hcovers
    rw [hcovers, ← hiff]
    constructor
    · exact fun hsafe => hsafe.vault hne
    · intro hICR
      refine ⟨⟨newTCR, ?_, hleft, hCCR⟩, fun _ => hICR⟩
      rw [hnew]
      simp only [bind_ok, Prod.exists]
      exact ⟨_, _, _, hadj, hnewTCR⟩
  obtain ⟨block, sender, msgValue, operation⟩ := t
  cases operation with
  | openVault =>
    simp only [transact, payable, bind_ok] at h
    obtain ⟨s₁, hsend, h⟩ := h
    have hsame : SameVaults d s s₁ := .transferRBTC (hsigned.1.ne d.activePool_mem)
      d.borrowerOperations_ne_activePool hsend
    obtain ⟨e⟩ := BorrowerOperations.openVault_effect h
    obtain rfl := PriceFeed.fetchPrice_same hsame.priceFeed hprice e.fetches
    have hTCR : CCR ≤ s₁.TCR e.price := by
      rw [State.TCR, hsame.system]
      exact hnormal
    obtain ⟨newTCR, hnewTCR, hleft, hCCR⟩ := e.normal_TCR hTCR
    refine iff_of_true ⟨⟨newTCR, ?_, hleft, hCCR⟩, fun _ => ?_⟩ ?_
    · simp only [Transaction.newTCR, bind_ok]
      exact ⟨s₁, hsend, hnewTCR⟩
    · exact e.normal_ICR (hsame.book ▸ hxs) (hsame.book ▸ hs.balanced.owners_lt hxs) hTCR
    · intro _ value a s₁ hadj
      cases hadj
  | closeVault =>
    obtain ⟨e⟩ := BorrowerOperations.closeVault_effect (hsigned.1.ne d.activePool_mem)
      (hsigned.1.ne d.defaultPool_mem) (nonPayable_ok h)
    obtain rfl := PriceFeed.fetchPrice_same rfl hprice e.fetches
    refine iff_of_true ⟨e.normal_TCR, fun hne => absurd rfl hne⟩ ?_
    intro _ value a s₁ hadj
    cases hadj
  | addColl => exact hadjust trivial (by simp) rfl
  | withdrawColl => exact hadjust trivial (by simp) rfl
  | withdrawBPD => exact hadjust trivial (by simp) rfl
  | repayBPD => exact hadjust trivial (by simp) rfl
  | adjustVault => exact hadjust trivial (by simp) rfl
  | withdrawRBTCGainToVault => exact hadjust trivial (by simp) rfl
  | _ => exact hop.elim (fun h => h.elim) (fun h => by cases h)

/-- A vault that is not stale draws BPD. -/
theorem normalMode_safe_drawn : ∃ s s' : State, Reachable testnet s ∧
    s.TCR (60000 * 10 ^ 18) ≠ s'.TCR (60000 * 10 ^ 18) ∧
    Transaction.LeavesSafe testnet ⟨testBlock 60000, 100, 0,
      .withdrawBPD (10 ^ 16) (5000 * 10 ^ 18) 0 0⟩ (60000 * 10 ^ 18) s s' := by
  let t : Transaction := ⟨testBlock 60000, 100, 0, .withdrawBPD (10 ^ 16) (5000 * 10 ^ 18) 0 0⟩
  obtain ⟨s, s', hs, h, hcheck⟩ := runsThen_reachable testnet testGenesis
    [⟨testBlock 60000, 100, 5 * 10 ^ 18, .openVault (10 ^ 16) (10000 * 10 ^ 18) 0 0⟩] t
    (fun s s' => CCR ≤ s.TCR (60000 * 10 ^ 18) ∧ ¬s.book.Stale 100 ∧
      s.TCR (60000 * 10 ^ 18) ≠ s'.TCR (60000 * 10 ^ 18)) (by decide +kernel)
  obtain ⟨hnormal, hfresh, hTCR⟩ := of_decide_eq_true hcheck
  exact ⟨s, s', hs, hTCR, (normalMode_safe_iff (t := t) hs (by decide +kernel) rfl hnormal
    (.inl trivial) h).mpr fun hstale => absurd hstale hfresh⟩

/-- After the liquidation of 101, 100 is stale, and withdraws collateral down to the minimum
ratio of its recorded debt. -/
theorem stale_vault_below_MCR : ¬∀ d s s' t price s₀, Reachable d s → t.Signed d →
    PriceFeed.fetchPrice t.block s = .ok (price, s₀) → CCR ≤ s.TCR price →
    (t.operation.Borrows ∨ t.operation = .closeVault) → transact d t s = .ok s' →
    t.LeavesSafe d price s s' := by
  intro hall
  let t : Transaction := ⟨testBlock 45100, 100, 0, .withdrawColl (475 * 10 ^ 16) 0 0⟩
  obtain ⟨s, s', hs, h, hcheck⟩ := runsThen_reachable testnet testGenesis
    [⟨testBlock 60000, 100, 5 * 10 ^ 18, .openVault (10 ^ 16) (10000 * 10 ^ 18) 0 0⟩,
      ⟨testBlock 60000, 101, 55 * 10 ^ 15, .openVault (10 ^ 16) (2000 * 10 ^ 18) 0 0⟩,
      ⟨testBlock 60000, 100, 0, .provideToSP (2210 * 10 ^ 18 - 50000) 0⟩,
      ⟨testBlock 44000, 102, 0, .liquidate 101⟩,
      ⟨testBlock 45100, 103, 50 * 10 ^ 18, .openVault (10 ^ 16) (10000 * 10 ^ 18) 0 0⟩] t
    (fun s s' => CCR ≤ s.TCR (45100 * 10 ^ 18) ∧
      succeeds (fun ICR => ICR < MCR) (getCurrentICR 100 (45100 * 10 ^ 18) s'))
    (by decide +kernel)
  obtain ⟨hnormal, hread⟩ := of_decide_eq_true hcheck
  obtain ⟨ICR, hICR, hlt⟩ := exists_of_succeeds hread
  obtain ⟨ICR', hICR', hMCR⟩ := (hall testnet s s' t _ _ hs (by decide +kernel) rfl hnormal
    (.inl trivial) h).vault (by simp [t])
  have hsame : ICR = ICR' := by
    have hICR'' : getCurrentICR 100 (45100 * 10 ^ 18) s' = .ok ICR' := hICR'
    rw [hICR] at hICR''
    exact Except.ok.inj hICR''
  have hlt := of_decide_eq_true hlt
  omega

end MoneyProtocol
