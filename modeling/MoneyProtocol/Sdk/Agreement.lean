import MoneyProtocol.Sdk.Rates
import MoneyProtocol.Book.Effects
import MoneyProtocol.Safety.RedemptionHints

/-!
# The SDK foresees vaults

The vault that the SDK computes before a loan or an adjustment is the one that the contracts
record, to the last wei. It fails where the contracts leave a vault's pending debt out, and where
JavaScript cannot tell the time.
-/

namespace MoneyProtocol.Sdk

open Outcome Decimal BorrowerOperations Book

variable {d : Deployment} {s s' s₀ : State} {t : Transaction} {a : Address} {b : Book}
  {price value : ℕ} {adj : Adjustment} {block : Block}

/-- The parameters of an adjustment. -/
def adjustmentParams (value : ℕ) (adj : Adjustment) : VaultAdjustmentParams where
  depositCollateral := some value
  withdrawCollateral := some adj.collWithdrawal
  borrowBPD := if adj.isDebtIncrease then some adj.BPDChange else none
  repayBPD := if adj.isDebtIncrease then none else some adj.BPDChange

/-- The vault that the SDK computes for a transaction, in the state before it. -/
def predictedVault (t : Transaction) (price : ℕ) (s : State) : Outcome Vault := do
  let fees ← getFees t.block.timestamp price s
  let borrowingRate ← fees.borrowingRate fees.timeOfLatestBlock
  match t.operation with
  | .openVault _ BPDAmount _ _ => Vault.create ⟨t.value, BPDAmount⟩ borrowingRate
  | .adjustVault adj =>
    (getVault t.sender s).adjust (adjustmentParams t.value adj) borrowingRate
  | _ => .error .invalid

def recordedVault (a : Address) (s : State) : Vault := ⟨(s.vault a).coll, (s.vault a).debt⟩

theorem nonZero_getD (v : ℕ) : (nonZero (some v)).getD ZERO = v := by
  unfold nonZero
  by_cases hv : v = 0
  · subst hv
    rfl
  · simp [Option.filter, hv]

theorem nonZero_eq_none {v : ℕ} : nonZero (some v) = none ↔ v = 0 := by
  simp [nonZero]

theorem nonZero_of_ne {v : ℕ} (hv : v ≠ 0) : nonZero (some v) = some v := by
  simp [nonZero, hv]

/-- The parameters of an adjustment that the contracts accept are normal but for zeros. -/
theorem normalize_adjustmentParams (hsingular : value = 0 ∨ adj.collWithdrawal = 0)
    (hnonZero : value ≠ 0 ∨ adj.collWithdrawal ≠ 0 ∨ adj.BPDChange ≠ 0) :
    normalizeVaultAdjustment (adjustmentParams value adj) =
      .ok ⟨nonZero (some value), nonZero (some adj.collWithdrawal),
        nonZero (adjustmentParams value adj).borrowBPD,
        nonZero (adjustmentParams value adj).repayBPD⟩ := by
  simp only [normalizeVaultAdjustment, bind_ok, require_ok, pure_ok]
  refine ⟨(), ?_, (), ?_, (), ?_, rfl⟩
  · exact hsingular.imp nonZero_eq_none.mpr nonZero_eq_none.mpr
  · unfold adjustmentParams
    cases adj.isDebtIncrease
    · exact .inl rfl
    · exact .inr rfl
  · intro hempty
    simp only [VaultAdjustmentParams.mk.injEq] at hempty
    obtain ⟨hvalue, hcoll, hborrow, hrepay⟩ := hempty
    rcases hnonZero with h | h | h
    · exact h (nonZero_eq_none.mp hvalue)
    · exact h (nonZero_eq_none.mp hcoll)
    · unfold adjustmentParams at hborrow hrepay
      cases hincrease : adj.isDebtIncrease
      · rw [hincrease] at hrepay
        exact h (nonZero_eq_none.mp hrepay)
      · rw [hincrease] at hborrow
        exact h (nonZero_eq_none.mp hborrow)

/-- The debt that an adjustment adds, at this rate, and the debt that it takes away. -/
theorem adjust_adjustmentParams {v : Vault} {rate : ℕ}
    (hsingular : value = 0 ∨ adj.collWithdrawal = 0)
    (hnonZero : value ≠ 0 ∨ adj.collWithdrawal ≠ 0 ∨ adj.BPDChange ≠ 0) :
    v.adjust (adjustmentParams value adj) rate =
      .ok ⟨v.collateral + value - adj.collWithdrawal,
        if adj.isDebtIncrease then v.debt + applyFee rate adj.BPDChange
        else v.debt - adj.BPDChange⟩ := by
  simp only [Vault.adjust, normalize_adjustmentParams hsingular hnonZero, bind_ok, Except.ok.injEq]
  refine ⟨_, rfl, ?_⟩
  simp only [Vault.apply, Vault.applyAdjustment, Vault.add, Vault.subtract, clampedSub_eq,
    nonZero_getD, pure_ok]
  unfold adjustmentParams
  cases adj.isDebtIncrease
  · rw [if_neg Bool.false_ne_true, if_neg Bool.false_ne_true, if_neg Bool.false_ne_true,
      show nonZero none = none from rfl, nonZero_getD]
    rfl
  · rw [if_pos rfl, if_pos rfl, if_pos rfl, show nonZero none = none from rfl]
    by_cases hzero : adj.BPDChange = 0
    · have hnothing : applyFee rate 0 = 0 := by
        rw [applyFee_eq, Nat.mul_zero, Nat.zero_div]
      rw [hzero, nonZero_eq_none.mpr rfl, hnothing]
      rfl
    · rw [nonZero_of_ne hzero]
      rfl

theorem getVault_eq (hactive : s.Active a) :
    getVault a s = ⟨s.book.entireColl a, s.book.entireDebt a⟩ := by
  have hstatus : (s.vault a).status = .active := hactive
  have hbook : (s.book.vaults a).status = .active := hactive
  simp only [getVault, getVaultBeforeRedistribution, if_pos hstatus, getTotalRedistributed,
    VaultWithPendingRedistribution.applyRedistribution, Vault.add, Vault.subtract, Vault.multiply,
    clampedSub_eq, mul, Decimal.add, entireColl, entireDebt, pendingRBTC, pendingDebt, if_pos hbook,
    Nat.mul_comm _ (s.vault a).stake]
  rfl

/-- The rewards that the contracts apply: all of them, unless the vault hides debt. -/
theorem appliedDebt_eq_iff : b.appliedDebt a = b.entireDebt a ↔ ¬b.Hides a := by
  refine ⟨?_, appliedDebt_eq⟩
  intro heq hhides
  obtain ⟨⟨hRBTC, -⟩, hpending⟩ := hhides
  rw [appliedDebt, if_neg hRBTC.not_gt, entireDebt] at heq
  omega

theorem hides_active (h : b.Hides a) : b.Active a := by
  by_contra hinactive
  have hzero : b.pendingDebt a = 0 := if_neg hinactive
  exact absurd h.2 (by omega)

theorem applyPendingRewards_coll (h : VaultManager.applyPendingRewards d a s = .ok s') :
    (s'.vault a).coll = s.book.entireColl a := by
  rcases VaultManager.applyPendingRewards_book (P := .any) h with ⟨-, -, hbook⟩ | ⟨hnone, rfl⟩
  · have hself : s'.vault a = (s.book.collected a).vaults a :=
      congrFun (congrArg Book.vaults hbook) a
    rw [hself]
    simp [Book.collected]
  · have hzero : s'.book.pendingRBTC a = 0 := by
      unfold VaultManager.hasPendingRewards at hnone
      split_ifs at hnone with hinactive
      · exact if_neg hinactive
      · have hle : s'.book.B_RBTC - (s'.book.rewardSnapshots a).RBTC = 0 :=
          Nat.sub_eq_zero_of_le (not_lt.mp (of_decide_eq_false hnone))
        rw [pendingRBTC, hle, Nat.mul_zero, Nat.zero_div, ite_self]
    rw [entireColl, hzero]
    rfl

/-- Applying rewards is no fee operation. -/
theorem applyPendingRewards_rate {timestamp : ℕ}
    (h : VaultManager.applyPendingRewards d a s = .ok s') :
    normalBorrowingRate timestamp s' = normalBorrowingRate timestamp s := by
  simp only [VaultManager.applyPendingRewards] at h
  split_ifs at h
  · simp only [bind_ok, VaultManager.increaseVaultColl, VaultManager.increaseVaultDebt,
      pure_ok] at h
    obtain ⟨_, -, _, -, _, -, _, ⟨_, -, rfl⟩, _, ⟨_, -, rfl⟩, hmove⟩ := h
    obtain ⟨-, -, _, rfl⟩ := VaultManager.movePendingVaultRewardsToActivePool_ok hmove
    rfl
  · rw [pure_ok.mp h]

/-- JavaScript can tell the times: they are safe integers and, outside Recovery Mode, valid dates
that are not too far apart. -/
def TellsTime (timestamp price : ℕ) (s : State) : Prop :=
  SafeTimes timestamp s ∧ (recoveryMode price s = false → ValidDates timestamp s)

instance (timestamp price : ℕ) (s : State) : Decidable (TellsTime timestamp price s) :=
  inferInstanceAs (Decidable ((_ ∧ _) ∧ (_ → (_ ∧ _ ∧ _))))

/-- The borrowing rate of the SDK. -/
def sdkBorrowingRate (timestamp price : ℕ) (s : State) : ℕ :=
  if recoveryMode price s then 0 else normalBorrowingRate timestamp s

theorem exists_borrowingRate {timestamp rate : ℕ} :
    (∃ fees, getFees timestamp price s = .ok fees ∧
      fees.borrowingRate fees.timeOfLatestBlock = .ok rate) ↔
      TellsTime timestamp price s ∧ rate = sdkBorrowingRate timestamp price s := by
  unfold TellsTime sdkBorrowingRate
  constructor
  · rintro ⟨fees, hfees, hrate⟩
    have hsafe := (getFees_ok.mp hfees).1
    rw [borrowingRate_ok hfees] at hrate
    cases hrecovery : recoveryMode price s
    · rw [hrecovery, if_neg Bool.false_ne_true] at hrate
      exact ⟨⟨hsafe, fun _ => hrate.1⟩, hrate.2⟩
    · rw [hrecovery, if_pos rfl] at hrate
      exact ⟨⟨hsafe, fun h => absurd h (by decide)⟩, hrate⟩
  · rintro ⟨⟨hsafe, hdates⟩, rfl⟩
    refine ⟨_, getFees_ok.mpr ⟨hsafe, rfl⟩, ?_⟩
    rw [borrowingRate_ok (getFees_ok.mpr ⟨hsafe, rfl⟩)]
    cases hrecovery : recoveryMode price s
    · exact ⟨hdates hrecovery, rfl⟩
    · rfl

theorem predictedVault_ok {v : Vault} :
    predictedVault t price s = .ok v ↔ TellsTime t.block.timestamp price s ∧
      (match t.operation with
        | .openVault _ BPDAmount _ _ =>
          Vault.create ⟨t.value, BPDAmount⟩ (sdkBorrowingRate t.block.timestamp price s)
        | .adjustVault adj => (getVault t.sender s).adjust (adjustmentParams t.value adj)
          (sdkBorrowingRate t.block.timestamp price s)
        | _ => .error .invalid) = .ok v := by
  simp only [predictedVault, bind_ok]
  constructor
  · rintro ⟨fees, hfees, rate, hrate, h⟩
    obtain ⟨htime, rfl⟩ := exists_borrowingRate.mp ⟨fees, hfees, hrate⟩
    exact ⟨htime, h⟩
  · rintro ⟨htime, h⟩
    obtain ⟨fees, hfees, hrate⟩ := exists_borrowingRate.mpr ⟨htime, rfl⟩
    exact ⟨fees, hfees, _, hrate, h⟩

/-- The transactions that the SDK predicts. -/
def Predicts (t : Transaction) : Prop :=
  match t.operation with
  | .openVault _ _ _ _ | .adjustVault _ => True
  | _ => False

/-- The SDK's rate is the one that the contracts charge. -/
theorem sdkBorrowingRate_eq {isRecoveryMode : Bool}
    (hprice : PriceFeed.fetchPrice block s = .ok (price, s₀))
    (hmode : MoneypBase.checkRecoveryMode price s₀ = .ok isRecoveryMode) :
    sdkBorrowingRate block.timestamp price s =
      if isRecoveryMode then 0 else normalBorrowingRate block.timestamp s₀ := by
  rw [← recoveryMode_eq hmode]
  obtain ⟨_, rfl⟩ := PriceFeed.fetchPrice_ok hprice
  rfl

theorem opening_recorded {maxFee amount : ℕ} {xs : List Address}
    (e : OpeningEffect d block a value maxFee amount s s')
    (hlength : s.book.vaultOwners.length < 2 ^ 128) (hxs : s.book.Registry xs) :
    Vault.create ⟨value, amount⟩ (sdkBorrowingRate block.timestamp e.price s) =
      .ok (recordedVault a s') := by
  have hnet := chargeBorrowingFee_net e.charges
  rw [← sdkBorrowingRate_eq e.fetches e.mode] at hnet
  have hbook := e.book hlength
  have hempty := hxs.inactive a fun ha => e.inactive ((hxs.active a).mpr ha)
  have hself : s'.vault a = _ := congrFun (congrArg Book.vaults hbook) a
  simp only [Book.opened, Function.update_self, hempty.1, hempty.2.1, Nat.zero_add] at hself
  rw [recordedVault, hself, hnet, Nat.add_comm]
  rfl

theorem newAmount_ok {amount change v : ℕ} {isIncrease : Bool}
    (h : getNewAmount amount change isIncrease = .ok v) :
    (isIncrease = true ∧ v = amount + change) ∨
      (isIncrease = false ∧ change ≤ amount ∧ v = amount - change) := by
  unfold getNewAmount at h
  cases isIncrease
  · rw [if_neg Bool.false_ne_true, SafeMath.sub_ok] at h
    exact .inr ⟨rfl, h.1, h.2.symm⟩
  · rw [if_pos rfl, SafeMath.add_ok] at h
    exact .inl ⟨rfl, h.2.symm⟩

theorem sub_eq_iff_of_le {x y z : ℕ} (hle : x ≤ y) (hz : z ≤ x) : y - z = x - z ↔ x = y := by
  omega

/-- The collateral after an adjustment: the value comes in or the withdrawal goes out. -/
theorem newColl_eq {coll newColl : ℕ} (hsingular : value = 0 ∨ adj.collWithdrawal = 0)
    (h : getNewAmount coll (getCollChange value adj.collWithdrawal).1
      (getCollChange value adj.collWithdrawal).2 = .ok newColl) :
    coll + value - adj.collWithdrawal = newColl := by
  unfold getCollChange at h
  by_cases hvalue : value = 0
  · rw [if_neg (not_not.mpr hvalue)] at h
    rcases newAmount_ok h with ⟨hincrease, -⟩ | ⟨-, -, rfl⟩
    · exact absurd hincrease Bool.false_ne_true
    · rw [hvalue, Nat.add_zero]
  · rw [if_pos hvalue] at h
    rcases newAmount_ok h with ⟨-, rfl⟩ | ⟨hdecrease, -⟩
    · rw [hsingular.resolve_left hvalue, Nat.sub_zero]
    · exact absurd hdecrease.symm Bool.false_ne_true

theorem adjustment_recorded (e : AdjustmentEffect d block value a adj s s') :
    (getVault a s).adjust (adjustmentParams value adj)
        (sdkBorrowingRate block.timestamp e.price s) = .ok (recordedVault a s') ↔
      ¬s.book.Hides a := by
  have hfetched : e.fetched.book = s.book := PriceFeed.fetchPrice_book e.fetches
  have hcoll := applyPendingRewards_coll e.collects
  have hdebt := VaultManager.applyPendingRewards_debt e.collects
  rw [hfetched] at hcoll hdebt
  have hnet := chargeBorrowingFee_net e.charges
  rw [applyPendingRewards_rate e.collects] at hnet
  have hself : s'.vault a = _ := congrFun (congrArg Book.vaults e.book) a
  simp only [Book.restaked, Function.update_self] at hself
  have hamounts := e.amounts
  simp only [getNewVaultAmounts, bind_ok, pure_ok, Prod.mk.injEq] at hamounts
  obtain ⟨_, hnewColl, _, hnewDebt, rfl, rfl⟩ := hamounts
  rw [hcoll] at hnewColl
  rw [hdebt] at hnewDebt
  rw [adjust_adjustmentParams e.singular e.nonZero, getVault_eq e.active, recordedVault, hself,
    Except.ok.injEq, Vault.mk.injEq, ← appliedDebt_eq_iff, sdkBorrowingRate_eq e.fetches e.mode]
  rw [and_iff_right (newColl_eq e.singular hnewColl)]
  have hle : s.book.appliedDebt a ≤ s.book.entireDebt a := appliedDebt_le
  cases hincrease : adj.isDebtIncrease
  · rw [hincrease, Bool.not_false, Bool.or_true, if_pos rfl, applyFee_zero] at hnet
    rw [hincrease] at hnewDebt
    rcases newAmount_ok hnewDebt with ⟨htrue, -⟩ | ⟨-, hroom, hnew⟩
    · exact absurd htrue Bool.false_ne_true
    · rw [if_neg Bool.false_ne_true, hnew, hnet]
      exact sub_eq_iff_of_le hle (hnet ▸ hroom)
  · rw [hincrease, Bool.not_true, Bool.or_false] at hnet
    rw [hincrease] at hnewDebt
    rcases newAmount_ok hnewDebt with ⟨-, hnew⟩ | ⟨hfalse, -⟩
    · rw [if_pos rfl, hnew, ← hnet, Nat.add_right_cancel_iff]
      exact eq_comm
    · exact absurd hfalse.symm Bool.false_ne_true

/-- For a transaction that succeeds, the SDK foresees the vault to the last wei if and only if it
can tell the time, and the vault that is adjusted hides no debt. -/
theorem vault_predicted_iff (hs : Reachable d s) (hsigned : t.Signed d) (hop : Predicts t)
    (hprice : PriceFeed.fetchPrice t.block s = .ok (price, s₀)) (h : transact d t s = .ok s') :
    predictedVault t price s = .ok (recordedVault t.sender s') ↔
      TellsTime t.block.timestamp price s ∧ ¬s.book.Hides t.sender := by
  obtain ⟨xs, hxs⟩ := hs.registry
  obtain ⟨hsender, -⟩ := hsigned
  rw [predictedVault_ok]
  obtain ⟨block, sender, msgValue, operation⟩ := t
  cases operation with
  | openVault maxFeePercentage BPDAmount upperHint lowerHint =>
    simp only [transact, payable, bind_ok] at h
    obtain ⟨s₁, hsend, h⟩ := h
    obtain ⟨-, hs₁⟩ := transferRBTC_ok.mp hsend
    obtain ⟨e⟩ := openVault_effect h
    obtain rfl : e.price = price := PriceFeed.fetchPrice_same (by rw [← hs₁]) hprice e.fetches
    subst hs₁
    have hshown : ¬s.book.Hides sender := fun hhides => e.inactive (hides_active hhides)
    have hrecorded := opening_recorded e (hs.balanced.owners_lt hxs) hxs
    exact and_congr_right fun _ => ⟨fun _ => hshown, fun _ => hrecorded⟩
  | adjustVault adj =>
    simp only [transact, payable, bind_ok] at h
    obtain ⟨s₁, hsend, h⟩ := h
    obtain ⟨-, hs₁⟩ := transferRBTC_ok.mp hsend
    obtain ⟨e⟩ := adjustVaultInternal_effect (hsender.ne d.activePool_mem)
      (hsender.ne d.defaultPool_mem) h
    obtain rfl : e.price = price := PriceFeed.fetchPrice_same (by rw [← hs₁]) hprice e.fetches
    subst hs₁
    exact and_congr_right fun _ => adjustment_recorded e
  | _ => exact hop.elim

/-- 100 adds collateral and borrows, a month after it opened its vault. -/
def testBorrowing : Transaction :=
  ⟨lateBlock 60000, 100, 10 ^ 18, .adjustVault ⟨0, 500 * 10 ^ 18, true, 0, 0, 10 ^ 16⟩⟩

theorem vault_predicted_iff_borrowed : ∃ s s', Reachable testnet s ∧
    predictedVault testBorrowing (60000 * 10 ^ 18) s = .ok (recordedVault 100 s') ∧
    (s'.vault 100).debt = 107525 * 10 ^ 17 := by
  obtain ⟨s, s', hs, h, hcheck⟩ := runsThen_reachable testnet testGenesis
    [⟨testBlock 60000, 100, 5 * 10 ^ 18, .openVault (10 ^ 16) (10000 * 10 ^ 18) 0 0⟩]
    testBorrowing
    (fun s s' => decide ((TellsTime testBorrowing.block.timestamp (60000 * 10 ^ 18) s ∧
      ¬s.book.Hides 100) ∧ (s'.vault 100).debt = 107525 * 10 ^ 17)) (by decide +kernel)
  obtain ⟨hcondition, hdebt⟩ := of_decide_eq_true hcheck
  have hsigned : testBorrowing.Signed testnet := by
    decide +kernel
  have hop : Predicts testBorrowing := trivial
  exact ⟨s, s', hs, (vault_predicted_iff hs hsigned hop rfl h).mpr hcondition, hdebt⟩

/-- 100 adds collateral. -/
def testTopUp : Transaction :=
  ⟨testBlock 44000, 100, 10 ^ 18, .adjustVault ⟨0, 0, false, 0, 0, 0⟩⟩

/-- The vault of 100 hides some debt after a redistribution. The SDK counts it when 100 adds
collateral, and the contracts do not record it. -/
theorem hidden_debt_predicted : ¬∀ (d : Deployment) (s s' s₀ : State) (t : Transaction) (price : ℕ),
    Reachable d s → t.Signed d → Predicts t →
      PriceFeed.fetchPrice t.block s = .ok (price, s₀) → transact d t s = .ok s' →
      predictedVault t price s = .ok (recordedVault t.sender s') := by
  intro hall
  obtain ⟨s, s', hs, h, hcheck⟩ := runsThen_reachable testnet testGenesis
    [⟨testBlock 60000, 100, 10 ^ 24, .openVault (10 ^ 16) (10000 * 10 ^ 18) 0 0⟩,
      ⟨testBlock 60000, 101, 55 * 10 ^ 15, .openVault (10 ^ 16) (2000 * 10 ^ 18) 0 0⟩,
      ⟨testBlock 60000, 100, 0, .provideToSP (2210 * 10 ^ 18 - 10 ^ 10) 0⟩,
      ⟨testBlock 44000, 102, 0, .liquidate 101⟩]
    testTopUp
    (fun s s' => succeeds (fun v => decide (v ≠ recordedVault 100 s'))
      (predictedVault testTopUp (44000 * 10 ^ 18) s)) (by decide +kernel)
  have hsigned : testTopUp.Signed testnet := by
    decide +kernel
  have hop : Predicts testTopUp := trivial
  have hexact := hall testnet s s' _ _ _ hs hsigned hop rfl h
  obtain ⟨v, hv, hne⟩ := exists_of_succeeds hcheck
  have hv' : predictedVault testTopUp (44000 * 10 ^ 18) s = .ok v := hv
  rw [show recordedVault testTopUp.sender s' = recordedVault 100 s' from rfl] at hexact
  exact of_decide_eq_true hne (Except.ok.inj (hv'.symm.trans hexact))

end MoneyProtocol.Sdk
