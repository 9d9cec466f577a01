import MoneyProtocol.Book.Effects

/-!
# Borrower operations in Recovery Mode

A borrower operation looks at one vault only. In Recovery Mode the vault it leaves is at least
as well collateralised as before, and above the critical ratio where it draws debt, so by the
mediant of the two ratios the system loses at most the rounding of the vault's ratio.
-/

namespace MoneyProtocol

open Outcome MoneypMath MoneypBase Book VaultManager PointSum

variable {d : Deployment} {s s' : State} {t : Transaction} {price : ℕ}

/-- A part above the ratio `K` that draws debt `x` on new collateral `y`, and whose floored
ratio does not fall, lowers the ratio of the whole, if that is below `K`, by one at most. -/
theorem ratio_le_drawn {C D c δ y x p K : ℕ} (hδ : 0 < δ) (hle : δ ≤ D) (hwhole : C * p / D < K)
    (hnew : K ≤ (c + y) * p / (δ + x)) (hold : c * p / δ ≤ (c + y) * p / (δ + x)) :
    C * p / D ≤ (C + y) * p / (D + x) + 1 := by
  have hD : 0 < D := hδ.trans_le hle
  have hpart : 0 < δ + x := by omega
  set q := C * p / D with hq
  set r := (c + y) * p / (δ + x) with hr
  have hqD : q * D ≤ C * p := Nat.div_mul_le_self _ _
  have hrd : r * (δ + x) ≤ (c + y) * p := Nat.div_mul_le_self _ _
  have hc : c * p < (r + 1) * δ := by
    calc c * p < δ * (c * p / δ + 1) := Nat.lt_mul_div_succ _ hδ
      _ ≤ δ * (r + 1) := Nat.mul_le_mul_left _ (Nat.succ_le_succ hold)
      _ = (r + 1) * δ := mul_comm _ _
  rw [mul_add, add_mul] at hrd
  -- the debt drawn against the ratio of the whole is paid for, but for one unit of the part
  have hdrawn : q * x ≤ y * p + D := by
    have hqr : q * x ≤ r * x := Nat.mul_le_mul_right _ (by omega)
    rw [add_mul, one_mul] at hc
    omega
  rcases Nat.eq_zero_or_pos q with hzero | hpos
  · rw [hzero]
    exact Nat.zero_le _
  · have hgoal : q - 1 ≤ (C + y) * p / (D + x) := by
      rw [Nat.le_div_iff_mul_le (by omega), Nat.sub_mul, one_mul, mul_add, add_mul]
      omega
    omega

theorem collRatio_le {coll debt p q : ℕ} (hq : q ≤ UINT256_MAX) (h : q * debt ≤ coll * p) :
    q ≤ collRatio coll debt p := by
  unfold collRatio
  split_ifs with hdebt
  · exact (Nat.le_div_iff_mul_le hdebt).mpr h
  · exact hq

/-- The vaults have no more debt than the system. -/
theorem vault_debt_le (hs : s.ledger d .debt = 0) (a : Address) :
    (s.vault a).debt ≤ s.system.2 := by
  have hle := le_total Vault.debt s.vaultManager.vaults a
  simp only [State.ledger] at hs
  simp only [State.vault, State.system]
  omega

theorem CCR_lt : CCR < UINT256_MAX := by decide

/-- In Recovery Mode there is debt, and the ratio is a quotient. -/
theorem TCR_eq (h : s.TCR price < CCR) :
    0 < s.system.2 ∧ s.TCR price = s.system.1 * price / s.system.2 := by
  unfold State.TCR collRatio at h ⊢
  split_ifs at h ⊢ with hdebt
  · exact ⟨hdebt, rfl⟩
  · exact absurd (CCR_lt.trans h) (lt_irrefl _)

theorem TCR_of_system {coll debt : ℕ} (h : s.system = (coll, debt)) :
    s.TCR price = collRatio coll debt price := by
  rw [State.TCR, h]

namespace BorrowerOperations

variable {block : Block} {borrower : Address} {value maxFee amount : ℕ} {adj : Adjustment}

theorem OpeningEffect.recovery_TCR (e : OpeningEffect d block borrower value maxFee amount s s')
    (hrecovery : s.TCR e.price < CCR) : s.TCR e.price ≤ s'.TCR e.price := by
  obtain ⟨hdebt, hTCR⟩ := TCR_eq hrecovery
  have hmode := checkRecoveryMode_ok e.mode
  rw [State.TCR, PriceFeed.fetchPrice_system e.fetches, ← State.TCR, decide_eq_true hrecovery]
    at hmode
  have hvalid := e.valid
  rw [hmode] at hvalid
  simp only [requireValidOpening, requireICRisAboveCCR, if_true, require_ok] at hvalid
  have hratio := computeCR_ok e.ratio
  have hpos : 0 < e.netDebt + BPD_GAS_COMPENSATION := by
    have : 0 < BPD_GAS_COMPENSATION := by decide
    omega
  rw [collRatio, if_pos hpos] at hratio
  rw [TCR_of_system e.system]
  apply collRatio_le (hrecovery.trans CCR_lt).le
  have hwhole : s.TCR e.price * s.system.2 ≤ s.system.1 * e.price := by
    rw [hTCR]
    exact Nat.div_mul_le_self _ _
  have hpart : s.TCR e.price * (e.netDebt + BPD_GAS_COMPENSATION) ≤ value * e.price := by
    rw [← Nat.le_div_iff_mul_le hpos, hratio]
    omega
  rw [mul_add, add_mul]
  exact Nat.add_le_add hwhole hpart

/-- An adjustment in Recovery Mode withdraws no collateral, and the fee is waived. -/
theorem AdjustmentEffect.recovery (e : AdjustmentEffect d block value borrower adj s s')
    (hrecovery : s.TCR e.price < CCR) : e.isRecoveryMode = true ∧ adj.collWithdrawal = 0 ∧
      e.netDebtChange = adj.BPDChange ∧
      s'.system = (s.system.1 + value, changed s.system.2 adj.BPDChange adj.isDebtIncrease) := by
  have hmode := checkRecoveryMode_ok e.mode
  rw [State.TCR, PriceFeed.fetchPrice_system e.fetches, ← State.TCR, decide_eq_true hrecovery]
    at hmode
  have hvalid := e.valid
  have hcharges := e.charges
  have hsystem := e.system
  rw [hmode, Bool.true_or] at hcharges
  obtain ⟨hnet, -⟩ := chargeBorrowingFee_waived hcharges
  rw [hmode] at hvalid
  simp only [requireValidAdjustmentInCurrentMode, requireNoCollWithdrawal, if_true, bind_ok,
    require_ok] at hvalid
  obtain ⟨_, hwithdrawal, -⟩ := hvalid
  refine ⟨hmode, hwithdrawal, hnet, ?_⟩
  rw [hsystem, hnet, getCollChange]
  by_cases hvalue : value = 0
  · simp [hvalue, hwithdrawal, changed]
  · simp [hvalue, changed]

theorem AdjustmentEffect.recovery_TCR {xs : List Address}
    (e : AdjustmentEffect d block value borrower adj s s') (hs : s.ledger d .debt = 0)
    (hxs : s.book.Registry xs) (hrecovery : s.TCR e.price < CCR) :
    s.TCR e.price ≤ s'.TCR e.price + 1 := by
  obtain ⟨hdebt, hTCR⟩ := TCR_eq hrecovery
  obtain ⟨hmode, hwithdrawal, hnet, hsystem⟩ := e.recovery hrecovery
  have hwhole : s.TCR e.price * s.system.2 ≤ s.system.1 * e.price := by
    rw [hTCR]
    exact Nat.div_mul_le_self _ _
  cases hincrease : adj.isDebtIncrease
  · -- repaying debt or adding collateral does not lower the ratio
    rw [hincrease, changed, if_neg Bool.false_ne_true] at hsystem
    rw [TCR_of_system hsystem]
    refine (collRatio_le (hrecovery.trans CCR_lt).le ?_).trans (Nat.le_succ _)
    calc s.TCR e.price * (s.system.2 - adj.BPDChange)
        ≤ s.TCR e.price * s.system.2 := Nat.mul_le_mul_left _ (Nat.sub_le _ _)
      _ ≤ s.system.1 * e.price := hwhole
      _ ≤ (s.system.1 + value) * e.price := Nat.mul_le_mul_right _ (Nat.le_add_right _ _)
  · obtain ⟨hactive, ys, hys⟩ := e.collected_registry hxs
    have hpos : 0 < (e.collected.vault borrower).debt := by
      have hmin : 0 < minDebt := by decide
      exact hmin.trans_le (hys.funded borrower ((hys.active borrower).mp hactive)).2
    have hle : (e.collected.vault borrower).debt ≤ s.system.2 := by
      have hledger : e.collected.ledger d .debt = 0 := by
        rw [applyPendingRewards_ledger e.collects, PriceFeed.fetchPrice_ledger e.fetches]
        exact hs
      refine (vault_debt_le hledger borrower).trans_eq ?_
      rw [applyPendingRewards_system e.collects, PriceFeed.fetchPrice_system e.fetches]
    have hvalid := e.valid
    rw [hmode, hincrease] at hvalid
    simp only [requireValidAdjustmentInCurrentMode, requireICRisAboveCCR,
      requireNewICRisAboveOldICR, if_true, bind_ok, require_ok] at hvalid
    obtain ⟨_, -, _, hCCR, hnewOld⟩ := hvalid
    have hnewColl : e.newColl = (e.collected.vault borrower).coll + value ∧
        e.newDebt = (e.collected.vault borrower).debt + adj.BPDChange := by
      have hamounts := e.amounts
      rw [hnet, hincrease, hwithdrawal] at hamounts
      simp only [getNewVaultAmounts, bind_ok, pure_ok, Prod.mk.injEq] at hamounts
      obtain ⟨_, hcoll, _, hdebt, rfl, rfl⟩ := hamounts
      obtain ⟨hcoll, -, -⟩ := getNewAmount_ok hcoll
      obtain ⟨hdebt, -, -⟩ := getNewAmount_ok hdebt
      refine ⟨?_, hdebt⟩
      rw [hcoll, getCollChange]
      by_cases hvalue : value = 0 <;> simp [hvalue, changed]
    have hnew := computeCR_ok e.new
    have hold := computeCR_ok e.old
    rw [collRatio, if_pos hpos] at hold
    rw [hnewColl.1, hnewColl.2, collRatio, if_pos (Nat.add_pos_left hpos _)] at hnew
    rw [hincrease, changed, if_pos rfl] at hsystem
    rw [TCR_of_system hsystem, collRatio, if_pos (Nat.add_pos_left hdebt _), hTCR]
    rw [hTCR] at hrecovery
    exact ratio_le_drawn hpos hle hrecovery (by rw [hnew]; exact hCCR)
      (by rw [hold, hnew]; exact hnewOld)

end BorrowerOperations

/-- The operations of a borrower that change a vault. -/
def Operation.Borrows : Operation → Prop
  | .openVault _ _ _ _ => True
  | o => o.Adjusts

/-- The operations that close a vault or take collateral out of it. -/
def Operation.Withdraws : Operation → Prop
  | .closeVault | .withdrawColl _ _ _ => True
  | .adjustVault a => a.collWithdrawal ≠ 0
  | _ => False

/-- What an adjustment in Recovery Mode leaves alone. -/
theorem BorrowerOperations.AdjustmentEffect.not_withdraws {s₁ : State} {value : ℕ}
    {adj : Adjustment} (hadj : t.adjustment d s = .ok (value, adj, s₁))
    (e : AdjustmentEffect d t.block value t.sender adj s₁ s') (hop : t.operation.Adjusts)
    (hrecovery : s₁.TCR e.price < CCR) : ¬t.operation.Withdraws := by
  obtain ⟨-, hwithdrawal, -⟩ := e.recovery hrecovery
  have hnonZero := e.nonZero
  obtain ⟨block, sender, msgValue, operation⟩ := t
  cases operation with
  | withdrawColl =>
    simp only [Transaction.adjustment, pure_ok, Prod.mk.injEq] at hadj
    obtain ⟨rfl, rfl, -⟩ := hadj
    simp only at hwithdrawal hnonZero
    simp [hwithdrawal] at hnonZero
  | adjustVault a =>
    simp only [Transaction.adjustment, bind_ok, pure_ok, Prod.mk.injEq] at hadj
    obtain ⟨_, -, -, rfl, -⟩ := hadj
    exact fun h => h hwithdrawal
  | closeVault => exact hop.elim
  | _ => exact fun h => h.elim

theorem recoveryMode_adjustment {xs : List Address} {s₀ : State} (hs : s.ledger d .debt = 0)
    (hxs : s.book.Registry xs) (hsigned : t.Signed d)
    (hprice : PriceFeed.fetchPrice t.block s = .ok (price, s₀)) (hrecovery : s.TCR price < CCR)
    (hop : t.operation.Adjusts) (h : transact d t s = .ok s') :
    s.TCR price ≤ s'.TCR price + 1 ∧ ¬t.operation.Withdraws := by
  obtain ⟨value, adj, s₁, sender, hadj, hsame, hactive, hdefault, h⟩ :=
    transact_adjustment hsigned hop h
  obtain ⟨e⟩ := BorrowerOperations.adjustVaultInternal_effect hactive hdefault h
  obtain rfl := PriceFeed.fetchPrice_same hsame.priceFeed hprice e.fetches
  have hTCR : s₁.TCR e.price = s.TCR e.price := by rw [State.TCR, State.TCR, hsame.system]
  rw [← hTCR] at hrecovery ⊢
  rw [← hsame.book] at hxs
  exact ⟨e.recovery_TCR (hsame.debt.trans hs) hxs hrecovery, e.not_withdraws hadj hop hrecovery⟩

/-- In Recovery Mode no operation of a borrower lowers the ratio of the system by more than
one unit, and no vault is closed or loses collateral to its owner. -/
theorem recoveryMode_safe {s₀ : State} (hs : Reachable d s) (hsigned : t.Signed d)
    (hprice : PriceFeed.fetchPrice t.block s = .ok (price, s₀)) (hrecovery : s.TCR price < CCR)
    (h : transact d t s = .ok s') :
    (t.operation.Borrows → s.TCR price ≤ s'.TCR price + 1) ∧ ¬t.operation.Withdraws := by
  obtain ⟨xs, hxs⟩ := hs.registry
  have hadjust (hop : t.operation.Adjusts) :=
    recoveryMode_adjustment hs.balanced.debt hxs hsigned hprice hrecovery hop h
  obtain ⟨block, sender, msgValue, operation⟩ := t
  cases operation with
  | openVault =>
    simp only [transact, payable, bind_ok] at h
    obtain ⟨s₁, hsend, h⟩ := h
    have hsame : SameVaults d s s₁ := .transferRBTC (hsigned.1.ne d.activePool_mem)
      d.borrowerOperations_ne_activePool hsend
    obtain ⟨e⟩ := BorrowerOperations.openVault_effect h
    obtain rfl := PriceFeed.fetchPrice_same hsame.priceFeed hprice e.fetches
    have hTCR : s₁.TCR e.price = s.TCR e.price := by rw [State.TCR, State.TCR, hsame.system]
    refine ⟨fun _ => ?_, fun h => h.elim⟩
    rw [← hTCR] at hrecovery ⊢
    exact (e.recovery_TCR hrecovery).trans (Nat.le_succ _)
  | closeVault =>
    obtain ⟨e⟩ := BorrowerOperations.closeVault_effect (hsigned.1.ne d.activePool_mem)
      (hsigned.1.ne d.defaultPool_mem) (nonPayable_ok h)
    obtain rfl := PriceFeed.fetchPrice_same rfl hprice e.fetches
    have hmode := checkRecoveryMode_ok e.mode
    rw [State.TCR, PriceFeed.fetchPrice_system e.fetches, ← State.TCR,
      decide_eq_true hrecovery] at hmode
    exact absurd hmode Bool.false_ne_true
  | addColl => exact ⟨fun _ => (hadjust trivial).1, (hadjust trivial).2⟩
  | withdrawColl => exact ⟨fun _ => (hadjust trivial).1, (hadjust trivial).2⟩
  | withdrawBPD => exact ⟨fun _ => (hadjust trivial).1, (hadjust trivial).2⟩
  | repayBPD => exact ⟨fun _ => (hadjust trivial).1, (hadjust trivial).2⟩
  | adjustVault => exact ⟨fun _ => (hadjust trivial).1, (hadjust trivial).2⟩
  | withdrawRBTCGainToVault => exact ⟨fun _ => (hadjust trivial).1, (hadjust trivial).2⟩
  | _ => exact ⟨fun h => h.elim, fun h => h.elim⟩

/-- In Recovery Mode at a price of 44000, 100 draws BPD on new collateral. -/
theorem recoveryMode_safe_drawn : ∃ s s' : State, Reachable testnet s ∧
    s.TCR (44000 * 10 ^ 18) < CCR ∧ s'.vaultManager.vaults ≠ s.vaultManager.vaults ∧
    s.TCR (44000 * 10 ^ 18) ≤ s'.TCR (44000 * 10 ^ 18) + 1 := by
  let t : Transaction := ⟨testBlock 44000, 100, 10 ^ 18,
    .adjustVault ⟨0, 5000 * 10 ^ 18, true, 0, 0, 10 ^ 18⟩⟩
  obtain ⟨s, s', hs, h, hcheck⟩ := runsThen_reachable testnet testGenesis
    [⟨testBlock 60000, 100, 3 * 10 ^ 17, .openVault (10 ^ 16) (10000 * 10 ^ 18) 0 0⟩] t
    (fun s s' => s.TCR (44000 * 10 ^ 18) < CCR ∧ (s.vault 100).coll < (s'.vault 100).coll)
    (by decide +kernel)
  obtain ⟨hrecovery, hcoll⟩ := of_decide_eq_true hcheck
  refine ⟨s, s', hs, hrecovery, ?_, ?_⟩
  · intro hsame
    rw [State.vault, State.vault, hsame] at hcoll
    exact lt_irrefl _ hcoll
  · exact (recoveryMode_safe (t := t) hs (by decide +kernel) rfl hrecovery h).1 trivial

end MoneyProtocol
