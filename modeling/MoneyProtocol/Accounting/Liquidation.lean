import MoneyProtocol.Accounting.StabilityPool

/-!
# Liquidations balance

A liquidation takes the debt and collateral of a vault off the records at once, but off the
pools only when the whole sequence is settled. In between the ledger is off by exactly the
running totals; the totals split every amount without remainder, so settling them restores it.
-/

namespace MoneyProtocol.VaultManager

open Outcome PointSum MoneypBase MoneypMath

variable {d : Deployment} {s s' : State} {block : Block} {a : Address} {price : ℕ}

theorem getEntireDebtAndColl_ok {e : EntireDebtAndColl} (h : getEntireDebtAndColl a s = .ok e) :
    getPendingBPDDebtReward a s = .ok e.pendingBPDDebtReward ∧
      getPendingRBTCReward a s = .ok e.pendingRBTCReward ∧
      e.debt = (s.vault a).debt + e.pendingBPDDebtReward ∧
      e.coll = (s.vault a).coll + e.pendingRBTCReward := by
  simp only [getEntireDebtAndColl, bind_ok, pure_ok, SafeMath.add_ok] at h
  obtain ⟨_, hdebt, _, hcoll, _, ⟨-, rfl⟩, _, ⟨-, rfl⟩, rfl⟩ := h
  exact ⟨hdebt, hcoll, rfl, rfl⟩

theorem getCurrentICR_ok {e : EntireDebtAndColl} {ICR : ℕ}
    (hICR : getCurrentICR a price s = .ok ICR)
    (he : getEntireDebtAndColl a s = .ok e) : collRatio e.coll e.debt price = ICR := by
  obtain ⟨hdebt, hcoll, hentireDebt, hentireColl⟩ := getEntireDebtAndColl_ok he
  simp only [getCurrentICR, getCurrentVaultAmounts, bind_ok, pure_ok, SafeMath.add_ok, hdebt,
    hcoll, Except.ok.injEq, Prod.exists, Prod.mk.injEq] at hICR
  obtain ⟨_, _, ⟨_, rfl, _, rfl, _, ⟨-, rfl⟩, _, ⟨-, rfl⟩, rfl, rfl⟩, hICR⟩ := hICR
  rw [hentireDebt, hentireColl]
  exact computeCR_ok hICR

/-- A vault without debt has the largest ratio there is. -/
theorem debt_pos_of_ICR_lt {e : EntireDebtAndColl} {ICR bound : ℕ}
    (hICR : getCurrentICR a price s = .ok ICR) (he : getEntireDebtAndColl a s = .ok e)
    (hlt : ICR < bound) (hbound : bound ≤ UINT256_MAX) : 0 < e.debt := by
  by_contra hzero
  have hmax := getCurrentICR_ok hICR he
  simp only [collRatio, hzero, if_false] at hmax
  omega

/-- Nothing of a liquidated vault is lost: its debt is offset or redistributed, its
collateral goes to the liquidator, the Stability Pool, the other vaults or its owner, and no
collateral moves without debt. -/
structure LiquidationValues.Balanced (v : LiquidationValues) (BPDInStabPool : ℕ) : Prop where
  coll : v.collGasCompensation + v.collToSendToSP + v.collToRedistribute + v.collSurplus =
    v.entireVaultColl
  debt : v.debtToOffset + v.debtToRedistribute = v.entireVaultDebt
  offset_le : v.debtToOffset ≤ BPDInStabPool
  offset_zero : v.debtToOffset = 0 → v.collToSendToSP = 0
  redistribute_zero : v.debtToRedistribute = 0 → v.collToRedistribute = 0

theorem LiquidationValues.zero_balanced {pool : ℕ} : LiquidationValues.zero.Balanced pool := by
  constructor <;> simp [LiquidationValues.zero]

/-- How a debt and the collateral behind it are split. -/
structure OffsetAndRedistributionVals.Splits (o : OffsetAndRedistributionVals)
    (debt coll BPDInStabPool : ℕ) : Prop where
  debt : o.debtToOffset + o.debtToRedistribute = debt
  coll : o.collToSendToSP + o.collToRedistribute = coll
  offset_le : o.debtToOffset ≤ BPDInStabPool
  offset_zero : o.debtToOffset = 0 → o.collToSendToSP = 0
  redistribute_zero : o.debtToRedistribute = 0 → o.collToRedistribute = 0

theorem getOffsetAndRedistributionVals_splits {debt coll pool : ℕ}
    {o : OffsetAndRedistributionVals} (hdebt : 0 < debt)
    (h : getOffsetAndRedistributionVals debt coll pool = .ok o) : o.Splits debt coll pool := by
  simp only [getOffsetAndRedistributionVals] at h
  split_ifs at h with hpool
  · simp only [bind_ok, pure_ok, SafeMath.mul_ok, SafeMath.div_ok, SafeMath.sub_ok] at h
    obtain ⟨_, ⟨-, rfl⟩, _, ⟨-, rfl⟩, _, ⟨hle, rfl⟩, _, ⟨hcoll, rfl⟩, rfl⟩ := h
    constructor
    · exact Nat.add_sub_of_le hle
    · exact Nat.add_sub_of_le hcoll
    · exact min_le_right _ _
    · intro hzero
      simp only at hzero
      simp [hzero]
    · intro hzero
      simp only at hzero ⊢
      have hall : min debt pool = debt := by omega
      rw [hall, Nat.mul_div_cancel _ hdebt, Nat.sub_self]
  · obtain rfl := pure_ok.mp h
    constructor <;> simp
    omega

theorem liquidationValues_balanced {e : EntireDebtAndColl} {o : OffsetAndRedistributionVals}
    {pool : ℕ} (hgas : getCollGasCompensation e.coll ≤ e.coll)
    (ho : o.Splits e.debt (e.coll - getCollGasCompensation e.coll) pool) :
    (liquidationValues e o).Balanced pool := by
  have hcoll := ho.coll
  exact ⟨by simp only [liquidationValues]; omega, ho.debt, ho.offset_le, ho.offset_zero,
    ho.redistribute_zero⟩

theorem getCappedOffsetVals_balanced {debt coll pool : ℕ} {v : LiquidationValues}
    (hdebt : debt ≤ pool) (h : getCappedOffsetVals debt coll price = .ok v) :
    v.Balanced pool ∧ v.entireVaultColl = coll ∧ v.entireVaultDebt = debt ∧
      v.BPDGasCompensation = BPD_GAS_COMPENSATION := by
  simp only [getCappedOffsetVals, bind_ok, pure_ok, SafeMath.mul_ok, SafeMath.div_ok,
    SafeMath.sub_ok] at h
  obtain ⟨_, ⟨-, rfl⟩, _, ⟨-, rfl⟩, _, ⟨hgas, rfl⟩, _, ⟨hcap, rfl⟩, rfl⟩ := h
  refine ⟨?_, rfl, rfl, rfl⟩
  constructor
  · simp only
    omega
  · rfl
  · exact hdebt
  · intro hzero
    simp only at hzero
    simp [hzero]
  · intro _
    rfl

/-- The entries of a vault taken off the records. -/
def LiquidationValues.entries (v : LiquidationValues) : Account → ℤ :=
  entry .coll v.entireVaultColl + entry .debt v.entireVaultDebt +
    entry .reserve v.BPDGasCompensation - entry .surplus v.collSurplus

theorem detachVault_record {e : EntireDebtAndColl} (h : detachVault d a e s = .ok s') :
    (s'.vault a).coll = (s.vault a).coll ∧ (s'.vault a).debt = (s.vault a).debt ∧
      s'.stabilityPool = s.stabilityPool := by
  simp only [detachVault, bind_ok] at h
  obtain ⟨_, hmove, hstake⟩ := h
  obtain ⟨-, -, _, rfl⟩ := movePendingVaultRewardsToActivePool_ok hmove
  obtain ⟨hcoll, hdebt⟩ := removeStake_record hstake
  obtain ⟨-, rfl⟩ := removeStake_ok hstake
  exact ⟨hcoll, hdebt, rfl⟩

theorem detachVault_ledger {e : EntireDebtAndColl} (h : detachVault d a e s = .ok s') :
    s'.ledger d = s.ledger d + entry .coll e.pendingRBTCReward +
      entry .debt e.pendingBPDDebtReward := by
  simp only [detachVault, bind_ok] at h
  obtain ⟨_, hmove, hstake⟩ := h
  rw [removeStake_ledger hstake, movePendingVaultRewardsToActivePool_ledger hmove]

/-- Detaching a vault and closing it posts all it held and all it was owed. -/
theorem detach_close_ledger {e : EntireDebtAndColl} {t : State}
    (he : getEntireDebtAndColl a s = .ok e) (hdetach : detachVault d a e s = .ok t)
    (hclose : closeVault a .closedByLiquidation t = .ok s') :
    s'.ledger d = s.ledger d + entry .coll e.coll + entry .debt e.debt +
      entry .reserve BPD_GAS_COMPENSATION ∧ s'.stabilityPool = s.stabilityPool := by
  obtain ⟨-, -, hdebt, hcoll⟩ := getEntireDebtAndColl_ok he
  obtain ⟨hcoll', hdebt', hpool⟩ := detachVault_record hdetach
  constructor
  · rw [closeVault_ledger hclose, detachVault_ledger hdetach, hcoll', hdebt', hcoll, hdebt,
      Nat.cast_add, Nat.cast_add, entry_add, entry_add]
    abel
  · obtain ⟨_, _, rfl⟩ := closeVault_frame hclose
    exact hpool

theorem liquidationValues_entries {e : EntireDebtAndColl} {o : OffsetAndRedistributionVals} :
    (liquidationValues e o).entries = entry .coll e.coll + entry .debt e.debt +
      entry .reserve BPD_GAS_COMPENSATION := by
  simp [LiquidationValues.entries, liquidationValues]

/-- What a liquidation of one vault does to the books. -/
structure Liquidated (d : Deployment) (s s' : State) (v : LiquidationValues)
    (BPDInStabPool : ℕ) : Prop where
  ledger : s'.ledger d = s.ledger d + v.entries
  pool : s'.stabilityPool = s.stabilityPool
  balanced : v.Balanced BPDInStabPool

theorem liquidateNormalMode_liquidated {ICR pool : ℕ} {v : LiquidationValues}
    (hICR : getCurrentICR a price s = .ok ICR) (hlt : ICR < MCR)
    (h : liquidateNormalMode d a pool s = .ok (v, s')) : Liquidated d s s' v pool := by
  simp only [liquidateNormalMode, bind_ok, pure_ok, Prod.mk.injEq, SafeMath.sub_ok] at h
  obtain ⟨e, he, _, hdetach, _, ⟨hgas, rfl⟩, o, ho, _, hclose, rfl, rfl⟩ := h
  have hpos := debt_pos_of_ICR_lt hICR he hlt (by decide)
  obtain ⟨hledger, hpool⟩ := detach_close_ledger he hdetach hclose
  refine ⟨?_, hpool, liquidationValues_balanced hgas
    (getOffsetAndRedistributionVals_splits hpos ho)⟩
  rw [hledger, liquidationValues_entries]
  abel

theorem accountCollSurplus_ledger {v : ℕ} (h : accountCollSurplus a v s = .ok s') :
    s'.ledger d = s.ledger d - entry .surplus v ∧ s'.stabilityPool = s.stabilityPool := by
  simp only [accountCollSurplus, ite_pure_ok] at h
  rcases h with ⟨-, h⟩ | ⟨hzero, rfl⟩
  · refine ⟨CollSurplusPool.accountSurplus_ledger h, ?_⟩
    simp only [CollSurplusPool.accountSurplus, bind_ok, pure_ok] at h
    obtain ⟨_, -, rfl⟩ := h
    rfl
  · obtain rfl : v = 0 := by omega
    simp

/-- Every branch of the Recovery Mode liquidation, the two that liquidate nothing included. -/
theorem liquidateRecoveryMode_liquidated {ICR pool TCR : ℕ} {v : LiquidationValues}
    (hICR : getCurrentICR a price s = .ok ICR)
    (h : liquidateRecoveryMode d a ICR pool TCR price s = .ok (v, s')) :
    Liquidated d s s' v pool := by
  have hnone : Liquidated d s s LiquidationValues.zero pool :=
    ⟨by simp [LiquidationValues.entries, LiquidationValues.zero], rfl,
      LiquidationValues.zero_balanced⟩
  rw [liquidateRecoveryMode] at h
  by_cases hlast : s.vaultManager.vaultOwners.length ≤ 1
  · rw [if_pos hlast] at h
    simp only [pure_ok, Prod.mk.injEq] at h
    obtain ⟨rfl, rfl⟩ := h
    exact hnone
  rw [if_neg hlast] at h
  simp only [bind_ok, SafeMath.sub_ok] at h
  obtain ⟨e, he, _, ⟨hgas, rfl⟩, h⟩ := h
  split_ifs at h with hunder hmid hcapped
  · -- under-collateralized: everything is redistributed
    simp only [bind_ok, pure_ok, Prod.mk.injEq] at h
    obtain ⟨_, hdetach, _, hclose, rfl, rfl⟩ := h
    obtain ⟨hledger, hpool⟩ := detach_close_ledger he hdetach hclose
    have hpos := debt_pos_of_ICR_lt hICR he (show ICR < MCR from lt_of_le_of_lt hunder (by decide))
      (by decide)
    refine ⟨?_, hpool, liquidationValues_balanced hgas ?_⟩
    · rw [hledger, liquidationValues_entries]
      abel
    · exact ⟨Nat.zero_add _, Nat.zero_add _, Nat.zero_le _, fun _ => rfl,
        fun h => by simp at h; omega⟩
  · simp only [bind_ok, pure_ok, Prod.mk.injEq] at h
    obtain ⟨_, hdetach, o, ho, _, hclose, rfl, rfl⟩ := h
    obtain ⟨hledger, hpool⟩ := detach_close_ledger he hdetach hclose
    have hpos := debt_pos_of_ICR_lt hICR he hmid.2 (by decide)
    refine ⟨?_, hpool,
      liquidationValues_balanced hgas (getOffsetAndRedistributionVals_splits hpos ho)⟩
    rw [hledger, liquidationValues_entries]
    abel
  · -- capped at the minimum ratio: the rest is the owner's surplus
    simp only [bind_ok, pure_ok, Prod.mk.injEq] at h
    obtain ⟨_, hmove, _, -, t, hstake, v', hv, _, hclose, _, hsurplus, rfl, rfl⟩ := h
    have hdetach : detachVault d a e s = .ok t := by
      simp only [detachVault, bind_ok]
      exact ⟨_, hmove, hstake⟩
    obtain ⟨hledger, hpool⟩ := detach_close_ledger he hdetach hclose
    obtain ⟨hledger', hpool'⟩ := accountCollSurplus_ledger (d := d) hsurplus
    obtain ⟨hbalanced, hcoll, hdebt, hreserve⟩ := getCappedOffsetVals_balanced hcapped.2.2 hv
    refine ⟨?_, hpool'.trans hpool, hbalanced⟩
    rw [hledger', hledger, LiquidationValues.entries, hcoll, hdebt, hreserve]
    abel
  · simp only [pure_ok, Prod.mk.injEq] at h
    obtain ⟨rfl, rfl⟩ := h
    exact hnone

/-- The split of the running totals. -/
structure LiquidationTotals.Balanced (t : LiquidationTotals) : Prop where
  coll : t.totalCollGasCompensation + t.totalCollToSendToSP + t.totalCollToRedistribute +
    t.totalCollSurplus = t.totalCollInSequence
  debt : t.totalDebtToOffset + t.totalDebtToRedistribute = t.totalDebtInSequence
  offset_zero : t.totalDebtToOffset = 0 → t.totalCollToSendToSP = 0
  redistribute_zero : t.totalDebtToRedistribute = 0 → t.totalCollToRedistribute = 0

def LiquidationTotals.entries (t : LiquidationTotals) : Account → ℤ :=
  entry .coll t.totalCollInSequence + entry .debt t.totalDebtInSequence +
    entry .reserve t.totalBPDGasCompensation - entry .surplus t.totalCollSurplus

theorem addLiquidationValuesToTotals_ok {t t' : LiquidationTotals} {v : LiquidationValues}
    (h : addLiquidationValuesToTotals t v = .ok t') :
    t' = ⟨t.totalCollInSequence + v.entireVaultColl, t.totalDebtInSequence + v.entireVaultDebt,
      t.totalCollGasCompensation + v.collGasCompensation,
      t.totalBPDGasCompensation + v.BPDGasCompensation, t.totalDebtToOffset + v.debtToOffset,
      t.totalCollToSendToSP + v.collToSendToSP,
      t.totalDebtToRedistribute + v.debtToRedistribute,
      t.totalCollToRedistribute + v.collToRedistribute, t.totalCollSurplus + v.collSurplus⟩ := by
  simp [addLiquidationValuesToTotals] at h
  exact h.2.2.2.2.2.2.2.2.2.symm

theorem LiquidationTotals.Balanced.add {t t' : LiquidationTotals} {v : LiquidationValues}
    {pool : ℕ} (ht : t.Balanced) (hv : v.Balanced pool)
    (h : addLiquidationValuesToTotals t v = .ok t') : t'.Balanced := by
  obtain rfl := addLiquidationValuesToTotals_ok h
  have hcoll := ht.coll
  have hdebt := ht.debt
  have hcoll' := hv.coll
  have hdebt' := hv.debt
  constructor
  · simp only
    omega
  · simp only
    omega
  · intro hzero
    simp only at hzero ⊢
    rw [ht.offset_zero (by omega), hv.offset_zero (by omega)]
  · intro hzero
    simp only at hzero ⊢
    rw [ht.redistribute_zero (by omega), hv.redistribute_zero (by omega)]

theorem LiquidationTotals.entries_add {t t' : LiquidationTotals} {v : LiquidationValues}
    (h : addLiquidationValuesToTotals t v = .ok t') : t'.entries = t.entries + v.entries := by
  obtain rfl := addLiquidationValuesToTotals_ok h
  simp only [entries, LiquidationValues.entries, Nat.cast_add, entry_add]
  abel

/-- What holds at every iteration of a liquidation loop that started in `s₀`. -/
structure Tallied (d : Deployment) (s₀ : State) (l : LiquidationLoop) : Prop where
  ledger : l.state.ledger d = s₀.ledger d + l.totals.entries
  balanced : l.totals.Balanced
  pool : l.state.stabilityPool = s₀.stabilityPool
  remaining : l.remainingBPDInStabPool + l.totals.totalDebtToOffset =
    s₀.stabilityPool.totalBPDDeposits

/-- One more vault liquidated and tallied. -/
theorem Tallied.step {s₀ : State} {l l' : LiquidationLoop} {v : LiquidationValues}
    (hl : Tallied d s₀ l) (hv : Liquidated d l.state l'.state v l.remainingBPDInStabPool)
    (hremaining : l'.remainingBPDInStabPool = l.remainingBPDInStabPool - v.debtToOffset)
    (htotals : addLiquidationValuesToTotals l.totals v = .ok l'.totals) : Tallied d s₀ l' := by
  have hle := hv.balanced.offset_le
  have hsum := hl.remaining
  refine ⟨?_, hl.balanced.add hv.balanced htotals, hv.pool.trans hl.pool, ?_⟩
  · rw [hv.ledger, hl.ledger, LiquidationTotals.entries_add htotals]
    abel
  · rw [addLiquidationValuesToTotals_ok htotals]
    simp only
    omega

theorem startLoop_tallied {recovery : Bool} {l : LiquidationLoop}
    (h : startLoop recovery s = .ok l) : Tallied d s l ∧ l.state = s := by
  have hzero : LiquidationTotals.zero.Balanced := by
    constructor <;> simp [LiquidationTotals.zero]
  simp only [startLoop] at h
  split_ifs at h
  · simp only [bind_ok, pure_ok] at h
    obtain ⟨_, -, _, -, rfl⟩ := h
    exact ⟨⟨by simp [LiquidationTotals.entries, LiquidationTotals.zero], hzero, rfl, rfl⟩, rfl⟩
  · obtain rfl := pure_ok.mp h
    exact ⟨⟨by simp [LiquidationTotals.entries, LiquidationTotals.zero], hzero, rfl, rfl⟩, rfl⟩

/-- One liquidation of a loop. The vault of `user` is taken as in Normal Mode or, with the
trackers, as in Recovery Mode; `collLeft` is what the loop subtracts from its tracker. -/
inductive LoopStep (collLeft : ℕ → LiquidationValues → Outcome ℕ) (d : Deployment) (price : ℕ)
    (l l' : LiquidationLoop) : Prop
  | tally {user : Address} {ICR : ℕ} (hICR : getCurrentICR user price l.state = .ok ICR)
      (hlt : ICR < MCR) (h : liquidateAndTally d user l = .ok l')
  | track {user : Address} {ICR : ℕ} (hICR : getCurrentICR user price l.state = .ok ICR)
      (h : liquidateAndTrack collLeft d price user ICR l = .ok l')

variable {collLeft : ℕ → LiquidationValues → Outcome ℕ} {l l' : LiquidationLoop}

theorem sequenceStep_RecoveryMode_steps {user : Address} {r : Option LiquidationLoop}
    (h : sequenceStep_RecoveryMode d price user l = .ok r) :
    r = none ∨ ∃ l', r = some l' ∧ LoopStep sequenceCollLeft d price l l' := by
  simp only [sequenceStep_RecoveryMode, bind_ok] at h
  obtain ⟨ICR, hICR, h⟩ := h
  split_ifs at h with hmode hskip hlt
  · exact .inl (pure_ok.mp h).symm
  · obtain ⟨l', hl', rfl⟩ := map_ok.mp h
    exact .inr ⟨l', rfl, .track hICR hl'⟩
  · obtain ⟨l', hl', rfl⟩ := map_ok.mp h
    exact .inr ⟨l', rfl, .tally hICR hlt hl'⟩
  · exact .inl (pure_ok.mp h).symm

theorem liquidateVaultsSequence_RecoveryMode_steps {firstUser : Address} {n : ℕ} {user : Address}
    (h : liquidateVaultsSequence_RecoveryMode d price firstUser n user l = .ok l') :
    Relation.ReflTransGen (LoopStep sequenceCollLeft d price) l l' := by
  induction n generalizing user l with
  | zero =>
    obtain rfl := pure_ok.mp h
    exact .refl
  | succ n ih =>
    simp only [liquidateVaultsSequence_RecoveryMode] at h
    split_ifs at h
    · obtain rfl := pure_ok.mp h
      exact .refl
    · simp only [bind_ok] at h
      obtain ⟨r, hr, h⟩ := h
      rcases sequenceStep_RecoveryMode_steps hr with rfl | ⟨l₁, rfl, hstep⟩
      · obtain rfl := pure_ok.mp h
        exact .refl
      · exact .head hstep (ih h)

theorem batchStep_RecoveryMode_steps {user : Address}
    (h : batchStep_RecoveryMode d price user l = .ok l') :
    l' = l ∨ LoopStep batchCollLeft d price l l' := by
  rw [batchStep_RecoveryMode] at h
  by_cases hactive : (l.state.vault user).status ≠ .active
  · rw [if_pos hactive] at h
    exact .inl (pure_ok.mp h).symm
  rw [if_neg hactive] at h
  simp only [bind_ok] at h
  obtain ⟨ICR, hICR, h⟩ := h
  split_ifs at h with hmode hskip hlt
  · exact .inl (pure_ok.mp h).symm
  · exact .inr (.track hICR h)
  · exact .inr (.tally hICR hlt h)
  · exact .inl (pure_ok.mp h).symm

theorem batchLiquidate_RecoveryMode_steps {users : List Address}
    (h : batchLiquidate_RecoveryMode d price users l = .ok l') :
    Relation.ReflTransGen (LoopStep batchCollLeft d price) l l' := by
  induction users generalizing l with
  | nil =>
    obtain rfl := pure_ok.mp h
    exact .refl
  | cons user users ih =>
    simp only [batchLiquidate_RecoveryMode, bind_ok] at h
    obtain ⟨l₁, hl₁, h⟩ := h
    rcases batchStep_RecoveryMode_steps hl₁ with rfl | hstep
    · exact ih h
    · exact .head hstep (ih h)

theorem liquidateVaultsSequence_NormalMode_steps {n : ℕ}
    (h : liquidateVaultsSequence_NormalMode d price n l = .ok l') :
    Relation.ReflTransGen (LoopStep collLeft d price) l l' := by
  induction n generalizing l with
  | zero =>
    obtain rfl := pure_ok.mp h
    exact .refl
  | succ n ih =>
    simp only [liquidateVaultsSequence_NormalMode, bind_ok] at h
    obtain ⟨ICR, hICR, h⟩ := h
    split_ifs at h with hlt
    · simp only [bind_ok] at h
      obtain ⟨l₁, hl₁, h⟩ := h
      exact .head (.tally hICR hlt hl₁) (ih h)
    · obtain rfl := pure_ok.mp h
      exact .refl

theorem batchLiquidate_NormalMode_steps {users : List Address}
    (h : batchLiquidate_NormalMode d price users l = .ok l') :
    Relation.ReflTransGen (LoopStep collLeft d price) l l' := by
  induction users generalizing l with
  | nil =>
    obtain rfl := pure_ok.mp h
    exact .refl
  | cons user users ih =>
    simp only [batchLiquidate_NormalMode, bind_ok, ite_pure_ok] at h
    obtain ⟨ICR, hICR, l₁, ⟨hlt, hl₁⟩ | ⟨-, rfl⟩, h⟩ := h
    · exact .head (.tally hICR hlt hl₁) (ih h)
    · exact ih h

/-- What the loops of `liquidateVaults` and `batchLiquidateVaults` subtract. -/
theorem getTotalsFromLiquidateVaultsSequence_steps {recovery : Bool} {n : ℕ}
    (h : getTotalsFromLiquidateVaultsSequence d recovery price n s = .ok l') :
    ∃ l, startLoop recovery s = .ok l ∧
      Relation.ReflTransGen (LoopStep sequenceCollLeft d price) l l' := by
  simp only [getTotalsFromLiquidateVaultsSequence, bind_ok] at h
  obtain ⟨l, hl, h⟩ := h
  refine ⟨l, hl, ?_⟩
  split_ifs at h
  · exact liquidateVaultsSequence_RecoveryMode_steps h
  · exact liquidateVaultsSequence_NormalMode_steps h

theorem getTotalsFromBatchLiquidate_steps {recovery : Bool} {users : List Address}
    (h : getTotalsFromBatchLiquidate d recovery price users s = .ok l') :
    ∃ l, startLoop recovery s = .ok l ∧
      Relation.ReflTransGen (LoopStep batchCollLeft d price) l l' := by
  simp only [getTotalsFromBatchLiquidate, bind_ok] at h
  obtain ⟨l, hl, h⟩ := h
  refine ⟨l, hl, ?_⟩
  split_ifs at h
  · exact batchLiquidate_RecoveryMode_steps h
  · exact batchLiquidate_NormalMode_steps h

theorem liquidateAndTally_ok {user : Address} (h : liquidateAndTally d user l = .ok l') :
    ∃ v, liquidateNormalMode d user l.remainingBPDInStabPool l.state = .ok (v, l'.state) ∧
      v.debtToOffset ≤ l.remainingBPDInStabPool ∧
      l'.remainingBPDInStabPool = l.remainingBPDInStabPool - v.debtToOffset ∧
      addLiquidationValuesToTotals l.totals v = .ok l'.totals := by
  simp only [liquidateAndTally, bind_ok, pure_ok, Prod.exists, SafeMath.sub_ok] at h
  obtain ⟨v, s, hv, _, ⟨hle, rfl⟩, _, htotals, rfl⟩ := h
  exact ⟨v, hv, hle, rfl, htotals⟩

theorem liquidateAndTrack_ok {user : Address} {ICR : ℕ}
    (h : liquidateAndTrack collLeft d price user ICR l = .ok l') :
    ∃ TCR v, computeCR l.entireSystemColl l.entireSystemDebt price = .ok TCR ∧
      liquidateRecoveryMode d user ICR l.remainingBPDInStabPool TCR price l.state =
        .ok (v, l'.state) ∧
      v.debtToOffset ≤ l.remainingBPDInStabPool ∧
      l'.remainingBPDInStabPool = l.remainingBPDInStabPool - v.debtToOffset ∧
      v.debtToOffset ≤ l.entireSystemDebt ∧
      l'.entireSystemDebt = l.entireSystemDebt - v.debtToOffset ∧
      collLeft l.entireSystemColl v = .ok l'.entireSystemColl ∧
      addLiquidationValuesToTotals l.totals v = .ok l'.totals := by
  simp only [liquidateAndTrack, bind_ok, pure_ok, Prod.exists, SafeMath.sub_ok] at h
  obtain ⟨TCR, hTCR, v, s, hv, _, ⟨hle, rfl⟩, _, ⟨hdebt, rfl⟩, _, hcoll, _, htotals, _, -, rfl⟩ := h
  exact ⟨TCR, v, hTCR, hv, hle, rfl, hdebt, rfl, hcoll, htotals⟩

/-- The vault of `a` is detached and closed, and its owner is credited what a cap leaves. -/
def Liquidates (d : Deployment) (a : Address) (s s' : State) : Prop :=
  ∃ e s₁ s₂ left, getEntireDebtAndColl a s = .ok e ∧ detachVault d a e s = .ok s₁ ∧
    closeVault a .closedByLiquidation s₁ = .ok s₂ ∧ accountCollSurplus a left s₂ = .ok s'

theorem accountCollSurplus_zero : accountCollSurplus a 0 s = .ok s := by
  simp [accountCollSurplus]

theorem liquidateNormalMode_liquidates {pool : ℕ} {v : LiquidationValues}
    (h : liquidateNormalMode d a pool s = .ok (v, s')) : Liquidates d a s s' := by
  simp only [liquidateNormalMode, bind_ok, pure_ok, Prod.mk.injEq] at h
  obtain ⟨e, he, s₁, hdetach, _, -, _, -, s₂, hclose, -, rfl⟩ := h
  exact ⟨e, s₁, s₂, 0, he, hdetach, hclose, accountCollSurplus_zero⟩

/-- In Recovery Mode a vault may be spared. -/
theorem liquidateRecoveryMode_liquidates {ICR pool TCR : ℕ} {v : LiquidationValues}
    (h : liquidateRecoveryMode d a ICR pool TCR price s = .ok (v, s')) :
    s' = s ∨ Liquidates d a s s' := by
  rw [liquidateRecoveryMode] at h
  by_cases hlast : s.vaultManager.vaultOwners.length ≤ 1
  · rw [if_pos hlast] at h
    simp only [pure_ok, Prod.mk.injEq] at h
    exact .inl h.2.symm
  rw [if_neg hlast] at h
  simp only [bind_ok] at h
  obtain ⟨e, he, _, -, h⟩ := h
  split_ifs at h
  · simp only [bind_ok, pure_ok, Prod.mk.injEq] at h
    obtain ⟨s₁, hdetach, s₂, hclose, -, rfl⟩ := h
    exact .inr ⟨e, s₁, s₂, 0, he, hdetach, hclose, accountCollSurplus_zero⟩
  · simp only [bind_ok, pure_ok, Prod.mk.injEq] at h
    obtain ⟨s₁, hdetach, _, -, s₂, hclose, -, rfl⟩ := h
    exact .inr ⟨e, s₁, s₂, 0, he, hdetach, hclose, accountCollSurplus_zero⟩
  · simp only [bind_ok, pure_ok, Prod.mk.injEq] at h
    obtain ⟨s₁, hmove, _, -, s₂, hstake, v', -, s₃, hclose, s₄, hsurplus, -, rfl⟩ := h
    have hdetach : detachVault d a e s = .ok s₂ := by
      simp only [detachVault, bind_ok]
      exact ⟨s₁, hmove, hstake⟩
    exact .inr ⟨e, s₂, s₃, v'.collSurplus, he, hdetach, hclose, hsurplus⟩
  · simp only [pure_ok, Prod.mk.injEq] at h
    exact .inl h.2.symm

/-- A step of a loop liquidates a vault, or leaves the state alone. -/
theorem LoopStep.liquidates (h : LoopStep collLeft d price l l') :
    l'.state = l.state ∨ ∃ a, Liquidates d a l.state l'.state := by
  cases h with
  | @tally user _ _ _ h =>
    obtain ⟨_, hv, -⟩ := liquidateAndTally_ok h
    exact .inr ⟨user, liquidateNormalMode_liquidates hv⟩
  | @track user _ _ h =>
    obtain ⟨_, _, -, hv, -⟩ := liquidateAndTrack_ok h
    exact (liquidateRecoveryMode_liquidates hv).imp id fun h => ⟨user, h⟩

theorem LoopStep.tallied {s₀ : State} (h : LoopStep collLeft d price l l')
    (hl : Tallied d s₀ l) : Tallied d s₀ l' := by
  cases h with
  | tally hICR hlt h =>
    obtain ⟨v, hv, -, hremaining, htotals⟩ := liquidateAndTally_ok h
    exact hl.step (liquidateNormalMode_liquidated hICR hlt hv) hremaining htotals
  | track hICR h =>
    obtain ⟨_, v, -, hv, -, hremaining, -, -, -, htotals⟩ := liquidateAndTrack_ok h
    exact hl.step (liquidateRecoveryMode_liquidated hICR hv) hremaining htotals

theorem loop_tallied {s₀ : State} (h : Relation.ReflTransGen (LoopStep collLeft d price) l l')
    (hl : Tallied d s₀ l) : Tallied d s₀ l' := by
  induction h with
  | refl => exact hl
  | tail _ hstep ih => exact hstep.tallied ih

theorem sendGasCompensation_ledger {liquidator : Address} {BPD RBTC : ℕ}
    (hl : d.External liquidator) (h : sendGasCompensation d liquidator BPD RBTC s = .ok s') :
    s'.ledger d = s.ledger d - entry .reserve BPD - entry .coll RBTC := by
  simp only [sendGasCompensation, bind_ok, ite_pure_ok, BPDToken.returnFromPool] at h
  obtain ⟨t, hBPD, hRBTC⟩ := h
  have ht : t.ledger d = s.ledger d - entry .reserve BPD := by
    rcases hBPD with ⟨-, hBPD⟩ | ⟨hzero, rfl⟩
    · rw [BPDToken._transfer_ledger hBPD, held_external hl, held_gasPool, add_zero]
    · obtain rfl : BPD = 0 := by omega
      simp
  rcases hRBTC with ⟨-, hRBTC⟩ | ⟨hzero, rfl⟩
  · rw [ActivePool.sendRBTC_ledger_of_ne (hl.ne d.collSurplusPool_mem) hRBTC, ht]
  · obtain rfl : RBTC = 0 := by omega
    simp [ht]

theorem updateSystemSnapshots_excludeCollRemainder_ok {v : ℕ}
    (h : updateSystemSnapshots_excludeCollRemainder v s = .ok s') :
    ∃ totalColl, s' = { s with vaultManager := { s.vaultManager with
      totalStakesSnapshot := s.vaultManager.totalStakes
      totalCollateralSnapshot := totalColl } } := by
  simp only [updateSystemSnapshots_excludeCollRemainder, bind_ok, pure_ok] at h
  obtain ⟨_, -, _, -, rfl⟩ := h
  exact ⟨_, rfl⟩

/-- The settlement of a liquidation, up to where the liquidator is paid. -/
def settleUntilPayout (d : Deployment) (block : Block) (totals : LiquidationTotals) (s : State) :
    Outcome State := do
  require (totals.totalDebtInSequence > 0) "VaultManager: nothing to liquidate"
  let s ← StabilityPool.offset d block totals.totalDebtToOffset totals.totalCollToSendToSP s
  let s ← redistributeDebtAndColl d totals.totalDebtToRedistribute
    totals.totalCollToRedistribute s
  let s ← (if totals.totalCollSurplus > 0 then
      ActivePool.sendRBTC d d.collSurplusPool totals.totalCollSurplus s
    else pure s)
  let s ← updateSystemSnapshots_excludeCollRemainder totals.totalCollGasCompensation s
  let withoutGas ← SafeMath.sub totals.totalCollInSequence totals.totalCollGasCompensation
  let _liquidatedColl ← SafeMath.sub withoutGas totals.totalCollSurplus
  return s

theorem settleLiquidation_eq {totals : LiquidationTotals} :
    settleLiquidation d block a totals s = (do
      let s ← settleUntilPayout d block totals s
      sendGasCompensation d a totals.totalBPDGasCompensation totals.totalCollGasCompensation
        s) := by
  simp [settleLiquidation, settleUntilPayout]

theorem settleUntilPayout_ledger {s₀ : State} (hl : Tallied d s₀ l)
    (h : settleUntilPayout d block l.totals l.state = .ok s') :
    s'.ledger d = s₀.ledger d + entry .coll l.totals.totalCollGasCompensation +
      entry .reserve l.totals.totalBPDGasCompensation := by
  simp only [settleUntilPayout, bind_ok, ite_pure_ok, pure_ok] at h
  obtain ⟨_, -, t₁, hoffset, t₂, hredistribute, t₃, hsurplus, t₄, hsnapshots, _, -, _, -, rfl⟩ := h
  have hdebt : l.totals.totalDebtToOffset ≤ l.state.stabilityPool.totalBPDDeposits := by
    rw [hl.pool, ← hl.remaining]
    exact Nat.le_add_left _ _
  have h₁ := StabilityPool.offset_ledger hdebt hl.balanced.offset_zero hoffset
  have h₂ := redistributeDebtAndColl_ledger hl.balanced.redistribute_zero hredistribute
  have h₃ : t₃.ledger d = t₂.ledger d - entry .coll l.totals.totalCollSurplus +
      entry .surplus l.totals.totalCollSurplus := by
    rcases hsurplus with ⟨-, hsurplus⟩ | ⟨hzero, rfl⟩
    · simpa using ActivePool.sendRBTC_ledger hsurplus
    · have : l.totals.totalCollSurplus = 0 := by omega
      simp [this]
  have h₄ : t₄.ledger d = t₃.ledger d := by
    obtain ⟨_, rfl⟩ := updateSystemSnapshots_excludeCollRemainder_ok hsnapshots
    rfl
  rw [h₄, h₃, h₂, h₁, hl.ledger, LiquidationTotals.entries, ← hl.balanced.coll,
    ← hl.balanced.debt]
  simp only [Nat.cast_add, entry_add]
  abel

/-- Settling the totals of a loop restores the ledger of the state the loop started in. -/
theorem settleLiquidation_ledger {s₀ : State} {sender : Address} (hsender : d.External sender)
    (hl : Tallied d s₀ l) (h : settleLiquidation d block sender l.totals l.state = .ok s') :
    s'.ledger d = s₀.ledger d := by
  rw [settleLiquidation_eq] at h
  simp only [bind_ok] at h
  obtain ⟨s₁, huntil, hgas⟩ := h
  rw [sendGasCompensation_ledger hsender hgas, settleUntilPayout_ledger hl huntil]
  abel

theorem liquidateVaults_ledger {sender : Address} {n : ℕ} (hsender : d.External sender)
    (h : liquidateVaults d block sender n s = .ok s') : s'.ledger d = s.ledger d := by
  simp only [liquidateVaults, bind_ok, Prod.exists] at h
  obtain ⟨_, s₀, hprice, _, -, l, hl, h⟩ := h
  obtain ⟨l₀, hstart, hloop⟩ := getTotalsFromLiquidateVaultsSequence_steps hl
  have htallied := loop_tallied hloop (startLoop_tallied hstart).1
  rw [settleLiquidation_ledger hsender htallied h, PriceFeed.fetchPrice_ledger hprice]

theorem batchLiquidateVaults_ledger {sender : Address} {users : List Address}
    (hsender : d.External sender) (h : batchLiquidateVaults d block sender users s = .ok s') :
    s'.ledger d = s.ledger d := by
  simp only [batchLiquidateVaults, bind_ok, Prod.exists] at h
  obtain ⟨_, -, _, s₀, hprice, _, -, l, hl, h⟩ := h
  obtain ⟨l₀, hstart, hloop⟩ := getTotalsFromBatchLiquidate_steps hl
  have htallied := loop_tallied hloop (startLoop_tallied hstart).1
  rw [settleLiquidation_ledger hsender htallied h, PriceFeed.fetchPrice_ledger hprice]

theorem liquidate_ledger {sender borrower : Address} (hsender : d.External sender)
    (h : liquidate d block sender borrower s = .ok s') : s'.ledger d = s.ledger d := by
  simp only [liquidate, bind_ok] at h
  obtain ⟨_, -, h⟩ := h
  exact batchLiquidateVaults_ledger hsender h

end MoneyProtocol.VaultManager
