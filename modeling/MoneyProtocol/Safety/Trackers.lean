import MoneyProtocol.Accounting.System
import MoneyProtocol.Book.Runs

/-!
# The trackers of Recovery Mode

The two loops that start in Recovery Mode keep a running pair of system totals and leave
Recovery Mode by it. The pair should be what the pools would hold if the call ended there. Both
loops forget the gas compensation, the batch also the surplus of capped liquidations, and
neither goes on with the pair once it is back in Normal Mode.
-/

namespace MoneyProtocol.VaultManager

open Outcome MoneypMath MoneypBase Book

variable {d : Deployment} {s s' : State} {user firstUser : Address} {users : List Address}
  {price n r TCR pool : ℕ} {l l' : LiquidationLoop} {v : LiquidationValues}

/-- The collateral that leaves the Active and Default Pools when the call ends. -/
def LiquidationTotals.owedColl (t : LiquidationTotals) : ℕ :=
  t.totalCollToSendToSP + t.totalCollSurplus + t.totalCollGasCompensation

/-- The running pair is what would remain in the pools if the call ended now. -/
structure TracksFaithfully (l : LiquidationLoop) : Prop where
  coll : l.entireSystemColl + l.totals.owedColl = l.state.system.1
  debt : l.entireSystemDebt + l.totals.totalDebtToOffset = l.state.system.2

/-- The ratio of what would remain. -/
def LiquidationLoop.trueTCR (price : ℕ) (l : LiquidationLoop) : ℕ :=
  collRatio (l.state.system.1 - l.totals.owedColl)
    (l.state.system.2 - l.totals.totalDebtToOffset) price

/-- The ratio of a vault with all its rewards. -/
def LiquidationLoop.ICR (price : ℕ) (user : Address) (l : LiquidationLoop) : ℕ :=
  collRatio (l.state.book.entireColl user) (l.state.book.entireDebt user) price

/-- An iteration of a loop that did not break off. -/
structure Iteration where
  before : LiquidationLoop
  user : Address
  after : LiquidationLoop

def sequenceIterations (d : Deployment) (price : ℕ) (firstUser : Address) :
    ℕ → Address → LiquidationLoop → List Iteration
  | 0, _, _ => []
  | n + 1, user, l =>
    if user = firstUser then []
    else match sequenceStep_RecoveryMode d price user l with
      | .ok (some l') => ⟨l, user, l'⟩ :: sequenceIterations d price firstUser n
          (SortedVaults.getPrev user l.state.sortedVaults) l'
      | _ => []

def batchIterations (d : Deployment) (price : ℕ) : List Address → LiquidationLoop → List Iteration
  | [], _ => []
  | user :: users, l =>
    match batchStep_RecoveryMode d price user l with
    | .ok l' => ⟨l, user, l'⟩ :: batchIterations d price users l'
    | .error _ => []

/-- Where iterations that started from `l` end. -/
def lastLoop (l : LiquidationLoop) (its : List Iteration) : LiquidationLoop :=
  (its.map Iteration.after).getLastD l

/-- The iterations lead to the result of the loop. -/
theorem sequenceIterations_last
    (h : liquidateVaultsSequence_RecoveryMode d price firstUser n user l = .ok l') :
    lastLoop l (sequenceIterations d price firstUser n user l) = l' := by
  induction n generalizing user l with
  | zero => exact pure_ok.mp h
  | succ n ih =>
    simp only [liquidateVaultsSequence_RecoveryMode] at h
    rw [sequenceIterations]
    split_ifs at h ⊢ with hfirst
    · exact pure_ok.mp h
    · simp only [bind_ok] at h
      obtain ⟨r, hstep, h⟩ := h
      rw [hstep]
      cases r with
      | none => exact pure_ok.mp h
      | some l₁ =>
        have := ih h
        simp only [lastLoop, List.map_cons, List.getLastD_cons] at this ⊢
        exact this

theorem batchIterations_last (h : batchLiquidate_RecoveryMode d price users l = .ok l') :
    lastLoop l (batchIterations d price users l) = l' := by
  induction users generalizing l with
  | nil => exact pure_ok.mp h
  | cons user users ih =>
    simp only [batchLiquidate_RecoveryMode, bind_ok] at h
    obtain ⟨l₁, hstep, h⟩ := h
    have := ih h
    rw [batchIterations, hstep]
    simp only [lastLoop, List.map_cons, List.getLastD_cons] at this ⊢
    exact this

/-- The trackers are faithful after the iteration, and a vault with at least the minimum ratio was
liquidated only below the true ratio of the system in Recovery Mode. -/
structure Iteration.Safe (price : ℕ) (it : Iteration) : Prop where
  faithful : TracksFaithfully it.after
  liquidated : it.before.state.Active it.user → ¬it.after.state.Active it.user →
    MCR ≤ it.before.ICR price it.user →
      it.before.ICR price it.user < it.before.trueTCR price ∧ it.before.trueTCR price < CCR

/-- The debt of the vault as collateral at the minimum ratio, the cap of what is taken. -/
def LiquidationLoop.cappedColl (price : ℕ) (user : Address) (l : LiquidationLoop) : ℕ :=
  l.state.book.entireDebt user * MCR / price

/-- When an iteration keeps the trackers faithful: it liquidates no vault whose collateral pays gas
compensation, takes nothing to the Stability Pool after the return to Normal Mode, and leaves a
surplus only if the loop tracks it. -/
@[mk_iff]
structure KeepsTrackers (surplusTracked : Bool) (price : ℕ) (user : Address) (l : LiquidationLoop) :
    Prop where
  normal : l.backToNormalMode = true → l.ICR price user < MCR →
    l.remainingBPDInStabPool = 0 ∧ l.state.book.entireColl user < PERCENT_DIVISOR
  risky : l.backToNormalMode = false → 1 < l.state.vaultManager.vaultOwners.length →
    l.ICR price user < MCR → l.state.book.entireColl user < PERCENT_DIVISOR
  capped : l.backToNormalMode = false → 1 < l.state.vaultManager.vaultOwners.length →
    MCR ≤ l.ICR price user → l.ICR price user <
      collRatio l.entireSystemColl l.entireSystemDebt price →
    l.remainingBPDInStabPool ≠ 0 → l.state.book.entireDebt user ≤ l.remainingBPDInStabPool →
      l.cappedColl price user < PERCENT_DIVISOR ∧
        (surplusTracked = true ∨ l.state.book.entireColl user = l.cappedColl price user)

instance {surplusTracked : Bool} : Decidable (KeepsTrackers surplusTracked price user l) :=
  @decidable_of_iff' _ _ (keepsTrackers_iff ..)
    (@instDecidableAnd _ _ inferInstance (@instDecidableAnd _ _ inferInstance inferInstance))

theorem getCollGasCompensation_eq_zero {coll : ℕ} :
    getCollGasCompensation coll = 0 ↔ coll < PERCENT_DIVISOR :=
  Nat.div_eq_zero_iff_lt (by decide)

theorem getCurrentICR_eq (h : getCurrentICR user price l.state = .ok r) :
    l.ICR price user = r :=
  getCurrentICR_collRatio h

theorem getEntireDebtAndColl_entire {e : EntireDebtAndColl}
    (h : getEntireDebtAndColl user s = .ok e) :
    e.debt = s.book.entireDebt user ∧ e.coll = s.book.entireColl user := by
  obtain ⟨hRBTC, hBPD⟩ := getEntireDebtAndColl_book h
  obtain ⟨-, -, hdebt, hcoll⟩ := getEntireDebtAndColl_ok h
  exact ⟨hdebt.trans (congrArg _ hBPD), hcoll.trans (congrArg _ hRBTC)⟩

theorem detachVault_system {e : EntireDebtAndColl} (h : detachVault d user e s = .ok s') :
    s'.system = s.system := by
  simp only [detachVault, bind_ok] at h
  obtain ⟨_, hmove, hstake⟩ := h
  rw [removeStake_system hstake, movePendingVaultRewardsToActivePool_system hmove]

/-- What a liquidation as in Normal Mode takes from the pools. -/
theorem liquidateNormalMode_values (h : liquidateNormalMode d user pool s = .ok (v, s')) :
    s'.system = s.system ∧ v.collSurplus = 0 ∧
      v.collGasCompensation = getCollGasCompensation (s.book.entireColl user) ∧
      (0 < s.book.entireDebt user →
        (v.debtToOffset = 0 ↔ pool = 0) ∧ (v.debtToOffset = 0 → v.collToSendToSP = 0)) := by
  simp only [liquidateNormalMode, bind_ok, pure_ok, Prod.mk.injEq] at h
  obtain ⟨e, he, s₁, hdetach, _, -, o, ho, s₂, hclose, rfl, rfl⟩ := h
  obtain ⟨hdebt, hcoll⟩ := getEntireDebtAndColl_entire he
  refine ⟨?_, rfl, ?_, fun hpos => ?_⟩
  · rw [closeVault_system hclose, detachVault_system hdetach]
  · rw [← hcoll]
    rfl
  · rw [← hdebt] at hpos
    have hsplits := getOffsetAndRedistributionVals_splits hpos ho
    refine ⟨⟨fun hzero => ?_, fun hzero => ?_⟩, hsplits.offset_zero⟩
    · unfold getOffsetAndRedistributionVals at ho
      split_ifs at ho with hpool
      · simp only [bind_ok, pure_ok] at ho
        obtain ⟨_, -, _, -, _, -, _, -, rfl⟩ := ho
        simp only [liquidationValues] at hzero
        omega
      · omega
    · have := hsplits.offset_le
      simp only [liquidationValues]
      omega

/-- The ways a liquidation as in Recovery Mode can go. -/
theorem liquidateRecoveryMode_values
    (h : liquidateRecoveryMode d user r pool TCR price s = .ok (v, s')) :
    s'.system = s.system ∧
      ((v = .zero ∧ s' = s ∧ (1 < s.vaultManager.vaultOwners.length →
          MCR ≤ r ∧ ¬(r < TCR ∧ s.book.entireDebt user ≤ pool))) ∨
        (1 < s.vaultManager.vaultOwners.length ∧ r < MCR ∧ v.collSurplus = 0 ∧
          v.collGasCompensation = getCollGasCompensation (s.book.entireColl user)) ∨
        (1 < s.vaultManager.vaultOwners.length ∧ MCR ≤ r ∧ r < TCR ∧
          s.book.entireDebt user ≤ pool ∧ pool ≠ 0 ∧
          s.book.entireDebt user * MCR / price ≤ s.book.entireColl user ∧
          v.collSurplus = s.book.entireColl user - s.book.entireDebt user * MCR / price ∧
          v.collGasCompensation =
            getCollGasCompensation (s.book.entireDebt user * MCR / price))) := by
  rw [liquidateRecoveryMode] at h
  by_cases hsingle : s.vaultManager.vaultOwners.length ≤ 1
  · rw [if_pos hsingle] at h
    simp only [pure_ok, Prod.mk.injEq] at h
    obtain ⟨rfl, rfl⟩ := h
    exact ⟨rfl, .inl ⟨rfl, rfl, fun hmore => by omega⟩⟩
  rw [if_neg hsingle] at h
  simp only [bind_ok] at h
  obtain ⟨e, he, _, -, h⟩ := h
  obtain ⟨hdebt, hcoll⟩ := getEntireDebtAndColl_entire he
  have hmore : 1 < s.vaultManager.vaultOwners.length := by omega
  rw [← hdebt, ← hcoll]
  split_ifs at h with hunder hlow hcapped
  · simp only [bind_ok, pure_ok, Prod.mk.injEq] at h
    obtain ⟨s₁, hdetach, s₂, hclose, rfl, rfl⟩ := h
    have hlt : r < MCR := lt_of_le_of_lt hunder (by decide)
    exact ⟨by rw [closeVault_system hclose, detachVault_system hdetach],
      .inr (.inl ⟨hmore, hlt, rfl, rfl⟩)⟩
  · simp only [bind_ok, pure_ok, Prod.mk.injEq] at h
    obtain ⟨s₁, hdetach, o, -, s₂, hclose, rfl, rfl⟩ := h
    exact ⟨by rw [closeVault_system hclose, detachVault_system hdetach],
      .inr (.inl ⟨hmore, hlow.2, rfl, rfl⟩)⟩
  · simp only [getCappedOffsetVals, bind_ok, pure_ok, Prod.mk.injEq, SafeMath.mul_ok,
      SafeMath.div_ok, SafeMath.sub_ok, assert_ok] at h
    obtain ⟨s₁, hmove, _, hpool, s₂, hstake, _, ⟨_, ⟨-, rfl⟩, _, ⟨-, rfl⟩, _, ⟨-, rfl⟩, _,
      ⟨hcap, rfl⟩, rfl⟩, s₃, hclose, s₄, hsurplus, rfl, rfl⟩ := h
    have hcredit : s₄.system = s₃.system := by
      simp only [accountCollSurplus, ite_pure_ok] at hsurplus
      rcases hsurplus with ⟨-, hsurplus⟩ | ⟨-, rfl⟩
      · simp only [CollSurplusPool.accountSurplus, bind_ok, pure_ok] at hsurplus
        obtain ⟨_, -, rfl⟩ := hsurplus
        rfl
      · rfl
    refine ⟨?_, .inr (.inr ⟨hmore, hcapped.1, hcapped.2.1, hcapped.2.2, hpool, hcap, rfl, rfl⟩)⟩
    rw [hcredit, closeVault_system hclose, removeStake_system hstake,
      movePendingVaultRewardsToActivePool_system hmove]
  · simp only [pure_ok, Prod.mk.injEq] at h
    obtain ⟨rfl, rfl⟩ := h
    refine ⟨rfl, .inl ⟨rfl, rfl, fun _ => ?_⟩⟩
    have hsound : MCR ≤ r := by
      by_contra hlt
      exact hlow ⟨not_le.mp hunder, not_le.mp hlt⟩
    exact ⟨hsound, fun hboth => hcapped ⟨hsound, hboth.1, hboth.2⟩⟩

/-- What a loop subtracts from its collateral tracker. -/
def Subtracts (surplusTracked : Bool) (collLeft : ℕ → LiquidationValues → Outcome ℕ) : Prop :=
  ∀ c v c', collLeft c v = .ok c' →
    c' + v.collToSendToSP + (if surplusTracked then v.collSurplus else 0) = c

theorem sequenceCollLeft_subtracts : Subtracts true sequenceCollLeft := by
  intro c v c' h
  simp only [sequenceCollLeft, bind_ok, SafeMath.sub_ok] at h
  obtain ⟨_, ⟨hle, rfl⟩, hle', rfl⟩ := h
  simp only [if_true]
  omega

theorem batchCollLeft_subtracts : Subtracts false batchCollLeft := by
  intro c v c' h
  simp only [batchCollLeft, SafeMath.sub_ok] at h
  obtain ⟨hle, rfl⟩ := h
  simp only [Bool.false_eq_true, if_false]
  omega

theorem LiquidationTotals.owedColl_add {t t' : LiquidationTotals}
    (h : addLiquidationValuesToTotals t v = .ok t') :
    t'.owedColl = t.owedColl + (v.collToSendToSP + v.collSurplus + v.collGasCompensation) ∧
      t'.totalDebtToOffset = t.totalDebtToOffset + v.debtToOffset := by
  obtain rfl := addLiquidationValuesToTotals_ok h
  refine ⟨?_, rfl⟩
  simp only [owedColl]
  omega

theorem TracksFaithfully.trueTCR_eq (h : TracksFaithfully l) :
    l.trueTCR price = collRatio l.entireSystemColl l.entireSystemDebt price := by
  have hcoll := h.coll
  have hdebt := h.debt
  rw [LiquidationLoop.trueTCR, ← hcoll, ← hdebt, Nat.add_sub_cancel, Nat.add_sub_cancel]

theorem LiquidationLoop.debt_pos (h : l.ICR price user < MCR) :
    0 < l.state.book.entireDebt user := by
  unfold LiquidationLoop.ICR collRatio at h
  split_ifs at h with hpos
  · exact hpos
  · exact absurd h (by decide)

/-- As long as a loop has not left Recovery Mode, its trackers say so. -/
def InRecovery (price : ℕ) (l : LiquidationLoop) : Prop :=
  l.backToNormalMode = false → collRatio l.entireSystemColl l.entireSystemDebt price < CCR

theorem liquidateAndTrack_inRecovery {collLeft : ℕ → LiquidationValues → Outcome ℕ}
    (h : liquidateAndTrack collLeft d price user r l = .ok l') : InRecovery price l' := by
  intro hmode
  simp only [liquidateAndTrack, checkPotentialRecoveryMode, bind_ok, pure_ok, Prod.exists] at h
  obtain ⟨_, -, _, _, -, _, -, _, -, _, -, _, -, _, ⟨_, hratio, rfl⟩, rfl⟩ := h
  simp only [Bool.not_eq_false', decide_eq_true_iff] at hmode
  rw [computeCR_ok hratio]
  exact hmode

theorem liquidateAndTally_mode (h : liquidateAndTally d user l = .ok l') :
    l'.backToNormalMode = l.backToNormalMode ∧ l'.entireSystemColl = l.entireSystemColl ∧
      l'.entireSystemDebt = l.entireSystemDebt := by
  simp only [liquidateAndTally, bind_ok, pure_ok, Prod.exists] at h
  obtain ⟨_, _, -, _, -, _, -, rfl⟩ := h
  exact ⟨rfl, rfl, rfl⟩

/-- What an iteration of both loops does to the trackers. -/
structure Kept (surplusTracked : Bool) (price : ℕ) (it : Iteration) : Prop where
  recovery : InRecovery price it.after
  safe_iff : it.Safe price ↔ KeepsTrackers surplusTracked price it.user it.before

/-- After the return to Normal Mode the trackers stand still. -/
theorem liquidateAndTally_kept {surplusTracked : Bool} (hl : TracksFaithfully l)
    (hmode : l.backToNormalMode = true) (hlt : l.ICR price user < MCR)
    (h : liquidateAndTally d user l = .ok l') : Kept surplusTracked price ⟨l, user, l'⟩ := by
  obtain ⟨hmode', hcoll', hdebt'⟩ := liquidateAndTally_mode h
  obtain ⟨v, hv, -, -, htotals⟩ := liquidateAndTally_ok h
  obtain ⟨howed, hoffset⟩ := LiquidationTotals.owedColl_add htotals
  obtain ⟨hsystem, hsurplus, hgas, hvals⟩ := liquidateNormalMode_values hv
  obtain ⟨hpool, hsend⟩ := hvals (LiquidationLoop.debt_pos hlt)
  have hcoll := hl.coll
  have hdebt := hl.debt
  refine ⟨fun hrecovery => ?_, fun hsafe => ?_, fun hkeeps => ?_⟩
  · exact absurd (hmode'.symm.trans hrecovery) (by rw [hmode]; exact Bool.true_eq_false_eq_False)
  · have hcollAfter := hsafe.faithful.coll
    have hdebtAfter := hsafe.faithful.debt
    simp only [hcoll', hdebt', howed, hoffset, hsystem] at hcollAfter hdebtAfter
    have hgasZero : v.collGasCompensation = 0 := by omega
    rw [hgas, getCollGasCompensation_eq_zero] at hgasZero
    refine ⟨fun _ _ => ⟨hpool.mp (by omega), hgasZero⟩, ?_, ?_⟩
    all_goals
      intro hfalse
      exact absurd (hmode.symm.trans hfalse) Bool.noConfusion
  · obtain ⟨hempty, hsmall⟩ := hkeeps.normal hmode hlt
    have hoffsetZero := hpool.mpr hempty
    have hsendZero := hsend hoffsetZero
    rw [← getCollGasCompensation_eq_zero, ← hgas] at hsmall
    refine ⟨⟨?_, ?_⟩, fun _ _ hsound => absurd hlt (not_lt.mpr hsound)⟩
    · simp only [hcoll', howed, hsystem]
      omega
    · simp only [hdebt', hoffset, hsystem]
      omega

/-- A tracked liquidation keeps the trackers faithful where no gas compensation is paid and the
surplus, if there is one, is subtracted. -/
theorem liquidateAndTrack_faithful_iff {surplusTracked : Bool}
    {collLeft : ℕ → LiquidationValues → Outcome ℕ} (hsub : Subtracts surplusTracked collLeft)
    (hl : TracksFaithfully l) (hsystem : l'.state.system = l.state.system)
    (hdebt : v.debtToOffset ≤ l.entireSystemDebt)
    (hdebt' : l'.entireSystemDebt = l.entireSystemDebt - v.debtToOffset)
    (hcoll' : collLeft l.entireSystemColl v = .ok l'.entireSystemColl)
    (htotals : addLiquidationValuesToTotals l.totals v = .ok l'.totals) :
    TracksFaithfully l' ↔
      v.collGasCompensation = 0 ∧ (surplusTracked = true ∨ v.collSurplus = 0) := by
  obtain ⟨howed, hoffset⟩ := LiquidationTotals.owedColl_add htotals
  have hleft := hsub _ _ _ hcoll'
  have hcoll := hl.coll
  have hsum := hl.debt
  constructor
  · intro hl'
    have hcollAfter := hl'.coll
    rw [howed, hsystem] at hcollAfter
    cases surplusTracked
    · simp only [Bool.false_eq_true, if_false] at hleft
      exact ⟨by omega, .inr (by omega)⟩
    · simp only [if_true] at hleft
      exact ⟨by omega, .inl rfl⟩
  · rintro ⟨hgas, hsurplus⟩
    constructor
    · rw [howed, hsystem]
      cases surplusTracked
      · simp only [Bool.false_eq_true, if_false, false_or] at hleft hsurplus
        omega
      · simp only [if_true] at hleft
        omega
    · rw [hdebt', hoffset, hsystem]
      omega

theorem liquidateAndTrack_kept {surplusTracked : Bool}
    {collLeft : ℕ → LiquidationValues → Outcome ℕ} (hsub : Subtracts surplusTracked collLeft)
    (hl : TracksFaithfully l) (hrecovery : InRecovery price l)
    (hmode : l.backToNormalMode = false) (hICR : getCurrentICR user price l.state = .ok r)
    (h : liquidateAndTrack collLeft d price user r l = .ok l') :
    Kept surplusTracked price ⟨l, user, l'⟩ := by
  refine ⟨liquidateAndTrack_inRecovery h, ?_⟩
  obtain rfl := getCurrentICR_eq hICR
  obtain ⟨TCR, v, hTCR, hv, -, -, hdebt, hdebt', hcoll', htotals⟩ := liquidateAndTrack_ok h
  obtain ⟨hsystem, hways⟩ := liquidateRecoveryMode_values hv
  have hiff := liquidateAndTrack_faithful_iff hsub hl hsystem hdebt hdebt' hcoll' htotals
  obtain rfl := computeCR_ok hTCR
  have hnormal : l.backToNormalMode = true → l.ICR price user < MCR →
      l.remainingBPDInStabPool = 0 ∧ l.state.book.entireColl user < PERCENT_DIVISOR :=
    fun hback => absurd (hmode.symm.trans hback) Bool.noConfusion
  rcases hways with ⟨rfl, hstate, hskipped⟩ | ⟨hmore, hlt, hsurplus, hgas⟩ |
    ⟨hmore, hsound, hTCR, hcovered, hpool, hcap, hsurplus, hgas⟩
  · -- the vault is left alone
    refine ⟨fun _ => ⟨hnormal, ?_, ?_⟩, fun _ => ⟨hiff.mpr ⟨rfl, .inr rfl⟩, ?_⟩⟩
    · intro _ hmore hlt
      exact absurd hlt (not_lt.mpr (hskipped hmore).1)
    · intro _ hmore _ hTCR _ hcovered
      exact absurd ⟨hTCR, hcovered⟩ (hskipped hmore).2
    · intro hbefore hafter
      refine absurd ?_ hafter
      rw [hstate]
      exact hbefore
  · -- below the minimum ratio
    refine ⟨fun hsafe => ⟨hnormal, ?_, ?_⟩, fun hkeeps => ⟨hiff.mpr ⟨?_, .inr hsurplus⟩, ?_⟩⟩
    · intro _ _ _
      rw [← getCollGasCompensation_eq_zero, ← hgas]
      exact (hiff.mp hsafe.faithful).1
    · intro _ _ hsound
      exact absurd hlt (not_lt.mpr hsound)
    · rw [hgas, getCollGasCompensation_eq_zero]
      exact hkeeps.risky hmode hmore hlt
    · intro _ _ hsound
      exact absurd hlt (not_lt.mpr hsound)
  · -- capped at the minimum ratio
    have hcapped : l.state.book.entireDebt user * MCR / price = l.cappedColl price user := rfl
    rw [hcapped] at hcap hsurplus hgas
    refine ⟨fun hsafe => ⟨hnormal, ?_, ?_⟩, fun hkeeps => ⟨hiff.mpr ?_, ?_⟩⟩
    · intro _ _ hlt
      exact absurd hlt (not_lt.mpr hsound)
    · intro _ _ _ _ _ _
      obtain ⟨hgasZero, hkept⟩ := hiff.mp hsafe.faithful
      rw [← getCollGasCompensation_eq_zero, ← hgas]
      refine ⟨hgasZero, hkept.imp id fun hzero => ?_⟩
      rw [hsurplus] at hzero
      exact le_antisymm (Nat.sub_eq_zero_iff_le.mp hzero) hcap
    · obtain ⟨hsmall, hkept⟩ := hkeeps.capped hmode hmore hsound hTCR hpool hcovered
      rw [hgas, getCollGasCompensation_eq_zero]
      refine ⟨hsmall, hkept.imp id fun hall => ?_⟩
      rw [hsurplus]
      exact Nat.sub_eq_zero_of_le hall.le
    · intro _ _ _
      rw [hl.trueTCR_eq]
      exact ⟨hTCR, hrecovery hmode⟩

theorem sequenceStep_kept (hl : TracksFaithfully l) (hrecovery : InRecovery price l)
    (h : sequenceStep_RecoveryMode d price user l = .ok (some l')) :
    Kept true price ⟨l, user, l'⟩ := by
  simp only [sequenceStep_RecoveryMode, bind_ok] at h
  obtain ⟨r, hICR, h⟩ := h
  split_ifs at h with hmode hskip hlt
  · cases pure_ok.mp h
  · obtain ⟨_, htrack, hsome⟩ := map_ok.mp h
    cases hsome
    exact liquidateAndTrack_kept sequenceCollLeft_subtracts hl hrecovery (by simpa using hmode)
      hICR htrack
  · obtain ⟨_, htally, hsome⟩ := map_ok.mp h
    cases hsome
    exact liquidateAndTally_kept hl (by simpa using hmode) (by rwa [getCurrentICR_eq hICR]) htally
  · cases pure_ok.mp h

/-- An iteration that leaves its vault alone. -/
theorem kept_of_skipped {surplusTracked : Bool} (hl : TracksFaithfully l)
    (hrecovery : InRecovery price l) (hsound : MCR ≤ l.ICR price user)
    (hskip : l.backToNormalMode = false → l.remainingBPDInStabPool = 0) :
    Kept surplusTracked price ⟨l, user, l⟩ := by
  refine ⟨hrecovery, fun _ => ⟨?_, ?_, ?_⟩, fun _ => ⟨hl, fun h hn => absurd h hn⟩⟩
  · intro _ hlt
    exact absurd hlt (not_lt.mpr hsound)
  · intro _ _ hlt
    exact absurd hlt (not_lt.mpr hsound)
  · intro hmode _ _ _ hpool
    exact absurd (hskip hmode) hpool

theorem batchStep_kept (hl : TracksFaithfully l) (hrecovery : InRecovery price l)
    (hactive : l.state.Active user) (h : batchStep_RecoveryMode d price user l = .ok l') :
    Kept false price ⟨l, user, l'⟩ := by
  have hstatus : ¬(l.state.vault user).status ≠ .active := not_not.mpr hactive
  rw [batchStep_RecoveryMode, if_neg hstatus] at h
  simp only [bind_ok] at h
  obtain ⟨r, hICR, h⟩ := h
  have hratio := getCurrentICR_eq hICR
  split_ifs at h with hmode hskip hlt
  · obtain rfl := pure_ok.mp h
    exact kept_of_skipped hl hrecovery (by rw [hratio]; exact hskip.1) fun _ => hskip.2
  · exact liquidateAndTrack_kept batchCollLeft_subtracts hl hrecovery (by simpa using hmode) hICR h
  · exact liquidateAndTally_kept hl (by simpa using hmode) (by rwa [hratio]) h
  · obtain rfl := pure_ok.mp h
    exact kept_of_skipped hl hrecovery (by rw [hratio]; exact not_lt.mp hlt) fun hback => by
      simp [hback] at hmode

/-- One iteration is safe, and so are the later ones, under the same kind of condition. -/
theorem safe_iff_cons {it : Iteration} {its : List Iteration} {Keeps : Iteration → Prop}
    (hhead : it.Safe price ↔ Keeps it)
    (htail : TracksFaithfully it.after → ((∀ x ∈ its, x.Safe price) ↔ ∀ x ∈ its, Keeps x)) :
    (∀ x ∈ it :: its, x.Safe price) ↔ ∀ x ∈ it :: its, Keeps x := by
  rw [List.forall_mem_cons, List.forall_mem_cons, ← hhead]
  exact and_congr_right fun hsafe => htail hsafe.faithful

theorem sequenceIterations_safe_iff (hl : TracksFaithfully l) (hrecovery : InRecovery price l) :
    (∀ it ∈ sequenceIterations d price firstUser n user l, it.Safe price) ↔
      ∀ it ∈ sequenceIterations d price firstUser n user l,
        KeepsTrackers true price it.user it.before := by
  induction n generalizing user l with
  | zero =>
    rw [sequenceIterations]
    exact iff_of_true (by simp) (by simp)
  | succ n ih =>
    rw [sequenceIterations]
    split_ifs with hfirst
    · exact iff_of_true (by simp) (by simp)
    · cases hstep : sequenceStep_RecoveryMode d price user l with
      | error e => exact iff_of_true (by simp) (by simp)
      | ok r =>
        cases r with
        | none => exact iff_of_true (by simp) (by simp)
        | some l' =>
          have hkept := sequenceStep_kept hl hrecovery hstep
          exact safe_iff_cons hkept.safe_iff fun hl' => ih hl' hkept.recovery

/-- What an iteration of the batch must not do; it skips the vaults that are not active. -/
def BatchKeeps (price : ℕ) (it : Iteration) : Prop :=
  it.before.state.Active it.user → KeepsTrackers false price it.user it.before

theorem batchIterations_safe_iff (hl : TracksFaithfully l) (hrecovery : InRecovery price l) :
    (∀ it ∈ batchIterations d price users l, it.Safe price) ↔
      ∀ it ∈ batchIterations d price users l, BatchKeeps price it := by
  induction users generalizing l with
  | nil =>
    rw [batchIterations]
    exact iff_of_true (by simp) (by simp)
  | cons user users ih =>
    rw [batchIterations]
    cases hstep : batchStep_RecoveryMode d price user l with
    | error e => exact iff_of_true (by simp) (by simp)
    | ok l' =>
      by_cases hactive : l.state.Active user
      · have hkept := batchStep_kept hl hrecovery hactive hstep
        refine safe_iff_cons (hkept.safe_iff.trans ?_) fun hl' => ih hl' hkept.recovery
        exact ⟨fun hkeeps _ => hkeeps, fun hkeeps => hkeeps hactive⟩
      · have hstatus : (l.state.vault user).status ≠ .active := hactive
        rw [batchStep_RecoveryMode, if_pos hstatus] at hstep
        obtain rfl := pure_ok.mp hstep
        refine safe_iff_cons (iff_of_true ⟨hl, ?_⟩ ?_) fun hl' => ih hl' hrecovery
        · intro hbefore
          exact absurd hbefore hactive
        · intro hbefore
          exact absurd hbefore hactive

/-- A loop that starts in Recovery Mode starts with the totals of the pools. -/
theorem startLoop_faithful (hmode : checkRecoveryMode price s = .ok true)
    (hstart : startLoop true s = .ok l) : TracksFaithfully l ∧ InRecovery price l := by
  simp only [startLoop, if_true, getEntireSystemDebt, getEntireSystemColl, bind_ok,
    SafeMath.add_ok, pure_ok] at hstart
  obtain ⟨_, ⟨-, rfl⟩, _, ⟨-, rfl⟩, rfl⟩ := hstart
  exact ⟨⟨rfl, rfl⟩, fun _ => of_decide_eq_true (checkRecoveryMode_ok hmode).symm⟩

theorem offset_system {block : Block} {debt coll : ℕ}
    (hdebt : debt ≤ s.stabilityPool.totalBPDDeposits) (hzero : debt = 0 → coll = 0)
    (h : StabilityPool.offset d block debt coll s = .ok s') :
    s'.system = (s.system.1 - coll, s.system.2 - debt) := by
  rw [StabilityPool.offset_eq] at h
  split_ifs at h with hskip
  · obtain rfl : debt = 0 := by omega
    obtain rfl := hzero rfl
    rw [← pure_ok.mp h]
    rfl
  · simp only [StabilityPool.offsetUntilBurn, ActivePool.decreaseBPDDebt,
      StabilityPool.updateRewardSumAndProduct, StabilityPool.decreaseBPD, bind_ok, pure_ok,
      SafeMath.sub_ok] at h
    obtain ⟨_, ⟨_, hissue, r, -, _, ⟨_, -, _, -, _, -, _, -, _, -, _, -, rfl⟩, _,
      ⟨_, ⟨hle, rfl⟩, rfl⟩, _, ⟨-, rfl⟩, rfl⟩, _, hburn, hsend⟩ := h
    obtain ⟨-, -, -, rfl⟩ := BPDToken.burn_ok hburn
    obtain ⟨-, hsystem⟩ := ActivePool.sendRBTC_system d.stabilityPool_ne_activePool
      d.stabilityPool_ne_defaultPool hsend
    obtain ⟨_, _, _, rfl⟩ := StabilityPool.triggerMPIssuance_ok hissue
    rw [hsystem]
    simp only [State.system, StabilityPool.setOffsetErrors, Prod.mk.injEq, true_and] at hle ⊢
    omega

theorem redistributeDebtAndColl_system {debt coll : ℕ}
    (h : redistributeDebtAndColl d debt coll s = .ok s') : s'.system = s.system := by
  unfold redistributeDebtAndColl at h
  split_ifs at h
  · rw [pure_ok.mp h]
  · simp only [ActivePool.decreaseBPDDebt, DefaultPool.increaseBPDDebt, bind_ok, pure_ok,
      SafeMath.sub_ok, SafeMath.add_ok, Prod.exists] at h
    obtain ⟨_, _, -, _, _, -, _, -, _, -, _, ⟨_, ⟨hle, rfl⟩, rfl⟩, _, ⟨_, ⟨-, rfl⟩, rfl⟩, h⟩ := h
    rw [ActivePool.sendRBTC_defaultPool_system h]
    simp only [State.system, setRewards, Prod.mk.injEq, true_and] at hle ⊢
    omega

theorem sendGasCompensation_system {sender : Address} {BPD RBTC : ℕ} (hsender : d.External sender)
    (h : sendGasCompensation d sender BPD RBTC s = .ok s') :
    s'.system = (s.system.1 - RBTC, s.system.2) := by
  simp only [sendGasCompensation, BPDToken.returnFromPool, bind_ok, ite_pure_ok] at h
  obtain ⟨t, hBPD, hRBTC⟩ := h
  have ht : t.system = s.system := by
    rcases hBPD with ⟨-, hBPD⟩ | ⟨-, rfl⟩
    · obtain ⟨-, -, -, rfl⟩ := BPDToken._transfer_ok hBPD
      rfl
    · rfl
  rcases hRBTC with ⟨-, hRBTC⟩ | ⟨hzero, rfl⟩
  · rw [(ActivePool.sendRBTC_system (hsender.ne d.activePool_mem) (hsender.ne d.defaultPool_mem)
      hRBTC).2, ht]
  · obtain rfl : RBTC = 0 := by omega
    exact ht

/-- What the loop owes leaves the pools when the call ends. -/
theorem settleLiquidation_system {block : Block} {sender : Address} (hsender : d.External sender)
    (hl : Tallied d s l) (h : settleLiquidation d block sender l.totals l.state = .ok s') :
    s'.system = (l.state.system.1 - l.totals.owedColl,
      l.state.system.2 - l.totals.totalDebtToOffset) := by
  simp only [settleLiquidation, bind_ok, ite_pure_ok] at h
  obtain ⟨_, -, t₁, hoffset, t₂, hredistribute, t₃, hsurplus, t₄, hsnapshots, _, -, _, -, hgas⟩ := h
  have hdebt : l.totals.totalDebtToOffset ≤ l.state.stabilityPool.totalBPDDeposits := by
    rw [hl.pool, ← hl.remaining]
    exact Nat.le_add_left _ _
  have h₁ := offset_system hdebt hl.balanced.offset_zero hoffset
  have h₂ := redistributeDebtAndColl_system hredistribute
  have h₃ : t₃.system = (t₂.system.1 - l.totals.totalCollSurplus, t₂.system.2) := by
    rcases hsurplus with ⟨-, hsurplus⟩ | ⟨hzero, rfl⟩
    · exact (ActivePool.sendRBTC_system d.collSurplusPool_ne_activePool
        d.collSurplusPool_ne_defaultPool hsurplus).2
    · have : l.totals.totalCollSurplus = 0 := by omega
      rw [this]
      rfl
  have h₄ : t₄.system = t₃.system := by
    obtain ⟨_, rfl⟩ := updateSystemSnapshots_excludeCollRemainder_ok hsnapshots
    rfl
  rw [sendGasCompensation_system hsender hgas, h₄, h₃, h₂, h₁, LiquidationTotals.owedColl]
  simp only [Prod.mk.injEq, and_true]
  omega

/-- A call whose running pair is faithful ends with that pair in the pools. -/
theorem TracksFaithfully.settled {block : Block} {sender : Address} (hsender : d.External sender)
    (hl : TracksFaithfully l) (htallied : Tallied d s l)
    (h : settleLiquidation d block sender l.totals l.state = .ok s') :
    s'.system = (l.entireSystemColl, l.entireSystemDebt) := by
  rw [settleLiquidation_system hsender htallied h, ← hl.coll, ← hl.debt, Nat.add_sub_cancel,
    Nat.add_sub_cancel]

/-- The iterations of `liquidateVaults` that starts in Recovery Mode. -/
def liquidateVaultsIterations (d : Deployment) (price n : ℕ) (s : State) : List Iteration :=
  match startLoop true s with
  | .ok l => sequenceIterations d price (SortedVaults.getFirst s.sortedVaults) n
      (SortedVaults.getLast s.sortedVaults) l
  | .error _ => []

/-- The iterations of `batchLiquidateVaults` that starts in Recovery Mode. -/
def batchLiquidateVaultsIterations (d : Deployment) (price : ℕ) (users : List Address)
    (s : State) : List Iteration :=
  match startLoop true s with
  | .ok l => batchIterations d price users l
  | .error _ => []

/-- Every iteration of both calls is safe as long as no liquidated vault has collateral that pays
gas compensation, no surplus goes untracked and nothing is offset after the return to Normal
Mode. -/
theorem trackers_faithful_iff (hmode : checkRecoveryMode price s = .ok true) :
    ((∀ it ∈ liquidateVaultsIterations d price n s, it.Safe price) ↔
      ∀ it ∈ liquidateVaultsIterations d price n s,
        KeepsTrackers true price it.user it.before) ∧
    ((∀ it ∈ batchLiquidateVaultsIterations d price users s, it.Safe price) ↔
      ∀ it ∈ batchLiquidateVaultsIterations d price users s, BatchKeeps price it) := by
  unfold liquidateVaultsIterations batchLiquidateVaultsIterations
  cases hstart : startLoop true s with
  | error e => exact ⟨iff_of_true (by simp) (by simp), iff_of_true (by simp) (by simp)⟩
  | ok l =>
    obtain ⟨hl, hrecovery⟩ := startLoop_faithful hmode hstart
    exact ⟨sequenceIterations_safe_iff hl hrecovery, batchIterations_safe_iff hl hrecovery⟩

/-- After safe iterations the loop that they come from has faithful trackers. -/
theorem lastLoop_faithful {its : List Iteration} (hl : TracksFaithfully l)
    (hsafe : ∀ it ∈ its, it.Safe price) : TracksFaithfully (lastLoop l its) := by
  induction its generalizing l with
  | nil => exact hl
  | cons it its ih =>
    rw [List.forall_mem_cons] at hsafe
    have hrest := ih hsafe.1.faithful hsafe.2
    simp only [lastLoop, List.map_cons, List.getLastD_cons] at hrest ⊢
    exact hrest

theorem liquidateVaults_faithful (hmode : checkRecoveryMode price s = .ok true)
    (hsafe : ∀ it ∈ liquidateVaultsIterations d price n s, it.Safe price)
    (h : getTotalsFromLiquidateVaultsSequence d true price n s = .ok l) : TracksFaithfully l := by
  simp only [getTotalsFromLiquidateVaultsSequence, if_true, bind_ok] at h
  obtain ⟨l₀, hstart, hloop⟩ := h
  unfold liquidateVaultsIterations at hsafe
  rw [hstart] at hsafe
  exact sequenceIterations_last hloop ▸ lastLoop_faithful (startLoop_faithful hmode hstart).1 hsafe

theorem batchLiquidateVaults_faithful (hmode : checkRecoveryMode price s = .ok true)
    (hsafe : ∀ it ∈ batchLiquidateVaultsIterations d price users s, it.Safe price)
    (h : getTotalsFromBatchLiquidate d true price users s = .ok l) : TracksFaithfully l := by
  simp only [getTotalsFromBatchLiquidate, if_true, bind_ok] at h
  obtain ⟨l₀, hstart, hloop⟩ := h
  unfold batchLiquidateVaultsIterations at hsafe
  rw [hstart] at hsafe
  exact batchIterations_last hloop ▸ lastLoop_faithful (startLoop_faithful hmode hstart).1 hsafe

/-- The call recorded a pair that the pools do not hold. -/
def drifts (its : List Iteration) : Bool :=
  its.any fun it => it.after.entireSystemColl + it.after.totals.owedColl ≠ it.after.state.system.1

theorem not_safe_of_drifts {its : List Iteration} (h : drifts its = true) :
    ¬∀ it ∈ its, it.Safe price := by
  intro hsafe
  obtain ⟨it, hmem, hdrift⟩ := List.any_eq_true.mp h
  exact of_decide_eq_true hdrift (hsafe it hmem).faithful.coll

/-- The vault of 101 is below the minimum ratio, and the system in Recovery Mode. -/
def riskyRun : List Transaction :=
  [⟨testBlock 60000, 100, 3 * 10 ^ 17, .openVault (10 ^ 16) (10000 * 10 ^ 18) 0 0⟩,
    ⟨testBlock 60000, 101, 55 * 10 ^ 15, .openVault (10 ^ 16) (2000 * 10 ^ 18) 0 0⟩]

/-- At an enormous price a few wei are enough for a vault. -/
def tinyRun : List Transaction :=
  [⟨testBlock (10 ^ 20), 100, 100, .openVault (10 ^ 16) (2000 * 10 ^ 18) 0 0⟩,
    ⟨testBlock (10 ^ 20), 101, 60, .openVault (10 ^ 16) (2000 * 10 ^ 18) 0 0⟩]

/-- Liquidating 101 pays gas compensation, which neither condition allows, unless its collateral is
too small. -/
theorem trackers_faithful_iff_run :
    (∃ s, Reachable testnet s ∧
      (¬∀ it ∈ liquidateVaultsIterations testnet (44000 * 10 ^ 18) 1 s,
        KeepsTrackers true (44000 * 10 ^ 18) it.user it.before) ∧
      ¬∀ it ∈ batchLiquidateVaultsIterations testnet (44000 * 10 ^ 18) [101] s,
        BatchKeeps (44000 * 10 ^ 18) it) ∧
    ∃ s l l', Reachable testnet s ∧
      (∀ it ∈ liquidateVaultsIterations testnet (33 * 10 ^ 36) 1 s, it.Safe (33 * 10 ^ 36)) ∧
      (∀ it ∈ batchLiquidateVaultsIterations testnet (33 * 10 ^ 36) [101] s,
        it.Safe (33 * 10 ^ 36)) ∧
      getTotalsFromLiquidateVaultsSequence testnet true (33 * 10 ^ 36) 1 s = .ok l ∧
      getTotalsFromBatchLiquidate testnet true (33 * 10 ^ 36) [101] s = .ok l' ∧
      ¬l.state.Active 101 ∧ ¬l'.state.Active 101 ∧ TracksFaithfully l ∧ TracksFaithfully l' := by
  constructor
  · obtain ⟨s, hreach, -, hcheck⟩ := runs_reachable testnet testGenesis riskyRun
      (fun s => checkRecoveryMode (44000 * 10 ^ 18) s = .ok true ∧
        drifts (liquidateVaultsIterations testnet (44000 * 10 ^ 18) 1 s) = true ∧
        drifts (batchLiquidateVaultsIterations testnet (44000 * 10 ^ 18) [101] s) = true)
      (by decide +kernel)
    obtain ⟨hmode, hsequence, hbatch⟩ := of_decide_eq_true hcheck
    obtain ⟨hiff, hiffBatch⟩ := @trackers_faithful_iff testnet s [101] (44000 * 10 ^ 18) 1 hmode
    refine ⟨s, hreach, ?_, ?_⟩
    · rw [← hiff]
      exact not_safe_of_drifts hsequence
    · rw [← hiffBatch]
      exact not_safe_of_drifts hbatch
  · obtain ⟨s, hreach, -, hcheck⟩ := runs_reachable testnet testGenesis tinyRun
      (fun s => checkRecoveryMode (33 * 10 ^ 36) s = .ok true ∧
        (∀ it ∈ liquidateVaultsIterations testnet (33 * 10 ^ 36) 1 s,
          KeepsTrackers true (33 * 10 ^ 36) it.user it.before) ∧
        (∀ it ∈ batchLiquidateVaultsIterations testnet (33 * 10 ^ 36) [101] s,
          KeepsTrackers false (33 * 10 ^ 36) it.user it.before) ∧
        succeeds (fun l : LiquidationLoop => ¬l.state.Active 101)
          (getTotalsFromLiquidateVaultsSequence testnet true (33 * 10 ^ 36) 1 s) = true ∧
        succeeds (fun l : LiquidationLoop => ¬l.state.Active 101)
          (getTotalsFromBatchLiquidate testnet true (33 * 10 ^ 36) [101] s) = true)
      (by decide +kernel)
    obtain ⟨hmode, hsequence, hbatch, htotals, htotalsBatch⟩ := of_decide_eq_true hcheck
    obtain ⟨l, hl, hclosed⟩ := exists_of_succeeds htotals
    obtain ⟨l', hl', hclosedBatch⟩ := exists_of_succeeds htotalsBatch
    obtain ⟨hiff, hiffBatch⟩ := @trackers_faithful_iff testnet s [101] (33 * 10 ^ 36) 1 hmode
    have hsafe := hiff.mpr hsequence
    have hsafeBatch := hiffBatch.mpr fun it hit _ => hbatch it hit
    exact ⟨s, l, l', hreach, hsafe, hsafeBatch, hl, hl', of_decide_eq_true hclosed,
      of_decide_eq_true hclosedBatch, liquidateVaults_faithful hmode hsafe hl,
      batchLiquidateVaults_faithful hmode hsafeBatch hl'⟩

/-- Both loops forget the gas compensation of 101. -/
theorem trackers_drift : ¬∀ d s, Reachable d s → ∀ price n users,
    checkRecoveryMode price s = .ok true →
      (∀ it ∈ liquidateVaultsIterations d price n s, it.Safe price) ∧
        ∀ it ∈ batchLiquidateVaultsIterations d price users s, it.Safe price := by
  intro hall
  obtain ⟨s, hreach, -, hcheck⟩ := runs_reachable testnet testGenesis riskyRun
    (fun s => checkRecoveryMode (44000 * 10 ^ 18) s = .ok true ∧
      drifts (liquidateVaultsIterations testnet (44000 * 10 ^ 18) 1 s) = true)
    (by decide +kernel)
  obtain ⟨hmode, hdrifts⟩ := of_decide_eq_true hcheck
  exact not_safe_of_drifts hdrifts (hall testnet s hreach _ 1 [] hmode).1

end MoneyProtocol.VaultManager
