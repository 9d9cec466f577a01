import MoneyProtocol.Accounting.System
import MoneyProtocol.Book.Runs

/-!
# What a borrower operation checks and leaves behind

An adjustment, an opening and a closure, each as a record of what the call read, which checks
it passed, and the book and the system totals it left. The safety of the system's ratios is
read off these records.
-/

namespace MoneyProtocol.BorrowerOperations

open Outcome MoneypMath MoneypBase Book VaultManager

variable {d : Deployment} {s s' : State} {block : Block} {sender borrower : Address} {value : ℕ}
  {adj : Adjustment}

/-- A successful adjustment of the vault of `borrower`: `charged` is the state in which the
pending rewards are applied and the fee is charged, where the checks are made. -/
structure AdjustmentEffect (d : Deployment) (block : Block) (value : ℕ) (borrower : Address)
    (adj : Adjustment) (s s' : State) where
  price : ℕ
  isRecoveryMode : Bool
  fetched : State
  collected : State
  netDebtChange : ℕ
  charged : State
  oldICR : ℕ
  newICR : ℕ
  newColl : ℕ
  newDebt : ℕ
  data : SortedVaults
  fetches : PriceFeed.fetchPrice block s = .ok (price, fetched)
  mode : checkRecoveryMode price fetched = .ok isRecoveryMode
  singular : value = 0 ∨ adj.collWithdrawal = 0
  nonZero : value ≠ 0 ∨ adj.collWithdrawal ≠ 0 ∨ adj.BPDChange ≠ 0
  active : s.Active borrower
  collects : applyPendingRewards d borrower fetched = .ok collected
  charges : chargeBorrowingFee d block (isRecoveryMode || !adj.isDebtIncrease) adj.BPDChange
    adj.maxFeePercentage collected = .ok (netDebtChange, charged)
  old : computeCR (collected.vault borrower).coll (collected.vault borrower).debt price = .ok oldICR
  amounts : getNewVaultAmounts (collected.vault borrower).coll (collected.vault borrower).debt
    (getCollChange value adj.collWithdrawal).1 (getCollChange value adj.collWithdrawal).2
    netDebtChange adj.isDebtIncrease = .ok (newColl, newDebt)
  new : computeCR newColl newDebt price = .ok newICR
  minimum : minDebt ≤ (collected.vault borrower).debt → minDebt ≤ newDebt
  valid : requireValidAdjustmentInCurrentMode isRecoveryMode adj.collWithdrawal
    adj.isDebtIncrease oldICR newICR (getCollChange value adj.collWithdrawal).1
    (getCollChange value adj.collWithdrawal).2 netDebtChange price charged = .ok ()
  book : s'.book = collected.book.restaked borrower newColl newDebt data
  system : s'.system =
    (changed s.system.1 (getCollChange value adj.collWithdrawal).1
      (getCollChange value adj.collWithdrawal).2,
    changed s.system.2 netDebtChange adj.isDebtIncrease)

theorem adjustVaultInternal_effect (hactive : sender ≠ d.activePool)
    (hdefault : sender ≠ d.defaultPool)
    (h : adjustVaultInternal d block sender value borrower adj s = .ok s') :
    Nonempty (AdjustmentEffect d block value borrower adj s s') := by
  simp only [adjustVaultInternal, bind_ok, Prod.exists] at h
  obtain ⟨price, s₀, hprice, recovery, hmode, _, -, _, hsingular, _, hnonZero, _, hborrower, _, -,
    s₁, hpending, net, s₂, hfee, oldICR, hold, newICR, hnew, _, -, _, hvalid, _, hrepay, s₃,
    hupdate, s₄, hstake, _, -, s₅, hinsert, hmove⟩ := h
  have h₂ := chargeBorrowingFee_book hfee
  obtain ⟨coll, debt, hamounts, h₃⟩ := updateVaultFromAdjustment_book hupdate
  obtain ⟨-, h₄⟩ := updateStakeAndTotalStakes_book hstake
  obtain ⟨data, -, rfl⟩ := reInsertSorted_ok hinsert
  have hv : s₂.vault borrower = s₁.vault borrower := congrFun (congrArg Book.vaults h₂) borrower
  have hself : s₃.vault borrower = { s₁.vault borrower with coll := coll, debt := debt } := by
    have := congrFun (congrArg Book.vaults h₃) borrower
    rw [hv] at this
    exact this.trans (Function.update_self _ _ _)
  rw [hv, h₂] at h₃
  rw [hself, h₃] at h₄
  rw [hv] at hold hnew hamounts
  have hbook : s'.book = s₁.book.restaked borrower coll debt data := by
    rw [moveTokensAndRBTCfromAdjustment_book hdefault hmove, setSortedVaults_book, h₄]
    simp [Book.restaked, Book.newStake, State.book, State.vault]
  have hnet : adj.isDebtIncrease = false → net = adj.BPDChange := by
    intro hincrease
    rw [hincrease, Bool.not_false, Bool.or_true] at hfee
    exact (chargeBorrowingFee_waived hfee).1
  have hminimum : minDebt ≤ (s₁.vault borrower).debt → minDebt ≤ debt := by
    rw [← hv]
    apply adjusted_minDebt hnet hrepay
    rw [hv]
    exact hamounts
  have hsystem := moveTokensAndRBTCfromAdjustment_system hactive hdefault hnet hmove
  rw [show (setSortedVaults data s₄).system = s₄.system from rfl,
    updateStakeAndTotalStakes_system hstake, updateVaultFromAdjustment_system hupdate,
    chargeBorrowingFee_system hfee, applyPendingRewards_system hpending,
    PriceFeed.fetchPrice_system hprice] at hsystem
  have hnewICR : computeCR coll debt price = .ok newICR := by
    simp only [getNewICRFromVaultChange, hamounts, bind_ok, Except.ok.injEq] at hnew
    obtain ⟨_, rfl, hnew⟩ := hnew
    exact hnew
  have hstatus : s.Active borrower := by
    simp only [requireVaultisActive, require_ok] at hborrower
    rw [State.Active, ← hborrower]
    exact congrArg Vault.status (congrFun (congrArg Book.vaults
      (PriceFeed.fetchPrice_book hprice)) borrower).symm
  simp only [requireSingularCollChange, requireNonZeroAdjustment, require_ok] at hsingular hnonZero
  exact ⟨⟨price, recovery, s₀, s₁, net, s₂, oldICR, newICR, coll, debt, data, hprice, hmode,
    hsingular, hnonZero, hstatus, hpending, hfee, hold, hamounts, hnewICR, hminimum, hvalid, hbook,
    hsystem⟩⟩

/-- The rewards that an adjustment collects leave the registry in order. -/
theorem AdjustmentEffect.collected_registry {xs : List Address}
    (e : AdjustmentEffect d block value borrower adj s s') (hxs : s.book.Registry xs) :
    e.collected.book.Active borrower ∧ ∃ ys, e.collected.book.Registry ys := by
  have hfetched := PriceFeed.fetchPrice_book e.fetches
  constructor
  · have hstatus : s.book.Active borrower := e.active
    rw [← hfetched] at hstatus
    rcases applyPendingRewards_book (P := .any) e.collects with ⟨-, -, hbook⟩ | ⟨-, hsame⟩
    · rw [hbook]
      simpa [Book.Active, Book.collected] using hstatus
    · rw [hsame]
      exact hstatus
  · rw [← hfetched] at hxs
    exact hxs.moves (applyPendingRewards_moves (P := .any) e.collects)

/-- A successful opening; the checks are made in `charged`. -/
structure OpeningEffect (d : Deployment) (block : Block) (borrower : Address) (value : ℕ)
    (maxFeePercentage BPDAmount : ℕ) (s s' : State) where
  price : ℕ
  isRecoveryMode : Bool
  fetched : State
  netDebt : ℕ
  charged : State
  ICR : ℕ
  data : SortedVaults
  fetches : PriceFeed.fetchPrice block s = .ok (price, fetched)
  mode : checkRecoveryMode price fetched = .ok isRecoveryMode
  inactive : ¬s.Active borrower
  charges : chargeBorrowingFee d block isRecoveryMode BPDAmount maxFeePercentage fetched =
    .ok (netDebt, charged)
  room : netDebt + BPD_GAS_COMPENSATION < 2 ^ 256
  ratio : computeCR value (netDebt + BPD_GAS_COMPENSATION) price = .ok ICR
  valid : requireValidOpening isRecoveryMode ICR value (netDebt + BPD_GAS_COMPENSATION) price
    charged = .ok ()
  book : s.book.vaultOwners.length < 2 ^ 128 →
    s'.book = s.book.opened borrower value (netDebt + BPD_GAS_COMPENSATION) data
  system : s'.system = (s.system.1 + value, s.system.2 + (netDebt + BPD_GAS_COMPENSATION))

theorem openVault_effect {maxFee amount : ℕ} {upperHint lowerHint : Address}
    (h : openVault d block borrower value maxFee amount upperHint lowerHint s = .ok s') :
    Nonempty (OpeningEffect d block borrower value maxFee amount s s') := by
  simp only [openVault, getCompositeDebt, bind_ok, Prod.exists, SafeMath.add_ok] at h
  obtain ⟨price, s₀, hprice, recovery, hmode, _, -, _, hinactive, net, s₁, hfee, _, -, _,
    ⟨hroom, rfl⟩, _, -, ICR, hICR, _, -, _, hvalid, s₂, hinit, s₃, hinsert, s₄, hadd, s₅, hcoll, s₆,
    hmint, hreserve⟩ := h
  have h₀ := PriceFeed.fetchPrice_book hprice
  have h₁ : s₁.book = s.book := by rw [chargeBorrowingFee_book hfee, h₀]
  obtain ⟨-, h₂⟩ := initVault_book hinit
  obtain ⟨data, -, rfl⟩ := insertSorted_ok hinsert
  have hv : s₁.vault borrower = s.book.vaults borrower :=
    congrFun (congrArg Book.vaults h₁) borrower
  rw [h₁, hv] at h₂
  have hbook : s.book.vaultOwners.length < 2 ^ 128 →
      s'.book = s.book.opened borrower value (net + BPD_GAS_COMPENSATION) data := by
    intro hlength
    rw [withdrawBPD_book hreserve, withdrawBPD_book hmint, activePoolAddColl_book hcoll,
      addVaultOwnerToArray_book hadd, setSortedVaults_book, h₂]
    simp only [Book.opened, Function.update_self, Function.update_idem, Nat.mod_eq_of_lt hlength]
  have hstatus : ¬s.Active borrower := by
    simp only [requireVaultisNotActive, require_ok] at hinactive
    rw [State.Active]
    intro hactive
    apply hinactive
    rw [← hactive]
    exact congrArg Vault.status (congrFun (congrArg Book.vaults h₀) borrower)
  refine ⟨⟨price, recovery, s₀, net, s₁, ICR, data, hprice, hmode, hstatus, hfee, hroom, hICR,
    hvalid, hbook, ?_⟩⟩
  rw [withdrawBPD_system hreserve, withdrawBPD_system hmint, activePoolAddColl_system hcoll,
    addVaultOwnerToArray_system hadd, show (setSortedVaults data s₂).system = s₂.system from rfl,
    initVault_system hinit, chargeBorrowingFee_system hfee, PriceFeed.fetchPrice_system hprice]
  simp only [Prod.mk.injEq, true_and]
  omega

/-- A successful closure. -/
structure ClosureEffect (d : Deployment) (block : Block) (borrower : Address) (s s' : State) where
  price : ℕ
  fetched : State
  collected : State
  newTCR : ℕ
  fetches : PriceFeed.fetchPrice block s = .ok (price, fetched)
  mode : checkRecoveryMode price fetched = .ok false
  collects : applyPendingRewards d borrower fetched = .ok collected
  ratio : getNewTCRFromVaultChange (collected.vault borrower).coll false
    (collected.vault borrower).debt false price collected = .ok newTCR
  valid : CCR ≤ newTCR
  system : s'.system = (s.system.1 - (collected.vault borrower).coll,
    s.system.2 - (collected.vault borrower).debt)

theorem closeVault_effect (hactive : borrower ≠ d.activePool) (hdefault : borrower ≠ d.defaultPool)
    (h : BorrowerOperations.closeVault d block borrower s = .ok s') :
    Nonempty (ClosureEffect d block borrower s s') := by
  simp only [BorrowerOperations.closeVault, requireNotInRecoveryMode, requireNewTCRisAboveCCR,
    bind_ok, Prod.exists, require_ok, SafeMath.sub_ok] at h
  obtain ⟨_, -, price, s₀, hprice, _, ⟨_, hmode, rfl⟩, s₁, hpending, _, ⟨hreserve, rfl⟩, _, -,
    newTCR, hTCR, _, hvalid, s₂, hstake, s₃, hclose, s₄, hrepay, s₅, hgas, hsend⟩ := h
  have h₃ : s₃.system = s.system := by
    rw [closeVault_system hclose, removeStake_system hstake, applyPendingRewards_system hpending,
      PriceFeed.fetchPrice_system hprice]
  refine ⟨⟨price, s₀, s₁, newTCR, hprice, hmode, hpending, hTCR, hvalid, ?_⟩⟩
  rw [(ActivePool.sendRBTC_system hactive hdefault hsend).2, (repayBPD_system hgas).2,
    (repayBPD_system hrepay).2, h₃]
  simp only [Prod.mk.injEq, true_and]
  omega

end MoneyProtocol.BorrowerOperations

namespace MoneyProtocol

open Outcome BorrowerOperations

variable {d : Deployment} {s s' s₁ s₁' : State} {block : Block} {t : Transaction}

/-- The price depends on the block and the last good price only. -/
theorem PriceFeed.fetchPrice_same {price price₁ : ℕ} (hfeed : s₁.priceFeed = s.priceFeed)
    (h : PriceFeed.fetchPrice block s = .ok (price, s'))
    (h₁ : PriceFeed.fetchPrice block s₁ = .ok (price₁, s₁')) : price₁ = price := by
  have hfrom : ∀ feeds, fetchPriceFrom block feeds s = .ok (price, s') →
      fetchPriceFrom block feeds s₁ = .ok (price₁, s₁') → price₁ = price := by
    intro feeds
    induction feeds with
    | nil =>
      intro h h₁
      simp only [fetchPriceFrom, Except.ok.injEq, Prod.mk.injEq] at h h₁
      rw [← h.1, ← h₁.1, hfeed]
    | cons i feeds ih =>
      intro h h₁
      simp only [fetchPriceFrom] at h h₁
      cases hanswer : block.latestAnswer i with
      | none =>
        rw [hanswer] at h
        cases h
      | some answer =>
        obtain ⟨answer, success⟩ := answer
        rw [hanswer] at h h₁
        cases success
        · exact ih h h₁
        · simp only [if_true, Except.ok.injEq, Prod.mk.injEq] at h h₁
          rw [← h.1, ← h₁.1]
  exact hfrom _ h h₁

/-- `withdrawRBTCGainToVault`, up to where the gain is moved to the vault. -/
def StabilityPool.withdrawRBTCGainUntilMove (d : Deployment) (block : Block) (msgSender : Address)
    (s : State) : Outcome (ℕ × State) := do
  let initialDeposit := (s.stabilityPool.deposits msgSender).initialValue
  requireUserHasDeposit initialDeposit
  requireUserHasVault msgSender s
  requireUserHasRBTCGain msgSender s
  let s ← triggerMPIssuance block s
  let depositorRBTCGain ← getDepositorRBTCGain msgSender s
  let compoundedBPDDeposit ← getCompoundedBPDDeposit msgSender s
  let _BPDLoss ← SafeMath.sub initialDeposit compoundedBPDDeposit
  let frontEnd := (s.stabilityPool.deposits msgSender).frontEndTag
  let s ← payOutMPGains d block msgSender frontEnd s
  let newFrontEndStake ← getCompoundedFrontEndStake frontEnd s
  let s := updateFrontEndStakeAndSnapshots frontEnd newFrontEndStake s
  let s := updateDepositAndSnapshots msgSender compoundedBPDDeposit s
  let s ← takeRBTC depositorRBTCGain s
  let s ← transferRBTC d.stabilityPool d.borrowerOperations depositorRBTCGain s
  return (depositorRBTCGain, s)

theorem StabilityPool.withdrawRBTCGainToVault_eq {msgSender upperHint lowerHint : Address} :
    withdrawRBTCGainToVault d block msgSender upperHint lowerHint s = (do
      let (gain, s) ← withdrawRBTCGainUntilMove d block msgSender s
      BorrowerOperations.moveRBTCGainToVault d block gain msgSender upperHint lowerHint s) := by
  simp [withdrawRBTCGainToVault, withdrawRBTCGainUntilMove]

/-- The operations that adjust the sender's vault. -/
def Operation.Adjusts : Operation → Prop
  | .addColl _ _ | .withdrawColl _ _ _ | .withdrawBPD _ _ _ _ | .repayBPD _ _ _ | .adjustVault _
  | .withdrawRBTCGainToVault _ _ => True
  | _ => False

/-- What an adjusting transaction asks of the sender's vault: the RBTC it brings, the changes,
and the state in which the adjustment begins. -/
def Transaction.adjustment (d : Deployment) (t : Transaction) (s : State) :
    Outcome (ℕ × Adjustment × State) :=
  match t.operation with
  | .addColl upperHint lowerHint => do
    let s ← transferRBTC t.sender d.borrowerOperations t.value s
    return (t.value, ⟨0, 0, false, upperHint, lowerHint, 0⟩, s)
  | .adjustVault a => do
    let s ← transferRBTC t.sender d.borrowerOperations t.value s
    return (t.value, a, s)
  | .withdrawColl collWithdrawal upperHint lowerHint =>
    return (0, ⟨collWithdrawal, 0, false, upperHint, lowerHint, 0⟩, s)
  | .withdrawBPD maxFeePercentage BPDAmount upperHint lowerHint =>
    return (0, ⟨0, BPDAmount, true, upperHint, lowerHint, maxFeePercentage⟩, s)
  | .repayBPD BPDAmount upperHint lowerHint =>
    return (0, ⟨0, BPDAmount, false, upperHint, lowerHint, 0⟩, s)
  | .withdrawRBTCGainToVault upperHint lowerHint => do
    let (gain, s) ← StabilityPool.withdrawRBTCGainUntilMove d t.block t.sender s
    return (gain, ⟨0, 0, false, upperHint, lowerHint, 0⟩, s)
  | _ => .error .invalid

/-- Nothing that the ratio of the system or a vault depends on has changed. -/
structure SameVaults (d : Deployment) (s s₁ : State) : Prop where
  system : s₁.system = s.system
  book : s₁.book = s.book
  debt : s₁.ledger d .debt = s.ledger d .debt
  priceFeed : s₁.priceFeed = s.priceFeed

namespace SameVaults

theorem refl (d : Deployment) (s : State) : SameVaults d s s := ⟨rfl, rfl, rfl, rfl⟩

theorem trans {s₂ : State} (h : SameVaults d s s₁) (h' : SameVaults d s₁ s₂) :
    SameVaults d s s₂ :=
  ⟨h'.system.trans h.system, h'.book.trans h.book, h'.debt.trans h.debt,
    h'.priceFeed.trans h.priceFeed⟩

theorem transferRBTC {a b : Address} {v : ℕ} (ha : a ≠ d.activePool) (hb : b ≠ d.activePool)
    (h : transferRBTC a b v s = .ok s₁) : SameVaults d s s₁ := by
  refine ⟨transferRBTC_system h, transferRBTC_book h, ?_, ?_⟩
  · rw [transferRBTC_ledger ha hb h]
    simp [backed]
  · obtain ⟨-, rfl⟩ := transferRBTC_ok.mp h
    rfl

theorem bookkeeping (h : StabilityPool.Bookkeeping s s₁) : SameVaults d s s₁ := by
  obtain ⟨_, _, _, _, rfl⟩ := h
  exact ⟨rfl, rfl, rfl, rfl⟩

theorem takeRBTC {v : ℕ} (h : StabilityPool.takeRBTC v s = .ok s₁) : SameVaults d s s₁ := by
  simp only [StabilityPool.takeRBTC, bind_ok, pure_ok] at h
  obtain ⟨_, -, rfl⟩ := h
  exact ⟨rfl, rfl, rfl, rfl⟩

theorem triggerMPIssuance (h : StabilityPool.triggerMPIssuance block s = .ok s₁) :
    SameVaults d s s₁ := by
  obtain ⟨_, _, _, rfl⟩ := StabilityPool.triggerMPIssuance_ok h
  exact ⟨rfl, rfl, rfl, rfl⟩

theorem payOutMPGains {depositor frontEnd : Address}
    (h : StabilityPool.payOutMPGains d block depositor frontEnd s = .ok s₁) :
    SameVaults d s s₁ := by
  obtain ⟨_, rfl⟩ := StabilityPool.payOutMPGains_ok h
  exact ⟨rfl, rfl, rfl, rfl⟩

end SameVaults

theorem StabilityPool.withdrawRBTCGainUntilMove_same {sender : Address} {gain : ℕ}
    (h : withdrawRBTCGainUntilMove d block sender s = .ok (gain, s₁)) : SameVaults d s s₁ := by
  simp only [withdrawRBTCGainUntilMove, bind_ok, pure_ok, Prod.mk.injEq] at h
  obtain ⟨_, -, _, -, _, -, s₂, hissue, _, -, _, -, _, -, s₃, hpay, _, -, s₄, htake, s₅, hsend, -,
    rfl⟩ := h
  exact ((((SameVaults.triggerMPIssuance hissue).trans (.payOutMPGains hpay)).trans
    (.bookkeeping updateFrontEndStakeAndSnapshots_bookkeeping)).trans
    (.bookkeeping updateDepositAndSnapshots_bookkeeping)).trans
    ((SameVaults.takeRBTC htake).trans (.transferRBTC d.stabilityPool_ne_activePool
      d.borrowerOperations_ne_activePool hsend))

/-- An adjusting transaction adjusts the sender's vault, perhaps by way of the Stability
Pool. -/
theorem transact_adjustment (hsigned : t.Signed d) (hop : t.operation.Adjusts)
    (h : transact d t s = .ok s') :
    ∃ value adj s₁ sender, t.adjustment d s = .ok (value, adj, s₁) ∧ SameVaults d s s₁ ∧
      sender ≠ d.activePool ∧ sender ≠ d.defaultPool ∧
      adjustVaultInternal d t.block sender value t.sender adj s₁ = .ok s' := by
  obtain ⟨hsender, -⟩ := hsigned
  have hactive := hsender.ne d.activePool_mem
  have hdefault := hsender.ne d.defaultPool_mem
  obtain ⟨block, sender, msgValue, operation⟩ := t
  cases operation with
  | addColl upperHint lowerHint =>
    simp only [transact, payable, bind_ok] at h
    obtain ⟨s₁, hsend, h⟩ := h
    exact ⟨_, _, s₁, sender, by simp [Transaction.adjustment, hsend],
      .transferRBTC hactive d.borrowerOperations_ne_activePool hsend, hactive, hdefault, h⟩
  | adjustVault a =>
    simp only [transact, payable, bind_ok] at h
    obtain ⟨s₁, hsend, h⟩ := h
    exact ⟨_, _, s₁, sender, by simp [Transaction.adjustment, hsend],
      .transferRBTC hactive d.borrowerOperations_ne_activePool hsend, hactive, hdefault, h⟩
  | withdrawColl => exact ⟨_, _, s, sender, rfl, .refl d s, hactive, hdefault, nonPayable_ok h⟩
  | withdrawBPD => exact ⟨_, _, s, sender, rfl, .refl d s, hactive, hdefault, nonPayable_ok h⟩
  | repayBPD => exact ⟨_, _, s, sender, rfl, .refl d s, hactive, hdefault, nonPayable_ok h⟩
  | withdrawRBTCGainToVault =>
    have h := nonPayable_ok h
    rw [StabilityPool.withdrawRBTCGainToVault_eq] at h
    simp only [bind_ok, Prod.exists] at h
    obtain ⟨gain, s₁, huntil, h⟩ := h
    exact ⟨gain, _, s₁, d.stabilityPool, by simp [Transaction.adjustment, huntil],
      StabilityPool.withdrawRBTCGainUntilMove_same huntil, d.stabilityPool_ne_activePool,
      d.stabilityPool_ne_defaultPool, h⟩
  | _ => exact hop.elim

end MoneyProtocol
