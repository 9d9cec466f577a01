import MoneyProtocol.Sdk.Agreement

/-!
# The checks that a vault change has to pass

The requirements of BorrowerOperations on ratios, debt and balances, taken out of the calls that
make them. A call that succeeds has passed them.
-/

namespace MoneyProtocol.Sdk.Frontend

open Outcome Decimal BorrowerOperations MoneypBase MoneypMath

variable {d : Deployment} {s s' : State} {block : Block} {borrower : Address}
  {change : VaultChange} {rate price value amount maxFee : ℕ} {adj : Adjustment}

/-- The net debt of a loan that is charged this rate. -/
def netDebtOf (waived : Bool) (rate amount : ℕ) : Outcome ℕ :=
  if waived then return amount
  else do
    let BPDFee ← VaultManager.calcBorrowingFee rate amount
    SafeMath.add amount BPDFee

/-- The checks of `openVault` on debt and ratios. -/
def openVaultChecks (rate msgValue BPDAmount price : ℕ) (s : State) : Outcome Unit := do
  let isRecoveryMode ← checkRecoveryMode price s
  let netDebt ← netDebtOf isRecoveryMode rate BPDAmount
  requireAtLeastMinNetDebt netDebt
  let compositeDebt ← getCompositeDebt netDebt
  let ICR ← computeCR msgValue compositeDebt price
  requireValidOpening isRecoveryMode ICR msgValue compositeDebt price s

def asAdjustment (p : PopulatedAdjustment) : Adjustment where
  collWithdrawal := p.collWithdrawal
  BPDChange := p.BPDChange
  isDebtIncrease := p.isDebtIncrease
  upperHint := 0
  lowerHint := 0
  maxFeePercentage := 0

/-- The checks of `adjustVault` on ratios, debt and balance; they do not look at the hints and the
maximum fee. -/
def adjustVaultChecks (borrower : Address) (vault : Vault) (rate price : ℕ)
    (p : PopulatedAdjustment) (s : State) : Outcome Unit := do
  let isRecoveryMode ← checkRecoveryMode price s
  let (collChange, isCollIncrease) := getCollChange p.value p.collWithdrawal
  let netDebtChange ← netDebtOf (isRecoveryMode || !p.isDebtIncrease) rate p.BPDChange
  let oldICR ← computeCR vault.collateral vault.debt price
  let newICR ← getNewICRFromVaultChange vault.collateral vault.debt collChange isCollIncrease
    netDebtChange p.isDebtIncrease price
  requireValidAdjustmentInCurrentMode isRecoveryMode p.collWithdrawal p.isDebtIncrease oldICR
    newICR collChange isCollIncrease netDebtChange price s
  requireValidRepayment (asAdjustment p) borrower vault.debt netDebtChange s

/-- The checks of `closeVault` on the mode, the balance and the total ratio. -/
def closeVaultChecks (borrower : Address) (vault : Vault) (price : ℕ) (s : State) :
    Outcome Unit := do
  requireNotInRecoveryMode price s
  let netDebt ← SafeMath.sub vault.debt BPD_GAS_COMPENSATION
  requireSufficientBPDBalance borrower netDebt s
  let newTCR ← getNewTCRFromVaultChange vault.collateral false vault.debt false price s
  requireNewTCRisAboveCCR newTCR

/-- The checks of the call that a change is sent as. -/
def contractChecks (borrower : Address) (vault : Vault) (rate price : ℕ) (change : VaultChange)
    (s : State) : Outcome Unit :=
  match change with
  | .creation params => openVaultChecks rate params.depositCollateral params.borrowBPD price s
  | .closure _ => closeVaultChecks borrower vault price s
  | .adjustment params _ => do
    let p ← populateAdjustVault params
    adjustVaultChecks borrower vault rate price p s
  | .invalidCreation _ => .error .invalid

/-- What `openVaultChecks` computes; it fails where SafeMath overflows. -/
def openVaultRatios (rate msgValue BPDAmount price : ℕ) (s : State) : Outcome Unit := do
  let isRecoveryMode ← checkRecoveryMode price s
  let netDebt ← netDebtOf isRecoveryMode rate BPDAmount
  let compositeDebt ← getCompositeDebt netDebt
  let _ICR ← computeCR msgValue compositeDebt price
  if isRecoveryMode then return ()
  else do
    let _newTCR ← getNewTCRFromVaultChange msgValue true compositeDebt true price s
    return ()

def adjustVaultRatios (vault : Vault) (rate price : ℕ) (p : PopulatedAdjustment) (s : State) :
    Outcome Unit := do
  let isRecoveryMode ← checkRecoveryMode price s
  let (collChange, isCollIncrease) := getCollChange p.value p.collWithdrawal
  let netDebtChange ← netDebtOf (isRecoveryMode || !p.isDebtIncrease) rate p.BPDChange
  let _oldICR ← computeCR vault.collateral vault.debt price
  let _newICR ← getNewICRFromVaultChange vault.collateral vault.debt collChange isCollIncrease
    netDebtChange p.isDebtIncrease price
  if isRecoveryMode then return ()
  else do
    let _newTCR ← getNewTCRFromVaultChange collChange isCollIncrease netDebtChange
      p.isDebtIncrease price s
    return ()

def closeVaultRatios (vault : Vault) (price : ℕ) (s : State) : Outcome Unit := do
  let _netDebt ← SafeMath.sub vault.debt BPD_GAS_COMPENSATION
  let _newTCR ← getNewTCRFromVaultChange vault.collateral false vault.debt false price s
  return ()

/-- What the checks of a change compute. -/
def contractRatios (vault : Vault) (rate price : ℕ) (change : VaultChange) (s : State) :
    Outcome Unit :=
  match change with
  | .creation params => openVaultRatios rate params.depositCollateral params.borrowBPD price s
  | .closure _ => closeVaultRatios vault price s
  | .adjustment params _ => do
    let p ← populateAdjustVault params
    adjustVaultRatios vault rate price p s
  | .invalidCreation _ => .error .invalid

theorem netDebtOf_ok {waived : Bool} {amount net : ℕ} (h : netDebtOf waived rate amount = .ok net) :
    net = applyFee (if waived then 0 else rate) amount := by
  unfold netDebtOf at h
  cases waived
  · simp only [Bool.false_eq_true, if_false, VaultManager.calcBorrowingFee, bind_ok,
      SafeMath.mul_ok, SafeMath.div_ok, SafeMath.add_ok] at h
    obtain ⟨_, ⟨_, ⟨-, rfl⟩, -, rfl⟩, -, rfl⟩ := h
    rw [if_neg Bool.false_ne_true, applyFee_eq]
  · rw [if_pos rfl] at h
    rw [if_pos rfl, applyFee_zero]
    exact (pure_ok.mp h).symm

/-- The fee that a call charges. -/
theorem netDebtOf_charged {waived : Bool} {net : ℕ}
    (h : chargeBorrowingFee d block waived amount maxFee s = .ok (net, s')) :
    netDebtOf waived (normalBorrowingRate block.timestamp s) amount = .ok net := by
  cases waived with
  | true =>
    rw [netDebtOf, if_pos rfl, (chargeBorrowingFee_waived h).1]
    rfl
  | false =>
    simp only [chargeBorrowingFee, triggerBorrowingFee, VaultManager.decayBaseRateFromBorrowing,
      VaultManager.getBorrowingFee, VaultManager.getBorrowingRate, VaultManager.calcBorrowingRate,
      VaultManager.calcBorrowingFee, Bool.false_eq_true, if_false, bind_ok, pure_ok,
      SafeMath.add_ok, SafeMath.mul_ok, SafeMath.div_ok, Prod.exists, Prod.mk.injEq] at h
    obtain ⟨_, _, ⟨s₁, ⟨rate, hrate, _, -, hupdate⟩, _, ⟨_, ⟨_, ⟨-, rfl⟩, rfl⟩, _, ⟨hmul, rfl⟩, -,
      rfl⟩, _, -, _, -, _, -, rfl, rfl⟩, _, ⟨hadd, rfl⟩, rfl, rfl⟩ := h
    obtain ⟨-, rfl⟩ := VaultManager.calcDecayedBaseRate_ok hrate
    obtain rfl := VaultManager.updateLastFeeOpTime_eq hupdate
    simp only [netDebtOf, VaultManager.calcBorrowingFee, Bool.false_eq_true, if_false, bind_ok,
      SafeMath.mul_ok, SafeMath.div_ok, SafeMath.add_ok]
    exact ⟨_, ⟨_, ⟨hmul, rfl⟩, DECIMAL_PRECISION_pos, rfl⟩, hadd, rfl⟩

theorem getNewTCR_of_system {collChange debtChange : ℕ} {collIn debtIn : Bool}
    (hsystem : s'.system = s.system) :
    getNewTCRFromVaultChange collChange collIn debtChange debtIn price s' =
      getNewTCRFromVaultChange collChange collIn debtChange debtIn price s := by
  simp only [State.system, Prod.mk.injEq] at hsystem
  simp only [getNewTCRFromVaultChange, getEntireSystemColl, getEntireSystemDebt, SafeMath.add,
    hsystem.1, hsystem.2]

theorem checkRecoveryMode_of_system (hsystem : s'.system = s.system) :
    checkRecoveryMode price s' = checkRecoveryMode price s := by
  simp only [State.system, Prod.mk.injEq] at hsystem
  simp only [checkRecoveryMode, getTCR, getEntireSystemColl, getEntireSystemDebt, SafeMath.add,
    hsystem.1, hsystem.2]

/-- The vault of the borrower once its pending rewards have been applied. -/
def collectedVault (borrower : Address) (s : State) : Vault :=
  ⟨s.book.entireColl borrower, s.book.appliedDebt borrower⟩

theorem openVault_checked {upperHint lowerHint : Address}
    (h : openVault d block borrower value maxFee amount upperHint lowerHint s = .ok s') :
    ∃ price s₀, PriceFeed.fetchPrice block s = .ok (price, s₀) ∧
      openVaultChecks (normalBorrowingRate block.timestamp s) value amount price s = .ok () := by
  simp only [openVault, bind_ok, Prod.exists] at h
  obtain ⟨price, s₀, hprice, isRecoveryMode, hmode, _, -, _, -, net, s₁, hfee, _, hmin, composite,
    hcomposite, _, -, ICR, hICR, _, -, _, hvalid, -⟩ := h
  refine ⟨price, s₀, hprice, ?_⟩
  have hfetched := PriceFeed.fetchPrice_system hprice
  have hrate : normalBorrowingRate block.timestamp s₀ = normalBorrowingRate block.timestamp s := by
    obtain ⟨_, rfl⟩ := PriceFeed.fetchPrice_ok hprice
    rfl
  have hcharged := netDebtOf_charged hfee
  rw [hrate] at hcharged
  rw [checkRecoveryMode_of_system hfetched] at hmode
  have hTCR : getNewTCRFromVaultChange value true composite true price s₁ =
      getNewTCRFromVaultChange value true composite true price s :=
    getNewTCR_of_system ((chargeBorrowingFee_system hfee).trans hfetched)
  simp only [openVaultChecks, bind_ok]
  refine ⟨isRecoveryMode, hmode, net, hcharged, (), hmin, composite, hcomposite, ICR, hICR, ?_⟩
  unfold requireValidOpening at hvalid ⊢
  rw [← hTCR]
  exact hvalid

theorem adjustVault_checked (h : adjustVault d block borrower value adj s = .ok s') :
    ∃ price s₀, PriceFeed.fetchPrice block s = .ok (price, s₀) ∧
      adjustVaultChecks borrower (collectedVault borrower s)
        (normalBorrowingRate block.timestamp s) price
        ⟨value, adj.collWithdrawal, adj.BPDChange, adj.isDebtIncrease⟩ s = .ok () := by
  simp only [adjustVault, adjustVaultInternal, bind_ok, Prod.exists] at h
  obtain ⟨price, s₀, hprice, isRecoveryMode, hmode, _, -, _, -, _, -, _, -, _, -, s₁, hpending, net,
    s₂, hfee, oldICR, hold, newICR, hnew, _, -, _, hvalid, _, hrepay, -⟩ := h
  refine ⟨price, s₀, hprice, ?_⟩
  have hfetched := PriceFeed.fetchPrice_system hprice
  have hbook : s₀.book = s.book := PriceFeed.fetchPrice_book hprice
  have hvault : s₂.vault borrower = s₁.vault borrower :=
    congrFun (congrArg Book.vaults (chargeBorrowingFee_book hfee)) borrower
  have hcoll : (s₂.vault borrower).coll = (collectedVault borrower s).collateral := by
    rw [hvault, applyPendingRewards_coll hpending, hbook]
    rfl
  have hdebt : (s₂.vault borrower).debt = (collectedVault borrower s).debt := by
    rw [hvault, VaultManager.applyPendingRewards_debt hpending, hbook]
    rfl
  have hsystem : s₂.system = s.system := by
    rw [chargeBorrowingFee_system hfee, VaultManager.applyPendingRewards_system hpending, hfetched]
  have hrate : normalBorrowingRate block.timestamp s₁ = normalBorrowingRate block.timestamp s := by
    rw [applyPendingRewards_rate hpending]
    obtain ⟨_, rfl⟩ := PriceFeed.fetchPrice_ok hprice
    rfl
  have hcharged := netDebtOf_charged hfee
  rw [hrate] at hcharged
  rw [checkRecoveryMode_of_system hfetched] at hmode
  rw [hcoll, hdebt] at hold hnew
  rw [hdebt] at hrepay
  have hvalid' : requireValidAdjustmentInCurrentMode isRecoveryMode adj.collWithdrawal
      adj.isDebtIncrease oldICR newICR (getCollChange value adj.collWithdrawal).1
      (getCollChange value adj.collWithdrawal).2 net price s = .ok () := by
    unfold requireValidAdjustmentInCurrentMode at hvalid ⊢
    rw [← getNewTCR_of_system hsystem]
    exact hvalid
  simp only [adjustVaultChecks, bind_ok]
  refine ⟨isRecoveryMode, hmode, net, hcharged, oldICR, hold, newICR, hnew, (), hvalid', ?_⟩
  unfold requireValidRepayment at hrepay ⊢
  by_cases hrepays : adj.isDebtIncrease = false ∧ adj.BPDChange > 0
  · rw [if_pos hrepays] at hrepay
    have hwaived : (isRecoveryMode || !adj.isDebtIncrease) = true := by
      rw [hrepays.1, Bool.not_false, Bool.or_true]
    rw [hwaived] at hfee
    obtain ⟨-, rfl⟩ := chargeBorrowingFee_waived hfee
    have hbalance : s₂.bpdToken = s.bpdToken := by
      rw [bpdToken_of_aside (VaultManager.applyPendingRewards_aside hpending),
        bpdToken_of_aside (PriceFeed.fetchPrice_aside hprice)]
    rw [requireSufficientBPDBalance, hbalance] at hrepay
    exact (if_pos hrepays).trans hrepay
  · exact if_neg hrepays

theorem closeVault_checked (h : BorrowerOperations.closeVault d block borrower s = .ok s') :
    ∃ price s₀, PriceFeed.fetchPrice block s = .ok (price, s₀) ∧
      closeVaultChecks borrower (collectedVault borrower s) price s = .ok () := by
  simp only [BorrowerOperations.closeVault, bind_ok, Prod.exists] at h
  obtain ⟨_, -, price, s₀, hprice, _, hmode, s₁, hpending, net, hnet, _, hbalance, newTCR, hTCR, _,
    hvalid, -⟩ := h
  refine ⟨price, s₀, hprice, ?_⟩
  have hfetched := PriceFeed.fetchPrice_system hprice
  have hbook : s₀.book = s.book := PriceFeed.fetchPrice_book hprice
  have hsystem : s₁.system = s.system :=
    (VaultManager.applyPendingRewards_system hpending).trans hfetched
  have hcoll : (s₁.vault borrower).coll = (collectedVault borrower s).collateral := by
    rw [applyPendingRewards_coll hpending, hbook]
    rfl
  have hdebt : (s₁.vault borrower).debt = (collectedVault borrower s).debt := by
    rw [VaultManager.applyPendingRewards_debt hpending, hbook]
    rfl
  have htokens : s₁.bpdToken = s.bpdToken := by
    rw [bpdToken_of_aside (VaultManager.applyPendingRewards_aside hpending),
      bpdToken_of_aside (PriceFeed.fetchPrice_aside hprice)]
  rw [requireNotInRecoveryMode, checkRecoveryMode_of_system hfetched] at hmode
  rw [requireSufficientBPDBalance, htokens] at hbalance
  rw [hdebt] at hnet
  rw [hcoll, hdebt, getNewTCR_of_system hsystem] at hTCR
  simp only [closeVaultChecks, requireNotInRecoveryMode, requireSufficientBPDBalance, bind_ok]
  exact ⟨(), bind_ok.mp hmode, net, hnet, (), hbalance, newTCR, hTCR, hvalid⟩

/-- The transaction that a change is sent as. -/
def Sends (t : Transaction) (change : VaultChange) : Prop :=
  match change, t.operation with
  | .creation params, .openVault _ BPDAmount _ _ =>
    t.value = params.depositCollateral ∧ BPDAmount = params.borrowBPD
  | .closure _, .closeVault => True
  | .adjustment params _, .adjustVault adj => populateAdjustVault params =
    .ok ⟨t.value, adj.collWithdrawal, adj.BPDChange, adj.isDebtIncrease⟩
  | _, _ => False

/-- A change that the contracts accept has passed the checks. -/
theorem accepted_checked {t : Transaction} {s₀ : State} (hsends : Sends t change)
    (hprice : PriceFeed.fetchPrice t.block s = .ok (price, s₀)) (h : transact d t s = .ok s') :
    contractChecks t.sender (collectedVault t.sender s)
      (normalBorrowingRate t.block.timestamp s) price change s = .ok () := by
  obtain ⟨block, sender, value, operation⟩ := t
  cases change with
  | invalidCreation vault => exact hsends.elim
  | creation params =>
    cases operation with
    | openVault maxFee amount upperHint lowerHint =>
      obtain ⟨rfl, rfl⟩ : value = params.depositCollateral ∧ amount = params.borrowBPD := hsends
      simp only [transact, payable, bind_ok] at h
      obtain ⟨s₁, hsend, h⟩ := h
      obtain ⟨-, hs₁⟩ := transferRBTC_ok.mp hsend
      obtain ⟨price', _, hprice', hchecks⟩ := openVault_checked h
      obtain rfl : price' = price := PriceFeed.fetchPrice_same (by rw [← hs₁]) hprice hprice'
      subst hs₁
      exact hchecks
    | _ => exact hsends.elim
  | closure params =>
    cases operation with
    | closeVault =>
      simp only [transact, nonPayable, bind_ok] at h
      obtain ⟨_, -, h⟩ := h
      obtain ⟨price', _, hprice', hchecks⟩ := closeVault_checked h
      obtain rfl : price' = price := PriceFeed.fetchPrice_same rfl hprice hprice'
      exact hchecks
    | _ => exact hsends.elim
  | adjustment params setToZero =>
    cases operation with
    | adjustVault adj =>
      simp only [transact, payable, bind_ok] at h
      obtain ⟨s₁, hsend, h⟩ := h
      obtain ⟨-, hs₁⟩ := transferRBTC_ok.mp hsend
      obtain ⟨price', _, hprice', hchecks⟩ := adjustVault_checked h
      obtain rfl : price' = price := PriceFeed.fetchPrice_same (by rw [← hs₁]) hprice hprice'
      subst hs₁
      exact bind_ok.mpr ⟨_, hsends, hchecks⟩
    | _ => exact hsends.elim

end MoneyProtocol.Sdk.Frontend
