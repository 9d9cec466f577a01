import MoneyProtocol.Book.Liquidation

/-!
# Every transaction moves the book

A successful transaction is a sequence of moves of the book. Which of the delicate moves it
makes can be told before it runs: whose vault it adjusts, where a redemption runs out, and
what a liquidation leaves to be redistributed.
-/

namespace MoneyProtocol

open Outcome Book VaultManager

variable {d : Deployment} {s s' : State} {t : Transaction} {P : Policy}

/-- The transaction restakes a vault whose pending debt has not been applied. -/
def Transaction.RestakesStale (t : Transaction) (s : State) : Prop :=
  match t.operation with
  | .addColl _ _ | .withdrawColl _ _ _ | .withdrawBPD _ _ _ _ | .repayBPD _ _ _ | .adjustVault _
  | .withdrawRBTCGainToVault _ _ => s.book.Stale t.sender
  | .redeemCollateral BPDamount hints maxIterations _ =>
    RedemptionRestakesStale t.block BPDamount hints maxIterations s
  | _ => False

/-- The transaction sets a stake for `coll`: a vault that it opens, adjusts or redeems in part
will hold that much collateral. -/
def Transaction.Stakes (t : Transaction) (s : State) (coll : ℕ) : Prop :=
  let held := s.book.entireColl t.sender
  match t.operation with
  | .openVault _ _ _ _ => coll = (s.vault t.sender).coll + t.value
  | .addColl _ _ => coll = BorrowerOperations.collAfter held t.value 0
  | .adjustVault a => coll = BorrowerOperations.collAfter held t.value a.collWithdrawal
  | .withdrawColl collWithdrawal _ _ => coll = BorrowerOperations.collAfter held 0 collWithdrawal
  | .withdrawBPD _ _ _ _ | .repayBPD _ _ _ => coll = BorrowerOperations.collAfter held 0 0
  | .withdrawRBTCGainToVault _ _ => coll = BorrowerOperations.collAfter held
      (amount (StabilityPool.getDepositorRBTCGain t.sender s)) 0
  | .redeemCollateral BPDamount hints maxIterations _ =>
    RedemptionStakes t.block BPDamount hints maxIterations s coll
  | _ => False

/-- The loop of a liquidation, up to its settlement. -/
def Transaction.liquidationLoop (d : Deployment) (t : Transaction) (s : State) :
    Outcome LiquidationLoop :=
  match t.operation with
  | .liquidate borrower => batchLiquidateVaultsLoop d t.block [borrower] s
  | .liquidateVaults n => liquidateVaultsLoop d t.block n s
  | .batchLiquidateVaults vaultArray => batchLiquidateVaultsLoop d t.block vaultArray s
  | _ => .error .invalid

/-- The transaction keeps to the policy. -/
structure Transaction.Keeps (P : Policy) (d : Deployment) (t : Transaction) (s : State) : Prop where
  fresh : P.fresh → ¬t.RestakesStale s
  redistribute : ∀ l, t.liquidationLoop d s = .ok l → Allows P l
  stake : ∀ coll, t.Stakes s coll → s.book.AllowsStake P coll

theorem Transaction.keeps_any : t.Keeps .any d s :=
  ⟨fun h => h.elim, fun _ _ _ => trivial, fun _ _ => trivial⟩

theorem payable_book {f : State → Outcome State}
    (hf : ∀ s₁, s₁.book = s.book → f s₁ = .ok s' → Moves P s₁.book s'.book)
    (h : payable d t f s = .ok s') : Moves P s.book s'.book := by
  simp only [payable, bind_ok] at h
  obtain ⟨s₁, hsend, h⟩ := h
  have h₁ := transferRBTC_book hsend
  rw [← h₁]
  exact hf s₁ h₁ h

theorem StabilityPool.withdrawRBTCGainToVault_moves {block : Block}
    {sender upperHint lowerHint : Address} (hfresh : P.fresh → ¬s.book.Stale sender)
    (hallowed : s.book.AllowsStake P (BorrowerOperations.collAfter (s.book.entireColl sender)
      (amount (getDepositorRBTCGain sender s)) 0))
    (h : withdrawRBTCGainToVault d block sender upperHint lowerHint s = .ok s') :
    Moves P s.book s'.book := by
  simp only [withdrawRBTCGainToVault, bind_ok] at h
  obtain ⟨_, -, _, -, _, -, _, hissue, gain, hgain, _, -, _, -, _, hpay, _, -, _, htake, s₁, hsend,
    h⟩ := h
  have h₁ : s₁.book = s.book := by
    rw [transferRBTC_book hsend, takeRBTC_book htake, updateDepositAndSnapshots_bookkeeping.book,
      updateFrontEndStakeAndSnapshots_bookkeeping.book, payOutMPGains_book hpay,
      triggerMPIssuance_book hissue]
  have hread : getDepositorRBTCGain sender s = .ok gain := by
    obtain ⟨_, _, _, rfl⟩ := triggerMPIssuance_ok hissue
    exact hgain
  rw [hread, amount_ok, ← h₁] at hallowed
  rw [← h₁] at hfresh ⊢
  exact BorrowerOperations.adjustVaultInternal_moves d.stabilityPool_ne_defaultPool hfresh hallowed
    h

/-- The moves of a transaction. -/
theorem transact_moves {zs : List Address} (hsigned : t.Signed d)
    (hlinked : SortedVaults.Linked s.sortedVaults zs)
    (hlength : s.book.vaultOwners.length < 2 ^ 128) (hP : t.Keeps P d s)
    (h : transact d t s = .ok s') : Moves P s.book s'.book := by
  obtain ⟨hsender, -⟩ := hsigned
  have hne := hsender.ne d.defaultPool_mem
  have hsame {s' : State} (h : s'.book = s.book) : Moves P s.book s'.book := by rw [h]
  obtain ⟨hfresh, hredistribute, hstake⟩ := hP
  obtain ⟨block, sender, value, operation⟩ := t
  -- an adjustment paid with `value` runs in a state with the same book
  have hpaid {s₁ : State} {adj : BorrowerOperations.Adjustment} (h₁ : s₁.book = s.book)
      (hallowed : s.book.AllowsStake P
        (BorrowerOperations.collAfter (s.book.entireColl sender) value adj.collWithdrawal)) :
      s₁.book.AllowsStake P
        (BorrowerOperations.collAfter (s₁.book.entireColl sender) value adj.collWithdrawal) := by
    rw [h₁]
    exact hallowed
  cases operation with
  | openVault =>
    exact payable_book
      (fun s₁ h₁ h => .single (BorrowerOperations.openVault_move (h₁ ▸ hlength) (by
        have hvault : s₁.vault sender = s.vault sender := congrFun (congrArg Book.vaults h₁) sender
        rw [h₁, hvault]
        exact hstake _ rfl) h)) h
  | addColl =>
    exact payable_book (fun s₁ h₁ h => BorrowerOperations.adjustVaultInternal_moves hne
      (h₁ ▸ hfresh) (hpaid h₁ (by exact hstake _ rfl)) h) h
  | adjustVault =>
    exact payable_book (fun s₁ h₁ h => BorrowerOperations.adjustVaultInternal_moves hne
      (h₁ ▸ hfresh) (hpaid h₁ (by exact hstake _ rfl)) h) h
  | withdrawColl =>
    exact BorrowerOperations.adjustVaultInternal_moves hne hfresh (by exact hstake _ rfl)
      (nonPayable_ok h)
  | withdrawBPD =>
    exact BorrowerOperations.adjustVaultInternal_moves hne hfresh (by exact hstake _ rfl)
      (nonPayable_ok h)
  | repayBPD =>
    exact BorrowerOperations.adjustVaultInternal_moves hne hfresh (by exact hstake _ rfl)
      (nonPayable_ok h)
  | closeVault => exact BorrowerOperations.closeVault_moves hne (nonPayable_ok h)
  | claimCollateral => exact hsame (CollSurplusPool.claimColl_book (nonPayable_ok h))
  | liquidate => exact liquidate_moves hne hredistribute (nonPayable_ok h)
  | liquidateVaults => exact liquidateVaults_moves hne hredistribute (nonPayable_ok h)
  | batchLiquidateVaults => exact batchLiquidateVaults_moves hne hredistribute (nonPayable_ok h)
  | redeemCollateral => exact redeemCollateral_moves hlinked hne hfresh hstake (nonPayable_ok h)
  | provideToSP => exact hsame (StabilityPool.provideToSP_book (nonPayable_ok h))
  | withdrawFromSP => exact hsame (StabilityPool.withdrawFromSP_book (nonPayable_ok h))
  | withdrawRBTCGainToVault =>
    exact StabilityPool.withdrawRBTCGainToVault_moves hfresh (by exact hstake _ rfl)
      (nonPayable_ok h)
  | registerFrontEnd =>
    have h := nonPayable_ok h
    simp only [StabilityPool.registerFrontEnd, bind_ok, pure_ok] at h
    obtain ⟨_, -, _, -, _, -, rfl⟩ := h
    exact .refl
  | transfer => exact hsame (BPDToken.transfer_book (nonPayable_ok h))
  | approve => exact hsame (BPDToken._approve_book (nonPayable_ok h))
  | transferFrom => exact hsame (BPDToken.transferFrom_book (nonPayable_ok h))
  | increaseAllowance =>
    have h := nonPayable_ok h
    simp only [BPDToken.increaseAllowance, bind_ok] at h
    obtain ⟨_, -, h⟩ := h
    exact hsame (BPDToken._approve_book h)
  | decreaseAllowance =>
    have h := nonPayable_ok h
    simp only [BPDToken.decreaseAllowance, bind_ok] at h
    obtain ⟨_, -, h⟩ := h
    exact hsame (BPDToken._approve_book h)
  | permit => exact hsame (BPDToken.permit_book (nonPayable_ok h))
  | stake => exact hsame (MPStaking.stake_book (nonPayable_ok h))
  | unstake => exact hsame (MPStaking.unstake_book (nonPayable_ok h))
  | fetchPrice =>
    simp only [transact] at h
    obtain ⟨⟨_, _⟩, hprice, rfl⟩ := map_ok.mp (nonPayable_ok h)
    exact hsame (PriceFeed.fetchPrice_book hprice)
  | sendRBTC => exact hsame (callWithValue_book (hsender.ne d.activePool_mem) h)

end MoneyProtocol
