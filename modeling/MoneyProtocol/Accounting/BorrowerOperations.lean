import MoneyProtocol.Accounting.Vaults

/-!
# The borrower operations balance

Opening, adjusting and closing a vault leave the ledger as it was: every amount a record
gains is booked by the pool and the token, and the borrowing fee is minted for the stakers
against the debt of the borrower.
-/

namespace MoneyProtocol.BorrowerOperations

open Outcome PointSum MoneypBase

variable {d : Deployment} {s s' : State} {block : Block} {a : Address} {v w : ℕ}

theorem activePoolAddColl_ledger (h : activePoolAddColl d v s = .ok s') :
    s'.ledger d = s.ledger d + entry .coll v := by
  simpa [backed_borrowerOperations] using callWithValue_ledger d.borrowerOperations_ne_activePool h

theorem withdrawBPD_ledger (h : withdrawBPD a v w s = .ok s') :
    s'.ledger d = s.ledger d + entry .debt w - entry .supply w + entry .supply v +
      held d a v := by
  simp only [withdrawBPD, bind_ok] at h
  obtain ⟨_, hdebt, h⟩ := h
  rw [BPDToken.mint_ledger h, ActivePool.increaseBPDDebt_ledger hdebt]

theorem repayBPD_ledger (h : repayBPD a v s = .ok s') :
    s'.ledger d = s.ledger d - entry .debt v - held d a v := by
  simp only [repayBPD, bind_ok] at h
  obtain ⟨_, hdebt, h⟩ := h
  rw [BPDToken.burn_ledger h, ActivePool.decreaseBPDDebt_ledger hdebt]
  abel

theorem triggerBorrowingFee_ledger {amount maxFee fee : ℕ}
    (h : triggerBorrowingFee d block amount maxFee s = .ok (fee, s')) :
    s'.ledger d = s.ledger d + entry .supply fee := by
  simp only [triggerBorrowingFee, bind_ok, pure_ok, Prod.mk.injEq] at h
  obtain ⟨_, hrate, _, -, _, -, _, hshare, _, hmint, rfl, rfl⟩ := h
  obtain ⟨_, _, rfl⟩ := VaultManager.decayBaseRateFromBorrowing_ok hrate
  obtain ⟨_, rfl⟩ := MPStaking.increaseF_BPD_ok hshare
  rw [BPDToken.mint_ledger hmint, held_mpStaking, add_zero]
  rfl

/-- The fee is the part of the net debt that the borrower does not receive. -/
theorem chargeBorrowingFee_ledger {waived : Bool} {amount maxFee netDebt : ℕ}
    (h : chargeBorrowingFee d block waived amount maxFee s = .ok (netDebt, s')) :
    s'.ledger d = s.ledger d + entry .supply netDebt - entry .supply amount := by
  simp only [chargeBorrowingFee] at h
  split_ifs at h
  · simp only [pure_ok, Prod.mk.injEq] at h
    obtain ⟨rfl, rfl⟩ := h
    abel
  · simp only [bind_ok, pure_ok, Prod.exists, Prod.mk.injEq, SafeMath.add_ok] at h
    obtain ⟨_, _, hfee, _, ⟨-, rfl⟩, rfl, rfl⟩ := h
    rw [triggerBorrowingFee_ledger hfee, Nat.cast_add, entry_add]
    abel

theorem chargeBorrowingFee_waived {amount maxFee netDebt : ℕ}
    (h : chargeBorrowingFee d block true amount maxFee s = .ok (netDebt, s')) :
    netDebt = amount ∧ s' = s := by
  simp [chargeBorrowingFee] at h
  exact ⟨h.1.symm, h.2.symm⟩

theorem insertSorted_ok {NICR : ℕ} {prevId nextId : Address}
    (h : insertSorted d a NICR prevId nextId s = .ok s') :
    ∃ data, SortedVaults.insert (fun b => VaultManager.getNominalICR b s) d.maxSize a NICR prevId
      nextId s.sortedVaults = .ok data ∧ s' = VaultManager.setSortedVaults data s := by
  simp only [insertSorted, bind_ok, pure_ok] at h
  obtain ⟨data, hdata, rfl⟩ := h
  exact ⟨data, hdata, rfl⟩

theorem reInsertSorted_ok {NICR : ℕ} {prevId nextId : Address}
    (h : reInsertSorted d a NICR prevId nextId s = .ok s') :
    ∃ data, SortedVaults.reInsert (fun b => VaultManager.getNominalICR b s) d.maxSize a NICR
      prevId nextId s.sortedVaults = .ok data ∧ s' = VaultManager.setSortedVaults data s := by
  simp only [reInsertSorted, bind_ok, pure_ok] at h
  obtain ⟨data, hdata, rfl⟩ := h
  exact ⟨data, hdata, rfl⟩

theorem initVault_ledger (h : initVault a v w s = .ok s') :
    s'.ledger d = s.ledger d - entry .coll v - entry .debt w := by
  simp only [initVault, bind_ok] at h
  obtain ⟨_, hcoll, _, hdebt, h⟩ := h
  rw [VaultManager.updateStakeAndTotalStakes_ledger h, VaultManager.updateVaultRewardSnapshots,
    VaultManager.setRewardSnapshot_ledger, VaultManager.increaseVaultDebt_ledger hdebt,
    VaultManager.increaseVaultColl_ledger hcoll, VaultManager.setVaultStatus,
    VaultManager.setVault_ledger_same] <;> rfl

theorem openVault_ledger {maxFee amount : ℕ} {upperHint lowerHint : Address}
    (ha : d.External a) (h : openVault d block a v maxFee amount upperHint lowerHint s = .ok s') :
    s'.ledger d = s.ledger d := by
  simp only [openVault, bind_ok, Prod.exists] at h
  obtain ⟨_, _, hprice, _, -, _, -, _, -, netDebt, _, hfee, _, -, composite, hcomposite, _, -, _, -,
    _, -, _, -, _, hinit, _, hinsert, _, howner, _, hcoll, _, hloan, hreserve⟩ := h
  obtain ⟨_, -, rfl⟩ := insertSorted_ok hinsert
  simp only [getCompositeDebt, SafeMath.add_ok] at hcomposite
  obtain ⟨-, rfl⟩ := hcomposite
  rw [withdrawBPD_ledger hreserve, withdrawBPD_ledger hloan, activePoolAddColl_ledger hcoll,
    VaultManager.addVaultOwnerToArray_ledger howner, VaultManager.setSortedVaults_ledger,
    initVault_ledger hinit, chargeBorrowingFee_ledger hfee, PriceFeed.fetchPrice_ledger hprice,
    held_external ha, held_gasPool, Nat.cast_add, entry_add]
  abel

theorem updateVaultFromAdjustment_ledger {collIncrease debtIncrease : Bool}
    (h : updateVaultFromAdjustment a v collIncrease w debtIncrease s = .ok s') :
    s'.ledger d = s.ledger d + (if collIncrease then - entry .coll v else entry .coll v) +
      if debtIncrease then - entry .debt w else entry .debt w := by
  simp only [updateVaultFromAdjustment, bind_ok] at h
  obtain ⟨t, hcoll, hdebt⟩ := h
  have htake : t.ledger d = s.ledger d +
      if collIncrease then - entry .coll v else entry .coll v := by
    cases collIncrease
    · exact VaultManager.decreaseVaultColl_ledger hcoll
    · exact (VaultManager.increaseVaultColl_ledger hcoll).trans (sub_eq_add_neg _ _)
  cases debtIncrease
  · rw [VaultManager.decreaseVaultDebt_ledger hdebt, htake]
    rfl
  · rw [VaultManager.increaseVaultDebt_ledger hdebt, htake, sub_eq_add_neg]
    rfl

theorem moveTokensAndRBTCfromAdjustment_ledger {collIncrease debtIncrease : Bool} {net : ℕ}
    (ha : d.External a ∨ a = d.stabilityPool ∧ w = 0)
    (h : moveTokensAndRBTCfromAdjustment d a v collIncrease w debtIncrease net s = .ok s') :
    s'.ledger d = s.ledger d + (if collIncrease then entry .coll v else - entry .coll v) +
      if debtIncrease then entry .debt net - entry .supply net + entry .supply w
      else - entry .debt w := by
  have hheld : held d a w = 0 := by
    rcases ha with ha | ⟨-, rfl⟩
    · exact held_external ha
    · exact held_zero
  have hsurplus : a ≠ d.collSurplusPool := by
    rcases ha with ha | ⟨rfl, -⟩
    · exact ha.ne d.collSurplusPool_mem
    · exact d.stabilityPool_ne_collSurplusPool
  simp only [moveTokensAndRBTCfromAdjustment, bind_ok] at h
  obtain ⟨t, hdebt, hcoll⟩ := h
  have hmove : s'.ledger d = t.ledger d +
      if collIncrease then entry .coll v else - entry .coll v := by
    cases collIncrease
    · exact (ActivePool.sendRBTC_ledger_of_ne hsurplus hcoll).trans (sub_eq_add_neg _ _)
    · exact activePoolAddColl_ledger hcoll
  rw [hmove]
  cases debtIncrease
  · simp only [Bool.false_eq_true, if_false] at hdebt
    rw [repayBPD_ledger hdebt, hheld]
    simp only [Bool.false_eq_true, if_false]
    abel
  · simp only [if_true] at hdebt
    rw [withdrawBPD_ledger hdebt, hheld]
    simp only [if_true]
    abel

theorem adjustVaultInternal_ledger {sender borrower : Address} {value : ℕ} {adj : Adjustment}
    (hsender : d.External sender ∨ sender = d.stabilityPool ∧ adj.BPDChange = 0)
    (h : adjustVaultInternal d block sender value borrower adj s = .ok s') :
    s'.ledger d = s.ledger d := by
  simp only [adjustVaultInternal, bind_ok, Prod.exists] at h
  obtain ⟨_, _, hprice, recovery, -, _, -, _, -, _, -, _, -, _, -, _, hpending, net, _, hfee, _, -,
    _, -, _, -, _, -, _, -, _, hupdate, _, hstake, _, -, _, hinsert, hmove⟩ := h
  obtain ⟨_, -, rfl⟩ := reInsertSorted_ok hinsert
  rw [moveTokensAndRBTCfromAdjustment_ledger hsender hmove, VaultManager.setSortedVaults_ledger,
    VaultManager.updateStakeAndTotalStakes_ledger hstake, updateVaultFromAdjustment_ledger hupdate,
    chargeBorrowingFee_ledger hfee, VaultManager.applyPendingRewards_ledger hpending,
    PriceFeed.fetchPrice_ledger hprice]
  cases hdebt : adj.isDebtIncrease
  · -- without new debt the fee is waived
    have hwaived : (recovery || !adj.isDebtIncrease) = true := by simp [hdebt]
    rw [hwaived] at hfee
    obtain ⟨rfl, -⟩ := chargeBorrowingFee_waived hfee
    cases (getCollChange value adj.collWithdrawal).2
    · simp only [Bool.false_eq_true, if_false]
      abel
    · simp only [Bool.false_eq_true, if_false, if_true]
      abel
  · cases (getCollChange value adj.collWithdrawal).2
    · simp only [Bool.false_eq_true, if_false, if_true]
      abel
    · simp only [if_true]
      abel

/-- Closing a vault, up to where its reserve is burned; the collateral is left to be sent. -/
def closeVaultUntilReserve (d : Deployment) (block : Block) (msgSender : Address) (s : State) :
    Outcome (ℕ × State) := do
  requireVaultisActive msgSender s
  let (price, s) ← PriceFeed.fetchPrice block s
  requireNotInRecoveryMode price s
  let s ← VaultManager.applyPendingRewards d msgSender s
  let coll := (s.vault msgSender).coll
  let debt := (s.vault msgSender).debt
  let netDebt ← SafeMath.sub debt BPD_GAS_COMPENSATION
  requireSufficientBPDBalance msgSender netDebt s
  let newTCR ← getNewTCRFromVaultChange coll false debt false price s
  requireNewTCRisAboveCCR newTCR
  let s ← VaultManager.removeStake msgSender s
  let s ← VaultManager.closeVault msgSender .closedByOwner s
  let s ← repayBPD msgSender netDebt s
  return (coll, s)

theorem closeVault_eq : closeVault d block a s = (do
    let (coll, s) ← closeVaultUntilReserve d block a s
    let s ← repayBPD d.gasPool BPD_GAS_COMPENSATION s
    ActivePool.sendRBTC d a coll s) := by
  simp [closeVault, closeVaultUntilReserve]

theorem closeVaultUntilReserve_ledger {coll : ℕ} (ha : d.External a)
    (h : closeVaultUntilReserve d block a s = .ok (coll, s')) :
    s'.ledger d = s.ledger d + entry .coll coll + entry .debt BPD_GAS_COMPENSATION +
      entry .reserve BPD_GAS_COMPENSATION := by
  simp only [closeVaultUntilReserve, bind_ok, pure_ok, Prod.exists, Prod.mk.injEq] at h
  obtain ⟨_, -, _, _, hprice, _, -, t, hpending, netDebt, hnet, _, -, _, -, _, -, _, hstake, _,
    hclose, _, hrepay, rfl, rfl⟩ := h
  simp only [SafeMath.sub_ok] at hnet
  obtain ⟨hle, rfl⟩ := hnet
  obtain ⟨hcoll, hdebt⟩ := VaultManager.removeStake_record hstake
  rw [repayBPD_ledger hrepay, VaultManager.closeVault_ledger hclose,
    VaultManager.removeStake_ledger hstake, VaultManager.applyPendingRewards_ledger hpending,
    PriceFeed.fetchPrice_ledger hprice, held_external ha, hcoll, hdebt, Nat.cast_sub hle,
    entry_sub]
  abel

theorem closeVault_ledger (ha : d.External a) (h : closeVault d block a s = .ok s') :
    s'.ledger d = s.ledger d := by
  rw [closeVault_eq] at h
  simp only [bind_ok, Prod.exists] at h
  obtain ⟨coll, s₁, huntil, s₂, hreserve, hsend⟩ := h
  rw [ActivePool.sendRBTC_ledger_of_ne (ha.ne d.collSurplusPool_mem) hsend,
    repayBPD_ledger hreserve, closeVaultUntilReserve_ledger ha huntil, held_gasPool]
  abel

theorem claimCollateral_ledger (ha : d.External a) (h : claimCollateral d a s = .ok s') :
    s'.ledger d = s.ledger d :=
  CollSurplusPool.claimColl_ledger (ha.ne d.activePool_mem) h

end MoneyProtocol.BorrowerOperations
