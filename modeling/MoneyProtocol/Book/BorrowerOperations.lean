import MoneyProtocol.Book.Vaults

/-!
# The borrower operations move the book

Opening a vault is one move. An adjustment collects the vault's rewards and restakes it, and
an owner's closure collects and closes.
-/

namespace MoneyProtocol

open Outcome MoneypMath MoneypBase Book

variable {d : Deployment} {s s' t : State} {block : Block} {a : Address} {v w : ℕ} {P : Policy}

namespace VaultManager

theorem updateStakeAndTotalStakes_book (h : updateStakeAndTotalStakes a s = .ok s') :
    (s.book.vaults a).stake ≤ s.book.totalStakes ∧
      s'.book = { s.book with
        vaults := Function.update s.book.vaults a
          { s.vault a with stake := s.book.newStake (s.vault a).coll }
        totalStakes := s.book.totalStakes - (s.vault a).stake +
          s.book.newStake (s.vault a).coll } := by
  simp only [updateStakeAndTotalStakes, bind_ok, pure_ok, SafeMath.sub_ok, SafeMath.add_ok] at h
  obtain ⟨_, hstake, _, ⟨hle, rfl⟩, _, ⟨-, rfl⟩, rfl⟩ := h
  obtain rfl := computeNewStake_ok hstake
  exact ⟨hle, rfl⟩

theorem addVaultOwnerToArray_book (h : addVaultOwnerToArray a s = .ok s') :
    s'.book = { s.book with
      vaults := Function.update s.book.vaults a
        { s.book.vaults a with arrayIndex := s.book.vaultOwners.length % 2 ^ 128 }
      vaultOwners := s.book.vaultOwners ++ [a] } := by
  simp only [addVaultOwnerToArray, bind_ok, pure_ok, SafeMath.sub_ok, List.length_append,
    List.length_singleton, Nat.add_sub_cancel] at h
  obtain ⟨_, ⟨-, rfl⟩, rfl⟩ := h
  rfl

theorem setSortedVaults_book (data : SortedVaults) (s : State) :
    (setSortedVaults data s).book = { s.book with sortedVaults := data } :=
  rfl

end VaultManager

namespace BorrowerOperations

open VaultManager

theorem initVault_book (h : initVault a v w s = .ok s') :
    (s.book.vaults a).stake ≤ s.book.totalStakes ∧
      s'.book = { s.book with
        vaults := Function.update s.book.vaults a ⟨(s.vault a).debt + w, (s.vault a).coll + v,
          s.book.newStake ((s.vault a).coll + v), .active, (s.vault a).arrayIndex⟩
        totalStakes := s.book.totalStakes - (s.vault a).stake +
          s.book.newStake ((s.vault a).coll + v)
        rewardSnapshots := Function.update s.book.rewardSnapshots a
          ⟨s.book.B_RBTC, s.book.B_BPDDebt⟩ } := by
  simp only [initVault, setVaultStatus, increaseVaultColl, increaseVaultDebt, bind_ok, pure_ok,
    SafeMath.add_ok] at h
  obtain ⟨_, ⟨_, ⟨-, rfl⟩, rfl⟩, _, ⟨_, ⟨-, rfl⟩, rfl⟩, h⟩ := h
  obtain ⟨hle, hbook⟩ := updateStakeAndTotalStakes_book h
  simp only [State.book, updateVaultRewardSnapshots, setRewardSnapshot, setVault, State.vault,
    Function.update_self, Function.update_idem] at hle hbook
  exact ⟨hle, hbook⟩

theorem openVault_move {maxFee amount : ℕ} {upperHint lowerHint : Address}
    (hlength : s.book.vaultOwners.length < 2 ^ 128)
    (hallowed : s.book.AllowsStake P ((s.vault a).coll + v))
    (h : openVault d block a v maxFee amount upperHint lowerHint s = .ok s') :
    Move P s.book s'.book := by
  simp only [openVault, getCompositeDebt, bind_ok, Prod.exists, SafeMath.add_ok] at h
  obtain ⟨_, s₀, hprice, _, -, _, -, _, hinactive, netDebt, s₁, hfee, _, hnet, _, ⟨-, rfl⟩, _, -, _,
    -, NICR, hNICR, _, -, s₂, hinit, s₃, hinsert, s₄, hadd, s₅, hcoll, s₆, hmint, hreserve⟩ := h
  have h₁ : s₁.book = s.book := by
    rw [chargeBorrowingFee_book hfee, PriceFeed.fetchPrice_book hprice]
  obtain ⟨hstake, h₂⟩ := initVault_book hinit
  obtain ⟨data, hdata, rfl⟩ := insertSorted_ok hinsert
  have hv : s₁.vault a = s.book.vaults a := congrFun (congrArg Book.vaults h₁) a
  rw [h₁] at hstake
  rw [h₁, hv] at h₂
  have hfinal : s'.book = s.book.opened a v (netDebt + BPD_GAS_COMPENSATION) data := by
    rw [withdrawBPD_book hreserve, withdrawBPD_book hmint, activePoolAddColl_book hcoll,
      addVaultOwnerToArray_book hadd, setSortedVaults_book, h₂]
    simp only [Book.opened, Function.update_self, Function.update_idem, Nat.mod_eq_of_lt hlength]
  have hreads : s.book.Reads a (fun u => getNominalICR u s₂) := by
    refine reads_of_same (fun u hu => ?_) (fun u hu => ?_) ?_ ?_
    · rw [h₂]
      exact Function.update_of_ne hu _ _
    · rw [h₂]
      exact Function.update_of_ne hu _ _
    · rw [h₂]
    · rw [h₂]
  have hsorted : s₂.sortedVaults = s.book.sortedVaults := congrArg Book.sortedVaults h₂
  rw [← computeNominalCR_ok hNICR, hsorted] at hdata
  have h₀ : s₀.vault a = s.book.vaults a :=
    congrFun (congrArg Book.vaults (PriceFeed.fetchPrice_book hprice)) a
  simp only [requireVaultisNotActive, requireAtLeastMinNetDebt, require_ok, h₀] at hinactive hnet
  rw [hfinal]
  exact .opened hinactive (Nat.add_le_add_right hnet _) hlength hstake hreads hdata hallowed

theorem updateVaultFromAdjustment_book {collIncrease debtIncrease : Bool}
    (h : updateVaultFromAdjustment a v collIncrease w debtIncrease s = .ok s') :
    ∃ coll debt,
      getNewVaultAmounts (s.vault a).coll (s.vault a).debt v collIncrease w debtIncrease =
      .ok (coll, debt) ∧
      s'.book = { s.book with
        vaults := Function.update s.book.vaults a
          { s.vault a with coll := coll, debt := debt } } := by
  simp only [updateVaultFromAdjustment, bind_ok] at h
  obtain ⟨t, hcoll, hdebt⟩ := h
  have ht : ∃ coll, getNewAmount (s.vault a).coll v collIncrease = .ok coll ∧
      t = setVault a { s.vault a with coll := coll } s := by
    cases collIncrease
    · simp only [decreaseVaultColl, Bool.false_eq_true, if_false, bind_ok, pure_ok] at hcoll
      obtain ⟨coll, hcoll, rfl⟩ := hcoll
      exact ⟨coll, hcoll, rfl⟩
    · simp only [increaseVaultColl, if_true, bind_ok, pure_ok] at hcoll
      obtain ⟨coll, hcoll, rfl⟩ := hcoll
      exact ⟨coll, hcoll, rfl⟩
  obtain ⟨coll, hnewColl, rfl⟩ := ht
  have hself : State.vault (setVault a { s.vault a with coll := coll } s) a =
      { s.vault a with coll := coll } := by
    simp [setVault, State.vault]
  have ht : ∃ debt, getNewAmount (s.vault a).debt w debtIncrease = .ok debt ∧
      s' = setVault a { s.vault a with coll := coll, debt := debt }
        (setVault a { s.vault a with coll := coll } s) := by
    cases debtIncrease
    · simp only [decreaseVaultDebt, Bool.false_eq_true, if_false, bind_ok, pure_ok, hself] at hdebt
      obtain ⟨debt, hdebt, rfl⟩ := hdebt
      exact ⟨debt, hdebt, rfl⟩
    · simp only [increaseVaultDebt, if_true, bind_ok, pure_ok, hself] at hdebt
      obtain ⟨debt, hdebt, rfl⟩ := hdebt
      exact ⟨debt, hdebt, rfl⟩
  obtain ⟨debt, hnewDebt, rfl⟩ := ht
  refine ⟨coll, debt, by simp [getNewVaultAmounts, hnewColl, hnewDebt], ?_⟩
  simp [State.book, setVault]

/-- An adjustment does not take the debt of a vault below the minimum. -/
theorem adjusted_minDebt {adj : Adjustment} {debt coll collChange net newColl newDebt : ℕ}
    {collIncrease : Bool} (hnet : adj.isDebtIncrease = false → net = adj.BPDChange)
    (hrepay : requireValidRepayment adj a debt net s = .ok ())
    (hnew : getNewVaultAmounts coll debt collChange collIncrease net adj.isDebtIncrease =
      .ok (newColl, newDebt)) (hmin : minDebt ≤ debt) : minDebt ≤ newDebt := by
  simp only [getNewVaultAmounts, bind_ok, pure_ok, Prod.mk.injEq] at hnew
  obtain ⟨_, -, _, hnewDebt, -, rfl⟩ := hnew
  cases hincrease : adj.isDebtIncrease
  · rw [hincrease] at hnewDebt
    simp only [getNewAmount, Bool.false_eq_true, if_false, SafeMath.sub_ok] at hnewDebt
    obtain ⟨hle, rfl⟩ := hnewDebt
    rw [requireValidRepayment] at hrepay
    by_cases hchange : adj.BPDChange > 0
    · rw [if_pos ⟨hincrease, hchange⟩] at hrepay
      simp only [getNetDebt, requireAtLeastMinNetDebt, bind_ok, SafeMath.sub_ok,
        require_ok] at hrepay
      obtain ⟨_, ⟨hreserve, rfl⟩, _, ⟨-, rfl⟩, _, hleft, -⟩ := hrepay
      have hpos : 0 < MIN_NET_DEBT := by decide
      simp only [minDebt]
      omega
    · have : net = 0 := by
        have := hnet hincrease
        omega
      omega
  · rw [hincrease] at hnewDebt
    simp only [getNewAmount, if_true, SafeMath.add_ok] at hnewDebt
    omega

/-- The collateral of a vault after an adjustment with `value`. -/
def collAfter (coll value collWithdrawal : ℕ) : ℕ :=
  if value ≠ 0 then coll + value else coll - collWithdrawal

theorem getNewVaultAmounts_coll {coll debt value collWithdrawal net newColl newDebt : ℕ}
    {debtIncrease : Bool} (h : getNewVaultAmounts coll debt (getCollChange value collWithdrawal).1
      (getCollChange value collWithdrawal).2 net debtIncrease = .ok (newColl, newDebt)) :
    newColl = collAfter coll value collWithdrawal := by
  simp only [getNewVaultAmounts, bind_ok, pure_ok, Prod.mk.injEq] at h
  obtain ⟨_, hcoll, _, -, rfl, -⟩ := h
  unfold collAfter
  by_cases hvalue : value ≠ 0
  · simp only [getCollChange, getNewAmount, if_pos hvalue, if_true, SafeMath.add_ok] at hcoll ⊢
    exact hcoll.2.symm
  · simp only [getCollChange, getNewAmount, if_neg hvalue, Bool.false_eq_true, if_false,
      SafeMath.sub_ok] at hcoll ⊢
    exact hcoll.2.symm

theorem adjustVaultInternal_moves {sender : Address} {adj : Adjustment}
    (hsender : sender ≠ d.defaultPool) (hfresh : P.fresh → ¬s.book.Stale a)
    (hallowed : s.book.AllowsStake P (collAfter (s.book.entireColl a) v adj.collWithdrawal))
    (h : adjustVaultInternal d block sender v a adj s = .ok s') : Moves P s.book s'.book := by
  simp only [adjustVaultInternal, bind_ok, Prod.exists] at h
  obtain ⟨_, s₀, hprice, recovery, -, _, -, _, -, _, -, _, -, _, -, s₁, hpending, net, s₂, hfee, _,
    -, _, -, _, -, _, -, _, hrepay, s₃, hupdate, s₄, hstake, NICR, hNICR, s₅, hinsert, hmove⟩ := h
  have h₀ := PriceFeed.fetchPrice_book hprice
  have h₂ := chargeBorrowingFee_book hfee
  obtain ⟨coll, debt, hnew, h₃⟩ := updateVaultFromAdjustment_book hupdate
  obtain ⟨hle, h₄⟩ := updateStakeAndTotalStakes_book hstake
  obtain ⟨data, hdata, rfl⟩ := reInsertSorted_ok hinsert
  have hv : s₂.vault a = s₁.book.vaults a := congrFun (congrArg Book.vaults h₂) a
  have hself : s₃.vault a = { s₁.book.vaults a with coll := coll, debt := debt } := by
    have := congrFun (congrArg Book.vaults h₃) a
    rw [hv] at this
    exact this.trans (Function.update_self _ _ _)
  rw [hv, h₂] at h₃
  rw [hself, h₃] at h₄
  have hfinal : s'.book = s₁.book.restaked a coll debt data := by
    rw [moveTokensAndRBTCfromAdjustment_book hsender hmove, setSortedVaults_book, h₄]
    simp [Book.restaked, Book.newStake]
  have hmoves : Moves P s.book s₁.book := by
    rw [← h₀]
    exact applyPendingRewards_moves hpending
  have hreads : s₁.book.Reads a (fun u => getNominalICR u s₄) := by
    refine reads_of_same (fun u hu => ?_) (fun u _ => ?_) ?_ ?_
    · rw [h₄]
      simp [Function.update_of_ne hu]
    all_goals rw [h₄]
  have hsorted : s₄.sortedVaults = s₁.book.sortedVaults := congrArg Book.sortedVaults h₄
  have hNICR' : nominalCR coll debt = NICR := by
    simp only [getNewNominalICRFromVaultChange, hnew, bind_ok, Except.ok.injEq] at hNICR
    obtain ⟨_, rfl, hNICR⟩ := hNICR
    exact computeNominalCR_ok hNICR
  have hdebt : minDebt ≤ (s₁.book.vaults a).debt → minDebt ≤ debt := by
    rw [← hv]
    refine adjusted_minDebt (fun hincrease => ?_) hrepay hnew
    rw [hincrease, Bool.not_false, Bool.or_true] at hfee
    exact (chargeBorrowingFee_waived hfee).1
  have hstake : (s₁.book.vaults a).stake ≤ s₁.book.totalStakes := by
    rw [h₃] at hle
    simpa using hle
  rw [← hNICR', hsorted] at hdata
  rw [hfinal]
  refine hmoves.tail (.restaked (fun hP => ?_) (applyPendingRewards_none hpending) hdebt hstake
    hreads hdata ?_)
  · exact applyPendingRewards_fresh hpending (h₀ ▸ hfresh hP)
  · rw [← h₀] at hallowed
    rw [hv, applyPendingRewards_coll hpending] at hnew
    rw [getNewVaultAmounts_coll hnew]
    exact (applyPendingRewards_allowsStake hpending).mpr hallowed

theorem closeVault_moves (ha : a ≠ d.defaultPool) (h : closeVault d block a s = .ok s') :
    Moves P s.book s'.book := by
  simp only [closeVault, bind_ok, Prod.exists] at h
  obtain ⟨_, -, _, s₀, hprice, _, -, s₁, hpending, _, -, _, -, _, -, _, -, s₂, hstake, s₃, hclose,
    s₄, hrepay, s₅, hreserve, hsend⟩ := h
  rw [ActivePool.sendRBTC_book ha hsend, repayBPD_book hreserve, repayBPD_book hrepay,
    ← PriceFeed.fetchPrice_book hprice]
  exact (applyPendingRewards_moves hpending).tail
    (removeStake_closeVault_move (applyPendingRewards_none hpending) hstake hclose)

end BorrowerOperations

end MoneyProtocol
