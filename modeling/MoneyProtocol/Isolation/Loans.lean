import MoneyProtocol.Isolation.Deposits
import MoneyProtocol.Safety.RedemptionFairness

/-!
# A loan that is let be

A borrower that opens a vault and closes it again pays the borrowing fee and nothing else, as
long as nobody is liquidated and nothing redeemed in between.
-/

namespace MoneyProtocol

open Outcome PointSum Book MoneypBase VaultManager

variable {d : Deployment} {s s' s₁ s₂ s₃ : State} {block block' : Block} {u a p n : Address}
  {t : Transaction} {amount value maxFee v w : ℕ}

/-- Somebody else's transaction that liquidates nobody and redeems nothing. -/
def PeacefulStep (d : Deployment) (u : Address) (s s' : State) : Prop :=
  ∃ t : Transaction, t.Signed d ∧ t.sender ≠ u ∧ t.operation.role ≠ .liquidates ∧
    t.operation.role ≠ .redeems ∧ transact d t s = .ok s'

theorem peaceful_steps (hs : Reachable d s)
    (h : Relation.ReflTransGen (PeacefulStep d u) s s') :
    Reachable d s' ∧ Untouched s.book s'.book u := by
  induction h with
  | refl => exact ⟨hs, .refl _ _⟩
  | tail _ hstep ih =>
    obtain ⟨hreach, huntouched⟩ := ih
    obtain ⟨t, hsigned, hforeign, hliquidates, hredeems, h⟩ := hstep
    exact ⟨hreach.step ⟨t, hsigned, h⟩, huntouched.trans
      (transact_untouched hreach hsigned hforeign hliquidates hredeems h)⟩

namespace BorrowerOperations

/-- The fee is at most 5 percent of the loan, and at most what the borrower accepts. -/
structure FeeTerms (amount maxFee fee : ℕ) : Prop where
  capped : fee * DECIMAL_PRECISION ≤ MAX_BORROWING_FEE * amount
  accepted : fee = 0 ∨ fee * DECIMAL_PRECISION / amount ≤ maxFee

theorem chargeBorrowingFee_terms {waived : Bool} {netDebt : ℕ}
    (h : chargeBorrowingFee d block waived amount maxFee s = .ok (netDebt, s')) :
    ∃ fee, netDebt = amount + fee ∧ FeeTerms amount maxFee fee := by
  cases waived with
  | true =>
    obtain ⟨rfl, -⟩ := chargeBorrowingFee_waived h
    refine ⟨0, rfl, ?_, .inl rfl⟩
    simp
  | false =>
    simp only [chargeBorrowingFee, triggerBorrowingFee, getBorrowingFee, getBorrowingRate,
      calcBorrowingRate, calcBorrowingFee, requireUserAcceptsFee, Bool.false_eq_true, if_false,
      bind_ok, pure_ok, require_ok, SafeMath.add_ok, SafeMath.mul_ok, SafeMath.div_ok,
      Prod.exists, Prod.mk.injEq] at h
    obtain ⟨fee, _, ⟨s₁, -, _, ⟨_, ⟨_, ⟨-, rfl⟩, rfl⟩, _, ⟨-, rfl⟩, -, rfl⟩, _,
      ⟨_, ⟨-, rfl⟩, _, ⟨-, rfl⟩, haccepts⟩, _, -, _, -, rfl, rfl⟩, _, ⟨-, rfl⟩, rfl, rfl⟩ := h
    refine ⟨_, rfl, ?_, .inr haccepts⟩
    refine (Nat.div_mul_le_self _ _).trans ?_
    exact Nat.mul_le_mul_right _ (min_le_right _ _)

theorem mint_purse (h : BPDToken.mint a v s = .ok s') :
    purse u s' = if u = a then ((purse u s).1, (purse u s).2 + v) else purse u s := by
  obtain ⟨-, -, rfl⟩ := BPDToken.mint_ok h
  unfold purse
  split_ifs with hu
  · subst hu
    simp
  · simp [Function.update_of_ne hu]

theorem burn_purse (h : BPDToken.burn a v s = .ok s') :
    purse u s' = if u = a then ((purse u s).1, (purse u s).2 - v) else purse u s := by
  obtain ⟨-, -, -, rfl⟩ := BPDToken.burn_ok h
  unfold purse
  split_ifs with hu
  · subst hu
    simp
  · simp [Function.update_of_ne hu]

theorem withdrawBPD_purse (h : withdrawBPD a v w s = .ok s') :
    purse u s' = if u = a then ((purse u s).1, (purse u s).2 + v) else purse u s := by
  simp only [withdrawBPD, ActivePool.increaseBPDDebt, bind_ok, pure_ok] at h
  obtain ⟨_, ⟨_, -, rfl⟩, hmint⟩ := h
  exact (mint_purse hmint).trans rfl

theorem repayBPD_purse (h : repayBPD a v s = .ok s') :
    purse u s' = if u = a then ((purse u s).1, (purse u s).2 - v) else purse u s := by
  simp only [repayBPD, ActivePool.decreaseBPDDebt, bind_ok, pure_ok] at h
  obtain ⟨_, ⟨_, -, rfl⟩, hburn⟩ := h
  exact (burn_purse hburn).trans rfl

theorem fetchPrice_purse {price : ℕ} (h : PriceFeed.fetchPrice block s = .ok (price, s')) :
    purse u s' = purse u s := by
  obtain ⟨_, rfl⟩ := PriceFeed.fetchPrice_ok h
  rfl

theorem chargeBorrowingFee_purse {waived : Bool} {netDebt : ℕ} (hu : u ≠ d.mpStaking)
    (h : chargeBorrowingFee d block waived amount maxFee s = .ok (netDebt, s')) :
    purse u s' = purse u s := by
  simp only [chargeBorrowingFee] at h
  split_ifs at h
  · rw [(Prod.mk.inj (pure_ok.mp h)).2]
  · simp only [triggerBorrowingFee, bind_ok, pure_ok, Prod.exists, Prod.mk.injEq] at h
    obtain ⟨_, _, ⟨t, hrate, _, -, _, -, _, hshare, _, hmint, rfl, rfl⟩, _, -, -, rfl⟩ := h
    obtain ⟨_, _, rfl⟩ := decayBaseRateFromBorrowing_ok hrate
    obtain ⟨_, rfl⟩ := MPStaking.increaseF_BPD_ok hshare
    rw [mint_purse hmint, if_neg hu]
    rfl

theorem increaseVaultColl_purse (h : increaseVaultColl a v s = .ok s') :
    purse u s' = purse u s := by
  simp only [increaseVaultColl, bind_ok, pure_ok] at h
  obtain ⟨_, -, rfl⟩ := h
  rfl

theorem increaseVaultDebt_purse (h : increaseVaultDebt a v s = .ok s') :
    purse u s' = purse u s := by
  simp only [increaseVaultDebt, bind_ok, pure_ok] at h
  obtain ⟨_, -, rfl⟩ := h
  rfl

theorem updateStakeAndTotalStakes_purse (h : updateStakeAndTotalStakes a s = .ok s') :
    purse u s' = purse u s := by
  simp only [updateStakeAndTotalStakes, bind_ok, pure_ok] at h
  obtain ⟨_, -, _, -, _, -, rfl⟩ := h
  rfl

theorem initVault_purse (h : initVault a v w s = .ok s') : purse u s' = purse u s := by
  simp only [initVault, bind_ok] at h
  obtain ⟨_, hcoll, t, hdebt, hstake⟩ := h
  have hopened : purse u (setVaultStatus a .active s) = purse u s := rfl
  have hsnapshot : purse u (updateVaultRewardSnapshots a t) = purse u t := rfl
  rw [updateStakeAndTotalStakes_purse hstake, hsnapshot, increaseVaultDebt_purse hdebt,
    increaseVaultColl_purse hcoll, hopened]

theorem callWithValue_purse (ha : u ≠ a) (hb : u ≠ p) (h : callWithValue d a p v s = .ok s') :
    purse u s' = purse u s := by
  obtain ⟨-, h⟩ := callWithValue_ok.mp h
  have hmoved : purse u { s with rbtc := move a p v s.rbtc } = purse u s :=
    Prod.ext (move_other ha hb) rfl
  rw [← hmoved]
  rcases receive_ok h with ⟨-, -, rfl⟩ | ⟨-, -, rfl⟩ | ⟨-, -, rfl⟩ | ⟨-, -, rfl⟩ |
    ⟨-, -, -, -, rfl⟩
  all_goals rfl

theorem openVault_purse (hu : d.External u)
    (h : openVault d block u value maxFee amount p n s = .ok s') :
    purse u s' = (s.rbtc u, s.bpdToken.balances u + amount) := by
  simp only [openVault, bind_ok, Prod.exists] at h
  obtain ⟨_, _, hprice, _, -, _, -, _, -, _, _, hfee, _, -, _, -, _, -, _, -, _, -, _, -, s₀, hinit,
    s₁, hinsert, s₂, howner, s₃, hcoll, _, hloan, hreserve⟩ := h
  have hlisted : purse u s₂ = purse u s₀ := by
    obtain ⟨_, -, rfl⟩ := insertSorted_ok hinsert
    simp only [addVaultOwnerToArray, bind_ok, pure_ok] at howner
    obtain ⟨_, -, rfl⟩ := howner
    rfl
  have hbefore : purse u s₃ = purse u s := by
    rw [callWithValue_purse (hu.ne d.borrowerOperations_mem) (hu.ne d.activePool_mem) hcoll,
      hlisted, initVault_purse hinit, chargeBorrowingFee_purse (hu.ne d.mpStaking_mem) hfee,
      fetchPrice_purse hprice]
  rw [withdrawBPD_purse hreserve, if_neg (hu.ne d.gasPool_mem), withdrawBPD_purse hloan,
    if_pos rfl, hbefore]
  rfl

/-- Closing a vault returns all its collateral against its net debt. -/
theorem closeVault_purse (hu : d.External u) (h : closeVault d block u s = .ok s') :
    ∃ fetched collected, fetched.book = s.book ∧
      applyPendingRewards d u fetched = .ok collected ∧
      (collected.vault u).debt - BPD_GAS_COMPENSATION ≤ s.bpdToken.balances u ∧
      purse u s' = (s.rbtc u + (collected.vault u).coll,
        s.bpdToken.balances u - ((collected.vault u).debt - BPD_GAS_COMPENSATION)) := by
  simp only [closeVault, requireSufficientBPDBalance, bind_ok, Prod.exists, require_ok,
    SafeMath.sub_ok] at h
  obtain ⟨_, -, _, fetched, hprice, _, -, collected, hpending, _, ⟨-, rfl⟩, _, hcovered, _, -, _,
    -, s₁, hstake, s₂, hclose, s₃, hrepay, s₄, hreserve, hsend⟩ := h
  have hbook := PriceFeed.fetchPrice_book hprice
  have hcollected : purse u collected = purse u s := by
    rw [← fetchPrice_purse hprice]
    exact Prod.ext (applyPendingRewards_rbtc (.external hu) hpending)
      (congrArg (BPDToken.balances · u) (bpdToken_of_aside (applyPendingRewards_aside hpending)))
  have hclosed : purse u s₂ = purse u collected := by
    obtain ⟨-, rfl⟩ := removeStake_ok hstake
    obtain ⟨_, _, rfl⟩ := closeVault_frame hclose
    rfl
  have hpaid : purse u s₄ = ((purse u s).1,
      (purse u s).2 - ((collected.vault u).debt - BPD_GAS_COMPENSATION)) := by
    rw [repayBPD_purse hreserve, if_neg (hu.ne d.gasPool_mem), repayBPD_purse hrepay, if_pos rfl,
      hclosed, hcollected]
  refine ⟨fetched, collected, hbook, hpending, ?_, ?_⟩
  · exact hcovered.trans (congrArg Prod.snd hcollected).le
  · simp only [ActivePool.sendRBTC, bind_ok] at hsend
    obtain ⟨_, -, hsend⟩ := hsend
    rw [callWithValue_external hu hsend]
    obtain ⟨hrbtc, hBPD⟩ := Prod.mk.inj hpaid
    refine Prod.ext ?_ hBPD
    exact (move_target (hu.ne d.activePool_mem).symm).trans
      (congrArg (· + (collected.vault u).coll) hrbtc)

end BorrowerOperations

/-- A vault that was just opened has nothing pending. -/
theorem Book.entire_opened {b : Book} {data : SortedVaults}
    (hnone : (b.vaults u).coll = 0 ∧ (b.vaults u).debt = 0) :
    (b.opened u v w data).entireColl u = v ∧ (b.opened u v w data).appliedDebt u = w := by
  obtain ⟨hcoll, hdebt⟩ := hnone
  constructor
  · simp [entireColl, pendingRBTC, Book.opened, hcoll]
  · simp [appliedDebt, Book.opened, hdebt]

/-- All that a loan costs is the borrowing fee: whoever opens a vault and closes it again gets
back exactly the collateral and pays exactly the loan and the fee, as long as nobody has been
liquidated and nothing redeemed since. -/
theorem loan_repaid (hu : d.External u) (hs : Reachable d s)
    (hopen : transact d ⟨block, u, value, .openVault maxFee amount p n⟩ s = .ok s₁)
    (hrun : Relation.ReflTransGen (PeacefulStep d u) s₁ s₂)
    (hclose : transact d ⟨block', u, 0, .closeVault⟩ s₂ = .ok s₃) :
    ∃ fee, BorrowerOperations.FeeTerms amount maxFee fee ∧
      value ≤ s.rbtc u ∧ purse u s₁ = (s.rbtc u - value, s.bpdToken.balances u + amount) ∧
      amount + fee ≤ s₂.bpdToken.balances u ∧
      purse u s₃ = (s₂.rbtc u + value, s₂.bpdToken.balances u - (amount + fee)) := by
  obtain ⟨xs, hxs⟩ := hs.registry
  have hs₁ : Reachable d s₁ := hs.step ⟨_, ⟨hu, trivial⟩, hopen⟩
  obtain ⟨-, huntouched⟩ := peaceful_steps hs₁ hrun
  simp only [transact, payable, bind_ok] at hopen
  obtain ⟨s₀, hsend, hopen⟩ := hopen
  have hbook := transferRBTC_book hsend
  obtain ⟨hcovered, hs₀⟩ := transferRBTC_ok.mp hsend
  obtain ⟨e⟩ := BorrowerOperations.openVault_effect hopen
  obtain ⟨fee, hnet, hterms⟩ := BorrowerOperations.chargeBorrowingFee_terms e.charges
  have hnone : u ∉ xs := by
    intro hmem
    have hactive : s.book.Active u := (hxs.active u).mpr hmem
    rw [← hbook] at hactive
    exact e.inactive hactive
  obtain ⟨hnoColl, hnoDebt, -⟩ := hxs.inactive u hnone
  have hopened := e.book (hbook ▸ hs.balanced.owners_lt hxs)
  rw [hbook] at hopened
  have hentire : s₁.book.entireColl u = value ∧
      s₁.book.appliedDebt u = e.netDebt + BPD_GAS_COMPENSATION := by
    rw [hopened]
    exact Book.entire_opened ⟨hnoColl, hnoDebt⟩
  obtain ⟨hcoll, hdebt⟩ := hentire
  obtain ⟨fetched, collected, hfetched, hpending, hpays, hpurse⟩ :=
    BorrowerOperations.closeVault_purse hu (nonPayable_ok hclose)
  have hcollected : (collected.vault u).coll = value := by
    rw [← hcoll, ← huntouched.entireColl, ← hfetched]
    exact applyPendingRewards_coll hpending
  have hrepaid : (collected.vault u).debt - BPD_GAS_COMPENSATION = amount + fee := by
    rw [applyPendingRewards_debt hpending, hfetched, huntouched.appliedDebt, hdebt, hnet]
    exact Nat.add_sub_cancel _ _
  rw [hcollected, hrepaid] at hpurse
  rw [hrepaid] at hpays
  refine ⟨fee, hterms, hcovered, ?_, hpays, hpurse⟩
  rw [BorrowerOperations.openVault_purse hu hopen, ← hs₀]
  exact Prod.ext (move_source (hu.ne d.borrowerOperations_mem)) rfl

/-- Two other owners, so that the vault is not the last one and the system stays sound. -/
def twoOthers : List Transaction :=
  [⟨testBlock 60000, 101, 5 * 10 ^ 18, .openVault (10 ^ 16) (10000 * 10 ^ 18) 0 0⟩,
    ⟨testBlock 60000, 102, 5 * 10 ^ 18, .openVault (10 ^ 16) (10000 * 10 ^ 18) 0 0⟩]

/-- The borrower needs BPD for the fee. -/
def paysFee : Transaction := ⟨testBlock 60000, 101, 0, .transfer 100 (1000 * 10 ^ 18)⟩

theorem loan_repaid_fee : ∃ s s₁ s₂ s₃, Reachable testnet s ∧
    transact testnet ⟨testBlock 60000, 100, 5 * 10 ^ 18,
      .openVault (10 ^ 16) (10000 * 10 ^ 18) 0 0⟩ s = .ok s₁ ∧
    transact testnet paysFee s₁ = .ok s₂ ∧
    transact testnet ⟨testBlock 60000, 100, 0, .closeVault⟩ s₂ = .ok s₃ ∧
    s₃.rbtc 100 = s₂.rbtc 100 + 5 * 10 ^ 18 := by
  obtain ⟨s, hs, -, hcheck⟩ := runs_reachable testnet testGenesis twoOthers (fun s =>
    succeeds (fun s₁ => succeeds (fun s₂ => succeeds (fun _ => true)
      (transact testnet ⟨testBlock 60000, 100, 0, .closeVault⟩ s₂))
      (transact testnet paysFee s₁))
      (transact testnet ⟨testBlock 60000, 100, 5 * 10 ^ 18,
        .openVault (10 ^ 16) (10000 * 10 ^ 18) 0 0⟩ s)) (by decide +kernel)
  obtain ⟨s₁, hopen, hcheck⟩ := exists_of_succeeds hcheck
  obtain ⟨s₂, hpays, hcheck⟩ := exists_of_succeeds hcheck
  obtain ⟨s₃, hclose, -⟩ := exists_of_succeeds hcheck
  have hpeaceful : PeacefulStep testnet 100 s₁ s₂ :=
    ⟨paysFee, by decide, by decide, by decide, by decide, hpays⟩
  obtain ⟨fee, -, -, -, -, hpurse⟩ := loan_repaid (by decide) hs hopen (.single hpeaceful) hclose
  exact ⟨s, s₁, s₂, s₃, hs, hopen, hpays, hclose, congrArg Prod.fst hpurse⟩

end MoneyProtocol
