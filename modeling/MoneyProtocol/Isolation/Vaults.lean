import MoneyProtocol.Isolation.Liquidation
import MoneyProtocol.Book.Effects

/-!
# Who can change a vault

Only its owner opens, adjusts or closes a vault. Everybody else can reach it in two ways: a
redemption, and a liquidation, which closes a vault that may be liquidated and leaves the others
as they are, but for the debt and the collateral that it redistributes.
-/

namespace MoneyProtocol

open Outcome MoneypMath MoneypBase Book VaultManager

variable {d : Deployment} {s s' : State} {block : Block} {a u : Address} {price : ℕ}
  {xs : List Address} {t : Transaction}

inductive Role where
  | opens
  | adjusts
  | closes
  | liquidates
  | redeems
  | passes
  deriving DecidableEq

/-- What the operation does to the vaults; most do nothing. -/
def Operation.role : Operation → Role
  | .openVault _ _ _ _ => .opens
  | .addColl _ _ | .withdrawColl _ _ _ | .withdrawBPD _ _ _ _ | .repayBPD _ _ _ | .adjustVault _
  | .withdrawRBTCGainToVault _ _ => .adjusts
  | .closeVault => .closes
  | .liquidate _ | .liquidateVaults _ | .batchLiquidateVaults _ => .liquidates
  | .redeemCollateral _ _ _ _ => .redeems
  | _ => .passes

theorem Operation.adjusts_of_role {o : Operation} (h : o.role = .adjusts) : o.Adjusts := by
  cases o <;> trivial

namespace Book

variable {b b' b'' : Book}

/-- The vault of `u` is as it was, and a redistribution at most has added to its rewards. -/
structure Sheltered (b b' : Book) (u : Address) : Prop where
  vault : ∃ i, b'.vaults u = { b.vaults u with arrayIndex := i }
  snapshot : b'.rewardSnapshots u = b.rewardSnapshots u
  B_RBTC : b.B_RBTC ≤ b'.B_RBTC
  B_BPDDebt : b.B_BPDDebt ≤ b'.B_BPDDebt

theorem Untouched.sheltered (h : Untouched b b' u) : Sheltered b b' u :=
  ⟨h.vault, h.snapshot, h.B_RBTC.ge, h.B_BPDDebt.ge⟩

namespace Sheltered

theorem refl (b : Book) (u : Address) : Sheltered b b u := (Untouched.refl b u).sheltered

theorem trans (h : Sheltered b b' u) (h' : Sheltered b' b'' u) : Sheltered b b'' u := by
  obtain ⟨i, hi⟩ := h.vault
  obtain ⟨j, hj⟩ := h'.vault
  refine ⟨⟨j, ?_⟩, h'.snapshot.trans h.snapshot, h.B_RBTC.trans h'.B_RBTC,
    h.B_BPDDebt.trans h'.B_BPDDebt⟩
  rw [hj, hi]

theorem status (h : Sheltered b b' u) : (b'.vaults u).status = (b.vaults u).status := by
  obtain ⟨i, hi⟩ := h.vault
  rw [hi]

theorem record (h : Sheltered b b' u) : (b'.vaults u).coll = (b.vaults u).coll ∧
    (b'.vaults u).debt = (b.vaults u).debt ∧ (b'.vaults u).stake = (b.vaults u).stake := by
  obtain ⟨i, hi⟩ := h.vault
  rw [hi]
  exact ⟨rfl, rfl, rfl⟩

theorem entireColl_le (h : Sheltered b b' u) : b.entireColl u ≤ b'.entireColl u := by
  obtain ⟨i, hi⟩ := h.vault
  simp only [Book.entireColl, pendingRBTC, hi, h.snapshot]
  have hgain := Nat.sub_le_sub_right h.B_RBTC (b.rewardSnapshots u).RBTC
  split_ifs
  · exact Nat.add_le_add_left (Nat.div_le_div_right (Nat.mul_le_mul_left _ hgain)) _
  · exact le_refl _

theorem entireDebt_le (h : Sheltered b b' u) : b.entireDebt u ≤ b'.entireDebt u := by
  obtain ⟨i, hi⟩ := h.vault
  simp only [Book.entireDebt, pendingDebt, hi, h.snapshot]
  have hgain := Nat.sub_le_sub_right h.B_BPDDebt (b.rewardSnapshots u).BPDDebt
  split_ifs
  · exact Nat.add_le_add_left (Nat.div_le_div_right (Nat.mul_le_mul_left _ hgain)) _
  · exact le_refl _

end Sheltered

end Book

namespace VaultManager

theorem redistributeDebtAndColl_sheltered {debt coll : ℕ}
    (h : redistributeDebtAndColl d debt coll s = .ok s') : Sheltered s.book s'.book u := by
  simp only [redistributeDebtAndColl] at h
  split_ifs at h
  · rw [pure_ok.mp h]
    exact .refl _ _
  · simp only [bind_ok, Prod.exists, SafeMath.add_ok] at h
    obtain ⟨_, _, -, _, _, -, _, ⟨-, rfl⟩, _, ⟨-, rfl⟩, _, hactive, _, hdefault, h⟩ := h
    rw [ActivePool.sendRBTC_defaultPool h, DefaultPool.increaseBPDDebt_book hdefault,
      ActivePool.decreaseBPDDebt_book hactive, setRewards_book]
    exact ⟨⟨(s.vault u).arrayIndex, rfl⟩, rfl, Nat.le_add_right _ _, Nat.le_add_right _ _⟩

theorem settleLiquidation_sheltered {sender : Address} {totals : LiquidationTotals}
    (hsender : sender ≠ d.defaultPool) (h : settleLiquidation d block sender totals s = .ok s') :
    Sheltered s.book s'.book u := by
  simp only [settleLiquidation, bind_ok, ite_pure_ok] at h
  obtain ⟨_, -, t₁, hoffset, t₂, hredistribute, t₃, hsurplus, t₄, hsnapshots, _, -, _, -, hgas⟩ := h
  have h₁ := StabilityPool.offset_book hoffset
  have h₂ : Sheltered t₁.book t₂.book u := redistributeDebtAndColl_sheltered hredistribute
  have h₃ : t₃.book = t₂.book := by
    rcases hsurplus with ⟨-, hsurplus⟩ | ⟨-, rfl⟩
    · exact ActivePool.sendRBTC_book d.collSurplusPool_ne_defaultPool hsurplus
    · rfl
  have h₄ : Sheltered t₃.book t₄.book u := by
    obtain ⟨_, rfl⟩ := updateSystemSnapshots_excludeCollRemainder_ok hsnapshots
    exact ⟨⟨_, rfl⟩, rfl, le_refl _, le_refl _⟩
  rw [sendGasCompensation_book hsender hgas]
  rw [h₃] at h₄
  rw [h₁] at h₂
  exact h₂.trans h₄

/-- What becomes of a vault in a liquidation. -/
inductive LiquidationFate (price : ℕ) (s s' : State) (u : Address) : Prop
  | sheltered (h : Sheltered s.book s'.book u)
  | closed (hactive : s.Active u) (h : (s'.vault u).status = .closedByLiquidation)
      (hfair : s.Liquidatable price u)

theorem LoopFate.settled {sender : Address} {l : LiquidationLoop} (hsender : sender ≠ d.defaultPool)
    (hfate : LoopFate price s l u)
    (h : settleLiquidation d block sender l.totals l.state = .ok s') :
    LiquidationFate price s s' u := by
  have hlater : Sheltered l.state.book s'.book u := settleLiquidation_sheltered hsender h
  cases hfate with
  | kept hsame => exact .sheltered (hsame.sheltered.trans hlater)
  | closed hactive hstatus hfair => exact .closed hactive (hlater.status.trans hstatus) hfair

/-- Fetching the price leaves nothing that a liquidation reads of a vault changed. -/
theorem LiquidationFate.fetched {s₀ : State}
    (hprice : PriceFeed.fetchPrice block s = .ok (price, s₀))
    (h : LiquidationFate price s₀ s' u) : LiquidationFate price s s' u := by
  obtain ⟨_, rfl⟩ := PriceFeed.fetchPrice_ok hprice
  cases h with
  | sheltered h => exact .sheltered h
  | closed hactive hstatus hfair => exact .closed hactive hstatus hfair

theorem liquidateVaults_fate {sender : Address} {n : ℕ} (hxs : s.book.Registry xs)
    (hsender : sender ≠ d.defaultPool) (h : liquidateVaults d block sender n s = .ok s') :
    ∃ price s₀, PriceFeed.fetchPrice block s = .ok (price, s₀) ∧
      ∀ u, LiquidationFate price s s' u := by
  simp only [liquidateVaults, bind_ok, Prod.exists] at h
  obtain ⟨price, s₀, hprice, recovery, hmode, l, hl, h⟩ := h
  obtain ⟨l₀, hstart, hloop⟩ := getTotalsFromLiquidateVaultsSequence_modes hl
  refine ⟨price, s₀, hprice, fun u => .fetched hprice ?_⟩
  rw [← PriceFeed.fetchPrice_book hprice] at hxs
  exact (loop_fate hxs hmode hstart hloop u).settled hsender h

theorem batchLiquidateVaults_fate {sender : Address} {users : List Address}
    (hxs : s.book.Registry xs) (hsender : sender ≠ d.defaultPool)
    (h : batchLiquidateVaults d block sender users s = .ok s') :
    ∃ price s₀, PriceFeed.fetchPrice block s = .ok (price, s₀) ∧
      ∀ u, LiquidationFate price s s' u := by
  simp only [batchLiquidateVaults, bind_ok, Prod.exists] at h
  obtain ⟨_, -, price, s₀, hprice, recovery, hmode, l, hl, h⟩ := h
  obtain ⟨l₀, hstart, hloop⟩ := getTotalsFromBatchLiquidate_modes hl
  refine ⟨price, s₀, hprice, fun u => .fetched hprice ?_⟩
  rw [← PriceFeed.fetchPrice_book hprice] at hxs
  exact (loop_fate hxs hmode hstart hloop u).settled hsender h

end VaultManager

theorem transact_liquidates (hxs : s.book.Registry xs) (hsigned : t.Signed d)
    (hrole : t.operation.role = .liquidates) (h : transact d t s = .ok s') :
    ∃ price s₀, PriceFeed.fetchPrice t.block s = .ok (price, s₀) ∧
      ∀ u, LiquidationFate price s s' u := by
  have hsender := hsigned.1.ne d.defaultPool_mem
  obtain ⟨block, sender, value, operation⟩ := t
  cases operation with
  | liquidate borrower =>
    have h := nonPayable_ok h
    simp only [liquidate, bind_ok] at h
    obtain ⟨_, -, h⟩ := h
    exact batchLiquidateVaults_fate hxs hsender h
  | liquidateVaults => exact liquidateVaults_fate hxs hsender (nonPayable_ok h)
  | batchLiquidateVaults => exact batchLiquidateVaults_fate hxs hsender (nonPayable_ok h)
  | _ => cases hrole

/-- The other operations do not touch the book at all. -/
theorem transact_passes (hsigned : t.Signed d) (hrole : t.operation.role = .passes)
    (h : transact d t s = .ok s') : s'.book = s.book := by
  have hsender := hsigned.1
  obtain ⟨block, sender, value, operation⟩ := t
  cases operation with
  | claimCollateral => exact CollSurplusPool.claimColl_book (nonPayable_ok h)
  | provideToSP => exact StabilityPool.provideToSP_book (nonPayable_ok h)
  | withdrawFromSP => exact StabilityPool.withdrawFromSP_book (nonPayable_ok h)
  | registerFrontEnd =>
    have h := nonPayable_ok h
    simp only [StabilityPool.registerFrontEnd, bind_ok, pure_ok] at h
    obtain ⟨_, -, _, -, _, -, rfl⟩ := h
    rfl
  | transfer => exact BPDToken.transfer_book (nonPayable_ok h)
  | approve => exact BPDToken._approve_book (nonPayable_ok h)
  | transferFrom => exact BPDToken.transferFrom_book (nonPayable_ok h)
  | increaseAllowance =>
    have h := nonPayable_ok h
    simp only [BPDToken.increaseAllowance, bind_ok] at h
    obtain ⟨_, -, h⟩ := h
    exact BPDToken._approve_book h
  | decreaseAllowance =>
    have h := nonPayable_ok h
    simp only [BPDToken.decreaseAllowance, bind_ok] at h
    obtain ⟨_, -, h⟩ := h
    exact BPDToken._approve_book h
  | permit => exact BPDToken.permit_book (nonPayable_ok h)
  | stake => exact MPStaking.stake_book (nonPayable_ok h)
  | unstake => exact MPStaking.unstake_book (nonPayable_ok h)
  | fetchPrice =>
    simp only [transact] at h
    obtain ⟨⟨_, _⟩, hprice, rfl⟩ := map_ok.mp (nonPayable_ok h)
    exact PriceFeed.fetchPrice_book hprice
  | sendRBTC => exact callWithValue_book (hsender.ne d.activePool_mem) h
  | _ => cases hrole

/-- The vault of the sender goes from a status to another, and no other is touched. -/
structure Own (sender : Address) (before after : Status → Prop) (s s' : State) : Prop where
  before : before (s.vault sender).status
  after : after (s'.vault sender).status
  others : ∀ u, u ≠ sender → Untouched s.book s'.book u

theorem transact_opens (hlength : s.book.vaultOwners.length < 2 ^ 128)
    (hrole : t.operation.role = .opens) (h : transact d t s = .ok s') :
    Own t.sender (· ≠ .active) (· = .active) s s' := by
  obtain ⟨block, sender, value, operation⟩ := t
  cases operation with
  | openVault =>
    simp only [transact, payable, bind_ok] at h
    obtain ⟨s₁, hsend, h⟩ := h
    have h₁ := transferRBTC_book hsend
    obtain ⟨e⟩ := BorrowerOperations.openVault_effect h
    have hbook := e.book (h₁ ▸ hlength)
    have hvaults (u : Address) : s'.vault u = s'.book.vaults u := rfl
    constructor
    · have hvault : s₁.vault sender = s.vault sender := congrFun (congrArg Book.vaults h₁) sender
      have hinactive := e.inactive
      rw [State.Active, hvault] at hinactive
      exact hinactive
    · rw [hvaults, hbook]
      simp [Book.opened]
    · intro u hu
      rw [hbook, h₁]
      refine ⟨⟨(s.vault u).arrayIndex, ?_⟩, ?_, rfl, rfl⟩
      · simp [Book.opened, Function.update_of_ne hu, State.book, State.vault]
      · simp [Book.opened, Function.update_of_ne hu]
  | _ => cases hrole

theorem Book.Untouched.restaked {b : Book} {coll debt : ℕ} {data : SortedVaults} (hu : u ≠ a) :
    Untouched b (b.restaked a coll debt data) u := by
  refine ⟨⟨(b.vaults u).arrayIndex, ?_⟩, rfl, rfl, rfl⟩
  simp [Book.restaked, Function.update_of_ne hu]

theorem transact_adjusts (hsigned : t.Signed d) (hrole : t.operation.role = .adjusts)
    (h : transact d t s = .ok s') : Own t.sender (· = .active) (· = .active) s s' := by
  obtain ⟨value, adj, s₁, sender, -, hsame, hactive, hdefault, h⟩ :=
    transact_adjustment hsigned (Operation.adjusts_of_role hrole) h
  obtain ⟨e⟩ := BorrowerOperations.adjustVaultInternal_effect hactive hdefault h
  have hfetched : e.fetched.book = s.book := by
    rw [PriceFeed.fetchPrice_book e.fetches, hsame.book]
  have hstatus : (s.vault t.sender).status = .active := by
    have hvault : s₁.vault t.sender = s.vault t.sender :=
      congrFun (congrArg Book.vaults hsame.book) t.sender
    exact hvault ▸ e.active
  have hvault : s'.vault t.sender = s'.book.vaults t.sender := rfl
  have hcollected : (e.collected.book.vaults t.sender).status = .active := by
    have hsame₁ : (e.fetched.vault t.sender).status = (s.vault t.sender).status :=
      congrArg Vault.status (congrFun (congrArg Book.vaults hfetched) t.sender)
    exact (applyPendingRewards_status e.collects t.sender).trans (hsame₁.trans hstatus)
  refine ⟨hstatus, ?_, fun u hu => ?_⟩
  · rw [hvault, e.book]
    simp [Book.restaked, hcollected]
  · rw [e.book, ← hfetched]
    rcases applyPendingRewards_book (P := .any) e.collects with ⟨-, -, hbook⟩ | ⟨-, hcollects⟩
    · rw [hbook]
      exact (Untouched.collected hu).trans (.restaked hu)
    · rw [hcollects]
      exact .restaked hu

theorem closeVault_own (hsender : a ≠ d.defaultPool)
    (h : BorrowerOperations.closeVault d block a s = .ok s') :
    Own a (· = .active) (· = .closedByOwner) s s' := by
  simp only [BorrowerOperations.closeVault, BorrowerOperations.requireVaultisActive, bind_ok,
    Prod.exists, require_ok] at h
  obtain ⟨_, hactive, price, s₀, hprice, _, -, s₁, hpending, _, -, _, -, _, -, _, -, s₂, hstake,
    s₃, hclose, s₄, hrepay, s₅, hgas, hsend⟩ := h
  have h₀ := PriceFeed.fetchPrice_book hprice
  obtain ⟨-, -, -, moved, data, -, -, -, hclosed⟩ := removeStake_closeVault_book hstake hclose
  have hbook : s'.book = s₁.book.closed a .closedByOwner moved data := by
    rw [ActivePool.sendRBTC_book hsender hsend, BorrowerOperations.repayBPD_book hgas,
      BorrowerOperations.repayBPD_book hrepay, hclosed]
  have hvault : s'.vault a = s'.book.vaults a := rfl
  refine ⟨hactive, ?_, fun u hu => ?_⟩
  · obtain ⟨i, hi⟩ : ∃ i, (s₁.book.closed a .closedByOwner moved data).vaults a =
      ⟨0, 0, 0, .closedByOwner, i⟩ := closed_self
    rw [hvault, hbook, hi]
  · rw [hbook, ← h₀]
    rcases applyPendingRewards_book (P := .any) hpending with ⟨-, -, hcollected⟩ | ⟨-, rfl⟩
    · rw [hcollected]
      exact (Untouched.collected hu).trans (.closed hu)
    · exact .closed hu

theorem transact_closes (hsigned : t.Signed d) (hrole : t.operation.role = .closes)
    (h : transact d t s = .ok s') : Own t.sender (· = .active) (· = .closedByOwner) s s' := by
  have hsender := hsigned.1.ne d.defaultPool_mem
  obtain ⟨block, sender, value, operation⟩ := t
  cases operation with
  | closeVault => exact closeVault_own hsender (nonPayable_ok h)
  | _ => cases hrole

theorem redeemCollateral_statuses {sender : Address} {amount maxIterations maxFee : ℕ}
    {hints : RedemptionHints} (hxs : s.book.Registry xs) (hsender : sender ≠ d.defaultPool)
    (h : redeemCollateral d block sender amount hints maxIterations maxFee s = .ok s')
    (u : Address) :
    (s'.vault u).status = (s.vault u).status ∨
      s.Active u ∧ (s'.vault u).status = .closedByRedemption := by
  simp only [redeemCollateral, bind_ok, Prod.exists] at h
  obtain ⟨_, -, _, -, price, s₀, hprice, _, -, _, -, _, -, _, -, _, -, first, -, t, s₁, hloop,
    hsettle⟩ := h
  have h₀ := PriceFeed.fetchPrice_book hprice
  obtain ⟨hbook, -⟩ := settleRedemption_vaults hsender hsettle
  have hvault : s'.vault u = s₁.vault u := congrFun (congrArg Book.vaults hbook) u
  have hvault₀ : s₀.vault u = s.vault u := congrFun (congrArg Book.vaults h₀) u
  rw [hvault, ← hvault₀, State.Active, ← hvault₀]
  cases redeemLoop_fates (h₀ ▸ hxs) hloop u with
  | kept h => exact .inl h.status
  | changed h => exact .inl h
  | closed hactive h => exact .inr ⟨hactive, h⟩

/-- The ways a transaction can take the vault of `u` from one status to another. -/
inductive LifeCycle (t : Transaction) (s : State) (u : Address) : Status → Status → Prop
  | kept (st : Status) : LifeCycle t s u st st
  | opened {st : Status} (hrole : t.operation.role = .opens) (howner : t.sender = u)
      (hst : st ≠ .active) : LifeCycle t s u st .active
  | closedByOwner (hrole : t.operation.role = .closes) (howner : t.sender = u) :
      LifeCycle t s u .active .closedByOwner
  | liquidated {price : ℕ} {s₀ : State} (hrole : t.operation.role = .liquidates)
      (hprice : PriceFeed.fetchPrice t.block s = .ok (price, s₀))
      (hfair : s.Liquidatable price u) : LifeCycle t s u .active .closedByLiquidation
  | redeemed (hrole : t.operation.role = .redeems) :
      LifeCycle t s u .active .closedByRedemption

theorem LifeCycle.of_untouched (h : Untouched s.book s'.book u) :
    LifeCycle t s u (s.vault u).status (s'.vault u).status := by
  have hstatus : (s'.vault u).status = (s.vault u).status := h.status
  rw [hstatus]
  exact .kept _

/-- Whatever the sender does to its own vault, the others live on. -/
theorem Own.lifeCycle {before after : Status → Prop} (h : Own t.sender before after s s')
    (hself : before (s.vault t.sender).status → after (s'.vault t.sender).status →
      LifeCycle t s t.sender (s.vault t.sender).status (s'.vault t.sender).status) (u : Address) :
    LifeCycle t s u (s.vault u).status (s'.vault u).status := by
  by_cases hu : u = t.sender
  · rw [hu]
    exact hself h.before h.after
  · exact .of_untouched (h.others u hu)

/-- In every reachable state, the status of every vault changes along the life cycle only. -/
theorem vault_lifeCycle (hs : Reachable d s) (hsigned : t.Signed d)
    (h : transact d t s = .ok s') (u : Address) :
    LifeCycle t s u (s.vault u).status (s'.vault u).status := by
  obtain ⟨xs, hxs⟩ := hs.registry
  have hsender := hsigned.1.ne d.defaultPool_mem
  cases hrole : t.operation.role with
  | opens =>
    apply (transact_opens (hs.balanced.owners_lt hxs) hrole h).lifeCycle
    intro hbefore hafter
    rw [hafter]
    exact .opened hrole rfl hbefore
  | adjusts =>
    apply (transact_adjusts hsigned hrole h).lifeCycle
    intro hbefore hafter
    rw [hbefore, hafter]
    exact .kept _
  | closes =>
    apply (transact_closes hsigned hrole h).lifeCycle
    intro hbefore hafter
    rw [hbefore, hafter]
    exact .closedByOwner hrole rfl
  | liquidates =>
    obtain ⟨price, s₀, hprice, hfates⟩ := transact_liquidates hxs hsigned hrole h
    cases hfates u with
    | sheltered h =>
      have hstatus : (s'.vault u).status = (s.vault u).status := h.status
      rw [hstatus]
      exact .kept _
    | closed hactive hstatus hfair =>
      rw [hactive, hstatus]
      exact .liquidated hrole hprice hfair
  | redeems =>
    obtain ⟨block, sender, value, operation⟩ := t
    cases operation with
    | redeemCollateral =>
      rcases redeemCollateral_statuses hxs hsender (nonPayable_ok h) u with
        hstatus | ⟨hactive, hstatus⟩
      · rw [hstatus]
        exact .kept _
      · rw [hactive, hstatus]
        exact .redeemed hrole
    | _ => cases hrole
  | passes =>
    apply LifeCycle.of_untouched
    rw [transact_passes hsigned hrole h]
    exact .refl _ _

/-- Three owners at a price of 60,000: the second is close to the minimum ratio. -/
def threeVaults : List Transaction :=
  [⟨testBlock 60000, 100, 5 * 10 ^ 18, .openVault (10 ^ 16) (10000 * 10 ^ 18) 0 0⟩,
    ⟨testBlock 60000, 101, 55 * 10 ^ 15, .openVault (10 ^ 16) (2000 * 10 ^ 18) 0 0⟩,
    ⟨testBlock 60000, 102, 5 * 10 ^ 18, .openVault (10 ^ 16) (10000 * 10 ^ 18) 0 0⟩]

/-- Liquidates the second of them after the price has fallen. -/
def liquidatesSecond : Transaction := ⟨testBlock 44000, 103, 0, .liquidate 101⟩

theorem vault_lifeCycle_liquidated : ∃ s s', Reachable testnet s ∧
    transact testnet liquidatesSecond s = .ok s' ∧
    LifeCycle liquidatesSecond s 101 .active .closedByLiquidation := by
  obtain ⟨s, s', hs, h, hcheck⟩ := runsThen_reachable testnet testGenesis threeVaults
    liquidatesSecond (fun s s' => (s.vault 101).status = .active ∧
      (s'.vault 101).status = .closedByLiquidation) (by decide +kernel)
  obtain ⟨hbefore, hafter⟩ := of_decide_eq_true hcheck
  have hlife := vault_lifeCycle hs (t := liquidatesSecond) (by decide) h 101
  rw [hbefore, hafter] at hlife
  exact ⟨s, s', hs, h, hlife⟩

/-- A transaction of somebody else that redeems nothing and, where it liquidates, does not find
the vault of `u` liquidatable at the price of its block. -/
structure Transaction.Harmless (t : Transaction) (u : Address) (s : State) : Prop where
  foreign : t.sender ≠ u
  noRedemption : t.operation.role ≠ .redeems
  noLiquidation : t.operation.role = .liquidates →
    ∀ price s₀, PriceFeed.fetchPrice t.block s = .ok (price, s₀) → ¬s.Liquidatable price u

/-- Without a liquidation and a redemption others do not touch the vault at all. -/
theorem transact_untouched (hs : Reachable d s) (hsigned : t.Signed d) (hforeign : t.sender ≠ u)
    (hliquidates : t.operation.role ≠ .liquidates) (hredeems : t.operation.role ≠ .redeems)
    (h : transact d t s = .ok s') : Untouched s.book s'.book u := by
  obtain ⟨xs, hxs⟩ := hs.registry
  have hu : u ≠ t.sender := hforeign.symm
  cases hrole : t.operation.role with
  | opens => exact (transact_opens (hs.balanced.owners_lt hxs) hrole h).others u hu
  | adjusts => exact (transact_adjusts hsigned hrole h).others u hu
  | closes => exact (transact_closes hsigned hrole h).others u hu
  | liquidates => exact absurd hrole hliquidates
  | redeems => exact absurd hrole hredeems
  | passes =>
    rw [transact_passes hsigned hrole h]
    exact .refl _ _

/-- Such a transaction shelters the vault. -/
theorem transact_harmless (hs : Reachable d s) (hsigned : t.Signed d) (hharmless : t.Harmless u s)
    (h : transact d t s = .ok s') : Sheltered s.book s'.book u := by
  by_cases hrole : t.operation.role = .liquidates
  · obtain ⟨xs, hxs⟩ := hs.registry
    obtain ⟨price, s₀, hprice, hfates⟩ := transact_liquidates hxs hsigned hrole h
    cases hfates u with
    | sheltered h => exact h
    | closed _ _ hfair => exact absurd hfair (hharmless.noLiquidation hrole price s₀ hprice)
  · exact (transact_untouched hs hsigned hharmless.foreign hrole hharmless.noRedemption h).sheltered

def HarmlessStep (d : Deployment) (u : Address) (s s' : State) : Prop :=
  ∃ t : Transaction, t.Signed d ∧ t.Harmless u s ∧ transact d t s = .ok s'

theorem harmless_steps (hs : Reachable d s)
    (hsteps : Relation.ReflTransGen (HarmlessStep d u) s s') :
    Reachable d s' ∧ Sheltered s.book s'.book u := by
  induction hsteps with
  | refl => exact ⟨hs, .refl _ _⟩
  | tail _ hstep ih =>
    obtain ⟨hreach, hsheltered⟩ := ih
    obtain ⟨t, hsigned, hharmless, h⟩ := hstep
    exact ⟨hreach.step ⟨t, hsigned, h⟩,
      hsheltered.trans (transact_harmless hreach hsigned hharmless h)⟩

/-- However many transactions others send, a vault that they find no reason to liquidate and do
not redeem stays open with the same record, and with its rewards it only grows. -/
theorem vault_survives (hs : Reachable d s) (hactive : s.Active u)
    (hsteps : Relation.ReflTransGen (HarmlessStep d u) s s') :
    s'.Active u ∧ (s'.vault u).coll = (s.vault u).coll ∧ (s'.vault u).debt = (s.vault u).debt ∧
      (s'.vault u).stake = (s.vault u).stake ∧ s.book.entireColl u ≤ s'.book.entireColl u ∧
      s.book.entireDebt u ≤ s'.book.entireDebt u := by
  obtain ⟨-, h⟩ := harmless_steps hs hsteps
  obtain ⟨hcoll, hdebt, hstake⟩ := h.record
  exact ⟨h.status.trans hactive, hcoll, hdebt, hstake, h.entireColl_le, h.entireDebt_le⟩

theorem vault_survives_liquidation : ∃ s s', Reachable testnet s ∧
    transact testnet liquidatesSecond s = .ok s' ∧ s'.Active 100 ∧
    (s'.vault 100).debt = (s.vault 100).debt := by
  obtain ⟨s, s', hs, h, hcheck⟩ := runsThen_reachable testnet testGenesis threeVaults
    liquidatesSecond (fun s _ => s.Active 100 ∧ ¬s.Liquidatable (44000 * 10 ^ 18) 100)
    (by decide +kernel)
  obtain ⟨hactive, hsafe⟩ := of_decide_eq_true hcheck
  have hharmless : liquidatesSecond.Harmless 100 s := by
    refine ⟨by decide, by decide, fun _ price s₀ hprice => ?_⟩
    obtain ⟨rfl, -⟩ := Prod.mk.inj (Except.ok.inj hprice)
    exact hsafe
  have hsurvives := vault_survives hs hactive
    (.single ⟨liquidatesSecond, by decide, hharmless, h⟩)
  exact ⟨s, s', hs, h, hsurvives.1, hsurvives.2.2.1⟩

end MoneyProtocol
