import MoneyProtocol.Accounting.Standing
import MoneyProtocol.Safety.Balances

/-!
# Surpluses

A vault that is redeemed in full, or liquidated with a capped offset, leaves a surplus. It is
credited to its owner, in the amount by which the collateral of the vault exceeds what was
taken for its debt; and a claim pays the credit of the sender and no other.
-/

namespace MoneyProtocol

open Outcome MoneypMath MoneypBase Book VaultManager PointSum

variable {d : Deployment} {s s' : State} {block : Block} {a u : Address} {price : ℕ}
  {xs : List Address}

namespace Book

variable {b b' : Book} {st : Status} {moved : Address} {data : SortedVaults}

/-- What a capped liquidation leaves of a vault: the collateral beyond the minimum ratio. -/
def liquidationSurplus (price : ℕ) (b : Book) (a : Address) : ℕ :=
  if MCR ≤ collRatio (b.entireColl a) (b.entireDebt a) price then
    b.entireColl a - b.entireDebt a * MCR / price
  else 0

/-- What a full redemption leaves of a vault: the collateral beyond its debt but the reserve. -/
def redemptionSurplus (price : ℕ) (b : Book) (a : Address) : ℕ :=
  b.entireColl a - (b.appliedDebt a - BPD_GAS_COMPENSATION) * DECIMAL_PRECISION / price

/-- The vault of `a` is as it was, but for its slot in the array. -/
structure Untouched (b b' : Book) (a : Address) : Prop where
  vault : ∃ i, b'.vaults a = { b.vaults a with arrayIndex := i }
  snapshot : b'.rewardSnapshots a = b.rewardSnapshots a
  B_RBTC : b'.B_RBTC = b.B_RBTC
  B_BPDDebt : b'.B_BPDDebt = b.B_BPDDebt

namespace Untouched

theorem refl (b : Book) (a : Address) : Untouched b b a := ⟨⟨_, rfl⟩, rfl, rfl, rfl⟩

theorem trans {b'' : Book} (h : Untouched b b' a) (h' : Untouched b' b'' a) :
    Untouched b b'' a := by
  obtain ⟨i, hi⟩ := h.vault
  obtain ⟨j, hj⟩ := h'.vault
  refine ⟨⟨j, ?_⟩, h'.snapshot.trans h.snapshot, h'.B_RBTC.trans h.B_RBTC,
    h'.B_BPDDebt.trans h.B_BPDDebt⟩
  rw [hj, hi]

theorem status (h : Untouched b b' a) : (b'.vaults a).status = (b.vaults a).status := by
  obtain ⟨i, hi⟩ := h.vault
  rw [hi]

theorem entireColl (h : Untouched b b' a) : b'.entireColl a = b.entireColl a := by
  obtain ⟨i, hi⟩ := h.vault
  simp only [Book.entireColl, pendingRBTC, hi, h.snapshot, h.B_RBTC]

theorem entireDebt (h : Untouched b b' a) : b'.entireDebt a = b.entireDebt a := by
  obtain ⟨i, hi⟩ := h.vault
  simp only [Book.entireDebt, pendingDebt, hi, h.snapshot, h.B_BPDDebt]

theorem appliedDebt (h : Untouched b b' a) : b'.appliedDebt a = b.appliedDebt a := by
  obtain ⟨i, hi⟩ := h.vault
  simp only [Book.appliedDebt, h.entireDebt, hi, h.snapshot, h.B_RBTC]

theorem liquidationSurplus (h : Untouched b b' a) :
    liquidationSurplus price b' a = liquidationSurplus price b a := by
  simp only [Book.liquidationSurplus, h.entireColl, h.entireDebt]

theorem redemptionSurplus (h : Untouched b b' a) :
    redemptionSurplus price b' a = redemptionSurplus price b a := by
  simp only [Book.redemptionSurplus, h.entireColl, h.appliedDebt]

/-- Collecting the rewards of one vault leaves the others alone. -/
theorem collected (hu : u ≠ a) : Untouched b (b.collected a) u := by
  refine ⟨⟨(b.vaults u).arrayIndex, ?_⟩, ?_, rfl, rfl⟩
  · simp [Book.collected, Function.update_of_ne hu]
  · simp [Book.collected, Function.update_of_ne hu]

theorem closed (hu : u ≠ a) : Untouched b (b.closed a st moved data) u := by
  refine ⟨closed_of_ne hu, ?_, rfl, rfl⟩
  simp [Book.closed, Function.update_of_ne hu]

end Untouched

end Book

/-- What happened to the vault of `a` and to the credit of its owner: nothing, or the vault was
changed but kept its status, or it was closed and `lost` was credited. -/
inductive Fate (lost : Book → Address → ℕ) (st : Status) (s s' : State) (a : Address) : Prop
  | kept (h : Untouched s.book s'.book a) (hcredit : s'.credits a = s.credits a)
  | changed (h : (s'.vault a).status = (s.vault a).status) (hcredit : s'.credits a = s.credits a)
  | closed (hactive : s.Active a) (h : (s'.vault a).status = st)
      (hcredit : s'.credits a = s.credits a + lost s.book a)

/-- The vault of `a` is closed with a credit of `lost`, and no other is touched. -/
structure Closes (lost : Book → Address → ℕ) (st : Status) (s s' : State) (a : Address) :
    Prop where
  active : s.Active a
  status : (s'.vault a).status = st
  credit : s'.credits a = s.credits a + lost s.book a
  others : ∀ u, u ≠ a → Untouched s.book s'.book u
  credits : ∀ u, u ≠ a → s'.credits u = s.credits u

variable {lost : Book → Address → ℕ} {st : Status}

/-- The credit that the fate of a vault comes to. -/
theorem Fate.credit (h : Fate lost st s s' a) (hst : st ≠ .active) : s'.credits a = s.credits a +
    if s.Active a ∧ (s'.vault a).status = st then lost s.book a else 0 := by
  have hsame (hstatus : (s'.vault a).status = (s.vault a).status) :
      ¬(s.Active a ∧ (s'.vault a).status = st) := by
    rintro ⟨hactive, hclosed⟩
    exact hst (hclosed.symm.trans (hstatus.trans hactive))
  cases h with
  | kept h hcredit => rw [if_neg (hsame h.status), hcredit, Nat.add_zero]
  | changed h hcredit => rw [if_neg (hsame h), hcredit, Nat.add_zero]
  | closed hactive h hcredit => rw [if_pos ⟨hactive, h⟩, hcredit]

theorem Fate.refl : Fate lost st s s a := .kept (.refl _ _) rfl

/-- A vault that was not touched meets its fate later. -/
theorem Fate.later {t : State} (hlost : ∀ b b' a, Untouched b b' a → lost b' a = lost b a)
    (hsame : Untouched s.book t.book a) (hcredit : t.credits a = s.credits a)
    (h : Fate lost st t s' a) : Fate lost st s s' a := by
  cases h with
  | kept h hcredit' => exact .kept (hsame.trans h) (hcredit'.trans hcredit)
  | changed h hcredit' => exact .changed (h.trans hsame.status) (hcredit'.trans hcredit)
  | closed hactive h hcredit' =>
    refine .closed (hsame.status.symm.trans hactive) h ?_
    rw [hcredit', hcredit, hlost _ _ _ hsame]

/-- One vault is closed first, the others meet their fates after it. -/
theorem Closes.fate {t : State} (hlost : ∀ b b' a, Untouched b b' a → lost b' a = lost b a)
    (hst : st ≠ .active) (h : Closes lost st s t a) (hrest : ∀ u, Fate lost st t s' u)
    (u : Address) : Fate lost st s s' u := by
  by_cases hu : u = a
  · subst hu
    have hclosed {c : ℕ} (hstatus : (s'.vault u).status = (t.vault u).status)
        (hcredit : c = t.credits u) : (s'.vault u).status = st ∧
          c = s.credits u + lost s.book u :=
      ⟨hstatus.trans h.status, hcredit.trans h.credit⟩
    cases hrest u with
    | kept hkept hcredit =>
      obtain ⟨hstatus, hcredit⟩ := hclosed hkept.status hcredit
      exact .closed h.active hstatus hcredit
    | changed hstatus hcredit =>
      obtain ⟨hstatus, hcredit⟩ := hclosed hstatus hcredit
      exact .closed h.active hstatus hcredit
    | closed hactive => exact absurd (h.status.symm.trans hactive) hst
  · exact (hrest u).later hlost (h.others u hu) (h.credits u hu)

/-- Closing a vault whose rewards have been collected, or need not be. -/
theorem closes_of_book {b : Book} {moved : Address} {data : SortedVaults}
    (hxs : s.book.Registry xs) (hb : b = s.book ∨ b = s.book.collected a)
    (hremove : SortedVaults.remove a b.sortedVaults = .ok data)
    (hbook : s'.book = b.closed a st moved data)
    (hcredits : s'.credits = Function.update s.credits a (s.credits a + lost s.book a)) :
    Closes lost st s s' a := by
  have hsorted : b.sortedVaults = s.book.sortedVaults := by
    rcases hb with rfl | rfl <;> rfl
  rw [hsorted] at hremove
  have huntouched (u : Address) (hu : u ≠ a) : Untouched s.book b u := by
    rcases hb with rfl | rfl
    · exact .refl _ u
    · exact .collected hu
  constructor
  · have hcontains := (SortedVaults.remove_ok hremove).1
    exact (hxs.active a).mpr (hxs.linked.contains_iff.mp hcontains)
  · obtain ⟨i, hi⟩ : ∃ i, (b.closed a st moved data).vaults a = ⟨0, 0, 0, st, i⟩ := closed_self
    have hvault : s'.vault a = (b.closed a st moved data).vaults a :=
      congrFun (congrArg Book.vaults hbook) a
    rw [hvault, hi]
  · rw [hcredits, Function.update_self]
  · intro u hu
    rw [hbook]
    exact (huntouched u hu).trans (.closed hu)
  · intro u hu
    rw [hcredits, Function.update_of_ne hu]

namespace VaultManager

variable {l l' : LiquidationLoop} {collLeft : ℕ → LiquidationValues → Outcome ℕ}

theorem accountSurplus_credits {v : ℕ} (h : CollSurplusPool.accountSurplus a v s = .ok s') :
    s'.credits = Function.update s.credits a (s.credits a + v) := by
  simp only [CollSurplusPool.accountSurplus, bind_ok, pure_ok, SafeMath.add_ok] at h
  obtain ⟨_, ⟨-, rfl⟩, rfl⟩ := h
  rfl

theorem accountCollSurplus_credits {v : ℕ} (h : accountCollSurplus a v s = .ok s') :
    s'.credits = Function.update s.credits a (s.credits a + v) := by
  simp only [accountCollSurplus, ite_pure_ok] at h
  rcases h with ⟨-, h⟩ | ⟨hzero, rfl⟩
  · exact accountSurplus_credits h
  · obtain rfl : v = 0 := by omega
    rw [Nat.add_zero, Function.update_eq_self]

/-- The ratio that a liquidation reads is the ratio of the surplus. -/
theorem liquidationSurplus_eq {e : EntireDebtAndColl} {ICR : ℕ}
    (hICR : getCurrentICR a price s = .ok ICR) (he : getEntireDebtAndColl a s = .ok e) :
    liquidationSurplus price s.book a = if MCR ≤ ICR then e.coll - e.debt * MCR / price else 0 := by
  obtain ⟨hRBTC, hBPD⟩ := getEntireDebtAndColl_book he
  obtain ⟨-, -, hdebt, hcoll⟩ := getEntireDebtAndColl_ok he
  have hentireColl : s.book.entireColl a = e.coll := by
    rw [hcoll, hRBTC]
    rfl
  have hentireDebt : s.book.entireDebt a = e.debt := by
    rw [hdebt, hBPD]
    rfl
  rw [liquidationSurplus, hentireColl, hentireDebt, getCurrentICR_ok hICR he]

theorem detach_close_closes {e : EntireDebtAndColl} (hxs : s.book.Registry xs)
    (he : getEntireDebtAndColl a s = .ok e) {t₁ t₂ : State} (hdetach : detachVault d a e s = .ok t₁)
    (hclose : closeVault a .closedByLiquidation t₁ = .ok t₂) (hbook : s'.book = t₂.book)
    (hcredits : s'.credits = Function.update t₂.credits a
      (t₂.credits a + liquidationSurplus price s.book a)) :
    Closes (liquidationSurplus price) .closedByLiquidation s s' a := by
  obtain ⟨-, -, -, -, -, moved, data, -, -, hremove, hclosed⟩ := detach_close_book he hdetach hclose
  have hsame : t₂.credits = s.credits := by
    rw [credits_of_standing (closeVault_standing hclose),
      credits_of_standing (detachVault_standing hdetach)]
  rw [hsame] at hcredits
  exact closes_of_book hxs (.inr rfl) hremove (hbook.trans hclosed) hcredits

/-- Below the minimum ratio there is no surplus. -/
theorem update_credits_of_lt {e : EntireDebtAndColl} {ICR : ℕ} (t : State)
    (hICR : getCurrentICR a price s = .ok ICR) (he : getEntireDebtAndColl a s = .ok e)
    (hlt : ICR < MCR) : t.credits = Function.update t.credits a
      (t.credits a + liquidationSurplus price s.book a) := by
  rw [liquidationSurplus_eq hICR he, if_neg (Nat.not_le.mpr hlt), Nat.add_zero,
    Function.update_eq_self]

theorem liquidateNormalMode_closes {v : LiquidationValues} {ICR pool : ℕ}
    (hxs : s.book.Registry xs) (hICR : getCurrentICR a price s = .ok ICR) (hlt : ICR < MCR)
    (h : liquidateNormalMode d a pool s = .ok (v, s')) :
    Closes (liquidationSurplus price) .closedByLiquidation s s' a := by
  simp only [liquidateNormalMode, bind_ok, pure_ok, Prod.mk.injEq] at h
  obtain ⟨e, he, s₁, hdetach, _, -, _, -, s₂, hclose, -, rfl⟩ := h
  exact detach_close_closes hxs he hdetach hclose rfl (update_credits_of_lt s₂ hICR he hlt)

theorem liquidateRecoveryMode_closes {v : LiquidationValues} {ICR pool TCR : ℕ}
    (hxs : s.book.Registry xs) (hICR : getCurrentICR a price s = .ok ICR)
    (h : liquidateRecoveryMode d a ICR pool TCR price s = .ok (v, s')) :
    s' = s ∨ Closes (liquidationSurplus price) .closedByLiquidation s s' a := by
  rw [liquidateRecoveryMode] at h
  by_cases hsingle : s.vaultManager.vaultOwners.length ≤ 1
  · rw [if_pos hsingle] at h
    simp only [pure_ok, Prod.mk.injEq] at h
    exact .inl h.2.symm
  rw [if_neg hsingle] at h
  simp only [bind_ok] at h
  obtain ⟨e, he, _, -, h⟩ := h
  split_ifs at h with hunder hmid hcapped
  · simp only [bind_ok, pure_ok, Prod.mk.injEq] at h
    obtain ⟨s₁, hdetach, s₂, hclose, -, rfl⟩ := h
    have hlt : ICR < MCR := lt_of_le_of_lt hunder (by decide)
    exact .inr (detach_close_closes hxs he hdetach hclose rfl (update_credits_of_lt s₂ hICR he hlt))
  · simp only [bind_ok, pure_ok, Prod.mk.injEq] at h
    obtain ⟨s₁, hdetach, _, -, s₂, hclose, -, rfl⟩ := h
    exact .inr (detach_close_closes hxs he hdetach hclose rfl
      (update_credits_of_lt s₂ hICR he hmid.2))
  · simp only [bind_ok, pure_ok, Prod.mk.injEq] at h
    obtain ⟨s₁, hmove, _, -, s₂, hstake, v', hv, s₃, hclose, s₄, hsurplus, -, rfl⟩ := h
    have hdetach : detachVault d a e s = .ok s₂ := by
      simp only [detachVault, bind_ok]
      exact ⟨s₁, hmove, hstake⟩
    have hbook : s₄.book = s₃.book := by
      simp only [accountCollSurplus, ite_pure_ok] at hsurplus
      rcases hsurplus with ⟨-, hsurplus⟩ | ⟨-, rfl⟩
      · exact CollSurplusPool.accountSurplus_book hsurplus
      · rfl
    have hleft : v'.collSurplus = liquidationSurplus price s.book a := by
      rw [liquidationSurplus_eq hICR he, if_pos hcapped.1]
      simp only [getCappedOffsetVals, bind_ok, pure_ok, SafeMath.mul_ok, SafeMath.div_ok,
        SafeMath.sub_ok] at hv
      obtain ⟨_, ⟨-, rfl⟩, _, ⟨-, rfl⟩, _, -, _, ⟨-, rfl⟩, rfl⟩ := hv
      rfl
    rw [hleft] at hsurplus
    exact .inr (detach_close_closes hxs he hdetach hclose hbook
      (accountCollSurplus_credits hsurplus))
  · simp only [pure_ok, Prod.mk.injEq] at h
    exact .inl h.2.symm

theorem LoopStep.closes (hxs : l.state.book.Registry xs) (h : LoopStep collLeft d price l l') :
    l'.state = l.state ∨
      ∃ a, Closes (liquidationSurplus price) .closedByLiquidation l.state l'.state a := by
  cases h with
  | @tally user _ hICR hlt h =>
    obtain ⟨_, hv, -⟩ := liquidateAndTally_ok h
    exact .inr ⟨user, liquidateNormalMode_closes hxs hICR hlt hv⟩
  | @track user _ hICR h =>
    obtain ⟨_, _, -, hv, -⟩ := liquidateAndTrack_ok h
    exact (liquidateRecoveryMode_closes hxs hICR hv).imp id fun h => ⟨user, h⟩

/-- The fates of all vaults in a liquidation loop. -/
theorem loop_fates (hxs : l.state.book.Registry xs)
    (h : Relation.ReflTransGen (LoopStep collLeft d price) l l') (u : Address) :
    Fate (liquidationSurplus price) .closedByLiquidation l.state l'.state u := by
  induction h using Relation.ReflTransGen.head_induction_on generalizing xs u with
  | refl => exact .refl
  | @head l₁ l₂ hstep hrest ih =>
    obtain ⟨ys, hys⟩ := hxs.moves (hstep.moves (P := .any))
    rcases hstep.closes hxs with hsame | ⟨a, hcloses⟩
    · rw [← hsame]
      exact ih hys u
    · exact hcloses.fate (fun _ _ _ h => h.liquidationSurplus) (by decide) (fun u => ih hys u) u

theorem redistributeDebtAndColl_vaults {debt coll : ℕ}
    (h : redistributeDebtAndColl d debt coll s = .ok s') :
    s'.book.vaults = s.book.vaults ∧ s'.standing = s.standing := by
  simp only [redistributeDebtAndColl] at h
  split_ifs at h
  · rw [pure_ok.mp h]
    exact ⟨rfl, rfl⟩
  · simp only [bind_ok, Prod.exists] at h
    obtain ⟨_, _, -, _, _, -, _, -, _, -, s₁, hactive, s₂, hdefault, hsend⟩ := h
    constructor
    · rw [ActivePool.sendRBTC_defaultPool hsend, DefaultPool.increaseBPDDebt_book hdefault,
        ActivePool.decreaseBPDDebt_book hactive, setRewards_book]
    · rw [ActivePool.sendRBTC_standing hsend]
      simp only [DefaultPool.increaseBPDDebt, ActivePool.decreaseBPDDebt, bind_ok, pure_ok]
        at hdefault hactive
      obtain ⟨_, -, rfl⟩ := hactive
      obtain ⟨_, -, rfl⟩ := hdefault
      rfl

theorem sendGasCompensation_standing {liquidator : Address} {BPD RBTC : ℕ}
    (h : sendGasCompensation d liquidator BPD RBTC s = .ok s') : s'.standing = s.standing := by
  simp only [sendGasCompensation, BPDToken.returnFromPool, bind_ok, ite_pure_ok] at h
  obtain ⟨t, hBPD, hRBTC⟩ := h
  have ht : t.standing = s.standing := by
    rcases hBPD with ⟨-, hBPD⟩ | ⟨-, rfl⟩
    · exact BPDToken._transfer_standing hBPD
    · rfl
  rw [← ht]
  rcases hRBTC with ⟨-, hRBTC⟩ | ⟨-, rfl⟩
  · exact ActivePool.sendRBTC_standing hRBTC
  · rfl

/-- The settlement sends the surplus; whom it belongs to has been recorded in the loop. -/
theorem settleLiquidation_vaults {sender : Address} {totals : LiquidationTotals}
    (hsender : sender ≠ d.defaultPool) (h : settleLiquidation d block sender totals s = .ok s') :
    s'.book.vaults = s.book.vaults ∧ s'.standing = s.standing := by
  simp only [settleLiquidation, bind_ok, ite_pure_ok] at h
  obtain ⟨_, -, t₁, hoffset, t₂, hredistribute, t₃, hsurplus, t₄, hsnapshots, _, -, _, -, hgas⟩ := h
  have h₂ := redistributeDebtAndColl_vaults hredistribute
  have h₃ : t₃.book.vaults = t₂.book.vaults ∧ t₃.standing = t₂.standing := by
    rcases hsurplus with ⟨-, hsurplus⟩ | ⟨-, rfl⟩
    · exact ⟨congrArg Book.vaults (ActivePool.sendRBTC_book d.collSurplusPool_ne_defaultPool
        hsurplus), ActivePool.sendRBTC_standing hsurplus⟩
    · exact ⟨rfl, rfl⟩
  have h₄ : t₄.book.vaults = t₃.book.vaults ∧ t₄.standing = t₃.standing := by
    obtain ⟨_, rfl⟩ := updateSystemSnapshots_excludeCollRemainder_ok hsnapshots
    exact ⟨rfl, rfl⟩
  constructor
  · rw [sendGasCompensation_book hsender hgas, h₄.1, h₃.1, h₂.1, StabilityPool.offset_book hoffset]
  · rw [sendGasCompensation_standing hgas, h₄.2, h₃.2, h₂.2, StabilityPool.offset_standing hoffset]

/-- What a liquidation credits: to each owner of a vault that it closed, the surplus. -/
theorem settle_credits {l₀ : LiquidationLoop} {s₀ : State} {sender : Address}
    (hxs : s.book.Registry xs) (hsender : sender ≠ d.defaultPool)
    (hprice : PriceFeed.fetchPrice block s = .ok (price, s₀)) (hstart : l₀.state = s₀)
    (hloop : Relation.ReflTransGen (LoopStep collLeft d price) l₀ l)
    (h : settleLiquidation d block sender l.totals l.state = .ok s') (u : Address) :
    s'.credits u = s.credits u + if s.Active u ∧ (s'.vault u).status = .closedByLiquidation then
      liquidationSurplus price s.book u else 0 := by
  have h₀ := PriceFeed.fetchPrice_book hprice
  rw [← hstart] at hprice h₀
  rw [← h₀] at hxs
  obtain ⟨hvaults, hstanding⟩ := settleLiquidation_vaults hsender h
  have hfate := (loop_fates hxs hloop u).credit (by decide)
  have hstatus : s'.vault u = l.state.vault u := congrFun hvaults u
  have hactive : l₀.state.Active u ↔ s.Active u := by
    have hvault : l₀.state.vault u = s.vault u := congrFun (congrArg Book.vaults h₀) u
    rw [State.Active, State.Active, hvault]
  rw [credits_of_standing (PriceFeed.fetchPrice_standing hprice), h₀] at hfate
  rw [credits_of_standing hstanding, hfate, hstatus]
  simp only [hactive]

variable {hints : RedemptionHints}

theorem redeemFully_closes {s₁ : State} {newColl : ℕ} (hxs : s.book.Registry xs)
    (hpending : applyPendingRewards d a s = .ok s₁)
    (hleft : newColl = redemptionSurplus price s.book a)
    (h : redeemFully d a newColl s₁ = .ok s') :
    Closes (redemptionSurplus price) .closedByRedemption s s' a := by
  obtain ⟨t₁, t₂, hstake, hclose, hbook⟩ := redeemFully_book h
  obtain ⟨-, -, -, moved, data, -, -, hremove, hclosed⟩ := removeStake_closeVault_book hstake hclose
  have hcollected : s₁.book = s.book ∨ s₁.book = s.book.collected a := by
    rcases applyPendingRewards_book (P := .any) hpending with ⟨-, -, hb⟩ | ⟨-, rfl⟩
    · exact .inr hb
    · exact .inl rfl
  refine closes_of_book hxs hcollected hremove (hbook.trans hclosed) ?_
  simp only [redeemFully, redeemCloseVault, ActivePool.decreaseBPDDebt, bind_ok, pure_ok] at h
  obtain ⟨u₁, hstake, u₂, hclose, u₃, hburn, _, ⟨_, -, rfl⟩, u₄, hsurplus, hsend⟩ := h
  have hsame : u₃.credits = s.credits := by
    apply credits_of_standing
    rw [BPDToken.burn_standing hburn, closeVault_standing hclose, removeStake_standing hstake,
      applyPendingRewards_standing hpending]
  rw [credits_of_standing (ActivePool.sendRBTC_standing hsend), accountSurplus_credits hsurplus,
    ← hleft, ← hsame]
  rfl

theorem redeemPartially_status {newColl newDebt newNICR : ℕ}
    (h : redeemPartially d a newColl newDebt newNICR hints s = .ok s') (u : Address) :
    (s'.vault u).status = (s.vault u).status ∧ s'.credits u = s.credits u := by
  simp only [redeemPartially, bind_ok] at h
  obtain ⟨_, hinsert, hstake⟩ := h
  obtain ⟨_, -, rfl⟩ := BorrowerOperations.reInsertSorted_ok hinsert
  constructor
  · obtain ⟨-, hbook⟩ := updateStakeAndTotalStakes_book hstake
    have hvault := congrArg Vault.status (congrFun (congrArg Book.vaults hbook) u)
    refine hvault.trans ?_
    by_cases hu : u = a
    · subst hu
      simp [setVault, State.vault, setSortedVaults]
    · simp [setVault, State.vault, setSortedVaults, State.book, Function.update_of_ne hu]
  · rw [credits_of_standing (updateStakeAndTotalStakes_standing hstake)]
    rfl

theorem applyPendingRewards_status (h : applyPendingRewards d a s = .ok s') (u : Address) :
    (s'.vault u).status = (s.vault u).status := by
  rcases applyPendingRewards_book (P := .any) h with ⟨-, -, hbook⟩ | ⟨-, rfl⟩
  · have hvault := congrArg Vault.status (congrFun (congrArg Book.vaults hbook) u)
    refine hvault.trans ?_
    by_cases hu : u = a
    · subst hu
      simp [Book.collected, State.book, State.vault]
    · simp [Book.collected, State.book, State.vault, Function.update_of_ne hu]
  · rfl

/-- The fates of all vaults in a redemption. -/
theorem redeemLoop_fates {n : ℕ} {t t' : RedemptionTotals} (hxs : s.book.Registry xs)
    (h : redeemLoop d price hints n a t s = .ok (t', s')) (u : Address) :
    Fate (redemptionSurplus price) .closedByRedemption s s' u := by
  induction n generalizing a t s xs u with
  | zero =>
    simp only [redeemLoop, pure_ok, Prod.mk.injEq] at h
    rw [h.2]
    exact .refl
  | succ n ih =>
    simp only [redeemLoop] at h
    split_ifs at h with hvisit
    · simp only [bind_ok, Prod.exists] at h
      obtain ⟨s₁, hpending, v, s₂, hv, h⟩ := h
      have hdebt := applyPendingRewards_debt hpending
      have hcoll := applyPendingRewards_coll hpending
      have hstatus := applyPendingRewards_status hpending
      have hcredits := credits_of_standing (applyPendingRewards_standing hpending)
      obtain ⟨hlot, hRBTCLot, hreserve, -, -, ⟨hcancel, rfl⟩ | ⟨hcancel, hfull, hredeem⟩ |
        ⟨hcancel, hpartial, -, -, hredeem⟩⟩ := redeemCollateralFromVault_ok hv
      · rw [if_pos hcancel] at h
        simp only [pure_ok, Prod.mk.injEq] at h
        rw [← h.2]
        exact .changed (hstatus u) (congrFun hcredits u)
      · simp only [hcancel, Bool.false_eq_true, if_false, bind_ok] at h
        obtain ⟨t₁, -, h⟩ := h
        have hleft : (s₁.vault a).coll - v.RBTCLot = redemptionSurplus price s.book a := by
          have hall : v.BPDLot = s.book.appliedDebt a - BPD_GAS_COMPENSATION := by omega
          rw [hRBTCLot, hall, redemptionSurplus, ← hcoll]
          rfl
        have hcloses := redeemFully_closes hxs hpending hleft hredeem
        obtain ⟨w, x, hstake, hclose, hbook⟩ := redeemFully_book hredeem
        have hmove : Move .any s₁.book s₂.book :=
          hbook ▸ removeStake_closeVault_move (applyPendingRewards_none hpending) hstake hclose
        obtain ⟨ys, hys⟩ := hxs.moves ((applyPendingRewards_moves (P := .any) hpending).tail hmove)
        exact hcloses.fate (fun _ _ _ h => h.redemptionSurplus) (by decide)
          (fun u => ih hys h u) u
      · -- the amount runs out in this vault
        simp only [hcancel, Bool.false_eq_true, if_false, bind_ok] at h
        obtain ⟨t₁, ht₁, h⟩ := h
        rw [redeemLoop_done (by rw [addRedemptionToTotals_ok ht₁]; simp only; omega)] at h
        simp only [Except.ok.injEq, Prod.mk.injEq] at h
        rw [← h.2]
        obtain ⟨hsame, hcredit⟩ := redeemPartially_status hredeem u
        exact .changed (hsame.trans (hstatus u)) (hcredit.trans (congrFun hcredits u))
    · simp only [pure_ok, Prod.mk.injEq] at h
      rw [h.2]
      exact .refl

theorem settleRedemption_vaults {sender : Address} {maxFee supply : ℕ} {t : RedemptionTotals}
    (hsender : sender ≠ d.defaultPool)
    (h : settleRedemption d block sender price maxFee supply t s = .ok s') :
    s'.book = s.book ∧ s'.credits = s.credits := by
  simp only [settleRedemption, bind_ok] at h
  obtain ⟨_, -, _, hrate, _, -, _, -, s₁, hfee, _, hshare, _, -, s₂, hburn, s₃, hdebt, hsend⟩ := h
  obtain ⟨_, _, rfl⟩ := updateBaseRateFromRedemption_ok hrate
  obtain ⟨_, rfl⟩ := MPStaking.increaseF_RBTC_ok hshare
  constructor
  · rw [ActivePool.sendRBTC_book hsender hsend, ActivePool.decreaseBPDDebt_book hdebt,
      BPDToken.burn_book hburn]
    exact (ActivePool.sendRBTC_book d.mpStaking_ne_defaultPool hfee).trans rfl
  · simp only [ActivePool.decreaseBPDDebt, bind_ok, pure_ok] at hdebt
    obtain ⟨_, -, rfl⟩ := hdebt
    rw [credits_of_standing (ActivePool.sendRBTC_standing hsend)]
    exact (credits_of_standing (BPDToken.burn_standing hburn)).trans
      ((credits_of_standing (ActivePool.sendRBTC_standing hfee)).trans rfl)

/-- What a redemption credits: to each owner of a vault that it closed, the surplus. -/
theorem redeemCollateral_credits {sender : Address} {amount maxIterations maxFee : ℕ}
    (hxs : s.book.Registry xs) (hsender : sender ≠ d.defaultPool)
    (h : redeemCollateral d block sender amount hints maxIterations maxFee s = .ok s') :
    ∃ price s₀, PriceFeed.fetchPrice block s = .ok (price, s₀) ∧ ∀ u,
      s'.credits u = s.credits u + if s.Active u ∧ (s'.vault u).status = .closedByRedemption then
        redemptionSurplus price s.book u else 0 := by
  simp only [redeemCollateral, bind_ok, Prod.exists] at h
  obtain ⟨_, -, _, -, price, s₀, hprice, _, -, _, -, _, -, _, -, _, -, first, -, t, s₁, hloop,
    hsettle⟩ := h
  refine ⟨price, s₀, hprice, fun u => ?_⟩
  have h₀ := PriceFeed.fetchPrice_book hprice
  obtain ⟨hbook, hcredits⟩ := settleRedemption_vaults hsender hsettle
  have hfate := (redeemLoop_fates (h₀ ▸ hxs) hloop u).credit (by decide)
  have hstatus : s'.vault u = s₁.vault u := congrFun (congrArg Book.vaults hbook) u
  have hactive : s₀.Active u ↔ s.Active u := by
    have hvault : s₀.vault u = s.vault u := congrFun (congrArg Book.vaults h₀) u
    rw [State.Active, State.Active, hvault]
  rw [credits_of_standing (PriceFeed.fetchPrice_standing hprice), h₀] at hfate
  rw [hcredits, hfate, hstatus]
  simp only [hactive]

end VaultManager

/-- The owner of every vault that the transaction closed with status `st` is credited the
surplus of the vault at the price of the block, and nobody else anything. -/
def CreditsSurplus (surplus : ℕ → Book → Address → ℕ) (st : Status) (block : Block)
    (s s' : State) : Prop :=
  ∃ price s₀, PriceFeed.fetchPrice block s = .ok (price, s₀) ∧ ∀ u,
    s'.credits u = s.credits u +
      if s.Active u ∧ (s'.vault u).status = st then surplus price s.book u else 0

/-- The sender is paid its credit out of the surplus pool, and all other credits stay. -/
structure PaysCredit (d : Deployment) (sender : Address) (s s' : State) : Prop where
  positive : 0 < s.credits sender
  credits : s'.credits = Function.update s.credits sender 0
  counter : s'.collSurplusPool.RBTC + s.credits sender = s.collSurplusPool.RBTC
  paid : s'.rbtc = move d.collSurplusPool sender (s.credits sender) s.rbtc

/-- What a transaction does to the surpluses. -/
def Transaction.SurplusEffect (d : Deployment) (t : Transaction) (s s' : State) : Prop :=
  match t.operation with
  | .claimCollateral => PaysCredit d t.sender s s'
  | .redeemCollateral _ _ _ _ =>
    CreditsSurplus redemptionSurplus .closedByRedemption t.block s s'
  | .liquidate _ | .liquidateVaults _ | .batchLiquidateVaults _ =>
    CreditsSurplus liquidationSurplus .closedByLiquidation t.block s s'
  | _ => s'.credits = s.credits

theorem claimCollateral_pays (hsender : d.External a)
    (h : BorrowerOperations.claimCollateral d a s = .ok s') : PaysCredit d a s s' := by
  simp only [BorrowerOperations.claimCollateral, CollSurplusPool.claimColl, bind_ok, require_ok,
    SafeMath.sub_ok] at h
  obtain ⟨_, hpos, _, ⟨hle, rfl⟩, h⟩ := h
  obtain rfl := callWithValue_external hsender h
  exact ⟨hpos, rfl, Nat.sub_add_cancel hle, rfl⟩

theorem batchLiquidateVaults_credits {sender : Address} {users : List Address}
    (hxs : s.book.Registry xs) (hsender : sender ≠ d.defaultPool)
    (h : batchLiquidateVaults d block sender users s = .ok s') :
    CreditsSurplus liquidationSurplus .closedByLiquidation block s s' := by
  obtain ⟨l, hl, hsettle⟩ := batchLiquidateVaults_loop h
  obtain ⟨price, l₀, s₀, _, hprice, -, hstart, -, hloop⟩ := batchLiquidateVaultsLoop_ok hl
  exact ⟨price, s₀, hprice, settle_credits hxs hsender hprice hstart hloop hsettle⟩

theorem liquidateVaults_credits {sender : Address} {n : ℕ} (hxs : s.book.Registry xs)
    (hsender : sender ≠ d.defaultPool) (h : liquidateVaults d block sender n s = .ok s') :
    CreditsSurplus liquidationSurplus .closedByLiquidation block s s' := by
  obtain ⟨l, hl, hsettle⟩ := liquidateVaults_loop h
  obtain ⟨price, l₀, s₀, _, hprice, -, hstart, -, hloop⟩ := liquidateVaultsLoop_ok hl
  exact ⟨price, s₀, hprice, settle_credits hxs hsender hprice hstart hloop hsettle⟩

theorem transact_surplus {t : Transaction} (hxs : s.book.Registry xs) (hsigned : t.Signed d)
    (h : transact d t s = .ok s') : t.SurplusEffect d s s' := by
  obtain ⟨hsender, -⟩ := hsigned
  have hne := hsender.ne d.defaultPool_mem
  obtain ⟨block, sender, value, operation⟩ := t
  cases operation with
  | claimCollateral => exact claimCollateral_pays hsender (nonPayable_ok h)
  | liquidate =>
    have h := nonPayable_ok h
    simp only [liquidate, bind_ok] at h
    obtain ⟨_, -, h⟩ := h
    exact batchLiquidateVaults_credits hxs hne h
  | liquidateVaults => exact liquidateVaults_credits hxs hne (nonPayable_ok h)
  | batchLiquidateVaults => exact batchLiquidateVaults_credits hxs hne (nonPayable_ok h)
  | redeemCollateral => exact redeemCollateral_credits hxs hne (nonPayable_ok h)
  | _ => exact (transact_borrowing h not_false).credits

/-- The surplus pool counts what it owes, credits each surplus to the owner of the vault that
left it, and pays every claimant its own credit. -/
theorem surplus_conserved (h : Reachable d s) :
    s.collSurplusPool.RBTC = ∑ a, s.credits a ∧
      ∀ t s', t.Signed d → transact d t s = .ok s' → t.SurplusEffect d s s' := by
  constructor
  · have heven := h.balanced.surplus
    simp only [State.ledger, total, id_eq] at heven
    unfold State.credits
    omega
  · intro t s' hsigned ht
    obtain ⟨xs, hxs⟩ := h.registry
    exact transact_surplus hxs hsigned ht

/-- The vault of 101 is liquidated with a capped offset, and 101 may claim what is left. -/
theorem surplus_conserved_liquidated : ∃ s, Reachable testnet s ∧ 0 < s.credits 101 ∧
    s.collSurplusPool.RBTC = ∑ a, s.credits a := by
  obtain ⟨s, h, -, hcheck⟩ := runs_reachable testnet testGenesis
    [⟨testBlock 60000, 100, 10 ^ 18, .openVault (10 ^ 16) (30000 * 10 ^ 18) 0 0⟩,
      ⟨testBlock 60000, 101, 5 * 10 ^ 16, .openVault (10 ^ 16) (1800 * 10 ^ 18) 0 0⟩,
      ⟨testBlock 60000, 100, 0, .provideToSP (5000 * 10 ^ 18) 0⟩,
      ⟨testBlock 45000, 103, 0, .liquidate 101⟩]
    (fun s => 0 < s.credits 101) (by decide +kernel)
  exact ⟨s, h, of_decide_eq_true hcheck, (surplus_conserved h).1⟩

end MoneyProtocol
