import MoneyProtocol.Book.BorrowerOperations

/-!
# Redemptions move the book

Every vault that a redemption visits collects its rewards and is closed, but the one the
amount runs out in: that vault is restaked. Which one it is, and with how much left to
redeem, can be read off the book before the redemption starts.
-/

namespace MoneyProtocol

open Outcome MoneypMath MoneypBase

namespace Book

/-- The debt of a vault once `applyPendingRewards` has run for it. -/
def appliedDebt (b : Book) (a : Address) : ℕ :=
  if (b.rewardSnapshots a).RBTC < b.B_RBTC then b.entireDebt a
  else (b.vaults a).debt

theorem appliedDebt_le {b : Book} {a : Address} : b.appliedDebt a ≤ b.entireDebt a := by
  unfold appliedDebt
  split_ifs
  · exact le_rfl
  · exact Nat.le_add_right _ _

/-- The vault that a redemption of `amount` from `a` upwards runs out in, with the amount it
arrives there with. -/
def lastRedeemed (b : Book) : ℕ → Address → ℕ → Option (Address × ℕ)
  | 0, _, _ => none
  | n + 1, a, amount =>
    if a ≠ 0 ∧ amount > 0 then
      let redeemable := b.appliedDebt a - BPD_GAS_COMPENSATION
      if amount < redeemable then some (a, amount)
      else lastRedeemed b n (SortedVaults.getPrev a b.sortedVaults) (amount - redeemable)
    else none

/-- The redemption runs out in a stale vault and, as the hint is up to date, restakes it. -/
def RedeemsStale (b : Book) (price : ℕ) (hints : VaultManager.RedemptionHints)
    (maxIterations : ℕ) (first : Address) (amount : ℕ) : Prop :=
  ∃ p ∈ b.lastRedeemed maxIterations first amount, b.Stale p.1 ∧
    nominalCR ((b.vaults p.1).coll - p.2 * DECIMAL_PRECISION / price)
      ((b.vaults p.1).debt - p.2) = hints.partialRedemptionHintNICR ∧
    minDebt ≤ (b.vaults p.1).debt - p.2

/-- The redemption runs out in a vault, and as the hint is up to date restakes it with `coll`. -/
def RedeemsInto (b : Book) (price : ℕ) (hints : VaultManager.RedemptionHints)
    (maxIterations : ℕ) (first : Address) (amount coll : ℕ) : Prop :=
  ∃ p ∈ b.lastRedeemed maxIterations first amount,
    coll = b.entireColl p.1 - p.2 * DECIMAL_PRECISION / price ∧
    nominalCR coll (b.appliedDebt p.1 - p.2) = hints.partialRedemptionHintNICR ∧
    minDebt ≤ b.appliedDebt p.1 - p.2

/-- What is left of the list in front of `a` is as it was in `b₀`, and so are the vaults. -/
structure SameAhead (b₀ b : Book) (a : Address) (xs : List Address) : Prop where
  before : ∃ ys, SortedVaults.Linked b₀.sortedVaults (xs ++ a :: ys)
  now : ∃ ys, SortedVaults.Linked b.sortedVaults (xs ++ a :: ys)
  vault : ∀ u ∈ xs ++ [a], { b.vaults u with arrayIndex := 0 } =
    { b₀.vaults u with arrayIndex := 0 }
  snapshot : ∀ u ∈ xs ++ [a], b.rewardSnapshots u = b₀.rewardSnapshots u
  rewards : b.B_RBTC = b₀.B_RBTC ∧ b.B_BPDDebt = b₀.B_BPDDebt
  systemSnapshots : b.totalStakesSnapshot = b₀.totalStakesSnapshot ∧
    b.totalCollateralSnapshot = b₀.totalCollateralSnapshot

variable {b₀ b : Book} {a u : Address} {xs ys : List Address}

theorem SameAhead.refl (h : SortedVaults.Linked b.sortedVaults (xs ++ a :: ys)) :
    SameAhead b b a xs :=
  ⟨⟨ys, h⟩, ⟨ys, h⟩, fun _ _ => rfl, fun _ _ => rfl, ⟨rfl, rfl⟩, ⟨rfl, rfl⟩⟩

theorem SameAhead.getPrev (h : SameAhead b₀ b a xs) :
    SortedVaults.getPrev a b.sortedVaults = xs.getLastD 0 ∧
      SortedVaults.getPrev a b₀.sortedVaults = xs.getLastD 0 := by
  obtain ⟨ys, hnow⟩ := h.now
  obtain ⟨zs, hbefore⟩ := h.before
  exact ⟨hnow.represents.prev_eq, hbefore.represents.prev_eq⟩

theorem SameAhead.record (h : SameAhead b₀ b a xs) :
    (b.vaults a).coll = (b₀.vaults a).coll ∧ (b.vaults a).debt = (b₀.vaults a).debt ∧
      (b.vaults a).stake = (b₀.vaults a).stake ∧ (b.vaults a).status = (b₀.vaults a).status := by
  have := h.vault a (by simp)
  simp only [Vault.mk.injEq] at this
  tauto

theorem SameAhead.appliedDebt (h : SameAhead b₀ b a xs) : b.appliedDebt a = b₀.appliedDebt a := by
  obtain ⟨-, hdebt, hstake, hstatus⟩ := h.record
  simp only [Book.appliedDebt, entireDebt, pendingDebt, hdebt, hstake, hstatus,
    h.snapshot a (by simp), h.rewards.1, h.rewards.2]

theorem SameAhead.entireColl (h : SameAhead b₀ b a xs) : b.entireColl a = b₀.entireColl a := by
  obtain ⟨hcoll, -, hstake, hstatus⟩ := h.record
  simp only [Book.entireColl, pendingRBTC, hcoll, hstake, hstatus, h.snapshot a (by simp),
    h.rewards.1]

theorem SameAhead.stale (h : SameAhead b₀ b a xs) : b.Stale a ↔ b₀.Stale a := by
  simp only [Stale, h.snapshot a (by simp), h.rewards.1, h.rewards.2]

theorem SameAhead.allowsStake {P : Policy} {coll : ℕ} (h : SameAhead b₀ b a xs) :
    b.AllowsStake P coll ↔ b₀.AllowsStake P coll := by
  rw [AllowsStake, AllowsStake, h.systemSnapshots.1, h.systemSnapshots.2]

/-- After `a` was collected and closed, the same holds for the vault in front of it. -/
theorem SameAhead.closed {b' : Book} {p : Address} {st : Status} {moved : Address}
    {data : SortedVaults} (h : SameAhead b₀ b a (xs ++ [p])) (hb : b' = b ∨ b' = b.collected a)
    (hremove : SortedVaults.remove a b'.sortedVaults = .ok data) :
    SameAhead b₀ (b'.closed a st moved data) p xs := by
  obtain ⟨ys, hnow⟩ := h.now
  obtain ⟨zs, hbefore⟩ := h.before
  have hsorted : b'.sortedVaults = b.sortedVaults := by
    rcases hb with rfl | rfl <;> rfl
  have hne : ∀ u ∈ xs ++ [p], u ≠ a := by
    rintro u hu rfl
    exact (List.nodup_append.mp hnow.nodup).2.2 _ hu _ (by simp) rfl
  have hvaults : ∀ u ∈ xs ++ [p], b'.vaults u = b.vaults u ∧
      b'.rewardSnapshots u = b.rewardSnapshots u := by
    intro u hu
    rcases hb with rfl | rfl
    · exact ⟨rfl, rfl⟩
    · exact ⟨Function.update_of_ne (hne u hu) _ _, Function.update_of_ne (hne u hu) _ _⟩
  have hrewards : b'.B_RBTC = b.B_RBTC ∧ b'.B_BPDDebt = b.B_BPDDebt := by
    rcases hb with rfl | rfl <;> exact ⟨rfl, rfl⟩
  have hsystem : b'.totalStakesSnapshot = b.totalStakesSnapshot ∧
      b'.totalCollateralSnapshot = b.totalCollateralSnapshot := by
    rcases hb with rfl | rfl <;> exact ⟨rfl, rfl⟩
  rw [hsorted] at hremove
  refine ⟨⟨a :: zs, by simpa using hbefore⟩, ⟨ys, ?_⟩, fun u hu => ?_, fun u hu => ?_,
    ⟨hrewards.1.trans h.rewards.1, hrewards.2.trans h.rewards.2⟩,
    ⟨hsystem.1.trans h.systemSnapshots.1, hsystem.2.trans h.systemSnapshots.2⟩⟩
  · simpa [Book.closed] using SortedVaults.remove_linked hnow hremove
  · rw [← h.vault u (List.mem_append_left _ hu), ← (hvaults u hu).1]
    simp only [Book.closed]
    by_cases hu' : u = moved
    · subst hu'
      simp [Function.update_of_ne (hne u hu)]
    · rw [Function.update_of_ne hu', Function.update_of_ne (hne u hu)]
  · rw [← h.snapshot u (List.mem_append_left _ hu), ← (hvaults u hu).2]
    exact Function.update_of_ne (hne u hu) _ _

end Book

namespace VaultManager

open Book

variable {d : Deployment} {s s' : State} {block : Block} {a : Address} {price : ℕ} {P : Policy}
  {hints : RedemptionHints}

theorem redeemFully_book {newColl : ℕ} (h : redeemFully d a newColl s = .ok s') :
    ∃ t u, removeStake a s = .ok t ∧ closeVault a .closedByRedemption t = .ok u ∧
      s'.book = u.book := by
  simp only [redeemFully, redeemCloseVault, bind_ok] at h
  obtain ⟨t, hstake, u, hclose, _, hburn, _, hdebt, _, hsurplus, hsend⟩ := h
  refine ⟨t, u, hstake, hclose, ?_⟩
  rw [ActivePool.sendRBTC_book d.collSurplusPool_ne_defaultPool hsend,
    CollSurplusPool.accountSurplus_book hsurplus, ActivePool.decreaseBPDDebt_book hdebt,
    BPDToken.burn_book hburn]

theorem redeemPartially_move {newColl newDebt : ℕ} (hfresh : P.fresh → ¬s.book.Stale a)
    (hnone : s.book.Active a → s.book.B_RBTC ≤ (s.book.rewardSnapshots a).RBTC)
    (hdebt : minDebt ≤ newDebt) (hallowed : s.book.AllowsStake P newColl)
    (h : redeemPartially d a newColl newDebt (nominalCR newColl newDebt) hints s = .ok s') :
    Move P s.book s'.book := by
  simp only [redeemPartially, bind_ok] at h
  obtain ⟨_, hinsert, hstake⟩ := h
  obtain ⟨data, hdata, rfl⟩ := BorrowerOperations.reInsertSorted_ok hinsert
  obtain ⟨hle, hbook⟩ := updateStakeAndTotalStakes_book hstake
  have hself (v : Vault) : State.vault (setVault a v (setSortedVaults data s)) a = v := by
    simp [setVault, State.vault]
  have hset (v : Vault) : (setVault a v (setSortedVaults data s)).book =
      { s.book with vaults := Function.update s.book.vaults a v, sortedVaults := data } :=
    rfl
  rw [hset] at hle
  rw [hset, hself] at hbook
  have hfinal : s'.book = s.book.restaked a newColl newDebt data := by
    rw [hbook]
    simp [Book.restaked, Book.newStake, setSortedVaults, State.vault, State.book]
  have hstake : (s.book.vaults a).stake ≤ s.book.totalStakes := by
    simpa [setSortedVaults, State.vault, State.book] using hle
  rw [hfinal]
  exact .restaked hfresh hnone (fun _ => hdebt) hstake (fun _ _ _ hr => getNominalICR_ok hr) hdata
    hallowed

theorem applyPendingRewards_debt (h : applyPendingRewards d a s = .ok s') :
    (s'.vault a).debt = s.book.appliedDebt a := by
  rcases applyPendingRewards_book (P := .any) h with ⟨hpending, -, hbook⟩ | ⟨hnone, rfl⟩
  · have hself : s'.vault a = (s.book.collected a).vaults a :=
      congrFun (congrArg Book.vaults hbook) a
    simp only [hasPendingRewards] at hpending
    split_ifs at hpending
    have hlt : (s.book.rewardSnapshots a).RBTC < s.book.B_RBTC := of_decide_eq_true hpending
    rw [hself, Book.appliedDebt, if_pos hlt]
    simp [Book.collected]
  · rw [Book.appliedDebt]
    split_ifs with hlt
    · simp only [hasPendingRewards] at hnone
      split_ifs at hnone with hinactive
      · have hzero : s'.book.pendingDebt a = 0 := if_neg hinactive
        rw [entireDebt, hzero]
        rfl
      · exact absurd hlt (of_decide_eq_false hnone)
    · rfl

/-- Nothing left to redeem ends the loop. -/
theorem redeemLoop_done {n : ℕ} {t : RedemptionTotals} (ht : t.remainingBPD = 0) :
    redeemLoop d price hints n a t s = .ok (t, s) := by
  cases n with
  | zero => rfl
  | succ n =>
    rw [redeemLoop, if_neg (by omega)]
    rfl

/-- Once the vault is redeemed and closed, the same holds for the one in front of it. -/
theorem redeemFully_ahead {b₀ : Book} {xs : List Address} {s₁ : State} {newColl : ℕ}
    (hahead : SameAhead b₀ s.book a xs) (hpending : applyPendingRewards d a s = .ok s₁)
    (hredeem : redeemFully d a newColl s₁ = .ok s') :
    SortedVaults.getPrev a s.sortedVaults = 0 ∨
      SameAhead b₀ s'.book (SortedVaults.getPrev a s.sortedVaults) xs.dropLast := by
  obtain ⟨u, w, hstake, hclose, hbook⟩ := redeemFully_book hredeem
  obtain ⟨-, -, -, moved, data, -, -, hremove, hclosed⟩ := removeStake_closeVault_book hstake hclose
  have hcollected : s₁.book = s.book ∨ s₁.book = s.book.collected a := by
    rcases applyPendingRewards_book (P := .any) hpending with ⟨-, -, hb⟩ | ⟨-, rfl⟩
    · exact .inr hb
    · exact .inl rfl
  have hprev : SortedVaults.getPrev a s.sortedVaults = xs.getLastD 0 := hahead.getPrev.1
  rw [hprev]
  rcases xs.eq_nil_or_concat with rfl | ⟨front, p, rfl⟩
  · exact .inl rfl
  · rw [List.concat_eq_append] at hahead ⊢
    rw [List.getLastD_concat, List.dropLast_concat, hbook, hclosed]
    exact .inr (hahead.closed hcollected hremove)

theorem redeemLoop_moves {b₀ : Book} {xs : List Address} {n : ℕ} {t t' : RedemptionTotals}
    (hahead : a = 0 ∨ SameAhead b₀ s.book a xs)
    (hfresh : P.fresh → ¬b₀.RedeemsStale price hints n a t.remainingBPD)
    (hallowed : ∀ coll, b₀.RedeemsInto price hints n a t.remainingBPD coll → b₀.AllowsStake P coll)
    (h : redeemLoop d price hints n a t s = .ok (t', s')) : Moves P s.book s'.book := by
  induction n generalizing a t s xs with
  | zero =>
    simp only [redeemLoop, pure_ok, Prod.mk.injEq] at h
    rw [h.2]
  | succ n ih =>
    simp only [redeemLoop] at h
    split_ifs at h with hvisit
    · simp only [bind_ok, Prod.exists] at h
      obtain ⟨s₁, hpending, v, s₂, hv, h⟩ := h
      have hahead := hahead.resolve_left hvisit.1
      have happly := applyPendingRewards_moves (P := P) hpending
      have hdebt := (applyPendingRewards_debt hpending).trans hahead.appliedDebt
      have hprev : SortedVaults.getPrev a s.sortedVaults = xs.getLastD 0 := hahead.getPrev.1
      obtain ⟨hlot, hRBTCLot, hreserve, -, -, ⟨hcancel, rfl⟩ | ⟨hcancel, hfull, hredeem⟩ |
        ⟨hcancel, hpartial, hmin, hhint, hredeem⟩⟩ := redeemCollateralFromVault_ok hv
      · rw [if_pos hcancel] at h
        simp only [pure_ok, Prod.mk.injEq] at h
        rw [← h.2]
        exact happly
      · -- the vault is closed, and the loop goes on with the one in front of it
        simp only [hcancel, Bool.false_eq_true, if_false, bind_ok] at h
        obtain ⟨t₁, ht₁, h⟩ := h
        obtain ⟨u, w, hstake, hclose, hbook⟩ := redeemFully_book hredeem
        have hclosing : Move P s₁.book s₂.book :=
          hbook ▸ removeStake_closeVault_move (applyPendingRewards_none hpending) hstake hclose
        have hrest : t.remainingBPD ≥ b₀.appliedDebt a - BPD_GAS_COMPENSATION ∧
            t₁.remainingBPD = t.remainingBPD - (b₀.appliedDebt a - BPD_GAS_COMPENSATION) := by
          rw [addRedemptionToTotals_ok ht₁]
          simp only
          omega
        have hpath : b₀.lastRedeemed (n + 1) a t.remainingBPD =
            b₀.lastRedeemed n (SortedVaults.getPrev a s.sortedVaults) t₁.remainingBPD := by
          rw [lastRedeemed, if_pos hvisit, if_neg (by omega), hahead.getPrev.2, ← hprev, ← hrest.2]
        refine (happly.tail hclosing).trans
          (ih (redeemFully_ahead hahead hpending hredeem) (fun hP => ?_) (fun coll => ?_) h)
        · rintro ⟨p, hp, hstale⟩
          exact hfresh hP ⟨p, hpath ▸ hp, hstale⟩
        · rintro ⟨p, hp, hinto⟩
          exact hallowed coll ⟨p, hpath ▸ hp, hinto⟩
      · -- the amount runs out in this vault
        simp only [hcancel, Bool.false_eq_true, if_false, bind_ok] at h
        obtain ⟨t₁, ht₁, h⟩ := h
        have hlt : t.remainingBPD < b₀.appliedDebt a - BPD_GAS_COMPENSATION := by omega
        have hall : v.BPDLot = t.remainingBPD := by omega
        rw [redeemLoop_done (by rw [addRedemptionToTotals_ok ht₁]; simp only; omega)] at h
        simp only [Except.ok.injEq, Prod.mk.injEq] at h
        rw [← h.2]
        rw [← computeNominalCR_ok hhint] at hredeem
        have hcoll : (s₁.vault a).coll = b₀.entireColl a :=
          (applyPendingRewards_coll hpending).trans hahead.entireColl
        have hpath : (a, t.remainingBPD) ∈ b₀.lastRedeemed (n + 1) a t.remainingBPD := by
          rw [lastRedeemed, if_pos hvisit, if_pos hlt]
          rfl
        refine happly.tail (redeemPartially_move (fun hP hstale => ?_)
          (applyPendingRewards_none hpending) hmin ?_ hredeem)
        · rcases applyPendingRewards_book (P := .any) hpending with ⟨-, -, hb⟩ | ⟨-, rfl⟩
          · rw [hb] at hstale
            simp [Book.collected, Stale] at hstale
          · obtain ⟨hcoll, hdebt', -, -⟩ := hahead.record
            refine hfresh hP ⟨(a, t.remainingBPD), hpath, hahead.stale.mp hstale, ?_, ?_⟩
            · rw [← hcoll, ← hdebt', ← hall, ← hRBTCLot]
              exact computeNominalCR_ok hhint
            · rw [← hdebt', ← hall]
              exact hmin
        · rw [applyPendingRewards_allowsStake hpending, hahead.allowsStake]
          refine hallowed _ ⟨(a, t.remainingBPD), hpath, ?_, ?_, ?_⟩
          · rw [hcoll, hRBTCLot, hall]
          · rw [← hdebt, ← hall]
            exact computeNominalCR_ok hhint
          · rw [← hdebt, ← hall]
            exact hmin
    · simp only [pure_ok, Prod.mk.injEq] at h
      rw [h.2]

theorem skipUnderCollateralized_mem {zs : List Address} {fuel : ℕ} {first : Address}
    (hlinked : SortedVaults.Linked s.sortedVaults zs) (hfirst : first = 0 ∨ first ∈ zs)
    (h : skipUnderCollateralized price s fuel first = .ok a) : a = 0 ∨ a ∈ zs := by
  induction fuel generalizing first with
  | zero => simp [skipUnderCollateralized] at h
  | succ fuel ih =>
    simp only [skipUnderCollateralized] at h
    split_ifs at h with hzero
    · exact .inl ((pure_ok.mp h) ▸ hzero)
    · simp only [bind_ok] at h
      obtain ⟨_, -, h⟩ := h
      split_ifs at h
      · refine ih ?_ h
        obtain ⟨front, ys, rfl⟩ := List.append_of_mem (hfirst.resolve_left hzero)
        have hprev : SortedVaults.getPrev first s.sortedVaults = front.getLastD 0 :=
          hlinked.represents.prev_eq
        rw [hprev]
        rcases front.eq_nil_or_concat with rfl | ⟨front, p, rfl⟩
        · exact .inl rfl
        · rw [List.concat_eq_append, List.getLastD_concat]
          simp
      · exact (pure_ok.mp h) ▸ hfirst

theorem firstBorrower_mem {zs : List Address} (hlinked : SortedVaults.Linked s.sortedVaults zs)
    (h : firstBorrower price hints s = .ok a) : a = 0 ∨ a ∈ zs := by
  simp only [firstBorrower, bind_ok] at h
  obtain ⟨valid, hvalid, h⟩ := h
  split_ifs at h with hhint
  · obtain rfl := pure_ok.mp h
    by_cases hno : hints.firstRedemptionHint = 0 ∨
        ¬SortedVaults.contains hints.firstRedemptionHint s.sortedVaults
    · rw [isValidFirstRedemptionHint, if_pos hno, pure_ok] at hvalid
      rw [← hvalid] at hhint
      contradiction
    · simp only [not_or, not_not] at hno
      exact .inr (hlinked.contains_iff.mp hno.2)
  · refine skipUnderCollateralized_mem hlinked ?_ h
    by_cases hzs : zs = []
    · have htail : s.sortedVaults.tail = zs.getLastD 0 := hlinked.represents.tail_eq
      rw [hzs] at htail
      exact .inl htail
    · exact .inr (hlinked.represents.tail_mem hzs)

/-- The redemption sets a stake for `coll`. -/
def RedemptionStakes (block : Block) (BPDamount : ℕ) (hints : RedemptionHints)
    (maxIterations : ℕ) (s : State) (coll : ℕ) : Prop :=
  ∃ price s₀ first, PriceFeed.fetchPrice block s = .ok (price, s₀) ∧
    firstBorrower price hints s₀ = .ok first ∧
    s.book.RedeemsInto price hints (if maxIterations = 0 then UINT256_MAX else maxIterations) first
      BPDamount coll

/-- The redemption restakes a stale vault. -/
def RedemptionRestakesStale (block : Block) (BPDamount : ℕ) (hints : RedemptionHints)
    (maxIterations : ℕ) (s : State) : Prop :=
  ∃ price s₀ first, PriceFeed.fetchPrice block s = .ok (price, s₀) ∧
    firstBorrower price hints s₀ = .ok first ∧
    s.book.RedeemsStale price hints (if maxIterations = 0 then UINT256_MAX else maxIterations) first
      BPDamount

theorem redeemCollateral_moves {zs : List Address} {sender : Address}
    {amount maxIterations maxFee : ℕ} (hlinked : SortedVaults.Linked s.sortedVaults zs)
    (hsender : sender ≠ d.defaultPool)
    (hfresh : P.fresh → ¬RedemptionRestakesStale block amount hints maxIterations s)
    (hallowed : ∀ coll, RedemptionStakes block amount hints maxIterations s coll →
      s.book.AllowsStake P coll)
    (h : redeemCollateral d block sender amount hints maxIterations maxFee s = .ok s') :
    Moves P s.book s'.book := by
  simp only [redeemCollateral, bind_ok, Prod.exists] at h
  obtain ⟨_, -, _, -, price, s₀, hprice, _, -, _, -, _, -, _, -, _, -, first, hfirst, t, s₁, hloop,
    hsettle⟩ := h
  have h₀ := PriceFeed.fetchPrice_book hprice
  have hahead : ∃ xs, first = 0 ∨ SameAhead s₀.book s₀.book first xs := by
    have hlinked₀ : SortedVaults.Linked s₀.sortedVaults zs := by
      have : s₀.sortedVaults = s.sortedVaults := congrArg Book.sortedVaults h₀
      rwa [this]
    rcases firstBorrower_mem hlinked₀ hfirst with hzero | hmem
    · exact ⟨[], .inl hzero⟩
    · obtain ⟨xs, ys, rfl⟩ := List.append_of_mem hmem
      exact ⟨xs, .inr (.refl hlinked₀)⟩
  obtain ⟨xs, hahead⟩ := hahead
  have hmoves : Moves P s₀.book s₁.book := by
    refine redeemLoop_moves hahead
      (fun hP hstale => hfresh hP ⟨price, s₀, first, hprice, hfirst, ?_⟩)
      (fun coll hinto => ?_) hloop
    · rw [← h₀]
      exact hstale
    · rw [h₀] at hinto ⊢
      exact hallowed coll ⟨price, s₀, first, hprice, hfirst, hinto⟩
  simp only [settleRedemption, bind_ok] at hsettle
  obtain ⟨_, -, _, hrate, _, -, _, -, _, hfee, _, hshare, _, -, _, hburn, _, hdebt, hsend⟩ :=
    hsettle
  obtain ⟨_, _, rfl⟩ := updateBaseRateFromRedemption_ok hrate
  obtain ⟨_, rfl⟩ := MPStaking.increaseF_RBTC_ok hshare
  rw [ActivePool.sendRBTC_book hsender hsend, ActivePool.decreaseBPDDebt_book hdebt,
    BPDToken.burn_book hburn]
  have hpaid := ActivePool.sendRBTC_book d.mpStaking_ne_defaultPool hfee
  rw [h₀] at hmoves
  exact hpaid ▸ hmoves

end VaultManager

end MoneyProtocol
