import MoneyProtocol.Redemption.Vaults
import MoneyProtocol.Safety.SortedList

/-!
# Where the last vault goes

The hints for the vault that is redeemed in part choose its place in the list, and nothing else.
As long as all nominal ratios can be read, a search succeeds from any hints, so that two
redemptions that differ in these hints alone take the same amounts from the same vaults.
-/

namespace MoneyProtocol

open Outcome MoneypMath MoneypBase Book

variable {d : Deployment} {s s' s₁ : State} {block : Block} {a u sender : Address}
  {price n v : ℕ} {data : SortedVaults} {t t' : RedemptionTotals} {zs : List Address}

theorem callWithValue_relisted {caller recipient : Address}
    (h : callWithValue d caller recipient v s = .ok s') :
    callWithValue d caller recipient v (VaultManager.setSortedVaults data s) =
      .ok (VaultManager.setSortedVaults data s') := by
  simp only [callWithValue, bind_ok] at h ⊢
  obtain ⟨s₁, hmove, h⟩ := h
  simp only [transferRBTC, bind_ok, pure_ok] at hmove ⊢
  obtain ⟨_, hcovers, rfl⟩ := hmove
  refine ⟨_, ⟨(), hcovers, rfl⟩, ?_⟩
  unfold receive at h ⊢
  split_ifs at h ⊢
  · simp only [ActivePool.receive, bind_ok, pure_ok] at h ⊢
    obtain ⟨_, hcaller, _, hadd, rfl⟩ := h
    exact ⟨_, hcaller, _, hadd, rfl⟩
  · simp only [DefaultPool.receive, bind_ok, pure_ok] at h ⊢
    obtain ⟨_, hcaller, _, hadd, rfl⟩ := h
    exact ⟨_, hcaller, _, hadd, rfl⟩
  · simp only [CollSurplusPool.receive, bind_ok, pure_ok] at h ⊢
    obtain ⟨_, hcaller, _, hadd, rfl⟩ := h
    exact ⟨_, hcaller, _, hadd, rfl⟩
  · simp only [StabilityPool.receive, bind_ok, pure_ok] at h ⊢
    obtain ⟨_, hcaller, _, hadd, rfl⟩ := h
    exact ⟨_, hcaller, _, hadd, rfl⟩
  · simp only [MPStaking.receive, bind_ok, pure_ok] at h ⊢
    obtain ⟨_, hcaller, rfl⟩ := h
    exact ⟨_, hcaller, rfl⟩
  · rw [Except.ok.injEq] at h
    rw [← h]
    rfl

theorem ActivePool.sendRBTC_relisted (h : ActivePool.sendRBTC d a v s = .ok s') :
    ActivePool.sendRBTC d a v (VaultManager.setSortedVaults data s) =
      .ok (VaultManager.setSortedVaults data s') := by
  simp only [ActivePool.sendRBTC, bind_ok] at h ⊢
  obtain ⟨left, hleft, h⟩ := h
  exact ⟨left, hleft, callWithValue_relisted h⟩

namespace VaultManager

theorem updateStakeAndTotalStakes_relisted (h : updateStakeAndTotalStakes a s = .ok s') :
    updateStakeAndTotalStakes a (setSortedVaults data s) = .ok (setSortedVaults data s') := by
  simp only [updateStakeAndTotalStakes, bind_ok, pure_ok] at h ⊢
  obtain ⟨stake, hstake, remaining, hremaining, total, htotal, rfl⟩ := h
  exact ⟨stake, hstake, remaining, hremaining, total, htotal, rfl⟩

/-- The list that is set last counts. -/
theorem setVault_relisted (data data' : SortedVaults) {vault : Vault} :
    setVault a vault (setSortedVaults data' s) =
      setSortedVaults data' (setVault a vault (setSortedVaults data s)) :=
  rfl

theorem updateBaseRateFromRedemption_relisted {drawn supply : ℕ}
    (h : updateBaseRateFromRedemption block drawn price supply s = .ok s') :
    updateBaseRateFromRedemption block drawn price supply (setSortedVaults data s) =
      .ok (setSortedVaults data s') := by
  simp only [updateBaseRateFromRedemption, bind_ok] at h ⊢
  obtain ⟨decayed, hdecayed, usd, husd, fraction, hfraction, increase, hincrease, rate, hrate, _,
    hpos, h⟩ := h
  refine ⟨decayed, hdecayed, usd, husd, fraction, hfraction, increase, hincrease, rate, hrate, (),
    hpos, ?_⟩
  simp only [updateLastFeeOpTime, bind_ok, ite_pure_ok, pure_ok] at h ⊢
  obtain ⟨passed, hpassed, ⟨hminute, rfl⟩ | ⟨hminute, rfl⟩⟩ := h
  · exact ⟨passed, hpassed, .inl ⟨hminute, rfl⟩⟩
  · exact ⟨passed, hpassed, .inr ⟨hminute, rfl⟩⟩

/-- The settlement of a redemption. -/
theorem settleRedemption_relisted {maxFee supply : ℕ}
    (h : settleRedemption d block sender price maxFee supply t s = .ok s') :
    settleRedemption d block sender price maxFee supply t (setSortedVaults data s) =
      .ok (setSortedVaults data s') := by
  simp only [settleRedemption, bind_ok] at h ⊢
  obtain ⟨_, hdrawn, s₁, hrate, fee, hfee, _, haccept, s₂, hsend, s₃, hshare, left, hleft, s₄,
    hburn, s₅, hdebt, hpay⟩ := h
  refine ⟨(), hdrawn, _, updateBaseRateFromRedemption_relisted hrate, fee, hfee, (), haccept, _,
    ActivePool.sendRBTC_relisted hsend, setSortedVaults data s₃, ?_, left, hleft,
    setSortedVaults data s₄, ?_, setSortedVaults data s₅, ?_, ActivePool.sendRBTC_relisted hpay⟩
  · simp only [MPStaking.increaseF_RBTC, bind_ok, pure_ok] at hshare ⊢
    obtain ⟨share, hshare, F, hF, rfl⟩ := hshare
    exact ⟨share, hshare, F, hF, rfl⟩
  · simp only [BPDToken.burn, bind_ok, pure_ok] at hburn ⊢
    obtain ⟨_, hne, balance, hbalance, total, htotal, rfl⟩ := hburn
    exact ⟨(), hne, balance, hbalance, total, htotal, rfl⟩
  · simp only [ActivePool.decreaseBPDDebt, bind_ok, pure_ok] at hdebt ⊢
    obtain ⟨debt, hdebt, rfl⟩ := hdebt
    exact ⟨debt, hdebt, rfl⟩

end VaultManager

namespace VaultManager

/-- The nominal ratio of every address can be read. -/
def Readable (s : State) : Prop := ∀ u, ∃ NICR, getNominalICR u s = .ok NICR

theorem getCurrentVaultAmounts_untouched (h : Untouched s.book s'.book u) :
    getCurrentVaultAmounts u s' = getCurrentVaultAmounts u s := by
  obtain ⟨⟨i, hvault⟩, hsnapshot, hRBTC, hdebt⟩ := h
  have hvault : s'.vault u = { s.vault u with arrayIndex := i } := hvault
  have hsnapshot : rewardSnapshot u s' = rewardSnapshot u s := hsnapshot
  have hRBTC : s'.vaultManager.B_RBTC = s.vaultManager.B_RBTC := hRBTC
  have hdebt : s'.vaultManager.B_BPDDebt = s.vaultManager.B_BPDDebt := hdebt
  simp only [getCurrentVaultAmounts, getPendingRBTCReward, getPendingBPDDebtReward, pendingReward,
    hvault, hsnapshot, hRBTC, hdebt]

theorem getNominalICR_untouched (h : Untouched s.book s'.book u) :
    getNominalICR u s' = getNominalICR u s := by
  unfold getNominalICR
  rw [getCurrentVaultAmounts_untouched h]

theorem pendingReward_none {accumulated snapshot : ℕ} {vault : Vault} (hle : snapshot ≤ accumulated)
    (hnone : accumulated = snapshot ∨ vault.status ≠ .active) :
    pendingReward accumulated snapshot vault = .ok 0 := by
  have hzero : accumulated - snapshot = 0 ∨ vault.status ≠ .active := by
    apply hnone.imp_left
    intro heq
    rw [heq, Nat.sub_self]
  simp only [pendingReward, bind_ok, SafeMath.sub_ok]
  refine ⟨_, ⟨hle, rfl⟩, ?_⟩
  rw [if_pos hzero]
  rfl

/-- Without pending rewards, the amounts of a vault are those recorded. -/
theorem getCurrentVaultAmounts_current (hRBTC : getPendingRBTCReward a s = .ok 0)
    (hdebt : getPendingBPDDebtReward a s = .ok 0) (hcoll : (s.vault a).coll < 2 ^ 256)
    (hdebt' : (s.vault a).debt < 2 ^ 256) :
    getCurrentVaultAmounts a s = .ok ((s.vault a).coll, (s.vault a).debt) := by
  simp only [getCurrentVaultAmounts, bind_ok, SafeMath.add_ok]
  exact ⟨0, hRBTC, 0, hdebt, _, ⟨hcoll, rfl⟩, _, ⟨hdebt', rfl⟩, rfl⟩

/-- With its rewards applied, a vault has the amounts that it had with them pending. -/
theorem getCurrentVaultAmounts_applied (h : applyPendingRewards d a s = .ok s') {coll debt : ℕ}
    (hp : getCurrentVaultAmounts a s = .ok (coll, debt)) :
    getCurrentVaultAmounts a s' = .ok (coll, debt) := by
  rcases applyPendingRewards_book (P := .any) h with ⟨-, -, hbook⟩ | ⟨-, rfl⟩
  · have hroom : coll < 2 ^ 256 ∧ debt < 2 ^ 256 := by
      simp only [getCurrentVaultAmounts, bind_ok, pure_ok, SafeMath.add_ok, Prod.mk.injEq] at hp
      obtain ⟨_, -, _, -, _, ⟨hcoll, rfl⟩, _, ⟨hdebt, rfl⟩, rfl, rfl⟩ := hp
      exact ⟨hcoll, hdebt⟩
    obtain ⟨hcoll, hdebt⟩ := getCurrentVaultAmounts_ok hp
    have hvault : s'.vault a = { s.vault a with coll := coll, debt := debt } := by
      have hvaults : s'.vault a = s'.book.vaults a := rfl
      rw [hvaults, hbook, hcoll, hdebt]
      exact Function.update_self _ _ _
    have hsnapshot : rewardSnapshot a s' = ⟨s'.vaultManager.B_RBTC, s'.vaultManager.B_BPDDebt⟩ := by
      have hsnapshots : rewardSnapshot a s' = s'.book.rewardSnapshots a := rfl
      have hRBTC : s'.vaultManager.B_RBTC = s.book.B_RBTC := congrArg Book.B_RBTC hbook
      have hBPDDebt : s'.vaultManager.B_BPDDebt = s.book.B_BPDDebt :=
        congrArg Book.B_BPDDebt hbook
      rw [hsnapshots, hRBTC, hBPDDebt, hbook]
      exact Function.update_self _ _ _
    have hRBTC : getPendingRBTCReward a s' = .ok 0 := by
      unfold getPendingRBTCReward
      rw [hsnapshot]
      exact pendingReward_none le_rfl (.inl rfl)
    have hBPD : getPendingBPDDebtReward a s' = .ok 0 := by
      unfold getPendingBPDDebtReward
      rw [hsnapshot]
      exact pendingReward_none le_rfl (.inl rfl)
    have hcurrent := getCurrentVaultAmounts_current hRBTC hBPD (by rw [hvault]; exact hroom.1)
      (by rw [hvault]; exact hroom.2)
    rw [hcurrent, hvault]
  · exact hp

theorem Readable.applied (hs : Readable s) (h : applyPendingRewards d a s = .ok s') :
    Readable s' := by
  intro u
  by_cases hu : u = a
  · obtain ⟨NICR, hNICR⟩ := hs a
    simp only [getNominalICR, bind_ok, Prod.exists] at hNICR
    obtain ⟨coll, debt, hamounts, hNICR⟩ := hNICR
    refine ⟨NICR, ?_⟩
    rw [hu, getNominalICR, getCurrentVaultAmounts_applied h hamounts]
    exact hNICR
  · rw [getNominalICR_untouched (applyPendingRewards_untouched hu h)]
    exact hs u

/-- The ratio of a closed vault can be read. -/
theorem Readable.redeemed {newColl : ℕ} (hs : Readable s)
    (h : redeemFully d a newColl s = .ok s') : Readable s' := by
  obtain ⟨w, x, hstake, hclose, hbook⟩ := redeemFully_book h
  obtain ⟨hst, -, -, moved, data, -, -, -, hclosed⟩ := removeStake_closeVault_book hstake hclose
  rw [hclosed] at hbook
  intro u
  by_cases hu : u = a
  · obtain ⟨i, hi⟩ : ∃ i, (s.book.closed a .closedByRedemption moved data).vaults a =
      ⟨0, 0, 0, .closedByRedemption, i⟩ := closed_self
    have hvault : s'.vault a = ⟨0, 0, 0, .closedByRedemption, i⟩ :=
      (congrFun (congrArg Book.vaults hbook) a).trans hi
    have hsnapshot : rewardSnapshot a s' = ⟨0, 0⟩ :=
      (congrFun (congrArg Book.rewardSnapshots hbook) a).trans (Function.update_self _ _ _)
    have hinactive : (s'.vault a).status ≠ .active := by
      rw [hvault]
      exact hst
    have hRBTC : getPendingRBTCReward a s' = .ok 0 := by
      unfold getPendingRBTCReward
      rw [hsnapshot]
      exact pendingReward_none (Nat.zero_le _) (.inr hinactive)
    have hdebt : getPendingBPDDebtReward a s' = .ok 0 := by
      unfold getPendingBPDDebtReward
      rw [hsnapshot]
      exact pendingReward_none (Nat.zero_le _) (.inr hinactive)
    have hamounts := getCurrentVaultAmounts_current hRBTC hdebt
      (by rw [hvault]; exact Nat.two_pow_pos 256) (by rw [hvault]; exact Nat.two_pow_pos 256)
    refine ⟨UINT256_MAX, ?_⟩
    rw [hu, getNominalICR, hamounts, hvault]
    rfl
  · have hsame : Untouched s.book s'.book u := by
      rw [hbook]
      exact .closed hu
    rw [getNominalICR_untouched hsame]
    exact hs u

/-- What the list reads while it looks for a place. -/
theorem Readable.reader (hs : Readable s) :
    (fun u => getNominalICR u s) = fun u => .ok (s.book.nominalICR u) := by
  funext u
  obtain ⟨NICR, hNICR⟩ := hs u
  rw [hNICR, getNominalICR_ok hNICR]

end VaultManager

namespace SortedVaults

variable {xs : List Address} {id prevId nextId : Address}
  {ratio : Address → ℕ} {maxSize NICR : ℕ} {data' : SortedVaults}

/-- With readable ratios an insertion that succeeds does so whatever the hints are. -/
theorem insert_hints (h : Linked data xs)
    (hi : insert (fun a => .ok (ratio a)) maxSize id NICR prevId nextId data = .ok data')
    (prevId' nextId' : Address) :
    ∃ data₁, insert (fun a => .ok (ratio a)) maxSize id NICR prevId' nextId' data = .ok data₁ := by
  cases hi' : insert (fun a => .ok (ratio a)) maxSize id NICR prevId' nextId' data with
  | ok data₁ => exact ⟨data₁, rfl⟩
  | error e =>
    rw [insert_error h hi'] at hi
    contradiction

theorem reInsert_hints (h : Linked data xs)
    (hi : reInsert (fun a => .ok (ratio a)) maxSize id NICR prevId nextId data = .ok data')
    (prevId' nextId' : Address) :
    ∃ data₁, reInsert (fun a => .ok (ratio a)) maxSize id NICR prevId' nextId' data =
      .ok data₁ := by
  simp only [reInsert, bind_ok] at hi ⊢
  obtain ⟨_, hcontains, _, hpos, data₀, hremove, hinsert⟩ := hi
  obtain ⟨front, back, -, h₀⟩ := remove_sound h hremove
  obtain ⟨data₁, hinsert'⟩ := insert_hints h₀ hinsert prevId' nextId'
  exact ⟨data₁, (), hcontains, (), hpos, data₀, hremove, hinsert'⟩

end SortedVaults

namespace VaultManager

variable {hints hints' : RedemptionHints} {xs : List Address}
  {newColl newDebt newNICR : ℕ} {v : SingleRedemptionValues}

/-- The vault that the amount runs out in only goes to another place. -/
theorem redeemPartially_hints (hs : Readable s) (hlinked : SortedVaults.Linked s.sortedVaults xs)
    (h : redeemPartially d a newColl newDebt newNICR hints s = .ok s')
    (hints' : RedemptionHints) :
    ∃ data, redeemPartially d a newColl newDebt newNICR hints' s =
      .ok (setSortedVaults data s') := by
  simp only [redeemPartially, BorrowerOperations.reInsertSorted, hs.reader, bind_ok, pure_ok] at h ⊢
  obtain ⟨_, ⟨data, hinsert, rfl⟩, hstake⟩ := h
  obtain ⟨data', hinsert'⟩ := SortedVaults.reInsert_hints hlinked hinsert
    hints'.upperPartialRedemptionHint hints'.lowerPartialRedemptionHint
  refine ⟨data', _, ⟨data', hinsert', rfl⟩, ?_⟩
  rw [setVault_relisted data data']
  exact updateStakeAndTotalStakes_relisted hstake

/-- A vault is redeemed with other hints as it was: cancelled, closed, or put in another place
once the amount has run out in it. -/
inductive Repeated (d : Deployment) (a : Address) (n : ℕ) (s s' : State)
    (v : SingleRedemptionValues) : Outcome (SingleRedemptionValues × State) → Prop
  | cancelled (hcancel : v.cancelledPartial = true) (hs : s' = s) :
      Repeated d a n s s' v (.ok (v, s'))
  | closed {newColl : ℕ} (hkept : v.cancelledPartial = false)
      (hs : redeemFully d a newColl s = .ok s') : Repeated d a n s s' v (.ok (v, s'))
  | moved (data : SortedVaults) (hkept : v.cancelledPartial = false) (hall : v.BPDLot = n) :
      Repeated d a n s s' v (.ok (v, setSortedVaults data s'))

theorem redeemCollateralFromVault_hints (hs : Readable s)
    (hlinked : SortedVaults.Linked s.sortedVaults xs)
    (hNICR : hints'.partialRedemptionHintNICR = hints.partialRedemptionHintNICR)
    (h : redeemCollateralFromVault d a n price hints s = .ok (v, s')) :
    Repeated d a n s s' v (redeemCollateralFromVault d a n price hints' s) := by
  have hdone {o : Outcome (SingleRedemptionValues × State)}
      (hrepeat : Repeated d a n s s' v o)
      (ho : redeemCollateralFromVault d a n price hints' s = o) :
      Repeated d a n s s' v (redeemCollateralFromVault d a n price hints' s) := ho ▸ hrepeat
  simp only [redeemCollateralFromVault, bind_ok] at h
  obtain ⟨redeemable, hredeemable, scaled, hscaled, RBTCLot, hRBTCLot, newDebt, hnewDebt, newColl,
    hnewColl, h⟩ := h
  split_ifs at h with hfull
  · simp only [bind_ok, pure_ok, Prod.mk.injEq] at h
    obtain ⟨_, hredeem, rfl, rfl⟩ := h
    apply hdone (.closed rfl hredeem)
    simp only [redeemCollateralFromVault, bind_ok]
    refine ⟨redeemable, hredeemable, scaled, hscaled, RBTCLot, hRBTCLot, newDebt, hnewDebt,
      newColl, hnewColl, ?_⟩
    rw [if_pos hfull]
    simp only [bind_ok, pure_ok]
    exact ⟨_, hredeem, rfl⟩
  · simp only [bind_ok] at h
    obtain ⟨newNICR, hcomputed, net, hnet, h⟩ := h
    split_ifs at h with hcancel
    · simp only [pure_ok, Prod.mk.injEq] at h
      obtain ⟨rfl, rfl⟩ := h
      apply hdone (.cancelled rfl rfl)
      simp only [redeemCollateralFromVault, bind_ok]
      refine ⟨redeemable, hredeemable, scaled, hscaled, RBTCLot, hRBTCLot, newDebt, hnewDebt,
        newColl, hnewColl, ?_⟩
      rw [if_neg hfull]
      simp only [bind_ok]
      refine ⟨newNICR, hcomputed, net, hnet, ?_⟩
      rw [hNICR, if_pos hcancel]
      rfl
    · simp only [bind_ok, pure_ok, Prod.mk.injEq] at h
      obtain ⟨_, hredeem, rfl, rfl⟩ := h
      obtain ⟨data, hredeem'⟩ := redeemPartially_hints hs hlinked hredeem hints'
      have hall : min n redeemable = n := by
        rw [SafeMath.sub_ok] at hredeemable hnewDebt
        omega
      apply hdone (.moved data rfl hall)
      simp only [redeemCollateralFromVault, bind_ok]
      refine ⟨redeemable, hredeemable, scaled, hscaled, RBTCLot, hRBTCLot, newDebt, hnewDebt,
        newColl, hnewColl, ?_⟩
      rw [if_neg hfull]
      simp only [bind_ok]
      refine ⟨newNICR, hcomputed, net, hnet, ?_⟩
      rw [hNICR, if_neg hcancel]
      simp only [bind_ok, pure_ok]
      exact ⟨_, hredeem', rfl⟩

/-- Other hints for the last vault: the same totals, and the same state but for the list. -/
theorem redeemLoop_hints {zs : List Address} (hs : Readable s) (hzs : s.book.Registry zs)
    (hNICR : hints'.partialRedemptionHintNICR = hints.partialRedemptionHintNICR)
    (h : redeemLoop d price hints n a t s = .ok (t', s')) :
    ∃ data, redeemLoop d price hints' n a t s = .ok (t', setSortedVaults data s') := by
  induction n generalizing a t s zs with
  | zero =>
    simp only [redeemLoop, pure_ok, Prod.mk.injEq] at h
    rw [← h.1, ← h.2]
    exact ⟨s.sortedVaults, rfl⟩
  | succ n ih =>
    rw [redeemLoop] at h ⊢
    split_ifs at h ⊢ with hvisit
    · simp only [bind_ok, Prod.exists] at h ⊢
      obtain ⟨s₁, hpending, v, s₂, hv, h⟩ := h
      have hs₁ := hs.applied hpending
      obtain ⟨ys, hys⟩ := hzs.moves (applyPendingRewards_moves (P := .any) hpending)
      have hrepeat := redeemCollateralFromVault_hints hs₁ hys.linked hNICR hv
      generalize hv' : redeemCollateralFromVault d a t.remainingBPD price hints' s₁ = o at hrepeat
      cases hrepeat with
      | cancelled hcancel =>
        simp only [hcancel, if_true, pure_ok, Prod.mk.injEq] at h
        refine ⟨s₂.sortedVaults, s₁, hpending, v, s₂, hv', ?_⟩
        rw [if_pos hcancel, ← h.1, ← h.2]
        rfl
      | closed hkept hredeem =>
        simp only [hkept, Bool.false_eq_true, if_false, bind_ok] at h
        obtain ⟨t₁, ht₁, h⟩ := h
        obtain ⟨w, x, hstake, hclose, hbook⟩ := redeemFully_book hredeem
        have hmove : Move .any s₁.book s₂.book :=
          hbook ▸ removeStake_closeVault_move (applyPendingRewards_none hpending) hstake hclose
        obtain ⟨ys₂, hys₂⟩ := hys.moves (.single hmove)
        obtain ⟨data, hrest⟩ := ih (hs₁.redeemed hredeem) hys₂ h
        refine ⟨data, s₁, hpending, v, s₂, hv', ?_⟩
        simp only [hkept, Bool.false_eq_true, if_false, bind_ok]
        exact ⟨t₁, ht₁, hrest⟩
      | moved data hkept hall =>
        simp only [hkept, Bool.false_eq_true, if_false, bind_ok] at h
        obtain ⟨t₁, ht₁, h⟩ := h
        have hzero : t₁.remainingBPD = 0 := by
          rw [addRedemptionToTotals_ok ht₁, hall]
          exact Nat.sub_self _
        rw [redeemLoop_done hzero, Except.ok.injEq, Prod.mk.injEq] at h
        refine ⟨data, s₁, hpending, v, _, hv', ?_⟩
        simp only [hkept, Bool.false_eq_true, if_false, bind_ok]
        refine ⟨t₁, ht₁, ?_⟩
        rw [redeemLoop_done hzero, h.1, h.2]
    · simp only [pure_ok, Prod.mk.injEq] at h
      rw [← h.1, ← h.2]
      exact ⟨s.sortedVaults, rfl⟩

end VaultManager

end MoneyProtocol
