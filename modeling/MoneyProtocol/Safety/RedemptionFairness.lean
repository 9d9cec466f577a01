import MoneyProtocol.Redemption.Vaults
import MoneyProtocol.Safety.RedemptionHints
import MoneyProtocol.Safety.SequenceAndBatch

/-!
# Fair redemptions

A redemption starts at the lowest ratio that is not below the minimum and goes up the list. No
vault gives up collateral worth more than the debt it is rid of, so none is left with a lower
ratio; and what the vaults give up is what the redeemer and the stakers of MP are paid.
-/

namespace MoneyProtocol

open Outcome MoneypMath MoneypBase Book VaultManager PointSum

variable {d : Deployment} {s s' s₀ s₁ : State} {block : Block} {a u sender : Address}
  {price n v : ℕ} {hints : RedemptionHints} {t t' : RedemptionTotals} {xs ys zs : List Address}

/-- The redemption starts at a vault with a ratio of at least the minimum. -/
theorem firstBorrower_ratio (h : firstBorrower price hints s = .ok a) (ha : a ≠ 0) :
    ∃ ICR, getCurrentICR a price s = .ok ICR ∧ MCR ≤ ICR := by
  have hskip {fuel : ℕ} {u : Address} (h : skipUnderCollateralized price s fuel u = .ok a) :
      ∃ ICR, getCurrentICR a price s = .ok ICR ∧ MCR ≤ ICR := by
    induction fuel generalizing u with
    | zero => contradiction
    | succ fuel ih =>
      unfold skipUnderCollateralized at h
      split_ifs at h with hzero
      · rw [pure_ok.mp h] at hzero
        exact absurd hzero ha
      · simp only [bind_ok] at h
        obtain ⟨ICR, hICR, h⟩ := h
        split_ifs at h with hlow
        · exact ih h
        · rw [← pure_ok.mp h]
          exact ⟨ICR, hICR, not_lt.mp hlow⟩
  simp only [firstBorrower, bind_ok] at h
  obtain ⟨valid, hvalid, h⟩ := h
  by_cases haccept : valid = true
  · rw [if_pos haccept] at h
    rw [haccept] at hvalid
    rw [← pure_ok.mp h]
    unfold isValidFirstRedemptionHint at hvalid
    split_ifs at hvalid
    · exact absurd (pure_ok.mp hvalid) Bool.noConfusion
    · simp only [bind_ok] at hvalid
      obtain ⟨ICR, hICR, hvalid⟩ := hvalid
      split_ifs at hvalid with hlow
      · exact absurd (pure_ok.mp hvalid) Bool.noConfusion
      · exact ⟨ICR, hICR, not_lt.mp hlow⟩
      · exact ⟨ICR, hICR, not_lt.mp hlow⟩
  · rw [if_neg haccept] at h
    exact hskip h

theorem lastVaults_split {data : SortedVaults} (h : SortedVaults.Linked data (xs ++ a :: ys)) :
    SortedVaults.lastVaults data.size data = ys.reverse ++ a :: xs.reverse := by
  rw [SortedVaults.lastVaults_eq h, h.size_eq, List.take_of_length_le List.length_reverse.le,
    List.reverse_append, List.reverse_cons, List.append_assoc, List.singleton_append]

/-- No vault ahead has a lower ratio. -/
theorem OrderedByICR.ahead (h : OrderedByICR price s)
    (hlinked : SortedVaults.Linked s.sortedVaults (xs ++ a :: ys))
    (hfirst : ∃ ICR, getCurrentICR a price s = .ok ICR ∧ MCR ≤ ICR) (hu : u ∈ a :: xs.reverse) :
    MCR ≤ collRatio (s.book.entireColl u) (s.book.entireDebt u) price := by
  obtain ⟨ICR, hICR, hle⟩ := hfirst
  have hordered := h.ordered
  have hreadable := h.readable u
  rw [lastVaults_split hlinked] at hordered hreadable
  obtain ⟨r, hr, -⟩ := exists_of_succeeds (hreadable (List.mem_append_right _ hu))
  rw [getCurrentICR_collRatio hr]
  rcases List.mem_cons.mp hu with rfl | hu
  · rw [hr, Except.ok.injEq] at hICR
    rw [hICR]
    exact hle
  · have hup := (List.pairwise_cons.mp (List.pairwise_append.mp hordered).2.1).1 u hu
    rw [hICR, hr] at hup
    exact hle.trans hup

/-- Debt that is cancelled at its face value does not lower a ratio of at least one. -/
theorem collRatio_redeemed {coll debt BPD RBTC : ℕ}
    (hratio : debt * DECIMAL_PRECISION ≤ coll * price)
    (hfair : RBTC * price ≤ BPD * DECIMAL_PRECISION) (hless : BPD < debt) :
    collRatio coll debt price ≤ collRatio (coll - RBTC) (debt - BPD) price := by
  have hdebt : 0 < debt := Nat.zero_lt_of_lt hless
  have hleft : 0 < debt - BPD := Nat.sub_pos_of_lt hless
  rw [collRatio, if_pos hdebt, collRatio, if_pos hleft, Nat.le_div_iff_mul_le hleft, Nat.sub_mul]
  have hone : DECIMAL_PRECISION ≤ coll * price / debt := by
    rw [Nat.le_div_iff_mul_le hdebt, Nat.mul_comm]
    exact hratio
  apply Nat.le_sub_of_add_le
  calc coll * price / debt * (debt - BPD) + RBTC * price
      ≤ coll * price / debt * (debt - BPD) + coll * price / debt * BPD := by
        apply Nat.add_le_add_left
        apply hfair.trans
        rw [Nat.mul_comm]
        exact Nat.mul_le_mul_right _ hone
    _ = coll * price / debt * debt := by rw [← Nat.mul_add, Nat.sub_add_cancel hless.le]
    _ ≤ coll * price := Nat.div_mul_le_self _ _

theorem collateralized {b : Book} (hpos : 0 < b.appliedDebt a)
    (hratio : MCR ≤ collRatio (b.entireColl a) (b.entireDebt a) price) :
    b.appliedDebt a * DECIMAL_PRECISION ≤ b.entireColl a * price := by
  have hle : b.appliedDebt a ≤ b.entireDebt a := appliedDebt_le
  have hdebt : 0 < b.entireDebt a := hpos.trans_le hle
  have hone : DECIMAL_PRECISION ≤ MCR := by decide
  rw [collRatio, if_pos hdebt] at hratio
  calc b.appliedDebt a * DECIMAL_PRECISION ≤ b.entireDebt a * MCR := Nat.mul_le_mul hle hone
    _ ≤ b.entireColl a * price := by
        rw [Nat.mul_comm]
        exact (Nat.le_div_iff_mul_le hdebt).mp hratio

theorem Lot.worth (l : Lot) : l.RBTC price * price ≤ l.BPD * DECIMAL_PRECISION :=
  Nat.div_mul_le_self _ _

theorem receive_rbtc {caller recipient : Address} (h : receive d caller recipient v s = .ok s') :
    s'.rbtc = s.rbtc := by
  rcases receive_ok h with ⟨-, -, rfl⟩ | ⟨-, -, rfl⟩ | ⟨-, -, rfl⟩ | ⟨-, -, rfl⟩ |
    ⟨-, -, -, -, rfl⟩
  all_goals rfl

theorem ActivePool.sendRBTC_rbtc (h : ActivePool.sendRBTC d a v s = .ok s') :
    s'.rbtc = move d.activePool a v s.rbtc := by
  simp only [ActivePool.sendRBTC, bind_ok] at h
  obtain ⟨_, -, h⟩ := h
  exact receive_rbtc (callWithValue_ok.mp h).2

namespace VaultManager

/-- Redeeming the vaults moves RBTC between the pools only. -/
structure OutsidePools (d : Deployment) (u : Address) : Prop where
  activePool : u ≠ d.activePool
  defaultPool : u ≠ d.defaultPool
  collSurplusPool : u ≠ d.collSurplusPool

theorem OutsidePools.external (h : d.External u) : OutsidePools d u :=
  ⟨h.ne d.activePool_mem, h.ne d.defaultPool_mem, h.ne d.collSurplusPool_mem⟩

theorem OutsidePools.mpStaking (d : Deployment) : OutsidePools d d.mpStaking :=
  ⟨d.mpStaking_ne_activePool, d.mpStaking_ne_defaultPool, d.mpStaking_ne_collSurplusPool⟩

theorem applyPendingRewards_rbtc (hu : OutsidePools d u)
    (h : applyPendingRewards d a s = .ok s') : s'.rbtc u = s.rbtc u := by
  unfold applyPendingRewards at h
  split_ifs at h
  · simp only [bind_ok, increaseVaultColl, increaseVaultDebt, pure_ok,
      movePendingVaultRewardsToActivePool, DefaultPool.decreaseBPDDebt, ActivePool.increaseBPDDebt,
      DefaultPool.sendRBTCToActivePool] at h
    obtain ⟨_, -, _, -, _, -, _, ⟨_, -, rfl⟩, _, ⟨_, -, rfl⟩, _, ⟨_, -, rfl⟩, _, ⟨_, -, rfl⟩, _, -,
      hsend⟩ := h
    rw [receive_rbtc (callWithValue_ok.mp hsend).2]
    exact move_other hu.defaultPool hu.activePool
  · rw [pure_ok.mp h]

theorem redeemFully_rbtc {newColl : ℕ} (hu : OutsidePools d u)
    (h : redeemFully d a newColl s = .ok s') : s'.rbtc u = s.rbtc u := by
  simp only [redeemFully, redeemCloseVault, ActivePool.decreaseBPDDebt,
    CollSurplusPool.accountSurplus, bind_ok, pure_ok] at h
  obtain ⟨_, hstake, _, hclose, _, hburn, _, ⟨_, -, rfl⟩, _, ⟨_, -, rfl⟩, hsend⟩ := h
  obtain ⟨-, rfl⟩ := removeStake_ok hstake
  obtain ⟨_, _, rfl⟩ := closeVault_frame hclose
  obtain ⟨-, -, -, rfl⟩ := BPDToken.burn_ok hburn
  rw [ActivePool.sendRBTC_rbtc hsend]
  exact move_other hu.activePool hu.collSurplusPool

theorem redeemPartially_rbtc {newColl newDebt newNICR : ℕ}
    (h : redeemPartially d a newColl newDebt newNICR hints s = .ok s') : s'.rbtc = s.rbtc := by
  simp only [redeemPartially, updateStakeAndTotalStakes, bind_ok, pure_ok] at h
  obtain ⟨_, hinsert, _, -, _, -, _, -, rfl⟩ := h
  obtain ⟨_, -, rfl⟩ := BorrowerOperations.reInsertSorted_ok hinsert
  rfl

theorem redeemLoop_rbtc (hu : OutsidePools d u)
    (h : redeemLoop d price hints n a t s = .ok (t', s')) : s'.rbtc u = s.rbtc u := by
  induction n generalizing a t s with
  | zero =>
    simp only [redeemLoop, pure_ok, Prod.mk.injEq] at h
    rw [h.2]
  | succ n ih =>
    rw [redeemLoop] at h
    split_ifs at h
    · simp only [bind_ok, Prod.exists] at h
      obtain ⟨s₁, hpending, v, s₂, hv, h⟩ := h
      have hround : s₂.rbtc u = s.rbtc u := by
        rw [← applyPendingRewards_rbtc hu hpending]
        obtain ⟨-, -, -, -, -, ⟨-, rfl⟩ | ⟨-, -, hfull⟩ | ⟨-, -, -, -, hpartial⟩⟩ :=
          redeemCollateralFromVault_ok hv
        · rfl
        · exact redeemFully_rbtc hu hfull
        · rw [redeemPartially_rbtc hpartial]
      split_ifs at h
      · simp only [pure_ok, Prod.mk.injEq] at h
        rw [← h.2, hround]
      · simp only [bind_ok] at h
        obtain ⟨_, -, h⟩ := h
        rw [ih h, hround]
    · simp only [pure_ok, Prod.mk.injEq] at h
      rw [h.2]

/-- The settlement pays what was drawn: the fee to the stakers, the rest to the sender. -/
theorem settleRedemption_rbtc {maxFee supply : ℕ} (hsender : d.External sender)
    (h : settleRedemption d block sender price maxFee supply t s = .ok s') :
    ∃ fee, s'.rbtc sender + fee = s.rbtc sender + t.totalRBTCDrawn ∧
      s'.rbtc d.mpStaking = s.rbtc d.mpStaking + fee := by
  simp only [settleRedemption, ActivePool.decreaseBPDDebt, bind_ok, pure_ok, SafeMath.sub_ok] at h
  obtain ⟨_, -, _, hrate, fee, -, _, -, _, hfee, _, hshare, _, ⟨hle, rfl⟩, _, hburn, _,
    ⟨_, -, rfl⟩, hsend⟩ := h
  obtain ⟨_, _, rfl⟩ := updateBaseRateFromRedemption_ok hrate
  obtain ⟨_, rfl⟩ := MPStaking.increaseF_RBTC_ok hshare
  obtain ⟨-, -, -, rfl⟩ := BPDToken.burn_ok hburn
  have hpool := hsender.ne d.activePool_mem
  have hstaking := hsender.ne d.mpStaking_mem
  refine ⟨fee, ?_, ?_⟩
  · rw [ActivePool.sendRBTC_rbtc hsend, move_target hpool.symm]
    dsimp only
    rw [ActivePool.sendRBTC_rbtc hfee, move_other hpool hstaking]
    dsimp only
    omega
  · rw [ActivePool.sendRBTC_rbtc hsend, move_other d.mpStaking_ne_activePool hstaking.symm]
    dsimp only
    rw [ActivePool.sendRBTC_rbtc hfee, move_target d.mpStaking_ne_activePool.symm]

/-- What a vault with a lot gives up: collateral worth no more than the debt it is rid of. The
rest of its collateral it keeps or is credited. -/
structure FairLot (price : ℕ) (s s' : State) (l : Lot) : Prop where
  worth : l.RBTC price * price ≤ l.BPD * 10 ^ 18
  conserved : ∃ credit, s'.credits l.vault = s.credits l.vault + credit ∧
    l.RBTC price + (s'.vault l.vault).coll + credit = s.book.entireColl l.vault

/-- All debt of the vault is cancelled, and the vault closed. -/
structure RedeemedFully (s s' : State) (l : Lot) : Prop where
  status : (s'.vault l.vault).status = .closedByRedemption
  debt : l.BPD + BPD_GAS_COMPENSATION = s.book.appliedDebt l.vault
  empty : (s'.vault l.vault).coll = 0 ∧ (s'.vault l.vault).debt = 0

/-- Part of the debt is cancelled, and the vault is no worse than it was with its rewards
applied. -/
structure RedeemedPartially (price : ℕ) (s s' : State) (l : Lot) : Prop where
  active : s'.Active l.vault
  debt : (s'.vault l.vault).debt + l.BPD = s.book.appliedDebt l.vault
  net : MIN_NET_DEBT ≤ (s'.vault l.vault).debt - BPD_GAS_COMPENSATION
  ratio : collRatio (s.book.entireColl l.vault) (s.book.appliedDebt l.vault) price ≤
    collRatio (s'.vault l.vault).coll (s'.vault l.vault).debt price

/-- What is recorded for the vault stays, or its rewards are applied to it. -/
def Keeps (s s' : State) (u : Address) : Prop :=
  ((s'.vault u).coll = (s.vault u).coll ∧ (s'.vault u).debt = (s.vault u).debt) ∨
    ((s'.vault u).coll = s.book.entireColl u ∧ (s'.vault u).debt = s.book.appliedDebt u)

/-- A redemption of these lots, one after the other up the list, for this fee treats everybody
fairly. -/
structure FairRedemption (d : Deployment) (price : ℕ) (sender : Address) (s s' : State)
    (lots : List Lot) (fee : ℕ) : Prop where
  distinct : (lots.map Lot.vault).Nodup
  order : lots.map Lot.vault <:+: SortedVaults.lastVaults s.sortedVaults.size s.sortedVaults
  fair : ∀ l ∈ lots, FairLot price s s' l
  closed : ∀ l ∈ lots.dropLast, RedeemedFully s s' l
  last : ∀ l ∈ lots, RedeemedFully s s' l ∨ RedeemedPartially price s s' l
  burned : s'.bpdToken.balances sender + redeemedBy lots = s.bpdToken.balances sender
  paid : s'.rbtc sender + fee = s.rbtc sender + drawnBy price lots
  charged : s'.rbtc d.mpStaking = s.rbtc d.mpStaking + fee
  others : ∀ u ∉ lots.map Lot.vault, Keeps s s' u

/-- The settlement does not come back to the vaults. -/
theorem Taken.settled {l : Lot} (h : Taken price s s₁ l) (hbook : s'.book = s₁.book)
    (hcredits : s'.credits = s₁.credits) : Taken price s s' l := by
  have hvault : s'.vault l.vault = s₁.vault l.vault := congrFun (congrArg Book.vaults hbook) _
  cases h with
  | closed hall hreserve hcoll hstatus hcredit =>
    rw [← hvault] at hstatus
    rw [← hcredits] at hcredit
    exact .closed hall hreserve hcoll hstatus hcredit
  | part hleft hdebt hcoll hstatus hcredit =>
    rw [← hvault] at hdebt hcoll hstatus
    rw [← hcredits] at hcredit
    exact .part hleft hdebt hcoll hstatus hcredit

/-- A vault that all is taken from is closed. -/
theorem Taken.fully {l : Lot} (h : Taken price s s' l) (hzs : s'.book.Registry zs)
    (hall : l.BPD = s.book.redeemable l.vault) : RedeemedFully s s' l := by
  cases h with
  | closed _ hreserve _ hstatus =>
    have hout : l.vault ∉ zs := by
      intro hmem
      have hactive : s'.Active l.vault := (hzs.active _).mpr hmem
      exact absurd (hstatus.symm.trans hactive) (by decide)
    obtain ⟨hcoll, hdebt, -⟩ := hzs.inactive _ hout
    refine ⟨hstatus, ?_, hcoll, hdebt⟩
    rw [hall, redeemable, Nat.sub_add_cancel hreserve]
  | part hleft =>
    have hreserve : BPD_GAS_COMPENSATION < minDebt := by decide
    unfold redeemable at hall
    omega

/-- A vault with a lot is treated fairly. -/
theorem Taken.fair {l : Lot} (h : Taken price s s' l) (hzs : s'.book.Registry zs)
    (hratio : MCR ≤ collRatio (s.book.entireColl l.vault) (s.book.entireDebt l.vault) price)
    (hactive : s.Active l.vault) :
    FairLot price s s' l ∧ (RedeemedFully s s' l ∨ RedeemedPartially price s s' l) := by
  have hmin : minDebt = MIN_NET_DEBT + BPD_GAS_COMPENSATION := rfl
  have hpos : 0 < MIN_NET_DEBT := by decide
  cases h with
  | closed hall hreserve hcoll hstatus hcredit =>
    have hfully : RedeemedFully s s' l :=
      (Taken.closed hall hreserve hcoll hstatus hcredit).fully hzs hall
    refine ⟨⟨l.worth, _, hcredit, ?_⟩, .inl hfully⟩
    rw [hfully.empty.1, Nat.add_zero, Nat.add_sub_cancel' hcoll]
  | part hleft hdebt hcoll hstatus hcredit =>
    have hkept : (s'.vault l.vault).debt = s.book.appliedDebt l.vault - l.BPD :=
      Nat.eq_sub_of_add_eq hdebt
    have hremains : (s'.vault l.vault).coll = s.book.entireColl l.vault - l.RBTC price :=
      Nat.eq_sub_of_add_eq hcoll
    refine ⟨⟨l.worth, 0, hcredit, ?_⟩, .inr ⟨hstatus.trans hactive, hdebt, ?_, ?_⟩⟩
    · rw [Nat.add_zero, Nat.add_comm, hcoll]
    · rw [hkept]
      omega
    · rw [hkept, hremains]
      apply collRatio_redeemed _ l.worth
      · omega
      · apply collateralized _ hratio
        omega

/-- The lots go up the list, through active vaults with a ratio of at least the minimum. -/
theorem lots_healthy (n amount : ℕ) (hzs : s.book.Registry zs) (hordered : OrderedByICR price s)
    (hfirst : firstBorrower price hints s = .ok a) :
    ((s.book.lots price hints.partialRedemptionHintNICR n a amount).map Lot.vault).Nodup ∧
      (s.book.lots price hints.partialRedemptionHintNICR n a amount).map Lot.vault <:+:
        SortedVaults.lastVaults s.sortedVaults.size s.sortedVaults ∧
      ∀ l ∈ s.book.lots price hints.partialRedemptionHintNICR n a amount, s.Active l.vault ∧
        MCR ≤ collRatio (s.book.entireColl l.vault) (s.book.entireDebt l.vault) price := by
  by_cases ha : a = 0
  · rw [lots_idle fun hvisit => hvisit.1 ha]
    exact ⟨List.nodup_nil, List.nil_infix, fun l hl => absurd hl List.not_mem_nil⟩
  · have hmem := (firstBorrower_mem hzs.linked hfirst).resolve_left ha
    obtain ⟨xs, ys, rfl⟩ := List.append_of_mem hmem
    refine ⟨lots_nodup hzs.linked, ?_, fun l hl => ⟨?_, ?_⟩⟩
    · have hlinked : SortedVaults.Linked s.sortedVaults (xs ++ a :: ys) := hzs.linked
      rw [lastVaults_split hlinked]
      exact (lots_initial hlinked).isInfix.trans (List.suffix_append _ _).isInfix
    · apply (hzs.active _).mpr
      rcases lots_vault_mem hzs.linked hl with hself | hahead
      · rw [hself]
        exact hmem
      · exact List.mem_append_left _ hahead
    · apply hordered.ahead hzs.linked (firstBorrower_ratio hfirst ha)
      exact (lots_initial hzs.linked).subset (List.mem_map_of_mem hl)

/-- A redemption takes its lots, spares the other vaults, and burns what it has redeemed. -/
structure TakesLots (price : ℕ) (sender : Address) (s s' : State) (lots : List Lot) : Prop where
  taken : ∀ l ∈ lots, Taken price s s' l
  kept : ∀ u ∉ lots.map Lot.vault, Keeps s s' u
  burned : s'.bpdToken.balances sender + redeemedBy lots = s.bpdToken.balances sender

theorem redeemCollateral_takes {amount maxIterations maxFee : ℕ} (hzs : s.book.Registry zs)
    (hsender : d.External sender)
    (h : redeemCollateral d block sender amount hints maxIterations maxFee s = .ok s') :
    ∃ r, redeemVaults d block sender amount hints maxIterations maxFee s = .ok r ∧
      Redeems d block sender amount hints maxIterations s r ∧
      settleRedemption d block sender r.price maxFee r.supply r.totals r.state = .ok s' ∧
      TakesLots r.price sender s s' (lotsOf hints maxIterations amount s r) := by
  rw [redeemCollateral_eq] at h
  simp only [bind_ok] at h
  obtain ⟨r, hr, hsettle⟩ := h
  have hredeems := redeemVaults_ok hr
  obtain ⟨hredeemed, -⟩ := hredeems.totals hzs.linked
  obtain ⟨f, -, hfirst, hloop⟩ := hredeems.priced
  obtain ⟨xs, hahead⟩ := firstBorrower_ahead (s := { s with priceFeed := f }) hzs.linked hfirst
  obtain ⟨htaken, hspared⟩ := redeemLoop_vaults hahead hzs hloop
  obtain ⟨hbook, hcredits⟩ := settleRedemption_vaults (hsender.ne d.defaultPool_mem) hsettle
  refine ⟨r, hr, hredeems, hsettle, fun l hl => ?_, fun u hu => ?_, ?_⟩
  · -- the price feed does not show in the book
    have hsame : Untouched s.book ({ s with priceFeed := f } : State).book l.vault := .refl _ _
    exact ((htaken l hl).settled hbook hcredits).later hsame rfl
  · have hvault : s'.vault u = r.state.vault u := congrFun (congrArg Book.vaults hbook) u
    unfold Keeps
    rw [hvault]
    exact (hspared u hu).record
  · rw [← hredeemed, settleRedemption_balance hsettle,
      redeemLoop_balances (hsender.ne d.gasPool_mem) hloop]

theorem redeemCollateral_registry {amount maxIterations maxFee : ℕ} (hzs : s.book.Registry zs)
    (hsender : d.External sender)
    (h : redeemCollateral d block sender amount hints maxIterations maxFee s = .ok s') :
    ∃ ys, s'.book.Registry ys :=
  hzs.moves (redeemCollateral_moves (P := .any) hzs.linked (hsender.ne d.defaultPool_mem)
    (fun h => h.elim) (fun _ _ => trivial) h)

/-- A redemption of an ordered list redeems from some vaults, and treats them fairly. -/
theorem redemption_fair {amount maxIterations maxFee : ℕ} (hs : Reachable d s)
    (hprice : PriceFeed.fetchPrice block s = .ok (price, s₀)) (hordered : OrderedByICR price s)
    (hsender : d.External sender)
    (h : redeemCollateral d block sender amount hints maxIterations maxFee s = .ok s') :
    ∃ r fee, redeemVaults d block sender amount hints maxIterations maxFee s = .ok r ∧
      r.totals.totalBPDToRedeem = redeemedBy (lotsOf hints maxIterations amount s r) ∧
      r.totals.totalRBTCDrawn = drawnBy price (lotsOf hints maxIterations amount s r) ∧
      lotsOf hints maxIterations amount s r ≠ [] ∧
      FairRedemption d price sender s s' (lotsOf hints maxIterations amount s r) fee := by
  obtain ⟨zs, hzs⟩ := hs.registry
  obtain ⟨ys, hys⟩ := redeemCollateral_registry hzs hsender h
  obtain ⟨r, hr, hredeems, hsettle, htakes⟩ := redeemCollateral_takes hzs hsender h
  obtain ⟨hredeemed, hdrawn⟩ := hredeems.totals hzs.linked
  obtain ⟨f, hfetch, hfirst, hloop⟩ := hredeems.priced
  rw [hprice, Except.ok.injEq, Prod.mk.injEq] at hfetch
  obtain ⟨rfl, rfl⟩ := hfetch
  have hordered₀ : OrderedByICR r.price { s with priceFeed := f } :=
    ⟨hordered.readable, hordered.ordered⟩
  obtain ⟨hdistinct, horder, hhealthy⟩ := lots_healthy (s := { s with priceFeed := f })
    (iterations maxIterations) amount hzs hordered₀ hfirst
  obtain ⟨fee, hpaid, hcharged⟩ := settleRedemption_rbtc hsender hsettle
  have hfair (l : Lot) (hl : l ∈ lotsOf hints maxIterations amount s r) :
      FairLot r.price s s' l ∧ (RedeemedFully s s' l ∨ RedeemedPartially r.price s s' l) := by
    obtain ⟨hactive, hratio⟩ := hhealthy l hl
    exact (htakes.taken l hl).fair hys hratio hactive
  have hsome : lotsOf hints maxIterations amount s r ≠ [] := by
    intro hnone
    have hpos := settleRedemption_drawn hsettle
    rw [hdrawn, hnone] at hpos
    exact absurd hpos (Nat.lt_irrefl 0)
  refine ⟨r, fee, hr, hredeemed, hdrawn, hsome, hdistinct, horder, fun l hl => (hfair l hl).1,
    fun l hl => ?_, fun l hl => (hfair l hl).2, htakes.burned, ?_, ?_, htakes.kept⟩
  · exact (htakes.taken l (List.mem_of_mem_dropLast hl)).fully hys (lots_full_of_dropLast hl)
  · rw [← hdrawn, hpaid, redeemLoop_rbtc (.external hsender) hloop]
  · rw [hcharged, redeemLoop_rbtc (.mpStaking d) hloop]

/-- The vault of 103 is redeemed in full, that of 100 with its pending rewards in part. -/
theorem redemption_fair_partial : ∃ s s' hint r fee, Reachable testnet s ∧
    0 < s.book.pendingDebt 100 ∧
    redeemCollateral testnet (lateBlock 44000) 100 (2510 * 10 ^ 18) hint 5 (10 ^ 18) s = .ok s' ∧
    redeemVaults testnet (lateBlock 44000) 100 (2510 * 10 ^ 18) hint 5 (10 ^ 18) s = .ok r ∧
    (lotsOf hint 5 (2510 * 10 ^ 18) s r).map Lot.vault = [103, 100] ∧
    FairRedemption testnet (44000 * 10 ^ 18) 100 s s' (lotsOf hint 5 (2510 * 10 ^ 18) s r) fee := by
  obtain ⟨s, hs, -, hcheck⟩ := runs_reachable testnet testGenesis
    [⟨testBlock 60000, 100, 5 * 10 ^ 18, .openVault (10 ^ 16) (10000 * 10 ^ 18) 0 0⟩,
      ⟨testBlock 60000, 101, 55 * 10 ^ 15, .openVault (10 ^ 16) (2000 * 10 ^ 18) 0 0⟩,
      ⟨testBlock 44000, 102, 0, .liquidate 101⟩,
      ⟨testBlock 44000, 103, 10 ^ 17, .openVault (10 ^ 16) (2000 * 10 ^ 18) 0 0⟩]
    (fun s => 0 < s.book.pendingDebt 100 ∧ OrderedByICR (44000 * 10 ^ 18) s ∧
      succeeds (fun result =>
        let hint : RedemptionHints := ⟨result.1.firstRedemptionHint, 0, 0,
          result.1.partialRedemptionHintNICR⟩
        decide (result.1.truncatedBPDamount = 2510 * 10 ^ 18) &&
          succeeds (fun r => decide
            ((lotsOf hint 5 (2510 * 10 ^ 18) s r).map Lot.vault = [103, 100]))
            (redeemVaults testnet (lateBlock 44000) 100 (2510 * 10 ^ 18) hint 5 (10 ^ 18) s))
        (redeemWithHints testnet (lateBlock 44000) 100 (44000 * 10 ^ 18) (2510 * 10 ^ 18) 5 s))
    (by decide +kernel)
  obtain ⟨hpending, hordered, hredeem⟩ := of_decide_eq_true hcheck
  obtain ⟨⟨hint, v, s'⟩, hredeem, hlots⟩ := exists_of_succeeds hredeem
  obtain ⟨-, -, h⟩ := redeemWithHints_ok hredeem
  obtain ⟨hamount, hlots⟩ := Bool.and_eq_true_iff.mp hlots
  rw [of_decide_eq_true hamount] at h
  obtain ⟨r, fee, hr, -, -, -, hfair⟩ := redemption_fair hs rfl hordered (by decide +kernel) h
  obtain ⟨r', hr', hlots⟩ := exists_of_succeeds hlots
  obtain rfl : r' = r := Except.ok.inj (hr'.symm.trans hr)
  exact ⟨s, s', _, r', fee, hs, hpending, h, hr, of_decide_eq_true hlots, hfair⟩

end VaultManager

end MoneyProtocol
