import MoneyProtocol.Book.Runs

/-!
# Sequence and batch liquidation

In Normal Mode the sequence takes the last vault of the list over and over and stops at the
first one that is sound; the batch goes through an array and skips the sound ones. Nothing is
redistributed before the loop is over, so liquidating one vault leaves the ratios of the others
as they were. On the last vaults of an ordered list the two loops therefore run in lockstep.
-/

namespace MoneyProtocol

open Outcome MoneypBase VaultManager

variable {d : Deployment} {s s' s₀ : State} {block : Block} {sender u user : Address}
  {users xs ys : List Address} {price n pool : ℕ} {l l' : LiquidationLoop}

namespace SortedVaults

variable {data : SortedVaults}

def lastVaultsFrom (data : SortedVaults) : ℕ → Address → List Address
  | 0, _ => []
  | n + 1, id => if id = 0 then [] else id :: lastVaultsFrom data n (getPrev id data)

/-- The last `n` vaults of the list, from the tail on. -/
def lastVaults (n : ℕ) (data : SortedVaults) : List Address :=
  lastVaultsFrom data n (getLast data)

theorem lastVaultsFrom_eq (h : Linked data (xs ++ ys)) :
    lastVaultsFrom data n (xs.getLastD 0) = xs.reverse.take n := by
  induction n generalizing xs ys with
  | zero => rfl
  | succ n ih =>
    rcases xs.eq_nil_or_concat with rfl | ⟨front, x, rfl⟩
    · rfl
    · rw [List.concat_eq_append] at h ⊢
      have hprev : getPrev x data = front.getLastD 0 := by
        rw [List.append_assoc] at h
        exact h.represents.prev_eq
      have hx : x ≠ 0 := h.ne_zero (by simp)
      rw [List.append_assoc] at h
      rw [List.getLastD_concat, lastVaultsFrom, if_neg hx, hprev, ih h]
      simp

theorem lastVaults_eq (h : Linked data xs) : lastVaults n data = xs.reverse.take n := by
  rw [lastVaults, getLast, h.represents.tail_eq]
  rw [← List.append_nil xs] at h
  exact lastVaultsFrom_eq h

end SortedVaults

/-- The list is ordered by `getCurrentICR`: all its ratios can be read, and none is smaller than
one behind it. -/
structure OrderedByICR (price : ℕ) (s : State) : Prop where
  readable : ∀ u ∈ SortedVaults.lastVaults s.sortedVaults.size s.sortedVaults,
    succeeds (fun _ => true) (getCurrentICR u price s) = true
  ordered : (SortedVaults.lastVaults s.sortedVaults.size s.sortedVaults).Pairwise fun u v =>
    amount (getCurrentICR u price s) ≤ amount (getCurrentICR v price s)

instance (price : ℕ) (s : State) : Decidable (OrderedByICR price s) :=
  -- the search goes along the list, not through all addresses
  haveI := List.decidableBAll (fun u => succeeds (fun _ => true) (getCurrentICR u price s) = true)
    (SortedVaults.lastVaults s.sortedVaults.size s.sortedVaults)
  decidable_of_iff (_ ∧ _) ⟨fun h => ⟨h.1, h.2⟩, fun h => ⟨h.readable, h.ordered⟩⟩

namespace VaultManager

/-- What the ratio of a vault is read from. -/
theorem getCurrentICR_congr (hvault : ∃ i, s'.vault u = { s.vault u with arrayIndex := i })
    (hsnapshot : rewardSnapshot u s' = rewardSnapshot u s)
    (hRBTC : s'.vaultManager.B_RBTC = s.vaultManager.B_RBTC)
    (hdebt : s'.vaultManager.B_BPDDebt = s.vaultManager.B_BPDDebt) :
    getCurrentICR u price s' = getCurrentICR u price s := by
  obtain ⟨i, hvault⟩ := hvault
  simp only [getCurrentICR, getCurrentVaultAmounts, getPendingRBTCReward, getPendingBPDDebtReward,
    pendingReward, hvault, hsnapshot, hRBTC, hdebt]

/-- A liquidation closes its vault, which is not the only one, and leaves the ratios of the
others alone. -/
theorem liquidateNormalMode_others {v : LiquidationValues}
    (h : liquidateNormalMode d user pool s = .ok (v, s')) :
    SortedVaults.remove user s.sortedVaults = .ok s'.sortedVaults ∧
      ∀ u, u ≠ user → getCurrentICR u price s' = getCurrentICR u price s := by
  simp only [liquidateNormalMode, bind_ok, pure_ok, Prod.mk.injEq] at h
  obtain ⟨e, he, s₁, hdetach, _, -, _, -, s₂, hclose, -, rfl⟩ := h
  obtain ⟨-, -, -, -, -, moved, data, -, -, hremove, hbook⟩ := detach_close_book he hdetach hclose
  constructor
  · have hlist : s₂.sortedVaults = data := congrArg Book.sortedVaults hbook
    rw [hlist]
    exact hremove
  · intro u hu
    apply getCurrentICR_congr
    · obtain ⟨i, hi⟩ := @Book.closed_of_ne (s.book.collected user) user u .closedByLiquidation
        moved data hu
      refine ⟨i, ?_⟩
      have hvaults : s₂.vault u = _ := congrFun (congrArg Book.vaults hbook) u
      rw [hvaults, hi]
      simp [Book.collected, Function.update_of_ne hu, State.book, State.vault]
    · have hsnapshots : rewardSnapshot u s₂ = _ := congrFun (congrArg Book.rewardSnapshots hbook) u
      rw [hsnapshots]
      simp [Book.closed, Book.collected, Function.update_of_ne hu, State.book, rewardSnapshot]
    · exact congrArg Book.B_RBTC hbook
    · exact congrArg Book.B_BPDDebt hbook

/-- The last vault of the list cannot be liquidated. -/
theorem liquidateNormalMode_notLast {v : LiquidationValues}
    (h : liquidateNormalMode d user pool s = .ok (v, s')) : 1 < s.sortedVaults.size := by
  simp only [liquidateNormalMode, bind_ok] at h
  obtain ⟨e, -, s₁, hdetach, _, -, _, -, s₂, hclose, -⟩ := h
  simp only [closeVault, requireMoreThanOneVaultInSystem, bind_ok, require_ok] at hclose
  obtain ⟨_, -, _, ⟨-, hsize⟩, -⟩ := hclose
  simp only [detachVault, bind_ok] at hdetach
  obtain ⟨t, hmove, hstake⟩ := hdetach
  obtain ⟨-, -, _, rfl⟩ := movePendingVaultRewardsToActivePool_ok hmove
  obtain ⟨-, rfl⟩ := removeStake_ok hstake
  exact hsize

/-- The batch leaves sound vaults alone. -/
theorem batchLiquidate_NormalMode_sound
    (h : ∀ u ∈ users, ∃ r, getCurrentICR u price l.state = .ok r ∧ MCR ≤ r) :
    batchLiquidate_NormalMode d price users l = .ok l := by
  induction users with
  | nil => rfl
  | cons user users ih =>
    obtain ⟨r, hr, hle⟩ := h user (by simp)
    have hsound : ¬r < MCR := not_lt.mpr hle
    simp only [batchLiquidate_NormalMode, bind_ok]
    refine ⟨r, hr, l, ?_, ih fun u hu => h u (by simp [hu])⟩
    rw [if_neg hsound]
    rfl

/-- What couples the loops: the rest of the list, from the tail on, with its ratios. -/
structure Coupled (price : ℕ) (ICR : Address → ℕ) (users : List Address) (l : LiquidationLoop) :
    Prop where
  linked : SortedVaults.Linked l.state.sortedVaults users.reverse
  readable : ∀ u ∈ users, getCurrentICR u price l.state = .ok (ICR u)
  ordered : users.Pairwise fun u v => ICR u ≤ ICR v

variable {ICR : Address → ℕ}

/-- A liquidation takes the first vault off the rest, and another one remains. -/
theorem Coupled.step (h : Coupled price ICR (user :: users) l)
    (hstep : liquidateAndTally d user l = .ok l') : Coupled price ICR users l' ∧ users ≠ [] := by
  obtain ⟨v, hv, -⟩ := liquidateAndTally_ok hstep
  have hafter : SortedVaults.remove user l.state.sortedVaults = .ok l'.state.sortedVaults ∧
      ∀ u, u ≠ user → getCurrentICR u price l'.state = getCurrentICR u price l.state :=
    liquidateNormalMode_others hv
  obtain ⟨hremove, hothers⟩ := hafter
  have hsize := liquidateNormalMode_notLast hv
  have hlinked := h.linked
  rw [List.reverse_cons] at hlinked
  have hnodup := hlinked.nodup
  have hlinked' := SortedVaults.remove_linked hlinked hremove
  rw [List.append_nil] at hlinked'
  have hordered := List.pairwise_cons.mp h.ordered
  have huser : user ∉ users := by
    intro hmem
    have hdisjoint := (List.nodup_append.mp hnodup).2.2
    exact hdisjoint user (by simpa using hmem) user (by simp) rfl
  refine ⟨⟨hlinked', fun u hu => ?_, hordered.2⟩, ?_⟩
  · rw [hothers u fun he => huser (he ▸ hu)]
    exact h.readable u (by simp [hu])
  · rintro rfl
    rw [hlinked.size_eq] at hsize
    simp at hsize

theorem sequence_eq_batch (h : Coupled price ICR users l) (hn : n = 0 ∨ users ≠ []) :
    liquidateVaultsSequence_NormalMode d price n l =
      batchLiquidate_NormalMode d price (users.take n) l := by
  induction n generalizing users l with
  | zero => rfl
  | succ n ih =>
    cases users with
    | nil => simp at hn
    | cons user users =>
      have hlast : SortedVaults.getLast l.state.sortedVaults = user := by
        rw [SortedVaults.getLast, h.linked.represents.tail_eq]
        simp
      have hread := h.readable user (by simp)
      by_cases hrisky : ICR user < MCR
      · have hsequence : liquidateVaultsSequence_NormalMode d price (n + 1) l =
            liquidateAndTally d user l >>= liquidateVaultsSequence_NormalMode d price n := by
          simp only [liquidateVaultsSequence_NormalMode, hlast, hread]
          simp [bind, Except.bind, hrisky]
        have hbatch : batchLiquidate_NormalMode d price ((user :: users).take (n + 1)) l =
            liquidateAndTally d user l >>= batchLiquidate_NormalMode d price (users.take n) := by
          simp only [List.take_succ_cons, batchLiquidate_NormalMode, hread]
          simp [bind, Except.bind, hrisky]
        rw [hsequence, hbatch]
        cases hstep : liquidateAndTally d user l with
        | error e => rfl
        | ok l' =>
          obtain ⟨h', hne⟩ := h.step hstep
          exact ih h' (.inr hne)
      · have hsequence : liquidateVaultsSequence_NormalMode d price (n + 1) l = .ok l := by
          simp only [liquidateVaultsSequence_NormalMode, hlast, hread]
          simp [bind, Except.bind, hrisky, pure, Except.pure]
        rw [hsequence, batchLiquidate_NormalMode_sound]
        intro u hu
        have hu := List.mem_of_mem_take hu
        refine ⟨ICR u, h.readable u hu, (not_lt.mp hrisky).trans ?_⟩
        rcases List.mem_cons.mp hu with rfl | hu
        · exact le_rfl
        · exact (List.pairwise_cons.mp h.ordered).1 u hu

/-- With nothing to take the sequence ends where it started. -/
theorem sequence_nothing (hn : n = 0 ∨ l.state.sortedVaults.size = 0)
    (h : liquidateVaultsSequence_NormalMode d price n l = .ok l') : l' = l := by
  cases n with
  | zero => exact (pure_ok.mp h).symm
  | succ n =>
    have hsize := hn.resolve_left n.succ_ne_zero
    simp only [liquidateVaultsSequence_NormalMode, bind_ok] at h
    obtain ⟨ICR, -, h⟩ := h
    split_ifs at h
    · simp only [bind_ok] at h
      obtain ⟨_, hstep, -⟩ := h
      obtain ⟨v, hv, -⟩ := liquidateAndTally_ok hstep
      have hmore := liquidateNormalMode_notLast hv
      omega
    · exact (pure_ok.mp h).symm

theorem settleLiquidation_nothing : settleLiquidation d block sender .zero s ≠ .ok s' := by
  intro h
  simp [settleLiquidation, LiquidationTotals.zero] at h

end VaultManager

/-- Before the first iteration the loops are coupled on the whole list. -/
theorem OrderedByICR.coupled (h : OrderedByICR price s)
    (hlinked : SortedVaults.Linked s.sortedVaults xs)
    (hstate : ∃ f, l.state = { s with priceFeed := f }) :
    Coupled price (fun u => amount (getCurrentICR u price s)) xs.reverse l := by
  obtain ⟨f, hstate⟩ := hstate
  have hall : SortedVaults.lastVaults s.sortedVaults.size s.sortedVaults = xs.reverse := by
    rw [SortedVaults.lastVaults_eq hlinked, hlinked.size_eq, ← List.length_reverse,
      List.take_length]
  obtain ⟨hreadable, hsorted⟩ := h
  rw [hall] at hreadable hsorted
  constructor
  · rw [List.reverse_reverse, hstate]
    exact hlinked
  · intro u hu
    obtain ⟨r, hr, -⟩ := exists_of_succeeds (hreadable u hu)
    have hsame : getCurrentICR u price l.state = getCurrentICR u price s := by
      rw [hstate]
      rfl
    rw [hsame, hr, amount_ok]
  · exact hsorted

/-- Sequence and batch liquidation agree on the last vaults of an ordered list: one succeeds
exactly if the other does, and then they lead to the same state. -/
theorem liquidateVaults_iff_batch (hs : Reachable d s)
    (hprice : PriceFeed.fetchPrice block s = .ok (price, s₀))
    (hmode : checkRecoveryMode price s = .ok false) (hordered : OrderedByICR price s)
    (n : ℕ) (sender : Address) (s' : State) :
    liquidateVaults d block sender n s = .ok s' ↔
      batchLiquidateVaults d block sender (SortedVaults.lastVaults n s.sortedVaults) s =
        .ok s' := by
  obtain ⟨xs, hxs⟩ := hs.registry
  have hlinked : SortedVaults.Linked s.sortedVaults xs := hxs.linked
  obtain ⟨f, hs₀⟩ := PriceFeed.fetchPrice_ok hprice
  have hmode₀ : checkRecoveryMode price s₀ = .ok false := by
    rw [hs₀]
    exact hmode
  let l₀ : LiquidationLoop := ⟨s₀.stabilityPool.totalBPDDeposits, false, 0, 0, .zero, s₀⟩
  have hsequence : liquidateVaults d block sender n s =
      (do
        let l ← liquidateVaultsSequence_NormalMode d price n l₀
        settleLiquidation d block sender l.totals l.state) := by
    simp only [liquidateVaults, hprice]
    simp [bind, Except.bind, hmode₀, getTotalsFromLiquidateVaultsSequence, startLoop, pure,
      Except.pure, l₀]
  rw [hsequence, SortedVaults.lastVaults_eq hlinked]
  by_cases hn : n = 0 ∨ s.sortedVaults.size = 0
  · -- there is nothing to liquidate, and both fail
    have hempty : xs.reverse.take n = [] := by
      rcases hn with rfl | hsize
      · rfl
      · rw [hlinked.size_eq, List.length_eq_zero_iff] at hsize
        simp [hsize]
    rw [hempty]
    constructor
    · intro h
      simp only [bind_ok] at h
      obtain ⟨l, hl, hsettle⟩ := h
      have hsize : n = 0 ∨ l₀.state.sortedVaults.size = 0 := by
        simp only [l₀, hs₀]
        exact hn
      obtain rfl := sequence_nothing hsize hl
      exact absurd hsettle settleLiquidation_nothing
    · intro h
      simp [batchLiquidateVaults] at h
  · obtain ⟨hn, hsize⟩ := not_or.mp hn
    have hne : xs ≠ [] := by
      rw [hlinked.size_eq] at hsize
      simpa using hsize
    have hbatch : batchLiquidateVaults d block sender (xs.reverse.take n) s =
        (do
          let l ← batchLiquidate_NormalMode d price (xs.reverse.take n) l₀
          settleLiquidation d block sender l.totals l.state) := by
      simp only [batchLiquidateVaults, hprice]
      simp [bind, Except.bind, hmode₀, getTotalsFromBatchLiquidate, startLoop, pure, Except.pure,
        l₀, require, hn, hne]
    rw [hbatch, sequence_eq_batch (hordered.coupled hlinked ⟨f, hs₀⟩) (.inr (by simpa using hne))]

/-- Two of three vaults fall below the minimum at a price of 44000. -/
theorem liquidateVaults_iff_batch_two : ∃ s s' : State, Reachable testnet s ∧
    liquidateVaults testnet (testBlock 44000) 103 3 s = .ok s' ∧
      batchLiquidateVaults testnet (testBlock 44000) 103
        (SortedVaults.lastVaults 3 s.sortedVaults) s = .ok s' := by
  obtain ⟨s, s', hs, h, hcheck⟩ := runsThen_reachable testnet testGenesis
    [⟨testBlock 60000, 100, 5 * 10 ^ 18, .openVault (10 ^ 16) (10000 * 10 ^ 18) 0 0⟩,
      ⟨testBlock 60000, 101, 55 * 10 ^ 15, .openVault (10 ^ 16) (2000 * 10 ^ 18) 0 0⟩,
      ⟨testBlock 60000, 102, 54 * 10 ^ 15, .openVault (10 ^ 16) (2000 * 10 ^ 18) 0 0⟩]
    ⟨testBlock 44000, 103, 0, .liquidateVaults 3⟩
    (fun s _ => succeeds (fun r => r == false) (checkRecoveryMode (44000 * 10 ^ 18) s) ∧
      OrderedByICR (44000 * 10 ^ 18) s)
    (by decide +kernel)
  obtain ⟨hmode, hordered⟩ := of_decide_eq_true hcheck
  obtain ⟨mode, hmode, hfalse⟩ := exists_of_succeeds hmode
  rw [beq_iff_eq.mp hfalse] at hmode
  have h := nonPayable_ok h
  exact ⟨s, s', hs, h, (liquidateVaults_iff_batch hs rfl hmode hordered 3 103 s').mp h⟩

end MoneyProtocol
