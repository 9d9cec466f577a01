import MoneyProtocol.Book.Coverage

/-!
# Collecting from the Default Pool

Every vault can collect its pending collateral at any time. It can also collect its pending
debt, as long as no run restakes a stale vault; a run that does leaves a vault owing more
than the pool can release.
-/

namespace MoneyProtocol

open Outcome Book PointSum MoneypMath VaultManager

variable {d : Deployment} {s s' : State} {xs : List Address}

namespace State

/-- What the active vaults are owed of the redistributed RBTC, in `1e-18` wei, with the
error carried to the next redistribution. -/
def owedRBTC (s : State) : ℕ :=
  ∑ a ∈ s.activeVaults,
      (s.vault a).stake * (s.vaultManager.B_RBTC - (s.vaultManager.rewardSnapshots a).RBTC) +
    s.vaultManager.lastRBTCError_Redistribution

/-- The RBTC of the Default Pool, in `1e-18` wei, that nobody is owed. -/
def dustRBTC (s : State) : ℤ :=
  (s.defaultPool.RBTC * DECIMAL_PRECISION : ℕ) - s.owedRBTC

end State

/-- A sum over the active vaults is a sum over all, as the others weigh nothing. -/
theorem sum_activeVaults {f : Address → ℕ} (h : s.book.Registry xs)
    (hf : ∀ a, a ∉ xs → f a = 0) : ∑ a ∈ s.activeVaults, f a = ∑ a, f a := by
  refine Finset.sum_subset (Finset.subset_univ _) fun a _ ha => hf a fun hmem => ha ?_
  rw [State.mem_activeVaults]
  exact (h.active a).mpr hmem

theorem dustRBTC_eq (h : s.book.Registry xs) : s.dustRBTC = s.book.dust .RBTC := by
  have hsum := sum_activeVaults (f := s.book.owedTo .RBTC) h fun a ha =>
    Accumulator.owedTo_weightless (h.inactive a ha).2.2
  have hinvariant : s.owedRBTC = s.book.owed .RBTC + s.book.lastError .RBTC :=
    congrArg (· + s.vaultManager.lastRBTCError_Redistribution) hsum
  rw [State.dustRBTC, hinvariant]
  rfl

theorem Genesis.dust_eq_zero (g : Genesis) (r : Reward) : g.state.book.dust r = 0 := by
  cases r <;> simp [dust, pooled, owed, lastError, Accumulator.owed, Accumulator.owedTo, stakes,
    State.book, Genesis.state]

/-- The log of the Default Pool counts the rewards collected, and so bounds the dust. -/
theorem Reachable.dust (h : Reachable d s) : 0 ≤ s.book.dust .RBTC ∧
    s.book.dust .RBTC ≤ s.defaultPool.bitcoinSent.length * (DECIMAL_PRECISION - 1 : ℕ) := by
  obtain ⟨g, hmoves⟩ := h.moves
  obtain ⟨sent, hsent, hle, hlt⟩ := hmoves.dust_RBTC g.registry
  rw [g.dust_eq_zero] at hle hlt
  have hlog : s.defaultPool.bitcoinSent = sent := by simpa [State.book, Genesis.state] using hsent
  rw [hlog]
  exact ⟨hle, by simpa using hlt⟩

/-- The pool can send what it owes. -/
theorem sendRBTCToActivePool_succeeds {v : ℕ} (hs : Balanced d s) (hv : v ≤ s.defaultPool.RBTC) :
    ∃ s', DefaultPool.sendRBTCToActivePool d v s = .ok s' := by
  have hpooled := hs.pooled
  have hbacking := hs.backing
  have hnative := hs.native
  have hle := le_total id s.rbtc d.activePool
  have hle' := le_total id s.rbtc d.defaultPool
  simp only [State.ledger, id_eq] at hpooled hbacking hnative hle hle'
  have hbalance : v ≤ s.rbtc d.defaultPool := by omega
  have hroom : s.activePool.RBTC + v < 2 ^ 256 := by omega
  simp only [DefaultPool.sendRBTCToActivePool, callWithValue, transferRBTC, receive, if_true,
    ActivePool.receive, bind_ok, SafeMath.sub_ok, SafeMath.add_ok, require_ok, pure_ok]
  exact ⟨_, _, ⟨hv, rfl⟩, _, ⟨(), hbalance, rfl⟩, (), .inr trivial, _, ⟨hroom, rfl⟩, rfl⟩

theorem getPendingRBTCReward_succeeds (hs : Balanced d s) (h : s.book.Registry xs)
    (hdust : 0 ≤ s.book.dust .RBTC) (a : Address) :
    getPendingRBTCReward a s = .ok (s.book.pendingRBTC a) := by
  have hpooled := hs.pooled
  have hnative := hs.native
  have hle := le_total id s.rbtc d.defaultPool
  simp only [State.ledger, id_eq] at hpooled hnative hle
  have howed : s.book.owedTo .RBTC a ≤ s.defaultPool.RBTC * DECIMAL_PRECISION := by
    have hall : s.book.owedTo .RBTC a ≤ s.book.owed .RBTC := Accumulator.owedTo_le_owed a
    have hpool : s.book.pooled .RBTC = s.defaultPool.RBTC := rfl
    simp only [dust, owed, owedTo, hpool] at hdust hall ⊢
    omega
  have hroom : s.book.owedTo .RBTC a < 2 ^ 256 := by
    have hsmall : s.defaultPool.RBTC < 2 ^ 128 := by omega
    calc s.book.owedTo .RBTC a ≤ s.defaultPool.RBTC * DECIMAL_PRECISION := howed
      _ < 2 ^ 128 * DECIMAL_PRECISION := Nat.mul_lt_mul_of_pos_right hsmall (by decide)
      _ < 2 ^ 256 := by decide
  obtain ⟨v, hread⟩ : ∃ v, getPendingRBTCReward a s = .ok v :=
    pendingReward_succeeds (h.snapshots a).1 hroom
  rw [hread, getPendingRBTCReward_ok hread]

/-- The stakes add up, the Default Pool covers what the vaults are owed of its collateral,
and a transaction leaves less than a wei of dust for each reward it collects. -/
theorem defaultPool_covers_coll (h : Reachable d s) :
    s.vaultManager.totalStakes = ∑ a ∈ s.activeVaults, (s.vault a).stake ∧
      s.owedRBTC ≤ s.defaultPool.RBTC * DECIMAL_PRECISION ∧
      s.dustRBTC ≤ s.defaultPool.bitcoinSent.length * (DECIMAL_PRECISION - 1 : ℕ) ∧
      (∀ s', Step d s s' → ∃ sent : List ℕ,
        s'.defaultPool.bitcoinSent = sent ++ s.defaultPool.bitcoinSent ∧
        s.dustRBTC ≤ s'.dustRBTC ∧
        s'.dustRBTC ≤ s.dustRBTC + sent.length * (DECIMAL_PRECISION - 1 : ℕ)) ∧
      ∀ a, ∃ v s', getPendingRBTCReward a s = .ok v ∧
        DefaultPool.sendRBTCToActivePool d v s = .ok s' := by
  obtain ⟨xs, hxs⟩ := h.registry
  obtain ⟨hdust, hbound⟩ := h.dust
  refine ⟨?_, ?_, ?_, fun s' hstep => ?_, fun a => ?_⟩
  · have hsum := sum_activeVaults hxs (f := fun a => (s.vault a).stake)
      fun a ha => (hxs.inactive a ha).2.2
    have hstakes := hxs.stakes
    unfold total at hstakes
    rw [hsum]
    exact hstakes
  · have heq := dustRBTC_eq hxs
    simp only [State.dustRBTC] at heq
    omega
  · rw [dustRBTC_eq hxs]
    exact hbound
  · obtain ⟨ys, hys⟩ := (h.step hstep).registry
    rw [dustRBTC_eq hxs, dustRBTC_eq hys]
    exact (h.step_moves hstep).dust_RBTC hxs
  · have hread := getPendingRBTCReward_succeeds h.balanced hxs hdust a
    have hle : s.book.pending .RBTC a ≤ s.defaultPool.RBTC :=
      pending_le hxs (r := .RBTC) hdust a
    obtain ⟨s', hsend⟩ := sendRBTCToActivePool_succeeds h.balanced hle
    exact ⟨_, s', hread, hsend⟩

theorem defaultPool_covers_coll_run : ∃ s, Reachable testnet s ∧
    s.dustRBTC ≤ s.defaultPool.bitcoinSent.length * (DECIMAL_PRECISION - 1 : ℕ) ∧
    s.defaultPool.RBTC ≠ 0 := by
  -- the vault of 101 is redistributed to the one of 100
  obtain ⟨s, h, -, hcheck⟩ := runs_reachable testnet testGenesis
    [⟨testBlock 60000, 100, 5 * 10 ^ 18, .openVault (10 ^ 16) (10000 * 10 ^ 18) 0 0⟩,
      ⟨testBlock 60000, 101, 55 * 10 ^ 15, .openVault (10 ^ 16) (2000 * 10 ^ 18) 0 0⟩,
      ⟨testBlock 44000, 102, 0, .liquidate 101⟩]
    (fun s => s.defaultPool.RBTC ≠ 0) (by decide +kernel)
  exact ⟨s, h, (defaultPool_covers_coll h).2.2.1, of_decide_eq_true hcheck⟩

/-- The pending debt that `getPendingBPDDebtReward` reads. -/
def State.pendingDebt (s : State) (a : Address) : ℕ :=
  (getPendingBPDDebtReward a s).toOption.getD 0

/-- The Default Pool can release every pending debt, and all of them together. -/
structure DebtCovered (s : State) : Prop where
  total : ∑ a ∈ s.activeVaults, s.pendingDebt a ≤ s.defaultPool.BPDDebt
  each : ∀ a v, getPendingBPDDebtReward a s = .ok v → ∃ s', DefaultPool.decreaseBPDDebt v s = .ok s'

/-- A transaction that restakes no stale vault. -/
def FreshStep (d : Deployment) (s s' : State) : Prop :=
  ∃ t : Transaction, t.Signed d ∧ ¬t.RestakesStale s ∧ transact d t s = .ok s'

/-- The policy of such runs. -/
def Book.Policy.restakesFresh : Policy := ⟨True, fun _ _ _ => True, fun _ _ _ => True⟩

theorem FreshStep.kept (h : FreshStep d s s') : KeptStep .restakesFresh d s s' := by
  obtain ⟨t, hsigned, hfresh, h⟩ := h
  exact ⟨t, hsigned, ⟨fun _ => hfresh, fun _ _ _ => trivial, fun _ _ => trivial⟩, h⟩

theorem State.pendingDebt_le (s : State) (a : Address) :
    s.pendingDebt a ≤ s.book.pendingDebt a := by
  unfold State.pendingDebt
  cases h : getPendingBPDDebtReward a s with
  | error e => exact Nat.zero_le _
  | ok v => exact (getPendingBPDDebtReward_ok h).le

/-- As long as no run restakes a stale vault, the pending debt is covered. -/
theorem debtCovered_of_fresh {g : Genesis}
    (h : Relation.ReflTransGen (FreshStep d) g.state s) : DebtCovered s := by
  have hkept : Relation.ReflTransGen (KeptStep .restakesFresh d) g.state s :=
    Relation.ReflTransGen.mono (fun _ _ => FreshStep.kept) _ _ h
  obtain ⟨g', hmoves⟩ := KeptReachable.moves ⟨g, hkept⟩
  obtain ⟨xs, hxs⟩ := g'.registry.moves hmoves
  have hdust : 0 ≤ s.book.dust .debt := by
    rw [← g'.dust_eq_zero .debt]
    exact hmoves.dust_debt trivial g'.registry
  constructor
  · calc ∑ a ∈ s.activeVaults, s.pendingDebt a
        ≤ ∑ a, s.pendingDebt a := Finset.sum_le_sum_of_subset (Finset.subset_univ _)
      _ ≤ ∑ a, s.book.pending .debt a := Finset.sum_le_sum fun a _ => s.pendingDebt_le a
      _ ≤ s.defaultPool.BPDDebt := total_pending_le hxs hdust
  · intro a v hv
    have hle : v ≤ s.defaultPool.BPDDebt := by
      rw [getPendingBPDDebtReward_ok hv]
      exact pending_le hxs (r := .debt) hdust a
    simp only [DefaultPool.decreaseBPDDebt, bind_ok, SafeMath.sub_ok, pure_ok]
    exact ⟨_, _, ⟨hle, rfl⟩, rfl⟩

theorem run_fresh {ts : List Transaction} (hsigned : ∀ t ∈ ts, t.Signed d)
    (hfresh : ∀ t ∈ ts, ∀ s, ¬t.RestakesStale s) (h : run d ts s = .ok s') :
    Relation.ReflTransGen (FreshStep d) s s' := by
  induction ts generalizing s with
  | nil =>
    obtain rfl := pure_ok.mp h
    exact .refl
  | cons t ts ih =>
    simp only [run, bind_ok] at h
    obtain ⟨s₁, hstep, h⟩ := h
    exact .head ⟨t, hsigned t (by simp), hfresh t (by simp) s, hstep⟩
      (ih (fun u hu => hsigned u (by simp [hu])) (fun u hu => hfresh u (by simp [hu])) h)

theorem debtCovered_redistributed : ∃ s, Reachable testnet s ∧ s.defaultPool.BPDDebt ≠ 0 ∧
    DebtCovered s := by
  obtain ⟨s, h, hrun, hcheck⟩ := runs_reachable testnet testGenesis
    [⟨testBlock 60000, 100, 5 * 10 ^ 18, .openVault (10 ^ 16) (10000 * 10 ^ 18) 0 0⟩,
      ⟨testBlock 60000, 101, 55 * 10 ^ 15, .openVault (10 ^ 16) (2000 * 10 ^ 18) 0 0⟩,
      ⟨testBlock 44000, 102, 0, .liquidate 101⟩]
    (fun s => s.defaultPool.BPDDebt ≠ 0) (by decide +kernel)
  refine ⟨s, h, of_decide_eq_true hcheck, debtCovered_of_fresh (d := testnet)
    (run_fresh (by decide +kernel) ?_ hrun)⟩
  simp [Transaction.RestakesStale]

/-- After a redistribution that brought debt but not a unit of collateral for each unit
staked, the vault of 100 is stale, and adding collateral multiplies what it seems to owe. -/
theorem debt_not_covered : ¬∀ d s, Reachable d s → DebtCovered s := by
  intro hall
  obtain ⟨s, h, -, hcheck⟩ := runs_reachable testnet testGenesis
    [⟨testBlock 60000, 100, 5 * 10 ^ 18, .openVault (10 ^ 16) (10000 * 10 ^ 18) 0 0⟩,
      ⟨testBlock 60000, 101, 55 * 10 ^ 15, .openVault (10 ^ 16) (2000 * 10 ^ 18) 0 0⟩,
      ⟨testBlock 60000, 100, 0, .provideToSP (2210 * 10 ^ 18 - 50000) 0⟩,
      ⟨testBlock 44000, 102, 0, .liquidate 101⟩,
      ⟨testBlock 60000, 100, 90 * 10 ^ 18, .addColl 0 0⟩]
    (fun s => s.Active 100 ∧ s.defaultPool.BPDDebt < s.pendingDebt 100)
    (by decide +kernel)
  obtain ⟨hactive, hlt⟩ := of_decide_eq_true hcheck
  have hsingle : s.pendingDebt 100 ≤ ∑ a ∈ s.activeVaults, s.pendingDebt a :=
    Finset.single_le_sum (fun _ _ => Nat.zero_le _) (State.mem_activeVaults.mpr hactive)
  exact absurd (hall testnet s h).total (by omega)

end MoneyProtocol
