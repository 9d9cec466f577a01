import MoneyProtocol.Pool.Solvency

/-!
# The Stability Pool can pay its depositors

The deposits and the gains of all depositors are read separately, from a product and from sums,
and are meant never to exceed what the pool has. The loss of an offset is rounded up in favour of
the pool, but the next offset takes the whole rounding error back, although by then a part of it
has been lost together with the deposits. A history whose errors cover what is taken back is
solvent in BPD and in RBTC; two liquidations suffice for one that is not.
-/

namespace MoneyProtocol.StabilityPool

open Outcome MoneypBase Shares

variable {d : Deployment} {h h' : History} {a : Address} {s : State} {counter : ℕ}
  {amount : Address → ℕ}

/-- Those in the list take their amounts from the counter, one after the other. -/
def takeAll (amount : Address → ℕ) : List Address → ℕ → Outcome ℕ
  | [], counter => .ok counter
  | a :: as, counter => do
    let counter ← SafeMath.sub counter (amount a)
    takeAll amount as counter

theorem takeAll_ok {as : List Address} (hle : (as.map amount).sum ≤ counter) :
    takeAll amount as counter = .ok (counter - (as.map amount).sum) := by
  induction as generalizing counter with
  | nil => rfl
  | cons a as ih =>
    rw [List.map_cons, List.sum_cons] at hle ⊢
    have hrest : (as.map amount).sum ≤ counter - amount a := by omega
    have hsub : SafeMath.sub counter (amount a) = .ok (counter - amount a) :=
      SafeMath.sub_ok.mpr ⟨by omega, rfl⟩
    rw [takeAll, hsub]
    change takeAll amount as (counter - amount a) = _
    rw [ih hrest, Nat.sub_sub]

/-- Whatever covers the sum can be taken from in any order. -/
theorem takeAll_of_sum_le {as : List Address} (hnodup : as.Nodup)
    (hle : ∑ a ∈ as.toFinset, amount a ≤ counter) :
    ∃ left, takeAll amount as counter = .ok left := by
  rw [List.sum_toFinset _ hnodup] at hle
  exact ⟨_, takeAll_ok hle⟩

/-- What is read of shares that are covered sums up to no more than the pool. -/
theorem sum_read_le {share : Address → ℚ} {slack : ℚ} (hcovered : Covered share slack counter)
    (hslack : 0 ≤ slack) (hnonneg : ∀ a, 0 ≤ share a) {A : Finset Address}
    (hread : ∀ a ∈ A, (amount a : ℚ) ≤ share a) : ∑ a ∈ A, amount a ≤ counter := by
  have hsum : ((∑ a ∈ A, amount a : ℕ) : ℚ) ≤ counter := by
    rw [Nat.cast_sum]
    exact (Finset.sum_le_sum hread).trans (hcovered.sum_subset_le hslack hnonneg)
  exact_mod_cast hsum

/-- In a solvent history the compounded deposits sum up to no more than the total, and can be
withdrawn in full in any order. -/
theorem deposits_solvent (hrecorded : Recorded .solvent d h) (compounded : Address → ℕ) :
    (∀ A : Finset Address,
      (∀ a ∈ A, getCompoundedBPDDeposit a h.state = .ok (compounded a)) →
        ∑ a ∈ A, compounded a ≤ h.state.stabilityPool.totalBPDDeposits) ∧
      ∀ as : List Address, as.Nodup →
        (∀ a ∈ as, getCompoundedBPDDeposit a h.state = .ok (compounded a)) →
          (∃ left, takeAll compounded as h.state.stabilityPool.totalBPDDeposits = .ok left) ∧
            ∃ left, takeAll compounded as (h.state.bpdToken.balances d.stabilityPool) =
              .ok left := by
  have hs := hrecorded.solvent
  have hcarry : 0 ≤ h.carry / DECIMAL_PRECISION := div_nonneg hs.carry (Nat.cast_nonneg _)
  have hsum (A : Finset Address)
      (hA : ∀ a ∈ A, getCompoundedBPDDeposit a h.state = .ok (compounded a)) :
      ∑ a ∈ A, compounded a ≤ h.state.stabilityPool.totalBPDDeposits := by
    apply sum_read_le hs.covered hcarry
    · intro a
      exact worth_nonneg
    · intro a ha
      exact compoundedDeposit_le_worth (hA a ha)
  refine ⟨hsum, ?_⟩
  intro as hnodup has
  have hle := hsum as.toFinset fun a ha => has a (List.mem_toFinset.mp ha)
  exact ⟨takeAll_of_sum_le hnodup hle, takeAll_of_sum_le hnodup (hle.trans hrecorded.funded)⟩

/-- An opening, a registration, a deposit, or a liquidation whose loss takes back no more than is
left. -/
def keepsSolvent (d : Deployment) (t : Transaction) (s : State) (carry : ℚ) : Bool :=
  match t.operation with
  | .openVault _ _ _ _ | .registerFrontEnd _ | .provideToSP _ _ => true
  | .liquidate _ => match t.liquidationLoop d s with
    | .ok l => decide (0 ≤ carryAfter l.totals.totalDebtToOffset carry s.stabilityPool)
    | .error _ => true
  | _ => false

theorem keptBy_of_keepsSolvent {t : Transaction}
    (hkeeps : keepsSolvent d t h.state h.carry = true) : KeptBy .solvent d t h := by
  obtain ⟨block, sender, value, operation⟩ := t
  unfold keepsSolvent at hkeeps
  split at hkeeps
  · next hoperation =>
    obtain rfl : operation = _ := hoperation
    intro l hl
    contradiction
  · next hoperation =>
    obtain rfl : operation = _ := hoperation
    intro l hl
    contradiction
  · next hoperation =>
    obtain rfl : operation = _ := hoperation
    trivial
  · next borrower hoperation =>
    obtain rfl : operation = _ := hoperation
    intro l hl
    rw [hl] at hkeeps
    have hcarry : 0 ≤ carryAfter l.totals.totalDebtToOffset h.carry h.state.stabilityPool :=
      of_decide_eq_true hkeeps
    exact hcarry
  · contradiction

/-- A deposit of 7000 BPD and two liquidations of 2210 BPD each. -/
def solventRun : List Transaction :=
  [⟨testBlock 60000, 100, 5 * 10 ^ 18, .openVault (10 ^ 16) (10000 * 10 ^ 18) 0 0⟩,
    ⟨testBlock 60000, 101, 55 * 10 ^ 15, .openVault (10 ^ 16) (2000 * 10 ^ 18) 0 0⟩,
    ⟨testBlock 60000, 102, 55 * 10 ^ 15, .openVault (10 ^ 16) (2000 * 10 ^ 18) 0 0⟩,
    ⟨testBlock 60000, 100, 0, .provideToSP (7000 * 10 ^ 18) 0⟩,
    ⟨testBlock 44000, 105, 0, .liquidate 101⟩, ⟨testBlock 44000, 105, 0, .liquidate 102⟩]

/-- A deposit of 9763 BPD and two liquidations that leave 361 BPD of it. -/
def overdrawnRun : List Transaction :=
  [⟨testBlock 60000, 100, 5 * 10 ^ 18, .openVault (10 ^ 16) (10000 * 10 ^ 18) 0 0⟩,
    ⟨testBlock 60000, 101, 115 * 10 ^ 15, .openVault (10 ^ 16) (4470 * 10 ^ 18) 0 0⟩,
    ⟨testBlock 60000, 102, 116 * 10 ^ 15, .openVault (10 ^ 16) (4487 * 10 ^ 18) 0 0⟩,
    ⟨testBlock 60000, 103, 95 * 10 ^ 18, .openVault (10 ^ 16) (2000 * 10 ^ 18) 0 0⟩,
    ⟨testBlock 60000, 100, 0, .provideToSP (9763 * 10 ^ 18) 0⟩,
    ⟨testBlock 44000, 105, 0, .liquidate 101⟩, ⟨testBlock 44000, 105, 0, .liquidate 102⟩]

/-- After two losses the deposit is covered. -/
theorem deposits_solvent_losses : ∃ h c, Recorded .solvent testnet h ∧
    getCompoundedBPDDeposit 100 h.state = .ok c ∧ 0 < c ∧ c < 7000 * 10 ^ 18 ∧
      ∃ left, takeAll (fun _ => c) [100] h.state.stabilityPool.totalBPDDeposits = .ok left := by
  obtain ⟨s, carry, sent, hrecorded, hcheck⟩ := plays_recorded testnet testGenesis solventRun
    (keepsSolvent testnet) (fun _ _ _ => keptBy_of_keepsSolvent)
    (fun s _ => succeeds (fun c => decide (0 < c ∧ c < 7000 * 10 ^ 18))
      (getCompoundedBPDDeposit 100 s)) (by decide +kernel)
  obtain ⟨c, hc, hbounds⟩ := exists_of_succeeds hcheck
  obtain ⟨hpos, hlt⟩ := of_decide_eq_true hbounds
  have htake := (deposits_solvent hrecorded fun _ => c).2 [100] (List.nodup_singleton _)
    (by simpa using hc)
  exact ⟨_, c, hrecorded, hc, hpos, hlt, htake.1⟩

/-- The deposit of 100 has compounded to 8447 wei more than all deposits together. -/
theorem deposits_overdrawn : ∃ h c, Reachable testnet h.state ∧ Recorded .any testnet h ∧
    getCompoundedBPDDeposit 100 h.state = .ok c ∧
      c = h.state.stabilityPool.totalBPDDeposits + 8447 ∧
      takeAll (fun _ => c) [100] h.state.stabilityPool.totalBPDDeposits =
        .error (.revert "SafeMath: subtraction overflow") := by
  obtain ⟨s, hreach, -, hcheck⟩ := runs_reachable testnet testGenesis overdrawnRun
    (fun s => succeeds (fun c => decide (c = s.stabilityPool.totalBPDDeposits + 8447) &&
      failsWith (.revert "SafeMath: subtraction overflow")
        (takeAll (fun _ => c) [100] s.stabilityPool.totalBPDDeposits))
      (getCompoundedBPDDeposit 100 s)) (by decide +kernel)
  obtain ⟨c, hc, hcheck⟩ := exists_of_succeeds hcheck
  rw [Bool.and_eq_true] at hcheck
  obtain ⟨carry, sent, hrecorded⟩ := Recorded.of_reachable hreach
  exact ⟨⟨s, carry, sent⟩, c, hreach, hrecorded, hc, of_decide_eq_true hcheck.1,
    eq_error_of_failsWith hcheck.2⟩

/-- What the depositor `a` is owed in RBTC, exactly. -/
def rbtcOwed (p : StabilityPool) (a : Address) : ℚ :=
  owed (p.deposits a).initialValue (p.depositSnapshots a).S (p.depositSnapshots a)
    p.epochToScaleToSum

theorem depositorRBTCGain_le_owed {gain : ℕ} (hgain : getDepositorRBTCGain a s = .ok gain) :
    (gain : ℚ) ≤ rbtcOwed s.stabilityPool a := by
  unfold rbtcOwed
  simp only [getDepositorRBTCGain] at hgain
  split_ifs at hgain
  · rw [← pure_ok.mp hgain, Nat.cast_zero]
    exact owed_nonneg
  · exact gain_le_owed hgain

theorem Settlement.rbtcOwed_of_ne {s' : State} {a b tag : Address} (e : Settlement d a tag s s')
    (hb : b ≠ a) : rbtcOwed s'.stabilityPool b = rbtcOwed s.stabilityPool b := by
  rw [e.pool]
  unfold rbtcOwed restaked
  simp only [Function.update_of_ne hb]

/-- A depositor call leaves nothing owed to its depositor. -/
theorem Settlement.rbtcOwed_self {s' : State} {tag : Address} (e : Settlement d a tag s s')
    (hblank : Blank s.stabilityPool.epochToScaleToSum (productNow s.stabilityPool)) :
    rbtcOwed s'.stabilityPool a = 0 := by
  rw [e.pool]
  unfold rbtcOwed restaked
  simp only [Function.update_self]
  by_cases hzero : e.newDeposit = 0
  · simp only [if_pos hzero, owed_zero]
  · simp only [if_neg hzero]
    exact owed_now hblank le_rfl

theorem OffsetEffect.sums {s' : State} {debt coll : ℕ} (e : OffsetEffect d debt coll s s') :
    s'.stabilityPool.epochToScaleToSum = updateSum s.stabilityPool.epochToScaleToSum
      (productNow s.stabilityPool).epoch (productNow s.stabilityPool).scale
      (s.stabilityPool.epochToScaleToSum (productNow s.stabilityPool).epoch
        (productNow s.stabilityPool).scale + e.gain * (productNow s.stabilityPool).P) := by
  rw [e.pool]
  rfl

/-- An offset owes its depositors no more than their part of the collateral. -/
theorem OffsetEffect.rbtcOwed_le {s' : State} {debt coll : ℕ} (e : OffsetEffect d debt coll s s')
    (hp : Aged s.stabilityPool) : rbtcOwed s'.stabilityPool a ≤
      rbtcOwed s.stabilityPool a + e.gain / DECIMAL_PRECISION * depositWorth s.stabilityPool a := by
  have hsame : rbtcOwed s'.stabilityPool a = owed (s.stabilityPool.deposits a).initialValue
      (s.stabilityPool.depositSnapshots a).S (s.stabilityPool.depositSnapshots a)
      s'.stabilityPool.epochToScaleToSum := by
    unfold rbtcOwed
    rw [e.pool]
  rw [hsame, e.sums]
  exact owed_raise hp.deposit

/-- The sums are blank ahead of the product, and the pool has the RBTC that it owes. -/
structure Rewarded (h : History) : Prop where
  solvent : Solvent h
  blank : Blank h.state.stabilityPool.epochToScaleToSum (productNow h.state.stabilityPool)
  covered : Covered (rbtcOwed h.state.stabilityPool)
    (h.state.stabilityPool.lastRBTCError_Offset / DECIMAL_PRECISION) h.state.stabilityPool.RBTC

theorem Rewarded.start (g : Genesis) : Rewarded (History.start g) := by
  refine ⟨.start g, ?_, .none ?_ ?_⟩
  · intro epoch scale _
    rfl
  · intro a
    exact owed_zero
  · simp [History.start, Genesis.state]

theorem Rewarded.move (hs : Rewarded h) (hmove : Move .solvent d h h') : Rewarded h' := by
  have hsolvent := hs.solvent.move hmove
  have hdecays := hmove.decays
  cases hmove with
  | issuance i =>
    refine ⟨hsolvent, ?_, ?_⟩
    · rw [i.pool]
      exact hs.blank
    · rw [i.pool]
      exact hs.covered
  | registration hnew hrate hpool hissuance =>
    refine ⟨hsolvent, ?_, ?_⟩
    · rw [hpool]
      exact hs.blank
    · rw [hpool]
      exact hs.covered
  | elsewhere hpool =>
    refine ⟨hsolvent, ?_, ?_⟩
    · rw [hpool]
      exact hs.blank
    · rw [hpool]
      exact hs.covered
  | @settlement s' a tag _ e =>
    refine ⟨hsolvent, ?_, ?_⟩
    · rw [e.pool]
      exact hs.blank
    · have hgain := depositorRBTCGain_le_owed e.gains
      have hpaid : rbtcOwed s'.stabilityPool a ≤
          rbtcOwed h.state.stabilityPool a + -(e.gain : ℚ) := by
        rw [e.rbtcOwed_self hs.blank]
        linarith
      have hcovered := hs.covered.change (fun b hb => e.rbtcOwed_of_ne hb) hpaid
      have hRBTC : (h.state.stabilityPool.RBTC : ℚ) + -(e.gain : ℚ) = s'.stabilityPool.RBTC := by
        have hleft : s'.stabilityPool.RBTC = e.newRBTC := by rw [e.pool]
        rw [hleft, ← e.RBTC_eq, Nat.cast_add]
        ring
      have herror : s'.stabilityPool.lastRBTCError_Offset =
          h.state.stabilityPool.lastRBTCError_Offset := by
        rw [e.pool]
        rfl
      rw [hRBTC, ← herror] at hcovered
      exact hcovered
  | @offset s' debt coll _ _ _ e =>
    refine ⟨hsolvent, ?_, ?_⟩
    · have hsums := e.sums
      change Blank s'.stabilityPool.epochToScaleToSum _
      rw [hsums]
      exact hs.blank.update.later hdecays
    · have hcarry : 0 ≤ h.carry / DECIMAL_PRECISION :=
        div_nonneg hs.solvent.carry (Nat.cast_nonneg _)
      have hcovered := covered_reward hs.solvent.covered hcarry hs.covered e.gains.le
        fun a => e.rbtcOwed_le hs.solvent.aged
      have hRBTC : (h.state.stabilityPool.RBTC : ℚ) + coll = s'.stabilityPool.RBTC := by
        rw [e.pool]
        exact (Nat.cast_add _ _).symm
      have herror : e.rbtcError = s'.stabilityPool.lastRBTCError_Offset := by rw [e.pool]
      rw [hRBTC, herror] at hcovered
      exact hcovered

/-- In a solvent history the RBTC gains sum up to no more than the counter, and can be taken in
any order. -/
theorem gains_solvent (hrecorded : Recorded .solvent d h) (gain : Address → ℕ) :
    (∀ A : Finset Address, (∀ a ∈ A, getDepositorRBTCGain a h.state = .ok (gain a)) →
        ∑ a ∈ A, gain a ≤ h.state.stabilityPool.RBTC) ∧
      ∀ as : List Address, as.Nodup →
        (∀ a ∈ as, getDepositorRBTCGain a h.state = .ok (gain a)) →
          ∃ left, takeAll gain as h.state.stabilityPool.RBTC = .ok left := by
  have hs := hrecorded.invariant Rewarded.start Rewarded.move
  have hslack : (0 : ℚ) ≤ h.state.stabilityPool.lastRBTCError_Offset / DECIMAL_PRECISION := by
    positivity
  have hsum (A : Finset Address) (hA : ∀ a ∈ A, getDepositorRBTCGain a h.state = .ok (gain a)) :
      ∑ a ∈ A, gain a ≤ h.state.stabilityPool.RBTC := by
    apply sum_read_le hs.covered hslack
    · intro a
      exact owed_nonneg
    · intro a ha
      exact depositorRBTCGain_le_owed (hA a ha)
  refine ⟨hsum, ?_⟩
  intro as hnodup has
  exact takeAll_of_sum_le hnodup (hsum as.toFinset fun a ha => has a (List.mem_toFinset.mp ha))

/-- After two losses the gain of the depositor is covered. -/
theorem gains_solvent_losses : ∃ h gain, Recorded .solvent testnet h ∧
    getDepositorRBTCGain 100 h.state = .ok gain ∧ 0 < gain ∧
      ∃ left, takeAll (fun _ => gain) [100] h.state.stabilityPool.RBTC = .ok left := by
  obtain ⟨s, carry, sent, hrecorded, hcheck⟩ := plays_recorded testnet testGenesis solventRun
    (keepsSolvent testnet) (fun _ _ _ => keptBy_of_keepsSolvent)
    (fun s _ => succeeds (fun gain => decide (0 < gain)) (getDepositorRBTCGain 100 s))
    (by decide +kernel)
  obtain ⟨gain, hgain, hpos⟩ := exists_of_succeeds hcheck
  have htake := (gains_solvent hrecorded fun _ => gain).2 [100] (List.nodup_singleton _)
    (by simpa using hgain)
  exact ⟨_, gain, hrecorded, hgain, of_decide_eq_true hpos, htake⟩

/-- A third liquidation brings much RBTC to the overdrawn deposit: its gain exceeds the counter. -/
theorem gains_overdrawn : ∃ h gain, Reachable testnet h.state ∧ Recorded .any testnet h ∧
    getDepositorRBTCGain 100 h.state = .ok gain ∧ h.state.stabilityPool.RBTC < gain ∧
      takeAll (fun _ => gain) [100] h.state.stabilityPool.RBTC =
        .error (.revert "SafeMath: subtraction overflow") := by
  obtain ⟨s, hreach, -, hcheck⟩ := runs_reachable testnet testGenesis
    (overdrawnRun ++ [⟨testBlock 25, 105, 0, .liquidate 103⟩])
    (fun s => succeeds (fun gain => decide (s.stabilityPool.RBTC < gain) &&
      failsWith (.revert "SafeMath: subtraction overflow")
        (takeAll (fun _ => gain) [100] s.stabilityPool.RBTC))
      (getDepositorRBTCGain 100 s)) (by decide +kernel)
  obtain ⟨gain, hgain, hcheck⟩ := exists_of_succeeds hcheck
  rw [Bool.and_eq_true] at hcheck
  obtain ⟨carry, sent, hrecorded⟩ := Recorded.of_reachable hreach
  exact ⟨⟨s, carry, sent⟩, gain, hreach, hrecorded, hgain, of_decide_eq_true hcheck.1,
    eq_error_of_failsWith hcheck.2⟩

end MoneyProtocol.StabilityPool
