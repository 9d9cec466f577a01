import MoneyProtocol.Isolation.Accounts
import MoneyProtocol.Safety.PoolSolvency

/-!
# A deposit that is let be

What a deposit of the Stability Pool is worth depends on its own record and on a few values
that all deposits share. Only a liquidation moves these. So what is put into the pool can be
taken out again for as long as nobody is liquidated.
-/

namespace MoneyProtocol

open Outcome PointSum StabilityPool

variable {d : Deployment} {s s' s₁ s₂ s₃ : State} {block block' : Block} {u tag : Address}
  {t : Transaction} {amount v : ℕ}

/-- What all deposits are read against: the product and the sums of RBTC. -/
def State.shared (s : State) : Product × (ℕ → ℕ → ℕ) :=
  (productNow s.stabilityPool, s.stabilityPool.epochToScaleToSum)

theorem shared_of_pool (h : s'.stabilityPool = s.stabilityPool) : s'.shared = s.shared := by
  unfold State.shared
  rw [h]

namespace StabilityPool

theorem triggerMPIssuance_shared (h : triggerMPIssuance block s = .ok s') :
    s'.shared = s.shared := by
  obtain ⟨_, _, _, rfl⟩ := triggerMPIssuance_ok h
  rfl

theorem Settlement.shared {a : Address} (e : Settlement d a tag s s') : s'.shared = s.shared := by
  unfold State.shared productNow
  rw [e.pool]
  rfl

theorem provideToSP_shared {a : Address} (h : provideToSP d block a amount tag s = .ok s') :
    s'.shared = s.shared := by
  obtain ⟨s₁, hissue, ⟨e⟩⟩ := provideToSP_effect h
  exact e.shared.trans (triggerMPIssuance_shared hissue)

theorem withdrawFromSP_shared {a : Address} (h : withdrawFromSP d block a amount s = .ok s') :
    s'.shared = s.shared := by
  obtain ⟨s₀, s₁, hpool, hissue, ⟨e⟩⟩ := withdrawFromSP_effect h
  have hsame : s₀.shared = s.shared := shared_of_pool (congrArg Prod.fst hpool)
  exact (e.shared.trans (triggerMPIssuance_shared hissue)).trans hsame

theorem withdrawRBTCGainToVault_shared {a p n : Address}
    (h : withdrawRBTCGainToVault d block a p n s = .ok s') : s'.shared = s.shared := by
  obtain ⟨s₁, hissue, ⟨e⟩⟩ := withdrawRBTCGainToVault_effect h
  exact e.shared.trans (triggerMPIssuance_shared hissue)

end StabilityPool

/-- Nothing but a liquidation moves them. -/
theorem transact_shared (hsigned : t.Signed d) (h : transact d t s = .ok s')
    (hrole : t.operation.role ≠ .liquidates) : s'.shared = s.shared := by
  by_cases hpool : t.operation.ReachesPool
  · obtain ⟨block, sender, value, operation⟩ := t
    cases operation with
    | provideToSP => exact provideToSP_shared (nonPayable_ok h)
    | withdrawFromSP => exact withdrawFromSP_shared (nonPayable_ok h)
    | withdrawRBTCGainToVault => exact withdrawRBTCGainToVault_shared (nonPayable_ok h)
    | registerFrontEnd =>
      have h := nonPayable_ok h
      simp only [StabilityPool.registerFrontEnd, bind_ok, pure_ok] at h
      obtain ⟨_, -, _, -, _, -, rfl⟩ := h
      rfl
    | liquidate => exact absurd rfl hrole
    | liquidateVaults => exact absurd rfl hrole
    | batchLiquidateVaults => exact absurd rfl hrole
    | _ => exact absurd hpool id
  · exact shared_of_pool (congrArg Prod.fst (transact_record hsigned.1 h hpool))

/-- Somebody else's transaction that liquidates nobody. -/
def QuietStep (d : Deployment) (u : Address) (s s' : State) : Prop :=
  ∃ t : Transaction, t.Signed d ∧ ¬t.SignedBy u ∧ t.operation.role ≠ .liquidates ∧
    transact d t s = .ok s'

theorem quiet_steps (hu : d.External u) (h : Relation.ReflTransGen (QuietStep d u) s s') :
    s'.shared = s.shared ∧ Guarded u s s' := by
  induction h with
  | refl => exact ⟨rfl, .of_keeps (.refl u s)⟩
  | tail _ hstep ih =>
    obtain ⟨hshared, hguarded⟩ := ih
    obtain ⟨t, hsigned, hforeign, hrole, ht⟩ := hstep
    have hlast : ForeignStep d u _ _ := ⟨t, hforeign, ht⟩
    exact ⟨(transact_shared hsigned ht hrole).trans hshared,
      hguarded.trans (hlast.guarded hu)⟩

/-- A deposit is read off its record and the shared values. -/
theorem deposit_congr (hshared : s'.shared = s.shared)
    (hdeposit : s'.stabilityPool.deposits u = s.stabilityPool.deposits u)
    (hsnapshots : s'.stabilityPool.depositSnapshots u = s.stabilityPool.depositSnapshots u) :
    getCompoundedBPDDeposit u s' = getCompoundedBPDDeposit u s ∧
      getDepositorRBTCGain u s' = getDepositorRBTCGain u s := by
  obtain ⟨hproduct, hsums⟩ := Prod.mk.inj hshared
  have hP : s'.stabilityPool.P = s.stabilityPool.P := congrArg Product.P hproduct
  have hscale : s'.stabilityPool.currentScale = s.stabilityPool.currentScale :=
    congrArg Product.scale hproduct
  have hepoch : s'.stabilityPool.currentEpoch = s.stabilityPool.currentEpoch :=
    congrArg Product.epoch hproduct
  constructor
  · simp only [getCompoundedBPDDeposit, getCompoundedStakeFromSnapshots, hdeposit, hsnapshots, hP,
      hscale, hepoch]
  · simp only [getDepositorRBTCGain, getRBTCGainFromSnapshots, hdeposit, hsnapshots, hsums]

/-- Until somebody is liquidated, a deposit has compounded to what it had, and its gain is what
it was, whatever all others do. -/
theorem deposit_undisturbed (hu : d.External u)
    (hrun : Relation.ReflTransGen (QuietStep d u) s s') :
    getCompoundedBPDDeposit u s' = getCompoundedBPDDeposit u s ∧
      getDepositorRBTCGain u s' = getDepositorRBTCGain u s := by
  obtain ⟨hshared, hguarded⟩ := quiet_steps hu hrun
  exact deposit_congr hshared hguarded.deposit hguarded.depositSnapshots

namespace StabilityPool

variable {P : Policy} {h h' : History}

/-- The product is not zero, and no sum has been written ahead of it. -/
structure Level (h : History) : Prop where
  product_pos : 0 < h.state.stabilityPool.P
  blank : Blank h.state.stabilityPool.epochToScaleToSum (productNow h.state.stabilityPool)

theorem Level.of_shared (hs : Level h) (hpool : h'.state.shared = h.state.shared) : Level h' := by
  obtain ⟨hproduct, hsums⟩ := Prod.mk.inj hpool
  have hP : h'.state.stabilityPool.P = h.state.stabilityPool.P := congrArg Product.P hproduct
  refine ⟨hP ▸ hs.product_pos, ?_⟩
  rw [hproduct, hsums]
  exact hs.blank

theorem Level.move (hs : Level h) (hmove : Move P d h h') : Level h' := by
  have hdecays := hmove.decays
  cases hmove with
  | issuance i =>
    apply hs.of_shared
    unfold State.shared productNow
    rw [i.pool]
  | settlement _ e => exact hs.of_shared e.shared
  | registration _ _ hpool =>
    apply hs.of_shared
    unfold State.shared productNow
    rw [hpool]
  | elsewhere hpool => exact hs.of_shared (shared_of_pool hpool)
  | @offset s' debt coll _ _ _ e =>
    constructor
    · rw [e.pool]
      exact e.product_pos
    · change Blank s'.stabilityPool.epochToScaleToSum _
      rw [e.sums]
      exact hs.blank.update.later hdecays

theorem Recorded.level (hrecorded : Recorded P d h) : Level h := by
  refine hrecorded.invariant (fun g => ⟨?_, fun _ _ _ => rfl⟩) Level.move
  exact DECIMAL_PRECISION_pos

theorem compoundedStake_self {q : Product} (hP : 0 < q.P) : compoundedStake v q q = v := by
  have hscaled : scaledStake v q q = v := by
    simp [scaledStake, Nat.mul_div_cancel _ hP]
  unfold compoundedStake
  rw [hscaled, if_neg (Nat.not_lt.mpr (Nat.div_le_self _ _))]

/-- The snapshots of the deposit of `u` are up to date. -/
def Snapshotted (u : Address) (s : State) : Prop :=
  s.stabilityPool.depositSnapshots u =
    snapshotsNow (s.stabilityPool.epochToScaleToSum s.stabilityPool.currentEpoch
      s.stabilityPool.currentScale) s.stabilityPool

theorem Snapshotted.product (h : Snapshotted u s) :
    productThen (s.stabilityPool.depositSnapshots u) = productNow s.stabilityPool := by
  rw [h]
  rfl

/-- Such a deposit is worth what was written. -/
theorem compounded_of_level {c : ℕ} (hs : Level h)
    (hsnapshots : Snapshotted u h.state)
    (hc : getCompoundedBPDDeposit u h.state = .ok c) :
    c = (h.state.stabilityPool.deposits u).initialValue := by
  simp only [getCompoundedBPDDeposit] at hc
  split_ifs at hc with hzero
  · rw [hzero]
    exact (pure_ok.mp hc).symm
  · rw [← getCompoundedStakeFromSnapshots_ok hc, hsnapshots.product]
    exact compoundedStake_self hs.product_pos

/-- And it has gained nothing yet. -/
theorem gain_of_level {gain : ℕ} (hs : Level h) (hsnapshots : Snapshotted u h.state)
    (hgain : getDepositorRBTCGain u h.state = .ok gain) : gain = 0 := by
  have hle := depositorRBTCGain_le_owed hgain
  have hnothing : rbtcOwed h.state.stabilityPool u = 0 := by
    unfold rbtcOwed
    rw [hsnapshots]
    exact owed_now hs.blank le_rfl
  have hzero : (gain : ℚ) ≤ 0 := hle.trans hnothing.le
  exact_mod_cast le_antisymm hzero (Nat.cast_nonneg gain)

theorem triggerMPIssuance_purse (h : triggerMPIssuance block s = .ok s') :
    purse u s' = purse u s := by
  obtain ⟨_, _, _, rfl⟩ := triggerMPIssuance_ok h
  rfl

theorem payOutMPGains_purse {a frontEnd : Address}
    (h : payOutMPGains d block a frontEnd s = .ok s') :
    purse u s' = purse u s := by
  obtain ⟨_, rfl⟩ := payOutMPGains_ok h
  rfl

theorem Bookkeeping.purse (h : Bookkeeping s s') : purse u s' = purse u s := by
  obtain ⟨_, _, _, _, rfl⟩ := h
  rfl

theorem sendBPDtoStabilityPool_purse (hu : d.External u)
    (h : sendBPDtoStabilityPool d u v s = .ok s') : v ≤ s.bpdToken.balances u ∧
      purse u s' = (s.rbtc u, s.bpdToken.balances u - v) := by
  simp only [sendBPDtoStabilityPool, BPDToken.sendToPool, bind_ok, pure_ok] at h
  obtain ⟨_, hmove, _, -, rfl⟩ := h
  obtain ⟨-, -, hcovered, rfl⟩ := BPDToken._transfer_ok hmove
  exact ⟨hcovered, Prod.ext rfl (move_source (hu.ne d.stabilityPool_mem))⟩

theorem sendBPDToDepositor_purse (hu : d.External u)
    (h : sendBPDToDepositor d u v s = .ok s') :
    purse u s' = (s.rbtc u, s.bpdToken.balances u + v) := by
  simp only [sendBPDToDepositor] at h
  split_ifs at h with hzero
  · rw [← pure_ok.mp h, hzero]
    rfl
  · simp only [BPDToken.returnFromPool, decreaseBPD, bind_ok, pure_ok] at h
    obtain ⟨_, hmove, _, -, rfl⟩ := h
    obtain ⟨-, -, -, rfl⟩ := BPDToken._transfer_ok hmove
    exact Prod.ext rfl (move_target (hu.ne d.stabilityPool_mem).symm)

theorem sendRBTCGainToDepositor_purse (hu : d.External u)
    (h : sendRBTCGainToDepositor d u v s = .ok s') :
    purse u s' = (s.rbtc u + v, s.bpdToken.balances u) := by
  simp only [sendRBTCGainToDepositor] at h
  split_ifs at h with hzero
  · rw [← pure_ok.mp h, hzero]
    rfl
  · simp only [bind_ok] at h
    obtain ⟨_, htake, h⟩ := h
    obtain ⟨-, rfl⟩ := takeRBTC_effect htake
    rw [callWithValue_external hu h]
    exact Prod.ext (move_target (hu.ne d.stabilityPool_mem).symm) rfl

/-- The issuance of MP leaves every deposit what it is. -/
theorem triggerMPIssuance_deposit (h : triggerMPIssuance block s = .ok s') :
    getCompoundedBPDDeposit u s' = getCompoundedBPDDeposit u s ∧
      getDepositorRBTCGain u s' = getDepositorRBTCGain u s := by
  have hkept : Retains u s s' := triggerMPIssuance_keeps h
  exact deposit_congr (triggerMPIssuance_shared h) hkept.deposit hkept.depositSnapshots

/-- How both depositor functions end. -/
theorem deposit_written {gain : ℕ}
    (h : sendRBTCGainToDepositor d u gain (updateDepositAndSnapshots u v s) = .ok s') :
    (s'.stabilityPool.deposits u).initialValue = v ∧ (v ≠ 0 → Snapshotted u s') := by
  have hpool := congrArg Prod.fst (sendRBTCGainToDepositor_effect h).2
  rw [updateDepositAndSnapshots_eq] at hpool
  have hpool : s'.stabilityPool = _ := hpool
  unfold Snapshotted
  rw [hpool]
  simp only [setDeposit, Function.update_self]
  refine ⟨?_, fun hne => ?_⟩
  · split_ifs with hzero
    · exact hzero.symm
    · rfl
  · rw [if_neg hne]
    rfl

/-- The depositor pays `amount`, receives its gain and has its compounded deposit topped up. -/
structure Provided (u : Address) (amount : ℕ) (s s' : State) where
  compounded : ℕ
  gain : ℕ
  compounds : getCompoundedBPDDeposit u s = .ok compounded
  gains : getDepositorRBTCGain u s = .ok gain
  covered : amount ≤ s.bpdToken.balances u
  purse : purse u s' = (s.rbtc u + gain, s.bpdToken.balances u - amount)
  deposit : (s'.stabilityPool.deposits u).initialValue = compounded + amount
  snapshots : Snapshotted u s'

theorem provideToSP_provided (hu : d.External u)
    (h : provideToSP d block u amount tag s = .ok s') : Nonempty (Provided u amount s s') := by
  simp only [provideToSP, requireNonZeroAmount, bind_ok, require_ok, SafeMath.add_ok] at h
  obtain ⟨_, -, _, -, _, hamount, s₁, hissue, gain, hgain, compounded, hcompounds, _, -, s₂, hpay,
    stake, hstake, newStake, -, s₃, hsend, newDeposit, ⟨-, rfl⟩, hpaid⟩ := h
  rw [tagDeposit_eq, getCompoundedBPDDeposit_tagged] at hcompounds
  rw [tagDeposit_eq, getDepositorRBTCGain_tagged] at hgain
  obtain ⟨hsame, hsameGain⟩ := triggerMPIssuance_deposit hissue (u := u)
  -- up to the transfer to the pool only records have changed
  have hbefore : purse u (updateFrontEndStakeAndSnapshots
      ((tagDeposit u tag s₁).stabilityPool.deposits u).frontEndTag newStake s₂) =
        purse u s := by
    rw [updateFrontEndStakeAndSnapshots_bookkeeping.purse, payOutMPGains_purse hpay,
      tagDeposit_bookkeeping.purse, triggerMPIssuance_purse hissue]
  obtain ⟨hrbtc, hBPD⟩ := Prod.mk.inj hbefore
  obtain ⟨hcovered, hsent⟩ := sendBPDtoStabilityPool_purse hu hsend
  obtain ⟨hrbtcSent, hBPDSent⟩ := Prod.mk.inj
    (updateDepositAndSnapshots_bookkeeping.purse.trans hsent)
  obtain ⟨hdeposit, hsnapshots⟩ := deposit_written hpaid
  refine ⟨compounded, gain, hsame ▸ hcompounds, hsameGain ▸ hgain, ?_, ?_, hdeposit,
    hsnapshots (by omega)⟩
  · rw [← hBPD]
    exact hcovered
  · rw [sendRBTCGainToDepositor_purse hu hpaid, hrbtcSent, hBPDSent, hrbtc, hBPD]

/-- The depositor takes up to `amount` out of its compounded deposit, and its gain. -/
structure Withdrawn (u : Address) (amount : ℕ) (s s' : State) where
  compounded : ℕ
  gain : ℕ
  compounds : getCompoundedBPDDeposit u s = .ok compounded
  gains : getDepositorRBTCGain u s = .ok gain
  purse : purse u s' = (s.rbtc u + gain, s.bpdToken.balances u + min amount compounded)
  deposit : (s'.stabilityPool.deposits u).initialValue = compounded - min amount compounded
  snapshots : (s'.stabilityPool.deposits u).initialValue ≠ 0 → Snapshotted u s'

theorem withdrawFromSP_withdrawn (hu : d.External u)
    (h : withdrawFromSP d block u amount s = .ok s') : Nonempty (Withdrawn u amount s s') := by
  simp only [withdrawFromSP, bind_ok, ite_pure_ok, SafeMath.sub_ok] at h
  obtain ⟨s₀, hprice, _, -, s₁, hissue, gain, hgain, compounded, hcompounds, _, -, s₂, hpay,
    stake, hstake, newStake, -, s₃, hsend, newDeposit, ⟨-, rfl⟩, hpaid⟩ := h
  have hs₀ : s₀.stabilityPool = s.stabilityPool ∧
      purse u s₀ = purse u s := by
    rcases hprice with ⟨-, hprice⟩ | ⟨-, rfl⟩
    · obtain ⟨_, rfl⟩ := requireNoUnderCollateralizedVaults_ok hprice
      exact ⟨rfl, rfl⟩
    · exact ⟨rfl, rfl⟩
  obtain ⟨hpool, hpurse⟩ := hs₀
  obtain ⟨hsame, hsameGain⟩ := triggerMPIssuance_deposit hissue (u := u)
  obtain ⟨hread, hreadGain⟩ : getCompoundedBPDDeposit u s₀ = getCompoundedBPDDeposit u s ∧
      getDepositorRBTCGain u s₀ = getDepositorRBTCGain u s :=
    deposit_congr (shared_of_pool hpool) (by rw [hpool]) (by rw [hpool])
  have hbefore : purse u (updateFrontEndStakeAndSnapshots
      (s₁.stabilityPool.deposits u).frontEndTag newStake s₂) = purse u s := by
    rw [updateFrontEndStakeAndSnapshots_bookkeeping.purse, payOutMPGains_purse hpay,
      triggerMPIssuance_purse hissue, hpurse]
  obtain ⟨hrbtc, hBPD⟩ := Prod.mk.inj hbefore
  obtain ⟨hrbtcSent, hBPDSent⟩ := Prod.mk.inj
    (updateDepositAndSnapshots_bookkeeping.purse.trans (sendBPDToDepositor_purse hu hsend))
  obtain ⟨hdeposit, hsnapshots⟩ := deposit_written hpaid
  refine ⟨compounded, gain, (hsame.trans hread) ▸ hcompounds, (hsameGain.trans hreadGain) ▸ hgain,
    ?_, hdeposit, fun hne => hsnapshots (hdeposit ▸ hne)⟩
  rw [sendRBTCGainToDepositor_purse hu hpaid, hrbtcSent, hBPDSent, hrbtc, hBPD]

/-- A payment to the depositor. -/
def paysFirst : Transaction := ⟨testBlock 60000, 101, 0, .transfer 100 (10 * 10 ^ 18)⟩

/-- What is put into the pool comes out again: as long as nobody is liquidated, the depositor can
take exactly its compounded deposit and what it has added, whatever others do in between. -/
theorem deposit_returned (hu : d.External u) (hs : Reachable d s)
    (hprovide : provideToSP d block u amount tag s = .ok s₁)
    (hquiet : Relation.ReflTransGen (QuietStep d u) s₁ s₂)
    (hwithdraw : withdrawFromSP d block' u v s₂ = .ok s₃) :
    ∃ compounded gain, getCompoundedBPDDeposit u s = .ok compounded ∧
      getDepositorRBTCGain u s = .ok gain ∧
      purse u s₁ = (s.rbtc u + gain, s.bpdToken.balances u - amount) ∧
      purse u s₃ = (s₂.rbtc u, s₂.bpdToken.balances u + min v (compounded + amount)) ∧
      (s₃.stabilityPool.deposits u).initialValue =
        compounded + amount - min v (compounded + amount) := by
  obtain ⟨p⟩ := provideToSP_provided hu hprovide
  obtain ⟨w⟩ := withdrawFromSP_withdrawn hu hwithdraw
  obtain ⟨hsame, hsameGain⟩ := deposit_undisturbed hu hquiet
  obtain ⟨carry, sent, hrecorded⟩ := Recorded.of_reachable hs
  have hlevel : Level ⟨s₁, carry, sent⟩ :=
    hrecorded.level.of_shared (provideToSP_shared hprovide)
  have hcompounded : w.compounded = p.compounded + amount := by
    have hread := w.compounds
    rw [hsame] at hread
    exact (compounded_of_level hlevel p.snapshots hread).trans p.deposit
  have hgain : w.gain = 0 := by
    have hread := w.gains
    rw [hsameGain] at hread
    exact gain_of_level hlevel p.snapshots hread
  refine ⟨p.compounded, p.gain, p.compounds, p.gains, p.purse, ?_, ?_⟩
  · rw [w.purse, hgain, hcompounded, Nat.add_zero]
  · rw [w.deposit, hcompounded]

theorem deposit_returned_transfer : ∃ s s₁ s₂ s₃, Reachable testnet s ∧
    provideToSP testnet (testBlock 60000) 100 (5000 * 10 ^ 18) 0 s = .ok s₁ ∧
    transact testnet paysFirst s₁ = .ok s₂ ∧
    withdrawFromSP testnet (testBlock 60000) 100 (9000 * 10 ^ 18) s₂ = .ok s₃ ∧
    s₃.bpdToken.balances 100 = s₂.bpdToken.balances 100 + 5000 * 10 ^ 18 := by
  obtain ⟨s, hs, -, hcheck⟩ := runs_reachable testnet testGenesis threeVaults (fun s =>
    (s.stabilityPool.deposits 100).initialValue = 0 ∧
    succeeds (fun s₁ => succeeds (fun s₂ => succeeds (fun _ => true)
      (withdrawFromSP testnet (testBlock 60000) 100 (9000 * 10 ^ 18) s₂))
      (transact testnet paysFirst s₁))
      (provideToSP testnet (testBlock 60000) 100 (5000 * 10 ^ 18) 0 s)) (by decide +kernel)
  obtain ⟨hnone, hcheck⟩ := of_decide_eq_true hcheck
  obtain ⟨s₁, hprovide, hcheck⟩ := exists_of_succeeds hcheck
  obtain ⟨s₂, hpays, hcheck⟩ := exists_of_succeeds hcheck
  obtain ⟨s₃, hwithdraw, -⟩ := exists_of_succeeds hcheck
  have hquiet : QuietStep testnet 100 s₁ s₂ :=
    ⟨paysFirst, by decide, by decide, by decide, hpays⟩
  obtain ⟨compounded, gain, hcompounds, -, -, hpurse, -⟩ :=
    deposit_returned (by decide) hs hprovide (.single hquiet) hwithdraw
  obtain rfl : compounded = 0 := by
    simp only [getCompoundedBPDDeposit, hnone] at hcompounds
    exact (pure_ok.mp hcompounds).symm
  exact ⟨s, s₁, s₂, s₃, hs, hprovide, hpays, hwithdraw, congrArg Prod.snd hpurse⟩

end StabilityPool

end MoneyProtocol
