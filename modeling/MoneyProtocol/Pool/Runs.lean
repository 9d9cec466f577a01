import MoneyProtocol.Pool.Calls
import MoneyProtocol.Book.Runs

/-!
# The system's runs are histories of the pool

A transaction either leaves the Stability Pool alone, or it is one of the depositor functions, or
it is a liquidation, whose only touch of the pool is one offset. So what holds in every history
of the pool holds in every state that a run of the system reaches.
-/

namespace MoneyProtocol

open Outcome VaultManager

variable {d : Deployment} {s s' : State} {t : Transaction} {block : Block} {a : Address}

/-- What the pool stores, without the balances of MP. -/
def State.record (s : State) : StabilityPool × CommunityIssuance :=
  (s.stabilityPool, s.communityIssuance)

theorem record_of_pool (h : s'.pool = s.pool) : s'.record = s.record := by
  simp only [State.pool, Prod.mk.injEq] at h
  simp only [State.record, h.1, h.2.1]

theorem BPDToken.transferFrom_record {sender recipient : Address} {v : ℕ}
    (h : transferFrom d a sender recipient v s = .ok s') : s'.record = s.record := by
  simp only [transferFrom, bind_ok] at h
  obtain ⟨_, -, _, hmove, _, -, h⟩ := h
  exact record_of_pool ((_approve_pool h).trans (_transfer_pool hmove))

theorem BPDToken.permit_record {recovered owner spender : Address} {v deadline : ℕ}
    (h : permit block recovered owner spender v deadline s = .ok s') : s'.record = s.record := by
  simp only [permit, bind_ok] at h
  obtain ⟨_, -, _, -, h⟩ := h
  exact (record_of_pool (_approve_pool h)).trans rfl

namespace MPStaking

theorem sendGains_record {BPDGain RBTCGain : ℕ} (h : sendGains d a BPDGain RBTCGain s = .ok s') :
    s'.record = s.record := by
  simp only [sendGains, bind_ok] at h
  obtain ⟨_, hBPD, hRBTC⟩ := h
  rw [record_of_pool (pool_of_aside (callWithValue_aside (.inr d.mpStaking_ne_activePool) hRBTC)),
    record_of_pool (BPDToken.transfer_pool hBPD)]

theorem stake_record {v : ℕ} (h : stake d block a v s = .ok s') : s'.record = s.record := by
  simp only [stake, bind_ok, ite_pure_ok] at h
  obtain ⟨_, -, _, -, _, -, _, -, _, -, t, hMP, h⟩ := h
  obtain ⟨_, rfl⟩ := MPToken.sendToMPStaking_ok hMP
  rcases h with ⟨-, h⟩ | ⟨-, rfl⟩
  · exact (sendGains_record h).trans rfl
  · rfl

theorem unstake_record {v : ℕ} (h : unstake d block a v s = .ok s') : s'.record = s.record := by
  simp only [unstake, bind_ok, ite_pure_ok] at h
  obtain ⟨_, -, _, -, _, -, t, hMP, h⟩ := h
  rw [sendGains_record h]
  rcases hMP with ⟨-, _, -, _, -, hMP⟩ | ⟨-, rfl⟩
  · obtain ⟨_, rfl⟩ := MPToken.transfer_ok hMP
    rfl
  · rfl

end MPStaking

/-- Only these reach the Stability Pool. -/
def Operation.ReachesPool : Operation → Prop
  | .liquidate _ | .liquidateVaults _ | .batchLiquidateVaults _ => True
  | .provideToSP _ _ | .withdrawFromSP _ | .withdrawRBTCGainToVault _ _ => True
  | .registerFrontEnd _ => True
  | _ => False

/-- A payable call that leaves the pool alone. -/
theorem payable_record {f : State → Outcome State}
    (hf : ∀ s₁, f s₁ = .ok s' → s'.pool = s₁.pool) (h : payable d t f s = .ok s') :
    s'.record = s.record := by
  simp only [payable, bind_ok] at h
  obtain ⟨s₁, hsend, h⟩ := h
  rw [record_of_pool (hf s₁ h), record_of_pool (pool_of_aside (transferRBTC_aside hsend))]

/-- All the others leave its storage and the issuance of MP alone. -/
theorem transact_record (hsender : d.External t.sender) (h : transact d t s = .ok s')
    (hop : ¬t.operation.ReachesPool) : s'.record = s.record := by
  have hne := hsender.ne d.stabilityPool_mem
  obtain ⟨block, sender, value, operation⟩ := t
  cases operation with
  | liquidate => exact absurd trivial hop
  | liquidateVaults => exact absurd trivial hop
  | batchLiquidateVaults => exact absurd trivial hop
  | provideToSP => exact absurd trivial hop
  | withdrawFromSP => exact absurd trivial hop
  | withdrawRBTCGainToVault => exact absurd trivial hop
  | registerFrontEnd => exact absurd trivial hop
  | openVault => exact payable_record (fun _ => BorrowerOperations.openVault_pool) h
  | addColl =>
    exact payable_record (fun _ => BorrowerOperations.adjustVaultInternal_pool fun _ => hne) h
  | adjustVault =>
    exact payable_record (fun _ => BorrowerOperations.adjustVaultInternal_pool fun _ => hne) h
  | withdrawColl =>
    exact record_of_pool
      (BorrowerOperations.adjustVaultInternal_pool (fun _ => hne) (nonPayable_ok h))
  | withdrawBPD =>
    exact record_of_pool
      (BorrowerOperations.adjustVaultInternal_pool (fun _ => hne) (nonPayable_ok h))
  | repayBPD =>
    exact record_of_pool
      (BorrowerOperations.adjustVaultInternal_pool (fun _ => hne) (nonPayable_ok h))
  | closeVault =>
    exact record_of_pool (BorrowerOperations.closeVault_pool hne (nonPayable_ok h))
  | claimCollateral =>
    exact record_of_pool
      (pool_of_aside (BorrowerOperations.claimCollateral_aside (nonPayable_ok h)))
  | redeemCollateral => exact record_of_pool (redeemCollateral_pool hne (nonPayable_ok h))
  | transfer => exact record_of_pool (BPDToken.transfer_pool (nonPayable_ok h))
  | approve => exact record_of_pool (BPDToken._approve_pool (nonPayable_ok h))
  | transferFrom => exact BPDToken.transferFrom_record (nonPayable_ok h)
  | increaseAllowance =>
    have h := nonPayable_ok h
    simp only [BPDToken.increaseAllowance, bind_ok] at h
    obtain ⟨_, -, h⟩ := h
    exact record_of_pool (BPDToken._approve_pool h)
  | decreaseAllowance =>
    have h := nonPayable_ok h
    simp only [BPDToken.decreaseAllowance, bind_ok] at h
    obtain ⟨_, -, h⟩ := h
    exact record_of_pool (BPDToken._approve_pool h)
  | permit => exact BPDToken.permit_record (nonPayable_ok h)
  | stake => exact MPStaking.stake_record (nonPayable_ok h)
  | unstake => exact MPStaking.unstake_record (nonPayable_ok h)
  | fetchPrice =>
    simp only [transact] at h
    obtain ⟨⟨_, _⟩, hprice, rfl⟩ := map_ok.mp (nonPayable_ok h)
    exact record_of_pool (pool_of_aside (PriceFeed.fetchPrice_aside hprice))
  | sendRBTC =>
    exact record_of_pool (pool_of_aside
      (callWithValue_aside (.inr (hsender.ne d.activePool_mem)) h))

namespace StabilityPool

/-- The transaction keeps to the policy of a history. -/
def KeptBy (P : Policy) (d : Deployment) (t : Transaction) (h : History) : Prop :=
  match t.operation with
  | .provideToSP amount frontEndTag => (Call.provideToSP t.sender amount frontEndTag).Keeps P h
  | .withdrawFromSP amount => (Call.withdrawFromSP t.sender amount).Keeps P h
  | .withdrawRBTCGainToVault upperHint lowerHint =>
    (Call.withdrawRBTCGainToVault t.sender upperHint lowerHint).Keeps P h
  | _ => ∀ l, t.liquidationLoop d h.state = .ok l →
    P.offset l.totals.totalDebtToOffset h.carry h.state.stabilityPool

/-- The carry after the transaction, which a liquidation changes by its offset. -/
def carryOf (d : Deployment) (t : Transaction) (h : History) : ℚ :=
  match t.liquidationLoop d h.state with
  | .ok l => carryAfter l.totals.totalDebtToOffset h.carry h.state.stabilityPool
  | .error _ => h.carry

variable {P : Policy} {h : History}

/-- In a state that balances the pool holds exactly its deposits. -/
theorem held_eq (hs : Balanced d s) :
    s.bpdToken.balances d.stabilityPool = s.stabilityPool.totalBPDDeposits := by
  have heven := hs.deposit
  simp only [State.ledger] at heven
  omega

/-- A transaction between balanced states that leaves the pool alone. -/
theorem elsewhere_event (hs : Balanced d h.state) (hs' : Balanced d s')
    (hrecord : s'.record = h.state.record) : Event P d h ⟨s', h.carry, h.sent⟩ := by
  simp only [State.record, Prod.mk.injEq] at hrecord
  refine .elsewhere hrecord.1 hrecord.2 ?_
  rw [held_eq hs, held_eq hs', hrecord.1]

/-- A call of a depositor, which no liquidation is part of. -/
theorem call_event (block : Block) (c : Call) (hsigned : c.Signed d) (hkeeps : c.Keeps P h)
    (hcarry : c.carry h = h.carry) (hs' : c.perform d block h.state = .ok s') :
    ∃ sent, Relation.ReflTransGen (Event P d) h ⟨s', h.carry, sent⟩ := by
  have hevent := Event.call c block hsigned hkeeps hs'
  rw [hcarry] at hevent
  exact ⟨_, .single hevent⟩

theorem sendGasCompensation_bpd {liquidator : Address} {BPD RBTC : ℕ}
    (hne : liquidator ≠ d.stabilityPool)
    (h : sendGasCompensation d liquidator BPD RBTC s = .ok s') :
    s.bpdToken.balances d.stabilityPool ≤ s'.bpdToken.balances d.stabilityPool := by
  simp only [sendGasCompensation, BPDToken.returnFromPool, bind_ok, ite_pure_ok] at h
  obtain ⟨t, hBPD, hRBTC⟩ := h
  have ht : s.bpdToken.balances d.stabilityPool ≤ t.bpdToken.balances d.stabilityPool := by
    rcases hBPD with ⟨-, hBPD⟩ | ⟨-, rfl⟩
    · obtain ⟨-, -, -, rfl⟩ := BPDToken._transfer_ok hBPD
      exact PointSum.le_move d.gasPool_ne_stabilityPool.symm
    · exact le_rfl
  rcases hRBTC with ⟨-, hRBTC⟩ | ⟨-, rfl⟩
  · rw [bpdToken_of_aside (ActivePool.sendRBTC_aside hne hRBTC)]
    exact ht
  · exact ht

theorem aside_event (h₁ : s'.aside = h.state.aside) : Event P d h ⟨s', h.carry, h.sent⟩ := by
  have hrecord := record_of_pool (pool_of_aside h₁)
  simp only [State.record, Prod.mk.injEq] at hrecord
  refine .elsewhere hrecord.1 hrecord.2 ?_
  rw [bpdToken_of_aside h₁]

/-- The settlement of a liquidation offsets, redistributes and pays the gas compensation. -/
theorem settleLiquidation_offset {totals : LiquidationTotals}
    (h : settleLiquidation d block a totals s = .ok s') : ∃ s₁ s₂,
      offset d block totals.totalDebtToOffset totals.totalCollToSendToSP s = .ok s₁ ∧
        s₂.aside = s₁.aside ∧ sendGasCompensation d a totals.totalBPDGasCompensation
          totals.totalCollGasCompensation s₂ = .ok s' := by
  simp only [settleLiquidation, bind_ok, ite_pure_ok] at h
  obtain ⟨_, -, s₁, hoffset, s₂, hredistribute, s₃, hsurplus, s₄, hsnapshots, _, -, _, -, hgas⟩ := h
  refine ⟨s₁, s₄, hoffset, ?_, hgas⟩
  have h₃ : s₃.aside = s₂.aside := by
    rcases hsurplus with ⟨-, hsurplus⟩ | ⟨-, rfl⟩
    · exact ActivePool.sendRBTC_aside d.stabilityPool_ne_collSurplusPool.symm hsurplus
    · rfl
  obtain ⟨_, _, rfl⟩ := updateSystemSnapshots_excludeCollRemainder_ok hsnapshots
  exact h₃.trans (redistributeDebtAndColl_aside hredistribute)

/-- A liquidation touches the pool in one offset. -/
theorem liquidation_events {l : LiquidationLoop} (hne : a ≠ d.stabilityPool)
    (hloop : l.state.aside = h.state.aside)
    (hkeeps : P.offset l.totals.totalDebtToOffset h.carry h.state.stabilityPool)
    (hsettle : settleLiquidation d block a l.totals l.state = .ok s') :
    ∃ sent, Relation.ReflTransGen (Event P d) h
      ⟨s', carryAfter l.totals.totalDebtToOffset h.carry h.state.stabilityPool, sent⟩ := by
  obtain ⟨s₁, s₂, hoffset, hafter, hgas⟩ := settleLiquidation_offset hsettle
  have hstorage : l.state.stabilityPool = h.state.stabilityPool :=
    congrArg Prod.fst (pool_of_aside hloop)
  have hbefore : Event P d h ⟨l.state, h.carry, h.sent⟩ := aside_event hloop
  have hcall := Event.call (P := P) (d := d) (h := ⟨l.state, h.carry, h.sent⟩)
    (.offset l.totals.totalDebtToOffset l.totals.totalCollToSendToSP) block trivial
    (by rw [← hstorage] at hkeeps; exact hkeeps) hoffset
  simp only [Call.carry, hstorage] at hcall
  have hrecord := record_of_pool (sendGasCompensation_pool hne hgas)
  simp only [State.record, Prod.mk.injEq] at hrecord
  refine ⟨_, (Relation.ReflTransGen.single hbefore).tail hcall |>.tail (aside_event hafter)
    |>.tail (.elsewhere hrecord.1 hrecord.2 (sendGasCompensation_bpd hne hgas))⟩

theorem batch_aside {users : List Address} {l : LiquidationLoop}
    (hl : batchLiquidateVaultsLoop d block users s = .ok l) : l.state.aside = s.aside := by
  obtain ⟨price, l₀, s₀, _, hprice, -, hstate, -, hloop⟩ := batchLiquidateVaultsLoop_ok hl
  rw [loop_aside hloop, hstate, PriceFeed.fetchPrice_aside hprice]

theorem sequence_aside {n : ℕ} {l : LiquidationLoop}
    (hl : liquidateVaultsLoop d block n s = .ok l) : l.state.aside = s.aside := by
  obtain ⟨price, l₀, s₀, _, hprice, -, hstate, -, hloop⟩ := liquidateVaultsLoop_ok hl
  rw [loop_aside hloop, hstate, PriceFeed.fetchPrice_aside hprice]

/-- A transaction is a piece of the pool's history. -/
theorem transact_events (hs : Balanced d h.state) (hsigned : t.Signed d) (hkeeps : KeptBy P d t h)
    (ht : transact d t h.state = .ok s') :
    ∃ sent, Relation.ReflTransGen (Event P d) h ⟨s', carryOf d t h, sent⟩ := by
  have hs' : Balanced d s' := hs.step ⟨t, hsigned, ht⟩
  have hne := hsigned.1.ne d.stabilityPool_mem
  have hsender := hsigned.1
  have hnone (hrecord : s'.record = h.state.record) :
      ∃ sent, Relation.ReflTransGen (Event P d) h ⟨s', h.carry, sent⟩ :=
    ⟨_, .single (elsewhere_event hs hs' hrecord)⟩
  obtain ⟨block, sender, value, operation⟩ := t
  cases operation with
  | liquidate borrower =>
    have ht := nonPayable_ok ht
    simp only [liquidate, bind_ok] at ht
    obtain ⟨_, -, ht⟩ := ht
    obtain ⟨l, hl, hsettle⟩ := batchLiquidateVaults_loop ht
    obtain ⟨sent, hevents⟩ := liquidation_events hne (batch_aside hl) (hkeeps l hl) hsettle
    refine ⟨sent, ?_⟩
    simpa only [carryOf, Transaction.liquidationLoop, hl] using hevents
  | liquidateVaults n =>
    obtain ⟨l, hl, hsettle⟩ := liquidateVaults_loop (nonPayable_ok ht)
    obtain ⟨sent, hevents⟩ := liquidation_events hne (sequence_aside hl) (hkeeps l hl) hsettle
    refine ⟨sent, ?_⟩
    simpa only [carryOf, Transaction.liquidationLoop, hl] using hevents
  | batchLiquidateVaults users =>
    obtain ⟨l, hl, hsettle⟩ := batchLiquidateVaults_loop (nonPayable_ok ht)
    obtain ⟨sent, hevents⟩ := liquidation_events hne (batch_aside hl) (hkeeps l hl) hsettle
    refine ⟨sent, ?_⟩
    simpa only [carryOf, Transaction.liquidationLoop, hl] using hevents
  | provideToSP amount tag =>
    exact call_event block (.provideToSP sender amount tag) hsender hkeeps rfl (nonPayable_ok ht)
  | withdrawFromSP amount =>
    exact call_event block (.withdrawFromSP sender amount) hsender hkeeps rfl (nonPayable_ok ht)
  | withdrawRBTCGainToVault upperHint lowerHint =>
    exact call_event block (.withdrawRBTCGainToVault sender upperHint lowerHint) hsender hkeeps
      rfl (nonPayable_ok ht)
  | registerFrontEnd kickbackRate =>
    exact call_event block (.registerFrontEnd sender kickbackRate) hsender trivial rfl
      (nonPayable_ok ht)
  | _ => exact hnone (transact_record hsender ht not_false)

theorem keptBy_any : KeptBy .any d t h := by
  unfold KeptBy
  split
  · trivial
  · trivial
  · trivial
  · exact fun _ _ => trivial

/-- Whatever a run of the system reaches has a history. -/
theorem Recorded.of_reachable (hreach : Reachable d s) :
    ∃ carry sent, Recorded .any d ⟨s, carry, sent⟩ := by
  obtain ⟨g, hrun⟩ := hreach
  suffices Balanced d s ∧ ∃ carry sent, Relation.ReflTransGen (Event .any d) (History.start g)
      ⟨s, carry, sent⟩ by
    obtain ⟨-, carry, sent, hevents⟩ := this
    exact ⟨carry, sent, g, hevents⟩
  induction hrun with
  | refl => exact ⟨g.balanced, 0, 0, .refl⟩
  | @tail s₁ s₂ _ hstep ih =>
    obtain ⟨hs, carry, sent, hevents⟩ := ih
    refine ⟨hs.step hstep, ?_⟩
    obtain ⟨t, hsigned, ht⟩ := hstep
    obtain ⟨sent', hmore⟩ := transact_events (h := ⟨s₁, carry, sent⟩) hs hsigned keptBy_any ht
    exact ⟨_, sent', hevents.trans hmore⟩

/-- Run signed transactions that pass `keeps` one after the other, and follow the carry. -/
def play (d : Deployment) (keeps : Transaction → State → ℚ → Bool) :
    List Transaction → State → ℚ → Option (State × ℚ)
  | [], s, carry => some (s, carry)
  | t :: ts, s, carry =>
    if t.Signed d ∧ keeps t s carry = true then
      match transact d t s with
      | .ok s' => play d keeps ts s' (carryOf d t ⟨s, carry, 0⟩)
      | .error _ => none
    else none

theorem play_recorded {keeps : Transaction → State → ℚ → Bool} {ts : List Transaction}
    {carry carry' : ℚ} {sent : ℕ}
    (hkeeps : ∀ t h, Recorded P d h → keeps t h.state h.carry = true → KeptBy P d t h)
    (hs : Balanced d s)
    (hrecorded : Recorded P d ⟨s, carry, sent⟩)
    (hplay : play d keeps ts s carry = some (s', carry')) :
    ∃ sent', Recorded P d ⟨s', carry', sent'⟩ := by
  induction ts generalizing s carry sent with
  | nil =>
    simp only [play, Option.some.injEq, Prod.mk.injEq] at hplay
    obtain ⟨rfl, rfl⟩ := hplay
    exact ⟨sent, hrecorded⟩
  | cons t ts ih =>
    rw [play] at hplay
    split_ifs at hplay with hallowed
    obtain ⟨hsigned, hkept⟩ := hallowed
    split at hplay
    · next s₁ ht =>
      have hnext := hkeeps t ⟨s, carry, sent⟩ hrecorded hkept
      obtain ⟨g, hevents⟩ := hrecorded
      obtain ⟨sent₁, hmore⟩ := transact_events (h := ⟨s, carry, sent⟩) hs hsigned hnext ht
      exact ih (hs.step ⟨t, hsigned, ht⟩) ⟨g, hevents.trans hmore⟩ hplay
    · contradiction

/-- The play succeeds, and where it leads passes the check. -/
def plays (d : Deployment) (g : Genesis) (ts : List Transaction)
    (keeps : Transaction → State → ℚ → Bool) (check : State → ℚ → Bool) : Bool :=
  match play d keeps ts g.state 0 with
  | some (s, carry) => check s carry
  | none => false

theorem plays_recorded (d : Deployment) (g : Genesis) (ts : List Transaction)
    (keeps : Transaction → State → ℚ → Bool)
    (hkeeps : ∀ t h, Recorded P d h → keeps t h.state h.carry = true → KeptBy P d t h)
    (check : State → ℚ → Bool) (h : plays d g ts keeps check = true) :
    ∃ s carry sent, Recorded P d ⟨s, carry, sent⟩ ∧ check s carry = true := by
  unfold plays at h
  split at h
  · next s carry hplay =>
    obtain ⟨sent, hrecorded⟩ := play_recorded hkeeps g.balanced ⟨g, .refl⟩ hplay
    exact ⟨s, carry, sent, hrecorded, h⟩
  · contradiction

end StabilityPool

end MoneyProtocol
