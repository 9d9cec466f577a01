import MoneyProtocol.Pool.Worth
import MoneyProtocol.Safety.CompoundedStakes
import MoneyProtocol.Safety.Product
import Mathlib.Tactic.FieldSimp

/-!
# Solvent histories of the Stability Pool

The deposits are worth no more than the pool holds as long as every loss takes back no more of
the error before it than the roundings have left. A history is solvent if all its offsets do.
-/

namespace MoneyProtocol.StabilityPool

open Outcome MoneypBase Shares

variable {d : Deployment} {P : Policy} {s s' : State} {h h' : History} {p : StabilityPool}
  {a b tag : Address} {debt coll v w : ℕ} {carry : ℚ}

/-- What the deposit of `a` is worth, exactly. -/
def depositWorth (p : StabilityPool) (a : Address) : ℚ :=
  worth (p.deposits a).initialValue (productThen (p.depositSnapshots a)) (productNow p)

/-- What the stake of the front end `a` is worth, exactly. -/
def stakeWorth (p : StabilityPool) (a : Address) : ℚ :=
  worth (p.frontEndStakes a) (productThen (p.frontEndSnapshots a)) (productNow p)

theorem Aged.deposit (hp : Aged p) (hvalue : (p.deposits a).initialValue ≠ 0) :
    Decays (productThen (p.depositSnapshots a)) (productNow p) :=
  hp _ _ ⟨hvalue, .inl ⟨a, rfl, rfl⟩⟩

theorem Aged.stake (hp : Aged p) (hvalue : p.frontEndStakes a ≠ 0) :
    Decays (productThen (p.frontEndSnapshots a)) (productNow p) :=
  hp _ _ ⟨hvalue, .inr ⟨a, rfl, rfl⟩⟩

theorem compoundedDeposit_le_worth {c : ℕ} (hc : getCompoundedBPDDeposit a s = .ok c) :
    (c : ℚ) ≤ depositWorth s.stabilityPool a := by
  unfold depositWorth
  simp only [getCompoundedBPDDeposit] at hc
  split_ifs at hc with hzero
  · rw [← pure_ok.mp hc, Nat.cast_zero]
    exact worth_nonneg
  · rw [← getCompoundedStakeFromSnapshots_ok hc]
    exact compoundedStake_le_worth

theorem compoundedFrontEndStake_le_worth {c : ℕ} (hc : getCompoundedFrontEndStake a s = .ok c) :
    (c : ℚ) ≤ stakeWorth s.stabilityPool a := by
  unfold stakeWorth
  simp only [getCompoundedFrontEndStake] at hc
  split_ifs at hc with hzero
  · rw [← pure_ok.mp hc, Nat.cast_zero]
    exact worth_nonneg
  · rw [← getCompoundedStakeFromSnapshots_ok hc]
    exact compoundedStake_le_worth

theorem depositWorth_restaked_self :
    depositWorth (restaked a tag v w p) a ≤ v := by
  have hnow : productNow (restaked a tag v w p) = productNow p := rfl
  unfold depositWorth
  rw [hnow]
  unfold restaked
  simp only [Function.update_self]
  by_cases hzero : v = 0
  · simp only [if_pos hzero, worth_zero]
    exact Nat.cast_nonneg _
  · simp only [if_neg hzero]
    exact worth_self_le

theorem depositWorth_restaked_of_ne (hb : b ≠ a) :
    depositWorth (restaked a tag v w p) b = depositWorth p b := by
  unfold depositWorth restaked
  simp only [Function.update_of_ne hb]
  rfl

theorem stakeWorth_restaked_self :
    stakeWorth (restaked a tag v w p) tag ≤ w := by
  have hnow : productNow (restaked a tag v w p) = productNow p := rfl
  unfold stakeWorth
  rw [hnow]
  unfold restaked
  simp only [Function.update_self]
  by_cases hzero : w = 0
  · rw [hzero, worth_zero, Nat.cast_zero]
  · simp only [if_neg hzero]
    exact worth_self_le

theorem stakeWorth_restaked_of_ne (hb : b ≠ tag) :
    stakeWorth (restaked a tag v w p) b = stakeWorth p b := by
  unfold stakeWorth restaked
  simp only [Function.update_of_ne hb]
  rfl

/-- What a depositor call adds to the deposits, or takes from them. -/
def Settlement.change (e : Settlement d a tag s s') : ℚ := e.deposited - e.withdrawn

namespace Settlement

theorem total_change (e : Settlement d a tag s s') :
    (s'.stabilityPool.totalBPDDeposits : ℚ) = s.stabilityPool.totalBPDDeposits + e.change := by
  have hledger : s'.stabilityPool.totalBPDDeposits = e.newTotal := by rw [e.pool]
  have htotal : ((e.newTotal + e.withdrawn : ℕ) : ℚ) =
      (s.stabilityPool.totalBPDDeposits + e.deposited : ℕ) := congrArg _ e.total_eq
  push_cast at htotal
  unfold change
  rw [hledger]
  linarith

theorem depositWorth_eq (e : Settlement d a tag s s') : depositWorth s'.stabilityPool =
    depositWorth (restaked a tag e.newDeposit e.newStake s.stabilityPool) := by
  rw [e.pool]
  rfl

theorem stakeWorth_eq (e : Settlement d a tag s s') : stakeWorth s'.stabilityPool =
    stakeWorth (restaked a tag e.newDeposit e.newStake s.stabilityPool) := by
  rw [e.pool]
  rfl

theorem depositWorth_of_ne (e : Settlement d a tag s s') (hb : b ≠ a) :
    depositWorth s'.stabilityPool b = depositWorth s.stabilityPool b := by
  rw [e.depositWorth_eq]
  exact depositWorth_restaked_of_ne hb

theorem stakeWorth_of_ne (e : Settlement d a tag s s') (hb : b ≠ tag) :
    stakeWorth s'.stabilityPool b = stakeWorth s.stabilityPool b := by
  rw [e.stakeWorth_eq]
  exact stakeWorth_restaked_of_ne hb

/-- The deposit is rounded down before it changes. -/
theorem depositWorth_le (e : Settlement d a tag s s') :
    depositWorth s'.stabilityPool a ≤ depositWorth s.stabilityPool a + e.change := by
  have hnew : depositWorth s'.stabilityPool a ≤ e.newDeposit := by
    rw [e.depositWorth_eq]
    exact depositWorth_restaked_self
  have hdeposit : ((e.newDeposit + e.withdrawn : ℕ) : ℚ) = (e.compounded + e.deposited : ℕ) :=
    congrArg _ e.deposit_eq
  have hcompounded := compoundedDeposit_le_worth e.compounds
  push_cast at hdeposit
  unfold change
  linarith

theorem stakeWorth_le (e : Settlement d a tag s s') :
    stakeWorth s'.stabilityPool tag ≤ stakeWorth s.stabilityPool tag + e.change := by
  have hnew : stakeWorth s'.stabilityPool tag ≤ e.newStake := by
    rw [e.stakeWorth_eq]
    exact stakeWorth_restaked_self
  have hstake : ((e.newStake + e.withdrawn : ℕ) : ℚ) = (e.stake + e.deposited : ℕ) :=
    congrArg _ e.stake_eq
  have hcompounded := compoundedFrontEndStake_le_worth e.stakes
  push_cast at hstake
  unfold change
  linarith

end Settlement

/-- What a loss leaves of every unit staked. -/
def remains (p : StabilityPool) (debt : ℕ) : ℚ := 1 - lossPerUnit p debt / DECIMAL_PRECISION

theorem OffsetEffect.remains_nonneg (e : OffsetEffect d debt coll s s') :
    0 ≤ remains s.stabilityPool debt := by
  have hloss : (lossPerUnit s.stabilityPool debt : ℚ) ≤ DECIMAL_PRECISION := by
    exact_mod_cast e.loss_le
  unfold remains
  rw [sub_nonneg]
  exact div_le_one_of_le₀ hloss (Nat.cast_nonneg _)

theorem OffsetEffect.shrinks (e : OffsetEffect d debt coll s s') :
    Shrinks (remains s.stabilityPool debt) (productNow s.stabilityPool)
      (productNow s'.stabilityPool) := by
  have hunit : (DECIMAL_PRECISION : ℚ) ≠ 0 := by
    exact_mod_cast DECIMAL_PRECISION_pos.ne'
  have hremains : remains s.stabilityPool debt =
      (DECIMAL_PRECISION - lossPerUnit s.stabilityPool debt : ℕ) / DECIMAL_PRECISION := by
    rw [Nat.cast_sub e.loss_le, sub_div, div_self hunit]
    rfl
  have hnow : productNow s'.stabilityPool = e.product := by
    rw [e.pool]
    rfl
  rw [hremains, hnow]
  exact updateProduct_shrinks e.products

theorem depositWorth_offset (hp : Aged s.stabilityPool) (e : OffsetEffect d debt coll s s') :
    depositWorth s'.stabilityPool a ≤
      remains s.stabilityPool debt * depositWorth s.stabilityPool a := by
  have hsame : depositWorth s'.stabilityPool a = worth (s.stabilityPool.deposits a).initialValue
      (productThen (s.stabilityPool.depositSnapshots a)) (productNow s'.stabilityPool) := by
    unfold depositWorth
    rw [e.pool]
  rw [hsame]
  exact worth_shrinks e.remains_nonneg hp.deposit e.shrinks

theorem stakeWorth_offset (hp : Aged s.stabilityPool) (e : OffsetEffect d debt coll s s') :
    stakeWorth s'.stabilityPool a ≤
      remains s.stabilityPool debt * stakeWorth s.stabilityPool a := by
  have hsame : stakeWorth s'.stabilityPool a = worth (s.stabilityPool.frontEndStakes a)
      (productThen (s.stabilityPool.frontEndSnapshots a)) (productNow s'.stabilityPool) := by
    unfold stakeWorth
    rw [e.pool]
  rw [hsame]
  exact worth_shrinks e.remains_nonneg hp.stake e.shrinks

/-- What a loss takes from the deposits beyond the debt is its error less the one it takes back. -/
theorem OffsetEffect.total_eq (e : OffsetEffect d debt coll s s')
    (htotal : s.stabilityPool.totalBPDDeposits ≠ 0) (hdebt : debt ≠ 0) :
    carryAfter debt carry s.stabilityPool / DECIMAL_PRECISION =
      remains s.stabilityPool debt * (carry / DECIMAL_PRECISION) +
        (s'.stabilityPool.totalBPDDeposits -
          remains s.stabilityPool debt * s.stabilityPool.totalBPDDeposits) := by
  have hunit : (DECIMAL_PRECISION : ℚ) ≠ 0 := by
    exact_mod_cast DECIMAL_PRECISION_pos.ne'
  have hnone : ¬(s.stabilityPool.totalBPDDeposits = 0 ∨ debt = 0) := not_or.mpr ⟨htotal, hdebt⟩
  have htotal' : (s'.stabilityPool.totalBPDDeposits : ℚ) =
      s.stabilityPool.totalBPDDeposits - debt := by
    rw [e.pool]
    exact Nat.cast_sub e.debt_le
  rw [htotal', carryAfter, if_neg hnone]
  split_ifs with hall
  · -- an offset of all deposits leaves nothing
    have hremains : remains s.stabilityPool debt = 0 := by
      rw [remains, lossPerUnit, if_pos hall, div_self hunit, sub_self]
    rw [hremains, hall]
    ring
  · have herror : (lossError s.stabilityPool debt : ℚ) =
        lossPerUnit s.stabilityPool debt * s.stabilityPool.totalBPDDeposits -
          (debt * DECIMAL_PRECISION - s.stabilityPool.lastBPDLossError_Offset) := by
      have hcharged : debt * DECIMAL_PRECISION - s.stabilityPool.lastBPDLossError_Offset ≤
          lossPerUnit s.stabilityPool debt * s.stabilityPool.totalBPDDeposits := by
        rw [lossPerUnit, if_neg hall, Nat.mul_comm _ s.stabilityPool.totalBPDDeposits]
        exact (Nat.lt_mul_div_succ _ (Nat.pos_of_ne_zero htotal)).le
      rw [lossError, if_neg hall, Nat.cast_sub hcharged, Nat.cast_sub (e.error_le hall)]
      push_cast
      rfl
    unfold remains
    rw [herror]
    field_simp
    ring

/-- Shares that shrink with the product stay covered. -/
theorem covered_offset {K : Type} [Fintype K] {share share' : K → ℚ}
    (e : OffsetEffect d debt coll s s') (htotal : s.stabilityPool.totalBPDDeposits ≠ 0)
    (hdebt : debt ≠ 0)
    (hcovered : Covered share (carry / DECIMAL_PRECISION) s.stabilityPool.totalBPDDeposits)
    (hshare : ∀ k, share' k ≤ remains s.stabilityPool debt * share k) :
    Covered share' (carryAfter debt carry s.stabilityPool / DECIMAL_PRECISION)
      s'.stabilityPool.totalBPDDeposits := by
  rw [e.total_eq htotal hdebt]
  exact hcovered.shrink e.remains_nonneg hshare

/-- The policy of histories whose losses take back no more than the roundings have left. -/
def Policy.solvent : Policy :=
  ⟨fun debt carry p => 0 ≤ carryAfter debt carry p, fun _ _ _ => True, id, id⟩

/-- The deposits are worth no more than the pool holds, and the roundings have not taken more
than they gave. -/
structure Solvent (h : History) : Prop where
  aged : Aged h.state.stabilityPool
  carry : 0 ≤ h.carry
  covered : Covered (depositWorth h.state.stabilityPool) (h.carry / DECIMAL_PRECISION)
    h.state.stabilityPool.totalBPDDeposits

theorem Solvent.start (g : Genesis) : Solvent (History.start g) := by
  refine ⟨?_, le_rfl, .none ?_ ?_⟩
  · exact Recorded.aged (P := .any) (d := testnet) ⟨g, .refl⟩
  · intro a
    exact worth_zero
  · exact (zero_div _).le

theorem Solvent.move (hs : Solvent h) (hmove : Move .solvent d h h') : Solvent h' := by
  refine ⟨hs.aged.move hmove, ?_, ?_⟩
  · cases hmove with
    | offset hkeeps => exact hkeeps
    | _ => exact hs.carry
  · cases hmove with
    | issuance i =>
      rw [i.pool]
      exact hs.covered
    | registration _ _ hpool =>
      rw [hpool]
      exact hs.covered
    | elsewhere hpool =>
      rw [hpool]
      exact hs.covered
    | offset _ htotal hdebt e =>
      apply covered_offset e htotal hdebt hs.covered
      intro a
      exact depositWorth_offset hs.aged e
    | @settlement s' a tag _ e =>
      have hcovered := hs.covered.change (fun b hb => e.depositWorth_of_ne hb) e.depositWorth_le
      rw [← e.total_change] at hcovered
      exact hcovered

theorem Recorded.solvent (hrecorded : Recorded .solvent d h) : Solvent h :=
  hrecorded.invariant Solvent.start Solvent.move

/-- A reward that is shared out among units, with the error that is carried on, stays covered. -/
theorem covered_reward {K : Type} [Fintype K] {share reward reward' : K → ℚ} {funds spare : ℚ}
    {perUnit total amount error error' : ℕ} (hshares : Covered share spare total)
    (hspare : 0 ≤ spare) (hcovered : Covered reward (error / DECIMAL_PRECISION) funds)
    (hsplit : perUnit * total + error' ≤ amount * DECIMAL_PRECISION + error)
    (hreward : ∀ k, reward' k ≤ reward k + perUnit / DECIMAL_PRECISION * share k) :
    Covered reward' (error' / DECIMAL_PRECISION) (funds + amount) := by
  have hunit : (0 : ℚ) < DECIMAL_PRECISION := by
    exact_mod_cast DECIMAL_PRECISION_pos
  have hsplit : (perUnit * total + error' : ℚ) ≤ amount * DECIMAL_PRECISION + error := by
    exact_mod_cast hsplit
  have hshared : (perUnit : ℚ) / DECIMAL_PRECISION * total + error' / DECIMAL_PRECISION ≤
      amount + error / DECIMAL_PRECISION := by
    calc (perUnit : ℚ) / DECIMAL_PRECISION * total + error' / DECIMAL_PRECISION
        = (perUnit * total + error') / DECIMAL_PRECISION := by ring
      _ ≤ (amount * DECIMAL_PRECISION + error) / DECIMAL_PRECISION :=
          div_le_div_of_nonneg_right hsplit hunit.le
      _ = amount + error / DECIMAL_PRECISION := by
          rw [add_div, mul_div_cancel_right₀ _ hunit.ne']
  have hdistributed := hcovered.distribute hshares hspare (by positivity) hreward
  unfold Covered at hdistributed ⊢
  linarith

/-- The pool holds the BPD of its deposits. -/
def Funded (d : Deployment) (s : State) : Prop :=
  s.stabilityPool.totalBPDDeposits ≤ s.bpdToken.balances d.stabilityPool

theorem Funded.of_ledger (hs : Funded d s) (hledger : s'.ledger d = s.ledger d) :
    Funded d s' := by
  have hdeposit := congrFun hledger .deposit
  simp only [State.ledger] at hdeposit
  unfold Funded at hs ⊢
  omega

theorem Funded.perform {block : Block} {c : Call} (hs : Funded d s) (hsigned : c.Signed d)
    (hc : c.perform d block s = .ok s') : Funded d s' := by
  cases c with
  | provideToSP => exact hs.of_ledger (provideToSP_ledger hsigned hc)
  | withdrawFromSP => exact hs.of_ledger (withdrawFromSP_ledger hsigned hc)
  | withdrawRBTCGainToVault => exact hs.of_ledger (withdrawRBTCGainToVault_ledger hc)
  | registerFrontEnd =>
    simp only [Call.perform, registerFrontEnd, bind_ok, pure_ok] at hc
    obtain ⟨_, -, _, -, _, -, rfl⟩ := hc
    exact hs
  | offset =>
    rcases offset_effect hc with ⟨-, rfl⟩ | ⟨-, s₁, hissue, ⟨e⟩⟩
    · exact hs
    · obtain ⟨i⟩ := triggerMPIssuance_effect hissue
      have htotal : s₁.stabilityPool.totalBPDDeposits = s.stabilityPool.totalBPDDeposits := by
        rw [i.pool]
      have hbpd := e.bpd
      have hdebt := e.debt_le
      unfold Funded at hs ⊢
      rw [i.bpdToken] at hbpd
      rw [e.pool]
      dsimp only
      omega

theorem Recorded.funded (hrecorded : Recorded P d h) : Funded d h.state := by
  obtain ⟨g, hrun⟩ := hrecorded
  induction hrun with
  | refl => exact Nat.zero_le _
  | tail _ hevent ih =>
    cases hevent with
    | call c block hsigned _ hs' => exact ih.perform hsigned hs'
    | elsewhere hpool _ hbpd =>
      unfold Funded at ih ⊢
      rw [hpool]
      exact ih.trans hbpd

end MoneyProtocol.StabilityPool
