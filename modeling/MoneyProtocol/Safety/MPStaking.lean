import MoneyProtocol.Accounting.Calls
import MoneyProtocol.Book.Runs
import MoneyProtocol.Library.Accumulator

/-!
# MP staking stays solvent

Each fee raises an accumulator by its share for one unit staked, rounded down, so what all
stakers together are owed never exceeds what the contract received and has not paid out.
-/

namespace MoneyProtocol.MPStaking

open Outcome PointSum

variable {d : Deployment} {s s' : State} {block : Block} {user : Address} {amount fee : ℕ}

/-- Anything may happen elsewhere, but nobody takes tokens or RBTC from the contract. -/
structure Elsewhere (d : Deployment) (s s' : State) : Prop where
  mpStaking : s'.mpStaking = s.mpStaking
  mp : s.mpToken.balances d.mpStaking ≤ s'.mpToken.balances d.mpStaking
  bpd : s.bpdToken.balances d.mpStaking ≤ s'.bpdToken.balances d.mpStaking
  rbtc : s.rbtc d.mpStaking ≤ s'.rbtc d.mpStaking

/-- The calls of the contract. An RBTC fee of a redemption comes from the Active Pool before
the accumulator is raised, a borrowing fee is minted afterwards. -/
inductive StakingStep (d : Deployment) : State → State → Prop
  | stake {s s' : State} {block : Block} {user : Address} {amount : ℕ} (huser : d.External user)
      (h : stake d block user amount s = .ok s') : StakingStep d s s'
  | unstake {s s' : State} {block : Block} {user : Address} {amount : ℕ}
      (huser : d.External user) (h : unstake d block user amount s = .ok s') : StakingStep d s s'
  | increaseF_RBTC {s s₁ s' : State} {fee : ℕ}
      (hsend : ActivePool.sendRBTC d d.mpStaking fee s = .ok s₁)
      (h : increaseF_RBTC fee s₁ = .ok s') : StakingStep d s s'
  | increaseF_BPD {s s₁ s' : State} {fee : ℕ} (h : increaseF_BPD fee s = .ok s₁)
      (hmint : BPDToken.mint d.mpStaking fee s₁ = .ok s') : StakingStep d s s'
  | elsewhere {s s' : State} (h : Elsewhere d s s') : StakingStep d s s'

/-- The states that a run of the staking contract reaches from its deployment. -/
def StakingReachable (d : Deployment) (s : State) : Prop :=
  ∃ s₀ : State, s₀.mpStaking = ⟨fun _ => 0, 0, 0, 0, fun _ => ⟨0, 0⟩⟩ ∧
    Relation.ReflTransGen (StakingStep d) s₀ s

/-- The two kinds of fees. -/
inductive Fee where
  | RBTC | BPD

def accumulated (m : MPStaking) : Fee → ℕ
  | .RBTC => m.F_RBTC
  | .BPD => m.F_BPD

def snapshot (m : MPStaking) : Fee → Address → ℕ
  | .RBTC, a => (m.snapshots a).F_RBTC_Snapshot
  | .BPD, a => (m.snapshots a).F_BPD_Snapshot

def getPendingGain : Fee → Address → State → Outcome ℕ
  | .RBTC => getPendingRBTCGain
  | .BPD => getPendingBPDGain

/-- What the contract holds. -/
def balance (d : Deployment) (s : State) : Fee → ℕ
  | .RBTC => s.rbtc d.mpStaking
  | .BPD => s.bpdToken.balances d.mpStaking

/-- What all stakers are owed, in units of `1e-18` wei. -/
def owed (m : MPStaking) (f : Fee) : ℕ :=
  Accumulator.owed m.stakes (m.snapshot f) (m.accumulated f)

def owedTo (m : MPStaking) (f : Fee) : Address → ℕ :=
  Accumulator.owedTo m.stakes (m.snapshot f) (m.accumulated f)

/-- Stakes, accumulators and balances agree, while the gains `due` are being paid. -/
structure Backed (d : Deployment) (due : Fee → ℕ) (s : State) : Prop where
  staked : ∑ a, s.mpStaking.stakes a = s.mpStaking.totalMPStaked
  mp : s.mpStaking.totalMPStaked ≤ s.mpToken.balances d.mpStaking
  snapshot : ∀ f a, s.mpStaking.snapshot f a ≤ s.mpStaking.accumulated f
  covered : ∀ f, s.mpStaking.owed f + due f * DECIMAL_PRECISION ≤ balance d s f * DECIMAL_PRECISION

/-- Nothing is being paid. -/
def noGains : Fee → ℕ := fun _ => 0

variable {due : Fee → ℕ} {f : Fee}

theorem getPendingGain_ok {gain : ℕ} (h : getPendingGain f user s = .ok gain) :
    gain = s.mpStaking.owedTo f user / DECIMAL_PRECISION := by
  cases f with
  | RBTC =>
    simp only [getPendingGain, getPendingRBTCGain, bind_ok, SafeMath.sub_ok, SafeMath.mul_ok,
      SafeMath.div_ok] at h
    obtain ⟨_, ⟨-, rfl⟩, _, ⟨-, rfl⟩, -, rfl⟩ := h
    rfl
  | BPD =>
    simp only [getPendingGain, getPendingBPDGain, bind_ok, SafeMath.sub_ok, SafeMath.mul_ok,
      SafeMath.div_ok] at h
    obtain ⟨_, ⟨-, rfl⟩, _, ⟨-, rfl⟩, -, rfl⟩ := h
    rfl

/-- All gains together are covered. -/
theorem Backed.total_gains_le (hs : Backed d noGains s) (f : Fee) :
    ∑ a, Outcome.amount (getPendingGain f a s) ≤ balance d s f := by
  have hsum := Finset.sum_le_sum fun a (_ : a ∈ Finset.univ) =>
    Outcome.amount_le (x := getPendingGain f a s) fun v hv => (getPendingGain_ok hv).le
  have hcovered := hs.covered f
  rw [noGains, zero_mul, add_zero, mul_comm] at hcovered
  exact hsum.trans ((Accumulator.sum_div_le (by decide)).trans (Nat.div_le_of_le_mul hcovered))

theorem Backed.gain_le {gain : ℕ} (hs : Backed d noGains s)
    (h : getPendingGain f user s = .ok gain) : gain ≤ balance d s f := by
  have hle := Finset.single_le_sum (f := fun a => Outcome.amount (getPendingGain f a s))
    (fun _ _ => Nat.zero_le _) (Finset.mem_univ user)
  rw [h, Outcome.amount_ok] at hle
  exact hle.trans (hs.total_gains_le f)

theorem Backed.stake_le (hs : Backed d due s) (a : Address) :
    s.mpStaking.stakes a ≤ s.mpToken.balances d.mpStaking := by
  refine le_trans ?_ hs.mp
  rw [← hs.staked]
  exact Finset.single_le_sum (fun _ _ => Nat.zero_le _) (Finset.mem_univ a)

theorem Backed.elsewhere (hs : Backed d due s) (h : Elsewhere d s s') : Backed d due s' := by
  have hbalance (f : Fee) : balance d s f ≤ balance d s' f := by
    cases f with
    | RBTC => exact h.rbtc
    | BPD => exact h.bpd
  constructor
  · rw [h.mpStaking]
    exact hs.staked
  · rw [h.mpStaking]
    exact hs.mp.trans h.mp
  · rw [h.mpStaking]
    exact hs.snapshot
  · intro f
    rw [h.mpStaking]
    exact (hs.covered f).trans (Nat.mul_le_mul_right _ (hbalance f))

theorem feePerMPStaked_ok {total perUnit : ℕ} (h : feePerMPStaked fee total = .ok perUnit) :
    perUnit * total ≤ fee * DECIMAL_PRECISION := by
  unfold feePerMPStaked at h
  split_ifs at h with hstaked
  · simp only [bind_ok, SafeMath.mul_ok, SafeMath.div_ok] at h
    obtain ⟨_, ⟨-, rfl⟩, -, rfl⟩ := h
    exact Nat.div_mul_le_self _ _
  · obtain rfl := pure_ok.mp h
    rw [zero_mul]
    exact Nat.zero_le _

/-- The contract after one of its accumulators rose by `x`. -/
def raised (m : MPStaking) : Fee → ℕ → MPStaking
  | .RBTC, x => { m with F_RBTC := m.F_RBTC + x }
  | .BPD, x => { m with F_BPD := m.F_BPD + x }

@[simp] theorem raised_stakes {m : MPStaking} {x : ℕ} : (m.raised f x).stakes = m.stakes := by
  cases f <;> rfl

@[simp] theorem raised_totalMPStaked {m : MPStaking} {x : ℕ} :
    (m.raised f x).totalMPStaked = m.totalMPStaked := by
  cases f <;> rfl

@[simp] theorem raised_snapshot {m : MPStaking} {x : ℕ} {f' : Fee} :
    (m.raised f x).snapshot f' = m.snapshot f' := by
  cases f <;> cases f' <;> rfl

theorem raised_accumulated {m : MPStaking} {x : ℕ} :
    (m.raised f x).accumulated f = m.accumulated f + x := by
  cases f <;> rfl

theorem raised_accumulated_of_ne {m : MPStaking} {x : ℕ} {f' : Fee} (h : f' ≠ f) :
    (m.raised f x).accumulated f' = m.accumulated f' := by
  cases f <;> cases f'
  all_goals first | rfl | exact absurd rfl h

def increaseF : Fee → ℕ → State → Outcome State
  | .RBTC => increaseF_RBTC
  | .BPD => increaseF_BPD

theorem increaseF_ok (h : increaseF f fee s = .ok s') :
    ∃ x, x * s.mpStaking.totalMPStaked ≤ fee * DECIMAL_PRECISION ∧
      s' = { s with mpStaking := s.mpStaking.raised f x } := by
  cases f with
  | RBTC =>
    simp only [increaseF, increaseF_RBTC, bind_ok, pure_ok, SafeMath.add_ok] at h
    obtain ⟨x, hx, _, ⟨-, rfl⟩, rfl⟩ := h
    exact ⟨x, feePerMPStaked_ok hx, rfl⟩
  | BPD =>
    simp only [increaseF, increaseF_BPD, bind_ok, pure_ok, SafeMath.add_ok] at h
    obtain ⟨x, hx, _, ⟨-, rfl⟩, rfl⟩ := h
    exact ⟨x, feePerMPStaked_ok hx, rfl⟩

/-- A fee that reaches the contract backs its share of the accumulator. -/
theorem Backed.raised {x : ℕ} (hs : Backed d noGains s)
    (hmpStaking : s'.mpStaking = s.mpStaking.raised f x)
    (hx : x * s.mpStaking.totalMPStaked ≤ fee * DECIMAL_PRECISION)
    (hmp : s'.mpToken.balances d.mpStaking = s.mpToken.balances d.mpStaking)
    (hfee : balance d s' f = balance d s f + fee)
    (hother : ∀ f', f' ≠ f → balance d s' f' = balance d s f') : Backed d noGains s' := by
  constructor
  · rw [hmpStaking, raised_stakes, raised_totalMPStaked]
    exact hs.staked
  · rw [hmpStaking, hmp, raised_totalMPStaked]
    exact hs.mp
  · intro f' a
    have hle := hs.snapshot f' a
    rw [hmpStaking, raised_snapshot]
    by_cases hf : f' = f
    · rw [hf, raised_accumulated]
      rw [hf] at hle
      exact hle.trans (Nat.le_add_right _ _)
    · rw [raised_accumulated_of_ne hf]
      exact hle
  · intro f'
    have hcovered := hs.covered f'
    unfold owed at hcovered ⊢
    rw [hmpStaking, raised_stakes, raised_snapshot]
    by_cases hf : f' = f
    · subst hf
      rw [raised_accumulated, Accumulator.owed_raise (hs.snapshot f'), hs.staked, hfee,
        add_mul (balance d s f')]
      omega
    · rw [raised_accumulated_of_ne hf, hother f' hf]
      exact hcovered

theorem Backed.increaseF_RBTC {s₁ : State} (hs : Backed d noGains s)
    (hsend : ActivePool.sendRBTC d d.mpStaking fee s = .ok s₁)
    (h : increaseF_RBTC fee s₁ = .ok s') : Backed d noGains s' := by
  simp only [ActivePool.sendRBTC, bind_ok, SafeMath.sub_ok] at hsend
  obtain ⟨_, ⟨-, rfl⟩, hsend⟩ := hsend
  obtain ⟨hle, hreceive⟩ := callWithValue_ok.mp hsend
  obtain ⟨x, hx, rfl⟩ := increaseF_ok (f := .RBTC) h
  rcases receive_ok hreceive with ⟨hr, -⟩ | ⟨hr, -⟩ | ⟨hr, -⟩ | ⟨hr, -⟩ | ⟨-, -, -, -, rfl⟩
  · exact absurd hr d.mpStaking_ne_activePool
  · exact absurd hr d.mpStaking_ne_defaultPool
  · exact absurd hr d.mpStaking_ne_collSurplusPool
  · exact absurd hr d.mpStaking_ne_stabilityPool
  · refine hs.raised (f := .RBTC) ?_ hx ?_ ?_ ?_
    · rfl
    · rfl
    · exact move_target d.mpStaking_ne_activePool.symm
    · intro f' hf
      cases f' with
      | RBTC => exact absurd rfl hf
      | BPD => rfl

theorem Backed.increaseF_BPD {s₁ : State} (hs : Backed d noGains s)
    (h : increaseF_BPD fee s = .ok s₁) (hmint : BPDToken.mint d.mpStaking fee s₁ = .ok s') :
    Backed d noGains s' := by
  obtain ⟨x, hx, rfl⟩ := increaseF_ok (f := .BPD) h
  obtain ⟨-, -, rfl⟩ := BPDToken.mint_ok hmint
  refine hs.raised (f := .BPD) ?_ hx ?_ ?_ ?_
  · rfl
  · rfl
  · simp [balance]
  · intro f' hf
    cases f' with
    | RBTC => rfl
    | BPD => exact absurd rfl hf

theorem updateUserSnapshots_current : (updateUserSnapshots user s).mpStaking.snapshot f user =
    (updateUserSnapshots user s).mpStaking.accumulated f := by
  cases f <;> simp [updateUserSnapshots, snapshot, accumulated]

/-- With new snapshots the gains so far are due. -/
theorem Backed.updateUserSnapshots (hs : Backed d noGains s)
    (hdue : ∀ f, due f * DECIMAL_PRECISION ≤ s.mpStaking.owedTo f user) :
    Backed d due (updateUserSnapshots user s) := by
  have hsame (f : Fee) (a : Address) (ha : a ≠ user) :
      (MPStaking.updateUserSnapshots user s).mpStaking.snapshot f a =
        s.mpStaking.snapshot f a := by
    cases f <;> simp [MPStaking.updateUserSnapshots, MPStaking.snapshot, ha]
  have haccumulated (f : Fee) : (MPStaking.updateUserSnapshots user s).mpStaking.accumulated f =
      s.mpStaking.accumulated f := by
    cases f <;> rfl
  refine ⟨hs.staked, hs.mp, ?_, ?_⟩
  · intro f a
    by_cases ha : a = user
    · rw [ha, updateUserSnapshots_current]
    · rw [hsame f a ha, haccumulated]
      exact hs.snapshot f a
  · intro f
    have hcovered := hs.covered f
    have hdue := hdue f
    have howed := @Accumulator.owed_change _ _ _ s.mpStaking.stakes s.mpStaking.stakes
      (s.mpStaking.snapshot f) ((MPStaking.updateUserSnapshots user s).mpStaking.snapshot f)
      (s.mpStaking.accumulated f) user (fun _ _ => rfl) (hsame f)
    have hcurrent : s.mpStaking.accumulated f ≤
        (MPStaking.updateUserSnapshots user s).mpStaking.snapshot f user := by
      rw [updateUserSnapshots_current, haccumulated]
    rw [Accumulator.owedTo_current hcurrent, add_zero] at howed
    have hbalance : balance d (MPStaking.updateUserSnapshots user s) f = balance d s f := by
      cases f <;> rfl
    rw [hbalance]
    unfold owed owedTo noGains at *
    rw [haccumulated]
    change Accumulator.owed s.mpStaking.stakes _ _ + _ ≤ _
    omega

/-- A staker whose snapshots are current may change the stake, as MP moves along. -/
theorem Backed.setStake {stake total : ℕ} {t : MPToken} (hs : Backed d due s)
    (hcurrent : ∀ f, s.mpStaking.snapshot f user = s.mpStaking.accumulated f)
    (htotal : total + s.mpStaking.stakes user = s.mpStaking.totalMPStaked + stake)
    (hmp : total ≤ t.balances d.mpStaking) :
    Backed d due { setStake user stake total s with mpToken := t } := by
  refine ⟨?_, hmp, hs.snapshot, ?_⟩
  · have hsum := sum_update (fun _ => id) s.mpStaking.stakes user stake
    have hstaked := hs.staked
    simp only [id_eq] at hsum
    simp only [MPStaking.setStake]
    omega
  · intro f
    have hcovered := hs.covered f
    have howed := @Accumulator.owed_change _ _ _ s.mpStaking.stakes
      (Function.update s.mpStaking.stakes user stake) (s.mpStaking.snapshot f)
      (s.mpStaking.snapshot f) (s.mpStaking.accumulated f) user
      (fun u hu => Function.update_of_ne hu _ _) (fun _ _ => rfl)
    rw [Accumulator.owedTo_current (hcurrent f).ge, Accumulator.owedTo_current (hcurrent f).ge,
      add_zero, add_zero] at howed
    have hchanged :
        ({ MPStaking.setStake user stake total s with mpToken := t } : State).mpStaking.owed f =
        Accumulator.owed (Function.update s.mpStaking.stakes user stake)
          (s.mpStaking.snapshot f) (s.mpStaking.accumulated f) := by
      cases f <;> rfl
    rw [hchanged, howed]
    exact hcovered

theorem Backed.sendGains {BPDGain RBTCGain : ℕ} (huser : d.External user)
    (hs : Backed d due s) (hRBTC : due .RBTC = RBTCGain) (hBPD : due .BPD = BPDGain)
    (h : sendGains d user BPDGain RBTCGain s = .ok s') : Backed d noGains s' := by
  simp only [MPStaking.sendGains, BPDToken.transfer, bind_ok] at h
  obtain ⟨s₁, ⟨_, -, htransfer⟩, hcall⟩ := h
  obtain ⟨-, -, -, rfl⟩ := BPDToken._transfer_ok htransfer
  have hne : d.mpStaking ≠ user := by
    apply Ne.symm
    apply huser.ne
    simp [Wiring.contracts]
  have hrest := callWithValue_external huser hcall
  subst hrest hRBTC hBPD
  refine ⟨hs.staked, hs.mp, hs.snapshot, ?_⟩
  intro f
  have hcovered := hs.covered f
  have hbalance : ∀ b : ℕ, s.mpStaking.owed f + due f * DECIMAL_PRECISION ≤
      b * DECIMAL_PRECISION → s.mpStaking.owed f + 0 ≤ (b - due f) * DECIMAL_PRECISION := by
    intro b hb
    rw [Nat.sub_mul]
    omega
  rw [noGains, zero_mul]
  cases f with
  | RBTC =>
    simp only [balance, move_source hne]
    exact hbalance _ hcovered
  | BPD =>
    simp only [balance, move_source hne]
    exact hbalance _ hcovered

/-- The gains that a call has read. -/
def readGains (RBTCGain BPDGain : ℕ) : Fee → ℕ
  | .RBTC => RBTCGain
  | .BPD => BPDGain

theorem readGains_due {RBTCGain BPDGain : ℕ} (hRBTC : getPendingRBTCGain user s = .ok RBTCGain)
    (hBPD : getPendingBPDGain user s = .ok BPDGain) (f : Fee) :
    readGains RBTCGain BPDGain f * DECIMAL_PRECISION ≤ s.mpStaking.owedTo f user := by
  cases f with
  | RBTC =>
    rw [readGains, getPendingGain_ok (f := .RBTC) hRBTC]
    exact Nat.div_mul_le_self _ _
  | BPD =>
    rw [readGains, getPendingGain_ok (f := .BPD) hBPD]
    exact Nat.div_mul_le_self _ _

theorem Backed.stake (huser : d.External user) (hs : Backed d noGains s)
    (h : stake d block user amount s = .ok s') : Backed d noGains s' := by
  simp only [MPStaking.stake, bind_ok, ite_pure_ok, SafeMath.add_ok] at h
  obtain ⟨_, -, RBTCGain, hRBTC, BPDGain, hBPD, _, ⟨-, rfl⟩, _, ⟨-, rfl⟩, s₁, hsend, h⟩ := h
  obtain ⟨-, rfl⟩ := MPToken.sendToMPStaking_move hsend
  have hne : user ≠ d.mpStaking := huser.ne (by simp [Wiring.contracts])
  have hstep {due : Fee → ℕ}
      (hdue : ∀ f, due f * DECIMAL_PRECISION ≤ s.mpStaking.owedTo f user) :=
    @Backed.setStake _ _ _ _ (s.mpStaking.stakes user + amount)
      (s.mpStaking.totalMPStaked + amount) { s.mpToken with
        balances := move user d.mpStaking amount s.mpToken.balances } (hs.updateUserSnapshots hdue)
      (fun f => updateUserSnapshots_current)
      (by simp only [MPStaking.updateUserSnapshots]; omega)
      (by simp only [move_target hne]; exact Nat.add_le_add_right hs.mp _)
  rcases h with ⟨hstaked, h⟩ | ⟨hnew, rfl⟩
  · rcases hRBTC with ⟨-, hRBTC⟩ | ⟨hzero, -⟩
    · rcases hBPD with ⟨-, hBPD⟩ | ⟨hzero, -⟩
      · exact (hstep (readGains_due hRBTC hBPD)).sendGains huser rfl rfl h
      · exact absurd hstaked hzero
    · exact absurd hstaked hzero
  · exact hstep fun f => by
      rw [noGains, zero_mul]
      exact Nat.zero_le _

theorem Backed.unstake (huser : d.External user) (hs : Backed d noGains s)
    (h : unstake d block user amount s = .ok s') : Backed d noGains s' := by
  simp only [MPStaking.unstake, bind_ok, ite_pure_ok, SafeMath.sub_ok] at h
  obtain ⟨_, -, RBTCGain, hRBTC, BPDGain, hBPD, s₁, hunstake, h⟩ := h
  have hsettled := hs.updateUserSnapshots (readGains_due hRBTC hBPD)
  rcases hunstake with ⟨-, _, ⟨hle, rfl⟩, _, ⟨htotal, rfl⟩, hsend⟩ | ⟨-, rfl⟩
  · obtain ⟨hmp, rfl⟩ := MPToken.transfer_move hsend
    have hne : d.mpStaking ≠ user := by
      apply Ne.symm
      apply huser.ne
      simp [Wiring.contracts]
    have hbacked := hs.mp
    refine (hsettled.setStake (fun f => updateUserSnapshots_current) ?_ ?_).sendGains huser rfl
      rfl h
    · simp only [MPStaking.updateUserSnapshots] at htotal ⊢
      omega
    · simp only [MPStaking.setStake, MPStaking.updateUserSnapshots] at htotal ⊢
      rw [move_source hne]
      omega
  · exact hsettled.sendGains huser rfl rfl h

theorem Backed.step (hs : Backed d noGains s) (h : StakingStep d s s') : Backed d noGains s' := by
  cases h with
  | stake huser h => exact hs.stake huser h
  | unstake huser h => exact hs.unstake huser h
  | increaseF_RBTC hsend h => exact hs.increaseF_RBTC hsend h
  | increaseF_BPD h hmint => exact hs.increaseF_BPD h hmint
  | elsewhere h => exact hs.elsewhere h

theorem StakingReachable.backed (h : StakingReachable d s) : Backed d noGains s := by
  obtain ⟨s₀, hs₀, h⟩ := h
  induction h with
  | refl =>
    have hnone (f : Fee) (a : Address) : s₀.mpStaking.snapshot f a = 0 ∧
        s₀.mpStaking.accumulated f = 0 := by
      rw [hs₀]
      cases f <;> exact ⟨rfl, rfl⟩
    refine ⟨?_, ?_, ?_, ?_⟩
    · rw [hs₀]
      exact Finset.sum_eq_zero fun _ _ => rfl
    · rw [hs₀]
      exact Nat.zero_le _
    · intro f a
      rw [(hnone f a).1]
      exact Nat.zero_le _
    · intro f
      have howed : s₀.mpStaking.owed f = 0 := by
        unfold owed
        exact Finset.sum_eq_zero fun a _ =>
          Accumulator.owedTo_current (by rw [(hnone f a).2]; exact Nat.zero_le _)
      rw [howed, noGains, zero_mul]
      exact Nat.zero_le _
  | tail _ hstep ih => exact ih.step hstep

theorem transfer_MP_succeeds (huser : d.External user) (hmultisig : d.mpStaking ≠ d.multisig)
    (hle : amount ≤ s.mpToken.balances d.mpStaking)
    (hroom : s.mpToken.balances user + amount < 2 ^ 256) :
    MPToken.transfer d block d.mpStaking user amount s = .ok { s with mpToken :=
      { s.mpToken with balances := move d.mpStaking user amount s.mpToken.balances } } := by
  have hne {a : Address} (ha : a ∈ d.contracts) : user ≠ a := huser.ne ha
  have hzero : d.mpStaking ≠ 0 := ne_of_mem_of_not_mem (by simp [Wiring.contracts]) d.nonzero
  have hself : user ≠ d.mpStaking := hne (by simp [Wiring.contracts])
  have hvalid : MPToken.requireValidRecipient d user = .ok () := by
    simp [MPToken.requireValidRecipient, huser.1, hself, hne (a := d.mpToken) (by
      simp [Wiring.contracts]), hne (a := d.communityIssuance) (by simp [Wiring.contracts])]
  have hadd : SafeMath.add (s.mpToken.balances user) amount =
      .ok (s.mpToken.balances user + amount) := SafeMath.add_ok.mpr ⟨hroom, rfl⟩
  have hsub : SafeMath.subWith (s.mpToken.balances d.mpStaking) amount
      "ERC20: transfer amount exceeds balance" = .ok (s.mpToken.balances d.mpStaking - amount) :=
    SafeMath.subWith_ok.mpr ⟨hle, rfl⟩
  simp [MPToken.transfer, MPToken.requireLockupForMultisig, hmultisig, hvalid,
    MPToken._transfer, hzero, huser.1, hsub, hself, hadd, move]

theorem transfer_BPD_succeeds (huser : d.External user)
    (hle : amount ≤ s.bpdToken.balances d.mpStaking)
    (hroom : s.bpdToken.balances user + amount < 2 ^ 256) :
    BPDToken.transfer d d.mpStaking user amount s = .ok { s with bpdToken :=
      { s.bpdToken with balances := move d.mpStaking user amount s.bpdToken.balances } } := by
  have hne {a : Address} (ha : a ∈ d.contracts) : user ≠ a := huser.ne ha
  have hzero : d.mpStaking ≠ 0 := ne_of_mem_of_not_mem (by simp [Wiring.contracts]) d.nonzero
  have hself : user ≠ d.mpStaking := hne (by simp [Wiring.contracts])
  have hvalid : BPDToken.requireValidRecipient d user = .ok () := by
    simp [BPDToken.requireValidRecipient, huser.1, hne d.stabilityPool_mem,
      hne (a := d.bpdToken) (by simp [Wiring.contracts]),
      hne (a := d.vaultManager) (by simp [Wiring.contracts]),
      hne (a := d.borrowerOperations) (by simp [Wiring.contracts])]
  have hadd : SafeMath.add (s.bpdToken.balances user) amount =
      .ok (s.bpdToken.balances user + amount) := SafeMath.add_ok.mpr ⟨hroom, rfl⟩
  have hsub : SafeMath.subWith (s.bpdToken.balances d.mpStaking) amount
      "ERC20: transfer amount exceeds balance" = .ok (s.bpdToken.balances d.mpStaking - amount) :=
    SafeMath.subWith_ok.mpr ⟨hle, rfl⟩
  simp [BPDToken.transfer, hvalid, BPDToken._transfer, hzero, huser.1, hsub, hself, hadd, move]

theorem callWithValue_succeeds (huser : d.External user) (hle : amount ≤ s.rbtc d.mpStaking) :
    callWithValue d d.mpStaking user amount s =
      .ok { s with rbtc := move d.mpStaking user amount s.rbtc } := by
  have hne {a : Address} (ha : a ∈ d.contracts) : user ≠ a := huser.ne ha
  rw [callWithValue_ok]
  refine ⟨hle, ?_⟩
  simp [MoneyProtocol.receive, hne d.activePool_mem, hne d.defaultPool_mem,
    hne d.collSurplusPool_mem, hne d.stabilityPool_mem,
    hne (a := d.mpStaking) (by simp [Wiring.contracts]), huser.2]

/-- `user` has left: the whole stake and the gains pending before moved from the contract to
`user`, nothing is pending any more and no other stake changed. -/
structure PaidOut (d : Deployment) (user : Address) (RBTCGain BPDGain : ℕ) (s s' : State) :
    Prop where
  unstaked : s'.mpStaking.stakes user = 0
  others : ∀ a, a ≠ user → s'.mpStaking.stakes a = s.mpStaking.stakes a
  total : s'.mpStaking.totalMPStaked + s.mpStaking.stakes user = s.mpStaking.totalMPStaked
  settled : ∀ f, getPendingGain f user s' = .ok 0
  mp : s'.mpToken.balances user = s.mpToken.balances user + s.mpStaking.stakes user
  rbtc : s'.rbtc user = s.rbtc user + RBTCGain
  bpd : s'.bpdToken.balances user = s.bpdToken.balances user + BPDGain
  mpLeft : s'.mpToken.balances d.mpStaking + s.mpStaking.stakes user =
    s.mpToken.balances d.mpStaking
  rbtcLeft : s'.rbtc d.mpStaking + RBTCGain = s.rbtc d.mpStaking
  bpdLeft : s'.bpdToken.balances d.mpStaking + BPDGain = s.bpdToken.balances d.mpStaking

/-- Without a stake nothing is pending once the snapshots are current. -/
theorem getPendingGain_zero (hstake : s.mpStaking.stakes user = 0)
    (hcurrent : s.mpStaking.snapshot f user = s.mpStaking.accumulated f) :
    getPendingGain f user s = .ok 0 := by
  have hpos : 0 < DECIMAL_PRECISION := by decide
  cases f with
  | RBTC =>
    simp only [snapshot, accumulated] at hcurrent
    simp [getPendingGain, getPendingRBTCGain, hstake, hcurrent, SafeMath.sub, SafeMath.subWith,
      SafeMath.mul, SafeMath.div, hpos]
  | BPD =>
    simp only [snapshot, accumulated] at hcurrent
    simp [getPendingGain, getPendingBPDGain, hstake, hcurrent, SafeMath.sub, SafeMath.subWith,
      SafeMath.mul, SafeMath.div, hpos]

/-- What an accepted call with the whole stake as the amount does. -/
theorem unstake_paidOut {RBTCGain BPDGain : ℕ} (huser : d.External user)
    (hRBTC : getPendingRBTCGain user s = .ok RBTCGain)
    (hBPD : getPendingBPDGain user s = .ok BPDGain)
    (h : MPStaking.unstake d block user (s.mpStaking.stakes user) s = .ok s') :
    PaidOut d user RBTCGain BPDGain s s' := by
  have hne : d.mpStaking ≠ user := by
    apply Ne.symm
    apply huser.ne
    simp [Wiring.contracts]
  simp only [MPStaking.unstake, bind_ok, require_ok, hRBTC, hBPD, Except.ok.injEq] at h
  obtain ⟨_, hstake, _, rfl, _, rfl, s₁, hunstake, hsend⟩ := h
  rw [if_pos hstake] at hunstake
  simp only [min_self, bind_ok, SafeMath.sub_ok] at hunstake
  obtain ⟨_, ⟨-, rfl⟩, _, ⟨htotal, rfl⟩, hunstake⟩ := hunstake
  obtain ⟨hmp, rfl⟩ := MPToken.transfer_move hunstake
  simp only [sendGains, BPDToken.transfer, bind_ok] at hsend
  obtain ⟨_, ⟨_, -, htransfer⟩, hcall⟩ := hsend
  obtain ⟨-, -, hbpd, rfl⟩ := BPDToken._transfer_ok htransfer
  have hrbtc := (callWithValue_ok.mp hcall).1
  obtain rfl := callWithValue_external huser hcall
  refine ⟨?_, ?_, Nat.sub_add_cancel htotal, ?_, move_target hne, move_target hne,
    move_target hne, ?_, ?_, ?_⟩
  · simp [MPStaking.setStake]
  · intro a ha
    exact Function.update_of_ne ha _ _
  · intro f
    apply getPendingGain_zero
    · simp [MPStaking.setStake]
    · exact updateUserSnapshots_current
  · simp only [move_source hne]
    exact Nat.sub_add_cancel hmp
  · simp only [move_source hne]
    exact Nat.sub_add_cancel hrbtc
  · simp only [move_source hne]
    exact Nat.sub_add_cancel hbpd

/-- Whoever staked can unstake everything with all gains, as long as the balances of the
account can hold what it receives. -/
theorem Backed.unstake_succeeds {RBTCGain BPDGain : ℕ} (hs : Backed d noGains s)
    (huser : d.External user) (hmultisig : d.mpStaking ≠ d.multisig)
    (hstake : 0 < s.mpStaking.stakes user)
    (hRBTC : getPendingRBTCGain user s = .ok RBTCGain)
    (hBPD : getPendingBPDGain user s = .ok BPDGain)
    (hroomMP : s.mpToken.balances user + s.mpStaking.stakes user < 2 ^ 256)
    (hroomBPD : s.bpdToken.balances user + BPDGain < 2 ^ 256) :
    ∃ s', MPStaking.unstake d block user (s.mpStaking.stakes user) s = .ok s' ∧
      PaidOut d user RBTCGain BPDGain s s' := by
  have hstaked : s.mpStaking.stakes user ≤ s.mpStaking.totalMPStaked := by
    rw [← hs.staked]
    exact Finset.single_le_sum (fun _ _ => Nat.zero_le _) (Finset.mem_univ user)
  have hsub : SafeMath.sub s.mpStaking.totalMPStaked (s.mpStaking.stakes user) =
      .ok (s.mpStaking.totalMPStaked - s.mpStaking.stakes user) :=
    SafeMath.sub_ok.mpr ⟨hstaked, rfl⟩
  have hclear : SafeMath.sub (s.mpStaking.stakes user) (s.mpStaking.stakes user) = .ok 0 :=
    SafeMath.sub_ok.mpr ⟨le_rfl, Nat.sub_self _⟩
  have hgain := hs.gain_le (f := .BPD) hBPD
  have hgain' := hs.gain_le (f := .RBTC) hRBTC
  have hunstake : ∃ s', MPStaking.unstake d block user (s.mpStaking.stakes user) s = .ok s' := by
    simp only [MPStaking.unstake, bind_ok, require_ok, if_pos hstake, MPStaking.sendGains,
      min_self]
    exact ⟨_, (), hstake, _, hRBTC, _, hBPD, _,
      ⟨_, hclear, _, hsub, transfer_MP_succeeds huser hmultisig (hs.stake_le user) hroomMP⟩, _,
      transfer_BPD_succeeds huser hgain hroomBPD, callWithValue_succeeds huser hgain'⟩
  obtain ⟨s', h⟩ := hunstake
  exact ⟨s', h, unstake_paidOut huser hRBTC hBPD h⟩

/-- The contract can pay everybody. -/
structure Solvent (d : Deployment) (s : State) : Prop where
  total : s.mpStaking.totalMPStaked = ∑ a, s.mpStaking.stakes a
  mp : s.mpStaking.totalMPStaked ≤ s.mpToken.balances d.mpStaking
  rbtc : ∑ a, Outcome.amount (getPendingRBTCGain a s) ≤ s.rbtc d.mpStaking
  bpd : ∑ a, Outcome.amount (getPendingBPDGain a s) ≤ s.bpdToken.balances d.mpStaking
  unstakes : ∀ block user RBTCGain BPDGain, d.External user → d.mpStaking ≠ d.multisig →
    0 < s.mpStaking.stakes user → getPendingRBTCGain user s = .ok RBTCGain →
    getPendingBPDGain user s = .ok BPDGain →
    s.mpToken.balances user + s.mpStaking.stakes user < 2 ^ 256 →
    s.bpdToken.balances user + BPDGain < 2 ^ 256 →
    ∃ s', MPStaking.unstake d block user (s.mpStaking.stakes user) s = .ok s' ∧
      PaidOut d user RBTCGain BPDGain s s'

/-- In every state a run of the staking contract reaches, it is solvent. -/
theorem staking_solvent (h : StakingReachable d s) : Solvent d s := by
  have hs := h.backed
  exact ⟨hs.staked.symm, hs.mp, hs.total_gains_le .RBTC, hs.total_gains_le .BPD,
    fun _ _ _ _ huser hmultisig hstake hRBTC hBPD hroomMP hroomBPD =>
      hs.unstake_succeeds huser hmultisig hstake hRBTC hBPD hroomMP hroomBPD⟩

/-- Two stakers share a borrowing fee of seven wei, and one of them leaves. -/
theorem staking_solvent_run : ∃ s, StakingReachable testnet s ∧
    s.bpdToken.balances testnet.mpStaking = 3 ∧ Solvent testnet s := by
  let s₀ : State := { testGenesis.state with mpToken := ⟨fun _ => 1000, fun _ => 0⟩ }
  obtain ⟨s, hrun, hcheck⟩ := @exists_of_succeeds _
    (fun s => s.bpdToken.balances testnet.mpStaking = 3) (do
      let s ← stake testnet (testBlock 1) 100 20 s₀
      let s ← stake testnet (testBlock 1) 101 15 s
      let s ← increaseF_BPD 7 s
      let s ← BPDToken.mint testnet.mpStaking 7 s
      unstake testnet (testBlock 1) 100 50 s) (by decide +kernel)
  simp only [bind_ok] at hrun
  obtain ⟨s₁, hstake, s₂, hstake', s₃, hraise, s₄, hmint, hunstake⟩ := hrun
  have hfirst : testnet.External 100 := by decide +kernel
  have hsecond : testnet.External 101 := by decide +kernel
  have h : StakingReachable testnet s := ⟨s₀, rfl, .head (.stake hfirst hstake)
    (.head (.stake hsecond hstake') (.head (.increaseF_BPD hraise hmint)
      (.single (.unstake hfirst hunstake))))⟩
  exact ⟨s, h, of_decide_eq_true hcheck, staking_solvent h⟩

end MoneyProtocol.MPStaking
