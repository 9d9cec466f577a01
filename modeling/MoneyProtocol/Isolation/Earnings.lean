import MoneyProtocol.Isolation.Accounts
import MoneyProtocol.Safety.IssuanceSolvency

/-!
# What an account has earned

The gains of a deposit and of a stake are computed from sums that only grow against snapshots
that only their owner renews. So a gain that can be read now is no smaller when it is read
later, however many deposits, liquidations, redemptions and fees lie in between.
-/

namespace MoneyProtocol

open Outcome StabilityPool

variable {d : Deployment} {s s' : State} {u : Address} {v g g' snapshot : ℕ}
  {snap : Snapshots} {sums sums' : ℕ → ℕ → ℕ}

/-- Where it can be read in both states, the second reading is no smaller. -/
def NeverFalls (read : State → Outcome ℕ) (s s' : State) : Prop :=
  ∀ g g', read s = .ok g → read s' = .ok g' → g ≤ g'

namespace StabilityPool

variable {P : Policy} {h h' : History}

theorem Tagged.move (ht : Tagged h.state.stabilityPool) (hmove : Move P d h h') :
    Tagged h'.state.stabilityPool := by
  cases hmove with
  | issuance i =>
    rw [i.pool]
    exact ⟨ht.rates, ht.deposits, ht.stakes⟩
  | settlement _ e => exact e.tagged ht
  | @registration _ a kickbackRate _ hrate hpool =>
    rw [hpool]
    exact ht.registered hrate
  | elsewhere hpool =>
    rw [hpool]
    exact ht
  | offset _ _ _ e =>
    rw [e.pool]
    exact ⟨ht.rates, ht.deposits, ht.stakes⟩

/-- In every history a deposit is tagged with a registered front end or not at all. -/
theorem Recorded.tagged (hrecorded : Recorded P d h) : Tagged h.state.stabilityPool :=
  hrecorded.invariant (I := fun h => Tagged h.state.stabilityPool)
    (fun g => (Issuing.start g).tagged) Tagged.move

theorem gainFromSnapshots_mono (hsums : sums ≤ sums')
    (h : gainFromSnapshots v snapshot snap sums = .ok g)
    (h' : gainFromSnapshots v snapshot snap sums' = .ok g') : g ≤ g' := by
  simp only [gainFromSnapshots, bind_ok, SafeMath.sub_ok, SafeMath.div_ok, SafeMath.add_ok,
    SafeMath.mul_ok, MoneypSafeMath128.add_ok] at h h'
  obtain ⟨_, ⟨-, rfl⟩, _, ⟨-, rfl⟩, _, ⟨-, rfl⟩, _, ⟨-, rfl⟩, _, ⟨-, rfl⟩, _, ⟨-, rfl⟩, -, rfl⟩ := h
  obtain ⟨_, ⟨-, rfl⟩, _, ⟨-, rfl⟩, _, ⟨-, rfl⟩, _, ⟨-, rfl⟩, _, ⟨-, rfl⟩, _, ⟨-, rfl⟩, -, rfl⟩ :=
    h'
  have hfirst := hsums snap.epoch snap.scale
  have hsecond := hsums snap.epoch (snap.scale + 1)
  apply Nat.div_le_div_right
  apply Nat.div_le_div_right
  apply Nat.mul_le_mul_left
  exact Nat.add_le_add (Nat.sub_le_sub_right hfirst _) (Nat.div_le_div_right hsecond)

theorem getDepositorRBTCGain_rises (h : RetainsRest u s s') :
    NeverFalls (getDepositorRBTCGain u) s s' := by
  intro g g' hg hg'
  simp only [getDepositorRBTCGain, h.deposit, h.depositSnapshots] at hg hg'
  split_ifs at hg hg'
  · rw [← pure_ok.mp hg]
    exact Nat.zero_le _
  · exact gainFromSnapshots_mono h.sums hg hg'

/-- The part of the depositor is fixed by the front end that it chose. -/
theorem getDepositorMPGain_rises (ht : Tagged s.stabilityPool) (h : RetainsRest u s s') :
    NeverFalls (getDepositorMPGain u) s s' := by
  intro g g' hg hg'
  simp only [getDepositorMPGain, h.deposit, h.depositSnapshots] at hg hg'
  split_ifs at hg hg' with hzero htag
  · rw [← pure_ok.mp hg]
    exact Nat.zero_le _
  all_goals
    simp only [bind_ok, SafeMath.mul_ok, SafeMath.div_ok] at hg hg'
    obtain ⟨gain, hgain, _, ⟨-, rfl⟩, -, rfl⟩ := hg
    obtain ⟨gain', hgain', _, ⟨-, rfl⟩, -, rfl⟩ := hg'
    have hle : gain ≤ gain' := gainFromSnapshots_mono h.G hgain hgain'
  · exact Nat.div_le_div_right (Nat.mul_le_mul_left _ hle)
  · have hregistered := (ht.deposits u hzero).resolve_right htag
    rw [h.frontEnds _ hregistered]
    exact Nat.div_le_div_right (Nat.mul_le_mul_left _ hle)

end StabilityPool

namespace MPStaking

theorem getPendingRBTCGain_rises (h : RetainsRest u s s') :
    NeverFalls (getPendingRBTCGain u) s s' := by
  intro g g' hg hg'
  simp only [getPendingRBTCGain, h.stake, h.stakeSnapshots, bind_ok, SafeMath.sub_ok,
    SafeMath.mul_ok, SafeMath.div_ok] at hg hg'
  obtain ⟨_, ⟨-, rfl⟩, _, ⟨-, rfl⟩, -, rfl⟩ := hg
  obtain ⟨_, ⟨-, rfl⟩, _, ⟨-, rfl⟩, -, rfl⟩ := hg'
  exact Nat.div_le_div_right (Nat.mul_le_mul_left _ (Nat.sub_le_sub_right h.F_RBTC _))

theorem getPendingBPDGain_rises (h : RetainsRest u s s') :
    NeverFalls (getPendingBPDGain u) s s' := by
  intro g g' hg hg'
  simp only [getPendingBPDGain, h.stake, h.stakeSnapshots, bind_ok, SafeMath.sub_ok,
    SafeMath.mul_ok, SafeMath.div_ok] at hg hg'
  obtain ⟨_, ⟨-, rfl⟩, _, ⟨-, rfl⟩, -, rfl⟩ := hg
  obtain ⟨_, ⟨-, rfl⟩, _, ⟨-, rfl⟩, -, rfl⟩ := hg'
  exact Nat.div_le_div_right (Nat.mul_le_mul_left _ (Nat.sub_le_sub_right h.F_BPD _))

end MPStaking

/-- What an account earns by doing nothing: as a depositor, and as a staker. -/
def earnings (u : Address) : List (State → Outcome ℕ) :=
  [getDepositorRBTCGain u, getDepositorMPGain u, MPStaking.getPendingRBTCGain u,
    MPStaking.getPendingBPDGain u]

/-- Nobody but its owner can make what an account has earned smaller. -/
theorem earnings_never_fall (hu : d.External u) (hs : Reachable d s)
    (hrun : Relation.ReflTransGen (ForeignStep d u) s s') {read : State → Outcome ℕ}
    (hread : read ∈ earnings u) : NeverFalls read s s' := by
  obtain ⟨carry, sent, hrecorded⟩ := Recorded.of_reachable hs
  have ht : Tagged s.stabilityPool := hrecorded.tagged
  have hkept := (foreign_steps hu hrun).toRetainsRest
  simp only [earnings, List.mem_cons, List.not_mem_nil, or_false] at hread
  rcases hread with rfl | rfl | rfl | rfl
  · exact getDepositorRBTCGain_rises hkept
  · exact getDepositorMPGain_rises ht hkept
  · exact MPStaking.getPendingRBTCGain_rises hkept
  · exact MPStaking.getPendingBPDGain_rises hkept

/-- The first owner deposits most of what it has drawn. -/
def firstProvides : List Transaction :=
  threeVaults ++ [⟨testBlock 60000, 100, 0, .provideToSP (5000 * 10 ^ 18) 0⟩]

theorem earnings_never_fall_liquidation : ∃ s s' g g', Reachable testnet s ∧
    transact testnet liquidatesSecond s = .ok s' ∧ getDepositorRBTCGain 100 s = .ok g ∧
    getDepositorRBTCGain 100 s' = .ok g' ∧ 0 < g' ∧ g ≤ g' := by
  obtain ⟨s, s', hs, h, hcheck⟩ := runsThen_reachable testnet testGenesis firstProvides
    liquidatesSecond (fun s s' => succeeds (fun _ => true) (getDepositorRBTCGain 100 s) ∧
      succeeds (fun g => decide (0 < g)) (getDepositorRBTCGain 100 s')) (by decide +kernel)
  obtain ⟨hbefore, hafter⟩ := of_decide_eq_true hcheck
  obtain ⟨g, hg, -⟩ := exists_of_succeeds hbefore
  obtain ⟨g', hg', hpos⟩ := exists_of_succeeds hafter
  have hforeign : ForeignStep testnet 100 s s' := ⟨liquidatesSecond, by decide, h⟩
  have hrises := earnings_never_fall (by decide) hs (.single hforeign)
    (List.mem_cons_self : getDepositorRBTCGain 100 ∈ earnings 100)
  exact ⟨s, s', g, g', hs, h, hg, hg', of_decide_eq_true hpos, hrises g g' hg hg'⟩

end MoneyProtocol
