import MoneyProtocol.Contracts.RskSwapPool
import MoneyProtocol.Book.Runs
import MoneyProtocol.Library.Accumulator

/-!
# The LP rewards stay within their budget

The pool pays at a constant rate for the time in which something is staked, up to its
duration. An empty pool stops the clock: the period is extended when the next call sees that
the pool was empty, so the rewarded time and the time that is left always add up.
-/

namespace MoneyProtocol

open Outcome PointSum

namespace RskSwapPool

variable {T : Type} {d : LPDeployment T} {block : Block} {p p' : RskSwapPool}
  {s s' : LPState T} {a : Address} {amount time : ℕ}

/-- The MP that was paid out. -/
def paid (p : RskSwapPool) : ℕ := (p.rewardPaid.map Prod.snd).sum

/-- What the staked tokens earned since their accounts were last updated, in `1e-18` wei. -/
def unsettled (p : RskSwapPool) (perToken : ℕ) : ℕ :=
  Accumulator.owed p.balances p.userRewardPerTokenPaid perToken

/-- All that was promised, paid or not, is paid for by `time` rewarded seconds. -/
structure Accounted (p : RskSwapPool) (time : ℕ) : Prop where
  staked : ∑ a, p.balances a = p.totalSupply
  settled : ∀ a, p.userRewardPerTokenPaid a ≤ p.rewardPerTokenStored
  budget : (p.paid + total id p.rewards) * DECIMAL_PRECISION + p.unsettled p.rewardPerTokenStored ≤
    p.rewardRate * time * DECIMAL_PRECISION

/-- The rewarded seconds since the last update. -/
def secondsSince (block : Block) (p : RskSwapPool) : ℕ :=
  if p.totalSupply = 0 then 0 else lastTimeRewardApplicable block p - p.lastUpdateTime

theorem rewardPerToken_ok {perToken : ℕ} (h : rewardPerToken block p = .ok perToken) :
    p.rewardPerTokenStored ≤ perToken ∧
      (p.totalSupply ≠ 0 → p.lastUpdateTime ≤ lastTimeRewardApplicable block p) ∧
      (perToken - p.rewardPerTokenStored) * p.totalSupply ≤
        p.rewardRate * secondsSince block p * DECIMAL_PRECISION := by
  unfold rewardPerToken at h
  unfold secondsSince
  split_ifs at h ⊢ with hempty
  · obtain rfl := pure_ok.mp h
    simp [hempty]
  · simp only [bind_ok, SafeMath.sub_ok, SafeMath.mul_ok, SafeMath.div_ok, SafeMath.add_ok] at h
    obtain ⟨elapsed, ⟨hle, rfl⟩, _, ⟨-, rfl⟩, _, ⟨-, rfl⟩, _, ⟨-, rfl⟩, -, rfl⟩ := h
    refine ⟨Nat.le_add_right _ _, fun _ => hle, ?_⟩
    rw [Nat.add_sub_cancel_left, mul_comm p.rewardRate]
    exact Nat.div_mul_le_self _ _

theorem earned_ok {reward : ℕ} (h : earned block a p = .ok reward) :
    ∃ perToken, rewardPerToken block p = .ok perToken ∧
      reward * DECIMAL_PRECISION ≤ p.rewards a * DECIMAL_PRECISION +
        Accumulator.owedTo p.balances p.userRewardPerTokenPaid perToken a := by
  simp only [earned, bind_ok, SafeMath.sub_ok, SafeMath.mul_ok, SafeMath.div_ok,
    SafeMath.add_ok] at h
  obtain ⟨perToken, hper, _, ⟨-, rfl⟩, _, ⟨-, rfl⟩, _, ⟨-, rfl⟩, -, rfl⟩ := h
  refine ⟨perToken, hper, ?_⟩
  have hdiv := Nat.div_mul_le_self
    (p.balances a * (perToken - p.userRewardPerTokenPaid a)) DECIMAL_PRECISION
  unfold Accumulator.owedTo
  rw [add_mul]
  omega

/-- Raising the reward per token owes to the stakers no more than the elapsed seconds bring. -/
theorem Accounted.raised {perToken : ℕ} (h : p.Accounted time)
    (hper : rewardPerToken block p = .ok perToken) :
    (p.paid + total id p.rewards) * DECIMAL_PRECISION + p.unsettled perToken ≤
      p.rewardRate * (time + secondsSince block p) * DECIMAL_PRECISION := by
  obtain ⟨hle, -, hraise⟩ := rewardPerToken_ok hper
  have hbudget := h.budget
  have howed : p.unsettled perToken = p.unsettled p.rewardPerTokenStored +
      (perToken - p.rewardPerTokenStored) * p.totalSupply := by
    unfold unsettled
    rw [← h.staked, ← Accumulator.owed_raise h.settled, Nat.add_sub_cancel' hle]
  rw [howed, mul_add, add_mul (p.rewardRate * time)]
  omega

/-- What every account can claim, with what was paid, is within the budget. -/
theorem Accounted.earned_le (h : p.Accounted time) :
    p.paid + ∑ a, Outcome.amount (earned block a p) ≤
      p.rewardRate * (time + secondsSince block p) := by
  have hpos : 0 < DECIMAL_PRECISION := by decide
  cases hper : rewardPerToken block p with
  | error e =>
    have hnone (a : Address) : Outcome.amount (earned block a p) = 0 := by
      simp [earned, hper, Outcome.amount, bind, Except.bind]
    have hbudget := h.budget
    have hle : p.paid * DECIMAL_PRECISION ≤ p.rewardRate * time * DECIMAL_PRECISION := by
      rw [add_mul] at hbudget
      omega
    rw [Finset.sum_eq_zero fun a _ => hnone a, add_zero, mul_add]
    exact (Nat.le_of_mul_le_mul_right hle hpos).trans (Nat.le_add_right _ _)
  | ok perToken =>
    have hone (a : Address) : Outcome.amount (earned block a p) * DECIMAL_PRECISION ≤
        p.rewards a * DECIMAL_PRECISION +
          Accumulator.owedTo p.balances p.userRewardPerTokenPaid perToken a := by
      cases hearned : earned block a p with
      | error e =>
        rw [Outcome.amount, zero_mul]
        exact Nat.zero_le _
      | ok reward =>
        obtain ⟨perToken', hper', hle⟩ := earned_ok hearned
        rw [hper, Except.ok.injEq] at hper'
        rw [hper']
        exact hle
    have hsum := Finset.sum_le_sum fun a (_ : a ∈ Finset.univ) => hone a
    rw [Finset.sum_add_distrib, ← Finset.sum_mul, ← Finset.sum_mul] at hsum
    have hraised := h.raised hper
    unfold unsettled Accumulator.owed total at hraised
    simp only [id_eq] at hraised
    apply Nat.le_of_mul_le_mul_right _ hpos
    rw [add_mul] at hraised ⊢
    omega

/-- No second passes after an update. -/
theorem rewardPerToken_updated {perToken : ℕ}
    (hupdated : p.lastUpdateTime = lastTimeRewardApplicable block p)
    (h : rewardPerToken block p = .ok perToken) : perToken = p.rewardPerTokenStored := by
  unfold rewardPerToken at h
  split_ifs at h
  · exact (pure_ok.mp h).symm
  · simp only [bind_ok, SafeMath.sub_ok, SafeMath.mul_ok, SafeMath.div_ok, SafeMath.add_ok,
      hupdated] at h
    obtain ⟨_, ⟨-, rfl⟩, _, ⟨-, rfl⟩, _, ⟨-, rfl⟩, _, ⟨-, rfl⟩, -, rfl⟩ := h
    simp

theorem updateAccountReward_ok (h : updateAccountReward block a p = .ok p') :
    ∃ perToken reward, rewardPerToken block p = .ok perToken ∧
      reward * DECIMAL_PRECISION ≤ p.rewards a * DECIMAL_PRECISION +
        Accumulator.owedTo p.balances p.userRewardPerTokenPaid perToken a ∧
      p' = { p with
        rewardPerTokenStored := perToken
        lastUpdateTime := lastTimeRewardApplicable block p
        rewards := Function.update p.rewards a reward
        userRewardPerTokenPaid := Function.update p.userRewardPerTokenPaid a perToken } := by
  simp only [updateAccountReward, updateReward, bind_ok, pure_ok, assert_ok] at h
  obtain ⟨_, ⟨perToken, hper, rfl⟩, _, -, reward, hearned, rfl⟩ := h
  obtain ⟨again, hagain, hle⟩ := earned_ok hearned
  rw [rewardPerToken_updated rfl hagain] at hle
  exact ⟨perToken, reward, hper, hle, rfl⟩

theorem Accounted.updateAccountReward (hp : p.Accounted time)
    (h : updateAccountReward block a p = .ok p') :
    p'.Accounted (time + secondsSince block p) ∧
      p'.userRewardPerTokenPaid a = p'.rewardPerTokenStored := by
  obtain ⟨perToken, reward, hper, hreward, rfl⟩ := updateAccountReward_ok h
  refine ⟨⟨hp.staked, ?_, ?_⟩, Function.update_self _ _ _⟩
  · intro u
    by_cases hu : u = a
    · simp [hu]
    · simp only [Function.update_of_ne hu]
      exact (hp.settled u).trans (rewardPerToken_ok hper).1
  · have hraised := hp.raised hper
    have hrewards := congrArg (· * DECIMAL_PRECISION) (total_update id p.rewards a reward)
    have howed := @Accumulator.owed_change _ _ _ p.balances p.balances p.userRewardPerTokenPaid
      (Function.update p.userRewardPerTokenPaid a perToken) perToken a (fun _ _ => rfl)
      (fun u hu => Function.update_of_ne hu _ _)
    have hcurrent : perToken ≤ Function.update p.userRewardPerTokenPaid a perToken a := by simp
    rw [Accumulator.owedTo_current hcurrent, add_zero] at howed
    simp only [paid, unsettled, id_eq, add_mul] at hraised hrewards ⊢
    omega

/-- An account that is up to date may change its stake. -/
theorem Accounted.restake {balance supply : ℕ} (hp : p.Accounted time)
    (hsettled : p.userRewardPerTokenPaid a = p.rewardPerTokenStored)
    (hsupply : supply + p.balances a = p.totalSupply + balance) :
    Accounted { p with
      totalSupply := supply
      balances := Function.update p.balances a balance } time := by
  refine ⟨?_, hp.settled, ?_⟩
  · have hsum := sum_update (fun _ => id) p.balances a balance
    have hstaked := hp.staked
    simp only [id_eq] at hsum ⊢
    omega
  · have howed := @Accumulator.owed_change _ _ _ p.balances
      (Function.update p.balances a balance) p.userRewardPerTokenPaid p.userRewardPerTokenPaid
      p.rewardPerTokenStored a (fun u hu => Function.update_of_ne hu _ _) (fun _ _ => rfl)
    rw [Accumulator.owedTo_current hsettled.ge, Accumulator.owedTo_current hsettled.ge, add_zero,
      add_zero] at howed
    have hbudget := hp.budget
    simp only [paid, unsettled] at hbudget ⊢
    omega

theorem Accounted.updatePeriodFinish (hp : p.Accounted time)
    (h : updatePeriodFinish block p = .ok p') : p'.Accounted time := by
  unfold RskSwapPool.updatePeriodFinish at h
  split_ifs at h
  · simp only [bind_ok, pure_ok] at h
    obtain ⟨_, -, _, -, _, -, rfl⟩ := h
    exact ⟨hp.staked, hp.settled, hp.budget⟩
  · obtain rfl := pure_ok.mp h
    exact hp

/-- What a call does to the clock of the pool: no rewarded second is lost or counted twice. -/
structure Refreshed (block : Block) (p p' : RskSwapPool) : Prop where
  duration : p'.duration = p.duration
  rewardRate : p'.rewardRate = p.rewardRate
  updated : p'.lastUpdateTime = lastTimeRewardApplicable block p'
  remaining : p'.periodFinish - p'.lastUpdateTime + secondsSince block p =
    p.periodFinish - p.lastUpdateTime

theorem secondsSince_updated (h : p.lastUpdateTime = lastTimeRewardApplicable block p) :
    secondsSince block p = 0 := by
  unfold secondsSince
  rw [h, Nat.sub_self, ite_self]

theorem Refreshed.trans {p'' : RskSwapPool} (h : Refreshed block p p')
    (h' : Refreshed block p' p'') : Refreshed block p p'' := by
  have hremaining := h'.remaining
  rw [secondsSince_updated h.updated, add_zero] at hremaining
  exact ⟨h'.duration.trans h.duration, h'.rewardRate.trans h.rewardRate, h'.updated,
    by rw [hremaining, h.remaining]⟩

theorem updatePeriodFinish_staked (h : p.totalSupply ≠ 0) :
    updatePeriodFinish block p = .ok p := if_neg h

theorem refresh_ok {p₁ : RskSwapPool} (hclock : p.lastUpdateTime ≤ p.periodFinish)
    (hfinish : updatePeriodFinish block p = .ok p₁)
    (h : updateAccountReward block a p₁ = .ok p') : Refreshed block p p' := by
  obtain ⟨perToken, reward, hper, -, rfl⟩ := updateAccountReward_ok h
  obtain ⟨-, hle, -⟩ := rewardPerToken_ok hper
  unfold updatePeriodFinish at hfinish
  unfold lastTimeRewardApplicable at hle
  split_ifs at hfinish with hempty
  · simp only [bind_ok, pure_ok, SafeMath.sub_ok, SafeMath.add_ok] at hfinish
    obtain ⟨_, -, _, ⟨hpassed, rfl⟩, _, ⟨-, rfl⟩, rfl⟩ := hfinish
    refine ⟨rfl, rfl, rfl, ?_⟩
    -- the time the pool was empty is added to the period
    simp only [lastTimeRewardApplicable, secondsSince, hempty, if_true]
    omega
  · obtain rfl := pure_ok.mp hfinish
    have hle := hle hempty
    refine ⟨rfl, rfl, rfl, ?_⟩
    simp only [lastTimeRewardApplicable, secondsSince, hempty, if_false]
    omega

theorem secondsSince_updatePeriodFinish (h : updatePeriodFinish block p = .ok p') :
    secondsSince block p' = secondsSince block p := by
  unfold updatePeriodFinish at h
  split_ifs at h with hempty
  · simp only [bind_ok, pure_ok] at h
    obtain ⟨_, -, _, -, _, -, rfl⟩ := h
    simp [secondsSince, hempty]
  · rw [pure_ok.mp h]

theorem stake_ok (hclock : s.pool.lastUpdateTime ≤ s.pool.periodFinish)
    (hs : s.pool.Accounted time) (h : stake d block a amount s = .ok s') :
    Refreshed block s.pool s'.pool ∧
      s'.pool.Accounted (time + secondsSince block s.pool) := by
  simp only [stake, LPTokenWrapper.stake, bind_ok, pure_ok, SafeMath.add_ok] at h
  obtain ⟨_, -, _, -, p₁, hfinish, p₂, hupdate, _, ⟨-, rfl⟩, _, ⟨-, rfl⟩, _, -, rfl⟩ := h
  obtain ⟨haccounted, hsettled⟩ := (hs.updatePeriodFinish hfinish).updateAccountReward hupdate
  rw [secondsSince_updatePeriodFinish hfinish] at haccounted
  have hrefreshed := refresh_ok hclock hfinish hupdate
  exact ⟨⟨hrefreshed.duration, hrefreshed.rewardRate, hrefreshed.updated, hrefreshed.remaining⟩,
    haccounted.restake hsettled (by omega)⟩

theorem withdraw_ok (hclock : s.pool.lastUpdateTime ≤ s.pool.periodFinish)
    (hs : s.pool.Accounted time) (h : withdraw d block a amount s = .ok s') :
    Refreshed block s.pool s'.pool ∧
      s'.pool.Accounted (time + secondsSince block s.pool) := by
  simp only [withdraw, LPTokenWrapper.withdraw, bind_ok, pure_ok, SafeMath.sub_ok,
    require_ok] at h
  obtain ⟨_, hamount, _, -, p₁, hupdate, _, ⟨hsupply, rfl⟩, _, ⟨hbalance, rfl⟩, _, -, rfl⟩ := h
  obtain ⟨haccounted, hsettled⟩ := hs.updateAccountReward hupdate
  have hstaked : s.pool.totalSupply ≠ 0 := by
    obtain ⟨_, _, -, -, rfl⟩ := updateAccountReward_ok hupdate
    simp only at hsupply
    omega
  have hrefreshed := refresh_ok hclock (updatePeriodFinish_staked hstaked) hupdate
  exact ⟨⟨hrefreshed.duration, hrefreshed.rewardRate, hrefreshed.updated, hrefreshed.remaining⟩,
    haccounted.restake hsettled (by omega)⟩

/-- A payment moves the account's rewards to what was paid. -/
theorem Accounted.setRewardPaid {reward : ℕ} (hp : p.Accounted time)
    (hreward : reward ≤ p.rewards a) : (setRewardPaid a reward p).Accounted time := by
  refine ⟨hp.staked, hp.settled, ?_⟩
  have hbudget := hp.budget
  have hrewards := total_update id p.rewards a 0
  simp only [id_eq, add_zero] at hrewards
  have hle : reward + (p.rewardPaid.map Prod.snd).sum +
      total id (Function.update p.rewards a 0) ≤
        (p.rewardPaid.map Prod.snd).sum + total id p.rewards := by
    omega
  simp only [RskSwapPool.setRewardPaid, paid, unsettled, List.map_cons, List.sum_cons] at hbudget ⊢
  exact (Nat.add_le_add_right (Nat.mul_le_mul_right _ hle) _).trans hbudget

theorem claimReward_ok (hclock : s.pool.lastUpdateTime ≤ s.pool.periodFinish)
    (hs : s.pool.Accounted time) (h : claimReward d block a s = .ok s') :
    Refreshed block s.pool s'.pool ∧
      s'.pool.Accounted (time + secondsSince block s.pool) := by
  simp only [claimReward, bind_ok, pure_ok] at h
  obtain ⟨_, -, p₁, hfinish, p₂, hupdate, reward, hearned, _, -, _, -, rfl⟩ := h
  obtain ⟨haccounted, hsettled⟩ := (hs.updatePeriodFinish hfinish).updateAccountReward hupdate
  rw [secondsSince_updatePeriodFinish hfinish] at haccounted
  have hrefreshed := refresh_ok hclock hfinish hupdate
  obtain ⟨perToken, hper, hreward⟩ := earned_ok hearned
  rw [rewardPerToken_updated hrefreshed.updated hper, Accumulator.owedTo_current hsettled.ge,
    add_zero] at hreward
  exact ⟨⟨hrefreshed.duration, hrefreshed.rewardRate, hrefreshed.updated, hrefreshed.remaining⟩,
    haccounted.setRewardPaid (Nat.le_of_mul_le_mul_right hreward (by decide))⟩

theorem withdrawAndClaim_ok (hclock : s.pool.lastUpdateTime ≤ s.pool.periodFinish)
    (hs : s.pool.Accounted time) (h : withdrawAndClaim d block a s = .ok s') :
    Refreshed block s.pool s'.pool ∧
      s'.pool.Accounted (time + secondsSince block s.pool) := by
  simp only [withdrawAndClaim, bind_ok] at h
  obtain ⟨s₁, hwithdraw, hclaim⟩ := h
  obtain ⟨hrefreshed, haccounted⟩ := withdraw_ok hclock hs hwithdraw
  have hclock₁ : s₁.pool.lastUpdateTime ≤ s₁.pool.periodFinish := by
    rw [hrefreshed.updated]
    exact Nat.min_le_right _ _
  obtain ⟨hrefreshed', haccounted'⟩ := claimReward_ok hclock₁ haccounted hclaim
  rw [secondsSince_updated hrefreshed.updated, add_zero] at haccounted'
  exact ⟨hrefreshed.trans hrefreshed', haccounted'⟩

theorem perform_ok {c : Call} (hclock : s.pool.lastUpdateTime ≤ s.pool.periodFinish)
    (hs : s.pool.Accounted time) (h : perform d block a c s = .ok s') :
    Refreshed block s.pool s'.pool ∧
      s'.pool.Accounted (time + secondsSince block s.pool) := by
  cases c with
  | stake amount => exact stake_ok hclock hs h
  | withdraw amount => exact withdraw_ok hclock hs h
  | withdrawAndClaim => exact withdrawAndClaim_ok hclock hs h
  | claimReward => exact claimReward_ok hclock hs h

variable {h h' : History T}

/-- The invariant of a history. At the time `updated` of the last call the pool was brought
up to date; since then the clock has run if something is staked. -/
structure History.Timed (d : LPDeployment T) (h : History T) : Prop where
  accounted : h.state.pool.Accounted (min h.stakedTimeAtUpdate h.state.pool.duration)
  reward : h.state.pool.rewardRate * h.state.pool.duration ≤ d.getLpRewardsEntitlement
  clock : h.state.pool.lastUpdateTime ≤ h.state.pool.periodFinish
  rewarded : min h.stakedTimeAtUpdate h.state.pool.duration +
    (h.state.pool.periodFinish - h.state.pool.lastUpdateTime) = h.state.pool.duration
  staked : h.stakedTimeAtUpdate ≤ h.stakedTime
  idle : h.state.pool.totalSupply = 0 → h.stakedTime = h.stakedTimeAtUpdate
  updated : ∃ updated, h.state.pool.lastUpdateTime = min updated h.state.pool.periodFinish ∧
    (h.state.pool.totalSupply ≠ 0 → updated + (h.stakedTime - h.stakedTimeAtUpdate) = h.now)

/-- The rewarded seconds are the seconds in which something was staked, up to the duration. -/
theorem History.Timed.secondsSince (ht : h.Timed d) (hnow : block.timestamp = h.now) :
    min h.stakedTimeAtUpdate h.state.pool.duration + secondsSince block h.state.pool =
      min h.stakedTime h.state.pool.duration := by
  obtain ⟨updated, hupdated, hpassed⟩ := ht.updated
  have hrewarded := ht.rewarded
  have hstaked := ht.staked
  unfold RskSwapPool.secondsSince lastTimeRewardApplicable
  split_ifs with hempty
  · rw [ht.idle hempty, add_zero]
  · have hpassed := hpassed hempty
    rw [hnow]
    omega

theorem Initialised.timed (h₀ : Initialised d h) : h.Timed d := by
  obtain ⟨block, owner, msgSender, mpTokenAddress, rskSwapTokenAddress, duration, lpToken,
    system, hset, hnow, hstaked, hupdate⟩ := h₀
  simp only [setParams, notifyRewardAmount, updateReward, bind_ok, pure_ok, SafeMath.div_ok,
    SafeMath.add_ok] at hset
  obtain ⟨_, -, _, -, _, -, _, ⟨_, -, _, -, _, -, _, ⟨perToken, hper, rfl⟩, _, ⟨hpos, rfl⟩, _,
    ⟨-, rfl⟩, rfl⟩, hset⟩ := hset
  obtain rfl : (0 : ℕ) = perToken := by simpa [rewardPerToken, deployed] using hper
  obtain ⟨now, state, stakedTime, stakedTimeAtUpdate⟩ := h
  simp only at hset hnow hstaked hupdate
  subst hset hnow hstaked hupdate
  constructor
  · constructor
    · exact Finset.sum_eq_zero fun _ _ => rfl
    · intro a
      exact le_rfl
    · have howed : Accumulator.owed (fun _ : Address => 0) (fun _ => 0) 0 = 0 :=
        Finset.sum_eq_zero fun _ _ => rfl
      simp [paid, unsettled, deployed, howed]
  · exact Nat.div_mul_le_self _ _
  · exact Nat.le_add_right _ _
  · simp
  · exact le_rfl
  · intro _
    rfl
  · exact ⟨block.timestamp, by simp, by simp [deployed]⟩

theorem History.Timed.step (ht : h.Timed d) (hstep : HistoryStep d h h') : h'.Timed d := by
  cases hstep with
  | @call block msgSender c s' hnow hcall =>
    obtain ⟨hrefreshed, haccounted⟩ := perform_ok ht.clock ht.accounted hcall
    have hsince := ht.secondsSince hnow
    have hrewarded := ht.rewarded
    have hremaining := hrefreshed.remaining
    rw [hsince] at haccounted
    constructor
    · rw [hrefreshed.duration]
      exact haccounted
    · rw [hrefreshed.rewardRate, hrefreshed.duration]
      exact ht.reward
    · rw [hrefreshed.updated]
      exact Nat.min_le_right _ _
    · rw [hrefreshed.duration]
      simp only
      omega
    · exact le_rfl
    · intro _
      rfl
    · refine ⟨h.now, ?_, fun _ => by simp⟩
      rw [hrefreshed.updated, lastTimeRewardApplicable, hnow]
  | advance seconds lpToken system =>
    obtain ⟨updated, hupdated, hpassed⟩ := ht.updated
    have hstaked := ht.staked
    refine ⟨ht.accounted, ht.reward, ht.clock, ht.rewarded, hstaked.trans (Nat.le_add_right _ _),
      fun hempty => ?_, updated, hupdated, fun hstake => ?_⟩
    · simp only at hempty ⊢
      rw [if_pos hempty, ht.idle hempty, add_zero]
    · have hpassed := hpassed hstake
      simp only at hstake ⊢
      rw [if_neg hstake]
      omega

theorem Occurs.timed (hh : Occurs d h) : h.Timed d := by
  obtain ⟨h₀, hinit, hrun⟩ := hh
  induction hrun with
  | refl => exact hinit.timed
  | tail _ hstep ih => exact ih.step hstep

/-- What the pool paid with what everybody could claim is at most the rate times the seconds
in which something was staked, capped at the duration, and so at most the reward. The seconds
rewarded so far and those that are left add up to the duration. -/
theorem lpRewards_within_budget (hh : Occurs d h) (hnow : block.timestamp = h.now) :
    h.state.pool.paid + ∑ a, Outcome.amount (earned block a h.state.pool) ≤
        h.state.pool.rewardRate * min h.stakedTime h.state.pool.duration ∧
      h.state.pool.rewardRate * min h.stakedTime h.state.pool.duration ≤
        d.getLpRewardsEntitlement ∧
      h.state.pool.lastUpdateTime ≤ h.state.pool.periodFinish ∧
      min h.stakedTimeAtUpdate h.state.pool.duration +
        (h.state.pool.periodFinish - h.state.pool.lastUpdateTime) = h.state.pool.duration := by
  have ht := hh.timed
  have hearned := @Accounted.earned_le block _ _ ht.accounted
  rw [ht.secondsSince hnow] at hearned
  exact ⟨hearned, (Nat.mul_le_mul_left _ (Nat.min_le_right _ _)).trans ht.reward, ht.clock,
    ht.rewarded⟩

/-- A plain ERC20 token. -/
structure ERC20 where
  balances : Address → ℕ
  allowances : Address → Address → ℕ

namespace ERC20

def _transfer (sender recipient : Address) (amount : ℕ) (t : ERC20) : Outcome ERC20 := do
  let senderBalance ← SafeMath.sub (t.balances sender) amount
  let balances := Function.update t.balances sender senderBalance
  let recipientBalance ← SafeMath.add (balances recipient) amount
  return { t with balances := Function.update balances recipient recipientBalance }

def transferFrom (caller sender recipient : Address) (amount : ℕ) (t : ERC20) :
    Outcome ERC20 := do
  let t ← _transfer sender recipient amount t
  let allowance ← SafeMath.sub (t.allowances sender caller) amount
  let granted := Function.update (t.allowances sender) caller allowance
  return { t with allowances := Function.update t.allowances sender granted }

end ERC20

/-- A test deployment, with the pool at address 20 and its LP token at address 21. -/
def testPool : LPDeployment ERC20 where
  toDeployment := testnet
  rskSwapPool := 20
  lpToken := ⟨ERC20.transferFrom, ERC20._transfer⟩
  isContract := fun a => decide (a ∈ [10, 20, 21])
  getLpRewardsEntitlement := 1000

/-- A call of an account, or a wait. -/
inductive Event where
  | call (msgSender : Address) (c : Call)
  | wait (seconds : ℕ)

def play (d : LPDeployment T) : List Event → History T → Outcome (History T)
  | [], h => return h
  | .call msgSender c :: events, h => do
    let s ← perform d ⟨h.now, fun _ => none⟩ msgSender c h.state
    play d events { h with state := s, stakedTimeAtUpdate := h.stakedTime }
  | .wait seconds :: events, h =>
    play d events { h with
      now := h.now + seconds
      stakedTime := h.stakedTime + if h.state.pool.totalSupply = 0 then 0 else seconds }

theorem play_steps {events : List Event} (hplay : play d events h = .ok h') :
    Relation.ReflTransGen (HistoryStep d) h h' := by
  induction events generalizing h with
  | nil =>
    obtain rfl := pure_ok.mp hplay
    exact .refl
  | cons event events ih =>
    cases event with
    | call msgSender c =>
      simp only [play, bind_ok] at hplay
      obtain ⟨s, hcall, hplay⟩ := hplay
      have hnow : (⟨h.now, fun _ => none⟩ : Block).timestamp = h.now := rfl
      exact .head (.call hnow hcall) (ih hplay)
    | wait seconds => exact .head (.advance h seconds h.state.lpToken h.state.system) (ih hplay)

/-- The parameters are set and something happens. -/
def playFrom (d : LPDeployment T) (owner rskSwapTokenAddress : Address) (duration : ℕ)
    (events : List Event) (lpToken : T) (system : State) : Outcome (History T) := do
  let s ← setParams d ⟨0, fun _ => none⟩ owner d.mpToken rskSwapTokenAddress duration
    ⟨deployed owner, lpToken, system⟩
  play d events ⟨0, s, 0, 0⟩

theorem playFrom_occurs {owner rskSwapTokenAddress : Address} {duration : ℕ}
    {events : List Event} {lpToken : T} {system : State}
    (hplay : playFrom d owner rskSwapTokenAddress duration events lpToken system = .ok h) :
    Occurs d h := by
  unfold playFrom at hplay
  simp only [bind_ok] at hplay
  obtain ⟨s, hset, hplay⟩ := hplay
  exact ⟨_, ⟨_, _, _, _, _, _, _, _, hset, rfl, rfl, rfl⟩, play_steps hplay⟩

/-- A first staker after ten idle seconds, an idle gap, and a staker who stays past the end. -/
theorem lpRewards_within_budget_run : ∃ h : History ERC20, Occurs testPool h ∧
    h.state.pool.paid = 300 ∧
    h.state.pool.paid + ∑ a, Outcome.amount (earned ⟨h.now, fun _ => none⟩ a h.state.pool) ≤
      h.state.pool.rewardRate * min h.stakedTime h.state.pool.duration := by
  obtain ⟨h, hplay, hpaid⟩ := @exists_of_succeeds _ (fun h => h.state.pool.paid = 300)
    (playFrom testPool 30 21 100
      [.wait 10, .call 100 (.stake 50), .wait 30, .call 100 .withdrawAndClaim, .wait 40,
        .call 101 (.stake 20), .wait 500]
      ⟨fun _ => 1000, fun _ _ => 1000⟩
      { testGenesis.state with mpToken := ⟨fun _ => 1000, fun _ => 0⟩ }) (by decide +kernel)
  have hh := playFrom_occurs hplay
  have hnow : (⟨h.now, fun _ => none⟩ : Block).timestamp = h.now := rfl
  exact ⟨h, hh, of_decide_eq_true hpaid, (lpRewards_within_budget hh hnow).1⟩

end RskSwapPool

end MoneyProtocol
