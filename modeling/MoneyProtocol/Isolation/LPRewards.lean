import MoneyProtocol.Safety.LPRewards

/-!
# What a liquidity provider has earned

The reward per token at a given time does not depend on which calls have been made by then: a
call only writes down what has come up so far. So neither time nor the calls of others take
anything from what an account has earned.
-/

namespace MoneyProtocol.RskSwapPool

open Outcome

variable {T : Type} {d : LPDeployment T} {block block' : Block} {p p' : RskSwapPool}
  {s s' : LPState T} {h h' h'' : History T} {a u : Address} {amount now later r r' : ℕ}

/-- The reward per token at the time `now`, where nothing overflows. -/
def perTokenAt (now : ℕ) (p : RskSwapPool) : ℕ :=
  if p.totalSupply = 0 then p.rewardPerTokenStored
  else p.rewardPerTokenStored +
    (min now p.periodFinish - p.lastUpdateTime) * p.rewardRate * DECIMAL_PRECISION / p.totalSupply

theorem rewardPerToken_eq (h : rewardPerToken block p = .ok r) :
    r = perTokenAt block.timestamp p := by
  unfold rewardPerToken at h
  unfold perTokenAt
  split_ifs at h ⊢
  · exact (pure_ok.mp h).symm
  · simp only [bind_ok, SafeMath.sub_ok, SafeMath.mul_ok, SafeMath.div_ok, SafeMath.add_ok] at h
    obtain ⟨_, ⟨-, rfl⟩, _, ⟨-, rfl⟩, _, ⟨-, rfl⟩, _, ⟨-, rfl⟩, -, rfl⟩ := h
    rfl

theorem perTokenAt_mono (hle : now ≤ later) : perTokenAt now p ≤ perTokenAt later p := by
  unfold perTokenAt
  split_ifs
  · exact le_rfl
  · gcongr

theorem le_perTokenAt (h : r ≤ p.rewardPerTokenStored) : r ≤ perTokenAt now p := by
  unfold perTokenAt
  split_ifs
  · exact h
  · exact h.trans (Nat.le_add_right _ _)

/-- Right after an update the stored value is up to date. -/
theorem perTokenAt_updated (h : p.lastUpdateTime = min now p.periodFinish) :
    perTokenAt now p = p.rewardPerTokenStored := by
  unfold perTokenAt
  rw [h]
  simp

/-- The account of `u` is as it was, and a token earns no less. -/
structure Entitled (u : Address) (now later : ℕ) (p p' : RskSwapPool) : Prop where
  balance : p'.balances u = p.balances u
  paid : p'.userRewardPerTokenPaid u = p.userRewardPerTokenPaid u
  rewards : p'.rewards u = p.rewards u
  perToken : perTokenAt now p ≤ perTokenAt later p'

theorem Entitled.refl (u : Address) (now : ℕ) (p : RskSwapPool) : Entitled u now now p p :=
  ⟨rfl, rfl, rfl, le_rfl⟩

theorem Entitled.trans {p'' : RskSwapPool} {latest : ℕ} (h : Entitled u now later p p')
    (h' : Entitled u later latest p' p'') : Entitled u now latest p p'' :=
  ⟨h'.balance.trans h.balance, h'.paid.trans h.paid, h'.rewards.trans h.rewards,
    h.perToken.trans h'.perToken⟩

theorem updatePeriodFinish_entitled (h : updatePeriodFinish block p = .ok p') :
    Entitled u now now p p' := by
  unfold updatePeriodFinish at h
  split_ifs at h with hempty
  · simp only [bind_ok, pure_ok] at h
    obtain ⟨_, -, _, -, _, -, rfl⟩ := h
    exact ⟨rfl, rfl, rfl, by simp [perTokenAt, hempty]⟩
  · rw [pure_ok.mp h]
    exact .refl u now _

/-- Bringing another account up to date stores what a token has earned by now. -/
theorem updateAccountReward_entitled (hu : u ≠ a)
    (h : updateAccountReward block a p = .ok p') :
    Entitled u block.timestamp block.timestamp p p' ∧
      p'.lastUpdateTime = min block.timestamp p'.periodFinish := by
  obtain ⟨perToken, reward, hper, -, rfl⟩ := updateAccountReward_ok h
  refine ⟨⟨rfl, Function.update_of_ne hu _ _, Function.update_of_ne hu _ _, ?_⟩, rfl⟩
  rw [← rewardPerToken_eq hper]
  apply le_perTokenAt
  exact le_rfl

/-- The supply may change once the stored value is up to date. -/
theorem restaked_entitled {supply balance : ℕ} (hu : u ≠ a)
    (hupdated : p.lastUpdateTime = min now p.periodFinish) :
    Entitled u now now p { p with
      totalSupply := supply
      balances := Function.update p.balances a balance } := by
  refine ⟨Function.update_of_ne hu _ _, rfl, rfl, ?_⟩
  rw [perTokenAt_updated hupdated]
  apply le_perTokenAt
  exact le_rfl

theorem setRewardPaid_entitled (hu : u ≠ a) :
    Entitled u now now p (setRewardPaid a amount p) :=
  ⟨rfl, rfl, Function.update_of_ne hu _ _, le_rfl⟩

theorem stake_entitled (hu : u ≠ a) (h : stake d block a amount s = .ok s') :
    Entitled u block.timestamp block.timestamp s.pool s'.pool := by
  simp only [stake, LPTokenWrapper.stake, bind_ok, pure_ok] at h
  obtain ⟨_, -, _, -, p₁, hfinish, p₂, hupdate, _, -, _, -, _, -, rfl⟩ := h
  obtain ⟨hentitled, hupdated⟩ := updateAccountReward_entitled hu hupdate
  exact ((updatePeriodFinish_entitled hfinish).trans hentitled).trans
    (restaked_entitled hu hupdated)

theorem withdraw_entitled (hu : u ≠ a) (h : withdraw d block a amount s = .ok s') :
    Entitled u block.timestamp block.timestamp s.pool s'.pool := by
  simp only [withdraw, LPTokenWrapper.withdraw, bind_ok, pure_ok] at h
  obtain ⟨_, -, _, -, p₁, hupdate, _, -, _, -, _, -, rfl⟩ := h
  obtain ⟨hentitled, hupdated⟩ := updateAccountReward_entitled hu hupdate
  exact hentitled.trans (restaked_entitled hu hupdated)

theorem claimReward_entitled (hu : u ≠ a) (h : claimReward d block a s = .ok s') :
    Entitled u block.timestamp block.timestamp s.pool s'.pool := by
  simp only [claimReward, bind_ok, pure_ok] at h
  obtain ⟨_, -, p₁, hfinish, p₂, hupdate, reward, -, _, -, _, -, rfl⟩ := h
  obtain ⟨hentitled, -⟩ := updateAccountReward_entitled hu hupdate
  exact ((updatePeriodFinish_entitled hfinish).trans hentitled).trans
    (setRewardPaid_entitled hu)

theorem perform_entitled {c : Call} (hu : u ≠ a) (h : perform d block a c s = .ok s') :
    Entitled u block.timestamp block.timestamp s.pool s'.pool := by
  cases c with
  | stake amount => exact stake_entitled hu h
  | withdraw amount => exact withdraw_entitled hu h
  | claimReward => exact claimReward_entitled hu h
  | withdrawAndClaim =>
    simp only [perform, withdrawAndClaim, bind_ok] at h
    obtain ⟨s₁, hwithdraw, hclaim⟩ := h
    exact (withdraw_entitled hu hwithdraw).trans (claimReward_entitled hu hclaim)

/-- A step of a history that is not a call of `u`. -/
inductive OthersStep (d : LPDeployment T) (u : Address) : History T → History T → Prop
  | call {h : History T} {block : Block} {msgSender : Address} {c : Call} {s' : LPState T}
      (hne : u ≠ msgSender) (hnow : block.timestamp = h.now)
      (hcall : perform d block msgSender c h.state = .ok s') :
      OthersStep d u h { h with state := s', stakedTimeAtUpdate := h.stakedTime }
  | advance (h : History T) (seconds : ℕ) (lpToken : T) (system : State) :
      OthersStep d u h { h with
        now := h.now + seconds
        state := { h.state with lpToken := lpToken, system := system }
        stakedTime := h.stakedTime + if h.state.pool.totalSupply = 0 then 0 else seconds }

theorem OthersStep.step (hstep : OthersStep d u h h') : HistoryStep d h h' := by
  cases hstep with
  | call _ hnow hcall => exact .call hnow hcall
  | advance seconds lpToken system => exact .advance h seconds lpToken system

theorem OthersStep.entitled (hstep : OthersStep d u h h') :
    Entitled u h.now h'.now h.state.pool h'.state.pool := by
  cases hstep with
  | call hne hnow hcall =>
    have hentitled := perform_entitled hne hcall
    rw [hnow] at hentitled
    exact hentitled
  | advance seconds lpToken system =>
    exact ⟨rfl, rfl, rfl, perTokenAt_mono (Nat.le_add_right _ _)⟩

theorem others_steps (hrun : Relation.ReflTransGen (OthersStep d u) h h') :
    Entitled u h.now h'.now h.state.pool h'.state.pool := by
  induction hrun with
  | refl => exact .refl u _ _
  | tail _ hstep ih => exact ih.trans hstep.entitled

/-- Whatever others do and however much time passes, the stake of an account stays what it is,
and what it can claim does not fall. -/
theorem lp_earned_never_falls (hrun : Relation.ReflTransGen (OthersStep d u) h h')
    (hnow : block.timestamp = h.now) (hlater : block'.timestamp = h'.now)
    (hr : earned block u h.state.pool = .ok r) (hr' : earned block' u h'.state.pool = .ok r') :
    h'.state.pool.balances u = h.state.pool.balances u ∧ r ≤ r' := by
  have hentitled := others_steps hrun
  refine ⟨hentitled.balance, ?_⟩
  have hperToken := hentitled.perToken
  simp only [earned, hentitled.balance, hentitled.paid, hentitled.rewards, bind_ok,
    SafeMath.sub_ok, SafeMath.mul_ok, SafeMath.div_ok, SafeMath.add_ok] at hr hr'
  obtain ⟨_, hper, _, ⟨-, rfl⟩, _, ⟨-, rfl⟩, _, ⟨-, rfl⟩, -, rfl⟩ := hr
  obtain ⟨_, hper', _, ⟨-, rfl⟩, _, ⟨-, rfl⟩, _, ⟨-, rfl⟩, -, rfl⟩ := hr'
  rw [← hnow, ← hlater, ← rewardPerToken_eq hper, ← rewardPerToken_eq hper'] at hperToken
  gcongr

/-- Two accounts stake; while the second one comes and goes the first keeps earning. -/
theorem lp_earned_never_falls_claim : ∃ (h h' : History ERC20) (r r' : ℕ), Occurs testPool h ∧
    earned ⟨h.now, fun _ => none⟩ 100 h.state.pool = .ok r ∧
    earned ⟨h'.now, fun _ => none⟩ 100 h'.state.pool = .ok r' ∧ 0 < r ∧ r ≤ r' := by
  obtain ⟨h, hplay, hcheck⟩ := @exists_of_succeeds _ (fun h =>
      succeeds (fun r => decide (0 < r)) (earned ⟨h.now, fun _ => none⟩ 100 h.state.pool) &&
      succeeds (fun s' => succeeds (fun _ => true)
        (earned ⟨h.now, fun _ => none⟩ 100 s'.pool))
        (perform testPool ⟨h.now, fun _ => none⟩ 101 .withdrawAndClaim h.state))
    (playFrom testPool 30 21 100 [.call 100 (.stake 50), .call 101 (.stake 20), .wait 40]
      ⟨fun _ => 1000, fun _ _ => 1000⟩
      { testGenesis.state with mpToken := ⟨fun _ => 1000, fun _ => 0⟩ }) (by decide +kernel)
  obtain ⟨hbefore, hafter⟩ := Bool.and_eq_true_iff.mp hcheck
  obtain ⟨r, hr, hpos⟩ := exists_of_succeeds hbefore
  obtain ⟨s', hcall, hafter⟩ := exists_of_succeeds hafter
  obtain ⟨r', hr', -⟩ := exists_of_succeeds hafter
  have hothers : OthersStep testPool 100 h { h with
      state := s', stakedTimeAtUpdate := h.stakedTime } := .call (by decide) rfl hcall
  have hrises := lp_earned_never_falls (.single hothers) rfl rfl hr hr'
  exact ⟨h, { h with state := s', stakedTimeAtUpdate := h.stakedTime }, r, r',
    playFrom_occurs hplay, hr, hr', of_decide_eq_true hpos, hrises.2⟩

end MoneyProtocol.RskSwapPool
