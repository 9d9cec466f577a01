import MoneyProtocol.Frontend.Forms
import MoneyProtocol.Frontend.Watched
import MoneyProtocol.Isolation.Earnings

/-!
# The stake form and MPStaking

The view of a stake waits for the transaction of the user. What others earn for the stake is not
taken for it, and when it has been mined the stake is what the form showed.
-/

namespace MoneyProtocol.Sdk.Frontend

open Outcome MPStaking

variable {d : Deployment} {s s' s₁ s₂ s₃ : State} {block : Block} {u : Address} {t : Transaction}
  {m m' : MPStake} {ms : List MPStake} {change : AmountChange} {amount : ℕ}
  {form : StakeManagerState} {provider : StakingViewProviderState}

theorem stakeCommitted_eq_false {old updated : MPStake} :
    StakingViewProvider.changeCommitted old updated = false ↔
      updated.stakedMP = old.stakedMP ∧ old.collateralGain ≤ updated.collateralGain ∧
        old.bpdGain ≤ updated.bpdGain := by
  simp [StakingViewProvider.changeCommitted, and_assoc]

/-- Others cannot touch the stake, and its gains only grow. -/
theorem ReadBefore.compare_stake (hu : d.External u)
    (h : ReadBefore d u (getMPStake u) m s) (hread' : getMPStake u s = .ok m') :
    StakingViewProvider.changeCommitted m m' = false := by
  obtain ⟨s₀, hs₀, hread, hothers⟩ := h
  obtain ⟨hstake, hcollateral, hbpd⟩ := getMPStake_ok hread
  obtain ⟨hstake', hcollateral', hbpd'⟩ := getMPStake_ok hread'
  obtain ⟨-, hguarded, -⟩ := others_steps hu hs₀ hothers
  have hkept := hguarded.toRetainsRest
  rw [stakeCommitted_eq_false, hstake, hstake', hguarded.stake]
  exact ⟨rfl, getPendingRBTCGain_rises hkept _ _ hcollateral hcollateral',
    getPendingBPDGain_rises hkept _ _ hbpd hbpd'⟩

/-- What was read of the stake still stands. -/
theorem ReadBefore.staked (hu : d.External u) (h : ReadBefore d u (getMPStake u) m s) :
    m.stakedMP = s.mpStaking.stakes u := by
  obtain ⟨s₀, hs₀, hread, hothers⟩ := h
  obtain ⟨-, hguarded, -⟩ := others_steps hu hs₀ hothers
  rw [(getMPStake_ok hread).1, hguarded.stake]

/-- The store tells the view what it held before, which is what it told it last. -/
def told (provider : StakingViewProviderState) (ms : List MPStake) : StakingViewProviderState :=
  ms.foldl (fun provider m =>
    StakingViewProvider.reduce provider (.updateStore provider.mpStake (some m))) provider

/-- The run lemma: a pending change stays pending. -/
theorem watched_view (hu : d.External u) (h : Watched d u (getMPStake u) s ms s')
    (hread : ReadBefore d u (getMPStake u) provider.mpStake s) :
    ReadBefore d u (getMPStake u) (told provider ms).mpStake s' ∧
      (told provider ms).changePending = provider.changePending := by
  induction h generalizing provider with
  | start s => exact ⟨hread, rfl⟩
  | others hstep hrest ih => exact ih (hread.others hstep)
  | @update s s' m ms hnow hrest ih =>
    have hnothing := hread.compare_stake hu hnow
    have hfresh := ReadBefore.now u (hread.reachable hu) hnow
    have hstill : (StakingViewProvider.reduce provider
        (.updateStore provider.mpStake (some m))).changePending = provider.changePending := by
      rw [StakingViewProvider.reduce, hnothing]
      rfl
    obtain ⟨hlast, hpending⟩ := @ih (StakingViewProvider.reduce provider
      (.updateStore provider.mpStake (some m))) hfresh
    exact ⟨hlast, hpending.trans hstill⟩

def StakingManagerAction : AmountChange → Operation
  | .deposit stakeMP => .stake stakeMP
  | .withdraw unstakeMP _ => .unstake unstakeMP

theorem sendGains_stakes {v w : ℕ} (hu : d.External u) (h : sendGains d u v w s = .ok s') :
    s'.mpStaking.stakes u = s.mpStaking.stakes u :=
  (sendGains_keeps hu h).stake

theorem stake_staked (hu : d.External u) (h : stake d block u amount s = .ok s') :
    s'.mpStaking.stakes u = s.mpStaking.stakes u + amount := by
  simp only [stake, bind_ok, ite_pure_ok, SafeMath.add_ok] at h
  obtain ⟨_, -, _, -, _, -, _, ⟨-, rfl⟩, total, -, t, hsend, h⟩ := h
  obtain ⟨-, rfl⟩ := MPToken.sendToMPStaking_move hsend
  have hset : (setStake u (s.mpStaking.stakes u + amount) total
      (updateUserSnapshots u s)).mpStaking.stakes u = s.mpStaking.stakes u + amount :=
    Function.update_self ..
  rcases h with ⟨-, hgains⟩ | ⟨-, rfl⟩
  · exact (sendGains_stakes hu hgains).trans hset
  · exact hset

theorem unstake_staked (hu : d.External u) (hpos : 0 < amount)
    (h : unstake d block u amount s = .ok s') :
    s'.mpStaking.stakes u = s.mpStaking.stakes u - min amount (s.mpStaking.stakes u) := by
  simp only [unstake, if_pos hpos, bind_ok, SafeMath.sub_ok] at h
  obtain ⟨_, -, _, -, _, -, t, ⟨newStake, ⟨-, rfl⟩, _, -, hsend⟩, hgains⟩ := h
  obtain ⟨-, rfl⟩ := MPToken.transfer_move hsend
  rw [sendGains_stakes hu hgains]
  exact Function.update_self ..

/-- The transaction makes of the stake what was entered. -/
theorem stake_applied {edited : Decimal} (hu : d.External u)
    (hchange : m.whatChanged edited = some change) (hstaked : m.stakedMP = s.mpStaking.stakes u)
    (hsender : t.sender = u) (hoperation : t.operation = StakingManagerAction change)
    (ht : transact d t s = .ok s') : s'.mpStaking.stakes u = edited := by
  have hmade : m.apply (some change) = edited := by
    rw [← hchange]
    exact (applyAmount_amountChanged _ _ _).trans (Edit.on_between _ _)
  rw [← hmade]
  obtain ⟨block, sender, value, operation⟩ := t
  obtain rfl : sender = u := hsender
  rcases amountChanged_some hchange with ⟨stakeMP, -, rfl⟩ |
    ⟨unstakeMP, all, hpos, hcovered, hall, rfl⟩
  · obtain rfl : operation = .stake stakeMP := hoperation
    rw [stake_staked hu (nonPayable_ok ht), ← hstaked]
    rfl
  · obtain rfl : operation = .unstake unstakeMP := hoperation
    rw [unstake_staked hu hpos (nonPayable_ok ht), ← hstaked, Nat.min_eq_left hcovered]
    change _ = if all = true ∨ m.stakedMP ≤ unstakeMP then 0 else m.stakedMP - unstakeMP
    split_ifs with hgone
    · exact Nat.sub_eq_zero_of_le (hgone.elim (fun h => (hall h).ge) id)
    · rfl

theorem StakingManagerAction_signed (hu : d.External u) (hsender : t.sender = u)
    (hoperation : t.operation = StakingManagerAction change) : t.Signed d := by
  rw [Transaction.Signed, hsender, hoperation]
  cases change <;> exact ⟨hu, trivial⟩

/-- The stake form and MPStaking agree: whatever others do while the transaction of the form is on
the way and until the store is read again, the view waits for it, the stake becomes what was
entered, and the first reading afterwards ends the change and closes the form. -/
theorem stake_as_edited (hu : d.External u) (hs : Reachable d s)
    (hread : getMPStake u s = .ok form.originalStake)
    (hview : provider.mpStake = form.originalStake) (hpending : provider.changePending = true)
    (hchange : form.originalStake.whatChanged form.editedMP = some change)
    (hwatched : Watched d u (getMPStake u) s ms s₁)
    (hsender : t.sender = u) (hoperation : t.operation = StakingManagerAction change)
    (ht : transact d t s₁ = .ok s₂) (hafter : Relation.ReflTransGen (OthersStep d u) s₂ s₃)
    (hread' : getMPStake u s₃ = .ok m') :
    (told provider ms).changePending = true ∧ m'.stakedMP = form.editedMP ∧
      told provider (ms ++ [m']) = StakingViewProvider.init m' := by
  have hbefore := ReadBefore.now u hs hread
  have hothers : ReadBefore d u (getMPStake u) form.originalStake s₁ :=
    ⟨s, hs, hread, hwatched.others_steps⟩
  obtain ⟨hlast, hstill⟩ := watched_view hu hwatched (hview ▸ hbefore)
  have hstaked := hothers.staked hu
  have hs₂ : Reachable d s₂ := (hothers.reachable hu).step
    ⟨t, StakingManagerAction_signed hu hsender hoperation, ht⟩
  obtain ⟨-, hguarded, -⟩ := others_steps hu hs₂ hafter
  have hmade : m'.stakedMP = form.editedMP := by
    rw [(getMPStake_ok hread').1, hguarded.stake]
    exact stake_applied hu hchange hstaked hsender hoperation ht
  refine ⟨hstill.trans hpending, hmade, ?_⟩
  have hcommitted :
      StakingViewProvider.changeCommitted (told provider ms).mpStake m' = true := by
    by_contra hmissed
    obtain ⟨hsame, -⟩ := stakeCommitted_eq_false.mp (Bool.eq_false_iff.mpr hmissed)
    rw [hlast.staked hu, ← hstaked, hmade] at hsame
    rw [hsame, MPStake.whatChanged, amountChanged_self] at hchange
    cases hchange
  unfold told at hcommitted ⊢
  rw [List.foldl_append, List.foldl_cons, List.foldl_nil, StakingViewProvider.reduce,
    if_pos hcommitted]
  rfl

/-- The first account was given MP. -/
def stakerGenesis : Genesis :=
  { testGenesis with mpToken := ⟨fun a => if a = 100 then 10 ^ 21 else 0, fun _ => 0⟩ }

/-- It stakes a part of it. -/
def firstStakes : List Transaction := [⟨testBlock 60000, 100, 0, .stake (100 * 10 ^ 18)⟩]

/-- Somebody else pays a borrowing fee. -/
def borrows (sender : Address) : Transaction :=
  ⟨testBlock 60000, sender, 5 * 10 ^ 18, .openVault (10 ^ 16) (10000 * 10 ^ 18) 0 0⟩

def stakesMore : Transaction :=
  ⟨testBlock 60000, 100, 0, StakingManagerAction (.deposit (50 * 10 ^ 18))⟩

/-- One of the others is earlier than the stake, and one is later. -/
theorem stake_as_edited_fee : ∃ s s₁ s₂ s₃ m m₁ m₃, Reachable testnet s ∧
    getMPStake 100 s = .ok m ∧ transact testnet (borrows 101) s = .ok s₁ ∧
    getMPStake 100 s₁ = .ok m₁ ∧ m.bpdGain < m₁.bpdGain ∧
    transact testnet stakesMore s₁ = .ok s₂ ∧ transact testnet (borrows 102) s₂ = .ok s₃ ∧
    getMPStake 100 s₃ = .ok m₃ ∧ m₃.stakedMP = m.stakedMP + 50 * 10 ^ 18 := by
  obtain ⟨s, s₁, hs, h, hcheck⟩ := runsThen_reachable testnet stakerGenesis firstStakes
    (borrows 101) (fun s s₁ => succeeds (fun m : MPStake =>
      succeeds (fun m₁ : MPStake => decide (m.bpdGain < m₁.bpdGain) &&
        succeeds (fun s₂ => succeeds (fun s₃ =>
          succeeds (fun _ => true) (getMPStake 100 s₃)) (transact testnet (borrows 102) s₂))
          (transact testnet stakesMore s₁))
      (getMPStake 100 s₁)) (getMPStake 100 s)) (by decide +kernel)
  obtain ⟨m, hread, hcheck⟩ := exists_of_succeeds hcheck
  obtain ⟨m₁, hread₁, hcheck⟩ := exists_of_succeeds hcheck
  rw [Bool.and_eq_true] at hcheck
  obtain ⟨hgains, hcheck⟩ := hcheck
  obtain ⟨s₂, hstake, hcheck⟩ := exists_of_succeeds hcheck
  obtain ⟨s₃, hlater, hcheck⟩ := exists_of_succeeds hcheck
  obtain ⟨m₃, hread₃, -⟩ := exists_of_succeeds hcheck
  have hother : OthersStep testnet 100 s s₁ := ⟨borrows 101, by decide, by decide, h⟩
  have hafter : OthersStep testnet 100 s₂ s₃ := ⟨borrows 102, by decide, by decide, hlater⟩
  have hwatched : Watched testnet 100 (getMPStake 100) s [m₁] s₁ :=
    .others hother (.update hread₁ (.start s₁))
  let form : StakeManagerState := ⟨m, m.stakedMP + 50 * 10 ^ 18⟩
  let provider : StakingViewProviderState := ⟨m, true, true⟩
  have horiginal : getMPStake 100 s = .ok form.originalStake := hread
  have hview : provider.mpStake = form.originalStake := rfl
  have hchange : form.originalStake.whatChanged form.editedMP =
      some (.deposit (50 * 10 ^ 18)) := amountChanged_add (by decide)
  have hoperation : stakesMore.operation = StakingManagerAction (.deposit (50 * 10 ^ 18)) := rfl
  obtain ⟨-, hstaked, -⟩ := stake_as_edited (by decide) hs horiginal hview rfl hchange hwatched
    rfl hoperation hstake (.single hafter) hread₃
  exact ⟨s, s₁, s₂, s₃, m, m₁, m₃, hs, hread, h, hread₁, of_decide_eq_true hgains, hstake, hlater,
    hread₃, hstaked⟩

end MoneyProtocol.Sdk.Frontend
