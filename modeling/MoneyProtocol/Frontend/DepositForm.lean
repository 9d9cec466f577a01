import MoneyProtocol.Frontend.Forms
import MoneyProtocol.Frontend.Watched
import MoneyProtocol.Isolation.Deposits
import MoneyProtocol.Isolation.Earnings
import MoneyProtocol.Safety.CompoundedStakes

/-!
# The deposit form and the Stability Pool

While a form is open, and while its transaction is on the way, others use the system and the
store is read again. None of this is taken for the transaction of the user, and however often
the store was read, the form shows what the transaction will make of the deposit.
-/

namespace MoneyProtocol.Sdk.Frontend

open Outcome StabilityPool StabilityDepositManager

variable {d : Deployment} {s s' s'' s₁ s₂ : State} {u tag : Address} {t : Transaction}
  {r r' : StabilityDeposit} {rs : List StabilityDeposit} {change : AmountChange}
  {state : StabilityDepositManagerState}

/-- Others cannot raise the deposit, and they cannot lower its gains. -/
theorem ReadBefore.compare (hu : d.External u) (h : ReadBefore d u (getStabilityDeposit u) r s)
    (hread' : getStabilityDeposit u s = .ok r') : changeCommitted r r' = false := by
  obtain ⟨s₀, hs₀, hread, hothers⟩ := h
  obtain ⟨hcurrent, hcollateral, hmp, hinitial, -⟩ := getStabilityDeposit_ok hread
  obtain ⟨hcurrent', hcollateral', hmp', hinitial', -⟩ := getStabilityDeposit_ok hread'
  obtain ⟨-, hguarded, hevents⟩ := others_steps hu hs₀ hothers
  obtain ⟨carry, sent, hrecorded⟩ := Recorded.of_reachable hs₀
  obtain ⟨carry', sent', hlater⟩ := hevents carry sent
  rw [changeCommitted_eq_false]
  refine ⟨?_, ?_, ?_, ?_⟩
  · rw [hinitial, hinitial', hguarded.deposit]
  · simp only [getCompoundedBPDDeposit, hguarded.deposit, hguarded.depositSnapshots]
      at hcurrent hcurrent'
    split_ifs at hcurrent hcurrent' with hzero
    · rw [← pure_ok.mp hcurrent']
      exact Nat.zero_le _
    · have hstored : Stored (s₀.stabilityPool.deposits u).initialValue
          (s₀.stabilityPool.depositSnapshots u) s₀.stabilityPool := ⟨hzero, .inl ⟨u, rfl, rfl⟩⟩
      exact (compounded_only_shrinks hrecorded hlater hstored hcurrent).2.2 _ hcurrent'
  · exact getDepositorRBTCGain_rises hguarded.toRetainsRest _ _ hcollateral hcollateral'
  · have htagged : Tagged s₀.stabilityPool := hrecorded.tagged
    exact getDepositorMPGain_rises htagged hguarded.toRetainsRest _ _ hmp hmp'

def updates (state : StabilityDepositManagerState) (rs : List StabilityDeposit) :
    StabilityDepositManagerState :=
  rs.foldl (fun state r => updateStore (some r) state) state

/-- The run lemma: the form is rebased on one reading after the other, and these fall. -/
theorem watched_form (hu : d.External u) (h : Watched d u (getStabilityDeposit u) s rs s')
    (hread : ReadBefore d u (getStabilityDeposit u) state.originalDeposit s) :
    ReadBefore d u (getStabilityDeposit u) (updates state rs).originalDeposit s' ∧
      (updates state rs).changePending = state.changePending ∧
      amounts (updates state rs) =
        (rs.map StabilityDeposit.currentBPD).foldl Edit.rebase (amounts state) ∧
      (state.originalDeposit.currentBPD :: rs.map StabilityDeposit.currentBPD).IsChain (· ≥ ·) := by
  induction h generalizing state with
  | start s => exact ⟨hread, rfl, rfl, .singleton _⟩
  | others hstep hrest ih => exact ih (hread.others hstep)
  | @update s s' r rs hnow hrest ih =>
    have hnothing := hread.compare hu hnow
    obtain ⟨-, hfalls, -⟩ := changeCommitted_eq_false.mp hnothing
    obtain ⟨horiginal, hpending, hamounts⟩ := reduce_update hnothing
    have hfresh := ReadBefore.now u (hread.reachable hu) hnow
    obtain ⟨hlast, hstill, hrebased, hchain⟩ := ih (horiginal ▸ hfresh)
    rw [horiginal] at hchain
    refine ⟨hlast, hstill.trans hpending, ?_, ?_⟩
    · rw [hamounts] at hrebased
      exact hrebased
    · exact .cons_cons hfalls hchain

/-- However often the form was told, it shows the change that was asked for, made on the deposit
that it has heard of last. -/
theorem watched_shows (hu : d.External u) (h : Watched d u (getStabilityDeposit u) s rs s')
    (hread : ReadBefore d u (getStabilityDeposit u) state.originalDeposit s) :
    (updates state rs).editedBPD = (updates state rs).originalDeposit.apply
      (state.originalDeposit.whatChanged state.editedBPD) := by
  obtain ⟨-, -, hamounts, hfalling⟩ := watched_form hu h hread
  have hrebased := hamounts.trans (Edit.rebases_of_falling hfalling)
  obtain ⟨horiginal, hedited⟩ := Prod.mk.inj hrebased
  change (updates state rs).editedBPD = applyAmount _ (amountChanged _ _)
  rw [applyAmount_amountChanged, horiginal]
  exact hedited

/-- What the buttons of the form send. -/
def StabilityDepositAction (frontendTag : Address) : AmountChange → Operation
  | .deposit depositBPD => .provideToSP depositBPD frontendTag
  | .withdraw withdrawBPD _ => .withdrawFromSP withdrawBPD

/-- Right after a deposit was written, it is worth what was written. -/
theorem currentBPD_of_written (hs : Reachable d s)
    (hsnapshots : (s.stabilityPool.deposits u).initialValue ≠ 0 → Snapshotted u s)
    (hread : getStabilityDeposit u s = .ok r) :
    r.initialBPD = (s.stabilityPool.deposits u).initialValue ∧ r.currentBPD = r.initialBPD := by
  obtain ⟨hcurrent, -, -, hinitial, -⟩ := getStabilityDeposit_ok hread
  obtain ⟨carry, sent, hrecorded⟩ := Recorded.of_reachable hs
  refine ⟨hinitial, hinitial ▸ ?_⟩
  by_cases hzero : (s.stabilityPool.deposits u).initialValue = 0
  · simp only [getCompoundedBPDDeposit, if_pos hzero] at hcurrent
    rw [hzero]
    exact (pure_ok.mp hcurrent).symm
  · exact compounded_of_level (h := ⟨s, carry, sent⟩) hrecorded.level (hsnapshots hzero) hcurrent

/-- The transaction makes of the deposit what the change makes of the last reading. All of it is
withdrawn where the amount covers the deposit. -/
theorem action_applied (hu : d.External u) (hs₁ : Reachable d s₁) (hsender : t.sender = u)
    (hoperation : t.operation = StabilityDepositAction tag change)
    (ht : transact d t s₁ = .ok s₂) (hread : getStabilityDeposit u s₁ = .ok r)
    (hread' : getStabilityDeposit u s₂ = .ok r')
    (hall : ∀ withdrawBPD, change = .withdraw withdrawBPD true → r.currentBPD ≤ withdrawBPD) :
    r'.initialBPD = r.apply (some change) ∧ r'.currentBPD = r.apply (some change) := by
  obtain ⟨hcurrent, -⟩ := getStabilityDeposit_ok hread
  have hsigned : t.Signed d := by
    rw [Transaction.Signed, hsender, hoperation]
    cases change <;> exact ⟨hu, trivial⟩
  have hs₂ : Reachable d s₂ := hs₁.step ⟨t, hsigned, ht⟩
  obtain ⟨block, sender, value, operation⟩ := t
  obtain rfl : sender = u := hsender
  cases change with
  | deposit depositBPD =>
    obtain rfl : operation = .provideToSP depositBPD tag := hoperation
    obtain ⟨p⟩ := provideToSP_provided hu (nonPayable_ok ht)
    obtain ⟨hinitial, hsame⟩ := currentBPD_of_written hs₂ (fun _ => p.snapshots) hread'
    have hcompounded : p.compounded = r.currentBPD :=
      Except.ok.inj (p.compounds.symm.trans hcurrent)
    have hmade : r'.initialBPD = r.apply (some (.deposit depositBPD)) := by
      rw [hinitial, p.deposit, hcompounded]
      rfl
    exact ⟨hmade, hsame.trans hmade⟩
  | withdraw withdrawBPD all =>
    obtain rfl : operation = .withdrawFromSP withdrawBPD := hoperation
    obtain ⟨w⟩ := withdrawFromSP_withdrawn hu (nonPayable_ok ht)
    obtain ⟨hinitial, hsame⟩ := currentBPD_of_written hs₂ w.snapshots hread'
    have hcompounded : w.compounded = r.currentBPD :=
      Except.ok.inj (w.compounds.symm.trans hcurrent)
    have hmade : r'.initialBPD = r.apply (some (.withdraw withdrawBPD all)) := by
      rw [hinitial, w.deposit, hcompounded]
      change _ = if all = true ∨ r.currentBPD ≤ withdrawBPD then 0 else r.currentBPD - withdrawBPD
      split_ifs with hcovered
      · have hle : r.currentBPD ≤ withdrawBPD := by
          rcases hcovered with hfull | hle
          · exact hall withdrawBPD (by rw [hfull])
          · exact hle
        rw [Nat.min_eq_right hle, Nat.sub_self]
      · rw [Nat.min_eq_left (Nat.le_of_not_le fun hle => hcovered (.inr hle))]
    exact ⟨hmade, hsame.trans hmade⟩

/-- A deposit that the change was made on, where others have only lowered it since, is seen to have
been changed by its owner. -/
theorem changeCommitted_of_change {original last : StabilityDeposit} {edited : Decimal}
    (hchange : original.whatChanged edited = some change)
    (hsame : last.initialBPD = original.initialBPD)
    (hle : original.currentBPD ≤ original.initialBPD)
    (hle' : last.currentBPD ≤ last.initialBPD) (hinitial : r'.initialBPD = last.apply (some change))
    (hcurrent : r'.currentBPD = last.apply (some change)) : changeCommitted last r' = true := by
  by_contra hmissed
  obtain ⟨hinitial', hcurrent', -⟩ := changeCommitted_eq_false.mp (Bool.eq_false_iff.mpr hmissed)
  rw [hinitial] at hinitial'
  rw [hcurrent] at hcurrent'
  rcases amountChanged_some hchange with ⟨depositBPD, hpos, rfl⟩ |
    ⟨withdrawBPD, all, hpos, hcovered, hall, rfl⟩
  · exact Nat.not_le.mpr (Nat.lt_add_of_pos_right hpos) hcurrent'
  · have hlowered : (if all = true ∨ last.currentBPD ≤ withdrawBPD then 0
        else last.currentBPD - withdrawBPD) = last.initialBPD := hinitial'
    split_ifs at hlowered with hgone
    · have hdeposit : 0 < last.initialBPD := hsame ▸ hpos.trans_le (hcovered.trans hle)
      exact hdeposit.ne hlowered
    · have hrest : withdrawBPD < last.currentBPD := Nat.lt_of_not_le fun h => hgone (.inr h)
      exact ((Nat.sub_lt (hpos.trans hrest) hpos).trans_le hle').ne hlowered

/-- The deposit form and the Stability Pool agree: whatever others do while the transaction of the
form is on the way, and however often the store is read, the change stays pending, and it is made on
what the deposit is worth then. If this is what the last of the readings had shown, it leaves what
the form shows, and the first reading afterwards ends the change with this amount in the form. -/
theorem deposit_as_edited (hu : d.External u) (hs : Reachable d s)
    (hread : getStabilityDeposit u s = .ok state.originalDeposit)
    (hpending : state.changePending = true)
    (hchange : state.originalDeposit.whatChanged state.editedBPD = some change)
    (hwatched : Watched d u (getStabilityDeposit u) s rs s₁)
    (hnow : getStabilityDeposit u s₁ = .ok r)
    (hsender : t.sender = u) (hoperation : t.operation = StabilityDepositAction tag change)
    (ht : transact d t s₁ = .ok s₂) (hread' : getStabilityDeposit u s₂ = .ok r') :
    (updates state rs).changePending = true ∧ r'.currentBPD = r.apply (some change) ∧
      (r.currentBPD = (updates state rs).originalDeposit.currentBPD →
        r'.currentBPD = (updates state rs).editedBPD ∧
          updateStore (some r') (updates state rs) = init r') := by
  have hbefore := ReadBefore.now u hs hread
  obtain ⟨hlast, hstill, -⟩ := watched_form hu hwatched hbefore
  have hpending₁ := hstill.trans hpending
  have hshows := watched_shows hu hwatched hbefore
  rw [hchange] at hshows
  have hothers : ReadBefore d u (getStabilityDeposit u) state.originalDeposit s₁ :=
    ⟨s, hs, hread, hwatched.others_steps⟩
  have hnothing := hothers.compare hu hnow
  obtain ⟨-, -, -, -, hle⟩ := getStabilityDeposit_ok hread
  obtain ⟨-, -, -, -, hle₁⟩ := getStabilityDeposit_ok hnow
  obtain ⟨hinitial, hcurrent⟩ := action_applied hu (hothers.reachable hu) hsender hoperation ht
    hnow hread' fun withdrawBPD hwithdraw => by
      obtain ⟨-, hfalls, -⟩ := changeCommitted_eq_false.mp hnothing
      rcases amountChanged_some hchange with ⟨depositBPD, -, rfl⟩ | ⟨_, _, -, -, hall, rfl⟩
      · cases hwithdraw
      · cases hwithdraw
        rw [hall rfl]
        exact hfalls
  refine ⟨hpending₁, hcurrent, fun hshown => ?_⟩
  -- what the form holds differs from the deposit in its gains at most
  have hmade : (updates state rs).originalDeposit.apply (some change) = r.apply (some change) :=
    congrArg (fun current => applyAmount current (some change)) hshown.symm
  obtain ⟨hinitial₀, -⟩ := changeCommitted_eq_false.mp hnothing
  obtain ⟨hinitial₁, -⟩ := changeCommitted_eq_false.mp (hlast.compare hu hnow)
  rw [← hmade] at hinitial hcurrent
  refine ⟨hcurrent.trans hshows.symm, reduce_committed hpending₁ ?_⟩
  exact changeCommitted_of_change hchange (hinitial₁.symm.trans hinitial₀) hle
    (by rw [← hshown, ← hinitial₁]; exact hle₁) hinitial hcurrent

/-- A thousand BPD more for the deposit. -/
def providesMore : Transaction :=
  ⟨testBlock 60000, 100, 0, StabilityDepositAction 0 (.deposit (1000 * 10 ^ 18))⟩

theorem deposit_as_edited_liquidation : ∃ s s₁ s₂ r r₁ r₂, Reachable testnet s ∧
    getStabilityDeposit 100 s = .ok r ∧ transact testnet liquidatesSecond s = .ok s₁ ∧
    getStabilityDeposit 100 s₁ = .ok r₁ ∧ r₁.currentBPD < r.currentBPD ∧
    transact testnet providesMore s₁ = .ok s₂ ∧ getStabilityDeposit 100 s₂ = .ok r₂ ∧
    r₂.currentBPD = (updates ⟨r, r.currentBPD + 1000 * 10 ^ 18, true⟩ [r₁]).editedBPD := by
  obtain ⟨s, s₁, hs, h, hcheck⟩ := runsThen_reachable testnet testGenesis firstProvides
    liquidatesSecond (fun s s₁ => succeeds (fun r : StabilityDeposit =>
      succeeds (fun r₁ : StabilityDeposit => decide (r₁.currentBPD < r.currentBPD) &&
        succeeds (fun s₂ => succeeds (fun _ => true) (getStabilityDeposit 100 s₂))
          (transact testnet providesMore s₁))
      (getStabilityDeposit 100 s₁)) (getStabilityDeposit 100 s)) (by decide +kernel)
  obtain ⟨r, hread, hcheck⟩ := exists_of_succeeds hcheck
  obtain ⟨r₁, hread₁, hcheck⟩ := exists_of_succeeds hcheck
  rw [Bool.and_eq_true] at hcheck
  obtain ⟨hfalls, hcheck⟩ := hcheck
  obtain ⟨s₂, hprovide, hcheck⟩ := exists_of_succeeds hcheck
  obtain ⟨r₂, hread₂, -⟩ := exists_of_succeeds hcheck
  have hother : OthersStep testnet 100 s s₁ := ⟨liquidatesSecond, by decide, by decide, h⟩
  have hwatched : Watched testnet 100 (getStabilityDeposit 100) s [r₁] s₁ :=
    .others hother (.update hread₁ (.start s₁))
  have hbefore : ReadBefore testnet 100 (getStabilityDeposit 100) r s₁ :=
    ⟨s, hs, hread, .single hother⟩
  have hchange : r.whatChanged (r.currentBPD + 1000 * 10 ^ 18) =
      some (.deposit (1000 * 10 ^ 18)) := amountChanged_add (by decide)
  have htold : (updates ⟨r, r.currentBPD + 1000 * 10 ^ 18, true⟩ [r₁]).originalDeposit = r₁ :=
    (reduce_update (hbefore.compare (by decide) hread₁)).1
  have hoperation : providesMore.operation =
      StabilityDepositAction 0 (.deposit (1000 * 10 ^ 18)) := rfl
  let form : StabilityDepositManagerState := ⟨r, r.currentBPD + 1000 * 10 ^ 18, true⟩
  have horiginal : getStabilityDeposit 100 s = .ok form.originalDeposit := hread
  have hedits : form.originalDeposit.whatChanged form.editedBPD =
      some (.deposit (1000 * 10 ^ 18)) := hchange
  obtain ⟨-, -, hedited⟩ := deposit_as_edited (by decide) hs horiginal rfl hedits hwatched hread₁
    rfl hoperation hprovide hread₂
  obtain ⟨hcurrent, -⟩ := hedited (by rw [htold])
  exact ⟨s, s₁, s₂, r, r₁, r₂, hs, hread, h, hread₁, of_decide_eq_true hfalls, hprovide, hread₂,
    hcurrent⟩

end MoneyProtocol.Sdk.Frontend
