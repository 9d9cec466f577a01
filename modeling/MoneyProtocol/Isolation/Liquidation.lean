import MoneyProtocol.Safety.Trackers
import MoneyProtocol.Safety.Surplus

/-!
# Which vaults a liquidation may close

A loop that starts in Normal Mode closes vaults below the minimum ratio only. One that starts
in Recovery Mode may go on to a vault above it, as long as its own trackers still say that the
system is in Recovery Mode and what is left in the Stability Pool covers the whole debt. No
vault changes in a loop before it is closed, so what the loop reads of it is what the
transaction found.
-/

namespace MoneyProtocol

open Outcome MoneypMath MoneypBase Book VaultManager

variable {d : Deployment} {s s' : State} {block : Block} {a u : Address} {price : ℕ}
  {xs : List Address}

/-- The collateral ratio of a vault with its pending rewards. -/
def Book.ICR (price : ℕ) (b : Book) (u : Address) : ℕ :=
  collRatio (b.entireColl u) (b.entireDebt u) price

/-- The vault may be liquidated at `price`: it is under the minimum ratio, or the system is in
Recovery Mode, the vault is under the critical ratio and the Stability Pool covers its debt. -/
def State.Liquidatable (price : ℕ) (s : State) (u : Address) : Prop :=
  s.book.ICR price u < MCR ∨
    s.TCR price < CCR ∧ s.book.ICR price u < CCR ∧
      s.book.entireDebt u ≤ s.stabilityPool.totalBPDDeposits

instance (s : State) : Decidable (s.Liquidatable price u) :=
  inferInstanceAs (Decidable (_ ∨ _))

theorem Book.Untouched.ICR {b b' : Book} (h : Untouched b b' u) :
    b'.ICR price u = b.ICR price u := by
  unfold Book.ICR
  rw [h.entireColl, h.entireDebt]

namespace VaultManager

variable {collLeft : ℕ → LiquidationValues → Outcome ℕ} {l l' : LiquidationLoop}

/-- One liquidation of a loop that started in Recovery Mode or not, with the mode it is in:
the trackers are used until the loop is back to Normal Mode. -/
inductive ModeStep (collLeft : ℕ → LiquidationValues → Outcome ℕ) (d : Deployment) (price : ℕ)
    (recovery : Bool) (l l' : LiquidationLoop) : Prop
  | tally {user : Address} {ICR : ℕ} (hICR : getCurrentICR user price l.state = .ok ICR)
      (hlt : ICR < MCR) (h : liquidateAndTally d user l = .ok l')
  | track {user : Address} {ICR : ℕ} (hstart : recovery = true)
      (hmode : l.backToNormalMode = false)
      (hICR : getCurrentICR user price l.state = .ok ICR)
      (h : liquidateAndTrack collLeft d price user ICR l = .ok l')

abbrev ModeSteps (collLeft : ℕ → LiquidationValues → Outcome ℕ) (d : Deployment) (price : ℕ)
    (recovery : Bool) : LiquidationLoop → LiquidationLoop → Prop :=
  Relation.ReflTransGen (ModeStep collLeft d price recovery)

theorem ModeStep.loopStep {recovery : Bool} (h : ModeStep collLeft d price recovery l l') :
    LoopStep collLeft d price l l' := by
  cases h with
  | tally hICR hlt h => exact .tally hICR hlt h
  | track _ _ hICR h => exact .track hICR h

theorem sequenceStep_RecoveryMode_mode {user : Address}
    (h : sequenceStep_RecoveryMode d price user l = .ok (some l')) :
    ModeStep sequenceCollLeft d price true l l' := by
  simp only [sequenceStep_RecoveryMode, bind_ok] at h
  obtain ⟨ICR, hICR, h⟩ := h
  split_ifs at h with hmode hskip hlt
  · exact absurd (pure_ok.mp h) (Option.some_ne_none l').symm
  · obtain ⟨l₁, hl₁, hsome⟩ := map_ok.mp h
    obtain rfl := Option.some.inj hsome
    exact .track rfl (Bool.not_eq_true' _ |>.mp hmode) hICR hl₁
  · obtain ⟨l₁, hl₁, hsome⟩ := map_ok.mp h
    obtain rfl := Option.some.inj hsome
    exact .tally hICR hlt hl₁
  · exact absurd (pure_ok.mp h) (Option.some_ne_none l').symm

theorem liquidateVaultsSequence_RecoveryMode_modes {firstUser : Address} {n : ℕ} {user : Address}
    (h : liquidateVaultsSequence_RecoveryMode d price firstUser n user l = .ok l') :
    ModeSteps sequenceCollLeft d price true l l' := by
  induction n generalizing user l with
  | zero =>
    obtain rfl := pure_ok.mp h
    exact .refl
  | succ n ih =>
    simp only [liquidateVaultsSequence_RecoveryMode] at h
    split_ifs at h
    · obtain rfl := pure_ok.mp h
      exact .refl
    · simp only [bind_ok] at h
      obtain ⟨r, hr, h⟩ := h
      cases r with
      | none =>
        obtain rfl := pure_ok.mp h
        exact .refl
      | some l₁ => exact .head (sequenceStep_RecoveryMode_mode hr) (ih h)

theorem batchStep_RecoveryMode_mode {user : Address}
    (h : batchStep_RecoveryMode d price user l = .ok l') :
    l' = l ∨ ModeStep batchCollLeft d price true l l' := by
  rw [batchStep_RecoveryMode] at h
  by_cases hactive : (l.state.vault user).status ≠ .active
  · rw [if_pos hactive] at h
    exact .inl (pure_ok.mp h).symm
  rw [if_neg hactive] at h
  simp only [bind_ok] at h
  obtain ⟨ICR, hICR, h⟩ := h
  split_ifs at h with hmode hskip hlt
  · exact .inl (pure_ok.mp h).symm
  · exact .inr (.track rfl (Bool.not_eq_true' _ |>.mp hmode) hICR h)
  · exact .inr (.tally hICR hlt h)
  · exact .inl (pure_ok.mp h).symm

theorem batchLiquidate_RecoveryMode_modes {users : List Address}
    (h : batchLiquidate_RecoveryMode d price users l = .ok l') :
    ModeSteps batchCollLeft d price true l l' := by
  induction users generalizing l with
  | nil =>
    obtain rfl := pure_ok.mp h
    exact .refl
  | cons user users ih =>
    simp only [batchLiquidate_RecoveryMode, bind_ok] at h
    obtain ⟨l₁, hl₁, h⟩ := h
    rcases batchStep_RecoveryMode_mode hl₁ with rfl | hstep
    · exact ih h
    · exact .head hstep (ih h)

theorem liquidateVaultsSequence_NormalMode_modes {n : ℕ}
    (h : liquidateVaultsSequence_NormalMode d price n l = .ok l') :
    ModeSteps collLeft d price false l l' := by
  induction n generalizing l with
  | zero =>
    obtain rfl := pure_ok.mp h
    exact .refl
  | succ n ih =>
    simp only [liquidateVaultsSequence_NormalMode, bind_ok] at h
    obtain ⟨ICR, hICR, h⟩ := h
    split_ifs at h with hlt
    · simp only [bind_ok] at h
      obtain ⟨l₁, hl₁, h⟩ := h
      exact .head (.tally hICR hlt hl₁) (ih h)
    · obtain rfl := pure_ok.mp h
      exact .refl

theorem batchLiquidate_NormalMode_modes {users : List Address}
    (h : batchLiquidate_NormalMode d price users l = .ok l') :
    ModeSteps collLeft d price false l l' := by
  induction users generalizing l with
  | nil =>
    obtain rfl := pure_ok.mp h
    exact .refl
  | cons user users ih =>
    simp only [batchLiquidate_NormalMode, bind_ok, ite_pure_ok] at h
    obtain ⟨ICR, hICR, l₁, ⟨hlt, hl₁⟩ | ⟨-, rfl⟩, h⟩ := h
    · exact .head (.tally hICR hlt hl₁) (ih h)
    · exact ih h

/-- The trackers of a loop that started in Recovery Mode say so until it is back. -/
def InMode (price : ℕ) (recovery : Bool) (l : LiquidationLoop) : Prop :=
  recovery = true → InRecovery price l

theorem ModeStep.inMode {recovery : Bool} (h : ModeStep collLeft d price recovery l l')
    (hl : InMode price recovery l) : InMode price recovery l' := by
  intro hstart
  cases h with
  | tally _ _ h =>
    obtain ⟨hmode, hcoll, hdebt⟩ := liquidateAndTally_mode h
    unfold InRecovery
    rw [hmode, hcoll, hdebt]
    exact hl hstart
  | track _ _ _ h => exact liquidateAndTrack_inRecovery h

/-- What the step of a loop finds of the vault that it closes. -/
def Closable (price : ℕ) (recovery : Bool) (l : LiquidationLoop) (a : Address) : Prop :=
  l.state.book.ICR price a < MCR ∨
    recovery = true ∧ l.state.book.ICR price a < CCR ∧
      l.state.book.entireDebt a ≤ l.remainingBPDInStabPool

theorem ModeStep.closes {recovery : Bool} (hxs : l.state.book.Registry xs)
    (hmode : InMode price recovery l) (h : ModeStep collLeft d price recovery l l') :
    l'.state = l.state ∨ ∃ a, Closable price recovery l a ∧
      Closes (liquidationSurplus price) .closedByLiquidation l.state l'.state a := by
  cases h with
  | @tally user ICR hICR hlt h =>
    obtain ⟨_, hv, -⟩ := liquidateAndTally_ok h
    refine .inr ⟨user, .inl ?_, liquidateNormalMode_closes hxs hICR hlt hv⟩
    rw [Book.ICR, getCurrentICR_collRatio hICR]
    exact hlt
  | @track user ICR hstart hback hICR h =>
    obtain ⟨TCR, v, hTCR, hv, -⟩ := liquidateAndTrack_ok h
    refine (liquidateRecoveryMode_closes hxs hICR hv).imp_right fun hcloses => ⟨user, ?_, hcloses⟩
    have hratio : l.state.book.ICR price user = ICR := getCurrentICR_collRatio hICR
    have hbelow : TCR < CCR := by
      rw [← computeCR_ok hTCR]
      exact hmode hstart hback
    obtain ⟨-, ⟨-, hsame, -⟩ | ⟨-, hlow, -⟩ | ⟨-, -, hless, hpool, -⟩⟩ :=
      liquidateRecoveryMode_values hv
    · -- a vault that is spared is not closed
      exfalso
      have hstatus := hcloses.status
      rw [hsame, hcloses.active] at hstatus
      cases hstatus
    · exact .inl (hratio ▸ hlow)
    · exact .inr ⟨hstart, hratio ▸ hless.trans hbelow, hpool⟩

/-- What has become of the vault of `u` at an iteration of a loop that started in `s`. -/
inductive LoopFate (price : ℕ) (s : State) (l : LiquidationLoop) (u : Address) : Prop
  | kept (h : Untouched s.book l.state.book u)
  | closed (hactive : s.Active u) (h : (l.state.vault u).status = .closedByLiquidation)
      (hfair : s.Liquidatable price u)

/-- What holds at every iteration of a loop that started in `s`. -/
structure LoopInvariant (d : Deployment) (price : ℕ) (recovery : Bool) (s : State)
    (l : LiquidationLoop) : Prop where
  registry : ∃ xs, l.state.book.Registry xs
  mode : InMode price recovery l
  tallied : Tallied d s l
  fates : ∀ u, LoopFate price s l u

theorem LoopFate.of_untouched {l₁ : LiquidationLoop} (h : LoopFate price s l u)
    (hsame : Untouched l.state.book l₁.state.book u) : LoopFate price s l₁ u := by
  cases h with
  | kept h => exact .kept (h.trans hsame)
  | closed hactive h hfair => exact .closed hactive (hsame.status.trans h) hfair

/-- The vault that a step closes had not been touched before. -/
theorem LoopInvariant.closes {recovery : Bool} (hrecovery : recovery = true → s.TCR price < CCR)
    (hl : LoopInvariant d price recovery s l) (hfair : Closable price recovery l a)
    (hcloses : Closes (liquidationSurplus price) .closedByLiquidation l.state l'.state a)
    (u : Address) :
    LoopFate price s l' u := by
  by_cases hu : u = a
  · subst hu
    cases hl.fates u with
    | closed _ hstatus =>
      have hactive := hcloses.active
      rw [State.Active, hstatus] at hactive
      cases hactive
    | kept h =>
      have hactive : s.Active u := h.status.symm.trans hcloses.active
      refine .closed hactive hcloses.status ?_
      rw [Closable, h.ICR, h.entireDebt] at hfair
      rcases hfair with hless | ⟨hstart, hless, hpool⟩
      · exact .inl hless
      · have hsum := hl.tallied.remaining
        refine .inr ⟨hrecovery hstart, hless, ?_⟩
        omega
  · exact (hl.fates u).of_untouched (hcloses.others u hu)

theorem LoopInvariant.step {recovery : Bool} (hrecovery : recovery = true → s.TCR price < CCR)
    (hl : LoopInvariant d price recovery s l) (h : ModeStep collLeft d price recovery l l') :
    LoopInvariant d price recovery s l' := by
  obtain ⟨xs, hxs⟩ := hl.registry
  refine ⟨hxs.moves (h.loopStep.moves (P := .any)), h.inMode hl.mode,
    h.loopStep.tallied hl.tallied, ?_⟩
  rcases h.closes hxs hl.mode with hsame | ⟨a, hfair, hcloses⟩
  · intro u
    apply (hl.fates u).of_untouched
    rw [hsame]
    exact .refl _ _
  · exact hl.closes hrecovery hfair hcloses

theorem LoopInvariant.steps {recovery : Bool} (hrecovery : recovery = true → s.TCR price < CCR)
    (hl : LoopInvariant d price recovery s l) (h : ModeSteps collLeft d price recovery l l') :
    LoopInvariant d price recovery s l' := by
  induction h with
  | refl => exact hl
  | tail _ hstep ih => exact ih.step hrecovery hstep

theorem startLoop_invariant {recovery : Bool} (hxs : s.book.Registry xs)
    (hmode : checkRecoveryMode price s = .ok recovery) (hstart : startLoop recovery s = .ok l) :
    LoopInvariant d price recovery s l := by
  obtain ⟨htallied, hstate⟩ := startLoop_tallied hstart (d := d)
  constructor
  · rw [hstate]
    exact ⟨xs, hxs⟩
  · intro htrue
    subst htrue
    exact (startLoop_faithful hmode hstart).2
  · exact htallied
  · intro u
    rw [← hstate]
    exact .kept (.refl _ _)

/-- Both functions run a loop of steps in the mode that they find. -/
theorem getTotalsFromLiquidateVaultsSequence_modes {recovery : Bool} {n : ℕ}
    (h : getTotalsFromLiquidateVaultsSequence d recovery price n s = .ok l') :
    ∃ l, startLoop recovery s = .ok l ∧ ModeSteps sequenceCollLeft d price recovery l l' := by
  simp only [getTotalsFromLiquidateVaultsSequence, bind_ok] at h
  obtain ⟨l, hl, h⟩ := h
  refine ⟨l, hl, ?_⟩
  cases recovery with
  | true => exact liquidateVaultsSequence_RecoveryMode_modes h
  | false => exact liquidateVaultsSequence_NormalMode_modes h

theorem getTotalsFromBatchLiquidate_modes {recovery : Bool} {users : List Address}
    (h : getTotalsFromBatchLiquidate d recovery price users s = .ok l') :
    ∃ l, startLoop recovery s = .ok l ∧ ModeSteps batchCollLeft d price recovery l l' := by
  simp only [getTotalsFromBatchLiquidate, bind_ok] at h
  obtain ⟨l, hl, h⟩ := h
  refine ⟨l, hl, ?_⟩
  cases recovery with
  | true => exact batchLiquidate_RecoveryMode_modes h
  | false => exact batchLiquidate_NormalMode_modes h

theorem loop_fate {recovery : Bool} {l₀ : LiquidationLoop} (hxs : s.book.Registry xs)
    (hmode : checkRecoveryMode price s = .ok recovery) (hstart : startLoop recovery s = .ok l₀)
    (h : ModeSteps collLeft d price recovery l₀ l) (u : Address) : LoopFate price s l u := by
  refine ((startLoop_invariant (d := d) hxs hmode hstart).steps (fun htrue => ?_) h).fates u
  exact of_decide_eq_true ((checkRecoveryMode_ok hmode).symm.trans htrue)

end VaultManager

end MoneyProtocol
