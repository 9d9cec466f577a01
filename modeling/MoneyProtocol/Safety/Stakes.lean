import MoneyProtocol.Book.Runs

/-!
# Stakes that vanish

The stake of a vault is its collateral, scaled down by the snapshots of the total stakes and
the total collateral. Every liquidation that redistributes lowers their ratio, so in the end
the stake of a small vault is rounded to zero. Runs that only set stakes for collateral that is
worth a unit of stake keep every stake positive, and the divisions by the stakes defined.
-/

namespace MoneyProtocol

open Outcome Book PointSum VaultManager

variable {d : Deployment} {s s' : State} {b b' : Book} {a : Address} {xs : List Address}
  {t : Transaction} {l : LiquidationLoop}

namespace Book

/-- Every active vault has a stake, and so had the system when the snapshots were taken. -/
structure Staked (b : Book) : Prop where
  stake : ∀ a, b.Active a → 0 < (b.vaults a).stake
  snapshot : b.totalCollateralSnapshot ≠ 0 → 0 < b.totalStakesSnapshot

/-- The collateral is worth a unit of stake. -/
def StakeWorth (totalStakesSnapshot totalCollateralSnapshot coll : ℕ) : Prop :=
  totalCollateralSnapshot ≤ coll * totalStakesSnapshot

/-- The policy of runs that set no stake to zero. -/
def Policy.keepsStakes : Policy := ⟨False, fun _ _ _ => True, StakeWorth⟩

theorem newStake_pos {coll : ℕ} (hcoll : 0 < coll) (hallowed : b.AllowsStake .keepsStakes coll) :
    0 < b.newStake coll := by
  unfold newStake
  split_ifs with hzero
  · exact hcoll
  · exact Nat.div_pos hallowed (Nat.pos_of_ne_zero hzero)

/-- Where there is a vault with a stake, the total is positive. -/
theorem Staked.totalStakes_pos (h : b.Staked) (hxs : b.Registry xs)
    (howners : 0 < b.vaultOwners.length) : 0 < b.totalStakes := by
  obtain ⟨a, ha⟩ := List.exists_mem_of_length_pos howners
  have hactive := (hxs.active a).mpr ((hxs.owners a).mp ha)
  have hpos := h.stake a hactive
  have hle := le_total Vault.stake b.vaults a
  rw [hxs.stakes]
  omega

theorem Staked.move (hxs : b.Registry xs) (h : b.Staked) (hmove : Move .keepsStakes b b') :
    b'.Staked := by
  cases hmove with
  | @opened a coll debt _ _ _ data _ hinactive hdebt _ _ _ hinsert hallowed =>
    obtain ⟨ys, zs, -, -, hregistry⟩ := hxs.opened hinactive hdebt hinsert
    have hcoll := (hregistry.funded a (by simp)).1
    simp only [Book.opened, Function.update_self] at hcoll
    refine ⟨fun u hu => ?_, h.snapshot⟩
    by_cases hua : u = a
    · subst hua
      simp only [Book.opened, Function.update_self]
      exact newStake_pos hcoll hallowed
    · simp only [Active, Book.opened, Function.update_of_ne hua] at hu ⊢
      exact h.stake u hu
  | @collected a =>
    refine ⟨fun u hu => ?_, h.snapshot⟩
    by_cases hua : u = a
    · subst hua
      simp only [Active, Book.collected, Function.update_self] at hu ⊢
      exact h.stake u hu
    · simp only [Active, Book.collected, Function.update_of_ne hua] at hu ⊢
      exact h.stake u hu
  | @restaked a coll debt _ _ _ data _ _ _ hdebt _ _ hinsert hallowed =>
    obtain ⟨as, bs, ys, zs, -, -, -, hregistry⟩ := hxs.restaked hdebt hinsert
    have hcoll := (hregistry.funded a (by simp)).1
    simp only [Book.restaked, Function.update_self] at hcoll
    refine ⟨fun u hu => ?_, h.snapshot⟩
    by_cases hua : u = a
    · subst hua
      simp only [Book.restaked, Function.update_self]
      exact newStake_pos hcoll hallowed
    · simp only [Active, Book.restaked, Function.update_of_ne hua] at hu ⊢
      exact h.stake u hu
  | @closed a moved st data hst =>
    refine ⟨fun u hu => ?_, h.snapshot⟩
    by_cases hua : u = a
    · subst hua
      obtain ⟨i, hi⟩ := @closed_self b u st moved data
      rw [Active, hi] at hu
      exact absurd hu hst
    · obtain ⟨i, hi⟩ := @closed_of_ne b a u st moved data hua
      rw [Active, hi] at hu
      rw [hi]
      exact h.stake u hu
  | redistributed => exact ⟨h.stake, h.snapshot⟩
  | snapshotted howners => exact ⟨h.stake, fun _ => h.totalStakes_pos hxs howners⟩

theorem Staked.moves (hxs : b.Registry xs) (h : b.Staked) (hmoves : Moves .keepsStakes b b') :
    b'.Staked := by
  induction hmoves with
  | refl => exact h
  | tail hmoves hmove ih =>
    obtain ⟨ys, hys⟩ := hxs.moves hmoves
    exact ih.move hys hmove

end Book

/-- The stakes are there wherever the code divides by them: a new stake can be computed, and
what a liquidation redistributes can be shared. -/
structure StakesRemain (d : Deployment) (s : State) : Prop where
  stake : ∀ a, s.Active a → 0 < (s.vault a).stake
  snapshot : s.vaultManager.totalCollateralSnapshot ≠ 0 → 0 < s.vaultManager.totalStakesSnapshot
  newStake : ∀ coll, computeNewStake coll s ≠ .error .invalid
  redistribution : ∀ (t : Transaction) (l : LiquidationLoop), t.liquidationLoop d s = .ok l →
    0 < l.totals.totalDebtInSequence →
    0 < l.state.vaultManager.totalStakes

/-- A transaction that sets a stake only for collateral that is worth a unit of stake. -/
def StakedStep (d : Deployment) (s s' : State) : Prop :=
  ∃ t : Transaction, t.Signed d ∧
    (∀ coll, t.Stakes s coll → StakeWorth s.vaultManager.totalStakesSnapshot
      s.vaultManager.totalCollateralSnapshot coll) ∧ transact d t s = .ok s'

theorem StakedStep.kept (h : StakedStep d s s') : KeptStep .keepsStakes d s s' := by
  obtain ⟨t, hsigned, hstakes, h⟩ := h
  exact ⟨t, hsigned, ⟨fun h => h.elim, fun _ _ _ => trivial, hstakes⟩, h⟩

theorem Genesis.staked (g : Genesis) : g.state.book.Staked := by
  constructor
  · intro a ha
    simp [Book.Active, State.book, Genesis.state] at ha
  · intro h
    simp [State.book, Genesis.state] at h

/-- The assertion holds if the snapshot of the stakes is positive where it is used. -/
theorem computeNewStake_ne_invalid {coll : ℕ} (hpos : s.vaultManager.totalCollateralSnapshot ≠ 0 →
    0 < s.vaultManager.totalStakesSnapshot) : computeNewStake coll s ≠ .error .invalid := by
  intro h
  unfold computeNewStake at h
  split_ifs at h with hzero
  · cases h
  · simp only [bind_error, assert, if_pos (hpos hzero)] at h
    rcases h with h | ⟨_, -, h | ⟨_, -, h⟩⟩
    · cases h
    · exact SafeMath.mul_ne_invalid h
    · exact SafeMath.div_ne_invalid h

theorem liquidationLoop_moves {P : Policy} (h : t.liquidationLoop d s = .ok l) :
    Moves P s.book l.state.book := by
  unfold Transaction.liquidationLoop at h
  split at h
  · exact batchLiquidateVaultsLoop_moves h
  · exact liquidateVaultsLoop_moves h
  · exact batchLiquidateVaultsLoop_moves h
  · contradiction

theorem liquidationLoop_owners (h : t.liquidationLoop d s = .ok l)
    (hdebt : 0 < l.totals.totalDebtInSequence) : 0 < l.state.book.vaultOwners.length := by
  unfold Transaction.liquidationLoop at h
  split at h
  · exact batchLiquidateVaultsLoop_owners h hdebt
  · exact liquidateVaultsLoop_owners h hdebt
  · exact batchLiquidateVaultsLoop_owners h hdebt
  · contradiction

/-- As long as no stake is set for collateral worth less than a unit of stake, the stakes
remain. -/
theorem stakesRemain_of_worth {g : Genesis}
    (h : Relation.ReflTransGen (StakedStep d) g.state s) : StakesRemain d s := by
  have hkept : Relation.ReflTransGen (KeptStep .keepsStakes d) g.state s :=
    Relation.ReflTransGen.mono (fun _ _ => StakedStep.kept) _ _ h
  obtain ⟨g', hmoves⟩ := KeptReachable.moves ⟨g, hkept⟩
  obtain ⟨xs, hxs⟩ := g'.registry.moves hmoves
  have hstaked := g'.staked.moves g'.registry hmoves
  refine ⟨hstaked.stake, hstaked.snapshot, ?_, ?_⟩
  · intro coll
    exact computeNewStake_ne_invalid hstaked.snapshot
  · intro t l hl hdebt
    have hloop : Moves .keepsStakes s.book l.state.book := liquidationLoop_moves hl
    obtain ⟨ys, hys⟩ := hxs.moves hloop
    exact (hstaked.moves hxs hloop).totalStakes_pos hys (liquidationLoop_owners hl hdebt)

instance {x y z : ℕ} : Decidable (StakeWorth x y z) := inferInstanceAs (Decidable (_ ≤ _))

/-- Every transaction of the run opens a vault with collateral that is worth a unit of stake, or
liquidates one. -/
def runsStaked (d : Deployment) : List Transaction → State → Bool
  | [], _ => true
  | t :: ts, s =>
    (match t.operation with
      | .openVault _ _ _ _ => decide (StakeWorth s.vaultManager.totalStakesSnapshot
          s.vaultManager.totalCollateralSnapshot ((s.vault t.sender).coll + t.value))
      | .liquidate _ => true
      | _ => false) &&
    match transact d t s with
    | .ok s => runsStaked d ts s
    | .error _ => false

theorem run_staked {ts : List Transaction} (hsigned : ∀ t ∈ ts, t.Signed d)
    (hstaked : runsStaked d ts s = true) (h : run d ts s = .ok s') :
    Relation.ReflTransGen (StakedStep d) s s' := by
  induction ts generalizing s with
  | nil =>
    obtain rfl := pure_ok.mp h
    exact .refl
  | cons t ts ih =>
    simp only [run, bind_ok] at h
    obtain ⟨s₁, hstep, h⟩ := h
    simp only [runsStaked, hstep, Bool.and_eq_true] at hstaked
    refine .head ⟨t, hsigned t (by simp), fun coll hcoll => ?_, hstep⟩
      (ih (fun u hu => hsigned u (by simp [hu])) hstaked.2 h)
    obtain ⟨hstaked, -⟩ := hstaked
    unfold Transaction.Stakes at hcoll
    split at hstaked
    · next hoperation =>
      rw [hoperation] at hcoll
      simp only at hcoll
      rw [hcoll]
      exact of_decide_eq_true hstaked
    · next hoperation =>
      rw [hoperation] at hcoll
      exact hcoll.elim
    · contradiction

/-- The vault of 102 is opened after a redistribution. -/
theorem stakesRemain_of_worth_run : ∃ s, Reachable testnet s ∧
    s.vaultManager.totalCollateralSnapshot ≠ 0 ∧ (s.vault 102).stake ≠ (s.vault 102).coll ∧
    StakesRemain testnet s := by
  let ts : List Transaction :=
    [⟨testBlock 60000, 100, 5 * 10 ^ 18, .openVault (10 ^ 16) (10000 * 10 ^ 18) 0 0⟩,
      ⟨testBlock 60000, 101, 55 * 10 ^ 15, .openVault (10 ^ 16) (2000 * 10 ^ 18) 0 0⟩,
      ⟨testBlock 44000, 105, 0, .liquidate 101⟩,
      ⟨testBlock 44000, 102, 10 ^ 18, .openVault (10 ^ 16) (2000 * 10 ^ 18) 0 0⟩]
  obtain ⟨s, h, hrun, hcheck⟩ := runs_reachable testnet testGenesis ts
    (fun s => s.vaultManager.totalCollateralSnapshot ≠ 0 ∧
      (s.vault 102).stake ≠ (s.vault 102).coll) (by decide +kernel)
  obtain ⟨hsnapshot, hscaled⟩ := of_decide_eq_true hcheck
  exact ⟨s, h, hsnapshot, hscaled, stakesRemain_of_worth (d := testnet)
    (run_staked (by decide +kernel) (by decide +kernel) hrun)⟩

/-- A whale of 1.9 million bitcoin is liquidated at 42000 and passed on from one small vault to
the next. The vault of 104 is active and has no stake. -/
theorem stake_vanished : ¬∀ d s, Reachable d s → StakesRemain d s := by
  intro hall
  let small (a : Address) : Transaction :=
    ⟨testBlock 42000, a, 10 ^ 17, .openVault (10 ^ 16) (2000 * 10 ^ 18) 0 0⟩
  obtain ⟨s, h, -, hcheck⟩ := runs_reachable testnet testGenesis
    [⟨testBlock 60000, 101, 10 ^ 17, .openVault (10 ^ 16) (2000 * 10 ^ 18) 0 0⟩,
      ⟨testBlock 60000, 100, 19 * 10 ^ 23, .openVault (10 ^ 16) (75 * 10 ^ 27) 0 0⟩,
      ⟨testBlock 42000, 105, 0, .liquidate 100⟩, small 102,
      ⟨testBlock 42000, 105, 0, .liquidate 101⟩, small 103,
      ⟨testBlock 42000, 105, 0, .liquidate 102⟩, small 104]
    (fun s => s.Active 104 ∧ (s.vault 104).stake = 0) (by decide +kernel)
  obtain ⟨hactive, hzero⟩ := of_decide_eq_true hcheck
  have hpos := (hall testnet s h).stake 104 hactive
  omega

end MoneyProtocol
