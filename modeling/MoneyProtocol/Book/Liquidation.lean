import MoneyProtocol.Book.Redemption
import MoneyProtocol.Book.Registry

/-!
# Liquidations move the book

Every liquidation of a loop collects and closes one vault. What the settlement does to the
book is to redistribute the debt that the Stability Pool could not absorb, and to take the
snapshots.
-/

namespace MoneyProtocol.VaultManager

open Outcome MoneypMath MoneypBase Book

variable {d : Deployment} {s s' : State} {block : Block} {a : Address} {price : ℕ} {P : Policy}
  {collLeft : ℕ → LiquidationValues → Outcome ℕ} {l l' : LiquidationLoop}

theorem Liquidates.moves (h : Liquidates d a s s') : Moves P s.book s'.book := by
  obtain ⟨e, s₁, s₂, left, he, hdetach, hclose, hsurplus⟩ := h
  have hbook : s'.book = s₂.book := by
    rw [accountCollSurplus] at hsurplus
    split_ifs at hsurplus
    · exact CollSurplusPool.accountSurplus_book hsurplus
    · rw [pure_ok.mp hsurplus]
  rw [hbook]
  exact detach_close_moves he hdetach hclose

theorem LoopStep.moves (h : LoopStep collLeft d price l l') :
    Moves P l.state.book l'.state.book := by
  rcases h.liquidates with hsame | ⟨a, h⟩
  · rw [hsame]
  · exact h.moves

theorem loop_moves (h : Relation.ReflTransGen (LoopStep collLeft d price) l l') :
    Moves P l.state.book l'.state.book := by
  induction h with
  | refl => exact .refl
  | tail _ hstep ih => exact ih.trans hstep.moves

/-- A liquidation leaves a vault behind it. -/
theorem liquidateNormalMode_owners {v : LiquidationValues} {pool : ℕ}
    (h : liquidateNormalMode d a pool s = .ok (v, s')) : 0 < s'.book.vaultOwners.length := by
  have hmoves := (liquidateNormalMode_liquidates h).moves (P := .any)
  simp only [liquidateNormalMode, bind_ok, pure_ok, Prod.mk.injEq] at h
  obtain ⟨e, he, s₁, hdetach, _, -, _, -, s₂, hclose, -, rfl⟩ := h
  obtain ⟨-, -, -, hlength, -⟩ := detach_close_book he hdetach hclose
  exact hmoves.owners_pos (by omega)

theorem liquidateRecoveryMode_owners {v : LiquidationValues} {ICR pool TCR : ℕ}
    (h : liquidateRecoveryMode d a ICR pool TCR price s = .ok (v, s')) :
    v = .zero ∧ s' = s ∨ 0 < s'.book.vaultOwners.length := by
  have hmoves : Moves .any s.book s'.book := by
    rcases liquidateRecoveryMode_liquidates h with rfl | h
    · exact .refl
    · exact h.moves
  rw [liquidateRecoveryMode] at h
  by_cases hsingle : s.vaultManager.vaultOwners.length ≤ 1
  · rw [if_pos hsingle] at h
    simp only [pure_ok, Prod.mk.injEq] at h
    exact .inl ⟨h.1.symm, h.2.symm⟩
  · have hlength : 0 < s.book.vaultOwners.length := by
      simp only [State.book]
      omega
    exact .inr (hmoves.owners_pos hlength)

/-- Once something is tallied, a vault is left. -/
theorem LoopStep.owners (h : LoopStep collLeft d price l l')
    (hl : 0 < l.totals.totalDebtInSequence → 0 < l.state.book.vaultOwners.length) :
    0 < l'.totals.totalDebtInSequence → 0 < l'.state.book.vaultOwners.length := by
  cases h with
  | tally _ _ h =>
    obtain ⟨_, hv, -⟩ := liquidateAndTally_ok h
    exact fun _ => liquidateNormalMode_owners hv
  | track _ h =>
    obtain ⟨_, v, -, hv, -, -, -, -, -, htotals⟩ := liquidateAndTrack_ok h
    rcases liquidateRecoveryMode_owners hv with ⟨rfl, hstate⟩ | hpos
    · rw [addLiquidationValuesToTotals_ok htotals, hstate]
      exact hl
    · exact fun _ => hpos

theorem loop_owners {l₀ : LiquidationLoop} {recovery : Bool}
    (hstart : startLoop recovery s = .ok l₀)
    (h : Relation.ReflTransGen (LoopStep collLeft d price) l₀ l) :
    0 < l.totals.totalDebtInSequence → 0 < l.state.book.vaultOwners.length := by
  induction h with
  | refl =>
    intro hpos
    have hzero : l₀.totals = .zero := by
      simp only [startLoop] at hstart
      split_ifs at hstart
      · simp only [bind_ok, pure_ok] at hstart
        obtain ⟨_, -, _, -, rfl⟩ := hstart
        rfl
      · rw [← pure_ok.mp hstart]
    rw [hzero] at hpos
    exact absurd hpos (lt_irrefl 0)
  | tail _ hstep ih => exact hstep.owners ih

theorem sendGasCompensation_book {liquidator : Address} {BPD RBTC : ℕ}
    (hliquidator : liquidator ≠ d.defaultPool)
    (h : sendGasCompensation d liquidator BPD RBTC s = .ok s') : s'.book = s.book := by
  simp only [sendGasCompensation, bind_ok, ite_pure_ok, BPDToken.returnFromPool] at h
  obtain ⟨t, hBPD, hRBTC⟩ := h
  have ht : t.book = s.book := by
    rcases hBPD with ⟨-, hBPD⟩ | ⟨-, rfl⟩
    · exact BPDToken._transfer_book hBPD
    · rfl
  rcases hRBTC with ⟨-, hRBTC⟩ | ⟨-, rfl⟩
  · rw [ActivePool.sendRBTC_book hliquidator hRBTC, ht]
  · exact ht

theorem settleLiquidation_moves {sender : Address} {totals : LiquidationTotals}
    (hsender : sender ≠ d.defaultPool)
    (howners : 0 < totals.totalDebtInSequence → 0 < s.book.vaultOwners.length)
    (hP : totals.totalDebtToRedistribute ≠ 0 →
      P.redistribute s.book totals.totalDebtToRedistribute totals.totalCollToRedistribute)
    (h : settleLiquidation d block sender totals s = .ok s') : Moves P s.book s'.book := by
  simp only [settleLiquidation, bind_ok, ite_pure_ok, require_ok] at h
  obtain ⟨_, hdebt, t₁, hoffset, t₂, hredistribute, t₃, hsurplus, t₄, hsnapshots, _, -, _, -,
    hgas⟩ := h
  have h₁ := StabilityPool.offset_book hoffset
  have h₃ : t₃.book = t₂.book := by
    rcases hsurplus with ⟨-, hsurplus⟩ | ⟨-, rfl⟩
    · exact ActivePool.sendRBTC_book d.collSurplusPool_ne_defaultPool hsurplus
    · rfl
  have hmoves : Moves P t₁.book t₂.book :=
    redistributeDebtAndColl_moves (fun hdebt => h₁ ▸ hP hdebt) hredistribute
  have howners₃ : 0 < t₃.book.vaultOwners.length := by
    rw [h₃]
    exact hmoves.owners_pos (by rw [h₁]; exact howners hdebt)
  have hsnapshot : Moves P t₃.book t₄.book := updateSystemSnapshots_moves howners₃ hsnapshots
  rw [sendGasCompensation_book hsender hgas, ← h₁]
  rw [h₃] at hsnapshot
  exact hmoves.trans hsnapshot

/-- The loop of `liquidateVaults`, up to the settlement. -/
def liquidateVaultsLoop (d : Deployment) (block : Block) (n : ℕ) (s : State) :
    Outcome LiquidationLoop := do
  let (price, s) ← PriceFeed.fetchPrice block s
  let recoveryModeAtStart ← checkRecoveryMode price s
  getTotalsFromLiquidateVaultsSequence d recoveryModeAtStart price n s

/-- The loop of `batchLiquidateVaults`, up to the settlement. -/
def batchLiquidateVaultsLoop (d : Deployment) (block : Block) (vaultArray : List Address)
    (s : State) : Outcome LiquidationLoop := do
  let (price, s) ← PriceFeed.fetchPrice block s
  let recoveryModeAtStart ← checkRecoveryMode price s
  getTotalsFromBatchLiquidate d recoveryModeAtStart price vaultArray s

/-- What the settlement of a loop redistributes is in keeping with the policy. -/
def Allows (P : Policy) (l : LiquidationLoop) : Prop :=
  l.totals.totalDebtToRedistribute ≠ 0 → P.redistribute l.state.book
    l.totals.totalDebtToRedistribute l.totals.totalCollToRedistribute

theorem liquidateVaults_loop {sender : Address} {n : ℕ}
    (h : liquidateVaults d block sender n s = .ok s') :
    ∃ l, liquidateVaultsLoop d block n s = .ok l ∧
      settleLiquidation d block sender l.totals l.state = .ok s' := by
  simp only [liquidateVaults, bind_ok, Prod.exists] at h
  obtain ⟨price, s₀, hprice, recovery, hrecovery, l, hl, h⟩ := h
  refine ⟨l, ?_, h⟩
  simp only [liquidateVaultsLoop, bind_ok, Prod.exists]
  exact ⟨price, s₀, hprice, recovery, hrecovery, hl⟩

theorem batchLiquidateVaults_loop {sender : Address} {users : List Address}
    (h : batchLiquidateVaults d block sender users s = .ok s') :
    ∃ l, batchLiquidateVaultsLoop d block users s = .ok l ∧
      settleLiquidation d block sender l.totals l.state = .ok s' := by
  simp only [batchLiquidateVaults, bind_ok, Prod.exists] at h
  obtain ⟨_, -, price, s₀, hprice, recovery, hrecovery, l, hl, h⟩ := h
  refine ⟨l, ?_, h⟩
  simp only [batchLiquidateVaultsLoop, bind_ok, Prod.exists]
  exact ⟨price, s₀, hprice, recovery, hrecovery, hl⟩

theorem liquidateVaultsLoop_ok {n : ℕ} (h : liquidateVaultsLoop d block n s = .ok l) :
    ∃ price l₀ s₀ recovery, PriceFeed.fetchPrice block s = .ok (price, s₀) ∧
      checkRecoveryMode price s₀ = .ok recovery ∧ l₀.state = s₀ ∧ Tallied d s₀ l₀ ∧
      Relation.ReflTransGen (LoopStep sequenceCollLeft d price) l₀ l := by
  simp only [liquidateVaultsLoop, bind_ok, Prod.exists] at h
  obtain ⟨price, s₀, hprice, recovery, hrecovery, hl⟩ := h
  obtain ⟨l₀, hstart, hloop⟩ := getTotalsFromLiquidateVaultsSequence_steps hl
  obtain ⟨htallied, hstate⟩ := startLoop_tallied hstart (d := d)
  exact ⟨price, l₀, s₀, recovery, hprice, hrecovery, hstate, htallied, hloop⟩

theorem batchLiquidateVaultsLoop_ok {users : List Address}
    (h : batchLiquidateVaultsLoop d block users s = .ok l) :
    ∃ price l₀ s₀ recovery, PriceFeed.fetchPrice block s = .ok (price, s₀) ∧
      checkRecoveryMode price s₀ = .ok recovery ∧ l₀.state = s₀ ∧ Tallied d s₀ l₀ ∧
      Relation.ReflTransGen (LoopStep batchCollLeft d price) l₀ l := by
  simp only [batchLiquidateVaultsLoop, bind_ok, Prod.exists] at h
  obtain ⟨price, s₀, hprice, recovery, hrecovery, hl⟩ := h
  obtain ⟨l₀, hstart, hloop⟩ := getTotalsFromBatchLiquidate_steps hl
  obtain ⟨htallied, hstate⟩ := startLoop_tallied hstart (d := d)
  exact ⟨price, l₀, s₀, recovery, hprice, hrecovery, hstate, htallied, hloop⟩

theorem liquidateVaultsLoop_moves {n : ℕ} (h : liquidateVaultsLoop d block n s = .ok l) :
    Moves P s.book l.state.book := by
  obtain ⟨price, l₀, s₀, _, hprice, -, hstate, -, hloop⟩ := liquidateVaultsLoop_ok h
  rw [← PriceFeed.fetchPrice_book hprice, ← hstate]
  exact loop_moves hloop

theorem batchLiquidateVaultsLoop_moves {users : List Address}
    (h : batchLiquidateVaultsLoop d block users s = .ok l) : Moves P s.book l.state.book := by
  obtain ⟨price, l₀, s₀, _, hprice, -, hstate, -, hloop⟩ := batchLiquidateVaultsLoop_ok h
  rw [← PriceFeed.fetchPrice_book hprice, ← hstate]
  exact loop_moves hloop

theorem liquidateVaultsLoop_owners {n : ℕ} (h : liquidateVaultsLoop d block n s = .ok l) :
    0 < l.totals.totalDebtInSequence → 0 < l.state.book.vaultOwners.length := by
  simp only [liquidateVaultsLoop, bind_ok, Prod.exists] at h
  obtain ⟨_, s₀, -, recovery, -, hl⟩ := h
  obtain ⟨l₀, hstart, hloop⟩ := getTotalsFromLiquidateVaultsSequence_steps hl
  exact loop_owners hstart hloop

theorem batchLiquidateVaultsLoop_owners {users : List Address}
    (h : batchLiquidateVaultsLoop d block users s = .ok l) :
    0 < l.totals.totalDebtInSequence → 0 < l.state.book.vaultOwners.length := by
  simp only [batchLiquidateVaultsLoop, bind_ok, Prod.exists] at h
  obtain ⟨_, s₀, -, recovery, -, hl⟩ := h
  obtain ⟨l₀, hstart, hloop⟩ := getTotalsFromBatchLiquidate_steps hl
  exact loop_owners hstart hloop

theorem liquidateVaults_moves {sender : Address} {n : ℕ} (hsender : sender ≠ d.defaultPool)
    (hP : ∀ l, liquidateVaultsLoop d block n s = .ok l → Allows P l)
    (h : liquidateVaults d block sender n s = .ok s') : Moves P s.book s'.book := by
  obtain ⟨l, hl, hsettle⟩ := liquidateVaults_loop h
  exact (liquidateVaultsLoop_moves hl).trans
    (settleLiquidation_moves hsender (liquidateVaultsLoop_owners hl) (hP l hl) hsettle)

theorem batchLiquidateVaults_moves {sender : Address} {users : List Address}
    (hsender : sender ≠ d.defaultPool)
    (hP : ∀ l, batchLiquidateVaultsLoop d block users s = .ok l → Allows P l)
    (h : batchLiquidateVaults d block sender users s = .ok s') : Moves P s.book s'.book := by
  obtain ⟨l, hl, hsettle⟩ := batchLiquidateVaults_loop h
  exact (batchLiquidateVaultsLoop_moves hl).trans
    (settleLiquidation_moves hsender (batchLiquidateVaultsLoop_owners hl) (hP l hl) hsettle)

theorem liquidate_moves {sender borrower : Address} (hsender : sender ≠ d.defaultPool)
    (hP : ∀ l, batchLiquidateVaultsLoop d block [borrower] s = .ok l → Allows P l)
    (h : liquidate d block sender borrower s = .ok s') : Moves P s.book s'.book := by
  simp only [liquidate, bind_ok] at h
  obtain ⟨_, -, h⟩ := h
  exact batchLiquidateVaults_moves hsender hP h

end MoneyProtocol.VaultManager
