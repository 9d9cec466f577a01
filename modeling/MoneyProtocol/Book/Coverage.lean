import MoneyProtocol.Book.Runs
import MoneyProtocol.Library.Accumulator

/-!
# The Default Pool covers the pending rewards

What all vaults are owed of the redistributed collateral, with the error carried to the next
division, is backed by the Default Pool. The dust, the part of the pool that nobody is owed,
grows by less than a wei each time a vault collects. The same holds of the redistributed debt
in runs that never restake a stale vault.
-/

namespace MoneyProtocol.Book

open Accumulator PointSum MoneypMath

/-- What is redistributed. -/
inductive Reward where
  | RBTC | debt

variable {b b' : Book} {r : Reward} {a u : Address} {P : Policy} {xs : List Address}

def stakes (b : Book) (a : Address) : ℕ := (b.vaults a).stake

def accumulated (b : Book) : Reward → ℕ
  | .RBTC => b.B_RBTC
  | .debt => b.B_BPDDebt

def snapshot (b : Book) : Reward → Address → ℕ
  | .RBTC, a => (b.rewardSnapshots a).RBTC
  | .debt, a => (b.rewardSnapshots a).BPDDebt

def lastError (b : Book) : Reward → ℕ
  | .RBTC => b.lastRBTCError_Redistribution
  | .debt => b.lastBPDDebtError_Redistribution

def pooled (b : Book) : Reward → ℕ
  | .RBTC => b.defaultPool.RBTC
  | .debt => b.defaultPool.BPDDebt

def pending (b : Book) : Reward → Address → ℕ
  | .RBTC => b.pendingRBTC
  | .debt => b.pendingDebt

/-- What the stakes are owed, in units of `1e-18` wei. -/
def owed (b : Book) (r : Reward) : ℕ :=
  Accumulator.owed b.stakes (b.snapshot r) (b.accumulated r)

def owedTo (b : Book) (r : Reward) : Address → ℕ :=
  Accumulator.owedTo b.stakes (b.snapshot r) (b.accumulated r)

/-- What the Default Pool holds and nobody is owed. -/
def dust (b : Book) (r : Reward) : ℤ :=
  (b.pooled r * DECIMAL_PRECISION : ℕ) - (b.owed r + b.lastError r : ℕ)

theorem pending_eq (h : b.Registry xs) (r : Reward) (a : Address) :
    b.pending r a = b.owedTo r a / DECIMAL_PRECISION := by
  by_cases ha : a ∈ xs
  · cases r with
    | RBTC => exact if_pos ((h.active a).mpr ha)
    | debt => exact if_pos ((h.active a).mpr ha)
  · have hzero : b.pending r a = 0 := by
      cases r with
      | RBTC => exact h.pendingRBTC_of_notMem ha
      | debt => exact h.pendingDebt_of_notMem ha
    rw [hzero, owedTo, owedTo_weightless, Nat.zero_div]
    exact (h.inactive a ha).2.2

/-- All pending rewards together are in the pool. -/
theorem total_pending_le (h : b.Registry xs) (hdust : 0 ≤ b.dust r) :
    ∑ a, b.pending r a ≤ b.pooled r := by
  simp only [pending_eq h]
  refine (sum_div_le (by decide)).trans ?_
  rw [← Nat.mul_div_cancel (b.pooled r) (n := DECIMAL_PRECISION) (by decide)]
  refine Nat.div_le_div_right ?_
  simp only [dust, owed] at hdust
  omega

theorem pending_le (h : b.Registry xs) (hdust : 0 ≤ b.dust r) (a : Address) :
    b.pending r a ≤ b.pooled r :=
  (Finset.single_le_sum (f := b.pending r) (fun _ _ => Nat.zero_le _) (Finset.mem_univ a)).trans
    (total_pending_le h hdust)

section

variable {coll debt : ℕ} {st : Status} {moved : Address} {data : SortedVaults}

/-- A change at `a` that leaves nothing owed to it. -/
theorem owed_settled (haccumulated : b'.accumulated r = b.accumulated r)
    (hstakes : ∀ u, u ≠ a → b'.stakes u = b.stakes u)
    (hsnapshots : ∀ u, u ≠ a → b'.snapshot r u = b.snapshot r u) (hnone : b'.owedTo r a = 0) :
    b'.owed r + b.owedTo r a = b.owed r := by
  have hchange := @owed_change _ _ _ b.stakes b'.stakes (b.snapshot r) (b'.snapshot r)
    (b.accumulated r) a hstakes hsnapshots
  rw [owedTo, haccumulated] at hnone
  rw [hnone, add_zero] at hchange
  rwa [owed, haccumulated]

theorem owed_opened (h : b.Registry xs) (ha : a ∉ xs) :
    (b.opened a coll debt data).owed r = b.owed r := by
  have hnone : b.owedTo r a = 0 := owedTo_weightless (h.inactive a ha).2.2
  have hsettled : (b.opened a coll debt data).owed r + b.owedTo r a = b.owed r := by
    apply owed_settled
    · cases r <;> rfl
    · intro u hu
      simp [stakes, Book.opened, Function.update_of_ne hu]
    · intro u hu
      cases r <;> simp [snapshot, Book.opened, Function.update_of_ne hu]
    · apply owedTo_current
      cases r <;> simp [snapshot, accumulated, Book.opened]
  omega

theorem owed_collected : (b.collected a).owed r + b.owedTo r a = b.owed r := by
  refine owed_settled (by cases r <;> rfl) (fun u hu => ?_) (fun u hu => ?_) (owedTo_current ?_)
  · simp [stakes, Book.collected, Function.update_of_ne hu]
  · cases r <;> simp [snapshot, Book.collected, Function.update_of_ne hu]
  · cases r <;> simp [snapshot, accumulated, Book.collected]

/-- A vault that is up to date may be restaked. -/
theorem owed_restaked (hcurrent : b.accumulated r ≤ b.snapshot r a) :
    (b.restaked a coll debt data).owed r = b.owed r := by
  have hnone : b.owedTo r a = 0 := owedTo_current hcurrent
  have hsettled : (b.restaked a coll debt data).owed r + b.owedTo r a = b.owed r := by
    apply owed_settled
    · cases r <;> rfl
    · intro u hu
      simp [stakes, Book.restaked, Function.update_of_ne hu]
    · intro u _
      cases r <;> rfl
    · apply owedTo_current
      cases r <;> exact hcurrent
  omega

theorem owed_closed : (b.closed a st moved data).owed r + b.owedTo r a = b.owed r := by
  refine owed_settled (by cases r <;> rfl) (fun u hu => ?_) (fun u hu => ?_)
    (owedTo_weightless ?_)
  · obtain ⟨i, hi⟩ := @closed_of_ne b a u st moved data hu
    simp [stakes, hi]
  · cases r <;> simp [snapshot, Book.closed, Function.update_of_ne hu]
  · obtain ⟨i, hi⟩ := @closed_self b a st moved data
    simp [stakes, hi]

end

/-- A collecting vault leaves the rounding of its reward behind. -/
theorem dust_collected (h : b.Registry xs) (hpending : b.pending r a ≤ b.pooled r) :
    b.dust r ≤ (b.collected a).dust r ∧
      (b.collected a).dust r ≤ b.dust r + (DECIMAL_PRECISION - 1 : ℕ) := by
  have howed := owed_collected (b := b) (r := r) (a := a)
  have hpooled : (b.collected a).pooled r = b.pooled r - b.pending r a := by cases r <;> rfl
  have herror : (b.collected a).lastError r = b.lastError r := by cases r <;> rfl
  have hdivMod := Nat.div_add_mod (b.owedTo r a) DECIMAL_PRECISION
  have hmod := Nat.mod_lt (b.owedTo r a) (y := DECIMAL_PRECISION) (by decide)
  have hsub := Nat.sub_mul (b.pooled r) (b.pending r a) DECIMAL_PRECISION
  have hle := Nat.mul_le_mul_right DECIMAL_PRECISION hpending
  rw [← pending_eq h, Nat.mul_comm] at hdivMod
  simp only [dust, hpooled, herror, hsub]
  omega

/-- A redistribution owes exactly what it brings. -/
theorem dust_redistributed {debt coll RBTCPerUnit debtPerUnit RBTCError debtError : ℕ}
    (h : b.Registry xs)
    (hRBTC : RBTCPerUnit * b.totalStakes + RBTCError =
      coll * DECIMAL_PRECISION + b.lastRBTCError_Redistribution)
    (hdebt : debtPerUnit * b.totalStakes + debtError =
      debt * DECIMAL_PRECISION + b.lastBPDDebtError_Redistribution) :
    (b.redistributed debt coll RBTCPerUnit debtPerUnit RBTCError debtError).dust r = b.dust r := by
  set b' := b.redistributed debt coll RBTCPerUnit debtPerUnit RBTCError debtError
  have hsnapshots : ∀ a, b.snapshot r a ≤ b.accumulated r := by
    intro a
    cases r with
    | RBTC => exact (h.snapshots a).1
    | debt => exact (h.snapshots a).2
  obtain ⟨x, amount, hx, haccumulated, hpooled⟩ : ∃ x amount,
      x * b.totalStakes + b'.lastError r = amount * DECIMAL_PRECISION + b.lastError r ∧
        b'.accumulated r = b.accumulated r + x ∧ b'.pooled r = b.pooled r + amount := by
    cases r with
    | RBTC => exact ⟨RBTCPerUnit, coll, hRBTC, rfl, rfl⟩
    | debt => exact ⟨debtPerUnit, debt, hdebt, rfl, rfl⟩
  have hraise : b'.owed r = b.owed r + x * b.totalStakes := by
    have hraise : Accumulator.owed b.stakes (b.snapshot r) (b.accumulated r + x) =
        b.owed r + x * ∑ a, b.stakes a := owed_raise hsnapshots
    have hstakes : b.totalStakes = ∑ a, b.stakes a := by
      rw [h.stakes]
      unfold total
      rfl
    have hsame : b'.snapshot r = b.snapshot r := by cases r <;> rfl
    rw [← hstakes] at hraise
    rw [owed, haccumulated, hsame]
    exact hraise
  simp only [dust, hpooled, hraise, Nat.add_mul]
  omega

/-- The dust after one move. Every entry of the log is one vault's rewards collected. -/
theorem Move.dust_RBTC (h : b.Registry xs) (hmove : Move P b b') :
    ∃ sent : List ℕ, b'.defaultPool.bitcoinSent = sent ++ b.defaultPool.bitcoinSent ∧
      b.dust .RBTC ≤ b'.dust .RBTC ∧
      b'.dust .RBTC ≤ b.dust .RBTC + sent.length * (DECIMAL_PRECISION - 1 : ℕ) := by
  have hsame {b' : Book} (hlog : b'.defaultPool.bitcoinSent = b.defaultPool.bitcoinSent)
      (hdust : b'.dust .RBTC = b.dust .RBTC) :
      ∃ sent : List ℕ, b'.defaultPool.bitcoinSent = sent ++ b.defaultPool.bitcoinSent ∧
        b.dust .RBTC ≤ b'.dust .RBTC ∧
        b'.dust .RBTC ≤ b.dust .RBTC + sent.length * (DECIMAL_PRECISION - 1 : ℕ) :=
    ⟨[], hlog, by simp [hdust], by simp [hdust]⟩
  cases hmove with
  | opened hinactive =>
    refine hsame rfl ?_
    rw [dust, owed_opened h fun ha => hinactive ((h.active _).mpr ha)]
    rfl
  | @collected a hRBTC =>
    obtain ⟨hle, hlt⟩ := dust_collected h (r := .RBTC) (a := a) hRBTC
    exact ⟨[b.pendingRBTC a], rfl, hle, by simpa using hlt⟩
  | @restaked a _ _ _ _ _ _ _ _ hnone _ _ _ hinsert =>
    obtain ⟨_, as, bs, -, -, hxs, -⟩ := SortedVaults.reInsert_sound h.linked hinsert
    have hcurrent := hnone ((h.active a).mpr (by simp [hxs]))
    refine hsame rfl ?_
    rw [dust, owed_restaked (r := .RBTC) hcurrent]
    rfl
  | @closed a _ _ _ _ hnone _ _ _ _ hremove =>
    obtain ⟨ys, zs, hxs, -⟩ := SortedVaults.remove_sound h.linked hremove
    have hcurrent := hnone ((h.active a).mpr (by simp [hxs]))
    have hzero : b.owedTo .RBTC a = 0 := owedTo_current hcurrent
    refine hsame rfl ?_
    rw [dust, ← Nat.add_zero (owed _ _), ← hzero, owed_closed]
    rfl
  | redistributed _ hRBTC _ hdebt => exact hsame rfl (dust_redistributed h hRBTC hdebt)
  | snapshotted => exact hsame rfl rfl

/-- No move to fresh vaults eats into the cover of the debt. -/
theorem Move.dust_debt (hP : P.fresh) (h : b.Registry xs) (hmove : Move P b b') :
    b.dust .debt ≤ b'.dust .debt := by
  cases hmove with
  | opened hinactive =>
    refine le_of_eq ?_
    rw [dust, dust, owed_opened h fun ha => hinactive ((h.active _).mpr ha)]
    rfl
  | collected _ hdebt => exact (dust_collected h (r := .debt) hdebt).1
  | @restaked a _ _ _ _ _ _ _ hfresh hnone _ _ _ hinsert =>
    obtain ⟨_, as, bs, -, -, hxs, -⟩ := SortedVaults.reInsert_sound h.linked hinsert
    have hRBTC := hnone ((h.active a).mpr (by simp [hxs]))
    have hcurrent : b.accumulated .debt ≤ b.snapshot .debt a := by
      by_contra hlt
      exact hfresh hP ⟨hRBTC, not_le.mp hlt⟩
    refine le_of_eq ?_
    rw [dust, dust, owed_restaked hcurrent]
    rfl
  | @closed a moved st data =>
    have hclosed : (b.closed a st moved data).owed .debt + b.owedTo .debt a = b.owed .debt :=
      owed_closed
    have hpooled : (b.closed a st moved data).pooled .debt = b.pooled .debt := rfl
    have herror : (b.closed a st moved data).lastError .debt = b.lastError .debt := rfl
    simp only [dust, hpooled, herror]
    omega
  | redistributed _ hRBTC _ hdebt => exact (dust_redistributed h hRBTC hdebt).ge
  | snapshotted => exact le_rfl

theorem Moves.dust_RBTC (h : b.Registry xs) (hmoves : Moves P b b') :
    ∃ sent : List ℕ, b'.defaultPool.bitcoinSent = sent ++ b.defaultPool.bitcoinSent ∧
      b.dust .RBTC ≤ b'.dust .RBTC ∧
      b'.dust .RBTC ≤ b.dust .RBTC + sent.length * (DECIMAL_PRECISION - 1 : ℕ) := by
  induction hmoves with
  | refl => exact ⟨[], by simp⟩
  | tail hmoves hmove ih =>
    obtain ⟨sent, hsent, hle, hlt⟩ := ih
    obtain ⟨ys, hys⟩ := h.moves hmoves
    obtain ⟨more, hmore, hle', hlt'⟩ := hmove.dust_RBTC hys
    refine ⟨more ++ sent, by simp [hmore, hsent], hle.trans hle', ?_⟩
    rw [List.length_append, Nat.cast_add, add_mul]
    omega

theorem Moves.dust_debt (hP : P.fresh) (h : b.Registry xs) (hmoves : Moves P b b') :
    b.dust .debt ≤ b'.dust .debt := by
  induction hmoves with
  | refl => exact le_rfl
  | tail hmoves hmove ih =>
    obtain ⟨ys, hys⟩ := h.moves hmoves
    exact ih.trans (hmove.dust_debt hP hys)

end MoneyProtocol.Book
