import MoneyProtocol.Subgraph.Handlers

/-!
# The journal of the subgraph

What the system states and the changes are for: a journal, in which every change is numbered and
leads from the system state before it to the one after it. The tables of the store record a
journal, also while a change is under way.
-/

namespace MoneyProtocol.Subgraph

variable {normalized : ℚ → ℚ}

inductive AnyChange where
  | price (change : PriceChange)
  | vault (change : VaultChange)
  | stabilityDeposit (change : StabilityDepositChange)
  | collSurplus (change : CollSurplusChange)

def AnyChange.start : AnyChange → ChangeStart
  | .price change => change.toChangeStart
  | .vault change => change.toChangeStart
  | .stabilityDeposit change => change.toChangeStart
  | .collSurplus change => change.toChangeStart

def AnyChange.systemStateAfter : AnyChange → I32
  | .price change => change.systemStateAfter
  | .vault change => change.systemStateAfter
  | .stabilityDeposit change => change.systemStateAfter
  | .collSurplus change => change.systemStateAfter

/-- The changes of a vault. -/
def AnyChange.vault? : AnyChange → Option VaultDetails
  | .vault change => some change.details
  | _ => none

def AnyChange.stabilityDeposit? : AnyChange → Option StabilityDepositDetails
  | .stabilityDeposit change => some change.details
  | _ => none

def AnyChange.collSurplus? : AnyChange → Option CollSurplusDetails
  | .collSurplus change => some change.details
  | _ => none

/-- The change says how the second system state comes from the first. -/
def AnyChange.Explains (normalized : ℚ → ℚ) (change : AnyChange) (before after : SystemState) :
    Prop :=
  match change with
  | .price change =>
    after = { before with sequenceNumber := after.sequenceNumber, price := after.price } ∧
      after.price ≠ before.price ∧
      change.details.priceChange = normalized (after.price - before.price)
  | .vault change =>
    before.withVaultChange normalized change.details =
        some { after with sequenceNumber := before.sequenceNumber } ∧
      change.details.collateralRatioBefore = calculateCollateralRatio normalized
        change.details.collateralBefore change.details.debtBefore before.price ∧
      change.details.collateralRatioAfter = calculateCollateralRatio normalized
        change.details.collateralAfter change.details.debtAfter before.price
  | .stabilityDeposit change =>
    before.withStabilityDepositChange normalized change.details =
      { after with sequenceNumber := before.sequenceNumber }
  | .collSurplus change =>
    before.withCollSurplusChange normalized change.details =
      { after with sequenceNumber := before.sequenceNumber }

structure Journal where
  states : List SystemState := []
  changes : List AnyChange := []

theorem getElem?_concat {α : Type} {l : List α} {a b : α} {k : ℕ} :
    (l ++ [a])[k]? = some b ↔ l[k]? = some b ∨ k = l.length ∧ a = b := by
  rcases Nat.lt_trichotomy k l.length with h | h | h
  · simp [List.getElem?_append_left h, h.ne]
  · simp [h]
  · have hk : k - l.length ≠ 0 := by omega
    simp [List.getElem?_append_right h.le, List.getElem?_eq_none h.le, h.ne', hk]

namespace Journal

variable {j j' j'' : Journal} {change : AnyChange} {after before : SystemState}

/-- Change `k` leads from system state `k` to system state `k + 1`; their numbers may have wrapped
around. -/
structure Sound (normalized : ℚ → ℚ) (j : Journal) : Prop where
  length : j.changes.length = j.states.length - 1
  first : ∀ systemState, j.states[0]? = some systemState → systemState = newSystemState 0
  numbered : ∀ k (systemState : SystemState), j.states[k]? = some systemState →
    systemState.sequenceNumber = BitVec.ofNat 32 k
  change : ∀ k change, j.changes[k]? = some change →
    change.start.sequenceNumber = BitVec.ofNat 32 k ∧
      change.start.systemStateBefore = BitVec.ofNat 32 k ∧
      change.systemStateAfter = BitVec.ofNat 32 (k + 1)
  explained : ∀ k change before after, j.changes[k]? = some change →
    j.states[k]? = some before → j.states[k + 1]? = some after →
    change.Explains normalized before after

/-- Nothing that was written is changed or taken out. -/
structure Extends (j j' : Journal) : Prop where
  states : j.states <+: j'.states
  changes : j.changes <+: j'.changes

/-- At most `n` changes were added. -/
structure ExtendsBy (n : ℕ) (j j' : Journal) : Prop extends Extends j j' where
  atMost : j'.changes.length ≤ j.changes.length + n

/-- At most a change of the price was added. -/
structure Repriced (j j' : Journal) : Prop extends ExtendsBy 1 j j' where
  vaults : j'.changes.filterMap AnyChange.vault? = j.changes.filterMap AnyChange.vault?
  deposits : j'.changes.filterMap AnyChange.stabilityDeposit? =
    j.changes.filterMap AnyChange.stabilityDeposit?
  surpluses : j'.changes.filterMap AnyChange.collSurplus? =
    j.changes.filterMap AnyChange.collSurplus?

theorem Extends.refl (j : Journal) : Extends j j := ⟨List.prefix_refl _, List.prefix_refl _⟩

theorem Extends.trans (h : Extends j j') (h' : Extends j' j'') : Extends j j'' :=
  ⟨h.states.trans h'.states, h.changes.trans h'.changes⟩

theorem ExtendsBy.refl (n : ℕ) (j : Journal) : ExtendsBy n j j := ⟨.refl j, Nat.le_add_right _ _⟩

theorem ExtendsBy.trans {m n : ℕ} (h : ExtendsBy m j j') (h' : ExtendsBy n j' j'') :
    ExtendsBy (m + n) j j'' := by
  refine ⟨h.toExtends.trans h'.toExtends, ?_⟩
  have hfirst := h.atMost
  have hsecond := h'.atMost
  omega

theorem ExtendsBy.mono {m n : ℕ} (h : ExtendsBy m j j') (hmn : m ≤ n) : ExtendsBy n j j' :=
  ⟨h.toExtends, h.atMost.trans (Nat.add_le_add_left hmn _)⟩

theorem Repriced.refl (j : Journal) : Repriced j j := ⟨.refl 1 j, rfl, rfl, rfl⟩

/-- The journal with its first system state. -/
def started (j : Journal) : Journal :=
  if j.states = [] then { j with states := [newSystemState 0] } else j

def snoc (j : Journal) (change : AnyChange) (after : SystemState) : Journal :=
  ⟨j.states ++ [after], j.changes ++ [change]⟩

theorem snoc_extends (j : Journal) (change : AnyChange) (after : SystemState) :
    Extends j (j.snoc change after) :=
  ⟨List.prefix_append _ _, List.prefix_append _ _⟩

/-- A change after one of the price. -/
theorem Repriced.snoc (h : Repriced j j') (change : AnyChange) (after : SystemState) :
    ExtendsBy 2 j (j'.snoc change after) :=
  h.toExtendsBy.trans ⟨snoc_extends j' change after, (List.length_append ..).le⟩

theorem started_changes (j : Journal) : j.started.changes = j.changes := by
  unfold started
  split_ifs
  · rfl
  · rfl

theorem started_extends (j : Journal) : Extends j j.started := by
  unfold started
  split_ifs with h
  · refine ⟨?_, List.prefix_refl _⟩
    rw [h]
    exact List.nil_prefix
  · exact .refl j

/-- The first system state is no change. -/
theorem Repriced.started (h : Repriced j j') : Repriced j j'.started := by
  refine ⟨⟨h.toExtends.trans j'.started_extends, ?_⟩, ?_, ?_, ?_⟩
  · rw [started_changes]
    exact h.atMost
  · rw [started_changes]
    exact h.vaults
  · rw [started_changes]
    exact h.deposits
  · rw [started_changes]
    exact h.surpluses

/-- A change of the price is no change of anything else. -/
theorem started_snoc_repriced (j : Journal) (change : PriceChange) (after : SystemState) :
    Repriced j (j.started.snoc (.price change) after) := by
  refine ⟨⟨j.started_extends.trans (j.started.snoc_extends _ _), ?_⟩, ?_, ?_, ?_⟩ <;>
    simp [snoc, started_changes, AnyChange.vault?, AnyChange.stabilityDeposit?,
      AnyChange.collSurplus?]

theorem Sound.started (h : Sound normalized j) : Sound normalized j.started := by
  unfold Journal.started
  split_ifs with hstates
  · have hchanges : j.changes = [] := by
      have := h.length
      rw [hstates] at this
      exact List.eq_nil_of_length_eq_zero this
    refine ⟨by rw [hchanges]; rfl, ?_, ?_, ?_, ?_⟩
    · intro systemState hfirst
      simpa using hfirst.symm
    · intro k systemState hk
      cases k with
      | zero => simp at hk; rw [← hk]; rfl
      | succ k => simp at hk
    · intro k change hk
      simp [hchanges] at hk
    · intro k change before after hk
      simp [hchanges] at hk
  · exact h

/-- The system state that a further change starts from has the number of the change. -/
theorem Sound.last (h : Sound normalized j) (hlast : j.states.getLast? = some before) :
    j.states.length = j.changes.length + 1 ∧ j.states[j.changes.length]? = some before ∧
      before.sequenceNumber = BitVec.ofNat 32 j.changes.length := by
  have hlength := h.length
  have hpos : j.states ≠ [] := by
    intro hnil
    simp [hnil] at hlast
  have hpos : 0 < j.states.length := List.length_pos_iff.mpr hpos
  have hk : j.states[j.changes.length]? = some before := by
    rw [hlength, ← hlast, List.getLast?_eq_getElem?]
  exact ⟨by omega, hk, h.numbered _ _ hk⟩

theorem Sound.snoc (h : Sound normalized j) (hlast : j.states.getLast? = some before)
    (hnumber : change.start.sequenceNumber = BitVec.ofNat 32 j.changes.length)
    (hbefore : change.start.systemStateBefore = before.sequenceNumber)
    (hafter : change.systemStateAfter = after.sequenceNumber)
    (hnext : after.sequenceNumber = BitVec.ofNat 32 j.states.length)
    (hexplains : change.Explains normalized before after) :
    Sound normalized (j.snoc change after) := by
  obtain ⟨hlength, hlast, hbeforeNumber⟩ := h.last hlast
  refine ⟨?_, ?_, ?_, ?_, ?_⟩
  · simp [Journal.snoc, hlength]
  · intro systemState hfirst
    have hfirst : j.states[0]? = some systemState := by
      rw [← hfirst, Journal.snoc, List.getElem?_append_left (by omega)]
    exact h.first systemState hfirst
  · intro k systemState hk
    rcases getElem?_concat.mp hk with hk | ⟨rfl, rfl⟩
    · exact h.numbered k systemState hk
    · exact hnext
  · intro k c hk
    rcases getElem?_concat.mp hk with hk | ⟨rfl, rfl⟩
    · exact h.change k c hk
    · exact ⟨hnumber, by rw [hbefore, hbeforeNumber], by rw [hafter, hnext, hlength]⟩
  · intro k c first second hk hfirst hsecond
    rcases getElem?_concat.mp hk with hk | ⟨rfl, rfl⟩
    · -- An earlier change lies between earlier system states.
      have hlt : k < j.changes.length := (List.getElem?_eq_some_iff.mp hk).1
      refine h.explained k c first second hk ?_ ?_
      · exact (getElem?_concat.mp hfirst).resolve_right (by omega)
      · exact (getElem?_concat.mp hsecond).resolve_right (by omega)
    · have hfirst := (getElem?_concat.mp hfirst).resolve_right (by omega)
      have hsecond := (getElem?_concat.mp hsecond).resolve_left (by
        intro hsecond
        have := (List.getElem?_eq_some_iff.mp hsecond).1
        omega)
      rw [hlast, Option.some.injEq] at hfirst
      rw [← hfirst, ← hsecond.2]
      exact hexplains

end Journal

end MoneyProtocol.Subgraph
