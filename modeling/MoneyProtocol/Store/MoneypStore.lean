import MoneyProtocol.Library.Outcome

/-!
# The store

`MoneypStore` keeps a state that was read from the chain, and what is derived from it. Its
functions run to their end or throw on the way; what they had assigned before they threw stays.
-/

namespace MoneyProtocol.Sdk

open Outcome

/-- How a store derives and combines its values, any of which may throw. -/
structure BaseValues (Base Derived : Type) where
  derive : Base → Outcome Derived
  reduce : Base → Base → Outcome Base
  reduceDerived : Derived → Derived → Outcome Derived

/-- The subclass says how its extra state is combined. -/
structure StoreValues (Base Derived Extra : Type) extends BaseValues Base Derived where
  reduceExtra : Extra → Extra → Extra

/-- The fields of a store; `history` lists what was assigned to `extraState`. -/
structure MoneypStore (Base Derived Extra : Type) where
  loaded : Bool
  baseState : Option Base
  derivedState : Option Derived
  extraState : Option Extra
  updateScheduled : Bool
  notifications : ℕ
  history : List Extra

/-- A new store. -/
def MoneypStore.new {Base Derived Extra : Type} : MoneypStore Base Derived Extra :=
  ⟨false, none, none, none, false, 0, []⟩

namespace StoreValues

variable {Base Derived Extra : Type} (v : StoreValues Base Derived Extra)

def load (baseState : Base) (extraState : Extra) (s : MoneypStore Base Derived Extra) :
    MoneypStore Base Derived Extra :=
  -- the assertion fails in a loaded store
  if s.loaded then s
  else match v.derive baseState with
    | .error _ => { s with baseState := some baseState }
    | .ok derivedState =>
      { s with
        baseState := some baseState
        derivedState := some derivedState
        extraState := some extraState
        loaded := true
        updateScheduled := true
        history := s.history ++ [extraState] }

/-- The end of an update. -/
def finishUpdate (s : MoneypStore Base Derived Extra) : MoneypStore Base Derived Extra :=
  { s with updateScheduled := true, notifications := s.notifications + 1 }

/-- The update of the extra state; the assertion fails where there is none. -/
def updateExtra (extraStateUpdate : Option Extra) (s : MoneypStore Base Derived Extra) :
    MoneypStore Base Derived Extra :=
  match extraStateUpdate, s.extraState with
  | none, _ => finishUpdate s
  | some _, none => s
  | some update, some extraState =>
    let extraState := v.reduceExtra extraState update
    finishUpdate { s with extraState := some extraState, history := s.history ++ [extraState] }

def update (baseStateUpdate : Option Base) (extraStateUpdate : Option Extra)
    (s : MoneypStore Base Derived Extra) : MoneypStore Base Derived Extra :=
  match s.baseState, s.derivedState with
  | some baseState, some derivedState =>
    let reduced := match baseStateUpdate with
      | some update => v.reduce baseState update
      | none => .ok baseState
    match reduced with
    | .error _ => s
    | .ok baseState =>
      match v.derive baseState >>= v.reduceDerived derivedState with
      | .error _ => { s with baseState := some baseState }
      | .ok derivedState => v.updateExtra extraStateUpdate
          { s with baseState := some baseState, derivedState := some derivedState }
  -- the assertion fails before the store is loaded
  | _, _ => s

/-- The timer of a scheduled update. -/
def updateScheduled (s : MoneypStore Base Derived Extra) : MoneypStore Base Derived Extra :=
  if s.updateScheduled then v.update none none { s with updateScheduled := false } else s

end StoreValues

def MoneypStore.cancelUpdateIfScheduled {Base Derived Extra : Type}
    (s : MoneypStore Base Derived Extra) : MoneypStore Base Derived Extra :=
  { s with updateScheduled := false }

/-- Values that never throw. -/
structure BaseValues.NeverThrows {Base Derived : Type} (v : BaseValues Base Derived) : Prop where
  derive : ∀ b, ∃ x, v.derive b = .ok x
  reduce : ∀ b u, ∃ x, v.reduce b u = .ok x
  reduceDerived : ∀ b u, ∃ x, v.reduceDerived b u = .ok x

/-- A loaded store has all of its states, and only a loaded one has a timer. -/
structure MoneypStore.Sound {Base Derived Extra : Type} (s : MoneypStore Base Derived Extra) :
    Prop where
  base : s.loaded = true → s.baseState.isSome
  derived : s.loaded = true → s.derivedState.isSome
  extra : s.loaded = true → s.extraState.isSome
  timer : s.updateScheduled = true → s.loaded = true

theorem MoneypStore.Sound.states {Base Derived Extra : Type}
    {s : MoneypStore Base Derived Extra} (hs : s.Sound)
    (hloaded : s.loaded = true) :
    ∃ prev derived old, s.baseState = some prev ∧ s.derivedState = some derived ∧
      s.extraState = some old := by
  obtain ⟨prev, hprev⟩ := Option.isSome_iff_exists.mp (hs.base hloaded)
  obtain ⟨derived, hderived⟩ := Option.isSome_iff_exists.mp (hs.derived hloaded)
  obtain ⟨old, hold⟩ := Option.isSome_iff_exists.mp (hs.extra hloaded)
  exact ⟨prev, derived, old, hprev, hderived, hold⟩

namespace StoreValues

variable {Base Derived Extra : Type} {v : StoreValues Base Derived Extra}
  {s : MoneypStore Base Derived Extra} {b : Base} {x : Extra} {baseUpdate : Option Base}
  {extraUpdate : Option Extra}

/-- Loading assigns the extra state, or throws before it does. -/
theorem load_cases (h : s.loaded = false) :
    v.load b x s = { s with baseState := some b } ∨
      ∃ derived, v.derive b = .ok derived ∧ v.load b x s = { s with
        baseState := some b, derivedState := some derived, extraState := some x, loaded := true,
        updateScheduled := true, history := s.history ++ [x] } := by
  unfold load
  rw [if_neg (Bool.eq_false_iff.mp h)]
  cases hderive : v.derive b with
  | error e => exact .inl rfl
  | ok derived => exact .inr ⟨derived, rfl, rfl⟩

theorem load_sound (hs : s.Sound) : (v.load b x s).Sound := by
  by_cases hloaded : s.loaded = true
  · rw [load, if_pos hloaded]
    exact hs
  · have hnot : s.loaded = false := Bool.eq_false_iff.mpr hloaded
    rcases load_cases (v := v) (b := b) (x := x) hnot with h | ⟨derived, -, h⟩
    · rw [h]
      exact ⟨fun hl => absurd hl hloaded, fun hl => absurd hl hloaded,
        fun hl => absurd hl hloaded, hs.timer⟩
    · rw [h]
      exact ⟨fun _ => rfl, fun _ => rfl, fun _ => rfl, fun _ => rfl⟩

/-- The base state after an update. -/
def reduced (v : StoreValues Base Derived Extra) (baseUpdate : Option Base) (base : Base) :
    Outcome Base :=
  match baseUpdate with
  | some update => v.reduce base update
  | none => .ok base

section update

variable {prev : Base} {derived : Derived} {e : Failure}

theorem update_eq (hprev : s.baseState = some prev) (hderived : s.derivedState = some derived) :
    v.update baseUpdate extraUpdate s = match v.reduced baseUpdate prev with
      | .error _ => s
      | .ok base => match v.derive base >>= v.reduceDerived derived with
        | .error _ => { s with baseState := some base }
        | .ok derived => v.updateExtra extraUpdate
            { s with baseState := some base, derivedState := some derived } := by
  simp only [update, hprev, hderived]
  rfl

/-- An update may throw before it assigns anything. -/
theorem update_unreduced (hprev : s.baseState = some prev)
    (hderived : s.derivedState = some derived) (h : v.reduced baseUpdate prev = .error e) :
    v.update baseUpdate extraUpdate s = s := by
  rw [update_eq hprev hderived, h]

/-- It may throw when it has assigned the base state. -/
theorem update_underived {base : Base} (hprev : s.baseState = some prev)
    (hderived : s.derivedState = some derived) (h : v.reduced baseUpdate prev = .ok base)
    (hderive : (v.derive base >>= v.reduceDerived derived) = .error e) :
    v.update baseUpdate extraUpdate s = { s with baseState := some base } := by
  rw [update_eq hprev hderived, h]
  simp only [hderive]

/-- Or it comes to the extra state. -/
theorem update_derived {base : Base} {derived' : Derived} (hprev : s.baseState = some prev)
    (hderived : s.derivedState = some derived) (h : v.reduced baseUpdate prev = .ok base)
    (hderive : (v.derive base >>= v.reduceDerived derived) = .ok derived') :
    v.update baseUpdate extraUpdate s = v.updateExtra extraUpdate
      { s with baseState := some base, derivedState := some derived' } := by
  rw [update_eq hprev hderived, h]
  simp only [hderive]

end update

/-- An update throws, or it assigns the extra state if it has one. -/
theorem update_cases (baseUpdate : Option Base) (extraUpdate : Option Extra) (hs : s.Sound)
    (hloaded : s.loaded = true) :
    v.update baseUpdate extraUpdate s = s ∨
      (∃ base, v.update baseUpdate extraUpdate s = { s with baseState := some base }) ∨
      (extraUpdate = none ∧ ∃ base derived, v.update baseUpdate extraUpdate s =
        finishUpdate { s with baseState := some base, derivedState := some derived }) ∨
      ∃ update old base derived, extraUpdate = some update ∧ s.extraState = some old ∧
        v.update baseUpdate extraUpdate s = finishUpdate { s with
          baseState := some base, derivedState := some derived,
          extraState := some (v.reduceExtra old update),
          history := s.history ++ [v.reduceExtra old update] } := by
  obtain ⟨prev, derived, old, hprev, hderived, hold⟩ := hs.states hloaded
  cases hreduced : v.reduced baseUpdate prev with
  | error e => exact .inl (update_unreduced hprev hderived hreduced)
  | ok base =>
    cases hderive : v.derive base >>= v.reduceDerived derived with
    | error e => exact .inr (.inl ⟨base, update_underived hprev hderived hreduced hderive⟩)
    | ok derived' =>
      rw [update_derived hprev hderived hreduced hderive]
      unfold updateExtra
      cases extraUpdate with
      | none => exact .inr (.inr (.inl ⟨rfl, base, derived', rfl⟩))
      | some update =>
        simp only [hold]
        exact .inr (.inr (.inr ⟨update, old, base, derived', rfl, rfl, rfl⟩))

/-- What an update leaves in the states: those that it throws before, and those that it assigns. -/
theorem update_states (baseUpdate : Option Base) (extraUpdate : Option Extra) (hs : s.Sound)
    (hloaded : s.loaded = true) :
    (v.update baseUpdate extraUpdate s = s ∧
      ∃ prev e, s.baseState = some prev ∧ v.reduced baseUpdate prev = .error e) ∨
    ∃ prev base, s.baseState = some prev ∧ v.reduced baseUpdate prev = .ok base ∧
      (v.update baseUpdate extraUpdate s).baseState = some base ∧
      ((v.update baseUpdate extraUpdate s).derivedState = s.derivedState ∨
        ∃ derived next derived', s.derivedState = some derived ∧ v.derive base = .ok next ∧
          v.reduceDerived derived next = .ok derived' ∧
          (v.update baseUpdate extraUpdate s).derivedState = some derived') ∧
      ((v.update baseUpdate extraUpdate s).extraState = s.extraState ∨
        ∃ update old, extraUpdate = some update ∧ s.extraState = some old ∧
          (v.update baseUpdate extraUpdate s).extraState = some (v.reduceExtra old update)) := by
  obtain ⟨prev, derived, old, hprev, hderived, hold⟩ := hs.states hloaded
  cases hreduced : v.reduced baseUpdate prev with
  | error e =>
    exact .inl ⟨update_unreduced hprev hderived hreduced, prev, e, hprev, hreduced⟩
  | ok base =>
    refine .inr ⟨prev, base, hprev, hreduced, ?_⟩
    cases hderive : v.derive base >>= v.reduceDerived derived with
    | error e =>
      rw [update_underived hprev hderived hreduced hderive]
      exact ⟨rfl, .inl rfl, .inl rfl⟩
    | ok derived' =>
      obtain ⟨next, hnext, hreduce⟩ := bind_ok.mp hderive
      rw [update_derived hprev hderived hreduced hderive]
      unfold updateExtra
      cases extraUpdate with
      | none =>
        exact ⟨rfl, .inr ⟨derived, next, derived', hderived, hnext, hreduce, rfl⟩, .inl rfl⟩
      | some update =>
        simp only [hold]
        exact ⟨rfl, .inr ⟨derived, next, derived', hderived, hnext, hreduce, rfl⟩,
          .inr ⟨update, old, rfl, rfl, rfl⟩⟩

theorem update_sound (hs : s.Sound) (hloaded : s.loaded = true) :
    (v.update baseUpdate extraUpdate s).Sound ∧
      (v.update baseUpdate extraUpdate s).loaded = true := by
  have hfull {t : MoneypStore Base Derived Extra} (hl : t.loaded = true)
      (hb : t.baseState.isSome) (hd : t.derivedState.isSome) (he : t.extraState.isSome) :
      t.Sound ∧ t.loaded = true :=
    ⟨⟨fun _ => hb, fun _ => hd, fun _ => he, fun _ => hl⟩, hl⟩
  have hb := hs.base hloaded
  have hd := hs.derived hloaded
  have he := hs.extra hloaded
  rcases update_cases (v := v) baseUpdate extraUpdate hs hloaded with
    h | ⟨_, h⟩ | ⟨-, _, _, h⟩ | ⟨_, _, _, _, -, -, h⟩
  · rw [h]
    exact ⟨hs, hloaded⟩
  · rw [h]
    exact hfull hloaded rfl hd he
  · rw [h]
    exact hfull hloaded rfl rfl he
  · rw [h]
    exact hfull hloaded rfl rfl rfl

/-- Without an extra state nothing is added to the history. -/
theorem update_none_history (hs : s.Sound) (hloaded : s.loaded = true) :
    (v.update baseUpdate none s).history = s.history := by
  rcases update_cases (v := v) baseUpdate none hs hloaded with
    h | ⟨_, h⟩ | ⟨-, _, _, h⟩ | ⟨_, _, _, _, hnone, -, -⟩
  · rw [h]
  · rw [h]
  · rw [h]
    rfl
  · exact absurd hnone (by simp)

/-- Where nothing throws, loading and updating assign the extra state. -/
theorem load_total (hv : v.toBaseValues.NeverThrows) (h : s.loaded = false) :
    (v.load b x s).history = s.history ++ [x] ∧ (v.load b x s).loaded = true := by
  obtain ⟨derived, hderived⟩ := hv.derive b
  rw [load, if_neg (Bool.eq_false_iff.mp h), hderived]
  exact ⟨rfl, rfl⟩

theorem update_total (hv : v.toBaseValues.NeverThrows) (hs : s.Sound) (hloaded : s.loaded = true) :
    ∃ old, s.extraState = some old ∧
      (v.update (some b) (some x) s).history = s.history ++ [v.reduceExtra old x] := by
  obtain ⟨prev, derived, old, hprev, hderived, hold⟩ := hs.states hloaded
  obtain ⟨base, hbase⟩ := hv.reduce prev b
  have hreduced : v.reduced (some b) prev = .ok base := hbase
  obtain ⟨next, hnext⟩ := hv.derive base
  obtain ⟨derived', hderived'⟩ := hv.reduceDerived derived next
  have hderive : (v.derive base >>= v.reduceDerived derived) = .ok derived' :=
    bind_ok.mpr ⟨next, hnext, hderived'⟩
  refine ⟨old, hold, ?_⟩
  rw [update_derived hprev hderived hreduced hderive]
  simp only [updateExtra, hold]
  rfl

end StoreValues

end MoneyProtocol.Sdk
