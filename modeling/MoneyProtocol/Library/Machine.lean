import Mathlib.Logic.Basic
import Mathlib.Tactic.Common

/-!
# Machines that take events

A machine takes one event after another. A property of an event and the state that it meets is
carried to whole runs, and so is the equivalence of two such properties.
-/

namespace Machine

variable {State Event : Type} (step : State → Event → State)

/-- Every event of a run has the property in the state that it meets. -/
def Along (P : State → Event → Prop) : State → List Event → Prop
  | _, [] => True
  | s, e :: events => P s e ∧ Along P (step s e) events

/-- Some event of a run has the property in the state that it meets. -/
def Once (P : State → Event → Prop) : State → List Event → Prop
  | _, [] => False
  | s, e :: events => P s e ∨ Once P (step s e) events

instance (P : State → Event → Prop) [∀ s e, Decidable (P s e)] :
    ∀ s events, Decidable (Along step P s events)
  | _, [] => .isTrue trivial
  | s, e :: events =>
    have := instDecidableAlong P (step s e) events
    inferInstanceAs (Decidable (P s e ∧ Along step P (step s e) events))

variable {step} {s : State} {events : List Event} {P Q : State → Event → Prop} {I : State → Prop}

/-- What every step keeps holds at the end. -/
theorem invariant (hkeep : ∀ s e, I s → I (step s e)) (events : List Event) (h : I s) :
    I (events.foldl step s) := by
  induction events generalizing s with
  | nil => exact h
  | cons e events ih => exact ih (hkeep s e h)

/-- It is enough to look at one step, in a state with whatever the steps so far have kept. -/
theorem Along.imp (hstep : ∀ s e, I s → P s e → Q s e)
    (hkeep : ∀ s e, I s → P s e → I (step s e)) (h : I s) (hP : Along step P s events) :
    Along step Q s events := by
  induction events generalizing s with
  | nil => exact trivial
  | cons e events ih =>
    exact ⟨hstep s e h hP.1, ih (hkeep s e h hP.1) hP.2⟩

theorem Along.and (hP : Along step P s events) (hQ : Along step Q s events) :
    Along step (fun s e => P s e ∧ Q s e) s events := by
  induction events generalizing s with
  | nil => exact trivial
  | cons e events ih => exact ⟨⟨hP.1, hQ.1⟩, ih hP.2 hQ.2⟩

theorem along_of_mem {R : Event → Prop} (hR : ∀ e ∈ events, R e) :
    Along step (fun _ e => R e) s events := by
  induction events generalizing s with
  | nil => exact trivial
  | cons e events ih =>
    refine ⟨hR e List.mem_cons_self, ih ?_⟩
    intro e he
    exact hR e (List.mem_cons_of_mem _ he)

/-- Two properties that agree step by step agree on the runs; each may use what the other has
kept so far. -/
theorem along_iff (hstep : ∀ s e, I s → (P s e ↔ Q s e))
    (hkeep : ∀ s e, I s → P s e → I (step s e)) (h : I s) :
    Along step P s events ↔ Along step Q s events := by
  constructor
  · apply Along.imp (fun s e hs => (hstep s e hs).mp) hkeep h
  · apply Along.imp (fun s e hs => (hstep s e hs).mpr) _ h
    intro s e hs hQ
    exact hkeep s e hs ((hstep s e hs).mpr hQ)

/-- What is kept by the steps that have the property holds at the end of a run of such steps. -/
theorem Along.invariant (hkeep : ∀ s e, I s → P s e → I (step s e)) (h : I s)
    (hP : Along step P s events) : I (events.foldl step s) := by
  induction events generalizing s with
  | nil => exact h
  | cons e events ih => exact ih (hkeep s e h hP.1) hP.2

/-- What is kept of a state and of the records that the steps so far have added holds at the end of
the state and of all records of the run. -/
theorem Along.recorded {Record : Type} {J : (Record → Prop) → State → Prop}
    {adds : Record → State → Event → Prop} {A : Record → Prop}
    (hkeep : ∀ A s e, J A s → P s e → J (fun x => A x ∨ adds x s e) (step s e)) (h : J A s)
    (hP : Along step P s events) :
    J (fun x => A x ∨ Once step (adds x) s events) (events.foldl step s) := by
  induction events generalizing s A with
  | nil =>
    simp only [Once, or_false]
    exact h
  | cons e events ih =>
    simp only [Once, ← or_assoc]
    exact ih (hkeep A s e h hP.1) hP.2

variable {ε : Type} {attempt : State → Event → Except ε State} {s' : State} {e : ε}

end Machine
