import Mathlib.Data.List.Basic
import Mathlib.Logic.Function.Basic

/-!
# Trails of steps

Steps that each say where they start and where they end make a trail when every step starts where
the one before it ended. A ledger is a list of steps of many objects, whose steps make a trail for
each of them.
-/

variable {Id Step Position : Type} [DecidableEq Id]

def Trail (source target : Step → Position) : Position → List Step → Position → Prop
  | first, [], last => first = last
  | first, step :: steps, last => source step = first ∧ Trail source target (target step) steps last

/-- The steps of each object lead from the origin to where the object is. -/
def Ledger (key : Step → Id) (source target : Step → Position) (origin : Position)
    (place : Id → Position) (steps : List Step) : Prop :=
  ∀ id, Trail source target origin (steps.filter fun step => key step = id) (place id)

variable {key : Step → Id} {source target : Step → Position} {origin first last : Position}
  {place : Id → Position} {steps : List Step} {step : Step}

/-- A further step starts where the trail has come to. -/
theorem Trail.snoc (h : Trail source target first steps last) (hsource : source step = last) :
    Trail source target first (steps ++ [step]) (target step) := by
  induction steps generalizing first with
  | nil =>
    obtain rfl : first = last := h
    exact ⟨hsource, rfl⟩
  | cons next steps ih => exact ⟨h.1, ih h.2⟩

theorem Ledger.nil : Ledger key source target origin (fun _ => origin) [] := fun _ => rfl

/-- A step of one object moves that object. -/
theorem Ledger.snoc (h : Ledger key source target origin place steps)
    (hsource : source step = place (key step)) :
    Ledger key source target origin (Function.update place (key step) (target step))
      (steps ++ [step]) := by
  intro id
  rw [List.filter_append, List.filter_singleton]
  by_cases hid : key step = id
  · subst hid
    rw [Function.update_self, decide_eq_true rfl]
    exact (h _).snoc hsource
  · rw [Function.update_of_ne (Ne.symm hid), decide_eq_false hid]
    simpa using h id
