import Mathlib.Algebra.BigOperators.Group.List.Basic
import Mathlib.Data.List.AList
import Mathlib.Tactic.Abel

/-!
# Tables of entities

A table holds the entities that were saved, by their ids. When one entity is saved, a sum over the
table changes by the difference to what was there before; nothing is there at a new id. Reading
with a default hides the entities that hold no more than the default.
-/

/-- The entities that were saved, by their ids. -/
abbrev Table (Id Entity : Type) := AList fun _ : Id => Entity

namespace Table

variable {Id Entity M : Type} [DecidableEq Id] [AddCommMonoid M]

/-- The sum of `f` over the entities of the table. -/
def total (f : Entity → M) (t : Table Id Entity) : M := (t.entries.map fun e => f e.2).sum

/-- What the entity with the id contributes. -/
def share (f : Entity → M) (t : Table Id Entity) (id : Id) : M := ((t.lookup id).map f).getD 0

variable {f : Entity → M} {t : Table Id Entity} {id : Id} {entity old : Entity}

omit [DecidableEq Id] in
@[simp] theorem total_empty : total f (∅ : Table Id Entity) = 0 := rfl

theorem share_of_lookup (h : t.lookup id = some old) : t.share f id = f old := by
  simp [share, h]

theorem share_of_new (h : t.lookup id = none) : t.share f id = 0 := by
  simp [share, h]

theorem total_insert (f : Entity → M) (t : Table Id Entity) (id : Id) (entity : Entity) :
    total f (t.insert id entity) + t.share f id = total f t + f entity := by
  unfold total
  rw [AList.entries_insert]
  cases h : t.lookup id with
  | none =>
    have hkeys : id ∉ t.entries.keys := AList.lookup_eq_none.mp h
    rw [share_of_new h, List.kerase_of_notMem_keys hkeys, List.map_cons, List.sum_cons]
    abel
  | some old =>
    have hkeys : id ∈ t.entries.keys := AList.lookup_isSome.mp (by simp [h])
    obtain ⟨b, l₁, l₂, -, hentries, herase⟩ := List.exists_of_kerase hkeys
    have hb : t.lookup id = some b := by
      apply AList.mem_lookup_iff.mpr
      rw [hentries]
      exact List.mem_append_right _ List.mem_cons_self
    rw [share_of_lookup hb, herase, hentries]
    simp only [List.map_cons, List.map_append, List.sum_cons, List.sum_append]
    abel

/-- The entity with the id, or the default. -/
def view (default : Entity) (t : Table Id Entity) (id : Id) : Entity := (t.lookup id).getD default

@[simp] theorem view_insert (default : Entity) :
    view default (t.insert id entity) = Function.update (t.view default) id entity := by
  funext other
  by_cases h : other = id
  · subst h
    simp [view, AList.lookup_insert]
  · simp [view, AList.lookup_insert_ne h, Function.update_of_ne h]

theorem share_eq_view {default : Entity} (hf : f default = 0) :
    t.share f id = f (t.view default id) := by
  unfold share view
  cases t.lookup id with
  | none => exact hf.symm
  | some entity => rfl

/-- What is in the view decides how the sum changes, where the default counts nothing. -/
theorem total_save (default : Entity) (hf : f default = 0) (t : Table Id Entity) (id : Id)
    (entity : Entity) :
    total f (t.insert id entity) + f (t.view default id) = total f t + f entity := by
  rw [← share_eq_view hf]
  exact total_insert f t id entity

end Table
