import Mathlib.Data.List.Basic
import Mathlib.Data.List.Induction
import Mathlib.Data.List.Nodup
import Mathlib.Tactic.Common

/-!
# Doubly linked lists in two tables

A linked list is stored in a `next` and a `prev` table over keys, with a null key behind
both ends. `Represents` says which sequence of keys the tables stand for. Insertion and
removal are described by what the new tables answer on the old keys, so that they apply to
any order of writes.
-/

namespace LinkedList

variable {K : Type} {next prev next' prev' : K → K} {null head tail head' tail' p n m x : K}
  {xs ys : List K}

/-- The keys `xs` are linked to each other, to `p` in front and to `n` behind. -/
def Segment (next prev : K → K) : K → List K → K → Prop
  | _, [], _ => True
  | p, x :: xs, n => prev x = p ∧ next x = xs.headD n ∧ Segment next prev x xs n

/-- Following `next` from a key visits the keys of the sequence in turn, then stops. -/
def Visits (next : K → K) (null : K) : K → List K → Prop
  | x, [] => x = null
  | x, y :: ys => x = y ∧ y ≠ null ∧ Visits next null (next y) ys

theorem headD_append (xs ys : List K) (n : K) : (xs ++ ys).headD n = xs.headD (ys.headD n) := by
  cases xs <;> simp

theorem getLastD_append (xs ys : List K) (p : K) :
    (xs ++ ys).getLastD p = ys.getLastD (xs.getLastD p) := by
  induction xs generalizing p with
  | nil => rfl
  | cons x xs ih => simp only [List.cons_append, List.getLastD_cons, ih]

theorem headD_mem (h : xs ≠ []) : xs.headD n ∈ xs := by
  cases xs with
  | nil => exact absurd rfl h
  | cons x xs => simp

theorem getLastD_mem (h : xs ≠ []) : xs.getLastD p ∈ xs := by
  rw [List.getLastD_eq_getLast?, List.getLast?_eq_some_getLast h]
  exact List.getLast_mem h

theorem segment_append : Segment next prev p (xs ++ ys) n ↔
    Segment next prev p xs (ys.headD n) ∧ Segment next prev (xs.getLastD p) ys n := by
  induction xs generalizing p with
  | nil => simp [Segment]
  | cons x xs ih =>
    simp only [List.cons_append, Segment, ih, headD_append, List.getLastD_cons, and_assoc]

theorem Segment.visits (hnull : null ∉ xs) (h : Segment next prev p xs null) :
    Visits next null (xs.headD null) xs := by
  induction xs generalizing p with
  | nil => rfl
  | cons x xs ih =>
    obtain ⟨-, hnext, hrest⟩ := h
    rw [List.mem_cons, not_or] at hnull
    refine ⟨rfl, Ne.symm hnull.1, ?_⟩
    rw [hnext]
    exact ih hnull.2 hrest

theorem Segment.visits_reverse (hnull : null ∉ xs) (h : Segment next prev null xs n) :
    Visits prev null (xs.getLastD null) xs.reverse := by
  induction xs using List.reverseRecOn generalizing n with
  | nil => rfl
  | append_singleton xs x ih =>
    obtain ⟨hfront, hprev, -⟩ := segment_append.mp h
    rw [List.mem_append, List.mem_singleton, not_or] at hnull
    rw [getLastD_append, List.reverse_append]
    refine ⟨rfl, Ne.symm hnull.2, ?_⟩
    rw [hprev]
    exact ih hnull.1 hfront

section

variable [DecidableEq K]

/-- New tables that agree but for what follows the last key. -/
theorem Segment.relinkLast (hnodup : xs.Nodup) (hnull : null ∉ xs)
    (hprev : ∀ a ∈ xs, prev' a = prev a)
    (hnext : ∀ a ∈ xs, next' a = if a = xs.getLastD null then m else next a)
    (h : Segment next prev p xs n) : Segment next' prev' p xs m := by
  induction xs generalizing p with
  | nil => trivial
  | cons x xs ih =>
    obtain ⟨hp, hn, hrest⟩ := h
    obtain ⟨hx, hnodup⟩ := List.nodup_cons.mp hnodup
    have hnull' : null ∉ xs := fun hmem => hnull (List.mem_cons_of_mem _ hmem)
    refine ⟨(hprev x (by simp)).trans hp, ?_, ih hnodup hnull' (fun a ha => hprev a (by simp [ha]))
      (fun a ha => ?_) hrest⟩
    · cases xs with
      | nil => simpa using hnext x (by simp)
      | cons y ys =>
        have hne : x ≠ (x :: y :: ys).getLastD null := by
          rw [List.getLastD_cons]
          rintro he
          exact hx (he ▸ getLastD_mem (by simp))
        rw [hnext x (by simp), if_neg hne, hn]
        rfl
    · have hxs : xs ≠ [] := List.ne_nil_of_mem ha
      have hlast : (x :: xs).getLastD null = xs.getLastD null := by
        cases xs with
        | nil => exact absurd rfl hxs
        | cons y ys => simp
      rw [hnext a (by simp [ha]), hlast]

/-- New tables that agree but for what precedes the first key. -/
theorem Segment.relinkFirst (hnodup : ys.Nodup)
    (hnext : ∀ a ∈ ys, next' a = next a)
    (hprev : ∀ a ∈ ys, prev' a = if a = ys.headD null then m else prev a)
    (h : Segment next prev p ys n) : Segment next' prev' m ys n := by
  have hsame : ∀ {zs : List K} {q : K}, (∀ a ∈ zs, next' a = next a ∧ prev' a = prev a) →
      Segment next prev q zs n → Segment next' prev' q zs n := by
    intro zs
    induction zs with
    | nil => exact fun _ _ => trivial
    | cons z zs ih =>
      intro q hz h
      exact ⟨(hz z (by simp)).2.trans h.1, (hz z (by simp)).1.trans h.2.1,
        ih (fun a ha => hz a (by simp [ha])) h.2.2⟩
  cases ys with
  | nil => trivial
  | cons y ys =>
    obtain ⟨hy, -⟩ := List.nodup_cons.mp hnodup
    refine ⟨by simpa using hprev y (by simp), (hnext y (by simp)).trans h.2.1,
      hsame (fun a ha => ⟨hnext a (by simp [ha]), ?_⟩) h.2.2⟩
    rw [hprev a (by simp [ha]), if_neg]
    rintro rfl
    exact hy ha

end

/-- The tables, with the two ends, stand for the sequence `xs`. -/
structure Represents (next prev : K → K) (null head tail : K) (xs : List K) : Prop where
  nodup : xs.Nodup
  null_notMem : null ∉ xs
  head_eq : head = xs.headD null
  tail_eq : tail = xs.getLastD null
  segment : Segment next prev null xs null

namespace Represents

theorem next_eq (h : Represents next prev null head tail (xs ++ x :: ys)) :
    next x = ys.headD null :=
  (segment_append.mp h.segment).2.2.1

theorem prev_eq (h : Represents next prev null head tail (xs ++ x :: ys)) :
    prev x = xs.getLastD null :=
  (segment_append.mp h.segment).2.1

/-- From the head, `next` visits the sequence. -/
theorem visits (h : Represents next prev null head tail xs) : Visits next null head xs := by
  rw [h.head_eq]
  exact h.segment.visits h.null_notMem

/-- From the tail, `prev` visits it backwards. -/
theorem visits_reverse (h : Represents next prev null head tail xs) :
    Visits prev null tail xs.reverse := by
  rw [h.tail_eq]
  exact h.segment.visits_reverse h.null_notMem

theorem tail_mem (h : Represents next prev null head tail xs) (hxs : xs ≠ []) : tail ∈ xs := by
  rw [h.tail_eq]
  exact getLastD_mem hxs

theorem head_mem (h : Represents next prev null head tail xs) (hxs : xs ≠ []) : head ∈ xs := by
  rw [h.head_eq]
  exact headD_mem hxs

/-- A key and its successor cut the sequence in two. -/
theorem cut_after (h : Represents next prev null head tail xs) (hx : x ∈ xs) :
    ∃ as bs, xs = as ++ bs ∧ as.getLastD null = x ∧ bs.headD null = next x := by
  obtain ⟨as, bs, rfl⟩ := List.append_of_mem hx
  refine ⟨as ++ [x], bs, by simp, by simp, h.next_eq.symm⟩

/-- A key and its predecessor cut the sequence in two. -/
theorem cut_before (h : Represents next prev null head tail xs) (hx : x ∈ xs) :
    ∃ as bs, xs = as ++ bs ∧ as.getLastD null = prev x ∧ bs.headD null = x := by
  obtain ⟨as, bs, rfl⟩ := List.append_of_mem hx
  exact ⟨as, x :: bs, rfl, h.prev_eq.symm, rfl⟩

/-- Where a key other than null ends a prefix, the prefix is not empty. -/
theorem ne_nil_of_getLastD (hx : xs.getLastD null ≠ null) : xs ≠ [] := by
  rintro rfl
  exact hx rfl

variable [DecidableEq K]

theorem insert (h : Represents next prev null head tail (xs ++ ys)) (hx : x ∉ xs ++ ys)
    (hnull : x ≠ null)
    (hnext : ∀ a ∈ xs ++ ys, next' a = if a = xs.getLastD null then x else next a)
    (hprev : ∀ a ∈ xs ++ ys, prev' a = if a = ys.headD null then x else prev a)
    (hnextx : next' x = ys.headD null) (hprevx : prev' x = xs.getLastD null)
    (hhead : head' = xs.headD x) (htail : tail' = ys.getLastD x) :
    Represents next' prev' null head' tail' (xs ++ x :: ys) := by
  obtain ⟨hxs, hys, hdisjoint⟩ := List.nodup_append.mp h.nodup
  obtain ⟨hfront, hback⟩ := segment_append.mp h.segment
  have hnullxs : null ∉ xs := fun hm => h.null_notMem (by simp [hm])
  have hnullys : null ∉ ys := fun hm => h.null_notMem (by simp [hm])
  refine ⟨?_, ?_, ?_, ?_, segment_append.mpr ⟨?_, hprevx, hnextx, ?_⟩⟩
  · rw [List.nodup_middle]
    exact List.nodup_cons.mpr ⟨hx, h.nodup⟩
  · simp only [List.mem_append, List.mem_cons, not_or]
    exact ⟨hnullxs, hnull.symm, hnullys⟩
  · rw [hhead, headD_append]
    rfl
  · rw [htail, getLastD_append, List.getLastD_cons]
  · -- nothing in front of `x` has a new predecessor
    refine hfront.relinkLast hxs hnullxs (fun a ha => ?_) (fun a ha => hnext a (by simp [ha]))
    rw [hprev a (by simp [ha]), if_neg]
    rintro rfl
    have hne : ys ≠ [] := by
      rintro rfl
      exact hnullxs ha
    exact hdisjoint _ ha _ (headD_mem hne) rfl
  · refine hback.relinkFirst hys (fun a ha => ?_) (fun a ha => hprev a (by simp [ha]))
    rw [hnext a (by simp [ha]), if_neg]
    rintro rfl
    have hne : xs ≠ [] := by
      rintro rfl
      exact hnullys ha
    exact hdisjoint _ (getLastD_mem hne) _ ha rfl

theorem remove (h : Represents next prev null head tail (xs ++ x :: ys))
    (hnext : ∀ a ∈ xs ++ ys, next' a = if a = xs.getLastD null then ys.headD null else next a)
    (hprev : ∀ a ∈ xs ++ ys, prev' a = if a = ys.headD null then xs.getLastD null else prev a)
    (hhead : head' = (xs ++ ys).headD null) (htail : tail' = (xs ++ ys).getLastD null) :
    Represents next' prev' null head' tail' (xs ++ ys) := by
  have hnodup : (xs ++ ys).Nodup := (List.nodup_cons.mp (List.nodup_middle.mp h.nodup)).2
  obtain ⟨hxs, hys, hdisjoint⟩ := List.nodup_append.mp hnodup
  obtain ⟨hfront, -, -, hback⟩ := segment_append.mp h.segment
  have hnullxs : null ∉ xs := fun hm => h.null_notMem (by simp [hm])
  have hnullys : null ∉ ys := fun hm => h.null_notMem (by simp [hm])
  refine ⟨hnodup, by simp [hnullxs, hnullys], hhead, htail, segment_append.mpr ⟨?_, ?_⟩⟩
  · refine hfront.relinkLast hxs hnullxs (fun a ha => ?_) (fun a ha => hnext a (by simp [ha]))
    rw [hprev a (by simp [ha]), if_neg]
    rintro rfl
    have hne : ys ≠ [] := by
      rintro rfl
      exact hnullxs ha
    exact hdisjoint _ ha _ (headD_mem hne) rfl
  · refine hback.relinkFirst hys (fun a ha => ?_) (fun a ha => hprev a (by simp [ha]))
    rw [hnext a (by simp [ha]), if_neg]
    rintro rfl
    have hne : xs ≠ [] := by
      rintro rfl
      exact hnullys ha
    exact hdisjoint _ (getLastD_mem hne) _ ha rfl

end Represents

end LinkedList
