import MoneyProtocol.Book.Runs
import Mathlib.Data.List.Sort

/-!
# The sorted list on its own

The list as a contract of its own, under any sequence of calls with any hints and any ratios.
It is a well-formed list whatever `getNominalICR` answers; and on a list that is sorted, the
hints do not matter up to owners with equal ratios.
-/

namespace MoneyProtocol.SortedVaults

open Outcome LinkedList

variable {data data' : SortedVaults} {xs ys : List Address} {id prevId nextId : Address}
  {getNominalICR : Address → Outcome ℕ} {maxSize NICR : ℕ} {e : Failure}

/-- A call that changes the list. -/
inductive ListCall where
  | insert (id : Address) (NICR : ℕ) (prevId nextId : Address)
  | reInsert (id : Address) (newNICR : ℕ) (prevId nextId : Address)
  | remove (id : Address)

namespace ListCall

def execute (getNominalICR : Address → Outcome ℕ) (maxSize : ℕ) :
    ListCall → SortedVaults → Outcome SortedVaults
  | .insert id NICR prevId nextId => SortedVaults.insert getNominalICR maxSize id NICR prevId nextId
  | .reInsert id newNICR prevId nextId =>
    SortedVaults.reInsert getNominalICR maxSize id newNICR prevId nextId
  | .remove id => SortedVaults.remove id

/-- The list after the call; a call that fails leaves it as it was. -/
def after (getNominalICR : Address → Outcome ℕ) (maxSize : ℕ) (c : ListCall)
    (data : SortedVaults) : SortedVaults :=
  match c.execute getNominalICR maxSize data with
  | .ok data => data
  | .error _ => data

/-- What the call does to the sequence: it adds, moves or takes out one node, and the others
keep their order. -/
def Effect : ListCall → List Address → List Address → Prop
  | .insert id _ _ _, xs, ys => id ∉ xs ∧ id ∈ ys ∧ ys.erase id = xs
  | .reInsert id _ _ _, xs, ys => id ∈ xs ∧ id ∈ ys ∧ ys.erase id = xs.erase id
  | .remove id, xs, ys => id ∈ xs ∧ ys = xs.erase id

end ListCall

/-- The list before the first call. -/
def empty : SortedVaults := ⟨0, 0, 0, fun _ => Node.deleted⟩

/-- The calls in turn, each with the ratios that are read during it. -/
def runCalls (maxSize : ℕ) :
    List ((Address → Outcome ℕ) × ListCall) → SortedVaults → SortedVaults
  | [], data => data
  | (getNominalICR, c) :: calls, data =>
    runCalls maxSize calls (c.after getNominalICR maxSize data)

/-- Both chains visit the same nodes, in opposite order and each node once, and the size
counts them. -/
structure WellFormed (data : SortedVaults) (xs : List Address) : Prop where
  forward : Visits (fun a => getNext a data) 0 (getFirst data) xs
  backward : Visits (fun a => getPrev a data) 0 (getLast data) xs.reverse
  nodup : xs.Nodup
  contains_iff : ∀ a, contains a data ↔ a ∈ xs
  size_eq : getSize data = xs.length

theorem Linked.wellFormed (h : Linked data xs) : WellFormed data xs where
  forward := h.represents.visits
  backward := h.represents.visits_reverse
  nodup := h.nodup
  contains_iff := fun _ => h.contains_iff
  size_eq := h.size_eq

theorem erase_middle (h : (xs ++ id :: ys).Nodup) : (xs ++ id :: ys).erase id = xs ++ ys := by
  have hmem : id ∉ xs := by
    intro hid
    exact (List.nodup_append.mp h).2.2 id hid id (by simp) rfl
  rw [List.erase_append_right _ hmem, List.erase_cons_head]

theorem execute_linked {c : ListCall} (h : Linked data xs)
    (hc : c.execute getNominalICR maxSize data = .ok data') :
    ∃ ys, Linked data' ys ∧ c.Effect xs ys := by
  cases c with
  | insert id NICR prevId nextId =>
    obtain ⟨hid, -, -, front, back, rfl, -, h'⟩ := insert_sound h hc
    exact ⟨_, h', hid, by simp, erase_middle h'.nodup⟩
  | reInsert id newNICR prevId nextId =>
    obtain ⟨-, as, bs, front, back, rfl, hsplit, -, h'⟩ := reInsert_sound h hc
    refine ⟨_, h', by simp, by simp, ?_⟩
    rw [erase_middle h'.nodup, erase_middle h.nodup, hsplit]
  | remove id =>
    obtain ⟨front, back, rfl, h'⟩ := remove_sound h hc
    exact ⟨_, h', by simp, (erase_middle h.nodup).symm⟩

theorem after_linked {c : ListCall} (h : Linked data xs) :
    ∃ ys, Linked (c.after getNominalICR maxSize data) ys := by
  unfold ListCall.after
  cases hc : c.execute getNominalICR maxSize data with
  | ok data' =>
    obtain ⟨ys, h', -⟩ := execute_linked h hc
    exact ⟨ys, h'⟩
  | error e => exact ⟨xs, h⟩

theorem runCalls_linked {calls : List ((Address → Outcome ℕ) × ListCall)} (h : Linked data xs) :
    ∃ ys, Linked (runCalls maxSize calls data) ys := by
  induction calls generalizing data xs with
  | nil => exact ⟨xs, h⟩
  | cons call calls ih =>
    obtain ⟨getNominalICR, c⟩ := call
    obtain ⟨ys, h'⟩ : ∃ ys, Linked (c.after getNominalICR maxSize data) ys := after_linked h
    exact ih h'

/-- Every check of a call is a `require`, so nothing but a read can run out of gas. -/
theorem require_ne_outOfGas {p : Prop} [Decidable p] {reason : String} :
    require p reason ≠ .error .outOfGas := by
  by_cases hp : p <;> simp [require, hp]

theorem insert_ne_outOfGas (h : Linked data xs) (hf : ∀ b, getNominalICR b ≠ .error .outOfGas) :
    insert getNominalICR maxSize id NICR prevId nextId data ≠ .error .outOfGas := by
  intro he
  simp only [insert, bind_error, require_ne_outOfGas, false_or] at he
  obtain ⟨_, -, _, -, _, -, _, -, he | ⟨valid, -, he | ⟨q, -, he | ⟨_, -, he⟩⟩⟩⟩ := he
  · exact validInsertPosition_ne_error hf he
  · cases valid with
    | true => simp [pure, Except.pure] at he
    | false => exact findInsertPosition_ne_error h hf he
  · simp [SafeMath.add, bind_error, require_ne_outOfGas, pure, Except.pure] at he
  · simp [pure, Except.pure] at he

theorem remove_ne_outOfGas : remove id data ≠ .error .outOfGas := by
  intro he
  simp only [remove, bind_error, require_ne_outOfGas, false_or] at he
  obtain ⟨_, -, he | ⟨_, -, he⟩⟩ := he
  · simp [SafeMath.sub, SafeMath.subWith, bind_error, require_ne_outOfGas, pure, Except.pure] at he
  · simp [pure, Except.pure] at he

theorem execute_ne_outOfGas {c : ListCall} (h : Linked data xs)
    (hf : ∀ b, getNominalICR b ≠ .error .outOfGas) :
    c.execute getNominalICR maxSize data ≠ .error .outOfGas := by
  cases c with
  | insert id NICR prevId nextId => exact insert_ne_outOfGas h hf
  | reInsert id newNICR prevId nextId =>
    intro he
    simp only [ListCall.execute, reInsert, bind_error, require_ne_outOfGas, false_or] at he
    obtain ⟨_, -, _, -, he | ⟨data₁, hremove, he⟩⟩ := he
    · exact remove_ne_outOfGas he
    · obtain ⟨front, back, -, h₁⟩ := remove_sound h hremove
      exact insert_ne_outOfGas h₁ hf he
  | remove id => exact remove_ne_outOfGas

/-- After any calls the list is well-formed, the next call touches no node but its own, and
neither it nor a search of its own runs for ever: only reading a ratio can. -/
theorem wellFormed_after_calls (maxSize : ℕ)
    (calls : List ((Address → Outcome ℕ) × ListCall)) (getNominalICR : Address → Outcome ℕ)
    (c : ListCall) :
    ∃ xs, WellFormed (runCalls maxSize calls empty) xs ∧
      (∀ data', c.execute getNominalICR maxSize (runCalls maxSize calls empty) = .ok data' →
        ∃ ys, WellFormed data' ys ∧ c.Effect xs ys) ∧
      ((∀ b, getNominalICR b ≠ .error .outOfGas) →
        c.execute getNominalICR maxSize (runCalls maxSize calls empty) ≠ .error .outOfGas ∧
        ∀ NICR prevId nextId, findInsertPosition getNominalICR NICR prevId nextId
          (runCalls maxSize calls empty) ≠ .error .outOfGas) := by
  obtain ⟨xs, h⟩ : ∃ xs, Linked (runCalls maxSize calls empty) xs := runCalls_linked linked_empty
  refine ⟨xs, h.wellFormed, fun data' hc => ?_, fun hf => ⟨?_, fun NICR prevId nextId => ?_⟩⟩
  · obtain ⟨ys, h', heffect⟩ := execute_linked h hc
    exact ⟨ys, h'.wellFormed, heffect⟩
  · exact execute_ne_outOfGas h hf
  · exact findInsertPosition_ne_error h hf

/-- Both calls fail for the same reason, or both leave a sorted list with the node in it, and with
the same ratios. -/
inductive SameUpToTies (ratio : Address → ℕ) (id : Address) :
    Outcome SortedVaults → Outcome SortedVaults → Prop
  | failed (e : Failure) : SameUpToTies ratio id (.error e) (.error e)
  | sorted {data data' : SortedVaults} {xs ys : List Address} (h : Linked data xs)
      (h' : Linked data' ys) (hid : id ∈ xs) (hid' : id ∈ ys)
      (hxs : (xs.map ratio).Pairwise (· ≥ ·)) (hys : (ys.map ratio).Pairwise (· ≥ ·))
      (hsame : xs.map ratio = ys.map ratio) : SameUpToTies ratio id (.ok data) (.ok data')

section

variable {ratio : Address → ℕ} {p n p' n' : Address}

/-- Ratios that enclose the new one keep the list sorted. -/
theorem Encloses.sorted (h : Encloses (fun a => .ok (ratio a)) NICR xs ys) (hid : id ∉ xs ++ ys)
    (hsorted : ((xs ++ ys).map ratio).Pairwise (· ≥ ·)) :
    ((xs ++ id :: ys).map (Function.update ratio id NICR)).Pairwise (· ≥ ·) := by
  have hsame : ∀ zs : List Address, id ∉ zs →
      zs.map (Function.update ratio id NICR) = zs.map ratio := by
    intro zs hzs
    apply List.map_congr_left
    intro a ha
    rw [Function.update_of_ne]
    rintro rfl
    exact hzs ha
  rw [List.mem_append, not_or] at hid
  rw [List.map_append, List.pairwise_append] at hsorted
  obtain ⟨hfront, hback, hacross⟩ := hsorted
  have hprev : ∀ r ∈ xs.map ratio, r ≥ NICR := by
    intro r hr
    induction xs using List.reverseRecOn with
    | nil => simp at hr
    | append_singleton xs x _ =>
      obtain ⟨r', hr', hle⟩ := h.prev (by simp)
      have hlast : ratio x = r' := by simpa using hr'
      rw [List.map_append, List.pairwise_append] at hfront
      rw [List.map_append, List.mem_append] at hr
      rcases hr with hr | hr
      · have hge := hfront.2.2 r hr (ratio x) (by simp)
        omega
      · have hr : r = ratio x := by simpa using hr
        omega
  have hnext : ∀ r ∈ ys.map ratio, NICR ≥ r := by
    intro r hr
    cases ys with
    | nil => simp at hr
    | cons y ys =>
      obtain ⟨r', hr', hle⟩ := h.next (by simp)
      have hfirst : ratio y = r' := by simpa using hr'
      rw [List.map_cons, List.pairwise_cons] at hback
      rw [List.map_cons, List.mem_cons] at hr
      rcases hr with hr | hr
      · omega
      · have hge := hback.1 r hr
        omega
  rw [List.map_append, List.map_cons, hsame xs hid.1, hsame ys hid.2, Function.update_self,
    List.pairwise_append, List.pairwise_cons]
  refine ⟨hfront, ⟨hnext, hback⟩, ?_⟩
  intro r hr r' hr'
  rw [List.mem_cons] at hr'
  rcases hr' with rfl | hr'
  · exact hprev r hr
  · exact hacross r hr r' hr'

/-- Sorted lists of the same ratios are equal. -/
theorem eq_of_sorted {xs ys xs' ys' : List Address} (hsplit : xs ++ ys = xs' ++ ys')
    (hsorted : ((xs ++ id :: ys).map ratio).Pairwise (· ≥ ·))
    (hsorted' : ((xs' ++ id :: ys').map ratio).Pairwise (· ≥ ·)) :
    (xs ++ id :: ys).map ratio = (xs' ++ id :: ys').map ratio := by
  have hperm : (xs ++ id :: ys).Perm (xs' ++ id :: ys') := by
    apply List.perm_middle.trans
    rw [hsplit]
    exact List.perm_middle.symm
  exact (hperm.map ratio).eq_of_pairwise' hsorted hsorted'

/-- With readable ratios a search succeeds whatever the hints are. -/
theorem findInsertPosition_isOk (h : Linked data xs) : ∃ q, findInsertPosition
    (fun a => .ok (ratio a)) NICR p n data = .ok q := by
  cases hq : findInsertPosition (fun a => .ok (ratio a)) NICR p n data with
  | ok q => exact ⟨q, rfl⟩
  | error e => exact absurd hq (findInsertPosition_ne_error h (by simp))

theorem validInsertPosition_isOk : ∃ valid, validInsertPosition
    (fun a => .ok (ratio a)) NICR p n data = .ok valid := by
  cases hq : validInsertPosition (fun a => .ok (ratio a)) NICR p n data with
  | ok valid => exact ⟨valid, rfl⟩
  | error e => exact absurd hq (validInsertPosition_ne_error (by simp))

/-- Whether an insertion fails, and why, is decided before the hints are looked at. -/
theorem insert_error (h : Linked data xs)
    (he : insert (fun a => .ok (ratio a)) maxSize id NICR p n data = .error e) :
    insert (fun a => .ok (ratio a)) maxSize id NICR p' n' data = .error e := by
  obtain ⟨valid, hvalid⟩ : ∃ valid, validInsertPosition (fun a => .ok (ratio a)) NICR p n data =
    .ok valid := validInsertPosition_isOk
  obtain ⟨q, hq⟩ : ∃ q, (if valid then pure (p, n) else findInsertPosition
      (fun a => .ok (ratio a)) NICR p n data) = .ok q := by
    cases valid with
    | true => exact ⟨_, rfl⟩
    | false => exact findInsertPosition_isOk h
  obtain ⟨valid', hvalid'⟩ : ∃ valid, validInsertPosition (fun a => .ok (ratio a)) NICR p' n' data =
    .ok valid := validInsertPosition_isOk
  obtain ⟨q', hq'⟩ : ∃ q, (if valid' then pure (p', n') else findInsertPosition
      (fun a => .ok (ratio a)) NICR p' n' data) = .ok q := by
    cases valid' with
    | true => exact ⟨_, rfl⟩
    | false => exact findInsertPosition_isOk h
  simp only [insert, hvalid, hvalid', bind_error, hq, hq', Except.ok.injEq, exists_eq_left',
    link_size, reduceCtorEq, false_or] at he ⊢
  simpa only [pure, Except.pure, reduceCtorEq, and_false, exists_false, or_false] using he

/-- Insertion with some hints and with others: the same list up to ties. -/
theorem insert_sameUpToTies (h : Linked data xs) (hsorted : (xs.map ratio).Pairwise (· ≥ ·)) :
    SameUpToTies (Function.update ratio id NICR) id
      (insert (fun a => .ok (ratio a)) maxSize id NICR p n data)
      (insert (fun a => .ok (ratio a)) maxSize id NICR p' n' data) := by
  cases hi : insert (fun a => .ok (ratio a)) maxSize id NICR p n data with
  | error e =>
    rw [insert_error h hi]
    exact .failed e
  | ok data₁ =>
    cases hi' : insert (fun a => .ok (ratio a)) maxSize id NICR p' n' data with
    | error e =>
      rw [insert_error h hi'] at hi
      cases hi
    | ok data₂ =>
      obtain ⟨hid, -, -, as, bs, rfl, hencloses, h₁⟩ := insert_sound h hi
      obtain ⟨-, -, -, as', bs', hsplit, hencloses', h₂⟩ := insert_sound h hi'
      have hsorted₁ := hencloses.sorted hid hsorted
      have hsorted₂ := hencloses'.sorted (hsplit ▸ hid) (hsplit ▸ hsorted)
      exact .sorted h₁ h₂ (List.mem_append_right _ List.mem_cons_self)
        (List.mem_append_right _ List.mem_cons_self) hsorted₁ hsorted₂
        (eq_of_sorted hsplit hsorted₁ hsorted₂)

/-- On a list that is sorted, but for the node that moves, insertion with hints and without
leave the same list up to ties. -/
theorem hints_only_affect_cost (h : Linked data xs)
    (hsorted : ((xs.erase id).map ratio).Pairwise (· ≥ ·)) (maxSize NICR : ℕ)
    (prevId nextId : Address) :
    SameUpToTies (Function.update ratio id NICR) id
        (insert (fun a => .ok (ratio a)) maxSize id NICR prevId nextId data)
        (insert (fun a => .ok (ratio a)) maxSize id NICR 0 0 data) ∧
      SameUpToTies (Function.update ratio id NICR) id
        (reInsert (fun a => .ok (ratio a)) maxSize id NICR prevId nextId data)
        (reInsert (fun a => .ok (ratio a)) maxSize id NICR 0 0 data) := by
  constructor
  · by_cases hid : id ∈ xs
    · have hcontains : contains id data := h.contains_iff.mpr hid
      by_cases hfull : isFull maxSize data
      · simp only [insert, require, hfull, not_true_eq_false, if_false]
        exact .failed _
      · simp only [insert, require, hfull, hcontains, not_false_eq_true, not_true_eq_false, if_true,
          if_false]
        exact .failed _
    · rw [List.erase_of_not_mem hid] at hsorted
      exact insert_sameUpToTies h hsorted
  · unfold reInsert
    by_cases hcontains : contains id data
    · by_cases hpos : NICR > 0
      · simp only [require, if_pos hcontains, if_pos hpos]
        cases hr : remove id data with
        | error e => exact .failed e
        | ok data₁ =>
          obtain ⟨as, bs, rfl⟩ := List.append_of_mem (h.contains_iff.mp hcontains)
          rw [erase_middle h.nodup] at hsorted
          exact insert_sameUpToTies (remove_linked h hr) hsorted
      · simp only [require, if_neg hpos]
        by_cases hc : contains id data
        · rw [if_pos hc]
          exact .failed _
        · exact absurd hcontains hc
    · simp only [require, if_neg hcontains]
      exact .failed _

end

/-- Node 3 ties with node 2; with these hints it goes in front of it. -/
theorem hints_only_affect_cost_tied : ∃ data, Linked data [1, 2] ∧
    SameUpToTies (Function.update (fun a => if a = 1 then 10 else 5) 3 5) 3
      (insert (fun a => .ok (if a = 1 then 10 else 5)) 100 3 5 1 2 data)
      (insert (fun a => .ok (if a = 1 then 10 else 5)) 100 3 5 0 0 data) := by
  have h₁ : Linked _ [1] := @Linked.link empty [] [] 1 linked_empty (by simp) (by decide)
  have h₂ : Linked _ [1, 2] := @Linked.link _ [1] [] 2 h₁ (by simp) (by decide)
  exact ⟨_, h₂, (hints_only_affect_cost h₂ (by decide) 100 5 1 2).1⟩

end MoneyProtocol.SortedVaults
