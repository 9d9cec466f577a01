import MoneyProtocol.Contracts.SortedVaults
import MoneyProtocol.Library.LinkedList

/-!
# The sorted list, specified

The storage of `SortedVaults` stands for a sequence of owners. The writes of `insert` put an
owner between two neighbours, the writes of `remove` take one out.
-/

namespace MoneyProtocol.SortedVaults

open Outcome LinkedList

variable {data : SortedVaults} {xs ys : List Address} {a b : Address}

section

variable {nodes : Address → Node} {id x : Address}

@[simp] theorem setNext_nextId :
    (setNext id x nodes b).nextId = if b = id then x else (nodes b).nextId := by
  by_cases h : b = id <;> simp [setNext, h]

@[simp] theorem setNext_prevId : (setNext id x nodes b).prevId = (nodes b).prevId := by
  by_cases h : b = id <;> simp [setNext, h]

@[simp] theorem setNext_isPresent : (setNext id x nodes b).isPresent = (nodes b).isPresent := by
  by_cases h : b = id <;> simp [setNext, h]

@[simp] theorem setPrev_prevId :
    (setPrev id x nodes b).prevId = if b = id then x else (nodes b).prevId := by
  by_cases h : b = id <;> simp [setPrev, h]

@[simp] theorem setPrev_nextId : (setPrev id x nodes b).nextId = (nodes b).nextId := by
  by_cases h : b = id <;> simp [setPrev, h]

@[simp] theorem setPrev_isPresent : (setPrev id x nodes b).isPresent = (nodes b).isPresent := by
  by_cases h : b = id <;> simp [setPrev, h]

theorem setNext_of_ne (h : b ≠ id) : setNext id x nodes b = nodes b := by
  simp [setNext, h]

theorem setPrev_of_ne (h : b ≠ id) : setPrev id x nodes b = nodes b := by
  simp [setPrev, h]

end

section

variable {p n : Address}

theorem link_head : (link a p n data).head = if p = 0 then a else data.head := by
  unfold link
  split_ifs <;> simp_all

theorem link_tail : (link a p n data).tail = if n = 0 then a else data.tail := by
  unfold link
  split_ifs <;> simp_all

theorem link_size : (link a p n data).size = data.size := by
  unfold link
  split_ifs <;> rfl

theorem link_present : ((link a p n data).nodes b).isPresent =
    if b = a then true else (data.nodes b).isPresent := by
  unfold link
  by_cases hb : b = a
  · subst hb
    rw [if_pos rfl]
    split_ifs <;> simp
  · rw [if_neg hb]
    split_ifs <;> simp [hb]

/-- The key in front of the new one gets a new successor, and no other key. -/
theorem link_nextId (hb : b ≠ 0) (hba : b ≠ a) (htail : n = 0 → p ≠ 0 → p = data.tail) :
    ((link a p n data).nodes b).nextId = if b = p then a else (data.nodes b).nextId := by
  unfold link
  split_ifs <;> simp_all

theorem link_prevId (hb : b ≠ 0) (hba : b ≠ a) (hhead : p = 0 → n ≠ 0 → n = data.head) :
    ((link a p n data).nodes b).prevId = if b = n then a else (data.nodes b).prevId := by
  unfold link
  split_ifs <;> simp_all

theorem link_nextId_self (ha : data.nodes a = Node.deleted) (hap : a ≠ p)
    (hhead : p = 0 → n ≠ 0 → n = data.head) (htail : n = 0 → p ≠ 0 → p = data.tail) :
    ((link a p n data).nodes a).nextId = n := by
  unfold link
  split_ifs <;> simp_all [Node.deleted]

theorem link_prevId_self (ha : data.nodes a = Node.deleted) (han : a ≠ n)
    (hhead : p = 0 → n ≠ 0 → n = data.head) (htail : n = 0 → p ≠ 0 → p = data.tail) :
    ((link a p n data).nodes a).prevId = p := by
  unfold link
  split_ifs <;> simp_all [Node.deleted]

/-- Null neighbours are not written to. -/
theorem link_of_ne (hba : b ≠ a) (hbp : p ≠ 0 → b ≠ p) (hbn : n ≠ 0 → b ≠ n)
    (hhead : p = 0 → n ≠ 0 → n = data.head) (htail : n = 0 → p ≠ 0 → p = data.tail) :
    (link a p n data).nodes b = data.nodes b := by
  unfold link
  split_ifs <;> simp_all [setNext_of_ne, setPrev_of_ne]

/-- The neighbours of `a` are null exactly where `a` is at an end of the list. -/
structure EndsAgree (data : SortedVaults) (a : Address) : Prop where
  single : ¬data.size > 1 → (data.nodes a).prevId = 0 ∧ (data.nodes a).nextId = 0
  head : data.size > 1 → a = data.head → (data.nodes a).prevId = 0 ∧ (data.nodes a).nextId ≠ 0
  tail : data.size > 1 → a ≠ data.head → a = data.tail →
    (data.nodes a).prevId ≠ 0 ∧ (data.nodes a).nextId = 0
  inner : data.size > 1 → a ≠ data.head → a ≠ data.tail →
    (data.nodes a).prevId ≠ 0 ∧ (data.nodes a).nextId ≠ 0
  prev_ne : (data.nodes a).prevId ≠ a

theorem unlink_nextId (he : EndsAgree data a) (hb : b ≠ 0) :
    ((unlink a data).nodes b).nextId =
      if b = (data.nodes a).prevId then (data.nodes a).nextId else (data.nodes b).nextId := by
  unfold unlink
  by_cases hsize : data.size > 1
  · by_cases hhead : a = data.head
    · simp only [if_pos hsize, if_pos hhead, setPrev_nextId, (he.head hsize hhead).1, if_neg hb]
    · by_cases htail : a = data.tail
      · simp only [if_pos hsize, if_neg hhead, if_pos htail, setNext_nextId,
          (he.tail hsize hhead htail).2]
      · simp only [if_pos hsize, if_neg hhead, if_neg htail, setPrev_nextId, setNext_nextId]
  · simp only [if_neg hsize, (he.single hsize).1, if_neg hb]

theorem unlink_prevId (he : EndsAgree data a) (hb : b ≠ 0) :
    ((unlink a data).nodes b).prevId =
      if b = (data.nodes a).nextId then (data.nodes a).prevId else (data.nodes b).prevId := by
  unfold unlink
  by_cases hsize : data.size > 1
  · by_cases hhead : a = data.head
    · simp only [if_pos hsize, if_pos hhead, setPrev_prevId, (he.head hsize hhead).1]
    · by_cases htail : a = data.tail
      · simp only [if_pos hsize, if_neg hhead, if_pos htail, setNext_prevId,
          (he.tail hsize hhead htail).2, if_neg hb]
      · simp only [if_pos hsize, if_neg hhead, if_neg htail, setPrev_prevId, setNext_nextId,
          setNext_prevId, if_neg he.prev_ne.symm]
  · simp only [if_neg hsize, (he.single hsize).2, if_neg hb]

/-- Null neighbours are not written to. -/
theorem unlink_of_ne (he : EndsAgree data a)
    (hprev : (data.nodes a).prevId ≠ 0 → b ≠ (data.nodes a).prevId)
    (hnext : (data.nodes a).nextId ≠ 0 → b ≠ (data.nodes a).nextId) :
    (unlink a data).nodes b = data.nodes b := by
  unfold unlink
  by_cases hsize : data.size > 1
  · by_cases hhead : a = data.head
    · simp only [if_pos hsize, if_pos hhead]
      exact setPrev_of_ne (hnext (he.head hsize hhead).2)
    · by_cases htail : a = data.tail
      · simp only [if_pos hsize, if_neg hhead, if_pos htail]
        exact setNext_of_ne (hprev (he.tail hsize hhead htail).1)
      · obtain ⟨hp, hn⟩ := he.inner hsize hhead htail
        simp only [if_pos hsize, if_neg hhead, if_neg htail, setNext_nextId, setNext_prevId,
          if_neg he.prev_ne.symm]
        rw [setPrev_of_ne (hnext hn), setNext_of_ne (hprev hp)]
  · simp only [if_neg hsize]

theorem unlink_head : (unlink a data).head =
    if data.size > 1 then if a = data.head then (data.nodes a).nextId else data.head else 0 := by
  unfold unlink
  split_ifs <;> rfl

theorem unlink_tail : (unlink a data).tail = if data.size > 1 then
    if a ≠ data.head ∧ a = data.tail then (data.nodes a).prevId else data.tail else 0 := by
  unfold unlink
  by_cases hsize : data.size > 1
  · by_cases hhead : a = data.head
    · simp only [if_pos hsize]
      rw [if_pos hhead, if_neg fun h => h.1 hhead]
    · by_cases htail : a = data.tail
      · simp only [if_pos hsize, if_neg hhead, if_pos htail, ne_eq]
        rw [if_pos ⟨hhead, htail⟩]
      · simp only [if_pos hsize, if_neg hhead, if_neg htail, ne_eq]
        rw [if_neg fun h => htail h.2]
  · simp only [if_neg hsize]

theorem unlink_size : (unlink a data).size = data.size := by
  unfold unlink
  split_ifs <;> rfl

theorem unlink_isPresent : ((unlink a data).nodes b).isPresent = (data.nodes b).isPresent := by
  unfold unlink
  split_ifs <;> simp

end

/-- The storage stands for the sequence `xs`; nodes outside it are blank. -/
structure Linked (data : SortedVaults) (xs : List Address) : Prop where
  represents : Represents (fun a => (data.nodes a).nextId) (fun a => (data.nodes a).prevId) 0
    data.head data.tail xs
  present : ∀ a ∈ xs, (data.nodes a).isPresent = true
  absent : ∀ a ∉ xs, data.nodes a = Node.deleted
  size_eq : data.size = xs.length

namespace Linked

theorem contains_iff (h : Linked data xs) : contains a data ↔ a ∈ xs := by
  refine ⟨fun hc => ?_, h.present a⟩
  by_contra hmem
  simp [contains, h.absent a hmem, Node.deleted] at hc

theorem nodup (h : Linked data xs) : xs.Nodup := h.represents.nodup

theorem ne_zero (h : Linked data xs) (ha : a ∈ xs) : a ≠ 0 :=
  fun hz => h.represents.null_notMem (hz ▸ ha)

theorem getLastD_eq_zero (h : Linked data (xs ++ ys)) : xs.getLastD 0 = 0 ↔ xs = [] := by
  refine ⟨fun hz => ?_, fun hn => by simp [hn]⟩
  by_contra hn
  exact h.ne_zero (List.mem_append_left _ (getLastD_mem (p := 0) hn)) hz

theorem headD_eq_zero (h : Linked data (xs ++ ys)) : ys.headD 0 = 0 ↔ ys = [] := by
  refine ⟨fun hz => ?_, fun hn => by simp [hn]⟩
  by_contra hn
  exact h.ne_zero (List.mem_append_right _ (headD_mem (n := 0) hn)) hz

theorem head_eq (h : Linked data (xs ++ ys)) (hxs : xs = []) : ys.headD 0 = data.head := by
  rw [h.represents.head_eq, hxs]
  rfl

theorem tail_eq (h : Linked data (xs ++ ys)) (hys : ys = []) : xs.getLastD 0 = data.tail := by
  rw [h.represents.tail_eq, hys, List.append_nil]

/-- The writes of `insert` put the new owner between the two neighbours. -/
theorem link (h : Linked data (xs ++ ys)) (ha : a ∉ xs ++ ys) (hzero : a ≠ 0) :
    Linked { link a (xs.getLastD 0) (ys.headD 0) data with size := data.size + 1 }
      (xs ++ a :: ys) := by
  have hhead : xs.getLastD 0 = 0 → ys.headD 0 ≠ 0 → ys.headD 0 = data.head :=
    fun hz _ => h.head_eq (h.getLastD_eq_zero.mp hz)
  have htail : ys.headD 0 = 0 → xs.getLastD 0 ≠ 0 → xs.getLastD 0 = data.tail :=
    fun hz _ => h.tail_eq (h.headD_eq_zero.mp hz)
  have hne : ∀ b ∈ xs ++ ys, b ≠ a := fun b hb he => ha (he ▸ hb)
  have hlast : a ≠ xs.getLastD 0 := by
    rintro he
    by_cases hxs : xs = []
    · exact hzero (by simpa [hxs] using he)
    · exact hne _ (List.mem_append_left _ (getLastD_mem (p := 0) hxs)) he.symm
  have hfirst : a ≠ ys.headD 0 := by
    rintro he
    by_cases hys : ys = []
    · exact hzero (by simpa [hys] using he)
    · exact hne _ (List.mem_append_right _ (headD_mem (n := 0) hys)) he.symm
  constructor
  · refine h.represents.insert ha hzero
      (fun b hb => link_nextId (h.ne_zero hb) (hne b hb) htail)
      (fun b hb => link_prevId (h.ne_zero hb) (hne b hb) hhead)
      (link_nextId_self (h.absent a ha) hlast hhead htail)
      (link_prevId_self (h.absent a ha) hfirst hhead htail) ?_ ?_
    · simp only [link_head]
      split_ifs with hz
      · simp [h.getLastD_eq_zero.mp hz]
      · rw [h.represents.head_eq, headD_append]
        cases xs with
        | nil => simp at hz
        | cons x xs => rfl
    · simp only [link_tail]
      split_ifs with hz
      · simp [h.headD_eq_zero.mp hz]
      · rw [h.represents.tail_eq, getLastD_append]
        cases ys with
        | nil => simp at hz
        | cons y ys => simp only [List.getLastD_cons]
  · intro b hb
    simp only [link_present]
    split_ifs with hba
    · rfl
    · refine h.present b ?_
      simp only [List.mem_append, List.mem_cons] at hb ⊢
      tauto
  · intro b hb
    simp only [List.mem_append, List.mem_cons, not_or] at hb
    have hmem : b ∉ xs ++ ys := by simp [hb.1, hb.2.2]
    rw [← h.absent b hmem]
    refine link_of_ne hb.2.1 (fun hz he => ?_) (fun hz he => ?_) hhead htail
    · exact hb.1 (he ▸ getLastD_mem (Represents.ne_nil_of_getLastD hz))
    · exact hb.2.2 (he ▸ headD_mem (fun hn => hz (by simp [hn])))
  · rw [h.size_eq]
    simp
    omega

theorem eq_head_iff (h : Linked data (xs ++ a :: ys)) : a = data.head ↔ xs = [] := by
  rw [h.represents.head_eq, headD_append]
  constructor
  · intro he
    by_contra hne
    have hmem : a ∈ xs := by
      rw [he]
      exact headD_mem hne
    exact (List.nodup_append.mp h.nodup).2.2 _ hmem _ (by simp) rfl
  · rintro rfl
    rfl

theorem eq_tail_iff (h : Linked data (xs ++ a :: ys)) : a = data.tail ↔ ys = [] := by
  rw [h.represents.tail_eq, getLastD_append, List.getLastD_cons]
  constructor
  · intro he
    by_contra hne
    have hmem : a ∈ ys := by
      rw [he]
      exact getLastD_mem hne
    exact (List.nodup_cons.mp (List.nodup_append.mp h.nodup).2.1).1 hmem
  · rintro rfl
    rfl

theorem one_lt_size_iff (h : Linked data (xs ++ a :: ys)) :
    data.size > 1 ↔ ¬(xs = [] ∧ ys = []) := by
  rw [h.size_eq]
  cases xs <;> cases ys <;> simp

theorem endsAgree (h : Linked data (xs ++ a :: ys)) : EndsAgree data a := by
  have hnext : (data.nodes a).nextId = ys.headD 0 := h.represents.next_eq
  have hprev : (data.nodes a).prevId = xs.getLastD 0 := h.represents.prev_eq
  have hys : ys.headD 0 = 0 ↔ ys = [] := by
    have h' : Linked data ((xs ++ [a]) ++ ys) := by simpa using h
    exact h'.headD_eq_zero
  have hxs : xs.getLastD 0 = 0 ↔ xs = [] := h.getLastD_eq_zero
  have hhead := h.eq_head_iff
  have htail := h.eq_tail_iff
  have hsize := h.one_lt_size_iff
  constructor
  · intro hs
    obtain ⟨hx, hy⟩ := not_not.mp fun hn => hs (hsize.mpr hn)
    exact ⟨hprev.trans (hxs.mpr hx), hnext.trans (hys.mpr hy)⟩
  · intro hs he
    refine ⟨hprev.trans (hxs.mpr (hhead.mp he)), fun hz => hsize.mp hs ⟨hhead.mp he, ?_⟩⟩
    exact hys.mp (hnext.symm.trans hz)
  · intro _ hh ht
    exact ⟨fun hz => hh (hhead.mpr (hxs.mp (hprev.symm.trans hz))),
      hnext.trans (hys.mpr (htail.mp ht))⟩
  · intro _ hh ht
    exact ⟨fun hz => hh (hhead.mpr (hxs.mp (hprev.symm.trans hz))),
      fun hz => ht (htail.mpr (hys.mp (hnext.symm.trans hz)))⟩
  · rw [hprev]
    intro he
    have hzero : a ≠ 0 := h.ne_zero (by simp)
    have hlast : xs.getLastD 0 ≠ 0 := by rwa [he]
    have hne : xs ≠ [] := Represents.ne_nil_of_getLastD hlast
    have hmem : a ∈ xs := he ▸ getLastD_mem hne
    exact (List.nodup_append.mp h.nodup).2.2 _ hmem _ (by simp) rfl

/-- The writes of `remove` take out the owner and nothing else. -/
theorem unlink (h : Linked data (xs ++ a :: ys)) :
    Linked { unlink a data with
      nodes := Function.update (unlink a data).nodes a Node.deleted
      size := data.size - 1 } (xs ++ ys) := by
  have he := h.endsAgree
  have hnext : (data.nodes a).nextId = ys.headD 0 := h.represents.next_eq
  have hprev : (data.nodes a).prevId = xs.getLastD 0 := h.represents.prev_eq
  have hnodup := List.nodup_cons.mp (List.nodup_middle.mp h.nodup)
  have hmem : ∀ b ∈ xs ++ ys, b ∈ xs ++ a :: ys := by
    intro b hb
    simp only [List.mem_append, List.mem_cons] at hb ⊢
    tauto
  have hne : ∀ b ∈ xs ++ ys, b ≠ a := fun b hb hba => hnodup.1 (hba ▸ hb)
  constructor
  · refine h.represents.remove (fun b hb => ?_) (fun b hb => ?_) ?_ ?_
    · simp only [Function.update_of_ne (hne b hb), unlink_nextId he (h.ne_zero (hmem b hb)), hnext,
        hprev]
    · simp only [Function.update_of_ne (hne b hb), unlink_prevId he (h.ne_zero (hmem b hb)), hnext,
        hprev]
    · simp only [unlink_head, h.one_lt_size_iff, h.eq_head_iff, hnext]
      cases xs with
      | nil => cases ys <;> simp
      | cons x xs => simp [h.represents.head_eq]
    · simp only [unlink_tail, h.one_lt_size_iff, h.eq_head_iff, h.eq_tail_iff, hprev, ne_eq]
      cases ys with
      | nil => cases xs <;> simp
      | cons y ys => simp [h.represents.tail_eq]
  · intro b hb
    simp only [Function.update_of_ne (hne b hb), unlink_isPresent]
    exact h.present b (hmem b hb)
  · intro b hb
    by_cases hba : b = a
    · subst hba
      simp
    · simp only [Function.update_of_ne hba]
      have hb' : b ∉ xs ++ a :: ys := by
        simp only [List.mem_append, List.mem_cons, not_or] at hb ⊢
        exact ⟨hb.1, hba, hb.2⟩
      rw [← h.absent b hb']
      refine unlink_of_ne he (fun hz hbp => ?_) (fun hz hbn => ?_)
      · rw [hprev] at hz hbp
        exact hb (hbp ▸ List.mem_append_left _ (getLastD_mem (Represents.ne_nil_of_getLastD hz)))
      · rw [hnext] at hz hbn
        exact hb (hbn ▸ List.mem_append_right _ (headD_mem (fun hn => hz (by simp [hn]))))
  · simp only [h.size_eq]
    simp

end Linked

end MoneyProtocol.SortedVaults
