import MoneyProtocol.Book.SortedVaults

/-!
# Finding a position in the sorted list

Whatever the hints are, `insert` puts the new owner between two neighbours whose ratios, as
`getNominalICR` reads them at that moment, enclose its own; and both walks end before the
bound on their rounds. Nothing is assumed about `getNominalICR`: the list need not be sorted.
-/

namespace MoneyProtocol.SortedVaults

open Outcome LinkedList

variable {data data' : SortedVaults} {a : Address} {getNominalICR : Address → Outcome ℕ}
  {NICR : ℕ}

/-- The ratios read at the neighbours enclose the new one. -/
structure Encloses (getNominalICR : Address → Outcome ℕ) (NICR : ℕ) (xs ys : List Address) :
    Prop where
  prev : xs ≠ [] → ∃ r, getNominalICR (xs.getLastD 0) = .ok r ∧ NICR ≤ r
  next : ys ≠ [] → ∃ r, getNominalICR (ys.headD 0) = .ok r ∧ r ≤ NICR

/-- `p` and `n` are neighbours in the sequence, with ratios that enclose the new one. -/
def ValidPosition (getNominalICR : Address → Outcome ℕ) (NICR : ℕ) (zs : List Address)
    (p n : Address) : Prop :=
  ∃ xs ys, zs = xs ++ ys ∧ p = xs.getLastD 0 ∧ n = ys.headD 0 ∧ Encloses getNominalICR NICR xs ys

section

variable {zs : List Address} {p n start : Address} {r : ℕ} {fuel : ℕ}

theorem validInsertPosition_sound (h : Linked data zs)
    (hv : validInsertPosition getNominalICR NICR p n data = .ok true) :
    ValidPosition getNominalICR NICR zs p n := by
  simp only [validInsertPosition] at hv
  split_ifs at hv with hboth hp hhead hn htail hnext
  · have hempty : zs = [] := by
      have hsize : data.size = 0 := by simpa [isEmpty] using hv
      exact List.length_eq_zero_iff.mp (h.size_eq.symm.trans hsize)
    exact ⟨[], [], by simp [hempty], by simp [hboth], by simp [hboth], by simp, by simp⟩
  · simp only [bind_ok, pure_ok, decide_eq_true_eq] at hv
    obtain ⟨r, hr, hle⟩ := hv
    have hfirst : n = zs.headD 0 := hhead.symm.trans h.represents.head_eq
    exact ⟨[], zs, rfl, by simp [hp], hfirst, by simp, fun _ => ⟨r, hfirst ▸ hr, hle⟩⟩
  · simp at hv
  · simp only [bind_ok, pure_ok, decide_eq_true_eq] at hv
    obtain ⟨r, hr, hle⟩ := hv
    have hlast : p = zs.getLastD 0 := htail.symm.trans h.represents.tail_eq
    exact ⟨zs, [], by simp, hlast, by simp [hn], fun _ => ⟨r, hlast ▸ hr, hle⟩, by simp⟩
  · simp at hv
  · simp only [bind_ok] at hv
    obtain ⟨r, hr, hv⟩ := hv
    split_ifs at hv with hge
    · simp only [bind_ok, pure_ok, decide_eq_true_eq] at hv
      obtain ⟨r', hr', hle⟩ := hv
      have hmem : p ∈ zs := by
        by_contra hmem
        rw [h.absent p hmem] at hnext
        exact hn hnext.symm
      obtain ⟨xs, ys, rfl, hlast, hfirst⟩ := h.represents.cut_after hmem
      have hfirst : ys.headD 0 = n := hfirst.trans hnext
      exact ⟨xs, ys, rfl, hlast.symm, hfirst.symm, fun _ => ⟨r, hlast ▸ hr, hge⟩,
        fun _ => ⟨r', hfirst ▸ hr', hle⟩⟩
    · simp at hv
  · simp at hv

/-- Where the position after `p` is refused, the next owner has a larger ratio. -/
theorem refused_after (h : Linked data zs) (hp : p ∈ zs) (hr : getNominalICR p = .ok r)
    (hle : NICR ≤ r)
    (hv : validInsertPosition getNominalICR NICR p (data.nodes p).nextId data = .ok false) :
    (data.nodes p).nextId ∈ zs ∧
      ∃ r, getNominalICR (data.nodes p).nextId = .ok r ∧ NICR ≤ r := by
  have hp0 := h.ne_zero hp
  obtain ⟨xs, ys, rfl, hlast, hfirst⟩ := h.represents.cut_after hp
  have htail : (data.nodes p).nextId = 0 → data.tail = p := by
    intro hz
    rw [← hlast, h.tail_eq (h.headD_eq_zero.mp (hfirst.trans hz))]
  simp only [validInsertPosition, hp0, false_and, if_false, if_true] at hv
  split_ifs at hv with hn htail'
  · rw [hr] at hv
    simp [hle] at hv
  · exact absurd (htail hn) htail'
  · simp only [hr, bind_ok, Except.ok.injEq, exists_eq_left', if_pos hle, pure_ok] at hv
    obtain ⟨r', hr', hv⟩ := hv
    have hlt := of_decide_eq_false hv
    refine ⟨?_, r', hr', by omega⟩
    have hys : ys ≠ [] := by
      rintro rfl
      exact hn hfirst.symm
    rw [← hfirst]
    exact List.mem_append_right _ (headD_mem hys)

theorem descendLoop_sound (h : Linked data zs) (hp : p ∈ zs) (hr : getNominalICR p = .ok r)
    (hle : NICR ≤ r) {q : Address × Address}
    (hq : descendLoop getNominalICR NICR data fuel p (data.nodes p).nextId = .ok q) :
    ValidPosition getNominalICR NICR zs q.1 q.2 := by
  induction fuel generalizing p r with
  | zero => simp [descendLoop] at hq
  | succ fuel ih =>
    simp only [descendLoop, if_neg (h.ne_zero hp), bind_ok] at hq
    obtain ⟨valid, hvalid, hq⟩ := hq
    cases valid with
    | true =>
      simp only [if_true, pure_ok] at hq
      subst hq
      exact validInsertPosition_sound h hvalid
    | false =>
      obtain ⟨hmem, r', hr', hle'⟩ := refused_after h hp hr hle hvalid
      simp only [Bool.false_eq_true, if_false] at hq
      exact ih hmem hr' hle' hq

/-- Where the position before `n` is refused, the previous owner has a smaller ratio. -/
theorem refused_before (h : Linked data zs) (hn : n ∈ zs) (hr : getNominalICR n = .ok r)
    (hle : r ≤ NICR)
    (hv : validInsertPosition getNominalICR NICR (data.nodes n).prevId n data = .ok false) :
    (data.nodes n).prevId ∈ zs ∧
      ∃ r, getNominalICR (data.nodes n).prevId = .ok r ∧ r ≤ NICR := by
  have hn0 := h.ne_zero hn
  obtain ⟨xs, ys, rfl, hlast, hfirst⟩ := h.represents.cut_before hn
  have hhead : (data.nodes n).prevId = 0 → data.head = n := by
    intro hz
    rw [← hfirst, h.head_eq (h.getLastD_eq_zero.mp (hlast.trans hz))]
  simp only [validInsertPosition, hn0, and_false, if_false] at hv
  split_ifs at hv with hp hhead' hnext
  · rw [hr] at hv
    simp [hle] at hv
  · exact absurd (hhead hp) hhead'
  · have hxs : xs ≠ [] := by
      rintro rfl
      exact hp hlast.symm
    have hmem : (data.nodes n).prevId ∈ xs ++ ys := by
      rw [← hlast]
      exact List.mem_append_left _ (getLastD_mem hxs)
    simp only [bind_ok] at hv
    obtain ⟨r', hr', hv⟩ := hv
    refine ⟨hmem, r', hr', ?_⟩
    by_contra hlt
    rw [if_pos (by omega), hr] at hv
    simp [hle] at hv
  · -- the successor of the predecessor of `n` is `n`
    have hxs : xs ≠ [] := by
      rintro rfl
      exact hp hlast.symm
    obtain ⟨as, b, rfl⟩ := List.eq_nil_or_concat xs |>.resolve_left hxs
    have hb : (data.nodes n).prevId = b := by simpa using hlast.symm
    have hrep : Represents (fun a => (data.nodes a).nextId) (fun a => (data.nodes a).prevId) 0
        data.head data.tail (as ++ b :: ys) := by simpa using h.represents
    exact absurd (by rw [hb, hrep.next_eq, hfirst]) hnext

theorem ascendLoop_sound (h : Linked data zs) (hn : n ∈ zs) (hr : getNominalICR n = .ok r)
    (hle : r ≤ NICR) {q : Address × Address}
    (hq : ascendLoop getNominalICR NICR data fuel (data.nodes n).prevId n = .ok q) :
    ValidPosition getNominalICR NICR zs q.1 q.2 := by
  induction fuel generalizing n r with
  | zero => simp [ascendLoop] at hq
  | succ fuel ih =>
    simp only [ascendLoop, if_neg (h.ne_zero hn), bind_ok] at hq
    obtain ⟨valid, hvalid, hq⟩ := hq
    cases valid with
    | true =>
      simp only [if_true, pure_ok] at hq
      subst hq
      exact validInsertPosition_sound h hvalid
    | false =>
      obtain ⟨hmem, r', hr', hle'⟩ := refused_before h hn hr hle hvalid
      simp only [Bool.false_eq_true, if_false] at hq
      exact ih hmem hr' hle' hq

theorem descendList_head_sound (h : Linked data zs) {q : Address × Address}
    (hq : descendList getNominalICR NICR data.head data = .ok q) :
    ValidPosition getNominalICR NICR zs q.1 q.2 := by
  simp only [descendList, if_true, bind_ok, pure_ok] at hq
  obtain ⟨before, ⟨r, hr, rfl⟩, hq⟩ := hq
  split_ifs at hq with hge
  · simp only [decide_eq_true_eq] at hge
    obtain rfl := pure_ok.mp hq
    exact ⟨[], zs, rfl, rfl, h.represents.head_eq, by simp,
      fun _ => ⟨r, h.represents.head_eq ▸ hr, hge⟩⟩
  · by_cases hzs : zs = []
    · -- an empty list: the walk ends at once, between two null neighbours
      subst hzs
      have hhead : data.head = 0 := h.represents.head_eq
      rw [hhead, descendLoop, if_pos rfl, h.absent 0 (by simp)] at hq
      obtain rfl := pure_ok.mp hq
      exact ⟨[], [], rfl, rfl, rfl, by simp, by simp⟩
    · simp only [decide_eq_true_eq, not_le] at hge
      exact descendLoop_sound h (h.represents.head_mem hzs) hr (by omega) hq

theorem descendList_sound (h : Linked data zs) (hp : p ∈ zs) (hr : getNominalICR p = .ok r)
    (hle : NICR ≤ r) {q : Address × Address} (hq : descendList getNominalICR NICR p data = .ok q) :
    ValidPosition getNominalICR NICR zs q.1 q.2 := by
  by_cases hhead : p = data.head
  · exact descendList_head_sound h (hhead ▸ hq)
  · simp only [descendList, if_neg (Ne.symm hhead), bind_ok, pure_ok, exists_eq_left',
      Bool.false_eq_true, if_false] at hq
    exact descendLoop_sound h hp hr hle hq

theorem ascendList_sound (h : Linked data zs) (hn : n ∈ zs) (hr : getNominalICR n = .ok r)
    (hle : r ≤ NICR) {q : Address × Address} (hq : ascendList getNominalICR NICR n data = .ok q) :
    ValidPosition getNominalICR NICR zs q.1 q.2 := by
  simp only [ascendList, bind_ok] at hq
  obtain ⟨after, hafter, hq⟩ := hq
  split_ifs at hafter with htail
  · simp only [bind_ok, pure_ok] at hafter
    obtain ⟨r', hr', rfl⟩ := hafter
    split_ifs at hq with hge
    · simp only [decide_eq_true_eq] at hge
      obtain rfl := pure_ok.mp hq
      have hlast : n = zs.getLastD 0 := htail.symm.trans h.represents.tail_eq
      exact ⟨zs, [], by simp, hlast, rfl, fun _ => ⟨r', hlast ▸ hr', hge⟩, by simp⟩
    · exact ascendLoop_sound h hn hr hle hq
  · obtain rfl := pure_ok.mp hafter
    simp only [Bool.false_eq_true, if_false] at hq
    exact ascendLoop_sound h hn hr hle hq

theorem usablePrev_ok (h : Linked data zs) {q : Address}
    (hq : usablePrev getNominalICR NICR p data = .ok q) :
    q = 0 ∨ q ∈ zs ∧ ∃ r, getNominalICR q = .ok r ∧ NICR ≤ r := by
  simp only [usablePrev] at hq
  split_ifs at hq with hp hc
  · simp only [bind_ok, pure_ok] at hq
    obtain ⟨r, hr, hq⟩ := hq
    split_ifs at hq with hlt
    · exact .inl hq.symm
    · subst hq
      exact .inr ⟨h.contains_iff.mp hc, r, hr, by omega⟩
  · exact .inl (pure_ok.mp hq).symm
  · exact .inl (pure_ok.mp hq).symm

theorem usableNext_ok (h : Linked data zs) {q : Address}
    (hq : usableNext getNominalICR NICR n data = .ok q) :
    q = 0 ∨ q ∈ zs ∧ ∃ r, getNominalICR q = .ok r ∧ r ≤ NICR := by
  simp only [usableNext] at hq
  split_ifs at hq with hn hc
  · simp only [bind_ok, pure_ok] at hq
    obtain ⟨r, hr, hq⟩ := hq
    split_ifs at hq with hlt
    · exact .inl hq.symm
    · subst hq
      exact .inr ⟨h.contains_iff.mp hc, r, hr, by omega⟩
  · exact .inl (pure_ok.mp hq).symm
  · exact .inl (pure_ok.mp hq).symm

/-- Whatever the hints are, the search ends at a valid position. -/
theorem findInsertPosition_sound (h : Linked data zs) {q : Address × Address}
    (hq : findInsertPosition getNominalICR NICR p n data = .ok q) :
    ValidPosition getNominalICR NICR zs q.1 q.2 := by
  simp only [findInsertPosition, bind_ok] at hq
  obtain ⟨p', hp', n', hn', hq⟩ := hq
  have hprev := usablePrev_ok h hp'
  have hnext := usableNext_ok h hn'
  split_ifs at hq with hboth hzero
  · exact descendList_head_sound h hq
  · obtain ⟨hmem, r, hr, hle⟩ := hnext.resolve_left fun hz => hboth ⟨hzero, hz⟩
    exact ascendList_sound h hmem hr hle hq
  · obtain ⟨hmem, r, hr, hle⟩ := hprev.resolve_left hzero
    exact descendList_sound h hmem hr hle hq

variable {e : Failure}

theorem validInsertPosition_ne_error (hf : ∀ b, getNominalICR b ≠ .error e) :
    validInsertPosition getNominalICR NICR p n data ≠ .error e := by
  intro he
  simp only [validInsertPosition] at he
  split_ifs at he
  · simp [pure, Except.pure] at he
  · simp [bind_error, hf, pure, Except.pure] at he
  · simp [pure, Except.pure] at he
  · simp [bind_error, hf, pure, Except.pure] at he
  · simp [pure, Except.pure] at he
  · rcases bind_error.mp he with he | ⟨_, -, he⟩
    · exact hf _ he
    · split_ifs at he
      · simp [bind_error, hf, pure, Except.pure] at he
      · simp [pure, Except.pure] at he
  · simp [pure, Except.pure] at he

/-- Every round moves one owner on, so a walk from `p` needs as many rounds as there are
owners after `p`, and two to stop. -/
theorem descendLoop_ne_error {as bs : List Address} (h : Linked data (as ++ p :: bs))
    (hf : ∀ b, getNominalICR b ≠ .error e) (hfuel : bs.length + 2 ≤ fuel) :
    descendLoop getNominalICR NICR data fuel p (data.nodes p).nextId ≠ .error e := by
  induction bs generalizing as p fuel with
  | nil =>
    obtain ⟨fuel, rfl⟩ : ∃ k, fuel = k + 2 := ⟨fuel - 2, by simp at hfuel; omega⟩
    have hnext : (data.nodes p).nextId = 0 := h.represents.next_eq
    intro he
    simp only [descendLoop, if_neg (h.ne_zero (a := p) (by simp)), hnext, if_true] at he
    rcases bind_error.mp he with he | ⟨_, -, he⟩
    · exact validInsertPosition_ne_error hf he
    · split_ifs at he <;> simp [pure, Except.pure] at he
  | cons b bs ih =>
    obtain ⟨fuel, rfl⟩ : ∃ k, fuel = k + 1 := ⟨fuel - 1, by omega⟩
    have hnext : (data.nodes p).nextId = b := h.represents.next_eq
    intro he
    simp only [descendLoop, if_neg (h.ne_zero (a := p) (by simp)), hnext] at he
    rcases bind_error.mp he with he | ⟨_, -, he⟩
    · exact validInsertPosition_ne_error hf he
    · split_ifs at he
      · simp [pure, Except.pure] at he
      · have h' : Linked data ((as ++ [p]) ++ b :: bs) := by simpa using h
        exact ih h' (by simp at hfuel; omega) he

theorem ascendLoop_ne_error {as bs : List Address} (h : Linked data (as ++ n :: bs))
    (hf : ∀ b, getNominalICR b ≠ .error e) (hfuel : as.length + 2 ≤ fuel) :
    ascendLoop getNominalICR NICR data fuel (data.nodes n).prevId n ≠ .error e := by
  induction as using List.reverseRecOn generalizing bs n fuel with
  | nil =>
    obtain ⟨fuel, rfl⟩ : ∃ k, fuel = k + 2 := ⟨fuel - 2, by simp at hfuel; omega⟩
    have hprev : (data.nodes n).prevId = 0 := h.represents.prev_eq
    intro he
    simp only [ascendLoop, if_neg (h.ne_zero (a := n) (by simp)), hprev, if_true] at he
    rcases bind_error.mp he with he | ⟨_, -, he⟩
    · exact validInsertPosition_ne_error hf he
    · split_ifs at he <;> simp [pure, Except.pure] at he
  | append_singleton as b ih =>
    obtain ⟨fuel, rfl⟩ : ∃ k, fuel = k + 1 := ⟨fuel - 1, by omega⟩
    have hprev : (data.nodes n).prevId = b := by simpa using h.represents.prev_eq
    intro he
    simp only [ascendLoop, if_neg (h.ne_zero (a := n) (by simp)), hprev] at he
    rcases bind_error.mp he with he | ⟨_, -, he⟩
    · exact validInsertPosition_ne_error hf he
    · split_ifs at he
      · simp [pure, Except.pure] at he
      · have h' : Linked data (as ++ b :: n :: bs) := by simpa using h
        exact ih h' (by simp at hfuel; omega) he

/-- The bound on the rounds of both walks is never met: a search fails only where reading a
ratio does. -/
theorem findInsertPosition_ne_error (h : Linked data zs)
    (hf : ∀ b, getNominalICR b ≠ .error e) :
    findInsertPosition getNominalICR NICR p n data ≠ .error e := by
  have hdescend : ∀ start, start ∈ zs ∨ start = data.head →
      descendList getNominalICR NICR start data ≠ .error e := by
    intro start hstart he
    simp only [descendList] at he
    rcases bind_error.mp he with he | ⟨_, -, he⟩
    · split_ifs at he
      · simp [bind_error, hf, pure, Except.pure] at he
      · simp [pure, Except.pure] at he
    · split_ifs at he
      · simp [pure, Except.pure] at he
      · by_cases hmem : start ∈ zs
        · obtain ⟨as, bs, rfl⟩ := List.append_of_mem hmem
          refine descendLoop_ne_error h hf ?_ he
          rw [h.size_eq]
          simp
        · have hzs : zs = [] := by
            by_contra hne
            exact hmem (hstart.resolve_left hmem ▸ h.represents.head_mem hne)
          have hzero : start = 0 := by
            rw [hstart.resolve_left hmem, h.represents.head_eq, hzs]
            rfl
          simp [descendLoop, hzero, pure, Except.pure] at he
  intro he
  simp only [findInsertPosition] at he
  rcases bind_error.mp he with he | ⟨p', hp', he⟩
  · simp only [usablePrev] at he
    split_ifs at he <;> simp [bind_error, hf, pure, Except.pure] at he
  rcases bind_error.mp he with he | ⟨n', hn', he⟩
  · simp only [usableNext] at he
    split_ifs at he <;> simp [bind_error, hf, pure, Except.pure] at he
  split_ifs at he with hboth hzero
  · exact hdescend _ (.inr rfl) he
  · obtain ⟨hmem, -⟩ := (usableNext_ok h hn').resolve_left fun hz => hboth ⟨hzero, hz⟩
    simp only [ascendList] at he
    rcases bind_error.mp he with he | ⟨_, -, he⟩
    · split_ifs at he
      · simp [bind_error, hf, pure, Except.pure] at he
      · simp [pure, Except.pure] at he
    · split_ifs at he
      · simp [pure, Except.pure] at he
      · obtain ⟨as, bs, rfl⟩ := List.append_of_mem hmem
        refine ascendLoop_ne_error h hf ?_ he
        rw [h.size_eq]
        simp
  · exact hdescend _ (.inl ((usablePrev_ok h hp').resolve_left hzero).1) he

theorem insert_sound {maxSize : ℕ} (h : Linked data zs)
    (hi : insert getNominalICR maxSize a NICR p n data = .ok data') :
    a ∉ zs ∧ a ≠ 0 ∧ 0 < NICR ∧ ∃ xs ys, zs = xs ++ ys ∧ Encloses getNominalICR NICR xs ys ∧
      Linked data' (xs ++ a :: ys) := by
  simp only [insert, bind_ok, require_ok, pure_ok, SafeMath.add_ok] at hi
  obtain ⟨_, -, _, hcontains, _, hzero, _, hpos, valid, hvalid, q, hq, _, ⟨-, rfl⟩, rfl⟩ := hi
  have hmem : a ∉ zs := fun hm => hcontains (h.contains_iff.mpr hm)
  have hposition : ValidPosition getNominalICR NICR zs q.1 q.2 := by
    cases valid with
    | true =>
      simp only [if_true, pure_ok] at hq
      subst hq
      exact validInsertPosition_sound h hvalid
    | false =>
      simp only [Bool.false_eq_true, if_false] at hq
      exact findInsertPosition_sound h hq
  obtain ⟨xs, ys, rfl, hprev, hnext, hencloses⟩ := hposition
  refine ⟨hmem, hzero, hpos, xs, ys, rfl, hencloses, ?_⟩
  rw [hprev, hnext, link_size]
  exact h.link hmem hzero

theorem remove_ok (hr : remove a data = .ok data') : contains a data ∧
    data' = { unlink a data with
      nodes := Function.update (unlink a data).nodes a Node.deleted
      size := data.size - 1 } := by
  simp only [remove, bind_ok, require_ok, pure_ok, SafeMath.sub_ok, unlink_size] at hr
  obtain ⟨_, hcontains, _, ⟨-, rfl⟩, rfl⟩ := hr
  exact ⟨hcontains, rfl⟩

theorem remove_linked (h : Linked data (xs ++ a :: ys)) (hr : remove a data = .ok data') :
    Linked data' (xs ++ ys) := by
  obtain ⟨-, rfl⟩ := remove_ok hr
  exact h.unlink

theorem remove_sound (h : Linked data zs) (hr : remove a data = .ok data') :
    ∃ xs ys, zs = xs ++ a :: ys ∧ Linked data' (xs ++ ys) := by
  obtain ⟨hcontains, -⟩ := remove_ok hr
  obtain ⟨xs, ys, rfl⟩ := List.append_of_mem (h.contains_iff.mp hcontains)
  exact ⟨xs, ys, rfl, remove_linked h hr⟩

theorem reInsert_sound {maxSize : ℕ} (h : Linked data zs)
    (hi : reInsert getNominalICR maxSize a NICR p n data = .ok data') :
    0 < NICR ∧ ∃ as bs xs ys, zs = as ++ a :: bs ∧ as ++ bs = xs ++ ys ∧
      Encloses getNominalICR NICR xs ys ∧ Linked data' (xs ++ a :: ys) := by
  simp only [reInsert, bind_ok, require_ok] at hi
  obtain ⟨_, -, _, -, data₁, hremove, hinsert⟩ := hi
  obtain ⟨as, bs, rfl, h₁⟩ := remove_sound h hremove
  obtain ⟨-, -, hpos, xs, ys, hsplit, hencloses, h₂⟩ := insert_sound h₁ hinsert
  exact ⟨hpos, as, bs, xs, ys, rfl, hsplit, hencloses, h₂⟩

end

end MoneyProtocol.SortedVaults
