import MoneyProtocol.Store.MoneypStore

/-!
# The polled store

`BlockPolledMoneypStore` fetches the state when it is started, and again at every new block. The
fetches are under way at the same time, and each is taken up when its answer comes.
-/

namespace MoneyProtocol.Sdk

open Outcome

/-- What a read of the chain resolves to: its value, or the error that was caught and takes the
place of the value. -/
inductive Fetched (α : Type) where
  | value (a : α)
  | error
  deriving DecidableEq

/-- `blockTag` is undefined for a state that was fetched at the start. -/
structure BlockPolledMoneypStoreExtraState where
  blockTag : Option ℕ
  blockTimestamp : Fetched ℕ
  deriving DecidableEq

/-- An update always has a timestamp. -/
def reduceExtra (oldState stateUpdate : BlockPolledMoneypStoreExtraState) :
    BlockPolledMoneypStoreExtraState where
  blockTag := stateUpdate.blockTag <|> oldState.blockTag
  blockTimestamp := stateUpdate.blockTimestamp

variable {Base Derived : Type}

def BaseValues.polled (v : BaseValues Base Derived) :
    StoreValues Base Derived BlockPolledMoneypStoreExtraState :=
  { v with reduceExtra := reduceExtra }

/-- The store, how often it was started, the starts whose block listener is registered, whether
the last call was one that stops it, and the tags of the fetches that are under way. -/
structure BlockPolledMoneypStore (Base Derived : Type) where
  store : MoneypStore Base Derived BlockPolledMoneypStoreExtraState
  starts : ℕ
  listeners : List ℕ
  stopped : Bool
  fetches : List (Option ℕ)

def BlockPolledMoneypStore.new : BlockPolledMoneypStore Base Derived :=
  ⟨MoneypStore.new, 0, [], false, []⟩

/-- What happens to a store: calls of `start` and of what the `i`-th start returned, blocks, the
end of the `i`-th fetch under way with a state and its timestamp or without one, and the timer. -/
inductive StoreEvent (Base : Type) where
  | start
  | stop (i : ℕ)
  | block (blockTag : ℕ)
  | answer (i : ℕ) (state : Option (Base × Fetched ℕ))
  | timeout

namespace BlockPolledMoneypStore

variable (v : BaseValues Base Derived)

/-- The answer to a fetch; that to the first one is dropped if the store is loaded by then. -/
def receive (blockTag : Option ℕ) (baseState : Base) (blockTimestamp : Fetched ℕ)
    (s : MoneypStore Base Derived BlockPolledMoneypStoreExtraState) :
    MoneypStore Base Derived BlockPolledMoneypStoreExtraState :=
  match blockTag with
  | none => if s.loaded then s else v.polled.load baseState ⟨none, blockTimestamp⟩ s
  | some blockTag =>
    if s.loaded then v.polled.update (some baseState) (some ⟨some blockTag, blockTimestamp⟩) s
    else v.polled.load baseState ⟨some blockTag, blockTimestamp⟩ s

def step (w : BlockPolledMoneypStore Base Derived) :
    StoreEvent Base → BlockPolledMoneypStore Base Derived
  | .start =>
    { w with
      starts := w.starts + 1
      listeners := w.listeners ++ [w.starts]
      stopped := false
      fetches := w.fetches ++ [none] }
  | .stop i =>
    if i < w.starts then
      { w with
        store := w.store.cancelUpdateIfScheduled
        listeners := w.listeners.erase i
        stopped := true }
    else w
  -- every listener fetches the state of the block
  | .block blockTag =>
    { w with fetches := w.fetches ++ List.replicate w.listeners.length (some blockTag) }
  | .answer i state =>
    match w.fetches[i]?, state with
    | none, _ => w
    | some _, none => { w with fetches := w.fetches.eraseIdx i }
    | some blockTag, some (baseState, blockTimestamp) =>
      { w with
        fetches := w.fetches.eraseIdx i
        store := receive v blockTag baseState blockTimestamp w.store }
  | .timeout => { w with store := v.polled.updateScheduled w.store }

def run (w : BlockPolledMoneypStore Base Derived) (events : List (StoreEvent Base)) :
    BlockPolledMoneypStore Base Derived :=
  events.foldl (step v) w

/-- The block tags of the states that were installed, in their order. -/
def installedTags (w : BlockPolledMoneypStore Base Derived) : List ℕ :=
  w.store.history.filterMap BlockPolledMoneypStoreExtraState.blockTag

/-- The tag of the fetch that an event answers. -/
def answeredTag (w : BlockPolledMoneypStore Base Derived) : StoreEvent Base → Option ℕ
  | .answer i (some _) => w.fetches[i]?.join
  | _ => none

/-- The tags of the fetches that are answered in a run, in the order of the answers. -/
def answeredTags (w : BlockPolledMoneypStore Base Derived) : List (StoreEvent Base) → List ℕ
  | [] => []
  | e :: events => (answeredTag w e).toList ++ answeredTags (step v w e) events

variable {v} {w : BlockPolledMoneypStore Base Derived} {e : StoreEvent Base}
  {s : MoneypStore Base Derived BlockPolledMoneypStoreExtraState} {b : Base}
  {timestamp : Fetched ℕ}
  {tag : Option ℕ}

theorem receive_sound (hs : s.Sound) : (receive v tag b timestamp s).Sound := by
  cases tag with
  | none =>
    rw [receive]
    split_ifs
    · exact hs
    · exact StoreValues.load_sound hs
  | some tag =>
    rw [receive]
    split_ifs with hloaded
    · exact (StoreValues.update_sound hs hloaded).1
    · exact StoreValues.load_sound hs

theorem tags_append {history : List BlockPolledMoneypStoreExtraState}
    {x : BlockPolledMoneypStoreExtraState} :
    (history ++ [x]).filterMap BlockPolledMoneypStoreExtraState.blockTag =
      history.filterMap BlockPolledMoneypStoreExtraState.blockTag ++ x.blockTag.toList := by
  rw [List.filterMap_append]
  cases hx : x.blockTag <;> simp [hx]

theorem load_tags (h : s.loaded = false) : ∃ l, l.Sublist tag.toList ∧
    (v.polled.load b ⟨tag, timestamp⟩ s).history.filterMap
      BlockPolledMoneypStoreExtraState.blockTag =
        s.history.filterMap BlockPolledMoneypStoreExtraState.blockTag ++ l := by
  rcases StoreValues.load_cases (v := v.polled) (b := b) (x := ⟨tag, timestamp⟩) h with
    h | ⟨_, -, h⟩
  · rw [h]
    exact ⟨[], List.nil_sublist _, (List.append_nil _).symm⟩
  · rw [h]
    exact ⟨tag.toList, List.Sublist.refl _, tags_append⟩

/-- An answer installs a state with its own tag, or none. -/
theorem receive_tags (hs : s.Sound) : ∃ l, l.Sublist tag.toList ∧
    (receive v tag b timestamp s).history.filterMap BlockPolledMoneypStoreExtraState.blockTag =
      s.history.filterMap BlockPolledMoneypStoreExtraState.blockTag ++ l := by
  have hnothing : ∃ l, l.Sublist tag.toList ∧
      s.history.filterMap BlockPolledMoneypStoreExtraState.blockTag =
        s.history.filterMap BlockPolledMoneypStoreExtraState.blockTag ++ l :=
    ⟨[], List.nil_sublist _, (List.append_nil _).symm⟩
  cases tag with
  | none =>
    rw [receive]
    split_ifs with hloaded
    · exact hnothing
    · exact load_tags (Bool.eq_false_iff.mpr hloaded)
  | some n =>
    rw [receive]
    split_ifs with hloaded
    · rcases StoreValues.update_cases (v := v.polled) (some b)
        (some ⟨some n, timestamp⟩) hs hloaded with
        h | ⟨_, h⟩ | ⟨hnone, -⟩ | ⟨update, old, _, _, hupdate, -, h⟩
      · rw [h]
        exact hnothing
      · rw [h]
        exact hnothing
      · exact absurd hnone (by simp)
      · rw [h, ← Option.some.inj hupdate]
        exact ⟨[n], List.Sublist.refl _, tags_append⟩
    · exact load_tags (Bool.eq_false_iff.mpr hloaded)

/-- Where nothing throws, every answer to the fetch of a block is installed. -/
theorem receive_total (hv : v.NeverThrows) (hs : s.Sound) :
    (receive v tag b timestamp s).history.filterMap BlockPolledMoneypStoreExtraState.blockTag =
      s.history.filterMap BlockPolledMoneypStoreExtraState.blockTag ++ tag.toList := by
  cases tag with
  | none =>
    rw [receive]
    split_ifs with hloaded
    · exact (List.append_nil _).symm
    · rw [(StoreValues.load_total (v := v.polled) hv (Bool.eq_false_iff.mpr hloaded)).1]
      exact tags_append
  | some n =>
    rw [receive]
    split_ifs with hloaded
    · obtain ⟨old, -, h⟩ := StoreValues.update_total (v := v.polled) (b := b)
        (x := ⟨some n, timestamp⟩) hv hs hloaded
      rw [h]
      exact tags_append
    · rw [(StoreValues.load_total (v := v.polled) hv (Bool.eq_false_iff.mpr hloaded)).1]
      exact tags_append

/-- The timer derives the state anew and installs nothing. -/
theorem updateScheduled_kept (hs : s.Sound) :
    (v.polled.updateScheduled s).Sound ∧ (v.polled.updateScheduled s).history = s.history := by
  unfold StoreValues.updateScheduled
  split_ifs with htimer
  · have hloaded := hs.timer htimer
    have hs' : MoneypStore.Sound { s with updateScheduled := false } :=
      ⟨hs.base, hs.derived, hs.extra, fun h => Bool.noConfusion h⟩
    exact ⟨(StoreValues.update_sound hs' hloaded).1,
      StoreValues.update_none_history hs' hloaded⟩
  · exact ⟨hs, rfl⟩

/-- The end of a fetch leaves the store alone, or hands it an answer. -/
theorem step_answer (i : ℕ) (state : Option (Base × Fetched ℕ)) :
    ((step v w (.answer i state)).store = w.store ∧ answeredTag w (.answer i state) = none) ∨
      ∃ b timestamp, (step v w (.answer i state)).store =
        receive v (answeredTag w (.answer i state)) b timestamp w.store := by
  cases state with
  | none =>
    refine .inl ⟨?_, rfl⟩
    cases hfetch : w.fetches[i]? with
    | none => simp only [step, hfetch]
    | some tag => simp only [step, hfetch]
  | some state =>
    cases hfetch : w.fetches[i]? with
    | none =>
      refine .inl ⟨?_, ?_⟩
      · simp only [step, hfetch]
      · rw [answeredTag, hfetch, Option.join_none]
    | some tag =>
      refine .inr ⟨state.1, state.2, ?_⟩
      simp only [step, answeredTag, hfetch, Option.join_some]

theorem step_sound (hw : w.store.Sound) : (step v w e).store.Sound := by
  cases e with
  | start => exact hw
  | stop i =>
    rw [step]
    split_ifs
    · exact ⟨hw.base, hw.derived, hw.extra, fun h => Bool.noConfusion h⟩
    · exact hw
  | block blockTag => exact hw
  | answer i state =>
    rcases step_answer (v := v) (w := w) i state with ⟨h, -⟩ | ⟨_, _, h⟩
    · rw [h]
      exact hw
    · rw [h]
      exact receive_sound hw
  | timeout => exact (updateScheduled_kept hw).1

/-- A step installs the state that it answers a fetch with, or none. -/
theorem step_tags (hw : w.store.Sound) : ∃ l, l.Sublist (answeredTag w e).toList ∧
    (step v w e).installedTags = w.installedTags ++ l := by
  have hnothing {w' : BlockPolledMoneypStore Base Derived}
      (h : w'.store.history = w.store.history) :
      ∃ l, l.Sublist (answeredTag w e).toList ∧ w'.installedTags = w.installedTags ++ l := by
    refine ⟨[], List.nil_sublist _, ?_⟩
    rw [installedTags, h, List.append_nil]
    rfl
  cases e with
  | start => exact hnothing rfl
  | stop i =>
    rw [step]
    split_ifs
    · exact hnothing rfl
    · exact hnothing rfl
  | block blockTag => exact hnothing rfl
  | answer i state =>
    rcases step_answer (v := v) (w := w) i state with ⟨h, -⟩ | ⟨_, _, h⟩
    · exact hnothing (congrArg _ h)
    · rw [installedTags, h]
      exact receive_tags hw
  | timeout => exact hnothing (updateScheduled_kept hw).2

/-- Where nothing throws, it installs the state. -/
theorem step_total (hv : v.NeverThrows) (hw : w.store.Sound) :
    (step v w e).installedTags = w.installedTags ++ (answeredTag w e).toList := by
  have hnothing {w' : BlockPolledMoneypStore Base Derived}
      (h : w'.store.history = w.store.history) (htag : answeredTag w e = none) :
      w'.installedTags = w.installedTags ++ (answeredTag w e).toList := by
    rw [installedTags, h, htag, Option.toList_none, List.append_nil]
    rfl
  cases e with
  | start => exact hnothing rfl rfl
  | stop i =>
    rw [step]
    split_ifs
    · exact hnothing rfl rfl
    · exact hnothing rfl rfl
  | block blockTag => exact hnothing rfl rfl
  | answer i state =>
    rcases step_answer (v := v) (w := w) i state with ⟨h, htag⟩ | ⟨_, _, h⟩
    · exact hnothing (congrArg _ h) htag
    · rw [installedTags, h]
      exact receive_total hv hw
  | timeout => exact hnothing (updateScheduled_kept hw).2 rfl

theorem run_tags (events : List (StoreEvent Base)) (hw : w.store.Sound) :
    ∃ l, l.Sublist (answeredTags v w events) ∧
      (run v w events).installedTags = w.installedTags ++ l := by
  induction events generalizing w with
  | nil => exact ⟨[], List.Sublist.refl _, (List.append_nil _).symm⟩
  | cons e events ih =>
    obtain ⟨l, hl, hstep⟩ := step_tags (v := v) (e := e) hw
    obtain ⟨m, hm, hrun⟩ := ih (step_sound (v := v) (e := e) hw)
    refine ⟨l ++ m, List.Sublist.append hl hm, ?_⟩
    rw [← List.append_assoc, ← hstep]
    exact hrun

theorem run_total {events : List (StoreEvent Base)} (hv : v.NeverThrows) (hw : w.store.Sound) :
    (run v w events).installedTags = w.installedTags ++ answeredTags v w events := by
  induction events generalizing w with
  | nil => exact (List.append_nil _).symm
  | cons e events ih =>
    rw [answeredTags, ← List.append_assoc, ← step_total hv hw]
    exact ih (step_sound hw)

theorem new_sound : (new : BlockPolledMoneypStore Base Derived).store.Sound :=
  ⟨fun h => Bool.noConfusion h, fun h => Bool.noConfusion h, fun h => Bool.noConfusion h,
    fun h => Bool.noConfusion h⟩

/-- The states that are installed never go back in time. -/
def NeverGoesBack (v : BaseValues Base Derived) (events : List (StoreEvent Base)) : Prop :=
  (run v new events).installedTags.Pairwise (· ≤ ·)

/-- No fetch for a block is answered after the fetch for a newer one. -/
def AnswersInOrder (v : BaseValues Base Derived) (events : List (StoreEvent Base)) : Prop :=
  (answeredTags v new events).Pairwise (· ≤ ·)

/-- The polled store does not go back in time as long as the fetches are answered in the order of
their blocks; and, unless updates throw, not otherwise. -/
theorem neverGoesBack_iff (v : BaseValues Base Derived) (events : List (StoreEvent Base)) :
    (AnswersInOrder v events → NeverGoesBack v events) ∧
      (v.NeverThrows → NeverGoesBack v events → AnswersInOrder v events) := by
  constructor
  · intro horder
    obtain ⟨l, hl, hrun⟩ := run_tags (v := v) events new_sound
    rw [NeverGoesBack, hrun]
    exact horder.sublist hl
  · intro hv hnever
    rw [NeverGoesBack, run_total hv new_sound] at hnever
    exact hnever

/-- A store of the price alone. -/
def priceOnly : BaseValues ℕ Unit where
  derive := fun _ => .ok ()
  reduce := fun prev next => .ok (if prev = next then prev else next)
  reduceDerived := fun _ _ => .ok ()

/-- Two blocks come, and the fetch for the first one is the last to be answered. -/
def lateAnswer : List (StoreEvent ℕ) :=
  [.start, .block 1, .block 2, .answer 0 (some (60000, .value 100)),
    .answer 1 (some (58000, .value 160)), .answer 0 (some (60000, .value 130))]

theorem late_answer_installed :
    ¬∀ events : List (StoreEvent ℕ), NeverGoesBack priceOnly events := by
  intro hall
  have hback := hall lateAnswer
  have htags : (run priceOnly new lateAnswer).installedTags = [2, 1] := by
    decide
  rw [NeverGoesBack, htags] at hback
  exact absurd hback (by decide)

end BlockPolledMoneypStore

end MoneyProtocol.Sdk
