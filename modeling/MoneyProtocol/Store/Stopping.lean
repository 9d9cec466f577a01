import MoneyProtocol.Library.Machine
import MoneyProtocol.Store.BlockPolledMoneypStore

/-!
# Stopping the polled store

Stopping removes the block listener and cancels the timer, but not the fetches that are under way.
The answer to one of them is taken up as before.
-/

namespace MoneyProtocol.Sdk.BlockPolledMoneypStore

variable {Base Derived : Type} {v : BaseValues Base Derived}
  {w : BlockPolledMoneypStore Base Derived} {e : StoreEvent Base}

/-- A call of `start` or of a function that it returned. -/
def IsCall : StoreEvent Base → Prop
  | .start | .stop _ => True
  | _ => False

/-- The event answers a fetch, and the store takes the answer up: it is not that to the first fetch
of a store that is loaded by now. -/
def TakesUp (w : BlockPolledMoneypStore Base Derived) : StoreEvent Base → Prop
  | .answer i (some _) => ∃ blockTag, w.fetches[i]? = some blockTag ∧
      ¬(blockTag = none ∧ w.store.loaded = true)
  | _ => False

/-- After a stop and until the next start, nothing but the calls themselves touches the store: its
state, the number of notifications and the timer stay. -/
def StaysStopped (v : BaseValues Base Derived) (events : List (StoreEvent Base)) : Prop :=
  Machine.Along (step v)
    (fun w e => w.stopped = true → ¬IsCall e → (step v w e).store = w.store) new events

/-- After a stop and until the next start, no answer is taken up. -/
def NothingTakenUp (v : BaseValues Base Derived) (events : List (StoreEvent Base)) : Prop :=
  Machine.Along (step v) (fun w e => w.stopped = true → ¬TakesUp w e) new events

/-- What is not taken up leaves the store alone, unless it is the timer. -/
theorem step_untouched (h : ¬TakesUp w e) (hcall : ¬IsCall e)
    (htimer : w.store.updateScheduled = false) : (step v w e).store = w.store := by
  cases e with
  | start => exact absurd trivial hcall
  | stop i => exact absurd trivial hcall
  | block blockTag => rfl
  | answer i state =>
    cases state with
    | none =>
      cases hfetch : w.fetches[i]? with
      | none => simp only [step, hfetch]
      | some blockTag => simp only [step, hfetch]
    | some state =>
      cases hfetch : w.fetches[i]? with
      | none => simp only [step, hfetch]
      | some blockTag =>
        have hdropped : blockTag = none ∧ w.store.loaded = true := by
          by_contra hnot
          exact h ⟨blockTag, hfetch, hnot⟩
        simp only [step, hfetch, hdropped.1, receive, if_pos hdropped.2]
  | timeout =>
    have hnot : ¬w.store.updateScheduled = true := Bool.eq_false_iff.mp htimer
    simp only [step, StoreValues.updateScheduled, if_neg hnot]

/-- As long as nothing is taken up, a stopped store has no timer. -/
theorem step_timer (hw : w.stopped = true → w.store.updateScheduled = false)
    (h : w.stopped = true → ¬TakesUp w e) :
    (step v w e).stopped = true → (step v w e).store.updateScheduled = false := by
  have hother (hcall : ¬IsCall e) (hstopped : (step v w e).stopped = w.stopped) :
      (step v w e).stopped = true → (step v w e).store.updateScheduled = false := by
    intro hs
    rw [hstopped] at hs
    rw [step_untouched (h hs) hcall (hw hs)]
    exact hw hs
  cases e with
  | start =>
    intro hs
    exact Bool.noConfusion hs
  | stop i =>
    rw [step]
    split_ifs
    · intro _
      rfl
    · exact hw
  | block blockTag => exact hother not_false rfl
  | answer i state =>
    apply hother not_false
    cases state with
    | none => cases hfetch : w.fetches[i]? <;> simp only [step, hfetch]
    | some state => cases hfetch : w.fetches[i]? <;> simp only [step, hfetch]
  | timeout => exact hother not_false rfl

/-- Where nothing throws, an answer that is taken up is installed. -/
theorem receive_installs (hv : v.NeverThrows) {blockTag : Option ℕ} (b : Base)
    (timestamp : Fetched ℕ) {s : MoneypStore Base Derived BlockPolledMoneypStoreExtraState}
    (hs : s.Sound) (h : ¬(blockTag = none ∧ s.loaded = true)) :
    ∃ x, (receive v blockTag b timestamp s).history = s.history ++ [x] := by
  by_cases hloaded : s.loaded = true
  · cases blockTag with
    | none => exact absurd ⟨rfl, hloaded⟩ h
    | some n =>
      obtain ⟨old, -, hupdate⟩ := StoreValues.update_total (v := v.polled) (b := b)
        (x := ⟨some n, timestamp⟩) hv hs hloaded
      rw [receive, if_pos hloaded]
      exact ⟨_, hupdate⟩
  · have hload := StoreValues.load_total (v := v.polled) (b := b) (x := ⟨blockTag, timestamp⟩) hv
      (Bool.eq_false_iff.mpr hloaded)
    cases blockTag with
    | none =>
      rw [receive, if_neg hloaded]
      exact ⟨_, hload.1⟩
    | some n =>
      rw [receive, if_neg hloaded]
      exact ⟨_, hload.1⟩

theorem step_touched (hv : v.NeverThrows) (hw : w.store.Sound) (h : TakesUp w e) :
    (step v w e).store ≠ w.store := by
  cases e with
  | answer i state =>
    cases state with
    | none => exact absurd h not_false
    | some state =>
      obtain ⟨blockTag, hfetch, hup⟩ := h
      have hstep : (step v w (.answer i (some state))).store =
          receive v blockTag state.1 state.2 w.store := by
        simp only [step, hfetch]
      obtain ⟨x, hx⟩ := receive_installs hv state.1 state.2 hw hup
      intro heq
      rw [← hstep, heq] at hx
      exact absurd (List.self_eq_append_right.mp hx) (List.cons_ne_nil x [])
  | _ => exact absurd h not_false

/-- A stopped store stays as it is if no fetch is answered while it is stopped, except for the
first fetch of a loaded store; and, unless updates throw, not otherwise. -/
theorem staysStopped_iff (v : BaseValues Base Derived) (events : List (StoreEvent Base)) :
    (NothingTakenUp v events → StaysStopped v events) ∧
      (v.NeverThrows → StaysStopped v events → NothingTakenUp v events) := by
  constructor
  · apply Machine.Along.imp (I := fun w => w.stopped = true → w.store.updateScheduled = false)
    · intro w e htimer h hstopped hcall
      exact step_untouched (h hstopped) hcall (htimer hstopped)
    · intro w e htimer h
      exact step_timer htimer h
    · intro h
      exact Bool.noConfusion h
  · intro hv
    apply Machine.Along.imp (I := fun w => w.store.Sound)
    · intro w e hsound h hstopped hup
      have hcall : ¬IsCall e := by
        cases e with
        | start => exact absurd hup not_false
        | stop i => exact absurd hup not_false
        | _ => exact not_false
      exact step_touched hv hsound hup (h hstopped hcall)
    · intro w e hsound _
      exact step_sound hsound
    · exact new_sound

/-- The fetch of a block is under way when the store is stopped, and is answered afterwards. -/
def answeredAfterStop : List (StoreEvent ℕ) :=
  [.start, .answer 0 (some (60000, .value 100)), .block 1, .stop 0,
    .answer 0 (some (58000, .value 130))]

theorem stopped_store_updated :
    ¬∀ events : List (StoreEvent ℕ), StaysStopped priceOnly events := by
  intro hall
  have hrun := hall answeredAfterStop
  have hlast := hrun.2.2.2.2.1 rfl not_false
  have hscheduled := congrArg MoneypStore.updateScheduled hlast
  exact absurd hscheduled (by decide)

end MoneyProtocol.Sdk.BlockPolledMoneypStore
