import MoneyProtocol.Library.Machine
import MoneyProtocol.Store.BaseState

/-!
# Reads that fail

Any of the reads of a block may fail. An answer corrupts the store if it leaves the error of a
failed read in one of the fields, or what was computed with one.
-/

namespace MoneyProtocol.Sdk

open Outcome

abbrev PolledStore := BlockPolledMoneypStore MoneypStoreBaseState MoneypStoreDerivedState

abbrev PolledState :=
  MoneypStore MoneypStoreBaseState MoneypStoreDerivedState BlockPolledMoneypStoreExtraState

/-- What happens to a store that reads the chain; the end of a fetch is that of its reads. -/
inductive ReadEvent where
  | start
  | stop (i : ℕ)
  | block (blockTag : ℕ)
  | answer (i : ℕ) (reads : Reads)
  | timeout

def ReadEvent.toStoreEvent (connection : BitcoinsMoneypConnection) :
    ReadEvent → StoreEvent MoneypStoreBaseState
  | .start => .start
  | .stop i => .stop i
  | .block blockTag => .block blockTag
  | .answer i reads => .answer i (get connection reads)
  | .timeout => .timeout

namespace FailedReads

def step (connection : BitcoinsMoneypConnection) (w : PolledStore) (e : ReadEvent) : PolledStore :=
  BlockPolledMoneypStore.step moneypValues w (e.toStoreEvent connection)

/-- The fetch that an event ends, and its reads. -/
def answered (w : PolledStore) : ReadEvent → Option (Option ℕ × Reads)
  | .answer i reads => w.fetches[i]?.map fun blockTag => (blockTag, reads)
  | _ => none

/-- What stands in a field of the store. -/
def field (s : PolledState) (f : ReadField) : Option (Fetched f.Value) :=
  s.baseState.map fun b => b.fields f

def feesInNormalMode (s : PolledState) : Option Fees := s.baseState.map fun b => b.feesInNormalMode

/-- A store without errors in its fields. -/
structure Clean (s : PolledState) : Prop where
  fields : ∀ f, field s f ≠ some .error
  timestamp : ∀ x, s.extraState = some x → x.blockTimestamp ≠ .error

/-- Every value of a store is one that was held before or one that was successfully read; what is
derived is derived from such values. -/
structure Preserved (connection : BitcoinsMoneypConnection) (answer : Option (Option ℕ × Reads))
    (s s' : PolledState) : Prop where
  fields : ∀ f, field s' f = field s f ∨ ∃ blockTag reads a, answer = some (blockTag, reads) ∧
    fetchedFields connection reads f = .value a ∧ field s' f = some (.value a)
  fees : feesInNormalMode s' = feesInNormalMode s ∨ ∃ blockTag reads timestamp fees,
    answer = some (blockTag, reads) ∧ reads.blockTimestamp = .value timestamp ∧
      fetchedFees reads = .ok fees ∧ feesInNormalMode s' = some fees
  extra : s'.extraState = s.extraState ∨ ∃ blockTag reads timestamp,
    answer = some (blockTag, reads) ∧ reads.blockTimestamp = .value timestamp ∧
      s'.extraState = some ⟨blockTag, .value timestamp⟩
  derived : s'.derivedState = s.derivedState ∨ ∃ b next, s'.baseState = some b ∧
    derive b = .ok next ∧ (s'.derivedState = some next ∨ ∃ derived,
      s.derivedState = some derived ∧ s'.derivedState = some (reduceDerived derived next))
  clean : Clean s'

/-- Failed reads corrupt the store at no step of a run. -/
def NeverCorrupted (connection : BitcoinsMoneypConnection) (events : List ReadEvent) : Prop :=
  Machine.Along (step connection) (fun w e =>
    Preserved connection (answered w e) w.store (step connection w e).store)
    BlockPolledMoneypStore.new events

/-- The reads of a fetch that leave no error in the store: none of them failed, or the answer is
dropped, because the fees cannot be created or the store was loaded since its start, or the
comparison with an error throws. -/
def Harmless (connection : BitcoinsMoneypConnection) (blockTag : Option ℕ) (reads : Reads)
    (loaded : Bool) : Prop :=
  ((∀ f, fetchedFields connection reads f ≠ .error) ∧ reads.blockTimestamp ≠ .error) ∨
    FeesRejected reads ∨ (blockTag = none ∧ loaded = true) ∨
    (loaded = true ∧
      ∃ f : ReadField, f.comparedByMethod = true ∧ fetchedFields connection reads f = .error)

/-- All answers of a run are harmless. -/
def AllHarmless (connection : BitcoinsMoneypConnection) (events : List ReadEvent) : Prop :=
  Machine.Along (step connection) (fun w e => ∀ blockTag reads,
    answered w e = some (blockTag, reads) → Harmless connection blockTag reads w.store.loaded)
    BlockPolledMoneypStore.new events

/-- The time of a block is one that a date can hold. -/
def DateInRange : ReadEvent → Prop
  | .answer _ reads => ∀ timestamp, reads.blockTimestamp = .value timestamp →
      timestamp ≤ 8640000000000
  | _ => True

section states

variable {connection : BitcoinsMoneypConnection} {reads : Reads} {s s' : PolledState}
  {b : MoneypStoreBaseState} {timestamp : Fetched ℕ} {blockTag : Option ℕ}

theorem field_some (h : s.baseState = some b) (f : ReadField) : field s f = some (b.fields f) := by
  rw [field, h, Option.map_some]

theorem fees_some (h : s.baseState = some b) : feesInNormalMode s = some b.feesInNormalMode := by
  rw [feesInNormalMode, h, Option.map_some]

theorem Clean.of_same (hbase : s'.baseState = s.baseState) (hextra : s'.extraState = s.extraState)
    (h : Clean s) : Clean s' := by
  constructor
  · intro f
    rw [field, hbase]
    exact h.fields f
  · rw [hextra]
    exact h.timestamp

/-- What assigns none of the states preserves them. -/
theorem Preserved.of_same (hbase : s'.baseState = s.baseState)
    (hderived : s'.derivedState = s.derivedState) (hextra : s'.extraState = s.extraState)
    (h : Clean s) {answer : Option (Option ℕ × Reads)} : Preserved connection answer s s' where
  fields := by
    intro f
    rw [field, hbase]
    exact .inl rfl
  fees := by
    rw [feesInNormalMode, hbase]
    exact .inl rfl
  extra := .inl hextra
  derived := .inl hderived
  clean := h.of_same hbase hextra

/-- An update or a load with an answer none of whose reads has failed preserves the values. -/
theorem Preserved.of_read (hget : get connection reads = some (b, timestamp))
    (hfields : ∀ f, fetchedFields connection reads f ≠ .error)
    (htimestamp : reads.blockTimestamp ≠ .error) (hclean : Clean s) {b' : MoneypStoreBaseState}
    (hbase : s'.baseState = some b')
    (hfield : ∀ f, field s f = some (b'.fields f) ∨ b'.fields f = b.fields f)
    (hfees : feesInNormalMode s = some b'.feesInNormalMode ∨
      b'.feesInNormalMode = b.feesInNormalMode)
    (hderived : s'.derivedState = s.derivedState ∨ ∃ next, derive b' = .ok next ∧
      (s'.derivedState = some next ∨ ∃ derived, s.derivedState = some derived ∧
        s'.derivedState = some (reduceDerived derived next)))
    (hextra : s'.extraState = s.extraState ∨ s'.extraState = some ⟨blockTag, timestamp⟩) :
    Preserved connection (some (blockTag, reads)) s s' := by
  obtain ⟨hfetched, hcreated, rfl⟩ := get_eq_some hget
  cases htime : reads.blockTimestamp with
  | error => exact absurd htime htimestamp
  | value time =>
    rw [htime] at hextra
    have hread (f : ReadField) : field s' f = field s f ∨
        ∃ a, fetchedFields connection reads f = .value a ∧ field s' f = some (.value a) := by
      rw [field_some hbase]
      rcases hfield f with h | h
      · exact .inl h.symm
      · rw [h, hfetched]
        cases ha : fetchedFields connection reads f with
        | error => exact absurd ha (hfields f)
        | value a => exact .inr ⟨a, rfl, rfl⟩
    refine ⟨?_, ?_, ?_, ?_, ?_, ?_⟩
    · intro f
      rcases hread f with h | ⟨a, ha, h⟩
      · exact .inl h
      · exact .inr ⟨blockTag, reads, a, rfl, ha, h⟩
    · rw [fees_some hbase]
      rcases hfees with h | h
      · exact .inl h.symm
      · exact .inr ⟨blockTag, reads, time, _, rfl, htime, hcreated, congrArg some h⟩
    · rcases hextra with h | h
      · exact .inl h
      · exact .inr ⟨blockTag, reads, time, rfl, htime, h⟩
    · rcases hderived with h | ⟨next, hnext, h⟩
      · exact .inl h
      · exact .inr ⟨b', next, hbase, hnext, h⟩
    · intro f
      rcases hread f with h | ⟨a, -, h⟩
      · rw [h]
        exact hclean.fields f
      · rw [h]
        exact fun herror => Fetched.noConfusion rfl (heq_of_eq (Option.some.inj herror))
    · intro x hx
      rcases hextra with h | h
      · exact hclean.timestamp x (h.symm.trans hx)
      · rw [← Option.some.inj (h.symm.trans hx)]
        exact fun herror => Fetched.noConfusion rfl (heq_of_eq herror)

/-- The timer derives from what is held. -/
theorem Preserved.of_timer (hs : s.Sound) (hloaded : s.loaded = true) (hclean : Clean s) :
    Preserved connection none s (moneypValues.polled.update none none s) := by
  rcases StoreValues.update_states (v := moneypValues.polled) none none hs hloaded with
    ⟨h, -⟩ | ⟨prev, b, hprev, hreduced, hbase, hderived, hextra⟩
  · rw [h]
    exact .of_same rfl rfl rfl hclean
  · have hextra' : (moneypValues.polled.update none none s).extraState = s.extraState := by
      rcases hextra with h | ⟨_, _, hnone, -⟩
      · exact h
      · exact absurd hnone (by simp)
    rw [← Except.ok.inj hreduced] at hbase hderived
    refine ⟨?_, ?_, .inl hextra', ?_, hclean.of_same (hbase.trans hprev.symm) hextra'⟩
    · intro f
      rw [field, hbase, ← hprev]
      exact .inl rfl
    · rw [feesInNormalMode, hbase, ← hprev]
      exact .inl rfl
    · rcases hderived with h | ⟨derived, next, derived', hold, hnext, hreduce, h⟩
      · exact .inl h
      · refine .inr ⟨prev, next, hbase, hnext, .inr ⟨derived, hold, ?_⟩⟩
        rw [h, ← pure_ok.mp hreduce]

theorem receive_preserved (hget : get connection reads = some (b, timestamp))
    (hfields : ∀ f, fetchedFields connection reads f ≠ .error)
    (htimestamp : reads.blockTimestamp ≠ .error) (hs : s.Sound) (hclean : Clean s) :
    Preserved connection (some (blockTag, reads)) s
      (BlockPolledMoneypStore.receive moneypValues blockTag b timestamp s) := by
  have hload (h : s.loaded = false) : Preserved connection (some (blockTag, reads)) s
      (moneypValues.polled.load b ⟨blockTag, timestamp⟩ s) := by
    rcases StoreValues.load_cases (v := moneypValues.polled) (b := b)
      (x := ⟨blockTag, timestamp⟩) h with h | ⟨derived, hderive, h⟩
    · rw [h]
      exact .of_read hget hfields htimestamp hclean rfl (fun _ => .inr rfl) (.inr rfl) (.inl rfl)
        (.inl rfl)
    · rw [h]
      exact .of_read hget hfields htimestamp hclean rfl (fun _ => .inr rfl) (.inr rfl)
        (.inr ⟨derived, hderive, .inl rfl⟩) (.inr rfl)
  by_cases hloaded : s.loaded = true
  · cases blockTag with
    | none =>
      rw [BlockPolledMoneypStore.receive, if_pos hloaded]
      exact .of_same rfl rfl rfl hclean
    | some n =>
      rw [BlockPolledMoneypStore.receive, if_pos hloaded]
      rcases StoreValues.update_states (v := moneypValues.polled) (some b)
        (some ⟨some n, timestamp⟩) hs hloaded with
        ⟨h, -⟩ | ⟨prev, b', hprev, hreduced, hbase, hderived, hextra⟩
      · rw [h]
        exact .of_same rfl rfl rfl hclean
      · obtain ⟨hreducedFields, hreducedFees⟩ := reduce_ok hreduced
        apply Preserved.of_read hget hfields htimestamp hclean hbase
        · intro f
          rcases hreducedFields f with h | h
          · rw [field_some hprev, h]
            exact .inl rfl
          · exact .inr h
        · rcases hreducedFees with h | h
          · rw [fees_some hprev, h]
            exact .inl rfl
          · exact .inr h
        · rcases hderived with h | ⟨derived, next, derived', hold, hnext, hreduce, h⟩
          · exact .inl h
          · refine .inr ⟨next, hnext, .inr ⟨derived, hold, ?_⟩⟩
            rw [h, ← pure_ok.mp hreduce]
        · rcases hextra with h | ⟨update, old, hupdate, -, h⟩
          · exact .inl h
          · rw [← Option.some.inj hupdate] at h
            exact .inr h
  · have hnot := Bool.eq_false_iff.mpr hloaded
    cases blockTag with
    | none =>
      rw [BlockPolledMoneypStore.receive, if_neg hloaded]
      exact hload hnot
    | some n =>
      rw [BlockPolledMoneypStore.receive, if_neg hloaded]
      exact hload hnot

end states

section step

variable {connection : BitcoinsMoneypConnection} {w : PolledStore} {e : ReadEvent}

theorem step_sound (hw : w.store.Sound) : (step connection w e).store.Sound :=
  BlockPolledMoneypStore.step_sound hw

/-- An answer reaches the store if its fetch is under way and `_get` has not rejected. -/
theorem step_answer {i : ℕ} {reads : Reads} {blockTag : Option ℕ} {b : MoneypStoreBaseState}
    {timestamp : Fetched ℕ} (hfetch : w.fetches[i]? = some blockTag)
    (hget : get connection reads = some (b, timestamp)) :
    (step connection w (.answer i reads)).store =
      BlockPolledMoneypStore.receive moneypValues blockTag b timestamp w.store := by
  simp only [step, ReadEvent.toStoreEvent, BlockPolledMoneypStore.step, hfetch, hget]

theorem step_rejected {i : ℕ} {reads : Reads} (hget : get connection reads = none) :
    (step connection w (.answer i reads)).store = w.store := by
  cases hfetch : w.fetches[i]? with
  | none => simp only [step, ReadEvent.toStoreEvent, BlockPolledMoneypStore.step, hfetch, hget]
  | some tag => simp only [step, ReadEvent.toStoreEvent, BlockPolledMoneypStore.step, hfetch, hget]

/-- Harmless answers preserve the values, as does everything else. -/
theorem step_preserved (hw : w.store.Sound) (hclean : Clean w.store)
    (h : ∀ blockTag reads, answered w e = some (blockTag, reads) →
      Harmless connection blockTag reads w.store.loaded) :
    Preserved connection (answered w e) w.store (step connection w e).store := by
  cases e with
  | start => exact .of_same rfl rfl rfl hclean
  | stop i =>
    simp only [step, ReadEvent.toStoreEvent, BlockPolledMoneypStore.step]
    split_ifs
    · apply Preserved.of_same _ _ _ hclean
      · rfl
      · rfl
      · rfl
    · exact .of_same rfl rfl rfl hclean
  | block blockTag => exact .of_same rfl rfl rfl hclean
  | timeout =>
    simp only [step, ReadEvent.toStoreEvent, BlockPolledMoneypStore.step,
      StoreValues.updateScheduled]
    split_ifs with htimer
    · have hloaded := hw.timer htimer
      have hw' : MoneypStore.Sound { w.store with updateScheduled := false } :=
        ⟨hw.base, hw.derived, hw.extra, fun h => Bool.noConfusion h⟩
      have hclean' : Clean { w.store with updateScheduled := false } :=
        ⟨hclean.fields, hclean.timestamp⟩
      have h : Preserved connection none { w.store with updateScheduled := false } _ :=
        Preserved.of_timer hw' hloaded hclean'
      exact ⟨h.fields, h.fees, h.extra, h.derived, h.clean⟩
    · exact .of_same rfl rfl rfl hclean
  | answer i reads =>
    cases hfetch : w.fetches[i]? with
    | none =>
      have hsame : (step connection w (.answer i reads)).store = w.store := by
        simp only [step, ReadEvent.toStoreEvent, BlockPolledMoneypStore.step, hfetch]
      rw [hsame]
      exact .of_same rfl rfl rfl hclean
    | some blockTag =>
      have hanswer : answered w (.answer i reads) = some (blockTag, reads) := by
        rw [answered, hfetch, Option.map_some]
      rw [hanswer]
      cases hget : get connection reads with
      | none =>
        rw [step_rejected hget]
        exact .of_same rfl rfl rfl hclean
      | some state =>
        obtain ⟨b, timestamp⟩ := state
        rw [step_answer hfetch hget]
        rcases h blockTag reads hanswer with ⟨hfields, htime⟩ | hrejected | ⟨rfl, hloaded⟩ |
          ⟨hloaded, f, hmethod, herror⟩
        · exact receive_preserved hget hfields htime hw hclean
        · rw [get_rejected hrejected] at hget
          exact absurd hget (by simp)
        · rw [BlockPolledMoneypStore.receive, if_pos hloaded]
          exact .of_same rfl rfl rfl hclean
        · cases blockTag with
          | none =>
            rw [BlockPolledMoneypStore.receive, if_pos hloaded]
            exact .of_same rfl rfl rfl hclean
          | some n =>
            rw [BlockPolledMoneypStore.receive, if_pos hloaded]
            obtain ⟨prev, derived, old, hprev, hderived, hold⟩ := hw.states hloaded
            have hb : b.fields f = .error := by
              rw [(get_eq_some hget).1, herror]
            obtain ⟨e, hreduce⟩ := reduce_method hmethod hb
            have hreduced : moneypValues.polled.reduced (some b) prev = .error e := hreduce
            rw [StoreValues.update_unreduced hprev hderived hreduced]
            exact .of_same rfl rfl rfl hclean

/-- An answer that is taken up although a read has failed leaves the error in the base state. -/
theorem receive_error {s : PolledState} {b : MoneypStoreBaseState}
    (timestamp : Fetched ℕ) {blockTag : Option ℕ} (hs : s.Sound) (hclean : Clean s)
    (htaken : ¬(blockTag = none ∧ s.loaded = true))
    (hmethod : s.loaded = true → ∀ f : ReadField, f.comparedByMethod = true → b.fields f ≠ .error) :
    ∃ b', (BlockPolledMoneypStore.receive moneypValues blockTag b timestamp s).baseState =
        some b' ∧ (∀ f, b.fields f = .error → b'.fields f = .error) ∧
      (b.feesInNormalMode.timeOfLatestBlock = none →
        b'.feesInNormalMode = b.feesInNormalMode) := by
  have hload (h : s.loaded = false) :
      (moneypValues.polled.load b ⟨blockTag, timestamp⟩ s).baseState = some b := by
    rcases StoreValues.load_cases (v := moneypValues.polled) (b := b)
      (x := ⟨blockTag, timestamp⟩) h with h | ⟨_, -, h⟩
    · rw [h]
    · rw [h]
  by_cases hloaded : s.loaded = true
  · cases blockTag with
    | none => exact absurd ⟨rfl, hloaded⟩ htaken
    | some n =>
      rw [BlockPolledMoneypStore.receive, if_pos hloaded]
      obtain ⟨prev, derived, old, hprev, -, -⟩ := hs.states hloaded
      have hfields (f : ReadField) : prev.fields f ≠ .error := by
        intro herror
        exact hclean.fields f ((field_some hprev f).trans (congrArg some herror))
      obtain ⟨b', hreduce, hkept⟩ := reduce_other hfields (hmethod hloaded)
      refine ⟨b', ?_, hkept⟩
      rcases StoreValues.update_states (v := moneypValues.polled) (some b)
        (some ⟨some n, timestamp⟩) hs hloaded with
        ⟨-, prev', e, hprev', hthrown⟩ | ⟨prev', b'', hprev', hreduced, hbase, -, -⟩
      · rw [← Option.some.inj (hprev.symm.trans hprev')] at hthrown
        have hnot : reduce prev b = .error e := hthrown
        rw [hreduce] at hnot
        exact absurd hnot (by simp)
      · rw [← Option.some.inj (hprev.symm.trans hprev')] at hreduced
        rw [hbase, Except.ok.inj (hreduce.symm.trans hreduced)]
  · have hnot := Bool.eq_false_iff.mpr hloaded
    cases blockTag with
    | none =>
      rw [BlockPolledMoneypStore.receive, if_neg hloaded]
      exact ⟨b, hload hnot, fun _ h => h, fun _ => rfl⟩
    | some n =>
      rw [BlockPolledMoneypStore.receive, if_neg hloaded]
      exact ⟨b, hload hnot, fun _ h => h, fun _ => rfl⟩

/-- The fees of a store have a valid date. -/
def DatedFees (s : PolledState) : Prop :=
  ∀ fees, feesInNormalMode s = some fees → fees.timeOfLatestBlock ≠ none

/-- An answer that preserves the values of a store is harmless. -/
theorem harmless_of_preserved (hw : w.store.Sound) (hclean : Clean w.store)
    (hdated : DatedFees w.store)
    (h : Preserved connection (answered w e) w.store (step connection w e).store)
    {blockTag : Option ℕ} {reads : Reads} (hanswer : answered w e = some (blockTag, reads)) :
    Harmless connection blockTag reads w.store.loaded := by
  by_contra hharm
  unfold Harmless at hharm
  push Not at hharm
  obtain ⟨hfailed, hfees, htaken, hmethod⟩ := hharm
  cases e with
  | answer i reads' =>
    obtain ⟨tag, hfetch, htag⟩ := Option.map_eq_some_iff.mp hanswer
    obtain ⟨rfl, rfl⟩ := Prod.mk.inj htag
    have hcreated : ∃ state, get connection reads' = some state := get_created hfees
    obtain ⟨⟨b, timestamp⟩, hget⟩ := hcreated
    obtain ⟨hfetched, hcreated, rfl⟩ := get_eq_some hget
    rw [step_answer hfetch hget, hanswer] at h
    have htaken' : ¬(tag = none ∧ w.store.loaded = true) := fun hnot => htaken hnot.1 hnot.2
    have hmethod' : w.store.loaded = true →
        ∀ f : ReadField, f.comparedByMethod = true → b.fields f ≠ .error := by
      rw [hfetched]
      exact hmethod
    obtain ⟨b', hbase, hfields, hinvalid⟩ :=
      receive_error reads'.blockTimestamp hw hclean htaken' hmethod'
    have hgood (f : ReadField) : fetchedFields connection reads' f ≠ .error := by
      intro herror
      rw [← hfetched] at herror
      apply h.clean.fields f
      rw [field_some hbase, hfields f herror]
    have htime := hfailed hgood
    have hdate : b.feesInNormalMode.timeOfLatestBlock = none := by
      rw [fetchedFees_ok hcreated, htime]
      rfl
    have hfees' := fees_some hbase
    rw [hinvalid hdate] at hfees'
    rcases h.fees with hsame | ⟨_, _, timestamp, _, hanswer', hvalue, -, -⟩
    · exact hdated _ (hsame.symm.trans hfees') hdate
    · obtain ⟨-, rfl⟩ := Prod.mk.inj (Option.some.inj hanswer')
      exact Fetched.noConfusion rfl (heq_of_eq (hvalue.symm.trans htime))
  | _ => exact absurd hanswer (by simp [answered])

theorem dated_of_preserved (hdated : DatedFees w.store) (he : DateInRange e)
    (h : Preserved connection (answered w e) w.store (step connection w e).store) :
    DatedFees (step connection w e).store := by
  intro fees hfees
  rcases h.fees with hsame | ⟨blockTag, reads, timestamp, fees', hanswer, htime, hcreated, hread⟩
  · exact hdated fees (hsame.symm.trans hfees)
  · rw [← Option.some.inj (hread.symm.trans hfees), fetchedFees_ok hcreated, htime]
    cases e with
    | answer i reads' =>
      obtain ⟨tag, -, htag⟩ := Option.map_eq_some_iff.mp hanswer
      obtain ⟨-, rfl⟩ := Prod.mk.inj htag
      have hrange : timestamp * 1000 ≤ 8640000000000000 := by
        have hle := he timestamp htime
        omega
      rw [dateOf, convertToDate, Date.ofMilliseconds, if_pos hrange]
      exact Option.some_ne_none _
    | _ => exact absurd hanswer (by simp [answered])

end step

theorem new_clean : Clean (MoneypStore.new : PolledState) := by
  constructor
  · intro f hf
    exact absurd hf (by simp [field, MoneypStore.new])
  · intro x hx
    exact absurd hx (by simp [MoneypStore.new])

/-- Failed reads corrupt the store at no step of a run if all of its answers are harmless; and, for
blocks whose times are dates, not otherwise. -/
theorem neverCorrupted_iff (connection : BitcoinsMoneypConnection) (events : List ReadEvent) :
    (AllHarmless connection events → NeverCorrupted connection events) ∧
      ((∀ e ∈ events, DateInRange e) → NeverCorrupted connection events →
        AllHarmless connection events) := by
  constructor
  · apply Machine.Along.imp (I := fun w => w.store.Sound ∧ Clean w.store)
    · intro w e hw h
      exact step_preserved hw.1 hw.2 h
    · intro w e hw h
      exact ⟨step_sound hw.1, (step_preserved hw.1 hw.2 h).clean⟩
    · exact ⟨BlockPolledMoneypStore.new_sound, new_clean⟩
  · intro hrange hnever
    apply Machine.Along.imp (I := fun w => w.store.Sound ∧ Clean w.store ∧ DatedFees w.store) _ _ _
      (hnever.and (Machine.along_of_mem hrange))
    · rintro w e ⟨hsound, hclean, hdated⟩ ⟨h, -⟩ blockTag reads hanswer
      exact harmless_of_preserved hsound hclean hdated h hanswer
    · rintro w e ⟨hsound, hclean, hdated⟩ ⟨h, he⟩
      exact ⟨step_sound hsound, h.clean, dated_of_preserved hdated he h⟩
    · refine ⟨BlockPolledMoneypStore.new_sound, new_clean, ?_⟩
      intro fees hfees
      exact absurd hfees (by simp [feesInNormalMode, MoneypStore.new, BlockPolledMoneypStore.new])

/-- Good reads of a system with one vault, for nobody. -/
def quietReads : Reads where
  blockTimestamp := .value 1700000000
  createFees := .value (1700000000, 0)
  fields := fun
    | .price | .bpdInStabilityPool | .totalStakedMP | .remainingStabilityPoolMPReward => .value 0
    | .accountBalance | .bpdBalance | .mpBalance | .collateralSurplusBalance => .value 0
    | .numberOfVaults => .value 1
    | .total | .totalRedistributed => .value Vault.empty
    | .riskiestVaultBeforeRedistribution | .vaultBeforeRedistribution =>
      .value { collateral := 0, debt := 0, status := .nonExistent, ownerAddress := 0 }
    | .stabilityDeposit => .value ⟨0, 0, 0, 0, 0⟩
    | .mpStake => .value {}
    | .frontend | .ownFrontend => .value .unregistered

/-- The number of vaults could not be read. -/
def noNumberOfVaults : Reads :=
  { quietReads with
    fields := fun
      | .numberOfVaults => .error
      | f => quietReads.fields f }

theorem failed_read_corrupts : ¬∀ connection events, NeverCorrupted connection events := by
  intro hall
  have hrun := hall ⟨none, none⟩
    [.start, .answer 0 quietReads, .block 1, .answer 0 noNumberOfVaults]
  have hclean := hrun.2.2.2.1.clean
  exact hclean.fields .numberOfVaults rfl

end FailedReads

end MoneyProtocol.Sdk
