import MoneyProtocol.Subgraph.Journal

/-!
# The store keeps the journal

A change is begun, the system state is bumped, and the change is finished: then the tables record
one more entry of the journal. Every handler does this as often as it makes a change, and touches
neither the system states nor the changes otherwise.
-/

namespace MoneyProtocol.Subgraph

variable {normalized : ℚ → ℚ} {s s' : Store} {event : Event} {pending : ℕ} {j j' : Journal}
  {transaction : Transaction} {start : ChangeStart} {systemState before : SystemState}

/-- The tables that record the journal. -/
structure History where
  transactions : Table TransactionHash Transaction
  systemStates : Table I32 SystemState
  priceChanges : Table I32 PriceChange
  vaultChanges : Table I32 VaultChange
  stabilityDepositChanges : Table I32 StabilityDepositChange
  collSurplusChanges : Table I32 CollSurplusChange
  systemStateCount : I32
  changeCount : I32
  currentSystemState : Option I32

def Store.history (s : Store) : History where
  transactions := s.transactions
  systemStates := s.systemStates
  priceChanges := s.priceChanges
  vaultChanges := s.vaultChanges
  stabilityDepositChanges := s.stabilityDepositChanges
  collSurplusChanges := s.collSurplusChanges
  systemStateCount := (getGlobal s).counter .systemStateCount
  changeCount := (getGlobal s).counter .changeCount
  currentSystemState := (getGlobal s).currentSystemState

namespace History

variable {h : History} {change : AnyChange} {k : I32}

/-- The changes of all types with the id. -/
def changesAt (h : History) (k : I32) : List AnyChange :=
  ((h.priceChanges.lookup k).map .price).toList ++ ((h.vaultChanges.lookup k).map .vault).toList ++
    ((h.stabilityDepositChanges.lookup k).map .stabilityDeposit).toList ++
    ((h.collSurplusChanges.lookup k).map .collSurplus).toList

def save (h : History) : AnyChange → History
  | .price change =>
    { h with priceChanges := h.priceChanges.insert change.sequenceNumber change }
  | .vault change =>
    { h with vaultChanges := h.vaultChanges.insert change.sequenceNumber change }
  | .stabilityDeposit change =>
    { h with
      stabilityDepositChanges := h.stabilityDepositChanges.insert change.sequenceNumber change }
  | .collSurplus change =>
    { h with collSurplusChanges := h.collSurplusChanges.insert change.sequenceNumber change }

/-- The system state becomes the next one. -/
def bump (h : History) (systemState : SystemState) : History :=
  { h with
    systemStates := h.systemStates.insert h.systemStateCount
      { systemState with sequenceNumber := h.systemStateCount }
    systemStateCount := h.systemStateCount + 1
    currentSystemState := some h.systemStateCount }

theorem changesAt_save_self (hnew : h.changesAt change.start.sequenceNumber = []) :
    (h.save change).changesAt change.start.sequenceNumber = [change] := by
  simp only [changesAt, List.append_eq_nil_iff] at hnew
  obtain ⟨⟨⟨hprice, hvault⟩, hdeposit⟩, hsurplus⟩ := hnew
  cases change with
  | price change => simp_all [changesAt, save, AnyChange.start]
  | vault change => simp_all [changesAt, save, AnyChange.start]
  | stabilityDeposit change => simp_all [changesAt, save, AnyChange.start]
  | collSurplus change => simp_all [changesAt, save, AnyChange.start]

theorem changesAt_save_other (hk : k ≠ change.start.sequenceNumber) :
    (h.save change).changesAt k = h.changesAt k := by
  cases change with
  | price change =>
    have hk : k ≠ change.sequenceNumber := hk
    simp [changesAt, save, AList.lookup_insert_ne hk]
  | vault change =>
    have hk : k ≠ change.sequenceNumber := hk
    simp [changesAt, save, AList.lookup_insert_ne hk]
  | stabilityDeposit change =>
    have hk : k ≠ change.sequenceNumber := hk
    simp [changesAt, save, AList.lookup_insert_ne hk]
  | collSurplus change =>
    have hk : k ≠ change.sequenceNumber := hk
    simp [changesAt, save, AList.lookup_insert_ne hk]

/-- A change leaves the other tables alone. -/
theorem save_rest (h : History) (change : AnyChange) :
    (h.save change).transactions = h.transactions ∧
      (h.save change).systemStates = h.systemStates ∧
      (h.save change).systemStateCount = h.systemStateCount ∧
      (h.save change).changeCount = h.changeCount ∧
      (h.save change).currentSystemState = h.currentSystemState := by
  cases change <;> exact ⟨rfl, rfl, rfl, rfl, rfl⟩

/-- The counters follow a sound journal, while `pending` further changes are under way. The tables
have its entries as long as their numbers do not repeat, and the current system state in any
case. -/
structure Follows (normalized : ℚ → ℚ) (pending : ℕ) (h : History) (j : Journal) : Prop where
  sound : j.Sound normalized
  systemStates : j.states.length ≤ 2 ^ 32 → ∀ k, h.systemStates.lookup k = j.states[k.toNat]?
  changes : j.changes.length ≤ 2 ^ 32 → ∀ k, h.changesAt k = j.changes[k.toNat]?.toList
  systemStateCount : h.systemStateCount = BitVec.ofNat 32 j.states.length
  changeCount : h.changeCount = BitVec.ofNat 32 (j.changes.length + pending)
  current : h.currentSystemState = j.states.getLast?.map (·.sequenceNumber)
  currentState : ∀ systemState, j.states.getLast? = some systemState →
    h.systemStates.lookup systemState.sequenceNumber = some systemState
  hash : ∀ id (transaction : Transaction), h.transactions.lookup id = some transaction →
    transaction.id = id
  transaction : ∀ change ∈ j.changes, (h.transactions.lookup change.start.transaction).isSome

/-- A change of the transaction was begun in the system state `before`. -/
structure Begun (normalized : ℚ → ℚ) (h : History) (j : Journal) (hash : TransactionHash)
    (start : ChangeStart) (before : SystemState) : Prop where
  follows : h.Follows normalized 1 j
  last : j.states.getLast? = some before
  start : start = ⟨BitVec.ofNat 32 j.changes.length, hash, before.sequenceNumber⟩
  found : (h.transactions.lookup hash).isSome

/-- Where the table has the entries of a list by their places, and the counter is its length, the
next entry is saved under a new number. -/
theorem lookup_next {Entity : Type} {table : I32 → Option Entity} {entries : List Entity}
    {entity : Entity} {k count : I32} (hcount : count = BitVec.ofNat 32 entries.length)
    (hshort : entries.length < 2 ^ 32) (htable : ∀ k, table k = entries[k.toNat]?) :
    (if k = count then some entity else table k) = (entries ++ [entity])[k.toNat]? := by
  by_cases hk : k = count
  · rw [if_pos hk, hk, hcount, I32.toNat_ofNat hshort, List.getElem?_concat_length]
  · have hne : k.toNat ≠ entries.length := by
      intro heq
      apply hk
      rw [hcount, ← heq, I32.ofNat_toNat]
    rw [if_neg hk, htable]
    apply Option.ext
    intro other
    rw [getElem?_concat]
    exact ⟨.inl, fun hor => hor.resolve_right fun hand => hne hand.1⟩

/-- The change that was begun is the next entry of the journal. -/
theorem Begun.finish {hash : TransactionHash} (hbegun : h.Begun normalized j hash start before)
    (hstart : change.start = start) (hafter : change.systemStateAfter = h.systemStateCount)
    (hexplains : change.Explains normalized before
      { systemState with sequenceNumber := h.systemStateCount }) :
    ((h.bump systemState).save change).Follows normalized 0
      (j.snoc change { systemState with sequenceNumber := h.systemStateCount }) := by
  have hr := hbegun.follows
  obtain ⟨htransactions, hstates, hcount, hchangeCount, hcurrent⟩ :=
    save_rest (h.bump systemState) change
  have hnumber : change.start.sequenceNumber = BitVec.ofNat 32 j.changes.length := by
    rw [hstart, hbegun.start]
  refine ⟨?_, ?_, ?_, ?_, ?_, ?_, ?_, ?_, ?_⟩
  · refine hr.sound.snoc hbegun.last hnumber ?_ hafter hr.systemStateCount hexplains
    rw [hstart, hbegun.start]
  · intro hlength k
    rw [Journal.snoc, List.length_append, List.length_singleton] at hlength
    rw [hstates, Journal.snoc, bump, ← lookup_next hr.systemStateCount (Nat.lt_of_succ_le hlength)
      (hr.systemStates (Nat.le_of_succ_le hlength))]
    by_cases hk : k = h.systemStateCount
    · rw [if_pos hk, hk, AList.lookup_insert]
    · rw [if_neg hk, AList.lookup_insert_ne hk]
  · intro hlength k
    rw [Journal.snoc, List.length_append, List.length_singleton] at hlength
    have hchanges := hr.changes (Nat.le_of_succ_le hlength)
    by_cases hk : k = change.start.sequenceNumber
    · subst hk
      have hplace : change.start.sequenceNumber.toNat = j.changes.length := by
        rw [hnumber, I32.toNat_ofNat (Nat.lt_of_succ_le hlength)]
      have hnew : (h.bump systemState).changesAt change.start.sequenceNumber = [] := by
        refine (hchanges _).trans ?_
        rw [hplace, List.getElem?_eq_none le_rfl]
        rfl
      rw [changesAt_save_self hnew, hplace, Journal.snoc, List.getElem?_concat_length]
      rfl
    · rw [changesAt_save_other hk]
      have hk' : k.toNat ≠ j.changes.length := by
        intro heq
        apply hk
        rw [hnumber, ← heq, I32.ofNat_toNat]
      refine (hchanges k).trans (congrArg Option.toList ?_)
      apply Option.ext
      intro c
      rw [Journal.snoc, getElem?_concat]
      exact ⟨.inl, fun hor => hor.resolve_right fun hand => hk' hand.1⟩
  · rw [hcount, Journal.snoc, bump, List.length_append, hr.systemStateCount]
    exact I32.ofNat_succ _
  · rw [hchangeCount, Journal.snoc, List.length_append]
    exact hr.changeCount
  · rw [hcurrent, Journal.snoc, List.getLast?_concat]
    rfl
  · intro last hlast
    rw [Journal.snoc, List.getLast?_concat] at hlast
    obtain rfl := Option.some.inj hlast
    rw [hstates]
    exact AList.lookup_insert _
  · rw [htransactions]
    exact hr.hash
  · intro c hc
    rw [htransactions]
    rcases List.mem_append.mp hc with hc | hc
    · exact hr.transaction c hc
    · rw [List.mem_singleton.mp hc, hstart, hbegun.start]
      exact hbegun.found

/-- The first system state can be written at any time. -/
theorem Follows.started (hr : h.Follows normalized pending j) (hstates : j.states = []) :
    (h.bump (newSystemState 0)).Follows normalized pending j.started := by
  have hlength : j.states.length = 0 := congrArg List.length hstates
  have hcount : h.systemStateCount = 0 := by
    rw [hr.systemStateCount, hlength]
    rfl
  have hjournal : j.started = { j with states := j.states ++ [newSystemState 0] } := by
    rw [Journal.started, if_pos hstates, hstates]
    rfl
  refine ⟨hr.sound.started, ?_, ?_, ?_, ?_, ?_, ?_, hr.hash, ?_⟩
  · intro _ k
    rw [hjournal, bump, ← lookup_next hr.systemStateCount (hlength ▸ by decide)
      (hr.systemStates (hlength ▸ by decide)), ← hcount]
    by_cases hk : k = h.systemStateCount
    · rw [if_pos hk, hk, AList.lookup_insert]
      rfl
    · rw [if_neg hk, AList.lookup_insert_ne hk]
  · rw [hjournal]
    exact hr.changes
  · rw [hjournal, bump, List.length_append, hr.systemStateCount]
    exact I32.ofNat_succ _
  · rw [hjournal]
    exact hr.changeCount
  · rw [hjournal, bump, List.getLast?_concat, hcount]
    rfl
  · intro last hlast
    rw [hjournal, List.getLast?_concat] at hlast
    obtain rfl := Option.some.inj hlast
    rw [bump, hcount]
    exact AList.lookup_insert _
  · rw [hjournal]
    exact hr.transaction

/-- The tables record a sound journal: the system states and the changes stand under their places,
and there are no others. -/
structure Records (normalized : ℚ → ℚ) (h : History) (j : Journal) : Prop where
  sound : j.Sound normalized
  systemStates : ∀ k, h.systemStates.lookup k = j.states[k.toNat]?
  changes : ∀ k, h.changesAt k = j.changes[k.toNat]?.toList
  systemStateCount : h.systemStateCount.toInt = j.states.length
  changeCount : h.changeCount.toInt = j.changes.length
  stateNumbers : ∀ (k : ℕ) (systemState : SystemState), j.states[k]? = some systemState →
    systemState.sequenceNumber.toInt = (k : ℤ)
  changeNumbers : ∀ (k : ℕ) (change : AnyChange), j.changes[k]? = some change →
    change.start.sequenceNumber.toInt = (k : ℤ) ∧
      change.start.systemStateBefore.toInt = (k : ℤ) ∧
      change.systemStateAfter.toInt = (k + 1 : ℤ)
  current : h.currentSystemState = j.states.getLast?.map (·.sequenceNumber)
  hash : ∀ id (transaction : Transaction), h.transactions.lookup id = some transaction →
    transaction.id = id
  transaction : ∀ change ∈ j.changes, (h.transactions.lookup change.start.transaction).isSome

/-- A journal whose numbers are all in reach is recorded as it is. -/
theorem Follows.records (hr : h.Follows normalized 0 j) (hshort : j.changes.length + 1 < 2 ^ 31) :
    h.Records normalized j := by
  have hlength := hr.sound.length
  refine ⟨hr.sound, hr.systemStates (by omega), hr.changes (by omega), ?_, ?_, ?_, ?_, hr.current,
    hr.hash, hr.transaction⟩
  · rw [hr.systemStateCount, I32.toInt_ofNat (by omega)]
  · rw [hr.changeCount, I32.toInt_ofNat (by omega), Nat.add_zero]
  · intro k systemState hk
    have hlt := (List.getElem?_eq_some_iff.mp hk).1
    rw [hr.sound.numbered k systemState hk, I32.toInt_ofNat (by omega)]
  · intro k change hk
    have hlt := (List.getElem?_eq_some_iff.mp hk).1
    obtain ⟨hnumber, hbefore, hafter⟩ := hr.sound.change k change hk
    rw [hnumber, hbefore, hafter, I32.toInt_ofNat (by omega), I32.toInt_ofNat (by omega)]
    exact ⟨rfl, rfl, Nat.cast_succ k⟩

end History

end MoneyProtocol.Subgraph
