import MoneyProtocol.Subgraph.History

/-!
# Every handler writes the journal

A change is begun, the system state is bumped, and the change is finished. `getTransaction` makes
at most one change, of the price; every other handler gets the transaction first.
-/

namespace MoneyProtocol.Subgraph

open History

variable {normalized : ℚ → ℚ} {s s' s₁ s₂ : Store} {event : Event} {pending : ℕ} {j j' : Journal}
  {transaction : Transaction} {start : ChangeStart} {systemState before : SystemState}

theorem getCurrentSystemState_bump (systemState : SystemState) (s : Store) :
    getCurrentSystemState (bumpSystemState systemState s) =
      ({ systemState with sequenceNumber := s.history.systemStateCount },
        bumpSystemState systemState s) := by
  have hlookup : (bumpSystemState systemState s).systemStates.lookup s.history.systemStateCount =
      some { systemState with sequenceNumber := s.history.systemStateCount } :=
    AList.lookup_insert _
  unfold getCurrentSystemState
  have hcurrent : (getGlobal (bumpSystemState systemState s)).currentSystemState =
      some s.history.systemStateCount := rfl
  rw [hcurrent, Option.bind_some, hlookup]

/-- The current system state is the last one, once there is one. -/
theorem getCurrentSystemState_last (hr : s.history.Follows normalized pending j)
    (hlast : j.states.getLast? = some systemState) :
    getCurrentSystemState s = (systemState, s) := by
  have hcurrent : (getGlobal s).currentSystemState = some systemState.sequenceNumber := by
    refine hr.current.trans ?_
    rw [hlast]
    rfl
  have hlookup : s.systemStates.lookup systemState.sequenceNumber = some systemState :=
    hr.currentState _ hlast
  unfold getCurrentSystemState
  rw [hcurrent, Option.bind_some, hlookup]

theorem getCurrentSystemState_follows (hr : s.history.Follows normalized pending j)
    (h : getCurrentSystemState s = (systemState, s')) :
    s'.history.Follows normalized pending j.started ∧
      j.started.states.getLast? = some systemState ∧
      s'.transactions = s.transactions := by
  by_cases hstates : j.states = []
  · have hcurrent : (getGlobal s).currentSystemState = none := by
      refine hr.current.trans ?_
      rw [hstates]
      rfl
    have hcount : s.history.systemStateCount = 0 := by
      rw [hr.systemStateCount, hstates]
      rfl
    unfold getCurrentSystemState at h
    rw [hcurrent, Option.bind_none] at h
    obtain ⟨rfl, rfl⟩ := Prod.mk.inj h
    refine ⟨hr.started hstates, ?_, rfl⟩
    rw [Journal.started, if_pos hstates]
    exact congrArg (fun n => some (newSystemState n)) hcount.symm
  · have hstarted : j.started = j := if_neg hstates
    have hlast := List.getLast?_eq_some_getLast hstates
    rw [getCurrentSystemState_last hr hlast] at h
    obtain ⟨rfl, rfl⟩ := Prod.mk.inj h
    rw [hstarted]
    exact ⟨hr, hlast, rfl⟩

variable {hash : TransactionHash} {change : AnyChange}

theorem History.Begun.finished (hbegun : s.history.Begun normalized j hash start before)
    (hhistory : s'.history = (s.history.bump systemState).save change)
    (hstart : change.start = start) (hafter : change.systemStateAfter = s.history.systemStateCount)
    (hexplains : change.Explains normalized before
      { systemState with sequenceNumber := s.history.systemStateCount }) :
    s'.history.Follows normalized 0
        (j.snoc change { systemState with sequenceNumber := s.history.systemStateCount }) ∧
      (s'.transactions.lookup hash).isSome := by
  have hfollows := hhistory ▸ hbegun.finish hstart hafter hexplains
  have hfound := hfollows.transaction change (List.mem_append_right _ (.head _))
  rw [hstart, hbegun.start] at hfound
  exact ⟨hfollows, hfound⟩

theorem finishPriceChange_history (start : ChangeStart) (details : PriceDetails)
    (systemState : SystemState) (s : Store) :
    (finishPriceChange start details (bumpSystemState systemState s)).history =
      (s.history.bump systemState).save
        (.price { start with systemStateAfter := s.history.systemStateCount, details }) := by
  unfold finishPriceChange finishChange
  rw [getCurrentSystemState_bump]
  rfl

theorem finishVaultChange_history (start : ChangeStart) (details : VaultDetails)
    (systemState : SystemState) (s : Store) :
    (finishVaultChange start details (bumpSystemState systemState s)).history =
      (s.history.bump systemState).save
        (.vault { start with systemStateAfter := s.history.systemStateCount, details }) := by
  unfold finishVaultChange finishChange
  rw [getCurrentSystemState_bump]
  rfl

theorem finishStabilityDepositChange_history (start : ChangeStart)
    (details : StabilityDepositDetails) (systemState : SystemState) (s : Store) :
    (finishStabilityDepositChange start details (bumpSystemState systemState s)).history =
      (s.history.bump systemState).save
        (.stabilityDeposit { start with
          systemStateAfter := s.history.systemStateCount, details }) := by
  unfold finishStabilityDepositChange finishChange
  rw [getCurrentSystemState_bump]
  rfl

theorem finishCollSurplusChange_history (start : ChangeStart) (details : CollSurplusDetails)
    (systemState : SystemState) (s : Store) :
    (finishCollSurplusChange start details (bumpSystemState systemState s)).history =
      (s.history.bump systemState).save
        (.collSurplus { start with systemStateAfter := s.history.systemStateCount, details }) := by
  unfold finishCollSurplusChange finishChange
  rw [getCurrentSystemState_bump]
  rfl

/-- What the functions that make a change rely on. -/
structure Gets (normalized : ℚ → ℚ)
    (getTransaction : Event → Store → Option (Transaction × Store)) : Prop where
  found : ∀ {event s result}, (s.transactions.lookup event.transactionHash).isSome →
    getTransaction event s = some result → result.2 = s ∧
      s.transactions.lookup event.transactionHash = some result.1
  follows : ∀ {event s j transaction s'}, s.history.Follows normalized 0 j →
    getTransaction event s = some (transaction, s') →
    (s'.transactions.lookup event.transactionHash).isSome ∧
      ∃ j', j.Repriced j' ∧ s'.history.Follows normalized 0 j'

variable {getTransaction : Event → Store → Option (Transaction × Store)}

/-- The transaction is there, and the change takes the next number. -/
theorem Gets.initChange_begun (hget : Gets normalized getTransaction)
    (hr : s.history.Follows normalized 0 j)
    (hfound : (s.transactions.lookup event.transactionHash).isSome)
    (h : initChange getTransaction event (getChangeSequenceNumber s).1
      (getChangeSequenceNumber s).2 = some (start, s')) :
    ∃ before, s'.history.Begun normalized j.started event.transactionHash start before := by
  have hr₁ : (getChangeSequenceNumber s).2.history.Follows normalized 1 j :=
    { hr with changeCount := (congrArg (· + 1) hr.changeCount).trans (I32.ofNat_succ _) }
  unfold initChange at h
  simp only [Option.bind_eq_bind, Option.bind_eq_some_iff, Option.pure_def, Option.some.injEq] at h
  obtain ⟨⟨transaction, s₁⟩, hinit, hstart⟩ := h
  obtain ⟨rfl, htransaction⟩ := hget.found (s := (getChangeSequenceNumber s).2) hfound hinit
  rcases hcurrent : getCurrentSystemState (getChangeSequenceNumber s).2 with ⟨before, s₂⟩
  obtain ⟨hr₂, hlast, htransactions⟩ := getCurrentSystemState_follows hr₁ hcurrent
  rw [hcurrent] at hstart
  obtain ⟨rfl, rfl⟩ := Prod.mk.inj hstart
  refine ⟨before, hr₂, hlast, ?_, ?_⟩
  · rw [Journal.started_changes, hr₁.hash _ _ htransaction]
    exact congrArg (fun n => ChangeStart.mk n _ _) hr.changeCount
  · exact (congrArg (fun t => (t.lookup event.transactionHash).isSome) htransactions).trans hfound

theorem Gets.createChange_begun (hget : Gets normalized getTransaction)
    (hr : s.history.Follows normalized 0 j)
    (h : createChange getTransaction event s = some (start, s')) :
    ∃ j' before, j.Repriced j' ∧
      s'.history.Begun normalized j' event.transactionHash start before := by
  unfold createChange beginChange at h
  simp only [Option.bind_eq_bind, Option.bind_eq_some_iff, Option.pure_def, Option.some.injEq] at h
  obtain ⟨_, ⟨⟨transaction, s₁⟩, hbegin, rfl⟩, hinit⟩ := h
  obtain ⟨hfound, j₁, hrepriced, hr₁⟩ := hget.follows hr hbegin
  obtain ⟨before, hbegun⟩ := hget.initChange_begun hr₁ hfound hinit
  exact ⟨j₁.started, before, hrepriced.started, hbegun⟩

/-- A further change of the same transaction begins where the journal is. -/
theorem Gets.createChange_found (hget : Gets normalized getTransaction)
    (hr : s.history.Follows normalized 0 j) (hlast : j.states.getLast? = some before)
    (hfound : (s.transactions.lookup event.transactionHash).isSome)
    (h : createChange getTransaction event s = some (start, s')) :
    s'.history.Begun normalized j event.transactionHash start before := by
  unfold createChange beginChange at h
  simp only [Option.bind_eq_bind, Option.bind_eq_some_iff, Option.pure_def, Option.some.injEq] at h
  obtain ⟨_, ⟨⟨transaction, s₁⟩, hbegin, rfl⟩, hinit⟩ := h
  obtain ⟨rfl, -⟩ := hget.found hfound hbegin
  obtain ⟨first, hbegun⟩ := hget.initChange_begun hr hfound hinit
  have hstarted : j.started = j := by
    apply if_neg
    intro hnil
    simp [hnil] at hlast
  rw [hstarted] at hbegun
  obtain rfl := Option.some.inj (hbegun.last.symm.trans hlast)
  exact hbegun

theorem Gets.checkPrice_follows (hget : Gets normalized getTransaction)
    (hr : s.history.Follows normalized 0 j)
    (hfound : (s.transactions.lookup event.transactionHash).isSome)
    (h : checkPrice normalized getTransaction event s = some s') :
    (s'.transactions.lookup event.transactionHash).isSome ∧
      ∃ j', j.Repriced j' ∧ s'.history.Follows normalized 0 j' := by
  unfold checkPrice at h
  rcases hcurrent : getCurrentSystemState s with ⟨before, s₁⟩
  obtain ⟨hr₁, hlast, htransactions⟩ := getCurrentSystemState_follows hr hcurrent
  have hfound₁ : (s₁.transactions.lookup event.transactionHash).isSome := htransactions ▸ hfound
  rw [hcurrent] at h
  simp only [Option.bind_eq_bind, Option.bind_eq_some_iff] at h
  obtain ⟨priceFeedAddress, -, price, -, h⟩ := h
  split at h
  · obtain rfl := Option.some.inj h
    exact ⟨hfound₁, j.started, (Journal.Repriced.refl j).started, hr₁⟩
  · next hprice =>
    simp only [Option.bind_eq_some_iff, Option.pure_def, Option.some.injEq] at h
    obtain ⟨⟨start, s₂⟩, hcreate, rfl⟩ := h
    have hbegun := hget.createChange_found hr₁ hlast hfound₁ hcreate
    have hhistory := finishPriceChange_history start
      ⟨normalized (decimalize normalized price - before.price)⟩
      { before with price := decimalize normalized price } s₂
    obtain ⟨hfollows, hfound₂⟩ := hbegun.finished hhistory rfl rfl ⟨rfl, hprice, rfl⟩
    exact ⟨hfound₂, _, Journal.started_snoc_repriced j _ _, hfollows⟩

theorem gets_within (normalized : ℚ → ℚ) (depth : ℕ) :
    Gets normalized (getTransactionWithin normalized depth) := by
  induction depth with
  | zero =>
    refine ⟨?_, ?_⟩
    · intro event s result _ h
      cases h
    · intro event s j transaction s' _ h
      cases h
  | succ depth ih =>
    refine ⟨?_, ?_⟩
    · intro event s result hfound h
      obtain ⟨transaction, htransaction⟩ := Option.isSome_iff_exists.mp hfound
      rw [getTransactionWithin, htransaction] at h
      obtain rfl := Option.some.inj h
      exact ⟨rfl, htransaction⟩
    · intro event s j transaction s' hr h
      rw [getTransactionWithin] at h
      split at h
      · next transaction htransaction =>
        obtain ⟨rfl, rfl⟩ := Prod.mk.inj (Option.some.inj h)
        exact ⟨by rw [htransaction]; rfl, j, .refl j, hr⟩
      · next htransaction =>
        simp only [Option.bind_eq_bind, Option.bind_eq_some_iff, Option.pure_def,
          Option.some.injEq] at h
        obtain ⟨blockNumber, -, timestamp, -, s₁, hcheck, hresult⟩ := h
        obtain ⟨-, rfl⟩ := Prod.mk.inj hresult
        refine ih.checkPrice_follows ?_ ?_ hcheck
        · refine { hr with hash := ?_, transaction := ?_ }
          · intro id t ht
            by_cases hid : id = event.transactionHash
            · subst hid
              rw [← Option.some.inj ((AList.lookup_insert _).symm.trans ht)]
            · exact hr.hash id t ((AList.lookup_insert_ne hid).symm.trans ht)
          · intro change hchange
            by_cases hid : change.start.transaction = event.transactionHash
            · rw [hid]
              exact Option.isSome_iff_exists.mpr ⟨_, AList.lookup_insert _⟩
            · refine Eq.trans ?_ (hr.transaction change hchange)
              exact congrArg Option.isSome (AList.lookup_insert_ne hid)
        · exact Option.isSome_iff_exists.mpr ⟨_, AList.lookup_insert _⟩

end MoneyProtocol.Subgraph
