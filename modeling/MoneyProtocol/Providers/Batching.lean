import MoneyProtocol.Library.Machine
import MoneyProtocol.Providers.BatchedProvider

/-!
# What batching changes

Every request is settled once, whether it is batched or not. Its outcome is that of the same call
sent directly, unless the batch that it is in mixes calls that fail with calls that do not, or
calls that change what the calls after them read.
-/

namespace MoneyProtocol.Providers

variable {ChainState : Type} {chain : Chain ChainState}

/-- The calls succeed one after the other, each with what it returns on its own in the state `s₀`,
whatever the calls before it have done. -/
def Undisturbed (chain : Chain ChainState) (s₀ : ChainState) :
    List CallRequest → ChainState → Prop
  | [], _ => True
  | call :: calls, s => ∃ target callData returnData s', call = ⟨some target, some callData⟩ ∧
      chain.message target callData s = some (returnData, s') ∧
      chain.call call.request s₀ = some returnData ∧ Undisturbed chain s₀ calls s'

/-- A batch whose calls all fail on their own, or all succeed undisturbed. -/
def Uniform (chain : Chain ChainState) (calls : List CallRequest) (s : ChainState) : Prop :=
  Undisturbed chain s calls s ∨ ∀ call ∈ calls, chain.call call.request s = none

theorem aggregate_cons {target callData : HexString} {calls : List CallRequest} {s : ChainState} :
    chain.aggregate (⟨some target, some callData⟩ :: calls) s =
      (chain.message target callData s).bind fun sent =>
        (chain.aggregate calls sent.2).map fun results => sent.1 :: results := by
  cases hmessage : chain.message target callData s with
  | none => simp [Chain.aggregate, hmessage]
  | some sent =>
    cases hresults : chain.aggregate calls sent.2 with
    | none => simp [Chain.aggregate, hmessage, hresults]
    | some results => simp [Chain.aggregate, hmessage, hresults]

/-- An aggregate with results has sent the message of its first call. -/
theorem aggregate_some {call : CallRequest} {calls : List CallRequest} {s : ChainState}
    {results : List HexString} (h : chain.aggregate (call :: calls) s = some results) :
    ∃ target callData returnData s' rest, call = ⟨some target, some callData⟩ ∧
      chain.message target callData s = some (returnData, s') ∧
      chain.aggregate calls s' = some rest ∧ results = returnData :: rest := by
  obtain ⟨target?, callData?⟩ := call
  cases target? with
  | none => exact absurd h (by simp [Chain.aggregate])
  | some target =>
    cases callData? with
    | none => exact absurd h (by simp [Chain.aggregate])
    | some callData =>
      rw [aggregate_cons] at h
      obtain ⟨⟨returnData, s'⟩, hmessage, h⟩ := Option.bind_eq_some_iff.mp h
      obtain ⟨rest, hrest, rfl⟩ := Option.map_eq_some_iff.mp h
      exact ⟨target, callData, returnData, s', rest, rfl, hmessage, hrest, rfl⟩

theorem Undisturbed.aggregate {s₀ s : ChainState} {calls : List CallRequest}
    (h : Undisturbed chain s₀ calls s) : ∃ results, chain.aggregate calls s = some results ∧
      results.map some = calls.map fun call => chain.call call.request s₀ := by
  induction calls generalizing s with
  | nil => exact ⟨[], rfl, rfl⟩
  | cons call calls ih =>
    obtain ⟨target, callData, returnData, s', rfl, hmessage, hcall, hrest⟩ := h
    obtain ⟨results, hresults, hmap⟩ := ih hrest
    refine ⟨returnData :: results, ?_, ?_⟩
    · rw [aggregate_cons, hmessage, Option.bind_some, hresults, Option.map_some]
    · rw [List.map_cons, List.map_cons, hcall, hmap]

theorem undisturbed_of_aggregate {s₀ s : ChainState} {calls : List CallRequest}
    {results : List HexString} (h : chain.aggregate calls s = some results)
    (hmap : results.map some = calls.map fun call => chain.call call.request s₀) :
    Undisturbed chain s₀ calls s := by
  induction calls generalizing s results with
  | nil => exact trivial
  | cons call calls ih =>
    obtain ⟨target, callData, returnData, s', rest, rfl, hmessage, hrest, rfl⟩ := aggregate_some h
    obtain ⟨hhead, htail⟩ := List.cons.inj hmap
    exact ⟨target, callData, returnData, s', rfl, hmessage, hhead.symm, ih hrest htail⟩

/-- A first call that fails on its own makes the aggregate fail. -/
theorem aggregate_none {call : CallRequest} {calls : List CallRequest} {s : ChainState}
    (h : chain.call call.request s = none) : chain.aggregate (call :: calls) s = none := by
  cases hresults : chain.aggregate (call :: calls) s with
  | none => rfl
  | some results =>
    obtain ⟨target, callData, returnData, s', rest, rfl, hmessage, -, -⟩ := aggregate_some hresults
    rw [chain.call_message _ target callData s rfl rfl, hmessage] at h
    exact absurd h (by simp)

theorem aggregate_length {calls : List CallRequest} {s : ChainState} {results : List HexString}
    (h : chain.aggregate calls s = some results) : results.length = calls.length := by
  induction calls generalizing s results with
  | nil =>
    rw [← Option.some.inj h]
    rfl
  | cons call calls ih =>
    obtain ⟨_, _, _, _, rest, -, -, hrest, rfl⟩ := aggregate_some h
    rw [List.length_cons, List.length_cons, ih hrest]

/-- The requests that wait for a call that was sent. -/
def Sent.callbacks : Sent → List ℕ
  | .direct number _ _ => [number]
  | .dispatched batch => batch.callbacks

/-- A call of a batch is that of a request, at a tag for the same block. -/
def Fits (requests : List (ResolvedTransactionRequest × Option BlockTag))
    (batchTag : Option BlockTag) (call : CallRequest) (number : ℕ) : Prop :=
  ∃ request blockTag, requests[number]? = some (request, blockTag) ∧
    batchableCall request = true ∧ call = ⟨request.toAddress, request.data⟩ ∧
    orLatest blockTag = orLatest batchTag

def BatchedCalls.Holds (batch : BatchedCalls)
    (requests : List (ResolvedTransactionRequest × Option BlockTag)) : Prop :=
  List.Forall₂ (Fits requests batch.blockTag) batch.calls batch.callbacks

def Sent.Holds (requests : List (ResolvedTransactionRequest × Option BlockTag)) : Sent → Prop
  | .direct number request blockTag => requests[number]? = some (request, blockTag)
  | .dispatched batch => batch.Holds requests

section places

variable {requests : List (ResolvedTransactionRequest × Option BlockTag)}
  {x : ResolvedTransactionRequest × Option BlockTag} {batch : BatchedCalls} {sent : Sent}

theorem getElem?_append_some {number : ℕ} {y : ResolvedTransactionRequest × Option BlockTag}
    (h : requests[number]? = some y) : (requests ++ [x])[number]? = some y := by
  obtain ⟨hlt, -⟩ := List.getElem?_eq_some_iff.mp h
  rw [List.getElem?_append_left hlt]
  exact h

/-- Later requests change nothing for the earlier ones. -/
theorem BatchedCalls.Holds.append (h : batch.Holds requests) : batch.Holds (requests ++ [x]) := by
  apply List.Forall₂.imp _ h
  rintro call number ⟨request, blockTag, hrequest, hfits⟩
  exact ⟨request, blockTag, getElem?_append_some hrequest, hfits⟩

theorem Sent.Holds.append (h : sent.Holds requests) : sent.Holds (requests ++ [x]) := by
  cases sent with
  | direct number request blockTag => exact getElem?_append_some h
  | dispatched batch => exact BatchedCalls.Holds.append h

/-- A batched call has the outcome of its request. -/
theorem Fits.call {batchTag : Option BlockTag} {call : CallRequest} {number : ℕ}
    (h : Fits requests batchTag call number) (chain : Chain ChainState)
    (stateAt : BlockTag → ChainState) :
    ∃ request blockTag, requests[number]? = some (request, blockTag) ∧
      chain.call request (stateAt (orLatest blockTag)) =
        chain.call call.request (stateAt (orLatest batchTag)) := by
  obtain ⟨request, blockTag, hrequest, hbatchable, rfl, htag⟩ := h
  refine ⟨request, blockTag, hrequest, ?_⟩
  have hsame : batchableCall (CallRequest.request ⟨request.toAddress, request.data⟩) = true := rfl
  rw [htag, chain.call_congr request _ hbatchable hsame rfl rfl]

/-- The callbacks of a batch get the outcomes of their own requests if and only if the results are
those of the calls, one by one. -/
theorem zip_transparent_iff {batchTag : Option BlockTag} {calls : List CallRequest}
    {callbacks : List ℕ} {results : List (Option HexString)} (stateAt : BlockTag → ChainState)
    (h : List.Forall₂ (Fits requests batchTag) calls callbacks)
    (hlength : results.length = calls.length) :
    (∀ number outcome, (number, outcome) ∈ callbacks.zip results →
      ∀ request blockTag, requests[number]? = some (request, blockTag) →
        outcome = chain.call request (stateAt (orLatest blockTag))) ↔
      results = calls.map fun call => chain.call call.request (stateAt (orLatest batchTag)) := by
  induction h generalizing results with
  | nil =>
    rw [List.eq_nil_of_length_eq_zero hlength]
    simp
  | @cons call number calls callbacks hfits hrest ih =>
    obtain ⟨outcome, results, rfl⟩ := List.exists_cons_of_length_eq_add_one hlength
    obtain ⟨request, blockTag, hrequest, hcall⟩ := hfits.call chain stateAt
    have hlength' : results.length = calls.length := Nat.succ.inj hlength
    rw [List.zip_cons_cons, List.map_cons, List.cons.injEq, ← ih hlength']
    constructor
    · intro hall
      refine ⟨?_, ?_⟩
      · rw [← hcall]
        exact hall number outcome List.mem_cons_self request blockTag hrequest
      · intro number' outcome' hmem
        exact hall number' outcome' (List.mem_cons_of_mem _ hmem)
    · rintro ⟨hhead, hall⟩ number' outcome' hmem request' blockTag' hrequest'
      rcases List.mem_cons.mp hmem with heq | hmem
      · obtain ⟨rfl, rfl⟩ := Prod.mk.inj heq
        obtain ⟨rfl, rfl⟩ := Prod.mk.inj (Option.some.inj (hrequest.symm.trans hrequest'))
        rw [hhead, hcall]
      · exact hall number' outcome' hmem request' blockTag' hrequest'

end places

namespace BatchedProvider

variable {w : BatchedProvider} {e : CallEvent ChainState}

/-- Every request is in one place, once: in the batch, which has a timer then, in a call that was
sent, or among those that are settled. -/
structure EachOnce (w : BatchedProvider) : Prop where
  places : (w.batched.callbacks ++ w.sent.flatMap Sent.callbacks ++ w.settled.map Prod.fst).Perm
    (List.range w.requests.length)
  timer : w.batched.callbacks ≠ [] → w.timer = true

/-- A request is settled with what its own call would have returned, sent directly. -/
def Transparent (chain : Chain ChainState) (w : BatchedProvider) : CallEvent ChainState → Prop
  | .executed i stateAt => ∀ sent, w.sent[i]? = some sent →
      ∀ number outcome, (number, outcome) ∈ outcomes chain stateAt sent →
        ∀ request blockTag, w.requests[number]? = some (request, blockTag) →
          outcome = chain.call request (stateAt (orLatest blockTag))
  | _ => True

def AllTransparent (chain : Chain ChainState) (events : List (CallEvent ChainState)) : Prop :=
  Machine.Along (step chain) (Transparent chain) new events

/-- The batches of two calls or more are uniform in the state that they are executed in. -/
def ExecutesUniform (chain : Chain ChainState) (w : BatchedProvider) :
    CallEvent ChainState → Prop
  | .executed i stateAt => ∀ batch, w.sent[i]? = some (.dispatched batch) →
      batch.calls.length > 1 → Uniform chain batch.calls (stateAt (orLatest batch.blockTag))
  | _ => True

def AllUniform (chain : Chain ChainState) (events : List (CallEvent ChainState)) : Prop :=
  Machine.Along (step chain) (ExecutesUniform chain) new events

/-- What holds in every state. -/
structure Kept (w : BatchedProvider) : Prop where
  batched : w.batched.Holds w.requests
  sent : ∀ sent ∈ w.sent, sent.Holds w.requests
  once : EachOnce w

theorem batchResults_length {batch : BatchedCalls} {s : ChainState}
    (h : batch.Holds w.requests) : (batchResults chain batch s).length = batch.calls.length := by
  unfold batchResults
  split_ifs
  · cases hresults : chain.aggregate batch.calls s with
    | none => exact (List.length_map _).trans h.length_eq.symm
    | some results => exact (List.length_map _).trans (aggregate_length hresults)
  · exact List.length_map _

/-- The requests that are settled are those that waited for the call. -/
theorem outcomes_requests {sent : Sent} (h : sent.Holds w.requests)
    (stateAt : BlockTag → ChainState) :
    (outcomes chain stateAt sent).map Prod.fst = sent.callbacks := by
  cases sent with
  | direct number request blockTag => rfl
  | dispatched batch =>
    apply List.map_fst_zip
    rw [batchResults_length h]
    exact Nat.le_of_eq h.length_eq.symm

section call

variable {x : ResolvedTransactionRequest × Option BlockTag}

/-- A request that is sent at once. -/
theorem send_kept (h : Kept w) : Kept (send (.direct w.requests.length x.1 x.2)
    { w with requests := w.requests ++ [x] }) := by
  refine ⟨h.batched.append, ?_, ?_, h.once.timer⟩
  · intro sent hsent
    rcases List.mem_append.mp hsent with hsent | hsent
    · exact (h.sent sent hsent).append
    · rw [List.mem_singleton.mp hsent]
      exact List.getElem?_concat_length
  · change (w.batched.callbacks ++ (w.sent ++ [_]).flatMap Sent.callbacks ++ _).Perm
      (List.range (w.requests ++ [x]).length)
    rw [List.length_append, List.length_singleton, List.range_succ]
    refine List.Perm.trans ?_ (h.once.places.append_right _)
    rw [List.perm_iff_count]
    intro number
    simp only [send, List.flatMap_append, List.flatMap_singleton, Sent.callbacks,
      List.count_append]
    omega

/-- A request that joins the batch. -/
theorem enqueue_kept (h : Kept w) {batchTag : Option BlockTag}
    (hbatch : (⟨w.batched.calls, w.batched.callbacks, batchTag⟩ : BatchedCalls).Holds w.requests)
    (hbatchable : batchableCall x.1 = true) (htag : orLatest x.2 = orLatest batchTag) :
    Kept (enqueueCall ⟨x.1.toAddress, x.1.data⟩ w.requests.length
      { w with
        requests := w.requests ++ [x]
        batched := { w.batched with blockTag := batchTag } }) := by
  refine ⟨?_, ?_, ?_, fun _ => rfl⟩
  · apply List.rel_append hbatch.append
    apply List.Forall₂.cons _ List.Forall₂.nil
    exact ⟨x.1, x.2, List.getElem?_concat_length, hbatchable, rfl, htag⟩
  · intro sent hsent
    exact (h.sent sent hsent).append
  · change (w.batched.callbacks ++ [_] ++ _ ++ _).Perm (List.range (w.requests ++ [x]).length)
    rw [List.length_append, List.length_singleton, List.range_succ]
    refine List.Perm.trans ?_ (h.once.places.append_right _)
    rw [List.perm_iff_count]
    intro number
    simp only [List.count_append, enqueueCall]
    omega

theorem call_kept (h : Kept w) (request : ResolvedTransactionRequest)
    (blockTag : Option BlockTag) : Kept (call request blockTag w) := by
  unfold call callFor
  split
  · exact send_kept (x := (request, blockTag)) h
  · split_ifs with hdirect hempty
    · exact send_kept (x := (request, blockTag)) h
    · have hcalls : w.batched.calls = [] := List.eq_nil_of_length_eq_zero hempty
      have hcallbacks : w.batched.callbacks = [] := by
        apply List.eq_nil_of_length_eq_zero
        rw [← h.batched.length_eq, hempty]
      refine enqueue_kept (x := (request, blockTag)) h ?_ ?_ rfl
      · rw [hcalls, hcallbacks]
        exact List.Forall₂.nil
      · exact not_not.mp (not_or.mp (not_or.mp hdirect).2).1
    · obtain ⟨hbatchable, hconflict⟩ := not_or.mp (not_or.mp hdirect).2
      refine enqueue_kept (x := (request, blockTag)) h h.batched (not_not.mp hbatchable) ?_
      by_contra htag
      apply hconflict
      simp only [alreadyBatchedCallsConflictWith, Bool.and_eq_true, decide_eq_true_eq]
      exact ⟨hempty, htag⟩

end call

theorem dispatchCalls_kept (h : Kept w) : Kept (dispatchCalls { w with timer := false }) := by
  refine ⟨List.Forall₂.nil, ?_, ?_, fun hnot => absurd rfl hnot⟩
  · intro sent hsent
    rcases List.mem_append.mp hsent with hsent | hsent
    · exact h.sent sent hsent
    · rw [List.mem_singleton.mp hsent]
      exact h.batched
  · refine List.Perm.trans ?_ h.once.places
    rw [List.perm_iff_count]
    intro number
    simp only [dispatchCalls, send, emptyBatch, List.flatMap_append, List.flatMap_singleton,
      Sent.callbacks, List.count_append, List.count_nil]
    omega

theorem step_kept (h : Kept w) : Kept (step chain w e) := by
  cases e with
  | setChainId chainId =>
    rw [step, setChainId]
    split
    · exact h
    · exact ⟨h.batched, h.sent, h.once.places, h.once.timer⟩
  | call request blockTag => exact call_kept h request blockTag
  | timeout =>
    rw [step]
    split_ifs
    · exact dispatchCalls_kept h
    · exact h
  | executed i stateAt =>
    cases hsent : w.sent[i]? with
    | none =>
      simp only [step, hsent]
      exact h
    | some sent =>
      simp only [step, hsent]
      obtain ⟨hlt, hget⟩ := List.getElem?_eq_some_iff.mp hsent
      have hmem : sent ∈ w.sent := List.mem_of_getElem? hsent
      refine ⟨h.batched, ?_, ?_, h.once.timer⟩
      · intro sent' hsent'
        exact h.sent sent' (List.mem_of_mem_eraseIdx hsent')
      · have hperm := (List.getElem_cons_eraseIdx_perm hlt).flatMap_right Sent.callbacks
        rw [hget, List.flatMap_cons] at hperm
        rw [List.map_append, outcomes_requests (h.sent sent hmem)]
        refine List.Perm.trans ?_ h.once.places
        rw [List.perm_iff_count] at hperm ⊢
        intro number
        have hcount := hperm number
        simp only [List.count_append] at hcount ⊢
        omega

/-- The results of a batch are those of its calls if and only if it is uniform, or a single call. -/
theorem batchResults_iff {batch : BatchedCalls} {s : ChainState} (h : batch.Holds w.requests) :
    batchResults chain batch s = batch.calls.map (fun call => chain.call call.request s) ↔
      (batch.calls.length > 1 → Uniform chain batch.calls s) := by
  unfold batchResults
  split_ifs with hmany
  · rw [forall_prop_of_true hmany]
    cases hresults : chain.aggregate batch.calls s with
    | some results =>
      constructor
      · intro hmap
        exact .inl (undisturbed_of_aggregate hresults hmap)
      · rintro (hundisturbed | hfail)
        · obtain ⟨results', hresults', hmap⟩ := hundisturbed.aggregate
          rw [Option.some.inj (hresults.symm.trans hresults')]
          exact hmap
        · obtain ⟨call, calls, hcalls⟩ := List.exists_cons_of_length_pos (Nat.zero_lt_of_lt hmany)
          rw [hcalls] at hresults hfail
          rw [aggregate_none (hfail call List.mem_cons_self)] at hresults
          exact absurd hresults (by simp)
    | none =>
      have hnone : (batch.callbacks.map fun _ => (none : Option HexString)) =
          batch.calls.map fun _ => none := by
        rw [List.map_const', List.map_const', h.length_eq]
      rw [hnone]
      constructor
      · intro hmap
        refine .inr ?_
        intro call hmem
        exact (List.map_inj_left.mp hmap call hmem).symm
      · rintro (hundisturbed | hfail)
        · obtain ⟨results', hresults', -⟩ := hundisturbed.aggregate
          exact absurd (hresults.symm.trans hresults') (by simp)
        · apply List.map_congr_left
          intro call hmem
          exact (hfail call hmem).symm
  · exact iff_of_true rfl (fun hnot => absurd hnot hmany)

theorem transparent_iff (h : Kept w) : Transparent chain w e ↔ ExecutesUniform chain w e := by
  cases e with
  | executed i stateAt =>
    constructor
    · intro htransparent batch hsent
      have hbatch : batch.Holds w.requests := h.sent _ (List.mem_of_getElem? hsent)
      apply (batchResults_iff hbatch).mp
      apply (zip_transparent_iff stateAt hbatch (batchResults_length hbatch)).mp
      exact htransparent _ hsent
    · intro huniform sent hsent
      have hholds := h.sent sent (List.mem_of_getElem? hsent)
      cases sent with
      | direct number request blockTag =>
        intro number' outcome hmem request' blockTag' hrequest
        obtain ⟨rfl, rfl⟩ := Prod.mk.inj (List.mem_singleton.mp hmem)
        obtain ⟨rfl, rfl⟩ := Prod.mk.inj (Option.some.inj (hholds.symm.trans hrequest))
        rfl
      | dispatched batch =>
        apply (zip_transparent_iff stateAt hholds (batchResults_length hholds)).mpr
        exact (batchResults_iff hholds).mpr (huniform batch hsent)
  | _ => exact Iff.rfl

theorem new_kept : Kept new :=
  ⟨List.Forall₂.nil, fun _ h => absurd h List.not_mem_nil, List.Perm.refl _,
    fun h => absurd rfl h⟩

/-- In every run each request is settled at most once, and waits in one place until then; and it is
settled as if it had been sent directly in exactly the runs that execute uniform batches. -/
theorem batching_iff (chain : Chain ChainState) (events : List (CallEvent ChainState)) :
    EachOnce (events.foldl (step chain) new) ∧
      (AllTransparent chain events ↔ AllUniform chain events) := by
  constructor
  · have hkept : Kept (events.foldl (step chain) new) := by
      apply Machine.invariant _ events new_kept
      intro w e h
      exact step_kept h
    exact hkept.once
  · apply Machine.along_iff _ _ new_kept
    · intro w e h
      exact transparent_iff h
    · intro w e h _
      exact step_kept h

/-- A chain whose contracts return what they are sent, except that they fail on `0xdead`. -/
def echoChain : Chain Unit where
  call := fun request _ =>
    match request.toAddress, request.data with
    | some _, some data => if data = "0xdead" then none else some data
    | _, _ => some "0x"
  message := fun _ callData _ => if callData = "0xdead" then none else some (callData, ())
  call_congr := by
    intro r r' _ _ hto hdata
    simp only [hto, hdata]
  call_message := by
    intro c target callData s htarget hdata
    simp only [CallRequest.request, htarget, hdata]
    split_ifs <;> rfl

/-- Two calls in a batch, the second of which fails. -/
def oneFails : List (CallEvent Unit) :=
  [.setChainId 1, .call { toAddress := some "0x01", data := some "0xbeef" } none,
    .call { toAddress := some "0x02", data := some "0xdead" } none, .timeout,
    .executed 0 fun _ => ()]

theorem failure_spreads : ¬∀ events : List (CallEvent Unit), AllTransparent echoChain events := by
  intro hall
  have hlast := (hall oneFails).2.2.2.2.1
  have hfailed : none = echoChain.call { toAddress := some "0x01", data := some "0xbeef" } () :=
    hlast _ rfl 0 none (by decide) _ none rfl
  exact absurd hfailed (by decide)

end BatchedProvider

end MoneyProtocol.Providers
