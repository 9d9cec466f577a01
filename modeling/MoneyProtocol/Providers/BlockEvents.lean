import MoneyProtocol.Library.Machine
import MoneyProtocol.Providers.WebSocketAugmentedProvider

/-!
# Where block events come from

While anybody listens, the provider's block listener should be registered with exactly one source,
and otherwise with none. A WebSocket that is replaced by another one keeps its registration, and a
timer that is pending when the provider is closed is not cleared.
-/

namespace MoneyProtocol.Providers.WebSocketAugmentedProvider

variable {p : WebSocketAugmentedProvider} {e : ProviderEvent}

/-- The number of sources that block events should come from. -/
def wanted (p : WebSocketAugmentedProvider) : ℕ := if p.blockListeners = [] then 0 else 1

/-- After every event, block events come from one source if there are block listeners and from none
otherwise; and between `closeWebSocket` and the next `openWebSocket` no WebSocket is opened. -/
def Disciplined (events : List ProviderEvent) : Prop :=
  Machine.Along step (fun p e => (step p e).sources = (step p e).wanted ∧
    (p.closed = true → e ≠ .openWebSocket → (step p e).openedSockets = p.openedSockets))
    new events

/-- A provider that is closed has no timer that would open a WebSocket when it expires. -/
def NothingPending (events : List ProviderEvent) : Prop :=
  Machine.Along step (fun p e => (step p e).closed = true → (step p e).timers = []) new events

/-- An event that does no harm: no WebSocket is opened over another one that is listened to;
`closeWebSocket` comes when no timer is pending but the one that it clears; and after it no former
WebSocket closes that the provider still listens to. -/
def Careful (p : WebSocketAugmentedProvider) : ProviderEvent → Prop
  | .openWebSocket => p.wsProvider = none ∨ p.blockListeners = []
  | .timerExpires timerId => timerId ∈ p.timers → p.wsProvider = none ∨ p.blockListeners = []
  | .closeWebSocket => ∀ timerId ∈ p.timers,
      p.wsProvider ≠ none ∧ p.reconnectTimerId = some timerId
  | .socketCloses i => p.closed = true → ∀ ws, p.socket i = some ws →
      ws.readyState = .closed ∨ ws.onClose = false
  | _ => True

def AllCareful (events : List ProviderEvent) : Prop :=
  Machine.Along step Careful new events

/-- The listener is registered with the source that the provider uses, as often as it should be,
and with no former one. -/
structure Balanced (p : WebSocketAugmentedProvider) : Prop where
  base : p.wsProvider = none → p.baseListeners = p.wanted
  current : ∀ ws, p.wsProvider = some ws → ws.blockListeners = p.wanted ∧ p.baseListeners = 0
  former : ∀ ws ∈ p.formerProviders, ws.sources = 0

theorem wanted_nil (h : p.blockListeners = []) : p.wanted = 0 := if_pos h

theorem wanted_cons (h : p.blockListeners ≠ []) : p.wanted = 1 := if_neg h

theorem sources_closed {ws : WebSocketProvider} (h : ws.readyState = .closed) : ws.sources = 0 :=
  if_pos h

theorem sources_of_none {ws : WebSocketProvider} (h : ws.blockListeners = 0) : ws.sources = 0 := by
  rw [WebSocketProvider.sources, h, ite_self]

theorem changeRegistrations_some {f : ℕ → ℕ} {ws : WebSocketProvider}
    (h : p.wsProvider = some ws) : changeRegistrations f p =
      { p with wsProvider := some { ws with blockListeners := f ws.blockListeners } } := by
  rw [changeRegistrations, h]

theorem changeRegistrations_none {f : ℕ → ℕ} (h : p.wsProvider = none) :
    changeRegistrations f p = { p with baseListeners := f p.baseListeners } := by
  rw [changeRegistrations, h]

theorem switchover_nil (h : p.blockListeners = []) : switchover p = p := by
  rw [switchover, h]
  rfl

theorem switchover_some {ws : WebSocketProvider} (h : p.blockListeners ≠ [])
    (hws : p.wsProvider = some ws) : switchover p = { p with
      baseListeners := p.baseListeners - 1
      wsProvider := some { ws with blockListeners := ws.blockListeners + 1 } } := by
  have hsome : p.wsProvider.isSome = true := by rw [hws, Option.isSome_some]
  rw [switchover, if_pos (List.length_pos_iff.mpr h), if_pos hsome]
  exact changeRegistrations_some hws

theorem switchover_none (h : p.blockListeners ≠ []) (hws : p.wsProvider = none) :
    switchover p = { p with baseListeners := p.baseListeners + 1 } := by
  have hnone : ¬p.wsProvider.isSome = true := by simp [hws]
  rw [switchover, if_pos (List.length_pos_iff.mpr h), if_neg hnone]
  exact changeRegistrations_none hws

/-- A balanced provider without former registrations takes events from the sources wanted. -/
theorem Balanced.sources (h : Balanced p)
    (hlive : ∀ ws, p.wsProvider = some ws → ws.readyState ≠ .closed) :
    p.sources = p.wanted := by
  have hformer : (p.formerProviders.map WebSocketProvider.sources).sum = 0 := by
    apply List.sum_eq_zero_iff_forall_eq_nat.mpr
    intro n hn
    obtain ⟨ws, hws, rfl⟩ := List.mem_map.mp hn
    exact h.former ws hws
  unfold WebSocketAugmentedProvider.sources
  rw [hformer]
  cases hws : p.wsProvider with
  | none => simpa using h.base hws
  | some ws =>
    obtain ⟨hregistered, hbase⟩ := h.current ws hws
    rw [hbase, ← hregistered]
    simp [WebSocketProvider.sources, hlive ws hws]

/-- Switching over to a new WebSocket takes the listener from the provider itself. -/
theorem switchover_balanced_some {ws : WebSocketProvider} (hws : p.wsProvider = some ws)
    (hregistered : ws.blockListeners = 0) (hbase : p.baseListeners = p.wanted)
    (hformer : ∀ ws ∈ p.formerProviders, ws.sources = 0) : Balanced (switchover p) := by
  by_cases hlisteners : p.blockListeners = []
  · have hwanted := wanted_nil hlisteners
    rw [switchover_nil hlisteners]
    refine ⟨?_, ?_, hformer⟩
    · intro hnone
      exact absurd (hnone.symm.trans hws) (by simp)
    · intro ws' hws'
      rw [← Option.some.inj (hws.symm.trans hws'), hregistered, hbase, hwanted]
      exact ⟨rfl, rfl⟩
  · have hwanted := wanted_cons hlisteners
    rw [switchover_some hlisteners hws]
    refine ⟨?_, ?_, hformer⟩
    · intro hnone
      exact absurd hnone (by simp)
    · intro ws' hws'
      rw [← Option.some.inj hws']
      change ws.blockListeners + 1 = p.wanted ∧ p.baseListeners - 1 = 0
      rw [hregistered, hbase, hwanted]
      exact ⟨rfl, rfl⟩

/-- Switching over without one gives the listener to the provider itself. -/
theorem switchover_balanced_none (hws : p.wsProvider = none) (hbase : p.baseListeners = 0)
    (hformer : ∀ ws ∈ p.formerProviders, ws.sources = 0) : Balanced (switchover p) := by
  by_cases hlisteners : p.blockListeners = []
  · rw [switchover_nil hlisteners]
    refine ⟨?_, ?_, hformer⟩
    · intro _
      exact hbase.trans (wanted_nil hlisteners).symm
    · intro ws hsome
      exact absurd (hsome.symm.trans hws) (by simp)
  · rw [switchover_none hlisteners hws]
    refine ⟨?_, ?_, hformer⟩
    · intro _
      change p.baseListeners + 1 = p.wanted
      rw [hbase, wanted_cons hlisteners]
    · intro ws hsome
      exact absurd (hsome.symm.trans hws) (by simp)

/-- Opening a WebSocket keeps the balance if there is no other one, or nobody listens. -/
theorem openWebSocket_balanced (h : Balanced p)
    (hopen : p.wsProvider = none ∨ p.blockListeners = []) : Balanced (openWebSocket p) := by
  have hold : p.baseListeners = p.wanted ∧ ∀ ws ∈ p.wsProvider.toList, ws.sources = 0 := by
    cases hws : p.wsProvider with
    | none => exact ⟨h.base hws, by simp⟩
    | some ws =>
      have hlisteners : p.blockListeners = [] := by
        rcases hopen with hnone | hlisteners
        · exact absurd (hnone.symm.trans hws) (by simp)
        · exact hlisteners
      have hwanted := wanted_nil hlisteners
      obtain ⟨hregistered, hbase⟩ := h.current ws hws
      refine ⟨hbase.trans hwanted.symm, ?_⟩
      intro ws' hws'
      rw [List.mem_singleton.mp hws']
      exact sources_of_none (hregistered.trans hwanted)
  unfold openWebSocket
  refine switchover_balanced_some rfl rfl hold.1 ?_
  intro ws hws
  rcases List.mem_append.mp hws with hws | hws
  · exact h.former ws hws
  · exact hold.2 ws hws

theorem clearReconnectTimer_balanced (h : Balanced p) : Balanced (clearReconnectTimer p) := by
  cases htimer : p.reconnectTimerId with
  | none =>
    rw [clearReconnectTimer, htimer]
    exact h
  | some timerId =>
    rw [clearReconnectTimer, htimer]
    exact ⟨h.base, h.current, h.former⟩

/-- Closing goes back to the provider itself. -/
theorem closeWebSocket_balanced (h : Balanced p) : Balanced (closeWebSocket p) := by
  cases hws : p.wsProvider with
  | none =>
    rw [closeWebSocket, hws]
    exact h
  | some ws =>
    rw [closeWebSocket, hws]
    apply clearReconnectTimer_balanced
    refine switchover_balanced_none rfl (h.current ws hws).2 ?_
    intro ws' hws'
    rcases List.mem_append.mp hws' with hws' | hws'
    · exact h.former ws' hws'
    · rw [List.mem_singleton.mp hws']
      rfl

/-- A WebSocket that opens or closes keeps its registrations. -/
theorem setSocket_balanced (h : Balanced p) {i : SocketOf} {ws : WebSocketProvider}
    {readyState : ReadyState} (hws : p.socket i = some ws)
    (hstate : readyState = .closed ∨ ws.readyState ≠ .closed) :
    Balanced (p.setSocket { ws with readyState := readyState } i) := by
  cases i with
  | current =>
    obtain ⟨hregistered, hbase⟩ := h.current ws hws
    refine ⟨?_, ?_, h.former⟩
    · intro hnone
      exact absurd hnone (by simp [setSocket])
    · intro ws' hws'
      rw [← Option.some.inj hws']
      exact ⟨hregistered, hbase⟩
  | former i =>
    refine ⟨h.base, h.current, ?_⟩
    intro ws' hws'
    rcases List.mem_or_eq_of_mem_set hws' with hws' | rfl
    · exact h.former ws' hws'
    · rcases hstate with rfl | hopen
      · exact sources_closed rfl
      · have hnone := h.former ws (List.mem_of_getElem? hws)
        rw [WebSocketProvider.sources, if_neg hopen] at hnone
        exact sources_of_none hnone

/-- When the listeners change, the registrations follow. -/
theorem changeRegistrations_balanced {f : ℕ → ℕ} {q : WebSocketAugmentedProvider} (h : Balanced p)
    (hws : q.wsProvider = p.wsProvider) (hformer : q.formerProviders = p.formerProviders)
    (hbase : q.baseListeners = p.baseListeners) (hf : f p.wanted = q.wanted) :
    Balanced (changeRegistrations f q) := by
  cases hcurrent : p.wsProvider with
  | none =>
    rw [changeRegistrations_none (hws.trans hcurrent)]
    refine ⟨?_, ?_, ?_⟩
    · intro _
      change f q.baseListeners = q.wanted
      rw [hbase, h.base hcurrent, hf]
    · intro ws hsome
      exact absurd (hsome.symm.trans (hws.trans hcurrent)) (by simp)
    · rw [hformer]
      exact h.former
  | some ws =>
    obtain ⟨hregistered, hnone⟩ := h.current ws hcurrent
    rw [changeRegistrations_some (hws.trans hcurrent)]
    refine ⟨?_, ?_, ?_⟩
    · intro hnot
      exact absurd hnot (by simp)
    · intro ws' hws'
      rw [← Option.some.inj hws']
      refine ⟨?_, hbase.trans hnone⟩
      change f ws.blockListeners = q.wanted
      rw [hregistered, hf]
    · rw [hformer]
      exact h.former

/-- Where as many registrations are wanted as before, nothing has to follow. -/
theorem Balanced.of_wanted {q : WebSocketAugmentedProvider} (h : Balanced p)
    (hws : q.wsProvider = p.wsProvider) (hformer : q.formerProviders = p.formerProviders)
    (hbase : q.baseListeners = p.baseListeners) (hwanted : q.wanted = p.wanted) : Balanced q := by
  refine ⟨?_, ?_, ?_⟩
  · rw [hws, hbase, hwanted]
    exact h.base
  · rw [hws, hbase, hwanted]
    exact h.current
  · rw [hformer]
    exact h.former

theorem addBlockListener_balanced (h : Balanced p) (listener : ℕ) :
    Balanced (addBlockListener listener p) := by
  unfold addBlockListener
  dsimp only
  have hnew : p.blockListeners ++ [listener] ≠ [] := by simp
  split_ifs with hmem hfirst
  · exact h
  · have hold : p.blockListeners = [] := by
      rw [List.length_append, List.length_singleton] at hfirst
      exact List.eq_nil_of_length_eq_zero (Nat.succ.inj hfirst)
    refine changeRegistrations_balanced h rfl rfl rfl ?_
    rw [wanted_nil hold]
    exact (wanted_cons hnew).symm
  · have hold : p.blockListeners ≠ [] := by
      intro hnil
      exact hfirst (by simp [hnil])
    exact h.of_wanted rfl rfl rfl ((wanted_cons hnew).trans (wanted_cons hold).symm)

theorem removeBlockListener_balanced (h : Balanced p) (listener : ℕ) :
    Balanced (removeBlockListener listener p) := by
  unfold removeBlockListener
  dsimp only
  split_ifs with hmem hlast
  · have hold := wanted_cons (List.ne_nil_of_mem hmem)
    refine changeRegistrations_balanced h rfl rfl rfl ?_
    rw [hold]
    exact (wanted_nil (List.eq_nil_of_length_eq_zero hlast)).symm
  · have hold := wanted_cons (List.ne_nil_of_mem hmem)
    have hnew : p.blockListeners.filter (· ≠ listener) ≠ [] := by
      intro hnil
      exact hlast (by rw [hnil]; rfl)
    exact h.of_wanted rfl rfl rfl ((wanted_cons hnew).trans hold.symm)
  · exact h

section frames

variable {f : ℕ → ℕ}

@[simp] theorem changeRegistrations_former :
    (changeRegistrations f p).formerProviders = p.formerProviders := by
  unfold changeRegistrations
  split <;> rfl

@[simp] theorem changeRegistrations_timers : (changeRegistrations f p).timers = p.timers := by
  unfold changeRegistrations
  split <;> rfl

@[simp] theorem changeRegistrations_timerId :
    (changeRegistrations f p).reconnectTimerId = p.reconnectTimerId := by
  unfold changeRegistrations
  split <;> rfl

@[simp] theorem changeRegistrations_listeners :
    (changeRegistrations f p).blockListeners = p.blockListeners := by
  unfold changeRegistrations
  split <;> rfl

@[simp] theorem changeRegistrations_closed : (changeRegistrations f p).closed = p.closed := by
  unfold changeRegistrations
  split <;> rfl

/-- The WebSocket in use stays in use, in the state that it is in. -/
theorem changeRegistrations_current : (changeRegistrations f p).wsProvider =
    p.wsProvider.map fun ws => { ws with blockListeners := f ws.blockListeners } := by
  cases hws : p.wsProvider with
  | none =>
    rw [changeRegistrations_none hws, Option.map_none]
    exact hws
  | some ws => rw [changeRegistrations_some hws, Option.map_some]

@[simp] theorem switchover_former : (switchover p).formerProviders = p.formerProviders := by
  unfold switchover startBlockEvents
  split_ifs <;> simp

@[simp] theorem switchover_timers : (switchover p).timers = p.timers := by
  unfold switchover startBlockEvents
  split_ifs <;> simp

@[simp] theorem switchover_timerId : (switchover p).reconnectTimerId = p.reconnectTimerId := by
  unfold switchover startBlockEvents
  split_ifs <;> simp

@[simp] theorem switchover_closed : (switchover p).closed = p.closed := by
  unfold switchover startBlockEvents
  split_ifs <;> simp

@[simp] theorem switchover_listeners : (switchover p).blockListeners = p.blockListeners := by
  unfold switchover startBlockEvents
  split_ifs <;> simp

theorem switchover_current (h : p.blockListeners ≠ []) : (switchover p).wsProvider =
    p.wsProvider.map fun ws => { ws with blockListeners := ws.blockListeners + 1 } := by
  cases hws : p.wsProvider with
  | none =>
    rw [switchover_none h hws]
    exact hws
  | some ws =>
    rw [switchover_some h hws]
    rfl

theorem switchover_none_current (h : p.wsProvider = none) : (switchover p).wsProvider = none := by
  by_cases hlisteners : p.blockListeners = []
  · rw [switchover_nil hlisteners]
    exact h
  · rw [switchover_none hlisteners h]
    exact h

theorem clearReconnectTimer_current : (clearReconnectTimer p).wsProvider = p.wsProvider := by
  unfold clearReconnectTimer
  split <;> rfl

theorem clearReconnectTimer_closed : (clearReconnectTimer p).closed = p.closed := by
  unfold clearReconnectTimer
  split <;> rfl

theorem mem_clearReconnectTimer {timerId : ℕ} : timerId ∈ (clearReconnectTimer p).timers ↔
    timerId ∈ p.timers ∧ p.reconnectTimerId ≠ some timerId := by
  cases hid : p.reconnectTimerId with
  | none => simp [clearReconnectTimer, hid]
  | some t =>
    simp only [clearReconnectTimer, hid, List.mem_filter, decide_eq_true_eq, ne_eq,
      Option.some.injEq]
    rw [eq_comm (a := t)]

theorem closeWebSocket_none (h : p.wsProvider = none) : closeWebSocket p = p := by
  rw [closeWebSocket, h]

theorem closeWebSocket_some {ws : WebSocketProvider} (h : p.wsProvider = some ws) :
    closeWebSocket p = clearReconnectTimer (switchover { p with
      wsProvider := none
      formerProviders :=
        p.formerProviders ++ [{ ws with onClose := false, readyState := .closed }] }) := by
  rw [closeWebSocket, h]

/-- After closing there is no WebSocket in use. -/
theorem closeWebSocket_current : (closeWebSocket p).wsProvider = none := by
  cases hws : p.wsProvider with
  | none =>
    rw [closeWebSocket_none hws]
    exact hws
  | some ws =>
    rw [closeWebSocket_some hws, clearReconnectTimer_current]
    refine switchover_none_current ?_
    rfl

theorem closeWebSocket_closed : (closeWebSocket p).closed = p.closed := by
  cases hws : p.wsProvider with
  | none => rw [closeWebSocket_none hws]
  | some ws => rw [closeWebSocket_some hws, clearReconnectTimer_closed, switchover_closed]

theorem mem_closeWebSocket_timers {timerId : ℕ} (h : p.wsProvider ≠ none) :
    timerId ∈ (closeWebSocket p).timers ↔
      timerId ∈ p.timers ∧ p.reconnectTimerId ≠ some timerId := by
  obtain ⟨ws, hws⟩ := Option.ne_none_iff_exists'.mp h
  rw [closeWebSocket_some hws, mem_clearReconnectTimer, switchover_timers, switchover_timerId]

theorem onWebSocketClose_pending : (onWebSocketClose p).timers ≠ [] := by
  simp [onWebSocketClose, setReconnectTimer]

end frames

/-- The WebSocket in use has not closed, and the provider listens to its closing. -/
def Live (p : WebSocketAugmentedProvider) : Prop :=
  ∀ ws, p.wsProvider = some ws → ws.readyState ≠ .closed ∧ ws.onClose = true

/-- A closed provider has no WebSocket and no timer. -/
def Quiet (p : WebSocketAugmentedProvider) : Prop :=
  p.closed = true → p.wsProvider = none ∧ p.timers = []

/-- What holds between the events of a careful run. -/
structure Orderly (p : WebSocketAugmentedProvider) : Prop where
  balanced : Balanced p
  live : Live p
  quiet : Quiet p

theorem live_of_none (h : p.wsProvider = none) : Live p := by
  intro ws hws
  exact absurd (hws.symm.trans h) (by simp)

theorem changeRegistrations_live {f : ℕ → ℕ} (h : Live p) : Live (changeRegistrations f p) := by
  intro ws hws
  rw [changeRegistrations_current] at hws
  obtain ⟨ws', hws', rfl⟩ := Option.map_eq_some_iff.mp hws
  exact h ws' hws'

theorem changeRegistrations_quiet {f : ℕ → ℕ} (h : Quiet p) : Quiet (changeRegistrations f p) := by
  intro hclosed
  rw [changeRegistrations_closed] at hclosed
  rw [changeRegistrations_current, changeRegistrations_timers, (h hclosed).1]
  exact ⟨rfl, (h hclosed).2⟩

theorem switchover_live (h : Live p) : Live (switchover p) := by
  unfold switchover
  split_ifs
  · exact changeRegistrations_live h
  · exact changeRegistrations_live h
  · exact h

theorem openWebSocket_live : Live (openWebSocket p) := by
  unfold openWebSocket
  apply switchover_live
  intro ws hws
  rw [← Option.some.inj hws]
  exact ⟨by decide, rfl⟩

theorem openWebSocket_closed : (openWebSocket p).closed = p.closed := switchover_closed

theorem setSocket_live (h : Live p) {ws : WebSocketProvider} {i : SocketOf}
    (hws : p.socket i = some ws) : Live (p.setSocket { ws with readyState := .opened } i) := by
  cases i with
  | current =>
    intro ws' hws'
    have hopened : ReadyState.opened ≠ .closed := by decide
    rw [← Option.some.inj hws']
    exact ⟨hopened, (h ws hws).2⟩
  | former i => exact h

theorem setSocket_quiet (h : Quiet p) {ws ws' : WebSocketProvider} {i : SocketOf}
    (hws : p.socket i = some ws) : Quiet (p.setSocket ws' i) := by
  cases i with
  | current =>
    intro hclosed
    exact absurd ((h hclosed).1.symm.trans hws) (by simp)
  | former i => exact h

theorem onWebSocketClose_orderly (h : Balanced p) (hclosed : p.closed = false) :
    Orderly (onWebSocketClose p) := by
  have hbalanced := closeWebSocket_balanced h
  refine ⟨⟨hbalanced.base, hbalanced.current, hbalanced.former⟩, ?_, ?_⟩
  · exact live_of_none closeWebSocket_current
  · intro hnot
    have hsame : (onWebSocketClose p).closed = p.closed := closeWebSocket_closed
    rw [hsame, hclosed] at hnot
    exact Bool.noConfusion hnot

theorem closeWebSocket_orderly (h : Orderly p) (hc : Careful p .closeWebSocket) :
    Orderly (step p .closeWebSocket) := by
  have hbalanced := closeWebSocket_balanced h.balanced
  refine ⟨⟨hbalanced.base, hbalanced.current, hbalanced.former⟩, ?_, ?_⟩
  · exact live_of_none closeWebSocket_current
  · intro _
    refine ⟨closeWebSocket_current, ?_⟩
    apply List.eq_nil_iff_forall_not_mem.mpr
    intro timerId hmem
    by_cases hws : p.wsProvider = none
    · have hsame : (step p .closeWebSocket).timers = p.timers := by
        rw [step, closeWebSocket_none hws]
      rw [hsame] at hmem
      exact (hc timerId hmem).1 hws
    · obtain ⟨hpending, hid⟩ := (mem_closeWebSocket_timers hws).mp hmem
      exact hid (hc timerId hpending).2

theorem socketOpens_orderly (h : Orderly p) (i : SocketOf) : Orderly (step p (.socketOpens i)) := by
  cases hws : p.socket i with
  | none =>
    simp only [step, hws]
    exact h
  | some ws =>
    simp only [step, hws]
    split_ifs with hconnecting
    · have hstate : ws.readyState ≠ .closed := by
        rw [hconnecting]
        decide
      exact ⟨setSocket_balanced h.balanced hws (.inr hstate), setSocket_live h.live hws,
        setSocket_quiet h.quiet hws⟩
    · exact h

theorem socketCloses_orderly {i : SocketOf} (h : Orderly p) (hc : Careful p (.socketCloses i)) :
    Orderly (step p (.socketCloses i)) := by
  cases hws : p.socket i with
  | none =>
    simp only [step, hws]
    exact h
  | some ws =>
    have hbalanced := setSocket_balanced h.balanced hws (.inl rfl)
    simp only [step, hws]
    split_ifs with hstate hlistens
    · exact h
    · apply onWebSocketClose_orderly hbalanced
      cases hclosed : p.closed with
      | false => cases i <;> exact hclosed
      | true =>
        rcases hc hclosed ws hws with hnot | hnot
        · exact absurd hnot hstate
        · exact absurd (hlistens.symm.trans hnot) (by simp)
    · refine ⟨hbalanced, ?_, setSocket_quiet h.quiet hws⟩
      cases i with
      | current => exact absurd (h.live ws hws).2 hlistens
      | former i => exact h.live

theorem timerExpires_orderly {timerId : ℕ} (h : Orderly p)
    (hc : Careful p (.timerExpires timerId)) :
    Orderly (step p (.timerExpires timerId)) := by
  rw [step]
  split_ifs with hmem
  · have hbalanced : Balanced (openWebSocket
        { p with timers := p.timers.filter (· ≠ timerId) }) :=
      openWebSocket_balanced ⟨h.balanced.base, h.balanced.current, h.balanced.former⟩ (hc hmem)
    refine ⟨hbalanced, openWebSocket_live, ?_⟩
    intro hclosed
    rw [openWebSocket_closed] at hclosed
    rw [(h.quiet hclosed).2] at hmem
    exact absurd hmem List.not_mem_nil
  · exact h

theorem addBlockListener_orderly (h : Orderly p) (listener : ℕ) :
    Orderly (step p (.addBlockListener listener)) := by
  refine ⟨addBlockListener_balanced h.balanced listener, ?_, ?_⟩
  · rw [step, addBlockListener]
    dsimp only
    split_ifs
    · exact h.live
    · exact changeRegistrations_live h.live
    · exact h.live
  · rw [step, addBlockListener]
    dsimp only
    split_ifs
    · exact h.quiet
    · exact changeRegistrations_quiet h.quiet
    · exact h.quiet

theorem removeBlockListener_orderly (h : Orderly p) (listener : ℕ) :
    Orderly (step p (.removeBlockListener listener)) := by
  refine ⟨removeBlockListener_balanced h.balanced listener, ?_, ?_⟩
  · rw [step, removeBlockListener]
    dsimp only
    split_ifs
    · exact changeRegistrations_live h.live
    · exact h.live
    · exact h.live
  · rw [step, removeBlockListener]
    dsimp only
    split_ifs
    · exact changeRegistrations_quiet h.quiet
    · exact h.quiet
    · exact h.quiet

/-- A careful event keeps the order. -/
theorem step_orderly (h : Orderly p) (hc : Careful p e) : Orderly (step p e) := by
  cases e with
  | openWebSocket =>
    have hbalanced := openWebSocket_balanced h.balanced hc
    exact ⟨⟨hbalanced.base, hbalanced.current, hbalanced.former⟩, openWebSocket_live,
      fun hclosed => Bool.noConfusion hclosed⟩
  | closeWebSocket => exact closeWebSocket_orderly h hc
  | socketOpens i => exact socketOpens_orderly h i
  | socketCloses i => exact socketCloses_orderly h hc
  | timerExpires timerId => exact timerExpires_orderly h hc
  | addBlockListener listener => exact addBlockListener_orderly h listener
  | removeBlockListener listener => exact removeBlockListener_orderly h listener

theorem setSocket_opened {ws ws' : WebSocketProvider} {i : SocketOf} (hws : p.socket i = some ws) :
    (p.setSocket ws' i).openedSockets = p.openedSockets := by
  cases i with
  | current =>
    have hcurrent : p.wsProvider = some ws := hws
    simp [openedSockets, setSocket, hcurrent]
  | former i => simp [openedSockets, setSocket]

theorem changeRegistrations_opened {f : ℕ → ℕ} :
    (changeRegistrations f p).openedSockets = p.openedSockets := by
  rw [openedSockets, changeRegistrations_former, changeRegistrations_current, openedSockets]
  cases p.wsProvider <;> rfl

/-- No event but a call of `openWebSocket` opens a WebSocket in a closed provider. -/
theorem step_opened (h : Orderly p) (hc : Careful p e) (hclosed : p.closed = true)
    (he : e ≠ .openWebSocket) : (step p e).openedSockets = p.openedSockets := by
  obtain ⟨hnone, htimers⟩ := h.quiet hclosed
  cases e with
  | openWebSocket => exact absurd rfl he
  | closeWebSocket =>
    rw [step, closeWebSocket_none hnone]
    rfl
  | socketOpens i =>
    cases hws : p.socket i with
    | none => simp only [step, hws]
    | some ws =>
      simp only [step, hws]
      split_ifs
      · exact setSocket_opened hws
      · rfl
  | socketCloses i =>
    cases hws : p.socket i with
    | none => simp only [step, hws]
    | some ws =>
      simp only [step, hws]
      split_ifs with hstate hlistens
      · rfl
      · rcases hc hclosed ws hws with hnot | hnot
        · exact absurd hnot hstate
        · exact absurd (hlistens.symm.trans hnot) (by simp)
      · exact setSocket_opened hws
  | timerExpires timerId =>
    have hmem : timerId ∉ p.timers := by
      rw [htimers]
      exact List.not_mem_nil
    rw [step, if_neg hmem]
  | addBlockListener listener =>
    rw [step, addBlockListener]
    dsimp only
    split_ifs
    · rfl
    · exact changeRegistrations_opened
    · rfl
  | removeBlockListener listener =>
    rw [step, removeBlockListener]
    dsimp only
    split_ifs
    · exact changeRegistrations_opened
    · rfl
    · rfl

/-- A WebSocket that is opened over one that is listened to doubles the sources. -/
theorem openWebSocket_doubled (hbalanced : Balanced p) (hlive : Live p)
    (hopen : ¬(p.wsProvider = none ∨ p.blockListeners = [])) :
    (openWebSocket p).sources ≠ (openWebSocket p).wanted := by
  obtain ⟨hsome, hlisteners⟩ := not_or.mp hopen
  obtain ⟨ws, hws⟩ := Option.ne_none_iff_exists'.mp hsome
  have hold : ws.sources = 1 := by
    rw [WebSocketProvider.sources, if_neg (hlive ws hws).1, (hbalanced.current ws hws).1]
    exact wanted_cons hlisteners
  have hwanted : (openWebSocket p).wanted = 1 := by
    have hsame : (openWebSocket p).blockListeners = p.blockListeners := switchover_listeners
    rw [wanted, hsame, if_neg hlisteners]
  have hformer : (openWebSocket p).formerProviders = p.formerProviders ++ [ws] := by
    rw [openWebSocket, switchover_former, hws]
    rfl
  have hcurrent : (openWebSocket p).wsProvider = some { onClose := true, blockListeners := 1 } := by
    rw [openWebSocket, switchover_current]
    · rfl
    · exact hlisteners
  rw [hwanted, sources, hformer, hcurrent, List.map_append, List.sum_append]
  have hnew : WebSocketProvider.sources { onClose := true, blockListeners := 1 } = 1 := rfl
  simp only [Option.map_some, Option.getD_some, hnew, List.map_cons, List.map_nil, hold,
    List.sum_cons, List.sum_nil]
  omega

/-- An event that keeps the discipline and leaves no timer is careful. -/
theorem careful_of_disciplined (h : Orderly p)
    (hsources : (step p e).sources = (step p e).wanted)
    (hpending : (step p e).closed = true → (step p e).timers = []) : Careful p e := by
  cases e with
  | openWebSocket =>
    by_contra hopen
    exact openWebSocket_doubled h.balanced h.live hopen hsources
  | timerExpires timerId =>
    intro hmem
    rw [step, if_pos hmem] at hsources
    by_contra hopen
    have hbalanced : Balanced { p with timers := p.timers.filter (· ≠ timerId) } :=
      ⟨h.balanced.base, h.balanced.current, h.balanced.former⟩
    exact openWebSocket_doubled hbalanced h.live hopen hsources
  | closeWebSocket =>
    have hnone : (closeWebSocket p).timers = [] := hpending rfl
    intro timerId hmem
    by_cases hws : p.wsProvider = none
    · rw [closeWebSocket_none hws] at hnone
      rw [hnone] at hmem
      exact absurd hmem List.not_mem_nil
    · refine ⟨hws, ?_⟩
      by_contra hid
      have hleft := (mem_closeWebSocket_timers hws).mpr ⟨hmem, hid⟩
      rw [hnone] at hleft
      exact absurd hleft List.not_mem_nil
  | socketCloses i =>
    intro hclosed ws hws
    by_contra hnot
    obtain ⟨hstate, hlistens⟩ := not_or.mp hnot
    have hlistens' : ws.onClose = true := by simpa using hlistens
    have hstep : step p (.socketCloses i) =
        onWebSocketClose (p.setSocket { ws with readyState := .closed } i) := by
      simp only [step, hws, if_neg hstate, hlistens', if_true]
    rw [hstep] at hpending
    apply onWebSocketClose_pending
    apply hpending
    have hsame : (p.setSocket { ws with readyState := .closed } i).closed = p.closed := by
      cases i <;> rfl
    exact closeWebSocket_closed.trans (hsame.trans hclosed)
  | _ => exact trivial

theorem new_orderly : Orderly new := by
  refine ⟨⟨fun _ => rfl, ?_, ?_⟩, live_of_none rfl, fun hclosed => Bool.noConfusion hclosed⟩
  · intro ws hws
    exact absurd hws (by simp [new])
  · intro ws hws
    exact absurd hws List.not_mem_nil

/-- A provider is disciplined, with no timer left when it is closed, in exactly the runs whose
events are careful. -/
theorem disciplined_iff (events : List ProviderEvent) :
    AllCareful events ↔ Disciplined events ∧ NothingPending events := by
  constructor
  · intro h
    constructor
    · apply Machine.Along.imp _ _ new_orderly h
      · intro p e hp hc
        have hnext := step_orderly hp hc
        refine ⟨hnext.balanced.sources (fun ws hws => (hnext.live ws hws).1), ?_⟩
        intro hclosed he
        exact step_opened hp hc hclosed he
      · intro p e hp hc
        exact step_orderly hp hc
    · apply Machine.Along.imp _ _ new_orderly h
      · intro p e hp hc hclosed
        exact ((step_orderly hp hc).quiet hclosed).2
      · intro p e hp hc
        exact step_orderly hp hc
  · intro h
    apply Machine.Along.imp _ _ new_orderly (h.1.and h.2)
    · intro p e hp hstep
      exact careful_of_disciplined hp hstep.1.1 hstep.2
    · intro p e hp hstep
      exact step_orderly hp (careful_of_disciplined hp hstep.1.1 hstep.2)

/-- The WebSocket closes, and the provider is closed before the timer expires. -/
def closedInTheDelay : List ProviderEvent :=
  [.openWebSocket, .socketCloses .current, .closeWebSocket, .timerExpires 0]

theorem reopened_after_close : ¬∀ events : List ProviderEvent, Disciplined events := by
  intro hall
  have hrun := hall closedInTheDelay
  have hopened := hrun.2.2.2.1.2 rfl (by simp)
  exact absurd hopened (by decide)

/-- Opening twice doubles the block events. -/
example : ¬Disciplined [.addBlockListener 0, .openWebSocket, .openWebSocket] := by
  intro hrun
  exact absurd hrun.2.2.1.1 (by decide)

end MoneyProtocol.Providers.WebSocketAugmentedProvider
