import Mathlib.Algebra.Ring.Nat
import Mathlib.Data.List.Basic
import Mathlib.Tactic.Common

/-!
# The provider that may use a WebSocket

A provider takes block events from itself, or from a WebSocket while it has one. It registers a
listener of its own with the source, as long as anybody listens to it. When its WebSocket closes,
it opens another one after a delay.
-/

namespace MoneyProtocol.Providers

inductive ReadyState where
  | connecting
  | opened
  | closed
  deriving DecidableEq

/-- A WebSocket: `onClose` if the provider listens to its closing, and how often the provider's
block listener is registered with it. -/
structure WebSocketProvider where
  readyState : ReadyState := .connecting
  onClose : Bool := false
  blockListeners : ℕ := 0
  deriving DecidableEq

/-- The registrations that still receive block events. -/
def WebSocketProvider.sources (ws : WebSocketProvider) : ℕ :=
  if ws.readyState = .closed then 0 else ws.blockListeners

/-- The provider. `formerProviders` are the WebSockets that `_wsProvider` no longer refers to,
`timers` those that have not expired, `baseListeners` the registrations with the provider itself,
and `closed` says whether `closeWebSocket` was called since the last call of `openWebSocket`. -/
structure WebSocketAugmentedProvider where
  wsProvider : Option WebSocketProvider
  formerProviders : List WebSocketProvider
  reconnectTimerId : Option ℕ
  timers : List ℕ
  nextTimerId : ℕ
  baseListeners : ℕ
  blockListeners : List ℕ
  closed : Bool

namespace WebSocketAugmentedProvider

def new : WebSocketAugmentedProvider := ⟨none, [], none, [], 0, 0, [], false⟩

/-- The registrations with the source in use change. -/
def changeRegistrations (f : ℕ → ℕ) (p : WebSocketAugmentedProvider) :
    WebSocketAugmentedProvider :=
  match p.wsProvider with
  | some ws => { p with wsProvider := some { ws with blockListeners := f ws.blockListeners } }
  | none => { p with baseListeners := f p.baseListeners }

def startBlockEvents (p : WebSocketAugmentedProvider) : WebSocketAugmentedProvider :=
  changeRegistrations (· + 1) p

/-- Removing a listener that is not registered does nothing, and one that is registered more than
once stays so. -/
def stopBlockEvents (p : WebSocketAugmentedProvider) : WebSocketAugmentedProvider :=
  changeRegistrations (· - 1) p

def switchover (p : WebSocketAugmentedProvider) : WebSocketAugmentedProvider :=
  if p.blockListeners.length > 0 then
    startBlockEvents
      (if p.wsProvider.isSome then { p with baseListeners := p.baseListeners - 1 } else p)
  else p

/-- The WebSocket that was there, if any, is left as it is. -/
def openWebSocket (p : WebSocketAugmentedProvider) : WebSocketAugmentedProvider :=
  switchover { p with
    wsProvider := some { onClose := true }
    formerProviders := p.formerProviders ++ p.wsProvider.toList }

/-- Clearing a timer that has expired does nothing. -/
def clearReconnectTimer (p : WebSocketAugmentedProvider) : WebSocketAugmentedProvider :=
  match p.reconnectTimerId with
  | some timerId =>
    { p with timers := p.timers.filter (· ≠ timerId), reconnectTimerId := none }
  | none => p

def closeWebSocket (p : WebSocketAugmentedProvider) : WebSocketAugmentedProvider :=
  match p.wsProvider with
  | some ws => clearReconnectTimer (switchover { p with
      wsProvider := none
      formerProviders :=
        p.formerProviders ++ [{ ws with onClose := false, readyState := .closed }] })
  | none => p

def setReconnectTimer (p : WebSocketAugmentedProvider) : WebSocketAugmentedProvider :=
  { p with
    timers := p.timers ++ [p.nextTimerId]
    reconnectTimerId := some p.nextTimerId
    nextTimerId := p.nextTimerId + 1 }

/-- What a WebSocket calls when it has closed. -/
def onWebSocketClose (p : WebSocketAugmentedProvider) : WebSocketAugmentedProvider :=
  setReconnectTimer (closeWebSocket p)

def addBlockListener (listener : ℕ) (p : WebSocketAugmentedProvider) :
    WebSocketAugmentedProvider :=
  if listener ∈ p.blockListeners then p
  else
    let p := { p with blockListeners := p.blockListeners ++ [listener] }
    if p.blockListeners.length = 1 then startBlockEvents p else p

def removeBlockListener (listener : ℕ) (p : WebSocketAugmentedProvider) :
    WebSocketAugmentedProvider :=
  if listener ∈ p.blockListeners then
    let p := { p with blockListeners := p.blockListeners.filter (· ≠ listener) }
    if p.blockListeners.length = 0 then stopBlockEvents p else p
  else p

end WebSocketAugmentedProvider

/-- Which WebSocket opens or closes: the one of the provider, or the `i`-th of its former ones. -/
inductive SocketOf where
  | current
  | former (i : ℕ)

/-- What happens to a provider. A listener that is to be called once is added, and removed when it
has been called. -/
inductive ProviderEvent where
  | openWebSocket
  | closeWebSocket
  | socketOpens (socket : SocketOf)
  | socketCloses (socket : SocketOf)
  | timerExpires (timerId : ℕ)
  | addBlockListener (listener : ℕ)
  | removeBlockListener (listener : ℕ)

namespace WebSocketAugmentedProvider

def socket (p : WebSocketAugmentedProvider) : SocketOf → Option WebSocketProvider
  | .current => p.wsProvider
  | .former i => p.formerProviders[i]?

def setSocket (p : WebSocketAugmentedProvider) (ws : WebSocketProvider) :
    SocketOf → WebSocketAugmentedProvider
  | .current => { p with wsProvider := some ws }
  | .former i => { p with formerProviders := p.formerProviders.set i ws }

def step (p : WebSocketAugmentedProvider) : ProviderEvent → WebSocketAugmentedProvider
  | .openWebSocket => { openWebSocket p with closed := false }
  | .closeWebSocket => { closeWebSocket p with closed := true }
  | .socketOpens i =>
    match p.socket i with
    | some ws =>
      if ws.readyState = .connecting then p.setSocket { ws with readyState := .opened } i else p
    | none => p
  | .socketCloses i =>
    match p.socket i with
    | some ws =>
      if ws.readyState = .closed then p
      else
        let p := p.setSocket { ws with readyState := .closed } i
        if ws.onClose then onWebSocketClose p else p
    | none => p
  | .timerExpires timerId =>
    if timerId ∈ p.timers then
      openWebSocket { p with timers := p.timers.filter (· ≠ timerId) }
    else p
  | .addBlockListener listener => addBlockListener listener p
  | .removeBlockListener listener => removeBlockListener listener p

/-- How many sources a block event comes from. -/
def sources (p : WebSocketAugmentedProvider) : ℕ :=
  p.baseListeners + (p.wsProvider.map WebSocketProvider.sources).getD 0 +
    (p.formerProviders.map WebSocketProvider.sources).sum

/-- The number of WebSockets that were opened so far. -/
def openedSockets (p : WebSocketAugmentedProvider) : ℕ :=
  p.formerProviders.length + p.wsProvider.toList.length

end WebSocketAugmentedProvider

end MoneyProtocol.Providers
