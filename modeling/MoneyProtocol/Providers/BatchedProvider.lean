import Mathlib.Data.List.Perm.Basic
import Mathlib.Tactic.Common

/-!
# The provider that batches calls

Calls that come close to each other are collected in a batch and sent as one call of `aggregate`
of the Multicall contract. A call that does not fit the batch is sent at once. The answers come
back in any order.
-/

namespace MoneyProtocol.Providers

/-- The calls of `aggregate` are strings of hexadecimal digits, and so are addresses. -/
abbrev HexString := String

inductive BlockTag where
  | name (tag : String)
  | number (n : ℕ)
  deriving DecidableEq

/-- The block that is meant where no tag is given. -/
def orLatest (blockTag : Option BlockTag) : BlockTag := blockTag.getD (.name "latest")

structure ResolvedTransactionRequest where
  toAddress : Option HexString := none
  fromAddress : Option HexString := none
  nonce : Option ℕ := none
  gasLimit : Option ℕ := none
  gasPrice : Option ℕ := none
  data : Option HexString := none
  value : Option ℕ := none
  chainId : Option ℕ := none
  deriving DecidableEq

structure CallRequest where
  target : Option HexString
  callData : Option HexString
  deriving DecidableEq

/-- The request of a single call. -/
def CallRequest.request (call : CallRequest) : ResolvedTransactionRequest :=
  { toAddress := call.target, data := call.callData }

/-- Requests with a `from` address are batched too. -/
def batchableCall (request : ResolvedTransactionRequest) : Bool :=
  request.gasLimit.isNone && request.gasPrice.isNone && request.value.isNone

/-- A call of `aggregate((address,bytes)[])`. -/
def batchedCall (request : ResolvedTransactionRequest) (multicallAddress : HexString) : Bool :=
  decide (request.toAddress = some multicallAddress) &&
    (request.data.map fun data => String.isPrefixOf "0x252dba42" data).getD false

def multicallAddress : ℕ → Option HexString
  | 1 => some "0xeefBa1e63905eF1D7ACbA5a8513c70307C1cE441"
  | 3 => some "0x53C43764255c17BD724F74c4eF150724AC50a3ed"
  | 4 => some "0x42Ad527de7d4e9d9d011aC45B31D8551f8Fe9821"
  | 5 => some "0x77dCa2C955b15e9dE4dbBCf1246B4B85b651e50e"
  | 42 => some "0x2cc8688C5f75E365aaEEb4ea8D6a480405A48D2A"
  | _ => none

/-- The chain: what a call returns, or that it fails, and what a contract that sends a message
gets back, with the state that the message leaves. The contracts that are called do not look at who
calls them. -/
structure Chain (ChainState : Type) where
  call : ResolvedTransactionRequest → ChainState → Option HexString
  message : HexString → HexString → ChainState → Option (HexString × ChainState)
  call_congr : ∀ r r', batchableCall r = true → batchableCall r' = true →
    r.toAddress = r'.toAddress → r.data = r'.data → call r = call r'
  call_message : ∀ (c : CallRequest) target callData s, c.target = some target →
    c.callData = some callData → call c.request s = (message target callData s).map Prod.fst

variable {ChainState : Type}

/-- Multicall sends the messages in order and reverts if one of them does; a call without a target
or without data cannot be encoded. -/
def Chain.aggregate (chain : Chain ChainState) :
    List CallRequest → ChainState → Option (List HexString)
  | [], _ => some []
  | call :: calls, s => do
    let target ← call.target
    let callData ← call.callData
    let (returnData, s) ← chain.message target callData s
    let results ← chain.aggregate calls s
    return returnData :: results

/-- The requests of a batch are known by their numbers. -/
structure BatchedCalls where
  calls : List CallRequest
  callbacks : List ℕ
  blockTag : Option BlockTag

def emptyBatch : BatchedCalls := ⟨[], [], none⟩

/-- A call that was sent and not answered yet. -/
inductive Sent where
  | direct (request : ℕ) (transaction : ResolvedTransactionRequest) (blockTag : Option BlockTag)
  | dispatched (batch : BatchedCalls)

/-- The provider; `timer` says whether the batch has a timer. `requests` lists what it was asked
for, and `settled` the requests that were answered, with their return data unless they failed. -/
structure BatchedProvider where
  multicall : Option HexString
  batched : BatchedCalls
  timer : Bool
  sent : List Sent
  requests : List (ResolvedTransactionRequest × Option BlockTag)
  settled : List (ℕ × Option HexString)

/-- What happens to a provider. A call comes when its properties are resolved; the `i`-th of the
calls that were sent is executed in the states that the chain then has for the block tags. -/
inductive CallEvent (ChainState : Type) where
  | setChainId (chainId : ℕ)
  | call (request : ResolvedTransactionRequest) (blockTag : Option BlockTag)
  | timeout
  | executed (i : ℕ) (stateAt : BlockTag → ChainState)

namespace BatchedProvider

def new : BatchedProvider := ⟨none, emptyBatch, false, [], [], []⟩

/-- The chain can be chosen once, except for those without Multicall. -/
def setChainId (chainId : ℕ) (w : BatchedProvider) : BatchedProvider :=
  match w.multicall with
  | some _ => w
  | none => { w with multicall := multicallAddress chainId }

def alreadyBatchedCallsConflictWith (w : BatchedProvider) (blockTag : Option BlockTag) : Bool :=
  decide (w.batched.calls.length ≠ 0) && decide (orLatest blockTag ≠ orLatest w.batched.blockTag)

/-- The timer starts anew. -/
def enqueueCall (call : CallRequest) (request : ℕ) (w : BatchedProvider) : BatchedProvider :=
  { w with
    batched := { w.batched with
      calls := w.batched.calls ++ [call]
      callbacks := w.batched.callbacks ++ [request] }
    timer := true }

def send (call : Sent) (w : BatchedProvider) : BatchedProvider :=
  { w with sent := w.sent ++ [call] }

/-- The call of the request with this number. -/
def callFor (number : ℕ) (request : ResolvedTransactionRequest) (blockTag : Option BlockTag)
    (w : BatchedProvider) : BatchedProvider :=
  match w.multicall with
  | none => send (.direct number request blockTag) w
  | some address =>
    if batchedCall request address ∨ ¬batchableCall request ∨
        w.alreadyBatchedCallsConflictWith blockTag then
      send (.direct number request blockTag) w
    else
      let batchTag := if w.batched.calls.length = 0 then blockTag else w.batched.blockTag
      enqueueCall ⟨request.toAddress, request.data⟩ number
        { w with batched := { w.batched with blockTag := batchTag } }

def call (request : ResolvedTransactionRequest) (blockTag : Option BlockTag) (w : BatchedProvider) :
    BatchedProvider :=
  callFor w.requests.length request blockTag
    { w with requests := w.requests ++ [(request, blockTag)] }

def dispatchCalls (w : BatchedProvider) : BatchedProvider :=
  send (.dispatched w.batched) { w with batched := emptyBatch }

/-- What the callbacks of a batch are called with: the results of `aggregate` or its failure, or
the result of the only call. -/
def batchResults (chain : Chain ChainState) (batch : BatchedCalls) (s : ChainState) :
    List (Option HexString) :=
  if batch.calls.length > 1 then
    match chain.aggregate batch.calls s with
    | some results => results.map some
    | none => batch.callbacks.map fun _ => none
  else batch.calls.map fun call => chain.call call.request s

/-- The requests that are settled when a call was executed. -/
def outcomes (chain : Chain ChainState) (stateAt : BlockTag → ChainState) :
    Sent → List (ℕ × Option HexString)
  | .direct number request blockTag => [(number, chain.call request (stateAt (orLatest blockTag)))]
  | .dispatched batch =>
    batch.callbacks.zip (batchResults chain batch (stateAt (orLatest batch.blockTag)))

def step (chain : Chain ChainState) (w : BatchedProvider) :
    CallEvent ChainState → BatchedProvider
  | .setChainId chainId => setChainId chainId w
  | .call request blockTag => call request blockTag w
  | .timeout => if w.timer then dispatchCalls { w with timer := false } else w
  | .executed i stateAt =>
    match w.sent[i]? with
    | none => w
    | some call =>
      { w with
        sent := w.sent.eraseIdx i
        settled := w.settled ++ outcomes chain stateAt call }

end BatchedProvider

end MoneyProtocol.Providers
