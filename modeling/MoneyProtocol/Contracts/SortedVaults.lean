import MoneyProtocol.Contracts.State

/-!
# The sorted list of vaults

The doubly linked list of `SortedVaults`, on its own storage. Nominal ratios are not stored
in the list: `getNominalICR` stands for the call back into the VaultManager. The two walks
are bounded by the size of the list; a walk of a well-linked list never reaches the bound.
-/

namespace MoneyProtocol.SortedVaults

open Outcome

def contains (id : Address) (data : SortedVaults) : Prop := (data.nodes id).isPresent = true

instance (id : Address) (data : SortedVaults) : Decidable (contains id data) :=
  inferInstanceAs (Decidable (_ = true))

def isFull (maxSize : ℕ) (data : SortedVaults) : Prop := data.size = maxSize

instance (maxSize : ℕ) (data : SortedVaults) : Decidable (isFull maxSize data) :=
  inferInstanceAs (Decidable (_ = _))

def isEmpty (data : SortedVaults) : Bool := decide (data.size = 0)
def getSize (data : SortedVaults) : ℕ := data.size
def getFirst (data : SortedVaults) : Address := data.head
def getLast (data : SortedVaults) : Address := data.tail
def getNext (id : Address) (data : SortedVaults) : Address := (data.nodes id).nextId
def getPrev (id : Address) (data : SortedVaults) : Address := (data.nodes id).prevId

variable (getNominalICR : Address → Outcome ℕ)

def validInsertPosition (NICR : ℕ) (prevId nextId : Address) (data : SortedVaults) :
    Outcome Bool :=
  if prevId = 0 ∧ nextId = 0 then
    return isEmpty data
  else if prevId = 0 then
    if data.head = nextId then do
      let next ← getNominalICR nextId
      return decide (NICR ≥ next)
    else return false
  else if nextId = 0 then
    if data.tail = prevId then do
      let prev ← getNominalICR prevId
      return decide (NICR ≤ prev)
    else return false
  else if (data.nodes prevId).nextId = nextId then do
    let prev ← getNominalICR prevId
    if prev ≥ NICR then do
      let next ← getNominalICR nextId
      return decide (NICR ≥ next)
    else return false
  else return false

/-- The loop of `descendList`, with at most `fuel` rounds. -/
def descendLoop (NICR : ℕ) (data : SortedVaults) :
    ℕ → Address → Address → Outcome (Address × Address)
  | 0, _, _ => .error .outOfGas
  | fuel + 1, prevId, nextId =>
    if prevId = 0 then return (prevId, nextId)
    else do
      let valid ← validInsertPosition getNominalICR NICR prevId nextId data
      if valid then return (prevId, nextId)
      else
        let prevId := (data.nodes prevId).nextId
        descendLoop NICR data fuel prevId (data.nodes prevId).nextId

def descendList (NICR : ℕ) (startId : Address) (data : SortedVaults) :
    Outcome (Address × Address) := do
  let beforeHead ←
    (if data.head = startId then do
      let start ← getNominalICR startId
      return decide (NICR ≥ start)
    else return false)
  if beforeHead then return (0, startId)
  else descendLoop getNominalICR NICR data (data.size + 1) startId (data.nodes startId).nextId

/-- The loop of `ascendList`, with at most `fuel` rounds. -/
def ascendLoop (NICR : ℕ) (data : SortedVaults) :
    ℕ → Address → Address → Outcome (Address × Address)
  | 0, _, _ => .error .outOfGas
  | fuel + 1, prevId, nextId =>
    if nextId = 0 then return (prevId, nextId)
    else do
      let valid ← validInsertPosition getNominalICR NICR prevId nextId data
      if valid then return (prevId, nextId)
      else
        let nextId := (data.nodes nextId).prevId
        ascendLoop NICR data fuel (data.nodes nextId).prevId nextId

def ascendList (NICR : ℕ) (startId : Address) (data : SortedVaults) :
    Outcome (Address × Address) := do
  let afterTail ←
    (if data.tail = startId then do
      let start ← getNominalICR startId
      return decide (NICR ≤ start)
    else return false)
  if afterTail then return (startId, 0)
  else ascendLoop getNominalICR NICR data (data.size + 1) (data.nodes startId).prevId startId

/-- The hint `prevId`, dropped if it left the list or has a smaller ratio by now. -/
def usablePrev (NICR : ℕ) (prevId : Address) (data : SortedVaults) : Outcome Address :=
  if prevId ≠ 0 then
    if contains prevId data then do
      let prev ← getNominalICR prevId
      return if NICR > prev then 0 else prevId
    else return 0
  else return 0

/-- The hint `nextId`, dropped if it left the list or has a larger ratio by now. -/
def usableNext (NICR : ℕ) (nextId : Address) (data : SortedVaults) : Outcome Address :=
  if nextId ≠ 0 then
    if contains nextId data then do
      let next ← getNominalICR nextId
      return if NICR < next then 0 else nextId
    else return 0
  else return 0

def findInsertPosition (NICR : ℕ) (prevId nextId : Address) (data : SortedVaults) :
    Outcome (Address × Address) := do
  let prevId ← usablePrev getNominalICR NICR prevId data
  let nextId ← usableNext getNominalICR NICR nextId data
  if prevId = 0 ∧ nextId = 0 then descendList getNominalICR NICR data.head data
  else if prevId = 0 then ascendList getNominalICR NICR nextId data
  else descendList getNominalICR NICR prevId data

def setNext (id nextId : Address) (nodes : Address → Node) : Address → Node :=
  Function.update nodes id { nodes id with nextId := nextId }

def setPrev (id prevId : Address) (nodes : Address → Node) : Address → Node :=
  Function.update nodes id { nodes id with prevId := prevId }

/-- The writes of `insert` once the position is known. -/
def link (id prevId nextId : Address) (data : SortedVaults) : SortedVaults :=
  let nodes := Function.update data.nodes id { data.nodes id with isPresent := true }
  if prevId = 0 ∧ nextId = 0 then
    { data with nodes := nodes, head := id, tail := id }
  else if prevId = 0 then
    { data with nodes := setPrev data.head id (setNext id data.head nodes), head := id }
  else if nextId = 0 then
    { data with nodes := setNext data.tail id (setPrev id data.tail nodes), tail := id }
  else
    let nodes := setPrev id prevId (setNext id nextId nodes)
    { data with nodes := setPrev nextId id (setNext prevId id nodes) }

def insert (maxSize : ℕ) (id : Address) (NICR : ℕ) (prevId nextId : Address)
    (data : SortedVaults) : Outcome SortedVaults := do
  require (¬isFull maxSize data) "SortedVaults: List is full"
  require (¬contains id data) "SortedVaults: List already contains the node"
  require (id ≠ 0) "SortedVaults: Id cannot be zero"
  require (NICR > 0) "SortedVaults: NICR must be positive"
  let valid ← validInsertPosition getNominalICR NICR prevId nextId data
  let (prevId, nextId) ←
    (if valid then pure (prevId, nextId)
    else findInsertPosition getNominalICR NICR prevId nextId data)
  let data := link id prevId nextId data
  let size ← SafeMath.add data.size 1
  return { data with size := size }

/-- The writes of `remove`, before the node itself is deleted. -/
def unlink (id : Address) (data : SortedVaults) : SortedVaults :=
  if data.size > 1 then
    if id = data.head then
      let head := (data.nodes id).nextId
      { data with head := head, nodes := setPrev head 0 data.nodes }
    else if id = data.tail then
      let tail := (data.nodes id).prevId
      { data with tail := tail, nodes := setNext tail 0 data.nodes }
    else
      let nodes := setNext (data.nodes id).prevId (data.nodes id).nextId data.nodes
      { data with nodes := setPrev (nodes id).nextId (nodes id).prevId nodes }
  else { data with head := 0, tail := 0 }

def remove (id : Address) (data : SortedVaults) : Outcome SortedVaults := do
  require (contains id data) "SortedVaults: List does not contain the id"
  let data := unlink id data
  let data := { data with nodes := Function.update data.nodes id Node.deleted }
  let size ← SafeMath.sub data.size 1
  return { data with size := size }

def reInsert (maxSize : ℕ) (id : Address) (newNICR : ℕ) (prevId nextId : Address)
    (data : SortedVaults) : Outcome SortedVaults := do
  require (contains id data) "SortedVaults: List does not contain the id"
  require (newNICR > 0) "SortedVaults: NICR must be positive"
  let data ← remove id data
  insert getNominalICR maxSize id newNICR prevId nextId data

end MoneyProtocol.SortedVaults
