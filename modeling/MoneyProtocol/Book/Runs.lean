import MoneyProtocol.Book.Transactions
import MoneyProtocol.Book.Registry
import Mathlib.Algebra.BigOperators.Group.Finset.Piecewise

/-!
# Runs

A run of transactions moves the book from the empty one, and keeps the registry in order. A
run may keep to a policy, and then so do its moves.
-/

namespace MoneyProtocol

open Outcome Book PointSum

variable {d : Deployment} {s s' : State} {P : Policy} {g : Genesis} {xs : List Address}

theorem SortedVaults.linked_empty : Linked ⟨0, 0, 0, fun _ => Node.deleted⟩ [] := by
  refine ⟨?_, by simp, by simp, rfl⟩
  constructor <;> simp [LinkedList.Segment]

/-- Nobody has a vault at deployment. -/
theorem Genesis.registry (g : Genesis) : g.state.book.Registry [] := by
  constructor
  · exact SortedVaults.linked_empty
  · intro a
    simp [Active, State.book, Genesis.state]
  · intro a
    simp [State.book, Genesis.state]
  · intro i a h
    simp [State.book, Genesis.state] at h
  · intro a _
    simp [State.book, Genesis.state]
  · simp
  · simp [State.book, Genesis.state]
  · intro a
    simp [State.book, Genesis.state]

/-- All the RBTC there is could not pay for `2 ^ 128` vaults. -/
theorem Balanced.owners_lt (hs : Balanced d s) (h : s.book.Registry xs) :
    s.book.vaultOwners.length < 2 ^ 128 := by
  have hcoll := hs.coll
  have hbacking := hs.backing
  have hnative := hs.native
  have hle := le_total id s.rbtc d.activePool
  have hlength := h.length_le_coll
  simp only [State.ledger, id_eq] at hcoll hbacking hnative hle
  have htotal : (total Vault.coll s.book.vaults : ℤ) < 2 ^ 128 := by
    have : (total Vault.coll s.book.vaults : ℤ) = s.activePool.RBTC := by
      simp only [State.book]
      omega
    omega
  omega

/-- A transaction that keeps to the policy. -/
def KeptStep (P : Policy) (d : Deployment) (s s' : State) : Prop :=
  ∃ t : Transaction, t.Signed d ∧ t.Keeps P d s ∧ transact d t s = .ok s'

theorem KeptStep.step (h : KeptStep P d s s') : Step d s s' := by
  obtain ⟨t, hsigned, -, h⟩ := h
  exact ⟨t, hsigned, h⟩

theorem Step.kept (h : Step d s s') : KeptStep .any d s s' := by
  obtain ⟨t, hsigned, h⟩ := h
  exact ⟨t, hsigned, t.keeps_any, h⟩

theorem KeptStep.moves (hs : Balanced d s) (hxs : s.book.Registry xs) (h : KeptStep P d s s') :
    Moves P s.book s'.book := by
  obtain ⟨t, hsigned, hkeeps, h⟩ := h
  exact transact_moves hsigned hxs.linked (hs.owners_lt hxs) hkeeps h

/-- The states that runs keeping to the policy reach from deployment. -/
def KeptReachable (P : Policy) (d : Deployment) (s : State) : Prop :=
  ∃ g : Genesis, Relation.ReflTransGen (KeptStep P d) g.state s

theorem Reachable.kept (h : Reachable d s) : KeptReachable .any d s := by
  obtain ⟨g, h⟩ := h
  exact ⟨g, Relation.ReflTransGen.mono (fun _ _ => Step.kept) _ _ h⟩

/-- A run is a sequence of moves from the empty book. -/
theorem KeptReachable.moves (h : KeptReachable P d s) :
    ∃ g : Genesis, Moves P g.state.book s.book := by
  obtain ⟨g, h⟩ := h
  refine ⟨g, ?_⟩
  suffices Moves P g.state.book s.book ∧ Balanced d s from this.1
  induction h with
  | refl => exact ⟨.refl, g.balanced⟩
  | tail _ hstep ih =>
    obtain ⟨hmoves, hs⟩ := ih
    obtain ⟨xs, hxs⟩ := g.registry.moves hmoves
    exact ⟨hmoves.trans (hstep.moves hs hxs), hs.step hstep.step⟩

theorem Reachable.moves (h : Reachable d s) : ∃ g : Genesis, Moves .any g.state.book s.book :=
  h.kept.moves

/-- The registry is in order in every reachable state. -/
theorem Reachable.registry (h : Reachable d s) : ∃ xs, s.book.Registry xs := by
  obtain ⟨g, hmoves⟩ := h.moves
  exact g.registry.moves hmoves

theorem Reachable.step_moves (h : Reachable d s) (hstep : Step d s s') :
    Moves .any s.book s'.book := by
  obtain ⟨xs, hxs⟩ := h.registry
  exact hstep.kept.moves h.balanced hxs

theorem Reachable.step (h : Reachable d s) (hstep : Step d s s') : Reachable d s' := by
  obtain ⟨g, h⟩ := h
  exact ⟨g, h.tail hstep⟩

theorem Reachable.steps_moves (h : Reachable d s) (hsteps : Relation.ReflTransGen (Step d) s s') :
    Moves .any s.book s'.book ∧ Reachable d s' := by
  induction hsteps with
  | refl => exact ⟨.refl, h⟩
  | tail _ hstep ih =>
    obtain ⟨hmoves, hreach⟩ := ih
    exact ⟨hmoves.trans (hreach.step_moves hstep), hreach.step hstep⟩

/-- Run the transactions one after the other; all must succeed. -/
def run (d : Deployment) : List Transaction → State → Outcome State
  | [], s => return s
  | t :: ts, s => do
    let s ← transact d t s
    run d ts s

theorem run_steps {ts : List Transaction} (hsigned : ∀ t ∈ ts, t.Signed d)
    (h : run d ts s = .ok s') : Relation.ReflTransGen (Step d) s s' := by
  induction ts generalizing s with
  | nil =>
    obtain rfl := pure_ok.mp h
    exact .refl
  | cons t ts ih =>
    simp only [run, bind_ok] at h
    obtain ⟨s₁, hstep, h⟩ := h
    exact .head ⟨t, hsigned t (by simp), hstep⟩ (ih (fun u hu => hsigned u (by simp [hu])) h)

theorem run_reachable {ts : List Transaction} (hsigned : ∀ t ∈ ts, t.Signed d)
    (h : run d ts g.state = .ok s) : Reachable d s :=
  ⟨g, run_steps hsigned h⟩

/-- The address that the signature of a permit yields. -/
def Operation.recoveredAddress : Operation → Option Address
  | .permit recoveredAddress _ _ _ _ => some recoveredAddress
  | _ => none

theorem Transaction.signed_iff {t : Transaction} : t.Signed d ↔ d.External t.sender ∧
    (t.operation.recoveredAddress.all fun r => d.External r ∨ r = 0) = true := by
  obtain ⟨block, sender, value, operation⟩ := t
  cases operation <;> simp [Transaction.Signed, Operation.recoveredAddress]

instance (d : Deployment) (t : Transaction) : Decidable (t.Signed d) :=
  decidable_of_iff _ Transaction.signed_iff.symm

/-- The transactions are signed and succeed, and the state they lead to passes the check. -/
def runs (d : Deployment) (g : Genesis) (ts : List Transaction) (check : State → Bool) : Bool :=
  decide (∀ t ∈ ts, t.Signed d) && match run d ts g.state with
    | .ok s => check s
    | .error _ => false

theorem runs_reachable (d : Deployment) (g : Genesis) (ts : List Transaction)
    (check : State → Bool) (h : runs d g ts check = true) :
    ∃ s, Reachable d s ∧ run d ts g.state = .ok s ∧ check s := by
  simp only [runs, Bool.and_eq_true, decide_eq_true_eq] at h
  obtain ⟨hsigned, hcheck⟩ := h
  split at hcheck
  · next s hrun => exact ⟨s, run_reachable hsigned hrun, hrun, hcheck⟩
  · contradiction

/-- After the run the transaction `t` succeeds, and the states before and after it pass the
check. -/
def runsThen (d : Deployment) (g : Genesis) (ts : List Transaction) (t : Transaction)
    (check : State → State → Bool) : Bool :=
  runs d g ts fun s => succeeds (check s) (transact d t s)

theorem runsThen_reachable (d : Deployment) (g : Genesis) (ts : List Transaction)
    (t : Transaction) (check : State → State → Bool) (h : runsThen d g ts t check = true) :
    ∃ s s', Reachable d s ∧ transact d t s = .ok s' ∧ check s s' := by
  obtain ⟨s, hs, -, hstep⟩ := runs_reachable d g ts _ h
  obtain ⟨s', hstep, hcheck⟩ := exists_of_succeeds hstep
  exact ⟨s, s', hs, hstep, hcheck⟩

/-- The contracts at the first addresses. -/
def testnet : Deployment where
  borrowerOperations := 1
  vaultManager := 2
  stabilityPool := 3
  activePool := 4
  defaultPool := 5
  collSurplusPool := 6
  gasPool := 7
  sortedVaults := 8
  bpdToken := 9
  mpToken := 10
  mpStaking := 11
  communityIssuance := 12
  multisig := 13
  deploymentStartTime := 0
  maxSize := 2 ^ 256 - 1
  nodup := by decide
  nonzero := by decide

/-- The accounts that hold the RBTC at the start. -/
def testAccounts : Finset Address := {100, 101, 102, 103, 104, 105, 106, 107}

def testGenesis : Genesis where
  rbtc a := if a ∈ testAccounts then 2 * 10 ^ 24 else 0
  rbtc_lt := by
    rw [Finset.sum_ite_mem, Finset.univ_inter, Finset.sum_const]
    decide
  mpToken := ⟨fun _ => 0, fun _ => 0⟩
  deploymentTime := 0
  lastGoodPrice := 0

/-- A block in which both feeds answer with `price`, in whole BPD. -/
def testBlock (price : ℕ) : Block := ⟨0, fun _ => some (price * 10 ^ 18, true)⟩

end MoneyProtocol
