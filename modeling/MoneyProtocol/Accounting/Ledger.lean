import MoneyProtocol.Accounting.Calls
import Mathlib.Algebra.Group.Pi.Lemmas
import Mathlib.Tactic.Abel

/-!
# The ledger

The redundant counters of the contracts, compared: each account of the ledger is the
difference between a counter and the records it should agree with. Every call changes the
ledger by an amount that depends on its arguments only, so the effect of a transaction is a
sum of entries, and the entries of a transaction cancel.
-/

namespace MoneyProtocol

open Outcome PointSum MoneypBase

variable {d : Deployment} {s s' : State} {block : Block}

/-- What the ledger compares.
* `coll`, `debt`: the Active Pool's counters with the recorded collateral and debt;
* `supply`: the BPD supply with the debt in the Active and Default Pools;
* `token`: the BPD supply with all balances;
* `reserve`: the BPD of the Gas Pool with the reserves of the listed owners;
* `deposit`: the BPD of the Stability Pool with its total deposits;
* `surplus`: the surplus pool's counter with the recorded surpluses;
* `backing`, `pooled`, `gain`, `unclaimed`: the RBTC of the Active Pool, the Default Pool, the
  Stability Pool and the surplus pool with their counters;
* `native`: all RBTC there is;
* `allowance`: what anybody may spend of the BPD of the two pools that hold BPD. -/
inductive Account where
  | coll | debt | supply | token | reserve | deposit | surplus | backing | pooled | gain
  | unclaimed | native | allowance
  deriving DecidableEq

def State.ledger (d : Deployment) (s : State) : Account → ℤ
  | .coll => s.activePool.RBTC - (total Vault.coll s.vaultManager.vaults : ℕ)
  | .debt => s.activePool.BPDDebt - (total Vault.debt s.vaultManager.vaults : ℕ)
  | .supply => s.bpdToken.totalSupply - s.activePool.BPDDebt - s.defaultPool.BPDDebt
  | .token => s.bpdToken.totalSupply - (total id s.bpdToken.balances : ℕ)
  | .reserve =>
    s.bpdToken.balances d.gasPool - BPD_GAS_COMPENSATION * s.vaultManager.vaultOwners.length
  | .deposit => s.bpdToken.balances d.stabilityPool - s.stabilityPool.totalBPDDeposits
  | .surplus => s.collSurplusPool.RBTC - (total id s.collSurplusPool.balances : ℕ)
  | .backing => s.rbtc d.activePool - s.activePool.RBTC
  | .pooled => s.rbtc d.defaultPool - s.defaultPool.RBTC
  | .gain => s.rbtc d.stabilityPool - s.stabilityPool.RBTC
  | .unclaimed => s.rbtc d.collSurplusPool - s.collSurplusPool.RBTC
  | .native => (total id s.rbtc : ℕ)
  | .allowance => (total id (s.bpdToken.allowances d.gasPool) : ℕ) +
      (total id (s.bpdToken.allowances d.stabilityPool) : ℕ)

/-- An entry on one account. -/
abbrev entry (x : Account) (v : ℤ) : Account → ℤ := Pi.single x v

theorem entry_add {x : Account} {v w : ℤ} : entry x (v + w) = entry x v + entry x w :=
  Pi.single_add (f := fun _ => ℤ) x v w

theorem entry_sub {x : Account} {v w : ℤ} : entry x (v - w) = entry x v - entry x w :=
  Pi.single_sub (f := fun _ => ℤ) x v w

/-- The entries of BPD that `a` receives. -/
def held (d : Deployment) (a : Address) (v : ℤ) : Account → ℤ
  | .reserve => if a = d.gasPool then v else 0
  | .deposit => if a = d.stabilityPool then v else 0
  | _ => 0

theorem held_of_ne {a : Address} {v : ℤ} (hgas : a ≠ d.gasPool) (hpool : a ≠ d.stabilityPool) :
    held d a v = 0 := by
  funext x
  cases x <;> simp [held, hgas, hpool]

theorem held_external {a : Address} {v : ℤ} (h : d.External a) : held d a v = 0 :=
  held_of_ne (h.ne d.gasPool_mem) (h.ne d.stabilityPool_mem)

theorem held_mpStaking {v : ℤ} : held d d.mpStaking v = 0 :=
  held_of_ne d.mpStaking_ne_gasPool d.mpStaking_ne_stabilityPool

theorem held_gasPool {v : ℤ} : held d d.gasPool v = entry .reserve v := by
  funext x
  cases x <;> simp [held, d.gasPool_ne_stabilityPool]

theorem held_stabilityPool {v : ℤ} : held d d.stabilityPool v = entry .deposit v := by
  funext x
  cases x <;> simp [held, d.gasPool_ne_stabilityPool.symm]

theorem held_zero {a : Address} : held d a 0 = 0 := by
  funext x
  cases x <;> simp [held]

theorem PriceFeed.fetchPrice_ledger {price : ℕ}
    (h : PriceFeed.fetchPrice block s = .ok (price, s')) : s'.ledger d = s.ledger d := by
  obtain ⟨_, rfl⟩ := fetchPrice_ok h
  rfl

/-- The entries of RBTC that `a` holds, if `a` is a pool that counts it. -/
def backed (d : Deployment) (a : Address) (v : ℤ) : Account → ℤ
  | .pooled => if a = d.defaultPool then v else 0
  | .gain => if a = d.stabilityPool then v else 0
  | .unclaimed => if a = d.collSurplusPool then v else 0
  | _ => 0

theorem backed_of_ne {a : Address} {v : ℤ} (hdefault : a ≠ d.defaultPool)
    (hpool : a ≠ d.stabilityPool) (hsurplus : a ≠ d.collSurplusPool) : backed d a v = 0 := by
  funext x
  cases x <;> simp [backed, hdefault, hpool, hsurplus]

theorem backed_external {a : Address} {v : ℤ} (h : d.External a) : backed d a v = 0 :=
  backed_of_ne (h.ne d.defaultPool_mem) (h.ne d.stabilityPool_mem) (h.ne d.collSurplusPool_mem)

theorem backed_borrowerOperations {v : ℤ} : backed d d.borrowerOperations v = 0 :=
  backed_of_ne d.borrowerOperations_ne_defaultPool d.borrowerOperations_ne_stabilityPool
    d.borrowerOperations_ne_collSurplusPool

theorem backed_mpStaking {v : ℤ} : backed d d.mpStaking v = 0 :=
  backed_of_ne d.mpStaking_ne_defaultPool d.mpStaking_ne_stabilityPool
    d.mpStaking_ne_collSurplusPool

theorem backed_defaultPool {v : ℤ} : backed d d.defaultPool v = entry .pooled v := by
  funext x
  cases x <;> simp [backed, d.stabilityPool_ne_defaultPool.symm,
    d.collSurplusPool_ne_defaultPool.symm]

theorem backed_stabilityPool {v : ℤ} : backed d d.stabilityPool v = entry .gain v := by
  funext x
  cases x <;> simp [backed, d.stabilityPool_ne_defaultPool, d.stabilityPool_ne_collSurplusPool]

theorem backed_collSurplusPool {v : ℤ} : backed d d.collSurplusPool v = entry .unclaimed v := by
  funext x
  cases x <;> simp [backed, d.collSurplusPool_ne_defaultPool,
    d.stabilityPool_ne_collSurplusPool.symm]

theorem transferRBTC_ledger {a b : Address} {v : ℕ} (ha : a ≠ d.activePool)
    (hb : b ≠ d.activePool) (h : transferRBTC a b v s = .ok s') :
    s'.ledger d = s.ledger d + backed d b v - backed d a v := by
  obtain ⟨hv, rfl⟩ := transferRBTC_ok.mp h
  funext x
  cases x <;> simp [State.ledger, move_apply hv, ha.symm, hb.symm, total_move hv, backed,
    eq_comm]
  all_goals ring

/-- A call with value by anybody but the Active Pool. -/
theorem callWithValue_ledger {caller recipient : Address} {v : ℕ}
    (hcaller : caller ≠ d.activePool) (h : callWithValue d caller recipient v s = .ok s') :
    s'.ledger d = s.ledger d + (if recipient = d.activePool then entry .coll v else 0) -
      backed d caller v := by
  obtain ⟨hv, h⟩ := callWithValue_ok.mp h
  rcases receive_ok h with ⟨hr, -, rfl⟩ | ⟨-, hc, -⟩ | ⟨-, hc, -⟩ | ⟨-, hc, -⟩ |
    ⟨hr, hr₁, hr₂, hr₃, rfl⟩
  · subst hr
    funext x
    cases x <;> simp [State.ledger, move_apply hv, hcaller.symm, total_move hv, backed, eq_comm,
      d.defaultPool_ne_activePool.symm, d.stabilityPool_ne_activePool,
      d.collSurplusPool_ne_activePool.symm]
    all_goals ring
  · exact absurd hc hcaller
  · exact absurd hc hcaller
  · exact absurd hc hcaller
  · funext x
    cases x <;> simp [State.ledger, move_apply hv, hcaller.symm, hr.symm, total_move hv, hr, backed,
      hr₁.symm, hr₂.symm, hr₃.symm, eq_comm]
    all_goals ring

namespace ActivePool

theorem sendRBTC_ledger {account : Address} {v : ℕ}
    (h : sendRBTC d account v s = .ok s') :
    s'.ledger d = s.ledger d - entry .coll v +
      if account = d.collSurplusPool then entry .surplus v else 0 := by
  simp only [sendRBTC, bind_ok, SafeMath.sub_ok] at h
  obtain ⟨_, ⟨hle, rfl⟩, h⟩ := h
  obtain ⟨hv, h⟩ := callWithValue_ok.mp h
  simp only at hv h
  rcases receive_ok h with ⟨-, hc | hc, -⟩ | ⟨rfl, -, rfl⟩ | ⟨rfl, -, rfl⟩ | ⟨rfl, -, rfl⟩ |
    ⟨hr, hr₁, hr', hr₃, rfl⟩
  · exact absurd hc.symm d.borrowerOperations_ne_activePool
  · exact absurd hc.symm d.defaultPool_ne_activePool
  · funext x
    cases x <;> simp [State.ledger, move_apply hv, total_move hv, hle,
      d.defaultPool_ne_activePool, d.defaultPool_ne_activePool.symm,
      d.collSurplusPool_ne_defaultPool, d.collSurplusPool_ne_defaultPool.symm,
      d.collSurplusPool_ne_activePool, d.stabilityPool_ne_activePool,
      d.stabilityPool_ne_defaultPool]
    all_goals ring
  · funext x
    cases x <;> simp [State.ledger, move_apply hv, total_move hv, hle,
      d.collSurplusPool_ne_activePool, d.collSurplusPool_ne_activePool.symm,
      d.collSurplusPool_ne_defaultPool.symm, d.defaultPool_ne_activePool,
      d.stabilityPool_ne_activePool, d.stabilityPool_ne_collSurplusPool]
    all_goals ring
  · funext x
    cases x <;> simp [State.ledger, move_apply hv, total_move hv, hle,
      d.stabilityPool_ne_activePool, d.stabilityPool_ne_activePool.symm,
      d.stabilityPool_ne_collSurplusPool, d.stabilityPool_ne_collSurplusPool.symm,
      d.stabilityPool_ne_defaultPool.symm, d.defaultPool_ne_activePool,
      d.collSurplusPool_ne_activePool]
    all_goals ring
  · funext x
    cases x <;> simp [State.ledger, move_apply hv, total_move hv, hle, hr.symm, hr', hr₁.symm,
      hr'.symm, hr₃.symm, d.defaultPool_ne_activePool, d.collSurplusPool_ne_activePool,
      d.stabilityPool_ne_activePool]
    ring

theorem sendRBTC_ledger_of_ne {account : Address} {v : ℕ} (hne : account ≠ d.collSurplusPool)
    (h : sendRBTC d account v s = .ok s') : s'.ledger d = s.ledger d - entry .coll v := by
  simpa [hne] using sendRBTC_ledger h

theorem increaseBPDDebt_ledger {v : ℕ} (h : increaseBPDDebt v s = .ok s') :
    s'.ledger d = s.ledger d + entry .debt v - entry .supply v := by
  simp [increaseBPDDebt] at h
  obtain ⟨-, rfl⟩ := h
  funext x
  cases x <;> simp [State.ledger]
  all_goals ring

theorem decreaseBPDDebt_ledger {v : ℕ} (h : decreaseBPDDebt v s = .ok s') :
    s'.ledger d = s.ledger d - entry .debt v + entry .supply v := by
  simp [decreaseBPDDebt] at h
  obtain ⟨hle, rfl⟩ := h
  funext x
  cases x <;> simp [State.ledger, hle]
  all_goals ring

end ActivePool

namespace DefaultPool

theorem sendRBTCToActivePool_ledger {v : ℕ} (h : sendRBTCToActivePool d v s = .ok s') :
    s'.ledger d = s.ledger d + entry .coll v := by
  simp only [sendRBTCToActivePool, bind_ok, SafeMath.sub_ok] at h
  obtain ⟨_, ⟨hle, rfl⟩, h⟩ := h
  rw [callWithValue_ledger d.defaultPool_ne_activePool h, if_pos rfl, backed_defaultPool]
  funext x
  cases x <;> simp [State.ledger, hle]
  ring

theorem increaseBPDDebt_ledger {v : ℕ} (h : increaseBPDDebt v s = .ok s') :
    s'.ledger d = s.ledger d - entry .supply v := by
  simp [increaseBPDDebt] at h
  obtain ⟨-, rfl⟩ := h
  funext x
  cases x <;> simp [State.ledger]
  ring

theorem decreaseBPDDebt_ledger {v : ℕ} (h : decreaseBPDDebt v s = .ok s') :
    s'.ledger d = s.ledger d + entry .supply v := by
  simp [decreaseBPDDebt] at h
  obtain ⟨hle, rfl⟩ := h
  funext x
  cases x <;> simp [State.ledger, hle]
  ring

end DefaultPool

namespace CollSurplusPool

theorem accountSurplus_ledger {account : Address} {v : ℕ}
    (h : accountSurplus account v s = .ok s') : s'.ledger d = s.ledger d - entry .surplus v := by
  simp [accountSurplus] at h
  obtain ⟨-, rfl⟩ := h
  have hsum := total_update id s.collSurplusPool.balances account
    (s.collSurplusPool.balances account + v)
  simp only [id_eq] at hsum
  funext x
  cases x <;> simp [State.ledger]
  omega

theorem claimColl_ledger {account : Address} (haccount : account ≠ d.activePool)
    (h : claimColl d account s = .ok s') : s'.ledger d = s.ledger d := by
  simp only [claimColl, bind_ok, require_ok, SafeMath.sub_ok] at h
  obtain ⟨_, -, _, ⟨hle, rfl⟩, h⟩ := h
  have hsum := total_update id s.collSurplusPool.balances account 0
  simp only [id_eq] at hsum
  rw [callWithValue_ledger d.collSurplusPool_ne_activePool h, if_neg haccount, add_zero,
    backed_collSurplusPool]
  funext x
  cases x <;> simp [State.ledger]
  all_goals omega

end CollSurplusPool

namespace BPDToken

theorem _transfer_ledger {sender recipient : Address} {v : ℕ}
    (h : _transfer sender recipient v s = .ok s') :
    s'.ledger d = s.ledger d + held d recipient v - held d sender v := by
  obtain ⟨-, -, hle, rfl⟩ := _transfer_ok h
  funext x
  cases x <;> simp [State.ledger, held, move_apply hle, total_move hle, eq_comm]
  all_goals ring

theorem mint_ledger {account : Address} {v : ℕ} (h : mint account v s = .ok s') :
    s'.ledger d = s.ledger d + entry .supply v + held d account v := by
  obtain ⟨-, -, rfl⟩ := mint_ok h
  have hsum := total_update id s.bpdToken.balances account (s.bpdToken.balances account + v)
  simp only [id_eq] at hsum
  have hat (a : Address) : (Function.update s.bpdToken.balances account
      (s.bpdToken.balances account + v) a : ℤ) =
        s.bpdToken.balances a + if account = a then (v : ℤ) else 0 := by
    by_cases ha : a = account
    · simp [ha]
    · simp [ha, Ne.symm ha]
  funext x
  cases x <;> simp only [State.ledger, held, Pi.add_apply, hat, Pi.single_eq_same,
    Pi.single_eq_of_ne, ne_eq, reduceCtorEq, not_false_eq_true]
  all_goals push_cast
  all_goals omega

theorem burn_ledger {account : Address} {v : ℕ} (h : burn account v s = .ok s') :
    s'.ledger d = s.ledger d - entry .supply v - held d account v := by
  obtain ⟨-, hle, hsupply, rfl⟩ := burn_ok h
  have hsum := total_update id s.bpdToken.balances account (s.bpdToken.balances account - v)
  simp only [id_eq] at hsum
  have hat (a : Address) : (Function.update s.bpdToken.balances account
      (s.bpdToken.balances account - v) a : ℤ) =
        s.bpdToken.balances a - if account = a then (v : ℤ) else 0 := by
    by_cases ha : a = account
    · simp [ha, hle]
    · simp [ha, Ne.symm ha]
  funext x
  cases x <;> simp only [State.ledger, held, Pi.sub_apply, hat, Pi.single_eq_same,
    Pi.single_eq_of_ne, ne_eq, reduceCtorEq, not_false_eq_true]
  all_goals push_cast [hsupply]
  all_goals omega

end BPDToken

end MoneyProtocol
