import MoneyProtocol.Library.PointSum
import MoneyProtocol.Subgraph.Ledgers

/-!
# The balance of the surplus pool

The system state sums up the changes of the claims. As long as the decimals are exact, the sum is
the balance of the pool: the total of what the events last gave for every account.
-/

namespace MoneyProtocol.Subgraph

open History

variable {normalized : ℚ → ℚ} {w w' : World} {j : Journal} {user : Address}
  {s : Store} {log : List (Event × Params)} {balances : Address → ℕ} {params : Params}

def sumUp (normalized : ℚ → ℚ) (changes : List CollSurplusDetails) : ℚ :=
  changes.foldl (fun balance change => normalized (balance + change.collSurplusChange)) 0

/-- Only a change of a claim moves the balance. -/
theorem AnyChange.Explains.balance {change : AnyChange} {before after : SystemState}
    (h : change.Explains normalized before after) :
    after.collSurplusPoolBalance = (change.collSurplus?.toList).foldl
      (fun balance details => normalized (balance + details.collSurplusChange))
      before.collSurplusPoolBalance := by
  cases change with
  | price change =>
    rw [h.1]
    rfl
  | vault change => exact (withVaultChange_keepsRest h.1).collSurplusPoolBalance
  | stabilityDeposit change =>
    have hkeeps := withStabilityDepositChange_keepsRest normalized before change.details
    rw [show before.withStabilityDepositChange normalized change.details = _ from h] at hkeeps
    exact hkeeps.collSurplusPoolBalance
  | collSurplus change => exact congrArg SystemState.collSurplusPoolBalance h.symm

theorem Journal.Sound.balance (h : j.Sound normalized) (k : ℕ) (systemState : SystemState)
    (hk : j.states[k]? = some systemState) :
    systemState.collSurplusPoolBalance =
      sumUp normalized ((j.changes.take k).filterMap AnyChange.collSurplus?) := by
  induction k generalizing systemState with
  | zero =>
    rw [h.first systemState hk]
    rfl
  | succ k ih =>
    have hlt : k + 1 < j.states.length := (List.getElem?_eq_some_iff.mp hk).1
    have hlength := h.length
    have hbefore := List.getElem?_eq_getElem (Nat.lt_of_succ_lt hlt)
    have hk' : k < j.changes.length := by omega
    have hchange := List.getElem?_eq_getElem hk'
    rw [(h.explained k _ _ _ hchange hbefore hk).balance, ih _ hbefore, List.take_add_one, hchange,
      List.filterMap_append, sumUp, sumUp, List.foldl_append]
    cases hclaim : j.changes[k].collSurplus? with
    | none => simp [hclaim]
    | some details => simp [hclaim]

/-- The decimals of the graph library keep 34 significant digits. -/
def Exact (normalized : ℚ → ℚ) : Prop :=
  ∀ n : ℤ, n.natAbs < 10 ^ 34 → normalized (n / 10 ^ 18) = n / 10 ^ 18

/-- What the events last gave for every account. -/
def setBalance (balances : Address → ℕ) (log : Event × Params) : Address → ℕ :=
  match log.2 with
  | .collBalanceUpdated account newBalance => Function.update balances account newBalance
  | _ => balances

def balancesAfter (log : List (Event × Params)) : Address → ℕ := log.foldl setBalance fun _ => 0

def poolOf (balances : Address → ℕ) : ℕ := PointSum.total id balances

/-- The claims and the pool are what the balances say. -/
structure Balanced (normalized : ℚ → ℚ) (w : World) (balances : Address → ℕ) : Prop where
  claims : ∀ user, w.registry.claims user = balances user / 10 ^ 18
  pool : sumUp normalized (w.journal.changes.filterMap AnyChange.collSurplus?) =
    poolOf balances / 10 ^ 18

theorem Exact.natCast (hexact : Exact normalized) {n : ℕ} (hn : n < 10 ^ 34) :
    decimalize normalized n = n / 10 ^ 18 := by
  have := hexact n (by simpa using hn)
  rwa [Int.cast_natCast] at this

theorem SurplusStep.balanced {account : Address} {newBalance : ℕ} (hexact : Exact normalized)
    (hbefore : poolOf balances < 10 ^ 34)
    (hafter : poolOf (Function.update balances account newBalance) < 10 ^ 34)
    (hstep : SurplusStep normalized account newBalance w w')
    (h : Balanced normalized w balances) :
    Balanced normalized w' (Function.update balances account newBalance) := by
  have htotal : poolOf (Function.update balances account newBalance) + balances account =
      poolOf balances + newBalance := PointSum.total_update id balances account newBalance
  have hold : balances account ≤ poolOf balances := PointSum.le_total id balances account
  have hnew : newBalance ≤ poolOf (Function.update balances account newBalance) := by omega
  have hdecimal := hexact.natCast (lt_of_le_of_lt hnew hafter)
  cases hstep with
  | unchanged hsame =>
    have heq : balances account = newBalance := by
      rw [hdecimal] at hsame
      have hclaim := hsame.trans (h.claims account)
      have hcast : (newBalance : ℚ) = balances account :=
        (div_left_inj' (by norm_num)).mp hclaim
      exact_mod_cast hcast.symm
    rw [← heq, Function.update_eq_self]
    exact h
  | @changed j change after hrepriced hdetails =>
    refine ⟨?_, ?_⟩
    · intro user
      rw [Registry.saveUser_claims]
      by_cases huser : user = account
      · subst huser
        rw [Function.update_self, Function.update_self]
        exact hdecimal
      · rw [Function.update_of_ne huser, Function.update_of_ne huser]
        exact h.claims user
    · have hdifference : (newBalance / 10 ^ 18 - balances account / 10 ^ 18 : ℚ) =
          (newBalance - balances account : ℤ) / 10 ^ 18 := by
        push_cast
        ring
      have hlt : (newBalance - balances account : ℤ).natAbs < 10 ^ 34 := by omega
      have hchange : change.details.collSurplusChange =
          (newBalance - balances account : ℤ) / 10 ^ 18 := by
        rw [hdetails, describeCollSurplusChange, hdecimal,
          show (w.registry.user account).collSurplus = _ from h.claims account, hdifference,
          hexact _ hlt]
      rw [Journal.snoc, List.filterMap_append, hrepriced.surpluses, sumUp, List.foldl_append]
      show normalized (sumUp normalized _ + change.details.collSurplusChange) = _
      rw [h.pool, hchange]
      generalize poolOf (Function.update balances account newBalance) = pool at *
      have hpool : (pool / 10 ^ 18 : ℚ) =
          poolOf balances / 10 ^ 18 + (newBalance - balances account : ℤ) / 10 ^ 18 := by
        have htotal : (pool : ℚ) + balances account = poolOf balances + newBalance := by
          exact_mod_cast htotal
        rw [eq_sub_of_add_eq htotal]
        push_cast
        ring
      rw [← hpool]
      exact hexact.natCast hafter

theorem Journal.Repriced.balanced (hrepriced : w.journal.Repriced j)
    (h : Balanced normalized w balances) : Balanced normalized ⟨w.registry, j⟩ balances :=
  ⟨h.claims, hrepriced.surpluses.symm ▸ h.pool⟩

theorem VaultStep.balanced {operation : VaultOperation} {borrower : Address} {coll debt : ℕ}
    (hstep : VaultStep normalized operation borrower coll debt w w')
    (h : Balanced normalized w balances) : Balanced normalized w' balances := by
  cases hstep with
  | unchanged hvault hsame =>
    obtain ⟨-, hclaims⟩ := Registry.enterVault_rest hvault
    exact ⟨fun user => (congrFun hclaims user).trans (h.claims user), h.pool⟩
  | @changed vault updated r j change after _ _ _ hvault hrepriced =>
    obtain ⟨-, hclaims⟩ := Registry.enterVault_rest hvault
    obtain ⟨-, hclaims'⟩ := r.leaveVault_rest operation borrower coll updated
    refine ⟨fun user => (congrFun (hclaims'.trans hclaims) user).trans (h.claims user), ?_⟩
    rw [Journal.snoc, List.filterMap_append, hrepriced.surpluses]
    exact (List.append_nil _).symm ▸ h.pool

theorem DepositStep.balanced (hstep : DepositStep normalized user w w')
    (h : Balanced normalized w balances) : Balanced normalized w' balances := by
  cases hstep with
  | unchanged => exact h
  | @changed deposit r j change after amount hdeposit hrepriced =>
    have hclaims := (r.leaveDeposit_claims user { deposit with depositedAmount := amount }).trans
      (Registry.enterDeposit_claims hdeposit)
    refine ⟨fun user => (congrFun hclaims user).trans (h.claims user), ?_⟩
    rw [Journal.snoc, List.filterMap_append, hrepriced.surpluses]
    exact (List.append_nil _).symm ▸ h.pool

theorem Effect.balanced {event : Event} (hexact : Exact normalized)
    (hbefore : poolOf balances < 10 ^ 34)
    (hafter : poolOf (setBalance balances (event, params)) < 10 ^ 34)
    (heffect : Effect normalized params w w') (h : Balanced normalized w balances) :
    Balanced normalized w' (setBalance balances (event, params)) := by
  cases heffect with
  | priceFeedAddressChanged => exact h
  | vaultUpdatedByBorrower hstep => exact hstep.balanced h
  | vaultUpdatedByManager hstep => exact hstep.balanced h
  | vaultLiquidated hrewards hliquidation => exact hliquidation.balanced (hrewards.balanced h)
  | liquidation hrepriced => exact hrepriced.balanced h
  | redemption hrepriced => exact hrepriced.balanced h
  | userDepositChanged hstep => exact hstep.balanced h
  | RBTCGainWithdrawn hstep => exact hstep.balanced h
  | collBalanceUpdated hstep => exact hstep.balanced hexact hbefore hafter h

theorem Effects.balanced (hexact : Exact normalized)
    (hbound : ∀ sofar, sofar <+: log → poolOf (sofar.foldl setBalance balances) < 10 ^ 34)
    (heffects : Effects normalized log w w') (h : Balanced normalized w balances) :
    Balanced normalized w' (log.foldl setBalance balances) := by
  induction heffects generalizing balances with
  | nil w => exact h
  | @cons e log w w₁ w' heffect _ ih =>
    have hbefore := hbound [] List.nil_prefix
    have hafter := hbound [e] (List.prefix_append [e] log)
    refine ih ?_ (heffect.balanced hexact hbefore hafter h)
    intro sofar hsofar
    exact hbound (e :: sofar) (List.cons_prefix_cons.mpr ⟨rfl, hsofar⟩)

theorem World.empty_balanced : Balanced normalized World.empty fun _ => 0 := by
  refine ⟨fun user => (zero_div _).symm, ?_⟩
  have hzero : poolOf (fun _ => 0) = 0 := PointSum.total_const (f := id) rfl
  rw [hzero, Nat.cast_zero, zero_div]
  rfl

/-- As long as the pool holds less than `10 ^ 16` RBTC, the subgraph has the claims that the events
gave last, and the balance of the pool is their total. -/
theorem surplus_pool_balance (hexact : Exact normalized)
    (hbound : ∀ sofar, sofar <+: log → poolOf (balancesAfter sofar) < 10 ^ 34)
    (h : run normalized log {} = some s) :
    (∀ id user, s.users.lookup id = some user →
      user.collSurplus = balancesAfter log id / 10 ^ 18) ∧
      (getCurrentSystemState s).1.collSurplusPoolBalance =
        poolOf (balancesAfter log) / 10 ^ 18 := by
  obtain ⟨w, heffects, htracks⟩ := run_effects (tracks_empty normalized) h
  obtain ⟨hclaims, hpool⟩ := heffects.balanced hexact hbound World.empty_balanced
  refine ⟨?_, ?_⟩
  · intro id user huser
    rw [← htracks.registry] at hclaims
    refine Eq.trans ?_ (hclaims id)
    show _ = ((s.users.lookup id).getD {}).collSurplus
    rw [huser]
    rfl
  · obtain ⟨hfollows, hlast, -⟩ := getCurrentSystemState_follows htracks.follows rfl
    obtain ⟨-, hk, -⟩ := hfollows.sound.last hlast
    refine (hfollows.sound.balance _ _ hk).trans ?_
    rw [List.take_length, Journal.started_changes]
    exact hpool

/-- The balance that an event gives to an account. -/
def given (log : Event × Params) : ℕ :=
  match log.2 with
  | .collBalanceUpdated _ newBalance => newBalance
  | _ => 0

/-- The pool never holds more than the events ever gave. -/
theorem poolOf_le (log : List (Event × Params)) (balances : Address → ℕ) :
    poolOf (log.foldl setBalance balances) ≤ poolOf balances + (log.map given).sum := by
  induction log generalizing balances with
  | nil => exact Nat.le_add_right _ _
  | cons e log ih =>
    refine (ih _).trans ?_
    rw [List.map_cons, List.sum_cons, ← Nat.add_assoc]
    refine Nat.add_le_add_right ?_ _
    obtain ⟨event, params⟩ := e
    cases params with
    | collBalanceUpdated account newBalance =>
      have htotal : poolOf (Function.update balances account newBalance) + balances account =
          poolOf balances + newBalance := PointSum.total_update id balances account newBalance
      exact (Nat.le_add_right _ _).trans htotal.le
    | _ => exact Nat.le_add_right _ _

theorem surplus_pool_balance_liquidation :
    ∃ s, run id testLog {} = some s ∧
      (getCurrentSystemState s).1.collSurplusPoolBalance =
        poolOf (balancesAfter testLog) / 10 ^ 18 := by
  obtain ⟨s, h⟩ := testLog_runs
  refine ⟨s, h, (surplus_pool_balance (fun _ _ => rfl) ?_ h).2⟩
  intro sofar ⟨rest, hrest⟩
  have hzero : poolOf (fun _ => 0) = 0 := PointSum.total_const (f := id) rfl
  have hgiven : (testLog.map given).sum = (sofar.map given).sum + (rest.map given).sum := by
    rw [← hrest, List.map_append, List.sum_append]
  calc poolOf (balancesAfter sofar) ≤ poolOf (fun _ => 0) + (sofar.map given).sum :=
        poolOf_le sofar _
    _ ≤ (testLog.map given).sum := by omega
    _ < 10 ^ 34 := by decide

end MoneyProtocol.Subgraph
