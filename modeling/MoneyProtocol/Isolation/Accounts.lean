import MoneyProtocol.Isolation.Holdings

/-!
# What others can do to an account

Nobody but the owner of an account can take from what it owns: over any run of transactions
that it does not sign, neither its RBTC nor its claims, stake and deposit fall, and its BPD by no
more than the allowances that it had given.
-/

namespace MoneyProtocol

open Outcome PointSum

variable {d : Deployment} {s s' s'' : State} {u : Address} {t : Transaction}

/-- The RBTC and the BPD of an account. -/
def purse (u : Address) (s : State) : ℕ × ℕ := (s.rbtc u, s.bpdToken.balances u)

/-- The account `u` sent the transaction, or signed the permit in it. -/
def Transaction.SignedBy (t : Transaction) (u : Address) : Prop :=
  t.sender = u ∨ match t.operation with
    | .permit recoveredAddress _ _ _ _ => recoveredAddress = u
    | _ => False

instance : Decidable (t.SignedBy u) := by
  unfold Transaction.SignedBy
  cases t.operation <;> infer_instance

/-- The one operation that spends what another account has approved. -/
def Operation.SpendsFrom (u : Address) : Operation → Prop
  | .transferFrom sender _ _ => sender = u
  | _ => False

theorem payable_keeps {f : State → Outcome State} (hu : u ≠ t.sender)
    (hf : ∀ s₁, f s₁ = .ok s' → Retains u s₁ s') (h : payable d t f s = .ok s') :
    Retains u s s' := by
  simp only [payable, bind_ok] at h
  obtain ⟨s₁, hsend, h⟩ := h
  exact (transferRBTC_keeps hu hsend).trans (hf s₁ h)

/-- What somebody else signs leaves the account what it has, unless it spends an allowance. -/
theorem transact_keeps (hu : d.External u) (hsigned : ¬t.SignedBy u)
    (hspends : ¬t.operation.SpendsFrom u) (h : transact d t s = .ok s') : Retains u s s' := by
  have hne : u ≠ t.sender := fun heq => hsigned (.inl heq.symm)
  obtain ⟨block, sender, value, operation⟩ := t
  cases operation with
  | openVault =>
    exact payable_keeps hne (fun _ h => BorrowerOperations.openVault_keeps hu h) h
  | addColl =>
    exact payable_keeps hne (fun _ h => BorrowerOperations.adjustVaultInternal_keeps hu hne h) h
  | adjustVault =>
    exact payable_keeps hne (fun _ h => BorrowerOperations.adjustVaultInternal_keeps hu hne h) h
  | withdrawColl => exact BorrowerOperations.adjustVaultInternal_keeps hu hne (nonPayable_ok h)
  | withdrawBPD => exact BorrowerOperations.adjustVaultInternal_keeps hu hne (nonPayable_ok h)
  | repayBPD => exact BorrowerOperations.adjustVaultInternal_keeps hu hne (nonPayable_ok h)
  | closeVault => exact BorrowerOperations.closeVault_keeps hu hne (nonPayable_ok h)
  | claimCollateral => exact CollSurplusPool.claimColl_keeps hu hne (nonPayable_ok h)
  | liquidate => exact VaultManager.liquidate_keeps hu (nonPayable_ok h)
  | liquidateVaults => exact VaultManager.liquidateVaults_keeps hu (nonPayable_ok h)
  | batchLiquidateVaults => exact VaultManager.batchLiquidateVaults_keeps hu (nonPayable_ok h)
  | redeemCollateral => exact VaultManager.redeemCollateral_keeps hu hne (nonPayable_ok h)
  | provideToSP => exact StabilityPool.provideToSP_keeps hu hne (nonPayable_ok h)
  | withdrawFromSP => exact StabilityPool.withdrawFromSP_keeps hu hne (nonPayable_ok h)
  | withdrawRBTCGainToVault =>
    exact StabilityPool.withdrawRBTCGainToVault_keeps hu hne (nonPayable_ok h)
  | registerFrontEnd => exact StabilityPool.registerFrontEnd_keeps hne (nonPayable_ok h)
  | transfer => exact BPDToken.transfer_keeps hne (nonPayable_ok h)
  | approve => exact BPDToken._approve_keeps hne (nonPayable_ok h)
  | transferFrom =>
    exact BPDToken.transferFrom_keeps (fun heq => hspends heq.symm) (nonPayable_ok h)
  | increaseAllowance =>
    have h := nonPayable_ok h
    simp only [BPDToken.increaseAllowance, bind_ok] at h
    obtain ⟨_, -, h⟩ := h
    exact BPDToken._approve_keeps hne h
  | decreaseAllowance =>
    have h := nonPayable_ok h
    simp only [BPDToken.decreaseAllowance, bind_ok] at h
    obtain ⟨_, -, h⟩ := h
    exact BPDToken._approve_keeps hne h
  | permit recoveredAddress owner =>
    have h := nonPayable_ok h
    have howner : recoveredAddress = owner := by
      simp only [BPDToken.permit, bind_ok, require_ok] at h
      obtain ⟨_, -, _, hrecovered, -⟩ := h
      exact hrecovered
    refine BPDToken.permit_keeps (fun heq => hsigned (.inr ?_)) h
    exact howner.trans heq.symm
  | stake => exact MPStaking.stake_keeps hu hne (nonPayable_ok h)
  | unstake => exact MPStaking.unstake_keeps hu hne (nonPayable_ok h)
  | fetchPrice =>
    simp only [transact] at h
    obtain ⟨⟨_, _⟩, hprice, rfl⟩ := map_ok.mp (nonPayable_ok h)
    exact PriceFeed.fetchPrice_keeps hprice
  | sendRBTC => exact callWithValue_keeps hne h

/-- The account keeps what it has, but for BPD that its allowances paid. -/
structure Guarded (u : Address) (s s' : State) : Prop extends RetainsRest u s s' where
  allowances : ∀ spender, s'.bpdToken.allowances u spender ≤ s.bpdToken.allowances u spender
  BPD : s.bpdToken.balances u + total id (s'.bpdToken.allowances u) ≤
    s'.bpdToken.balances u + total id (s.bpdToken.allowances u)

namespace Guarded

theorem of_keeps (h : Retains u s s') : Guarded u s s' := by
  refine ⟨h.toRetainsRest, fun spender => (congrFun h.allowances spender).le, ?_⟩
  rw [h.allowances]
  exact Nat.add_le_add_right h.BPD _

theorem trans (h : Guarded u s s') (h' : Guarded u s' s'') : Guarded u s s'' := by
  refine ⟨h.toRetainsRest.trans h'.toRetainsRest,
    fun spender => (h'.allowances spender).trans (h.allowances spender), ?_⟩
  have hBPD := h.BPD
  have hBPD' := h'.BPD
  omega

/-- What was given is an upper bound on what is gone. -/
theorem le_add (h : Guarded u s s') :
    s.bpdToken.balances u ≤ s'.bpdToken.balances u + total id (s.bpdToken.allowances u) :=
  (Nat.le_add_right _ _).trans h.BPD

end Guarded

/-- A spender draws at most its allowance, which falls by as much. -/
theorem BPDToken.transferFrom_guarded {spender recipient : Address} {amount : ℕ}
    (h : transferFrom d spender u recipient amount s = .ok s') : Guarded u s s' := by
  simp only [transferFrom, bind_ok, SafeMath.subWith_ok] at h
  obtain ⟨_, -, t, hmove, _, ⟨hallowance, rfl⟩, happrove⟩ := h
  obtain ⟨-, -, hcovered, rfl⟩ := _transfer_ok hmove
  obtain ⟨-, -, rfl⟩ := _approve_ok happrove
  refine ⟨{ Retains.refl u s with rbtc := le_rfl }, fun b => ?_, ?_⟩
  · by_cases hb : b = spender
    · subst hb
      simp
    · simp [Function.update_of_ne hb]
  · have hspent := total_update id (s.bpdToken.allowances u) spender
      (s.bpdToken.allowances u spender - amount)
    have hpaid :
        s.bpdToken.balances u ≤ move u recipient amount s.bpdToken.balances u + amount := by
      have hmoved := move_apply (c := u) (b := recipient) hcovered
      split_ifs at hmoved
      all_goals omega
    simp only [Function.update_self, id] at hspent hallowance ⊢
    omega

/-- A transaction that `u` does not sign. -/
def ForeignStep (d : Deployment) (u : Address) (s s' : State) : Prop :=
  ∃ t : Transaction, ¬t.SignedBy u ∧ transact d t s = .ok s'

theorem ForeignStep.guarded (hu : d.External u) (h : ForeignStep d u s s') : Guarded u s s' := by
  obtain ⟨t, hsigned, h⟩ := h
  by_cases hspends : t.operation.SpendsFrom u
  · obtain ⟨block, spender, value, operation⟩ := t
    cases operation with
    | transferFrom sender recipient amount =>
      obtain rfl : sender = u := hspends
      exact BPDToken.transferFrom_guarded (nonPayable_ok h)
    | _ => exact absurd hspends id
  · exact .of_keeps (transact_keeps hu hsigned hspends h)

/-- The run lemma, for any number of foreign transactions in any order. -/
theorem foreign_steps (hu : d.External u) (h : Relation.ReflTransGen (ForeignStep d u) s s') :
    Guarded u s s' := by
  induction h with
  | refl => exact .of_keeps (.refl u s)
  | tail _ hstep ih => exact ih.trans (hstep.guarded hu)

/-- Over any run of transactions that it does not sign an account loses none of its RBTC and
claims, its stake and its deposit stay as recorded, no allowance rises, and whatever BPD it loses
was drawn from its allowances. -/
theorem account_guarded (hu : d.External u) (h : Relation.ReflTransGen (ForeignStep d u) s s') :
    Guarded u s s' ∧
      (total id (s.bpdToken.allowances u) = 0 →
        s.bpdToken.balances u ≤ s'.bpdToken.balances u) := by
  have hguarded := foreign_steps hu h
  refine ⟨hguarded, fun hnone => ?_⟩
  have hle := hguarded.le_add
  omega

/-- The first owner lets another account spend 100 BPD. -/
def approvesHundred : List Transaction :=
  threeVaults ++ [⟨testBlock 60000, 100, 0, .approve 105 (100 * 10 ^ 18)⟩]

def spendsSixty : Transaction :=
  ⟨testBlock 60000, 105, 0, .transferFrom 100 106 (60 * 10 ^ 18)⟩

theorem account_guarded_spent : ∃ s s', Reachable testnet s ∧
    transact testnet spendsSixty s = .ok s' ∧ Guarded 100 s s' ∧
    s'.bpdToken.balances 100 + 60 * 10 ^ 18 = s.bpdToken.balances 100 := by
  obtain ⟨s, s', hs, h, hcheck⟩ := runsThen_reachable testnet testGenesis approvesHundred
    spendsSixty (fun s s' => s'.bpdToken.balances 100 + 60 * 10 ^ 18 = s.bpdToken.balances 100)
    (by decide +kernel)
  have hforeign : ForeignStep testnet 100 s s' := ⟨spendsSixty, by decide, h⟩
  exact ⟨s, s', hs, h, (account_guarded (by decide) (.single hforeign)).1,
    of_decide_eq_true hcheck⟩

end MoneyProtocol
