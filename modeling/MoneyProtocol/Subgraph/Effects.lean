import MoneyProtocol.Subgraph.Registry

/-!
# What an event does

The registry and the journal are all that the properties of the subgraph are about. Each handler
takes a step of an abstract machine over them: it may note a change of the price, and then it
changes one vault, one deposit or one claim, and says so in the journal.
-/

namespace MoneyProtocol.Subgraph

open History

variable {normalized : ℚ → ℚ} {s s' : Store} {event : Event} {j j' : Journal}
  {operation : VaultOperation} {user borrower : Address} {coll debt stake amount RBTC BPDLoss : ℕ}
  {snapshotRBTC snapshotBPDDebt : ℕ}

structure World where
  registry : Registry
  journal : Journal

variable {w w' : World}

structure Tracks (normalized : ℚ → ℚ) (s : Store) (w : World) : Prop where
  registry : s.registry = w.registry
  follows : s.history.Follows normalized 0 w.journal

/-- The transaction is noted, and with it a change of the price; nothing else happens. -/
structure Notes (normalized : ℚ → ℚ) (event : Event) (s s' : Store) : Prop where
  registry : s'.registry = s.registry
  found : (s.transactions.lookup event.transactionHash).isSome → s'.history = s.history
  follows : ∀ j, s.history.Follows normalized 0 j →
    ∃ j', j.Repriced j' ∧ s'.history.Follows normalized 0 j'

theorem Notes.refl (s : Store) : Notes normalized event s s :=
  ⟨rfl, fun _ => rfl, fun j hr => ⟨j, .refl j, hr⟩⟩

theorem Notes.of_transaction {s₀ s₁ : Store} {transaction : Transaction}
    (h : getTransaction normalized event s₀ = some (transaction, s₁))
    (hregistry : s₀.registry = s.registry) (hhistory : s₀.history = s.history)
    (hregistry' : s'.registry = (getUser user s₁).2.registry)
    (hhistory' : s'.history = (getUser user s₁).2.history) : Notes normalized event s s' := by
  rw [getUser_registry, getTransaction_registry h, hregistry] at hregistry'
  rw [getUser_history] at hhistory'
  refine ⟨hregistry', ?_, ?_⟩
  · intro hfound
    have htransactions : s₀.transactions = s.transactions := congrArg History.transactions hhistory
    rw [← htransactions] at hfound
    obtain ⟨rfl, -⟩ := (getTransaction_gets normalized).found hfound h
    exact hhistory'.trans hhistory
  · intro j hr
    rw [← hhistory] at hr
    obtain ⟨-, j', hrepriced, hr'⟩ := (getTransaction_gets normalized).follows hr h
    exact ⟨j', hrepriced, hhistory' ▸ hr'⟩

theorem getCurrentLiquidation_notes {liquidation : I32 × Liquidation}
    (h : getCurrentLiquidation normalized event s = some (liquidation, s')) :
    Notes normalized event s s' := by
  unfold getCurrentLiquidation at h
  split at h
  · obtain ⟨-, rfl⟩ := Prod.mk.inj (Option.some.inj h)
    exact .refl s
  · simp only [Option.bind_eq_bind, Option.bind_eq_some_iff, Option.pure_def,
      Option.some.injEq] at h
    obtain ⟨⟨transaction, s₁⟩, htransaction, hresult⟩ := h
    obtain ⟨-, rfl⟩ := Prod.mk.inj hresult
    exact .of_transaction htransaction rfl rfl rfl rfl

theorem getCurrentRedemption_notes {redemption : I32 × Redemption}
    (h : getCurrentRedemption normalized event s = some (redemption, s')) :
    Notes normalized event s s' := by
  unfold getCurrentRedemption at h
  split at h
  · obtain ⟨-, rfl⟩ := Prod.mk.inj (Option.some.inj h)
    exact .refl s
  · simp only [Option.bind_eq_bind, Option.bind_eq_some_iff, Option.pure_def,
      Option.some.injEq] at h
    obtain ⟨⟨transaction, s₁⟩, htransaction, hresult⟩ := h
    obtain ⟨-, rfl⟩ := Prod.mk.inj hresult
    exact .of_transaction htransaction rfl rfl rfl rfl

theorem linkLiquidation_notes {liquidation : Option I32}
    (h : linkLiquidation normalized event operation s = some (liquidation, s')) :
    Notes normalized event s s' := by
  unfold linkLiquidation at h
  split at h
  · simp only [Option.bind_eq_bind, Option.bind_eq_some_iff, Option.pure_def,
      Option.some.injEq] at h
    obtain ⟨⟨current, s₁⟩, hcurrent, hresult⟩ := h
    obtain ⟨-, rfl⟩ := Prod.mk.inj hresult
    exact getCurrentLiquidation_notes hcurrent
  · obtain ⟨-, rfl⟩ := Prod.mk.inj (Option.some.inj h)
    exact .refl s

theorem linkRedemption_notes {redemption : Option I32}
    (h : linkRedemption normalized event operation s = some (redemption, s')) :
    Notes normalized event s s' := by
  unfold linkRedemption at h
  split at h
  · simp only [Option.bind_eq_bind, Option.bind_eq_some_iff, Option.pure_def,
      Option.some.injEq] at h
    obtain ⟨⟨current, s₁⟩, hcurrent, hresult⟩ := h
    obtain ⟨-, rfl⟩ := Prod.mk.inj hresult
    exact getCurrentRedemption_notes hcurrent
  · obtain ⟨-, rfl⟩ := Prod.mk.inj (Option.some.inj h)
    exact .refl s

/-- What an update of a vault does. -/
inductive VaultStep (normalized : ℚ → ℚ) (operation : VaultOperation) (borrower : Address)
    (coll debt : ℕ) (w : World) : World → Prop where
  | unchanged {vault : Vault} {r : Registry}
      (hvault : w.registry.enterVault borrower = some (vault, r))
      (hsame : decimalize normalized coll = vault.collateral ∧
        decimalize normalized debt = vault.debt) :
      VaultStep normalized operation borrower coll debt w ⟨r, w.journal⟩
  | changed {vault updated : Vault} {r : Registry} {j : Journal} {change : VaultChange}
      {after : SystemState} {stake snapshotRBTC snapshotBPDDebt : ℕ}
      (hvault : w.registry.enterVault borrower = some (vault, r))
      (hrepriced : w.journal.Repriced j)
      (hid : change.details.vault = vault.id)
      (hoperation : change.details.vaultOperation = operation)
      (hbefore : (change.details.collateralBefore, change.details.debtBefore) =
        (vault.collateral, vault.debt))
      (hafter : (change.details.collateralAfter, change.details.debtAfter) =
        (decimalize normalized coll, decimalize normalized debt))
      (hupdated : updated = Vault.setRaw { vault with
        collateral := decimalize normalized coll
        debt := decimalize normalized debt } coll debt stake snapshotRBTC snapshotBPDDebt) :
      VaultStep normalized operation borrower coll debt w
        ⟨r.leaveVault operation borrower coll updated, j.snoc (.vault change) after⟩

/-- The vault is saved, after it was closed where it has no collateral. -/
theorem closeVault_registry (operation : VaultOperation) (user : Address) (coll : ℕ)
    (vault : Vault) (s : Store) :
    let left := if coll = 0 then closeVault operation user vault s else (vault, s)
    ({ left.2 with vaults := left.2.vaults.insert left.1.id left.1 } : Store).registry =
      s.registry.leaveVault operation user coll vault ∧ left.2.history = s.history := by
  unfold Registry.leaveVault
  by_cases hcoll : coll = 0
  · simp only [hcoll, if_true]
    have hclosed : (closeCurrentVaultOfOwner user s).registry =
        s.registry.saveUser user { s.registry.user user with currentVault := none } := by
      unfold closeCurrentVaultOfOwner
      rw [saveUser_registry, getUser_registry, getUser_fst]
    have hhistory : (closeCurrentVaultOfOwner user s).history = s.history := getUser_history user s
    rw [← hclosed]
    unfold closeVault Registry.statusOf
    split_ifs
    · exact ⟨rfl, hhistory⟩
    · exact ⟨rfl, hhistory⟩
    · exact ⟨rfl, hhistory⟩
  · simp only [hcoll, if_false]
    exact ⟨rfl, trivial⟩

/-- What a change of a vault or of a deposit leaves alone in the system state. -/
structure SystemState.RetainsRest (before after : SystemState) : Prop where
  sequenceNumber : after.sequenceNumber = before.sequenceNumber
  collSurplusPoolBalance : after.collSurplusPoolBalance = before.collSurplusPoolBalance

theorem tryToOffset_keepsRest (before : SystemState) (collateral debt' : ℚ) :
    before.RetainsRest
      (tryToOffsetWithTokensFromStabilityPool normalized before collateral debt') := by
  unfold tryToOffsetWithTokensFromStabilityPool
  split_ifs <;> exact ⟨rfl, rfl⟩

theorem offset_keepsRest {before after : SystemState} {details : VaultDetails}
    (h : before.offset normalized details = some after) : before.RetainsRest after := by
  unfold SystemState.offset at h
  cases hratio : details.collateralRatioBefore with
  | none =>
    rw [hratio] at h
    split_ifs at h
    obtain rfl := Option.some.inj h
    exact tryToOffset_keepsRest _ _ _
  | some ratio =>
    rw [hratio] at h
    dsimp only at h
    split_ifs at h
    · obtain rfl := Option.some.inj h
      exact tryToOffset_keepsRest _ _ _
    · obtain rfl := Option.some.inj h
      exact tryToOffset_keepsRest _ _ _
    · obtain rfl := Option.some.inj h
      exact ⟨rfl, rfl⟩

theorem withVaultChange_keepsRest {before after : SystemState} {details : VaultDetails}
    (h : before.withVaultChange normalized details = some after) : before.RetainsRest after := by
  unfold SystemState.withVaultChange at h
  simp only [Option.bind_eq_bind, Option.bind_eq_some_iff, Option.pure_def,
    Option.some.injEq] at h
  obtain ⟨totals, htotals, rfl⟩ := h
  have hkeeps : before.RetainsRest totals := by
    unfold SystemState.withTotals at htotals
    dsimp only at htotals
    split_ifs at htotals
    · obtain rfl := Option.some.inj htotals
      exact ⟨rfl, rfl⟩
    · exact offset_keepsRest htotals
    · obtain rfl := Option.some.inj htotals
      exact ⟨rfl, rfl⟩
  exact ⟨hkeeps.sequenceNumber, hkeeps.collSurplusPoolBalance⟩

/-- The change that was begun is still the next one, after its transaction was noted again. -/
theorem Notes.begun {hash : TransactionHash} {start : ChangeStart} {before : SystemState}
    (hnotes : Notes normalized event s s') (hhash : hash = event.transactionHash)
    (hbegun : s.history.Begun normalized j hash start before) :
    s'.history.Begun normalized j hash start before := by
  rw [hnotes.found (hhash ▸ hbegun.found)]
  exact hbegun

theorem updateVault_step (ht : Tracks normalized s w)
    (h : updateVault normalized event operation borrower coll debt stake snapshotRBTC
      snapshotBPDDebt s = some s') :
    ∃ w', VaultStep normalized operation borrower coll debt w w' ∧ Tracks normalized s' w' := by
  unfold updateVault at h
  simp only [Option.bind_eq_bind, Option.bind_eq_some_iff] at h
  obtain ⟨⟨vault, s₁⟩, hcurrent, h⟩ := h
  obtain ⟨hvault, hhistory⟩ := getCurrentVaultOfOwner_effect hcurrent
  rw [ht.registry] at hvault
  have hr₁ : s₁.history.Follows normalized 0 w.journal := hhistory ▸ ht.follows
  dsimp only at h
  split at h
  · next hsame =>
    obtain rfl := Option.some.inj h
    exact ⟨_, .unchanged hvault hsame, rfl, hr₁⟩
  · next hne =>
    simp only [Option.bind_eq_some_iff] at h
    obtain ⟨⟨start, s₂⟩, hcreate, h⟩ := h
    obtain ⟨j, before, hrepriced, hbegun⟩ :=
      (getTransaction_gets normalized).createChange_begun hr₁ hcreate
    have hlast := getCurrentSystemState_last hbegun.follows hbegun.last
    have hprice : getCurrentPrice s₂ = (before.price, s₂) := by
      unfold getCurrentPrice
      rw [hlast]
    rw [hprice] at h
    obtain ⟨⟨liquidation, s₃⟩, hliquidation, ⟨redemption, s₄⟩, hredemption, s₅, hsystem, h⟩ := h
    have hliquidation := linkLiquidation_notes hliquidation
    have hredemption := linkRedemption_notes hredemption
    have hbegun₄ := hredemption.begun rfl (hliquidation.begun rfl hbegun)
    unfold updateSystemStateByVaultChange at hsystem
    rw [getCurrentSystemState_last hbegun₄.follows hbegun₄.last] at hsystem
    simp only [Option.bind_eq_bind, Option.bind_eq_some_iff, Option.pure_def,
      Option.some.injEq] at hsystem
    obtain ⟨systemState, hsystemState, rfl⟩ := hsystem
    obtain rfl := Option.some.inj h
    dsimp only at hsystemState ⊢
    have hhistory := finishVaultChange_history start (describeVaultChange normalized vault operation
      (decimalize normalized coll) (decimalize normalized debt) before.price liquidation redemption)
      systemState s₄
    have hexplained : before.withVaultChange normalized (describeVaultChange normalized vault
        operation (decimalize normalized coll) (decimalize normalized debt) before.price liquidation
        redemption) = some { systemState with sequenceNumber := before.sequenceNumber } := by
      rw [hsystemState, ← (withVaultChange_keepsRest hsystemState).sequenceNumber]
    obtain ⟨hfollows, -⟩ := hbegun₄.finished hhistory rfl rfl ⟨hexplained, rfl, rfl⟩
    obtain ⟨hregistry, hclosed⟩ := closeVault_registry operation borrower coll
      (Vault.setRaw { vault with
        collateral := decimalize normalized coll
        debt := decimalize normalized debt } coll debt stake snapshotRBTC snapshotBPDDebt)
      (finishVaultChange start (describeVaultChange normalized vault operation
        (decimalize normalized coll) (decimalize normalized debt) before.price liquidation
        redemption) (bumpSystemState systemState s₄))
    have hregistry₄ := (hredemption.registry.trans hliquidation.registry).trans
      (createChange_registry hcreate)
    rw [finishVaultChange_registry] at hregistry
    rw [show (bumpSystemState systemState s₄).registry = s₄.registry from rfl, hregistry₄]
      at hregistry
    refine ⟨⟨_, _⟩, ?_, hregistry, hclosed.symm ▸ hfollows⟩
    exact .changed hvault hrepriced rfl rfl rfl rfl rfl

/-- What an update of a deposit does. -/
inductive DepositStep (normalized : ℚ → ℚ) (user : Address) (w : World) : World → Prop where
  | unchanged : DepositStep normalized user w w
  | changed {deposit : StabilityDeposit} {r : Registry} {j : Journal}
      {change : StabilityDepositChange} {after : SystemState} {newDepositedAmount : ℚ}
      (hdeposit : w.registry.enterDeposit user = (deposit, r))
      (hrepriced : w.journal.Repriced j)
      (hid : change.details.stabilityDeposit = deposit.id)
      (hbefore : change.details.depositedAmountBefore = deposit.depositedAmount)
      (hafter : change.details.depositedAmountAfter = newDepositedAmount) :
      DepositStep normalized user w
        ⟨r.leaveDeposit user { deposit with depositedAmount := newDepositedAmount },
          j.snoc (.stabilityDeposit change) after⟩

theorem withStabilityDepositChange_keepsRest (normalized : ℚ → ℚ) (before : SystemState)
    (details : StabilityDepositDetails) :
    before.RetainsRest (before.withStabilityDepositChange normalized details) := by
  unfold SystemState.withStabilityDepositChange
  split <;> exact ⟨rfl, rfl⟩

theorem saveStabilityDeposit_effect (user : Address) (deposit : StabilityDeposit) (s : Store) :
    (s.saveStabilityDeposit user deposit).registry = s.registry.leaveDeposit user deposit ∧
      (s.saveStabilityDeposit user deposit).history = s.history := by
  unfold Store.saveStabilityDeposit Registry.leaveDeposit
  by_cases hzero : deposit.depositedAmount = 0
  · have hclosed : (closeCurrentStabilityDepositOfOwner user s).registry =
        s.registry.saveUser user { s.registry.user user with currentStabilityDeposit := none } := by
      unfold closeCurrentStabilityDepositOfOwner
      rw [saveUser_registry, getUser_registry, getUser_fst]
    have hhistory : (closeCurrentStabilityDepositOfOwner user s).history = s.history :=
      getUser_history user s
    simp only [hzero, if_true]
    rw [← hclosed]
    exact ⟨rfl, hhistory⟩
  · simp only [hzero, if_false]
    exact ⟨rfl, rfl⟩

/-- The deposit is what the user has, or a new one; its change is written. -/
theorem updateStabilityDepositByOperation_step {deposit deposit' : StabilityDeposit}
    {depositOperation : StabilityDepositOperation} {newDepositedAmount : ℚ}
    {collateralGain : Option ℚ} {s₁ : Store} (hr : s.history.Follows normalized 0 w.journal)
    (hdeposit : w.registry.enterDeposit user = (deposit, s.registry))
    (h : updateStabilityDepositByOperation normalized event deposit depositOperation
      newDepositedAmount collateralGain s = some (deposit', s₁)) :
    ∃ w', DepositStep normalized user w w' ∧
      Tracks normalized (s₁.saveStabilityDeposit user deposit') w' := by
  unfold updateStabilityDepositByOperation at h
  simp only [Option.bind_eq_bind, Option.bind_eq_some_iff, Option.pure_def,
    Option.some.injEq] at h
  obtain ⟨⟨start, s₂⟩, hcreate, h⟩ := h
  obtain ⟨rfl, rfl⟩ := Prod.mk.inj h
  obtain ⟨j, before, hrepriced, hbegun⟩ :=
    (getTransaction_gets normalized).createChange_begun hr hcreate
  unfold updateSystemStateByStabilityDepositChange
  rw [getCurrentSystemState_last hbegun.follows hbegun.last]
  dsimp only
  generalize hdetails : describeStabilityDepositChange normalized deposit depositOperation
    newDepositedAmount collateralGain = details
  generalize hsystemState : before.withStabilityDepositChange normalized details = systemState
  have hexplained : before.withStabilityDepositChange normalized details =
      { systemState with sequenceNumber := before.sequenceNumber } := by
    rw [← (withStabilityDepositChange_keepsRest normalized before details).sequenceNumber,
      hsystemState]
  have hhistory := finishStabilityDepositChange_history start details systemState s₂
  obtain ⟨hfollows, -⟩ := hbegun.finished hhistory rfl rfl hexplained
  have hregistry := finishStabilityDepositChange_registry start details
    (bumpSystemState systemState s₂)
  generalize finishStabilityDepositChange start details (bumpSystemState systemState s₂) = s₃
    at hfollows hregistry ⊢
  obtain ⟨hleft, hsaved⟩ := saveStabilityDeposit_effect user
    { deposit with depositedAmount := newDepositedAmount } s₃
  have hregistry : s₃.registry = s₂.registry := hregistry
  rw [hregistry, createChange_registry hcreate] at hleft
  refine ⟨⟨s.registry.leaveDeposit user _, _⟩, ?_, hleft, hsaved.symm ▸ hfollows⟩
  refine .changed hdeposit hrepriced ?_ ?_ ?_
  · rw [← hdetails]
    rfl
  · rw [← hdetails]
    rfl
  · rw [← hdetails]
    rfl

theorem getCurrentStabilityDepositOfOwner_effect {deposit : Option StabilityDeposit} {s₁ : Store}
    (h : getCurrentStabilityDepositOfOwner user s = (deposit, s₁)) :
    deposit = (s.registry.user user).currentStabilityDeposit.bind
        s.registry.stabilityDeposits.lookup ∧
      s₁.registry = s.registry ∧ s₁.history = s.history := by
  have hregistry := getUser_registry user s
  have hhistory := getUser_history user s
  unfold getCurrentStabilityDepositOfOwner at h
  rw [← getUser_fst, ← hregistry]
  obtain ⟨rfl, rfl⟩ := Prod.mk.inj h
  exact ⟨rfl, rfl, hhistory⟩

theorem openNewStabilityDepositForOwner_effect {deposit : StabilityDeposit} {s₁ : Store}
    (hnone : (s.registry.user user).currentStabilityDeposit.bind
      s.registry.stabilityDeposits.lookup = none)
    (h : openNewStabilityDepositForOwner user s = (deposit, s₁)) :
    s.registry.enterDeposit user = (deposit, s₁.registry) ∧ s₁.history = s.history ∧
      deposit.depositedAmount = 0 := by
  have huser := getUser_fst user s
  have hregistry := getUser_registry user s
  have hhistory := getUser_history user s
  unfold openNewStabilityDepositForOwner at h
  rcases hget : getUser user s with ⟨owner, s₂⟩
  rw [hget] at h huser hregistry hhistory
  dsimp only at h huser hregistry hhistory
  obtain ⟨rfl, rfl⟩ := Prod.mk.inj h
  unfold Registry.enterDeposit
  rw [hnone, saveUser_registry, hregistry, huser]
  exact ⟨rfl, hhistory, rfl⟩

theorem updateStabilityDeposit_step (ht : Tracks normalized s w)
    (h : updateStabilityDeposit normalized event user amount s = some s') :
    ∃ w', DepositStep normalized user w w' ∧ Tracks normalized s' w' := by
  unfold updateStabilityDeposit at h
  rcases hcurrent : getCurrentStabilityDepositOfOwner user s with ⟨current, s₁⟩
  obtain ⟨hcurrent', hregistry, hhistory⟩ := getCurrentStabilityDepositOfOwner_effect hcurrent
  rw [hcurrent] at h
  have ht₁ : Tracks normalized s₁ w := ⟨hregistry.trans ht.registry, hhistory ▸ ht.follows⟩
  dsimp only at h
  split at h
  · obtain rfl := Option.some.inj h
    exact ⟨w, .unchanged, ht₁⟩
  · cases current with
    | some deposit =>
      simp only [Option.bind_eq_bind, Option.bind_eq_some_iff, Option.pure_def,
        Option.some.injEq] at h
      obtain ⟨⟨deposit', s₂⟩, hupdate, rfl⟩ := h
      refine updateStabilityDepositByOperation_step ht₁.follows ?_ hupdate
      rw [← ht.registry, ← hregistry]
      unfold Registry.enterDeposit
      rw [hregistry, ← hcurrent']
    | none =>
      rcases hopen : openNewStabilityDepositForOwner user s₁ with ⟨deposit, s₂⟩
      rw [← hregistry] at hcurrent'
      obtain ⟨hdeposit, hhistory₂, -⟩ := openNewStabilityDepositForOwner_effect hcurrent'.symm hopen
      rw [hopen] at h
      simp only [Option.bind_eq_bind, Option.bind_eq_some_iff, Option.pure_def,
        Option.some.injEq] at h
      obtain ⟨⟨deposit', s₃⟩, hupdate, rfl⟩ := h
      refine updateStabilityDepositByOperation_step (hhistory₂ ▸ ht₁.follows) ?_ hupdate
      rw [← ht₁.registry, hdeposit]

theorem withdrawCollateralGainFromStabilityDeposit_step (ht : Tracks normalized s w)
    (h : withdrawCollateralGainFromStabilityDeposit normalized event user RBTC BPDLoss s =
      some s') :
    ∃ w', DepositStep normalized user w w' ∧ Tracks normalized s' w' := by
  unfold withdrawCollateralGainFromStabilityDeposit at h
  split at h
  · obtain rfl := Option.some.inj h
    exact ⟨w, .unchanged, ht⟩
  · rcases hcurrent : getCurrentStabilityDepositOfOwner user s with ⟨current, s₁⟩
    obtain ⟨hcurrent', hregistry, hhistory⟩ := getCurrentStabilityDepositOfOwner_effect hcurrent
    rw [hcurrent] at h
    simp only [Option.bind_eq_bind, Option.bind_eq_some_iff, Option.pure_def,
      Option.some.injEq] at h
    obtain ⟨deposit, rfl, ⟨deposit', s₂⟩, hupdate, rfl⟩ := h
    refine updateStabilityDepositByOperation_step (hhistory ▸ ht.follows) ?_ hupdate
    rw [← ht.registry]
    unfold Registry.enterDeposit
    rw [← hcurrent', hregistry]

/-- What an update of a claim does. -/
inductive SurplusStep (normalized : ℚ → ℚ) (borrower : Address) (collSurplus : ℕ) (w : World) :
    World → Prop where
  | unchanged
      (hsame : decimalize normalized collSurplus = (w.registry.user borrower).collSurplus) :
      SurplusStep normalized borrower collSurplus w w
  | changed {j : Journal} {change : CollSurplusChange} {after : SystemState}
      (hrepriced : w.journal.Repriced j)
      (hdetails : change.details = describeCollSurplusChange normalized borrower
        (w.registry.user borrower).collSurplus (decimalize normalized collSurplus)) :
      SurplusStep normalized borrower collSurplus w
        ⟨w.registry.saveUser borrower { w.registry.user borrower with
          collSurplus := decimalize normalized collSurplus },
          j.snoc (.collSurplus change) after⟩

theorem updateUserClaimColl_step (ht : Tracks normalized s w)
    (h : updateUserClaimColl normalized event borrower amount s = some s') :
    ∃ w', SurplusStep normalized borrower amount w w' ∧ Tracks normalized s' w' := by
  unfold updateUserClaimColl at h
  have huser := getUser_fst borrower s
  have hregistry := getUser_registry borrower s
  have hhistory := getUser_history borrower s
  rcases hget : getUser borrower s with ⟨user, s₁⟩
  rw [hget] at h huser hregistry hhistory
  dsimp only at h huser hregistry hhistory
  rw [ht.registry] at huser hregistry
  subst huser
  split at h
  · next hsame =>
    obtain rfl := Option.some.inj h
    exact ⟨w, .unchanged hsame, hregistry, hhistory ▸ ht.follows⟩
  · simp only [Option.bind_eq_bind, Option.bind_eq_some_iff, Option.pure_def,
      Option.some.injEq] at h
    obtain ⟨⟨start, s₂⟩, hcreate, rfl⟩ := h
    obtain ⟨j, before, hrepriced, hbegun⟩ :=
      (getTransaction_gets normalized).createChange_begun (hhistory ▸ ht.follows) hcreate
    unfold updateSystemStateByCollSurplusChange
    rw [getCurrentSystemState_last hbegun.follows hbegun.last]
    dsimp only
    generalize hdetails : describeCollSurplusChange normalized borrower _ _ = details
    have hhistory := finishCollSurplusChange_history start details
      (before.withCollSurplusChange normalized details) s₂
    obtain ⟨hfollows, -⟩ := hbegun.finished hhistory rfl rfl rfl
    have hfinish := finishCollSurplusChange_registry start details
      (bumpSystemState (before.withCollSurplusChange normalized details) s₂)
    have hfinish : _ = s₂.registry := hfinish
    have hregistry₂ := (hfinish.trans (createChange_registry hcreate)).trans hregistry
    refine ⟨⟨_, _⟩, .changed hrepriced hdetails.symm, ?_, hfollows⟩
    rw [saveUser_registry, hregistry₂]

/-- What an event does. -/
inductive Effect (normalized : ℚ → ℚ) : Params → World → World → Prop where
  | priceFeedAddressChanged (a : Address) (w : World) :
      Effect normalized (.priceFeedAddressChanged a) w w
  | vaultUpdatedByBorrower {borrower : Address} {debt coll stake : ℕ}
      {operation : BorrowerOperation} {w w' : World}
      (hstep : VaultStep normalized (getVaultOperationFromBorrowerOperation operation) borrower
        coll debt w w') :
      Effect normalized (.vaultUpdatedByBorrower borrower debt coll stake operation) w w'
  | vaultUpdatedByManager {borrower : Address} {debt coll stake : ℕ}
      {operation : VaultManagerOperation} {w w' : World}
      (hstep : VaultStep normalized (getVaultOperationFromVaultManagerOperation operation) borrower
        coll debt w w') :
      Effect normalized (.vaultUpdatedByManager borrower debt coll stake operation) w w'
  | vaultLiquidated {borrower : Address} {debt coll : ℕ} {operation : VaultManagerOperation}
      {w w₁ w' : World}
      (hrewards : VaultStep normalized .accrueRewards borrower coll debt w w₁)
      (hliquidation : VaultStep normalized (getVaultOperationFromVaultManagerOperation operation)
        borrower 0 0 w₁ w') :
      Effect normalized (.vaultLiquidated borrower debt coll operation) w w'
  | liquidation {liquidatedDebt liquidatedColl collGasCompensation BPDGasCompensation : ℕ}
      {w : World} {j : Journal} (hrepriced : w.journal.Repriced j) :
      Effect normalized
        (.liquidation liquidatedDebt liquidatedColl collGasCompensation BPDGasCompensation)
        w ⟨w.registry, j⟩
  | redemption {attemptedBPDAmount actualBPDAmount RBTCSent RBTCFee : ℕ} {w : World}
      {j : Journal} (hrepriced : w.journal.Repriced j) :
      Effect normalized (.redemption attemptedBPDAmount actualBPDAmount RBTCSent RBTCFee)
        w ⟨w.registry, j⟩
  | userDepositChanged {depositor : Address} {newDeposit : ℕ} {w w' : World}
      (hstep : DepositStep normalized depositor w w') :
      Effect normalized (.userDepositChanged depositor newDeposit) w w'
  | RBTCGainWithdrawn {depositor : Address} {RBTC BPDLoss : ℕ} {w w' : World}
      (hstep : DepositStep normalized depositor w w') :
      Effect normalized (.RBTCGainWithdrawn depositor RBTC BPDLoss) w w'
  | collBalanceUpdated {account : Address} {newBalance : ℕ} {w w' : World}
      (hstep : SurplusStep normalized account newBalance w w') :
      Effect normalized (.collBalanceUpdated account newBalance) w w'

theorem Notes.tracks (hnotes : Notes normalized event s s') (ht : Tracks normalized s w) :
    ∃ j, w.journal.Repriced j ∧ Tracks normalized s' ⟨w.registry, j⟩ := by
  obtain ⟨j, hrepriced, hfollows⟩ := hnotes.follows w.journal ht.follows
  exact ⟨j, hrepriced, hnotes.registry.trans ht.registry, hfollows⟩

/-- The handlers refine the abstract machine. -/
theorem handle_effect {log : Event × Params} (ht : Tracks normalized s w)
    (h : handle normalized s log = some s') :
    ∃ w', Effect normalized log.2 w w' ∧ Tracks normalized s' w' := by
  obtain ⟨event, params⟩ := log
  cases params with
  | priceFeedAddressChanged a =>
    obtain rfl := Option.some.inj h
    exact ⟨w, .priceFeedAddressChanged a w, ht.registry, ht.follows⟩
  | vaultUpdatedByBorrower borrower debt coll stake operation =>
    obtain ⟨w', hstep, ht'⟩ := updateVault_step ht h
    exact ⟨w', .vaultUpdatedByBorrower hstep, ht'⟩
  | vaultUpdatedByManager borrower debt coll stake operation =>
    obtain ⟨w', hstep, ht'⟩ := updateVault_step ht h
    exact ⟨w', .vaultUpdatedByManager hstep, ht'⟩
  | vaultLiquidated borrower debt coll operation =>
    obtain ⟨s₁, hrewards, hliquidation⟩ := Option.bind_eq_some_iff.mp h
    obtain ⟨w₁, hstep₁, ht₁⟩ := updateVault_step ht hrewards
    obtain ⟨w', hstep, ht'⟩ := updateVault_step ht₁ hliquidation
    exact ⟨w', .vaultLiquidated hstep₁ hstep, ht'⟩
  | liquidation liquidatedDebt liquidatedColl collGasCompensation BPDGasCompensation =>
    obtain ⟨s₁, hfinish, hresult⟩ := Option.bind_eq_some_iff.mp h
    obtain ⟨⟨current, s₂⟩, hcurrent, hsaved⟩ := Option.bind_eq_some_iff.mp hfinish
    obtain rfl := Option.some.inj hsaved
    obtain rfl := Option.some.inj hresult
    obtain ⟨j, hrepriced, ht'⟩ := (getCurrentLiquidation_notes hcurrent).tracks ht
    exact ⟨_, .liquidation hrepriced, ht'.registry, ht'.follows⟩
  | redemption attemptedBPDAmount actualBPDAmount RBTCSent RBTCFee =>
    obtain ⟨⟨current, s₁⟩, hcurrent, hsaved⟩ := Option.bind_eq_some_iff.mp h
    obtain rfl := Option.some.inj hsaved
    obtain ⟨j, hrepriced, ht'⟩ := (getCurrentRedemption_notes hcurrent).tracks ht
    exact ⟨_, .redemption hrepriced, ht'.registry, ht'.follows⟩
  | userDepositChanged depositor newDeposit =>
    obtain ⟨w', hstep, ht'⟩ := updateStabilityDeposit_step ht h
    exact ⟨w', .userDepositChanged hstep, ht'⟩
  | RBTCGainWithdrawn depositor RBTC BPDLoss =>
    obtain ⟨w', hstep, ht'⟩ := withdrawCollateralGainFromStabilityDeposit_step ht h
    exact ⟨w', .RBTCGainWithdrawn hstep, ht'⟩
  | collBalanceUpdated account newBalance =>
    obtain ⟨w', hstep, ht'⟩ := updateUserClaimColl_step ht h
    exact ⟨w', .collBalanceUpdated hstep, ht'⟩

/-- The abstract machine runs on the parameters of the events. -/
inductive Effects (normalized : ℚ → ℚ) : List (Event × Params) → World → World → Prop where
  | nil (w : World) : Effects normalized [] w w
  | cons {log : Event × Params} {logs : List (Event × Params)} {w w₁ w' : World}
      (heffect : Effect normalized log.2 w w₁)
      (heffects : Effects normalized logs w₁ w') : Effects normalized (log :: logs) w w'

theorem run_effects {log : List (Event × Params)} (ht : Tracks normalized s w)
    (h : run normalized log s = some s') :
    ∃ w', Effects normalized log w w' ∧ Tracks normalized s' w' := by
  induction log generalizing s w with
  | nil =>
    obtain rfl := Option.some.inj h
    exact ⟨w, .nil w, ht⟩
  | cons e log ih =>
    obtain ⟨s₁, hhandle, hrest⟩ := Option.bind_eq_some_iff.mp h
    obtain ⟨w₁, heffect, ht₁⟩ := handle_effect ht hhandle
    obtain ⟨w', heffects, ht'⟩ := ih ht₁ hrest
    exact ⟨w', .cons heffect heffects, ht'⟩

/-- The world before the first event. -/
def World.empty : World := ⟨({} : Store).registry, {}⟩

theorem tracks_empty (normalized : ℚ → ℚ) : Tracks normalized {} World.empty := by
  refine ⟨rfl, ⟨⟨rfl, ?_, ?_, ?_, ?_⟩, ?_, ?_, rfl, rfl, rfl, ?_, ?_, ?_⟩⟩
  · intro systemState h
    cases h
  · intro k systemState h
    cases h
  · intro k change h
    cases h
  · intro k change before after h
    cases h
  · intro _ k
    rfl
  · intro _ k
    rfl
  · intro systemState h
    cases h
  · intro id transaction h
    cases h
  · intro change h
    cases h

end MoneyProtocol.Subgraph
