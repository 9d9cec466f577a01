import MoneyProtocol.Subgraph.Vaults

/-!
# The changes account for the entities

What is saved of a vault, of a deposit or of a claim is where its changes lead, each of which
starts where the one before it ended. The journal is only ever continued.
-/

namespace MoneyProtocol.Subgraph

open History

variable {normalized : ℚ → ℚ} {w w' : World} {r r' : Registry} {j j' : Journal}
  {operation : VaultOperation} {user borrower : Address} {coll debt amount : ℕ} {vault : Vault}
  {entity : User} {deposit : StabilityDeposit} {s s' : Store} {log : List (Event × Params)} {n : ℕ}

structure Registry.DepositIds (r : Registry) : Prop where
  current : ∀ user id, (r.user user).currentStabilityDeposit = some id →
    id.owner = user ∧ id.number.toNat < (r.user user).stabilityDepositCount.toNat
  saved : ∀ id deposit, r.stabilityDeposits.lookup id = some deposit →
    deposit.id = id ∧ id.number.toNat < (r.user id.owner).stabilityDepositCount.toNat

def Registry.deposited (r : Registry) (id : SubId) : ℚ :=
  ((r.stabilityDeposits.lookup id).map (·.depositedAmount)).getD 0

/-- The deposits are sound after at most `n` steps of their counters. -/
structure World.DepositsSound (n : ℕ) (w : World) : Prop where
  few : ∀ user, (w.registry.user user).stabilityDepositCount.toNat ≤ n
  ids : w.registry.DepositIds
  ledger : Ledger StabilityDepositDetails.stabilityDeposit
    StabilityDepositDetails.depositedAmountBefore StabilityDepositDetails.depositedAmountAfter 0
    w.registry.deposited (w.journal.changes.filterMap AnyChange.stabilityDeposit?)

theorem Registry.DepositIds.enterDeposit (hids : r.DepositIds)
    (hcount : (r.user user).stabilityDepositCount.toNat + 1 < 2 ^ 31)
    (h : r.enterDeposit user = (deposit, r')) :
    r'.DepositIds ∧ (r'.user user).currentStabilityDeposit = some deposit.id ∧
      r'.stabilityDeposits = r.stabilityDeposits ∧
      r.deposited deposit.id = deposit.depositedAmount := by
  unfold Registry.enterDeposit at h
  split at h
  · next saved hsaved =>
    obtain ⟨rfl, rfl⟩ := Prod.mk.inj h
    obtain ⟨id, hcurrent, hlookup⟩ := Option.bind_eq_some_iff.mp hsaved
    obtain ⟨rfl, -⟩ := hids.saved id saved hlookup
    refine ⟨hids, hcurrent, rfl, ?_⟩
    rw [Registry.deposited, hlookup]
    rfl
  · obtain ⟨rfl, rfl⟩ := Prod.mk.inj h
    have hnext := I32.toNat_add_one hcount
    have hself : ∀ entity, Function.update r.user user entity user = entity := fun _ =>
      Function.update_self ..
    refine ⟨⟨?_, ?_⟩, ?_, rfl, ?_⟩
    · intro other id hid
      by_cases hother : other = user
      · subst hother
        simp only [Registry.saveUser, hself] at hid ⊢
        obtain rfl := Option.some.inj hid
        rw [hnext]
        exact ⟨rfl, Nat.lt_succ_self _⟩
      · simp only [Registry.saveUser, Function.update_of_ne hother] at hid ⊢
        exact hids.current other id hid
    · intro id saved hsaved
      obtain ⟨hid, hnumber⟩ := hids.saved id saved hsaved
      refine ⟨hid, ?_⟩
      by_cases hother : id.owner = user
      · simp only [Registry.saveUser, hother, hself] at hnumber ⊢
        rw [hnext]
        exact Nat.lt_succ_of_lt hnumber
      · simp only [Registry.saveUser, Function.update_of_ne hother]
        exact hnumber
    · simp only [Registry.saveUser, hself]
    · -- A deposit with the id would have a smaller number.
      have hnew :
          r.stabilityDeposits.lookup ⟨user, (r.user user).stabilityDepositCount⟩ = none := by
        by_contra hsaved
        obtain ⟨saved, hlookup⟩ := Option.ne_none_iff_exists'.mp hsaved
        exact absurd (hids.saved _ saved hlookup).2 (lt_irrefl _)
      rw [Registry.deposited, hnew]
      rfl

/-- Entering a deposit raises the count of its owner by at most one. -/
theorem Registry.enterDeposit_few (hfew : ∀ user, (r.user user).stabilityDepositCount.toNat ≤ n)
    (hn : n + 1 < 2 ^ 31) (h : r.enterDeposit user = (deposit, r')) (other : Address) :
    (r'.user other).stabilityDepositCount.toNat ≤ n + 1 := by
  unfold Registry.enterDeposit at h
  split at h
  · obtain ⟨-, rfl⟩ := Prod.mk.inj h
    exact Nat.le_succ_of_le (hfew other)
  · obtain ⟨-, rfl⟩ := Prod.mk.inj h
    have hcount := hfew user
    by_cases hother : other = user
    · subst hother
      simp only [Registry.saveUser, Function.update_self]
      rw [I32.toNat_add_one (by omega)]
      omega
    · simp only [Registry.saveUser, Function.update_of_ne hother]
      exact Nat.le_succ_of_le (hfew other)

theorem Registry.leaveDeposit_count (r : Registry) (user : Address) (deposit : StabilityDeposit)
    (other : Address) : ((r.leaveDeposit user deposit).user other).stabilityDepositCount =
      (r.user other).stabilityDepositCount := by
  unfold Registry.leaveDeposit
  split_ifs
  · by_cases hother : other = user
    · simp only [Registry.saveUser, hother, Function.update_self]
    · simp only [Registry.saveUser, Function.update_of_ne hother]
  · rfl

theorem Registry.DepositIds.leaveDeposit (hids : r.DepositIds)
    (hcurrent : (r.user user).currentStabilityDeposit = some deposit.id) :
    (r.leaveDeposit user deposit).DepositIds := by
  obtain ⟨howner, hnumber⟩ := hids.current user deposit.id hcurrent
  have hsaved : ∀ id saved, (r.stabilityDeposits.insert deposit.id deposit).lookup id = some saved →
      saved.id = id ∧ id.number.toNat < (r.user id.owner).stabilityDepositCount.toNat := by
    intro id saved hlookup
    by_cases heq : id = deposit.id
    · subst heq
      rw [AList.lookup_insert] at hlookup
      obtain rfl := Option.some.inj hlookup
      exact ⟨rfl, howner.symm ▸ hnumber⟩
    · rw [AList.lookup_insert_ne heq] at hlookup
      exact hids.saved id saved hlookup
  unfold Registry.leaveDeposit
  split_ifs
  · have hcount : ∀ other, (Function.update r.user user
        { r.user user with currentStabilityDeposit := none } other).stabilityDepositCount =
        (r.user other).stabilityDepositCount := by
      intro other
      by_cases hother : other = user
      · rw [hother, Function.update_self]
      · rw [Function.update_of_ne hother]
    refine ⟨?_, ?_⟩
    · intro other id hid
      simp only [Registry.saveUser, hcount] at hid ⊢
      by_cases hother : other = user
      · subst hother
        rw [Function.update_self] at hid
        cases hid
      · rw [Function.update_of_ne hother] at hid
        exact hids.current other id hid
    · intro id saved hlookup
      simp only [Registry.saveUser, hcount]
      exact hsaved id saved hlookup
  · exact ⟨hids.current, hsaved⟩

theorem Registry.leaveDeposit_deposited (r : Registry) (user : Address)
    (deposit : StabilityDeposit) :
    (r.leaveDeposit user deposit).deposited =
      Function.update r.deposited deposit.id deposit.depositedAmount := by
  have htable : (r.leaveDeposit user deposit).stabilityDeposits =
      r.stabilityDeposits.insert deposit.id deposit := by
    unfold Registry.leaveDeposit
    split_ifs <;> rfl
  funext id
  rw [Registry.deposited, htable]
  by_cases heq : id = deposit.id
  · subst heq
    rw [AList.lookup_insert, Function.update_self]
    rfl
  · rw [AList.lookup_insert_ne heq, Function.update_of_ne heq]
    rfl

def Registry.claims (r : Registry) (user : Address) : ℚ := (r.user user).collSurplus

def World.ClaimsSound (w : World) : Prop :=
  Ledger CollSurplusDetails.user CollSurplusDetails.collSurplusBefore
    CollSurplusDetails.collSurplusAfter 0 w.registry.claims
    (w.journal.changes.filterMap AnyChange.collSurplus?)

theorem Registry.saveUser_claims (r : Registry) (user : Address) (entity : User) :
    (r.saveUser user entity).claims = Function.update r.claims user entity.collSurplus := by
  funext other
  by_cases h : other = user
  · subst h
    simp [Registry.claims, Registry.saveUser]
  · simp [Registry.claims, Registry.saveUser, Function.update_of_ne h]

theorem Registry.saveUser_claims_same (r : Registry) (user : Address) (entity : User)
    (h : entity.collSurplus = (r.user user).collSurplus) :
    (r.saveUser user entity).claims = r.claims := by
  rw [saveUser_claims, h]
  exact Function.update_eq_self user r.claims

theorem Registry.enterDeposit_claims (h : r.enterDeposit user = (deposit, r')) :
    r'.claims = r.claims := by
  unfold Registry.enterDeposit at h
  split at h
  · obtain ⟨-, rfl⟩ := Prod.mk.inj h
    rfl
  · obtain ⟨-, rfl⟩ := Prod.mk.inj h
    exact saveUser_claims_same _ _ _ rfl

theorem Registry.leaveDeposit_claims (r : Registry) (user : Address)
    (deposit : StabilityDeposit) : (r.leaveDeposit user deposit).claims = r.claims := by
  unfold Registry.leaveDeposit
  split_ifs
  · exact saveUser_claims_same r user { r.user user with currentStabilityDeposit := none } rfl
  · rfl

/-- What the deposits are about is the same. -/
structure Registry.SameDeposits (r r' : Registry) : Prop where
  user : ∀ user, ((r'.user user).currentStabilityDeposit, (r'.user user).stabilityDepositCount) =
    ((r.user user).currentStabilityDeposit, (r.user user).stabilityDepositCount)
  deposits : r'.stabilityDeposits = r.stabilityDeposits

theorem Registry.SameDeposits.refl (r : Registry) : r.SameDeposits r := ⟨fun _ => rfl, rfl⟩

theorem Registry.SameDeposits.trans {r'' : Registry} (h : r.SameDeposits r')
    (h' : r'.SameDeposits r'') : r.SameDeposits r'' :=
  ⟨fun user => (h'.user user).trans (h.user user), h'.deposits.trans h.deposits⟩

theorem Registry.saveUser_sameDeposits (r : Registry) (user : Address) (entity : User)
    (hcurrent : entity.currentStabilityDeposit = (r.user user).currentStabilityDeposit)
    (hcount : entity.stabilityDepositCount = (r.user user).stabilityDepositCount) :
    r.SameDeposits (r.saveUser user entity) := by
  refine ⟨?_, rfl⟩
  intro other
  unfold Registry.saveUser
  by_cases h : other = user
  · subst h
    simp only [Function.update_self, hcurrent, hcount]
  · simp only [Function.update_of_ne h]

theorem Registry.enterVault_rest (h : r.enterVault user = some (vault, r')) :
    r.SameDeposits r' ∧ r'.claims = r.claims := by
  unfold Registry.enterVault at h
  split at h
  · obtain ⟨-, rfl⟩ := Prod.mk.inj (Option.some.inj h)
    have hsame := r.saveUser_sameDeposits user { r.user user with
      vaultCount := (r.user user).vaultCount + 1
      currentVault := some ⟨user, (r.user user).vaultCount⟩ } rfl rfl
    refine ⟨⟨hsame.user, hsame.deposits⟩, ?_⟩
    exact r.saveUser_claims_same user { r.user user with
      vaultCount := (r.user user).vaultCount + 1
      currentVault := some ⟨user, (r.user user).vaultCount⟩ } rfl
  · simp only [Option.map_eq_some_iff] at h
    obtain ⟨vault', -, hresult⟩ := h
    obtain ⟨-, rfl⟩ := Prod.mk.inj hresult
    exact ⟨.refl r, rfl⟩

theorem Registry.leaveVault_rest (r : Registry) (operation : VaultOperation) (user : Address)
    (coll : ℕ) (vault : Vault) :
    r.SameDeposits (r.leaveVault operation user coll vault) ∧
      (r.leaveVault operation user coll vault).claims = r.claims := by
  unfold Registry.leaveVault
  split_ifs
  · have hsame := r.saveUser_sameDeposits user { r.user user with currentVault := none } rfl rfl
    have hclaims := r.saveUser_claims_same user { r.user user with currentVault := none } rfl
    cases Registry.statusOf operation <;> exact ⟨⟨hsame.user, hsame.deposits⟩, hclaims⟩
  · exact ⟨⟨fun _ => rfl, rfl⟩, rfl⟩

theorem World.DepositsSound.of_same (h : w.DepositsSound n)
    (hsame : w.registry.SameDeposits w'.registry)
    (hchanges : w'.journal.changes.filterMap AnyChange.stabilityDeposit? =
      w.journal.changes.filterMap AnyChange.stabilityDeposit?) : w'.DepositsSound n := by
  have hcurrent : ∀ user, (w'.registry.user user).currentStabilityDeposit =
      (w.registry.user user).currentStabilityDeposit := fun user =>
    congrArg Prod.fst (hsame.user user)
  have hcount : ∀ user, (w'.registry.user user).stabilityDepositCount =
      (w.registry.user user).stabilityDepositCount := fun user =>
    congrArg Prod.snd (hsame.user user)
  refine ⟨fun user => hcount user ▸ h.few user, ⟨?_, ?_⟩, ?_⟩
  · intro user id hid
    rw [hcurrent] at hid
    rw [hcount]
    exact h.ids.current user id hid
  · intro id saved hsaved
    rw [hsame.deposits] at hsaved
    rw [hcount]
    exact h.ids.saved id saved hsaved
  · unfold Registry.deposited
    rw [hchanges, hsame.deposits]
    exact h.ledger

theorem VaultStep.journal (hstep : VaultStep normalized operation borrower coll debt w w') :
    w.journal.ExtendsBy 2 w'.journal := by
  cases hstep with
  | unchanged => exact .refl 2 _
  | changed _ hrepriced => exact hrepriced.snoc _ _

theorem DepositStep.journal (hstep : DepositStep normalized user w w') :
    w.journal.ExtendsBy 2 w'.journal := by
  cases hstep with
  | unchanged => exact .refl 2 _
  | changed _ hrepriced => exact hrepriced.snoc _ _

theorem SurplusStep.journal (hstep : SurplusStep normalized borrower amount w w') :
    w.journal.ExtendsBy 2 w'.journal := by
  cases hstep with
  | unchanged => exact .refl 2 _
  | changed hrepriced => exact hrepriced.snoc _ _

/-- A liquidation changes a vault twice, and the price may change before either. -/
theorem Effect.journal {params : Params} (heffect : Effect normalized params w w') :
    w.journal.ExtendsBy 4 w'.journal := by
  have htwo : 2 ≤ 4 := by decide
  have hone : 1 ≤ 4 := by decide
  cases heffect with
  | priceFeedAddressChanged => exact .refl 4 _
  | vaultUpdatedByBorrower hstep => exact hstep.journal.mono htwo
  | vaultUpdatedByManager hstep => exact hstep.journal.mono htwo
  | vaultLiquidated hrewards hliquidation => exact hrewards.journal.trans hliquidation.journal
  | liquidation hrepriced => exact hrepriced.toExtendsBy.mono hone
  | redemption hrepriced => exact hrepriced.toExtendsBy.mono hone
  | userDepositChanged hstep => exact hstep.journal.mono htwo
  | RBTCGainWithdrawn hstep => exact hstep.journal.mono htwo
  | collBalanceUpdated hstep => exact hstep.journal.mono htwo

theorem Effects.journal (heffects : Effects normalized log w w') :
    w.journal.ExtendsBy (4 * log.length) w'.journal := by
  induction heffects with
  | nil w => exact .refl 0 _
  | @cons _ log _ _ _ heffect _ ih =>
    refine (heffect.journal.trans ih).mono ?_
    rw [List.length_cons]
    omega

/-- An event of the transaction in a block where the feed gives the price. -/
def testEvent (hash price : ℕ) : Event where
  transactionHash := hash
  transactionFrom := 5
  blockNumber := hash
  blockTimestamp := hash
  fetchPrice := fun _ => some (price * 10 ^ 18)
  rewardSnapshots := fun _ => (0, 0)
  B_RBTC := 0
  B_BPDDebt := 0

/-- A vault is opened, a deposit is made, the price falls, and the vault is liquidated. -/
def testLog : List (Event × Params) :=
  [(testEvent 0 200, .priceFeedAddressChanged 9),
    (testEvent 1 210, .vaultUpdatedByBorrower 1 (1000 * 10 ^ 18) (10 * 10 ^ 18) (10 * 10 ^ 18)
      .openVault),
    (testEvent 2 210, .userDepositChanged 2 (500 * 10 ^ 18)),
    (testEvent 3 100, .vaultLiquidated 1 (1000 * 10 ^ 18) (10 * 10 ^ 18) .liquidateInNormalMode),
    (testEvent 3 100, .liquidation (1000 * 10 ^ 18) (10 * 10 ^ 18) 0 0),
    (testEvent 4 100, .collBalanceUpdated 1 (2 * 10 ^ 18))]

theorem testLog_runs : ∃ s, run id testLog {} = some s :=
  Option.isSome_iff_exists.mp (by decide +kernel)

/-- All that is saved is sound after at most `n` steps of the counters. -/
structure World.Sound (n : ℕ) (w : World) : Prop where
  vaults : w.VaultsSound n
  deposits : w.DepositsSound n
  claims : w.ClaimsSound

theorem World.Sound.mono (h : w.Sound n) (k : ℕ) : w.Sound (n + k) := by
  induction k with
  | zero => exact h
  | succ k ih =>
    exact ⟨{ ih.vaults with few := ih.vaults.few.mono },
      { ih.deposits with few := fun user => Nat.le_succ_of_le (ih.deposits.few user) }, ih.claims⟩

theorem Journal.Repriced.sound (hrepriced : w.journal.Repriced j) (h : w.Sound n) :
    World.Sound n ⟨w.registry, j⟩ := by
  refine ⟨h.vaults.of_same (.refl _) hrepriced.vaults,
    h.deposits.of_same (.refl _) hrepriced.deposits, ?_⟩
  unfold World.ClaimsSound
  rw [hrepriced.surpluses]
  exact h.claims

theorem VaultStep.sound (hstep : VaultStep normalized operation borrower coll debt w w')
    (h : w.Sound n) (hn : n + 2 < 2 ^ 31) : w'.Sound (n + 2) := by
  have hvaults := hstep.vaultsSound h.vaults hn
  have h := h.mono 2
  cases hstep with
  | unchanged hvault hsame =>
    obtain ⟨hdeposits, hclaims⟩ := Registry.enterVault_rest hvault
    refine ⟨hvaults, h.deposits.of_same hdeposits rfl, ?_⟩
    unfold World.ClaimsSound
    rw [hclaims]
    exact h.claims
  | @changed vault updated r j change after _ _ _ hvault hrepriced hid hop hbefore hafter
    hupdated =>
    obtain ⟨hdeposits, hclaims⟩ := Registry.enterVault_rest hvault
    obtain ⟨hdeposits', hclaims'⟩ := r.leaveVault_rest operation borrower coll updated
    refine ⟨hvaults, h.deposits.of_same (hdeposits.trans hdeposits') ?_, ?_⟩
    · rw [Journal.snoc, List.filterMap_append, hrepriced.deposits]
      exact List.append_nil _
    · unfold World.ClaimsSound
      rw [hclaims', hclaims, Journal.snoc, List.filterMap_append, hrepriced.surpluses]
      exact (List.append_nil _).symm ▸ h.claims

theorem DepositStep.sound (hstep : DepositStep normalized user w w') (h : w.Sound n)
    (hn : n + 1 < 2 ^ 31) : w'.Sound (n + 1) := by
  have hvaults := hstep.vaultsSound (h.mono 1).vaults
  cases hstep with
  | unchanged => exact h.mono 1
  | @changed deposit r j change after amount hdeposit hrepriced hid hbefore hafter =>
    obtain ⟨hids, hcurrent, htable, hamount⟩ := h.deposits.ids.enterDeposit
      (Nat.lt_of_le_of_lt (Nat.succ_le_succ (h.deposits.few user)) hn) hdeposit
    refine ⟨hvaults, ⟨?_, hids.leaveDeposit hcurrent, ?_⟩, ?_⟩
    · intro other
      rw [Registry.leaveDeposit_count]
      exact Registry.enterDeposit_few h.deposits.few hn hdeposit other
    · have hsource : change.details.depositedAmountBefore =
          w.registry.deposited change.details.stabilityDeposit := by
        rw [hid, hbefore, hamount]
      have hledger := h.deposits.ledger.snoc hsource
      have hdeposited : r.deposited = w.registry.deposited := by
        unfold Registry.deposited
        rw [htable]
      rw [hid, hafter, ← hdeposited] at hledger
      rw [Registry.leaveDeposit_deposited, Journal.snoc, List.filterMap_append, hrepriced.deposits]
      exact hledger
    · unfold World.ClaimsSound
      rw [Registry.leaveDeposit_claims, Registry.enterDeposit_claims hdeposit, Journal.snoc,
        List.filterMap_append, hrepriced.surpluses]
      exact (List.append_nil _).symm ▸ h.claims

theorem SurplusStep.sound (hstep : SurplusStep normalized borrower amount w w') (h : w.Sound n) :
    w'.Sound n := by
  have hvaults := hstep.vaultsSound h.vaults
  cases hstep with
  | unchanged hsame => exact h
  | @changed j change after hrepriced hdetails =>
    refine ⟨hvaults, h.deposits.of_same (Registry.saveUser_sameDeposits _ _ _ rfl rfl) ?_, ?_⟩
    · rw [Journal.snoc, List.filterMap_append, hrepriced.deposits]
      exact List.append_nil _
    · have hsource : change.details.collSurplusBefore =
          w.registry.claims change.details.user := by
        rw [hdetails]
        rfl
      have huser : change.details.user = borrower := by
        rw [hdetails]
        rfl
      have hafter : change.details.collSurplusAfter = decimalize normalized amount := by
        rw [hdetails]
        rfl
      have hledger := h.claims.snoc hsource
      rw [huser, hafter] at hledger
      unfold World.ClaimsSound
      rw [Registry.saveUser_claims, Journal.snoc, List.filterMap_append, hrepriced.surpluses]
      exact hledger

theorem Effect.sound {params : Params} (heffect : Effect normalized params w w') (h : w.Sound n)
    (hn : n + 4 < 2 ^ 31) : w'.Sound (n + 4) := by
  have htwo : n + 2 < 2 ^ 31 := by omega
  have hone : n + 1 < 2 ^ 31 := by omega
  cases heffect with
  | priceFeedAddressChanged => exact h.mono 4
  | vaultUpdatedByBorrower hstep => exact (hstep.sound h htwo).mono 2
  | vaultUpdatedByManager hstep => exact (hstep.sound h htwo).mono 2
  | vaultLiquidated hrewards hliquidation => exact hliquidation.sound (hrewards.sound h htwo) hn
  | liquidation hrepriced => exact (hrepriced.sound h).mono 4
  | redemption hrepriced => exact (hrepriced.sound h).mono 4
  | userDepositChanged hstep => exact (hstep.sound h hone).mono 3
  | RBTCGainWithdrawn hstep => exact (hstep.sound h hone).mono 3
  | collBalanceUpdated hstep => exact (hstep.sound h).mono 4

theorem Effects.sound (heffects : Effects normalized log w w') (h : w.Sound n)
    (hn : n + 4 * log.length < 2 ^ 31) : w'.Sound (n + 4 * log.length) := by
  induction heffects generalizing n with
  | nil w => exact h
  | @cons _ log _ _ _ heffect _ ih =>
    rw [List.length_cons] at hn ⊢
    have hsum : n + 4 + 4 * log.length = n + 4 * (log.length + 1) := by omega
    exact hsum ▸ ih (heffect.sound h (by omega)) (by omega)

theorem World.empty_sound : World.empty.Sound 0 := by
  refine ⟨World.empty_vaultsSound, ⟨fun user => Nat.le_refl 0, ⟨?_, ?_⟩, Ledger.nil⟩, Ledger.nil⟩
  · intro user id h
    cases h
  · intro id deposit h
    cases h

/-- The counters of the subgraph count what is in its tables, as long as none of them can wrap
around. -/
theorem vaults_counted (hshort : log.length < 2 ^ 29) (h : run normalized log {} = some s) :
    (getGlobal s).numberOfOpenVaults.toInt = Table.total User.withVault s.users ∧
      (getGlobal s).numberOfLiquidatedVaults.toInt =
        Table.total (Vault.counts .closedByLiquidation) s.vaults ∧
      (getGlobal s).numberOfRedeemedVaults.toInt =
        Table.total (Vault.counts .closedByRedemption) s.vaults ∧
      (getGlobal s).numberOfVaultsClosedByOwner.toInt =
        Table.total (Vault.counts .closedByOwner) s.vaults ∧
      (getGlobal s).totalNumberOfVaults.toInt = Table.total User.vaults s.users ∧
      (getGlobal s).totalNumberOfVaults.toInt =
        (getGlobal s).numberOfOpenVaults.toInt + (getGlobal s).numberOfLiquidatedVaults.toInt +
          (getGlobal s).numberOfRedeemedVaults.toInt +
          (getGlobal s).numberOfVaultsClosedByOwner.toInt := by
  obtain ⟨w, heffects, htracks⟩ := run_effects (tracks_empty normalized) h
  have hcounted := (heffects.sound World.empty_sound (by omega)).vaults.counted
  rw [← htracks.registry] at hcounted
  exact ⟨hcounted.openVaults, hcounted.liquidated, hcounted.redeemed, hcounted.closedByOwner,
    hcounted.totalVaults, hcounted.sum⟩

theorem vaults_counted_liquidation :
    ∃ s, run id testLog {} = some s ∧
      (getGlobal s).totalNumberOfVaults.toInt =
        (getGlobal s).numberOfOpenVaults.toInt + (getGlobal s).numberOfLiquidatedVaults.toInt +
          (getGlobal s).numberOfRedeemedVaults.toInt +
          (getGlobal s).numberOfVaultsClosedByOwner.toInt := by
  obtain ⟨s, h⟩ := testLog_runs
  exact ⟨s, h, (vaults_counted (by decide) h).2.2.2.2.2⟩

/-- What is saved of a vault, a deposit or a claim is where its changes in the journal lead, as long
as no id can repeat. -/
theorem entities_accounted (hshort : log.length < 2 ^ 29) (h : run normalized log {} = some s) :
    ∃ j, s.history.Records normalized j ∧
      (∀ id vault, s.vaults.lookup id = some vault →
        Trail VaultDetails.before VaultDetails.after (0, 0)
          ((j.changes.filterMap AnyChange.vault?).filter (·.vault = id))
          (vault.collateral, vault.debt)) ∧
      (∀ id deposit, s.stabilityDeposits.lookup id = some deposit →
        Trail StabilityDepositDetails.depositedAmountBefore
          StabilityDepositDetails.depositedAmountAfter 0
          ((j.changes.filterMap AnyChange.stabilityDeposit?).filter (·.stabilityDeposit = id))
          deposit.depositedAmount) ∧
      ∀ id user, s.users.lookup id = some user →
        Trail CollSurplusDetails.collSurplusBefore CollSurplusDetails.collSurplusAfter 0
          ((j.changes.filterMap AnyChange.collSurplus?).filter (·.user = id)) user.collSurplus := by
  obtain ⟨w, heffects, htracks⟩ := run_effects (tracks_empty normalized) h
  obtain ⟨hvaults, hdeposits, hclaims⟩ := heffects.sound World.empty_sound (by omega)
  have hlength : w.journal.changes.length ≤ 0 + 4 * log.length := heffects.journal.atMost
  refine ⟨w.journal, htracks.follows.records (by omega), ?_, ?_, ?_⟩
  · intro id vault hvault
    have hamounts : w.registry.amounts id = (vault.collateral, vault.debt) := by
      unfold Registry.amounts
      rw [← htracks.registry, show s.registry.vaults.lookup id = some vault from hvault]
      rfl
    exact hamounts ▸ hvaults.ledger id
  · intro id deposit hdeposit
    have hamount : w.registry.deposited id = deposit.depositedAmount := by
      unfold Registry.deposited
      rw [← htracks.registry,
        show s.registry.stabilityDeposits.lookup id = some deposit from hdeposit]
      rfl
    exact hamount ▸ hdeposits.ledger id
  · intro id user huser
    have hclaim : w.registry.claims id = user.collSurplus := by
      unfold Registry.claims
      rw [← htracks.registry]
      show ((s.users.lookup id).getD {}).collSurplus = _
      rw [huser]
      rfl
    exact hclaim ▸ hclaims id

theorem entities_accounted_liquidation :
    ∃ s j, run id testLog {} = some s ∧ s.history.Records id j ∧
      ∀ id vault, s.vaults.lookup id = some vault →
        Trail VaultDetails.before VaultDetails.after (0, 0)
          ((j.changes.filterMap AnyChange.vault?).filter (·.vault = id))
          (vault.collateral, vault.debt) := by
  obtain ⟨s, h⟩ := testLog_runs
  obtain ⟨j, hrecords, hvaults, -⟩ := entities_accounted (by decide) h
  exact ⟨s, j, h, hrecords, hvaults⟩

end MoneyProtocol.Subgraph
