import MoneyProtocol.Subgraph.Recording

/-!
# The registry of the subgraph

The users, their vaults and deposits, and the counters of the vaults. A user is entered by being
asked for, so the registry reads the users with the entity of a new user as the default. The
functions that make a change leave the registry alone, and those of the registry the journal.
-/

namespace MoneyProtocol.Subgraph

variable {normalized : ℚ → ℚ} {s s' : Store} {event : Event} {user borrower : Address}
  {transaction : Transaction} {start : ChangeStart} {systemState : SystemState}

/-- One, if the user has a vault. -/
def User.withVault (user : User) : ℤ := if user.currentVault.isSome then 1 else 0

def User.vaults (user : User) : ℤ := user.vaultCount.toInt

structure Registry where
  user : Address → User
  vaults : Table SubId Vault
  stabilityDeposits : Table SubId StabilityDeposit
  usersWithVault : ℤ
  vaultsOfUsers : ℤ
  numberOfOpenVaults : I32
  numberOfLiquidatedVaults : I32
  numberOfRedeemedVaults : I32
  numberOfVaultsClosedByOwner : I32
  totalNumberOfVaults : I32

def Store.registry (s : Store) : Registry where
  user := Table.view {} s.users
  vaults := s.vaults
  stabilityDeposits := s.stabilityDeposits
  usersWithVault := Table.total User.withVault s.users
  vaultsOfUsers := Table.total User.vaults s.users
  numberOfOpenVaults := (getGlobal s).numberOfOpenVaults
  numberOfLiquidatedVaults := (getGlobal s).numberOfLiquidatedVaults
  numberOfRedeemedVaults := (getGlobal s).numberOfRedeemedVaults
  numberOfVaultsClosedByOwner := (getGlobal s).numberOfVaultsClosedByOwner
  totalNumberOfVaults := (getGlobal s).totalNumberOfVaults

namespace Registry

def saveUser (user : Address) (entity : User) (r : Registry) : Registry :=
  { r with
    user := Function.update r.user user entity
    usersWithVault := r.usersWithVault + entity.withVault - (r.user user).withVault
    vaultsOfUsers := r.vaultsOfUsers + entity.vaults - (r.user user).vaults }

/-- The current vault of the user; a new one is entered, but not saved. -/
def enterVault (user : Address) (r : Registry) : Option (Vault × Registry) :=
  match (r.user user).currentVault with
  | none =>
    let id := SubId.mk user (r.user user).vaultCount
    let r := r.saveUser user
      { r.user user with vaultCount := (r.user user).vaultCount + 1, currentVault := some id }
    some ({ id, owner := user },
      { r with
        numberOfOpenVaults := r.numberOfOpenVaults + 1
        totalNumberOfVaults := r.totalNumberOfVaults + 1 })
  | some currentVault => (r.vaults.lookup currentVault).map fun vault => (vault, r)

/-- How the operation leaves a vault without collateral. -/
def statusOf (operation : VaultOperation) : VaultStatus :=
  if isLiquidation operation then .closedByLiquidation
  else if isRedemption operation then .closedByRedemption
  else .closedByOwner

def countClosed (status : VaultStatus) (r : Registry) : Registry :=
  let r := { r with numberOfOpenVaults := r.numberOfOpenVaults - 1 }
  match status with
  | .closedByLiquidation => { r with numberOfLiquidatedVaults := r.numberOfLiquidatedVaults + 1 }
  | .closedByRedemption => { r with numberOfRedeemedVaults := r.numberOfRedeemedVaults + 1 }
  | _ => { r with numberOfVaultsClosedByOwner := r.numberOfVaultsClosedByOwner + 1 }

/-- Saves the vault, after closing it if it has no collateral. -/
def leaveVault (operation : VaultOperation) (user : Address) (coll : ℕ) (vault : Vault)
    (r : Registry) : Registry :=
  if coll = 0 then
    let r := r.saveUser user { r.user user with currentVault := none }
    let vault := { vault with status := statusOf operation }
    { r.countClosed (statusOf operation) with vaults := r.vaults.insert vault.id vault }
  else
    { r with vaults := r.vaults.insert vault.id vault }

/-- The current deposit of the user, or a new one. -/
def enterDeposit (user : Address) (r : Registry) : StabilityDeposit × Registry :=
  match (r.user user).currentStabilityDeposit.bind r.stabilityDeposits.lookup with
  | some stabilityDeposit => (stabilityDeposit, r)
  | none =>
    let id := SubId.mk user (r.user user).stabilityDepositCount
    ({ id, owner := user }, r.saveUser user
      { r.user user with
        stabilityDepositCount := (r.user user).stabilityDepositCount + 1
        currentStabilityDeposit := some id })

/-- Saves the deposit, after closing it if nothing is left in it. -/
def leaveDeposit (user : Address) (stabilityDeposit : StabilityDeposit) (r : Registry) :
    Registry :=
  let r :=
    if stabilityDeposit.depositedAmount = 0 then
      r.saveUser user { r.user user with currentStabilityDeposit := none }
    else r
  { r with
    stabilityDeposits := r.stabilityDeposits.insert stabilityDeposit.id stabilityDeposit }

end Registry

theorem getUser_fst (user : Address) (s : Store) : (getUser user s).1 = s.registry.user user := by
  show _ = (s.users.lookup user).getD {}
  unfold getUser
  cases h : s.users.lookup user with
  | none => rfl
  | some entity => rfl

theorem saveUser_registry (user : Address) (entity : User) (s : Store) :
    (s.saveUser user entity).registry = s.registry.saveUser user entity := by
  have hopen := Table.total_save (f := User.withVault) {} rfl s.users user entity
  have hcount := Table.total_save (f := User.vaults) {} rfl s.users user entity
  unfold Store.saveUser Store.registry Registry.saveUser
  simp only [Table.view_insert, Registry.mk.injEq, true_and]
  exact ⟨eq_sub_of_add_eq hopen, eq_sub_of_add_eq hcount, rfl, rfl, rfl, rfl, rfl⟩

theorem getUser_registry (user : Address) (s : Store) :
    (getUser user s).2.registry = s.registry := by
  unfold getUser
  split
  · rfl
  · next hnew =>
    have hdefault : s.registry.user user = {} := by
      show (s.users.lookup user).getD {} = {}
      rw [hnew]
      rfl
    refine (saveUser_registry user {} s).trans ?_
    unfold Registry.saveUser
    rw [← hdefault, Function.update_eq_self, add_sub_cancel_right, add_sub_cancel_right]

theorem getUser_history (user : Address) (s : Store) : (getUser user s).2.history = s.history := by
  unfold getUser
  split <;> rfl

theorem getCurrentSystemState_registry (s : Store) :
    (getCurrentSystemState s).2.registry = s.registry := by
  unfold getCurrentSystemState
  split <;> rfl

theorem finishPriceChange_registry (start : ChangeStart) (details : PriceDetails) (s : Store) :
    (finishPriceChange start details s).registry = s.registry :=
  getCurrentSystemState_registry s

theorem finishVaultChange_registry (start : ChangeStart) (details : VaultDetails) (s : Store) :
    (finishVaultChange start details s).registry = s.registry :=
  getCurrentSystemState_registry s

theorem finishStabilityDepositChange_registry (start : ChangeStart)
    (details : StabilityDepositDetails) (s : Store) :
    (finishStabilityDepositChange start details s).registry = s.registry :=
  getCurrentSystemState_registry s

theorem finishCollSurplusChange_registry (start : ChangeStart) (details : CollSurplusDetails)
    (s : Store) : (finishCollSurplusChange start details s).registry = s.registry :=
  getCurrentSystemState_registry s

section Transactions

variable {getTransaction : Event → Store → Option (Transaction × Store)}
  (hget : ∀ {event s result}, getTransaction event s = some result →
    result.2.registry = s.registry)

include hget

theorem createChange_registry_of (h : createChange getTransaction event s = some (start, s')) :
    s'.registry = s.registry := by
  unfold createChange beginChange initChange at h
  simp only [Option.bind_eq_bind, Option.bind_eq_some_iff, Option.pure_def, Option.some.injEq] at h
  obtain ⟨_, ⟨first, hbegin, rfl⟩, second, hinit, hstart⟩ := h
  obtain ⟨-, rfl⟩ := Prod.mk.inj hstart
  calc (getCurrentSystemState second.2).2.registry = second.2.registry :=
        getCurrentSystemState_registry second.2
    _ = (getChangeSequenceNumber first.2).2.registry := hget hinit
    _ = first.2.registry := rfl
    _ = s.registry := hget hbegin

theorem checkPrice_registry_of (h : checkPrice normalized getTransaction event s = some s') :
    s'.registry = s.registry := by
  unfold checkPrice at h
  simp only [Option.bind_eq_bind, Option.bind_eq_some_iff] at h
  obtain ⟨priceFeedAddress, -, price, -, h⟩ := h
  have hcurrent := getCurrentSystemState_registry s
  split at h
  · obtain rfl := Option.some.inj h
    exact hcurrent
  · simp only [Option.bind_eq_some_iff, Option.pure_def, Option.some.injEq] at h
    obtain ⟨⟨start, s₁⟩, hcreate, rfl⟩ := h
    rw [finishPriceChange_registry]
    exact (createChange_registry_of hget hcreate).trans hcurrent

end Transactions

theorem getTransactionWithin_registry (depth : ℕ) {result : Transaction × Store}
    (h : getTransactionWithin normalized depth event s = some result) :
    result.2.registry = s.registry := by
  induction depth generalizing event s result with
  | zero => cases h
  | succ depth ih =>
    rw [getTransactionWithin] at h
    split at h
    · obtain rfl := Option.some.inj h
      rfl
    · simp only [Option.bind_eq_bind, Option.bind_eq_some_iff, Option.pure_def,
        Option.some.injEq] at h
      obtain ⟨blockNumber, -, timestamp, -, s₁, hcheck, rfl⟩ := h
      exact (checkPrice_registry_of (fun h => ih h) hcheck).trans rfl

theorem getTransaction_registry (h : getTransaction normalized event s = some (transaction, s')) :
    s'.registry = s.registry :=
  getTransactionWithin_registry 2 h

theorem createChange_registry
    (h : createChange (getTransaction normalized) event s = some (start, s')) :
    s'.registry = s.registry :=
  createChange_registry_of (fun h => getTransactionWithin_registry 2 h) h

theorem getTransaction_gets (normalized : ℚ → ℚ) : Gets normalized (getTransaction normalized) :=
  gets_within normalized 2

theorem getCurrentVaultOfOwner_effect {vault : Vault}
    (h : getCurrentVaultOfOwner user s = some (vault, s')) :
    s.registry.enterVault user = some (vault, s'.registry) ∧ s'.history = s.history := by
  unfold getCurrentVaultOfOwner at h
  unfold Registry.enterVault
  rw [← getUser_fst]
  have hregistry := getUser_registry user s
  have hhistory := getUser_history user s
  rcases hget : getUser user s with ⟨owner, s₁⟩
  rw [hget] at h hregistry hhistory
  dsimp only at h hregistry hhistory ⊢
  cases hcurrent : owner.currentVault with
  | none =>
    rw [hcurrent] at h
    obtain ⟨rfl, rfl⟩ := Prod.mk.inj (Option.some.inj h)
    refine ⟨?_, hhistory⟩
    have hsave := saveUser_registry user
      { owner with
        vaultCount := owner.vaultCount + 1
        currentVault := some ⟨user, owner.vaultCount⟩ } s₁
    rw [hregistry] at hsave
    rw [← hsave]
    rfl
  | some currentVault =>
    rw [hcurrent] at h
    simp only [Option.bind_eq_bind, Option.bind_eq_some_iff, Option.pure_def,
      Option.some.injEq] at h
    obtain ⟨vault', hlookup, hresult⟩ := h
    obtain ⟨rfl, rfl⟩ := Prod.mk.inj hresult
    rw [← hregistry]
    exact ⟨congrArg (Option.map fun vault => (vault, s₁.registry)) hlookup, hhistory⟩

end MoneyProtocol.Subgraph
