import MoneyProtocol.Library.Trail
import MoneyProtocol.Subgraph.Effects

/-!
# The vaults of the subgraph

A user has at most one current vault, a vault that was saved is open as long as it is the current
one of its owner, and the counters count users and vaults. The changes of a vault lead from an
empty vault to what is saved.
-/

namespace MoneyProtocol.Subgraph

variable {normalized : ℚ → ℚ} {w w' : World} {r r' : Registry} {j j' : Journal}
  {operation : VaultOperation} {user borrower : Address} {coll debt : ℕ} {vault updated : Vault}
  {entity : User} {status : VaultStatus} {s : Store} {n : ℕ}

/-- One, if the vault has the status. -/
def Vault.counts (status : VaultStatus) (vault : Vault) : ℤ :=
  if vault.status = status then 1 else 0

/-- The counters were raised and lowered at most `n` times. -/
structure Registry.Few (n : ℕ) (r : Registry) : Prop where
  vaults : ∀ user, (r.user user).vaultCount.toNat ≤ n
  openVaults : I32.Within n r.numberOfOpenVaults
  liquidated : I32.Within n r.numberOfLiquidatedVaults
  redeemed : I32.Within n r.numberOfRedeemedVaults
  closedByOwner : I32.Within n r.numberOfVaultsClosedByOwner
  total : I32.Within n r.totalNumberOfVaults

structure Registry.Ids (r : Registry) : Prop where
  current : ∀ user id, (r.user user).currentVault = some id →
    id.owner = user ∧ id.number.toNat < (r.user user).vaultCount.toNat
  saved : ∀ id vault, r.vaults.lookup id = some vault →
    vault.id = id ∧ vault.owner = id.owner ∧
      id.number.toNat < (r.user id.owner).vaultCount.toNat ∧
      (vault.status = .open ↔ (r.user id.owner).currentVault = some id)

/-- The vault is the current one of the user: it was saved before, or it is new. -/
structure Registry.Enters (r : Registry) (user : Address) (vault : Vault) : Prop where
  current : (r.user user).currentVault = some vault.id
  owner : vault.owner = user
  status : vault.status = .open
  lookup : r.vaults.lookup vault.id = some vault ∨
    r.vaults.lookup vault.id = none ∧ vault.collateral = 0 ∧ vault.debt = 0

theorem Registry.Few.mono (h : r.Few n) : r.Few (n + 1) :=
  ⟨fun user => Nat.le_succ_of_le (h.vaults user), h.openVaults.mono, h.liquidated.mono,
    h.redeemed.mono, h.closedByOwner.mono, h.total.mono⟩

theorem Registry.Few.enterVault (hfew : r.Few n) (hn : n + 1 < 2 ^ 31)
    (h : r.enterVault user = some (vault, r')) : r'.Few (n + 1) := by
  unfold Registry.enterVault at h
  split at h
  · obtain ⟨-, rfl⟩ := Prod.mk.inj (Option.some.inj h)
    refine ⟨?_, (hfew.openVaults.add_one hn).2, hfew.liquidated.mono, hfew.redeemed.mono,
      hfew.closedByOwner.mono, (hfew.total.add_one hn).2⟩
    intro other
    have hcount := hfew.vaults user
    by_cases hother : other = user
    · subst hother
      simp only [Registry.saveUser, Function.update_self]
      rw [I32.toNat_add_one (by omega)]
      omega
    · simp only [Registry.saveUser, Function.update_of_ne hother]
      exact Nat.le_succ_of_le (hfew.vaults other)
  · simp only [Option.map_eq_some_iff] at h
    obtain ⟨vault', -, hresult⟩ := h
    obtain ⟨-, rfl⟩ := Prod.mk.inj hresult
    exact hfew.mono

theorem Registry.Ids.enterVault (hids : r.Ids) (hfew : r.Few n) (hn : n + 1 < 2 ^ 31)
    (h : r.enterVault user = some (vault, r')) :
    r'.Ids ∧ r'.Enters user vault ∧ r'.vaults = r.vaults := by
  unfold Registry.enterVault at h
  split at h
  · next hnone =>
    obtain ⟨rfl, rfl⟩ := Prod.mk.inj (Option.some.inj h)
    have hcount := hfew.vaults user
    have hnext : ((r.user user).vaultCount + 1).toNat = (r.user user).vaultCount.toNat + 1 :=
      I32.toNat_add_one (by omega)
    have hself : ∀ entity, Function.update r.user user entity user = entity := fun _ =>
      Function.update_self ..
    refine ⟨⟨?_, ?_⟩, ⟨?_, rfl, rfl, ?_⟩, rfl⟩
    · intro other id hid
      by_cases hother : other = user
      · subst hother
        simp only [Registry.saveUser, hself] at hid ⊢
        obtain rfl := Option.some.inj hid
        rw [hnext]
        exact ⟨rfl, Nat.lt_succ_self _⟩
      · simp only [Registry.saveUser, Function.update_of_ne hother] at hid ⊢
        exact hids.current other id hid
    · intro id vault hvault
      obtain ⟨hid, howner, hnumber, hstatus⟩ := hids.saved id vault hvault
      refine ⟨hid, howner, ?_⟩
      by_cases hother : id.owner = user
      · simp only [Registry.saveUser, hother, hself] at hnumber hstatus ⊢
        rw [hnone] at hstatus
        rw [hnext]
        refine ⟨Nat.lt_succ_of_lt hnumber, ?_⟩
        constructor
        · intro hopen
          exact absurd (hstatus.mp hopen) (by simp)
        · intro hid
          rw [← Option.some.inj hid] at hnumber
          exact absurd hnumber (lt_irrefl _)
      · simp only [Registry.saveUser, Function.update_of_ne hother]
        exact ⟨hnumber, hstatus⟩
    · simp only [Registry.saveUser, hself]
    · -- A vault with the id would have a smaller number.
      refine .inr ⟨?_, rfl, rfl⟩
      by_contra hsaved
      obtain ⟨vault, hvault⟩ := Option.ne_none_iff_exists'.mp hsaved
      exact absurd (hids.saved _ vault hvault).2.2.1 (lt_irrefl _)
  · next id hsome =>
    simp only [Option.map_eq_some_iff] at h
    obtain ⟨vault', hlookup, hresult⟩ := h
    obtain ⟨rfl, rfl⟩ := Prod.mk.inj hresult
    obtain ⟨rfl, howner, -, hstatus⟩ := hids.saved id vault' hlookup
    obtain ⟨hid, -⟩ := hids.current user vault'.id hsome
    rw [hid] at howner hstatus
    exact ⟨hids, ⟨hsome, howner, hstatus.mpr hsome, .inl hlookup⟩, rfl⟩

theorem Registry.statusOf_ne_open (operation : VaultOperation) : statusOf operation ≠ .open := by
  unfold statusOf
  split_ifs <;> simp

/-- The tables after a vault was left: the vault is saved, and its owner keeps it if it is open. -/
theorem Registry.leaveVault_tables (r : Registry) (operation : VaultOperation) (user : Address)
    (coll : ℕ) (vault : Vault) :
    ∃ status owner,
      (r.leaveVault operation user coll vault).vaults =
        r.vaults.insert vault.id { vault with status } ∧
      (r.leaveVault operation user coll vault).user = Function.update r.user user owner ∧
      owner.vaultCount = (r.user user).vaultCount ∧
      (status = vault.status ∧ owner.currentVault = (r.user user).currentVault ∨
        status ≠ .open ∧ owner.currentVault = none) := by
  unfold Registry.leaveVault
  split_ifs
  · refine ⟨statusOf operation, { r.user user with currentVault := none }, rfl, ?_, rfl, ?_⟩
    · cases statusOf operation <;> rfl
    · exact .inr ⟨statusOf_ne_open operation, rfl⟩
  · exact ⟨vault.status, r.user user, rfl, (Function.update_eq_self _ _).symm, rfl,
      .inl ⟨rfl, rfl⟩⟩

theorem Registry.Ids.leaveVault (hids : r.Ids) (henters : r.Enters user vault)
    (hid : updated.id = vault.id) (howner : updated.owner = vault.owner)
    (hstatus : updated.status = vault.status) :
    (r.leaveVault operation user coll updated).Ids := by
  obtain ⟨status, owner, hvaults, huser, hcount, hcurrent⟩ :=
    r.leaveVault_tables operation user coll updated
  obtain ⟨hidOwner, hidNumber⟩ := hids.current user vault.id henters.current
  refine ⟨?_, ?_⟩
  · intro other id hother
    rw [huser] at hother ⊢
    by_cases heq : other = user
    · subst heq
      rw [Function.update_self] at hother ⊢
      rw [hcount]
      rcases hcurrent with ⟨-, hcurrent⟩ | ⟨-, hcurrent⟩
      · exact hids.current other id (hcurrent ▸ hother)
      · rw [hcurrent] at hother
        cases hother
    · rw [Function.update_of_ne heq] at hother ⊢
      exact hids.current other id hother
  · intro id saved hsaved
    rw [hvaults] at hsaved
    rw [huser]
    by_cases heq : id = updated.id
    · subst heq
      rw [AList.lookup_insert] at hsaved
      obtain rfl := Option.some.inj hsaved
      rw [hid, hidOwner, Function.update_self, hcount]
      refine ⟨rfl, howner.trans henters.owner, hidNumber, ?_⟩
      rcases hcurrent with ⟨hsame, hcurrent⟩ | ⟨hclosed, hcurrent⟩
      · rw [hcurrent, henters.current]
        exact ⟨fun _ => rfl, fun _ => hsame.trans (hstatus.trans henters.status)⟩
      · rw [hcurrent]
        exact ⟨fun hopen => absurd hopen hclosed, fun hnone => by cases hnone⟩
    · rw [AList.lookup_insert_ne heq] at hsaved
      obtain ⟨hsavedId, hsavedOwner, hnumber, hopen⟩ := hids.saved id saved hsaved
      by_cases hother : id.owner = user
      · rw [hother] at hnumber hopen
        rw [hother, Function.update_self, hcount]
        refine ⟨hsavedId, hsavedOwner.trans hother, hnumber, ?_⟩
        -- It is not the current vault, neither before nor after.
        have hne : some vault.id ≠ some id := by
          intro hsome
          exact heq (hid.trans (Option.some.inj hsome)).symm
        have hclosed : saved.status ≠ .open := by
          intro hsavedOpen
          exact hne (henters.current.symm.trans (hopen.mp hsavedOpen))
        refine ⟨fun hsavedOpen => absurd hsavedOpen hclosed, ?_⟩
        rcases hcurrent with ⟨-, hcurrent⟩ | ⟨-, hcurrent⟩
        · rw [hcurrent, henters.current]
          intro hsome
          exact absurd hsome hne
        · rw [hcurrent]
          intro hnone
          cases hnone
      · rw [Function.update_of_ne hother]
        exact ⟨hsavedId, hsavedOwner, hnumber, hopen⟩

structure Registry.Counted (r : Registry) : Prop where
  openVaults : r.numberOfOpenVaults.toInt = r.usersWithVault
  totalVaults : r.totalNumberOfVaults.toInt = r.vaultsOfUsers
  liquidated : r.numberOfLiquidatedVaults.toInt =
    Table.total (Vault.counts .closedByLiquidation) r.vaults
  redeemed : r.numberOfRedeemedVaults.toInt =
    Table.total (Vault.counts .closedByRedemption) r.vaults
  closedByOwner : r.numberOfVaultsClosedByOwner.toInt =
    Table.total (Vault.counts .closedByOwner) r.vaults
  sum : r.totalNumberOfVaults.toInt = r.numberOfOpenVaults.toInt +
    r.numberOfLiquidatedVaults.toInt + r.numberOfRedeemedVaults.toInt +
    r.numberOfVaultsClosedByOwner.toInt

theorem Registry.Counted.enterVault (hcounted : r.Counted) (hfew : r.Few n) (hn : n + 1 < 2 ^ 31)
    (h : r.enterVault user = some (vault, r')) : r'.Counted := by
  unfold Registry.enterVault at h
  split at h
  · next hnone =>
    obtain ⟨-, rfl⟩ := Prod.mk.inj (Option.some.inj h)
    have hcount := hfew.vaults user
    have hopen := (hfew.openVaults.add_one hn).1
    have htotal := (hfew.total.add_one hn).1
    have hnext : ((r.user user).vaultCount + 1).toInt = (r.user user).vaultCount.toInt + 1 := by
      rw [I32.toInt_eq_toNat (x := (r.user user).vaultCount) (by omega),
        I32.toInt_eq_toNat (by rw [I32.toNat_add_one (by omega)]; omega),
        I32.toNat_add_one (by omega), Nat.cast_succ]
    refine ⟨?_, ?_, hcounted.liquidated, hcounted.redeemed, hcounted.closedByOwner, ?_⟩
    · show (r.numberOfOpenVaults + 1).toInt = r.usersWithVault + 1 - (r.user user).withVault
      rw [hopen, hcounted.openVaults, User.withVault, hnone]
      simp
    · show (r.totalNumberOfVaults + 1).toInt = r.vaultsOfUsers +
        ((r.user user).vaultCount + 1).toInt - (r.user user).vaultCount.toInt
      rw [htotal, hnext, hcounted.totalVaults]
      ring
    · simp only [Registry.saveUser]
      rw [hopen, htotal, hcounted.sum]
      ring
  · simp only [Option.map_eq_some_iff] at h
    obtain ⟨vault', -, hresult⟩ := h
    obtain ⟨-, rfl⟩ := Prod.mk.inj hresult
    exact hcounted

/-- The vault that is saved was open, or is new, so only its status now counts. -/
theorem Registry.Enters.total_insert (henters : r.Enters user vault) (updated : Vault)
    (hid : updated.id = vault.id) (hstatus : status ≠ .open) :
    Table.total (Vault.counts status) (r.vaults.insert updated.id updated) =
      Table.total (Vault.counts status) r.vaults + updated.counts status := by
  have htotal := Table.total_insert (Vault.counts status) r.vaults updated.id updated
  have hshare : Table.share (Vault.counts status) r.vaults updated.id = 0 := by
    rw [hid]
    rcases henters.lookup with hlookup | ⟨hlookup, -⟩
    · rw [Table.share_of_lookup hlookup, Vault.counts, henters.status, if_neg hstatus.symm]
    · exact Table.share_of_new hlookup
  rwa [hshare, add_zero] at htotal

theorem VaultStatus.closed_once (hstatus : status ≠ .open) :
    (if status = .closedByLiquidation then 1 else 0) +
      (if status = .closedByRedemption then 1 else 0) +
      (if status = .closedByOwner then 1 else 0) = (1 : ℤ) := by
  cases status with
  | «open» => exact absurd rfl hstatus
  | closedByOwner => rfl
  | closedByLiquidation => rfl
  | closedByRedemption => rfl

/-- One counter goes up with the status that the vault gets. -/
theorem Registry.countClosed_counters (r : Registry) (hstatus : status ≠ .open) :
    (r.countClosed status).numberOfOpenVaults = r.numberOfOpenVaults - 1 ∧
      (r.countClosed status).numberOfLiquidatedVaults =
        r.numberOfLiquidatedVaults + (if status = .closedByLiquidation then 1 else 0) ∧
      (r.countClosed status).numberOfRedeemedVaults =
        r.numberOfRedeemedVaults + (if status = .closedByRedemption then 1 else 0) ∧
      (r.countClosed status).numberOfVaultsClosedByOwner =
        r.numberOfVaultsClosedByOwner + (if status = .closedByOwner then 1 else 0) := by
  cases status with
  | «open» => exact absurd rfl hstatus
  | closedByOwner => simp [countClosed]
  | closedByLiquidation => simp [countClosed]
  | closedByRedemption => simp [countClosed]

theorem Registry.countClosed_rest (r : Registry) (status : VaultStatus) :
    (r.countClosed status).usersWithVault = r.usersWithVault ∧
      (r.countClosed status).vaultsOfUsers = r.vaultsOfUsers ∧
      (r.countClosed status).totalNumberOfVaults = r.totalNumberOfVaults := by
  cases status <;> exact ⟨rfl, rfl, rfl⟩

theorem Registry.Few.leaveVault (hfew : r.Few n) (hn : n + 1 < 2 ^ 31) :
    (r.leaveVault operation user coll vault).Few (n + 1) := by
  obtain ⟨status, owner, -, huser, hcount, -⟩ := r.leaveVault_tables operation user coll vault
  have hvaults : ∀ other,
      ((r.leaveVault operation user coll vault).user other).vaultCount.toNat ≤ n + 1 := by
    intro other
    rw [huser]
    by_cases hother : other = user
    · rw [hother, Function.update_self, hcount]
      exact Nat.le_succ_of_le (hfew.vaults user)
    · rw [Function.update_of_ne hother]
      exact Nat.le_succ_of_le (hfew.vaults other)
  unfold Registry.leaveVault at hvaults ⊢
  by_cases hcoll : coll = 0
  · rw [if_pos hcoll] at hvaults ⊢
    obtain ⟨-, -, htotal⟩ := (r.saveUser user
      { r.user user with currentVault := none }).countClosed_rest (statusOf operation)
    obtain ⟨hopens, hliquidates, hredeems, hcloses⟩ := (r.saveUser user
      { r.user user with currentVault := none }).countClosed_counters (statusOf_ne_open operation)
    refine ⟨hvaults, ?_, ?_, ?_, ?_, ?_⟩
    · exact hopens ▸ (hfew.openVaults.sub_one hn).2
    · exact hliquidates ▸ (hfew.liquidated.add_if hn).2
    · exact hredeems ▸ (hfew.redeemed.add_if hn).2
    · exact hcloses ▸ (hfew.closedByOwner.add_if hn).2
    · exact htotal ▸ hfew.total.mono
  · rw [if_neg hcoll] at hvaults ⊢
    exact ⟨hvaults, hfew.openVaults.mono, hfew.liquidated.mono, hfew.redeemed.mono,
      hfew.closedByOwner.mono, hfew.total.mono⟩

theorem Registry.Counted.leaveVault (hcounted : r.Counted) (hfew : r.Few n) (hn : n + 1 < 2 ^ 31)
    (henters : r.Enters user vault) (hid : updated.id = vault.id)
    (hstatus : updated.status = vault.status) :
    (r.leaveVault operation user coll updated).Counted := by
  have hopen : updated.status = .open := hstatus.trans henters.status
  have hliquidated := hcounted.liquidated
  have hredeemed := hcounted.redeemed
  have hclosed := hcounted.closedByOwner
  have hsum := hcounted.sum
  unfold Registry.leaveVault
  split_ifs
  · have hclosedNe := Registry.statusOf_ne_open operation
    have hwith : (r.user user).withVault = 1 := by
      simp [User.withVault, henters.current]
    have htotals : ∀ status : VaultStatus, status ≠ .open → Table.total (Vault.counts status)
        (r.vaults.insert updated.id { updated with status := statusOf operation }) =
        Table.total (Vault.counts status) r.vaults +
          if statusOf operation = status then 1 else 0 := by
      intro status hne
      exact henters.total_insert { updated with status := statusOf operation } hid hne
    have hleft : (r.saveUser user { r.user user with currentVault := none }).usersWithVault =
        r.usersWithVault - 1 := by
      show r.usersWithVault + 0 - (r.user user).withVault = _
      rw [hwith, add_zero]
    have hcount : (r.saveUser user { r.user user with currentVault := none }).vaultsOfUsers =
        r.vaultsOfUsers := by
      simp [Registry.saveUser, User.vaults]
    obtain ⟨hwithClosed, hvaultsClosed, htotalClosed⟩ := (r.saveUser user
      { r.user user with currentVault := none }).countClosed_rest (statusOf operation)
    obtain ⟨hopens, hliquidates, hredeems, hcloses⟩ := (r.saveUser user
      { r.user user with currentVault := none }).countClosed_counters hclosedNe
    rw [hleft] at hwithClosed
    rw [hcount] at hvaultsClosed
    have hopens : _ = r.numberOfOpenVaults.toInt - 1 :=
      (congrArg BitVec.toInt hopens).trans (hfew.openVaults.sub_one hn).1
    have htotalClosed : _ = r.totalNumberOfVaults.toInt := congrArg BitVec.toInt htotalClosed
    have hliquidates : _ = r.numberOfLiquidatedVaults.toInt + _ :=
      (congrArg BitVec.toInt hliquidates).trans (hfew.liquidated.add_if hn).1
    have hredeems : _ = r.numberOfRedeemedVaults.toInt + _ :=
      (congrArg BitVec.toInt hredeems).trans (hfew.redeemed.add_if hn).1
    have hcloses : _ = r.numberOfVaultsClosedByOwner.toInt + _ :=
      (congrArg BitVec.toInt hcloses).trans (hfew.closedByOwner.add_if hn).1
    refine ⟨?_, ?_, ?_, ?_, ?_, ?_⟩
    · exact hopens.trans ((congrArg (· - 1) hcounted.openVaults).trans hwithClosed.symm)
    · exact htotalClosed.trans (hcounted.totalVaults.trans hvaultsClosed.symm)
    · exact hliquidates.trans ((congrArg (· + _) hliquidated).trans (htotals _ (by simp)).symm)
    · exact hredeems.trans ((congrArg (· + _) hredeemed).trans (htotals _ (by simp)).symm)
    · exact hcloses.trans ((congrArg (· + _) hclosed).trans (htotals _ (by simp)).symm)
    · dsimp only
      rw [hopens, htotalClosed, hliquidates, hredeems, hcloses, hsum]
      linarith [VaultStatus.closed_once hclosedNe]
  · refine ⟨hcounted.openVaults, hcounted.totalVaults, ?_, ?_, ?_, hsum⟩
    all_goals
      show _ = Table.total _ (r.vaults.insert updated.id updated)
      rw [henters.total_insert updated hid (by simp), Vault.counts, hopen]
      simpa

def VaultDetails.before (d : VaultDetails) : ℚ × ℚ := (d.collateralBefore, d.debtBefore)

def VaultDetails.after (d : VaultDetails) : ℚ × ℚ := (d.collateralAfter, d.debtAfter)

/-- The collateral and the debt of a vault that was saved; others are empty. -/
def Registry.amounts (r : Registry) (id : SubId) : ℚ × ℚ :=
  ((r.vaults.lookup id).map fun vault => (vault.collateral, vault.debt)).getD (0, 0)

/-- The vaults are sound after at most `n` steps of their counters. -/
structure World.VaultsSound (n : ℕ) (w : World) : Prop where
  few : w.registry.Few n
  ids : w.registry.Ids
  counted : w.registry.Counted
  ledger : Ledger VaultDetails.vault VaultDetails.before VaultDetails.after (0, 0)
    w.registry.amounts (w.journal.changes.filterMap AnyChange.vault?)

/-- What the vaults are about is the same. -/
structure Registry.SameVaults (r r' : Registry) : Prop where
  user : ∀ user, ((r'.user user).currentVault, (r'.user user).vaultCount) =
    ((r.user user).currentVault, (r.user user).vaultCount)
  vaults : r'.vaults = r.vaults
  few : ∀ n, r.Few n → r'.Few n
  counted : r.Counted → r'.Counted

theorem Registry.SameVaults.refl (r : Registry) : r.SameVaults r :=
    ⟨fun _ => rfl, rfl, fun _ => id, id⟩

theorem Registry.SameVaults.trans {r'' : Registry} (h : r.SameVaults r') (h' : r'.SameVaults r'') :
    r.SameVaults r'' :=
  ⟨fun user => (h'.user user).trans (h.user user), h'.vaults.trans h.vaults,
    fun n => h'.few n ∘ h.few n, h'.counted ∘ h.counted⟩

/-- An entity with the same vaults makes no difference to them. -/
theorem Registry.saveUser_sameVaults (r : Registry) (user : Address) (entity : User)
    (hcurrent : entity.currentVault = (r.user user).currentVault)
    (hcount : entity.vaultCount = (r.user user).vaultCount) :
    r.SameVaults (r.saveUser user entity) := by
  have hsame : ∀ other, ((r.saveUser user entity).user other).currentVault =
      (r.user other).currentVault ∧
      ((r.saveUser user entity).user other).vaultCount = (r.user other).vaultCount := by
    intro other
    unfold Registry.saveUser
    by_cases h : other = user
    · subst h
      simp only [Function.update_self, hcurrent, hcount, and_self]
    · simp only [Function.update_of_ne h, and_self]
  refine ⟨fun other => Prod.ext (hsame other).1 (hsame other).2, rfl, ?_, ?_⟩
  · intro n hfew
    exact { hfew with vaults := fun other => (hsame other).2 ▸ hfew.vaults other }
  · intro hcounted
    have hwith : entity.withVault = (r.user user).withVault := by
      unfold User.withVault
      rw [hcurrent]
    have hvaults : entity.vaults = (r.user user).vaults := by
      unfold User.vaults
      rw [hcount]
    refine { hcounted with openVaults := ?_, totalVaults := ?_ }
    · simp only [Registry.saveUser, hwith, add_sub_cancel_right]
      exact hcounted.openVaults
    · simp only [Registry.saveUser, hvaults, add_sub_cancel_right]
      exact hcounted.totalVaults

theorem Registry.enterDeposit_sameVaults {deposit : StabilityDeposit}
    (h : r.enterDeposit user = (deposit, r')) : r.SameVaults r' := by
  unfold Registry.enterDeposit at h
  split at h
  · obtain ⟨-, rfl⟩ := Prod.mk.inj h
    exact .refl r
  · obtain ⟨-, rfl⟩ := Prod.mk.inj h
    exact saveUser_sameVaults _ _ _ rfl rfl

theorem Registry.leaveDeposit_sameVaults (r : Registry) (user : Address)
    (deposit : StabilityDeposit) : r.SameVaults (r.leaveDeposit user deposit) := by
  unfold Registry.leaveDeposit
  split_ifs
  · have hsame := r.saveUser_sameVaults user
      { r.user user with currentStabilityDeposit := none } rfl rfl
    exact ⟨hsame.user, hsame.vaults, fun n h => { hsame.few n h with },
      fun h => { hsame.counted h with }⟩
  · exact ⟨fun _ => rfl, rfl, fun _ h => { h with }, fun h => { h with }⟩

theorem World.VaultsSound.of_same (h : w.VaultsSound n)
    (hsame : w.registry.SameVaults w'.registry)
    (hchanges : w'.journal.changes.filterMap AnyChange.vault? =
      w.journal.changes.filterMap AnyChange.vault?) : w'.VaultsSound n := by
  have hcurrent : ∀ user, (w'.registry.user user).currentVault =
      (w.registry.user user).currentVault := fun user => congrArg Prod.fst (hsame.user user)
  have hcount : ∀ user, (w'.registry.user user).vaultCount =
      (w.registry.user user).vaultCount := fun user => congrArg Prod.snd (hsame.user user)
  refine ⟨hsame.few n h.few, ⟨?_, ?_⟩, hsame.counted h.counted, ?_⟩
  · intro user id hid
    rw [hcurrent] at hid
    rw [hcount]
    exact h.ids.current user id hid
  · intro id vault hvault
    rw [hsame.vaults] at hvault
    rw [hcurrent, hcount]
    exact h.ids.saved id vault hvault
  · unfold Registry.amounts
    rw [hchanges, hsame.vaults]
    exact h.ledger

theorem SurplusStep.vaultsSound {amount : ℕ} (h : SurplusStep normalized borrower amount w w')
    (hsound : w.VaultsSound n) : w'.VaultsSound n := by
  cases h with
  | unchanged hsame => exact hsound
  | changed hrepriced hdetails =>
    refine hsound.of_same (Registry.saveUser_sameVaults _ _ _ rfl rfl) ?_
    rw [Journal.snoc, List.filterMap_append, hrepriced.vaults]
    exact List.append_nil _

theorem DepositStep.vaultsSound (h : DepositStep normalized user w w')
    (hsound : w.VaultsSound n) : w'.VaultsSound n := by
  cases h with
  | unchanged => exact hsound
  | changed hdeposit hrepriced hid hbefore hafter =>
    refine hsound.of_same
      ((Registry.enterDeposit_sameVaults hdeposit).trans
        (Registry.leaveDeposit_sameVaults _ _ _)) ?_
    rw [Journal.snoc, List.filterMap_append, hrepriced.vaults]
    exact List.append_nil _

theorem VaultStep.vaultsSound (h : VaultStep normalized operation borrower coll debt w w')
    (hsound : w.VaultsSound n) (hn : n + 2 < 2 ^ 31) : w'.VaultsSound (n + 2) := by
  have hn₁ := Nat.lt_of_succ_lt hn
  cases h with
  | @unchanged vault r hvault hsame =>
    obtain ⟨hids, -, htables⟩ := hsound.ids.enterVault hsound.few hn₁ hvault
    have hamounts : r.amounts = w.registry.amounts := by
      unfold Registry.amounts
      rw [htables]
    exact ⟨(hsound.few.enterVault hn₁ hvault).mono, hids,
      hsound.counted.enterVault hsound.few hn₁ hvault, hamounts ▸ hsound.ledger⟩
  | @changed vault updated r j change after stake a b hvault hrepriced hid hop hbefore hafter
      hupdated =>
    obtain ⟨hids, henters, htables⟩ := hsound.ids.enterVault hsound.few hn₁ hvault
    have hfew := hsound.few.enterVault hn₁ hvault
    have hupdatedId : updated.id = vault.id := by
      rw [hupdated]
      rfl
    have howner : updated.owner = vault.owner := by
      rw [hupdated]
      rfl
    have hstatus : updated.status = vault.status := by
      rw [hupdated]
      rfl
    have hsource : change.details.before = w.registry.amounts change.details.vault := by
      rw [hid, Registry.amounts, ← htables]
      rcases henters.lookup with hlookup | ⟨hlookup, hcoll, hdebt⟩
      · rw [hlookup]
        exact hbefore
      · rw [hlookup, VaultDetails.before, hbefore, hcoll, hdebt]
        rfl
    obtain ⟨status, owner, hvaults, -⟩ := r.leaveVault_tables operation borrower coll updated
    refine ⟨hfew.leaveVault hn, hids.leaveVault henters hupdatedId howner hstatus,
      (hsound.counted.enterVault hsound.few hn₁ hvault).leaveVault hfew hn henters hupdatedId
        hstatus, ?_⟩
    have hledger := hsound.ledger.snoc hsource
    have hplace : (r.leaveVault operation borrower coll updated).amounts =
        Function.update w.registry.amounts change.details.vault change.details.after := by
      funext id
      rw [Registry.amounts, hvaults, hupdatedId, htables, hid]
      by_cases heq : id = vault.id
      · subst heq
        rw [AList.lookup_insert, Function.update_self, hupdated]
        exact hafter.symm
      · rw [AList.lookup_insert_ne heq, Function.update_of_ne heq]
        rfl
    rw [Journal.snoc, List.filterMap_append, hrepriced.vaults, hplace]
    exact hledger

theorem World.empty_vaultsSound : World.empty.VaultsSound 0 := by
  have hzero := I32.within_zero 0
  refine ⟨⟨fun user => Nat.le_refl 0, hzero, hzero, hzero, hzero, hzero⟩, ⟨?_, ?_⟩,
    ⟨rfl, rfl, rfl, rfl, rfl, rfl⟩, Ledger.nil⟩
  · intro user id h
    cases h
  · intro id vault h
    cases h

end MoneyProtocol.Subgraph
