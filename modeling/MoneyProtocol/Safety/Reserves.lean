import MoneyProtocol.Safety.Balances
import MoneyProtocol.Safety.Membership
import MoneyProtocol.Accounting.Frames

/-!
# Reserves

Every active vault owes at least the minimum, the Gas Pool holds a reserve of 200 BPD for
each of them, and the Stability Pool holds its deposits. So the reserve of a vault can be
burned or paid out whenever the vault is closed, and an offset can burn the deposits it uses.
-/

namespace MoneyProtocol

open Outcome Book PointSum MoneypBase VaultManager

variable {d : Deployment} {s s' s₁ s₂ : State} {block : Block} {xs : List Address} {a : Address}
  {v : ℕ}

theorem Deployment.gasPool_ne_zero (d : Deployment) : d.gasPool ≠ 0 :=
  fun he => d.nonzero (he ▸ d.gasPool_mem)

theorem Deployment.stabilityPool_ne_zero (d : Deployment) : d.stabilityPool ≠ 0 :=
  fun he => d.nonzero (he ▸ d.stabilityPool_mem)

/-- What somebody holds can be burned. -/
theorem BPDToken.burn_succeeds (ha : a ≠ 0) (hv : v ≤ s.bpdToken.balances a)
    (hsupply : v ≤ s.bpdToken.totalSupply) : ∃ s', burn a v s = .ok s' := by
  simp only [burn, bind_ok, assert_ok, SafeMath.subWith_ok, SafeMath.sub_ok, pure_ok]
  exact ⟨_, (), ha, _, ⟨hv, rfl⟩, _, ⟨hsupply, rfl⟩, rfl⟩

/-- What somebody holds can be sent, as all balances together fit in a word. -/
theorem BPDToken._transfer_succeeds {b : Address} (ha : a ≠ 0) (hb : b ≠ 0)
    (htoken : s.ledger d .token = 0) (hsupply : s.bpdToken.totalSupply < 2 ^ 256)
    (hv : v ≤ s.bpdToken.balances a) : ∃ s', _transfer a b v s = .ok s' := by
  have hsum := total_move (b := b) hv
  have hle := le_total id (move a b v s.bpdToken.balances) b
  simp only [State.ledger, id_eq] at htoken hle
  have hroom : move a b v s.bpdToken.balances b < 2 ^ 256 := by omega
  simp only [move, Function.update_self] at hroom
  simp only [_transfer, bind_ok, assert_ok, SafeMath.subWith_ok, SafeMath.add_ok, pure_ok]
  exact ⟨_, (), ha, (), hb, _, ⟨hv, rfl⟩, _, ⟨hroom, rfl⟩, rfl⟩

/-- The Gas Pool holds the reserves that its account shows. -/
theorem reserve_le (h : v ≤ s.ledger d .reserve) : v ≤ s.bpdToken.balances d.gasPool := by
  simp only [State.ledger] at h
  have hreserves : (0 : ℤ) ≤ BPD_GAS_COMPENSATION * s.vaultManager.vaultOwners.length := by
    positivity
  omega

theorem callWithValue_bpdToken {caller recipient : Address}
    (h : callWithValue d caller recipient v s = .ok s') : s'.bpdToken = s.bpdToken := by
  obtain ⟨-, h⟩ := callWithValue_ok.mp h
  rcases receive_ok h with ⟨-, -, rfl⟩ | ⟨-, -, rfl⟩ | ⟨-, -, rfl⟩ | ⟨-, -, rfl⟩ |
    ⟨-, -, -, -, rfl⟩
  all_goals rfl

theorem ActivePool.sendRBTC_bpdToken (h : ActivePool.sendRBTC d a v s = .ok s') :
    s'.bpdToken = s.bpdToken := by
  simp only [ActivePool.sendRBTC, bind_ok] at h
  obtain ⟨_, -, h⟩ := h
  exact (callWithValue_bpdToken h).trans rfl

namespace StabilityPool

theorem offsetUntilBurn_bpdToken {debt coll : ℕ} (h : offsetUntilBurn block debt coll s = .ok s') :
    s'.bpdToken = s.bpdToken := by
  simp only [offsetUntilBurn, updateRewardSumAndProduct, ActivePool.decreaseBPDDebt, decreaseBPD,
    bind_ok, pure_ok] at h
  obtain ⟨_, hissue, r, -, _, ⟨_, -, _, -, _, -, _, -, _, -, _, -, rfl⟩, _, ⟨_, -, rfl⟩, _, -,
    rfl⟩ := h
  obtain ⟨_, _, _, rfl⟩ := triggerMPIssuance_ok hissue
  rfl

/-- An offset burns BPD and mints none. -/
theorem offset_supply_le {debt coll : ℕ} (h : offset d block debt coll s = .ok s') :
    s'.bpdToken.totalSupply ≤ s.bpdToken.totalSupply := by
  rw [offset_eq] at h
  split_ifs at h
  · rw [pure_ok.mp h]
  · simp only [bind_ok] at h
    obtain ⟨s₁, huntil, s₂, hburn, hsend⟩ := h
    obtain ⟨-, -, -, rfl⟩ := BPDToken.burn_ok hburn
    rw [ActivePool.sendRBTC_bpdToken hsend, ← offsetUntilBurn_bpdToken huntil]
    exact Nat.sub_le _ _

end StabilityPool

namespace VaultManager

theorem settleUntilPayout_supply_le {totals : LiquidationTotals}
    (h : settleUntilPayout d block totals s = .ok s') :
    s'.bpdToken.totalSupply ≤ s.bpdToken.totalSupply := by
  simp only [settleUntilPayout, bind_ok, ite_pure_ok, pure_ok] at h
  obtain ⟨_, -, t₁, hoffset, t₂, hredistribute, t₃, hsurplus, t₄, hsnapshots, _, -, _, -, rfl⟩ := h
  have h₃ : t₃.bpdToken = t₂.bpdToken := by
    rcases hsurplus with ⟨-, hsurplus⟩ | ⟨-, rfl⟩
    · exact ActivePool.sendRBTC_bpdToken hsurplus
    · rfl
  have h₄ : t₄.bpdToken = t₃.bpdToken := by
    obtain ⟨_, rfl⟩ := updateSystemSnapshots_excludeCollRemainder_ok hsnapshots
    rfl
  rw [h₄, h₃, bpdToken_of_aside (redistributeDebtAndColl_aside hredistribute)]
  exact StabilityPool.offset_supply_le hoffset

end VaultManager

/-- The loop of a liquidation leaves the BPD where it was, and tallies what it took. -/
theorem liquidationLoop_tallied {t : Transaction} {l : LiquidationLoop} (hs : Balanced d s)
    (h : t.liquidationLoop d s = .ok l) : ∃ s₀, Tallied d s₀ l ∧ s₀.ledger d = s.ledger d ∧
      l.state.bpdToken.totalSupply < 2 ^ 256 := by
  have hloop {collLeft : ℕ → LiquidationValues → Outcome ℕ} {block : Block}
      (h : ∃ price l₀ s₀ recovery, PriceFeed.fetchPrice block s = .ok (price, s₀) ∧
        checkRecoveryMode price s₀ = .ok recovery ∧ l₀.state = s₀ ∧ Tallied d s₀ l₀ ∧
        Relation.ReflTransGen (LoopStep collLeft d price) l₀ l) :
      ∃ s₀, Tallied d s₀ l ∧ s₀.ledger d = s.ledger d ∧
        l.state.bpdToken.totalSupply < 2 ^ 256 := by
    obtain ⟨price, l₀, s₀, recovery, hprice, hrecovery, hstate, htallied, hloop⟩ := h
    refine ⟨s₀, loop_tallied hloop htallied, PriceFeed.fetchPrice_ledger hprice, ?_⟩
    obtain ⟨_, rfl⟩ := PriceFeed.fetchPrice_ok hprice
    rw [bpdToken_of_aside (loop_aside hloop), hstate]
    simp only [checkRecoveryMode, getTCR, getEntireSystemDebt, bind_ok, SafeMath.add_ok]
      at hrecovery
    obtain ⟨_, ⟨_, -, _, ⟨hroom, -⟩, -⟩, -⟩ := hrecovery
    rw [hs.supply_eq]
    exact hroom
  unfold Transaction.liquidationLoop at h
  split at h
  · exact hloop (batchLiquidateVaultsLoop_ok h)
  · exact hloop (liquidateVaultsLoop_ok h)
  · exact hloop (batchLiquidateVaultsLoop_ok h)
  · simp at h

/-- What a run of transactions keeps in reserve. The functions ending in `UntilReserve`,
`UntilPayout` and `UntilBurn` are the functions of the contracts cut off at the point where a
reserve is burned or paid, or where deposits are burned. -/
structure Reserved (d : Deployment) (s : State) : Prop where
  debt : ∀ a, s.Active a → MIN_NET_DEBT + BPD_GAS_COMPENSATION ≤ (s.vault a).debt
  reserve : BPD_GAS_COMPENSATION * s.activeVaults.card ≤ s.bpdToken.balances d.gasPool
  deposit : s.bpdToken.balances d.stabilityPool = s.stabilityPool.totalBPDDeposits
  close : ∀ block a coll s₁, d.External a →
    BorrowerOperations.closeVaultUntilReserve d block a s = .ok (coll, s₁) →
    ∃ s₂, BorrowerOperations.repayBPD d.gasPool BPD_GAS_COMPENSATION s₁ = .ok s₂
  redeem : ∀ block price s₀ hints n first amount t s₁ a s₂,
    PriceFeed.fetchPrice block s = .ok (price, s₀) →
    redeemLoop d price hints n first ⟨amount, 0, 0⟩ s₀ = .ok (t, s₁) →
    redeemFullyUntilReserve a s₁ = .ok s₂ →
    ∃ s₃, BPDToken.burn d.gasPool BPD_GAS_COMPENSATION s₂ = .ok s₃
  liquidate : ∀ (t : Transaction) l s₁, t.Signed d → t.liquidationLoop d s = .ok l →
    settleUntilPayout d t.block l.totals l.state = .ok s₁ →
    ∃ s₂, BPDToken.returnFromPool d.gasPool t.sender l.totals.totalBPDGasCompensation s₁ = .ok s₂
  offset : ∀ (t : Transaction) l s₁, t.liquidationLoop d s = .ok l →
    StabilityPool.offsetUntilBurn t.block l.totals.totalDebtToOffset l.totals.totalCollToSendToSP
      l.state = .ok s₁ →
    ∃ s₂, BPDToken.burn d.stabilityPool l.totals.totalDebtToOffset s₁ = .ok s₂

/-- Every reserve is there when it is needed, and so are the deposits that an offset uses. -/
theorem reserves_cover (h : Reachable d s) : Reserved d s := by
  obtain ⟨xs, hxs⟩ := h.registry
  have hs := h.balanced
  have hcard : s.activeVaults.card = s.vaultManager.vaultOwners.length := by
    have hnodup : s.vaultManager.vaultOwners.Nodup := hxs.indexed.nodup
    have hset : s.activeVaults = s.vaultManager.vaultOwners.toFinset := by
      ext a
      rw [State.mem_activeVaults, List.mem_toFinset]
      exact (hxs.mem_owners_iff a).symm
    rw [hset, List.toFinset_card_of_nodup hnodup]
  constructor
  · intro a hactive
    exact (hxs.funded a ((hxs.active a).mp hactive)).2
  · have hreserve := hs.reserve
    simp only [State.ledger] at hreserve
    rw [hcard]
    exact_mod_cast (sub_nonneg.mp hreserve)
  · have hdeposit := hs.deposit
    simp only [State.ledger] at hdeposit
    omega
  · intro block a coll s₁ ha huntil
    have hledger := BorrowerOperations.closeVaultUntilReserve_ledger ha huntil
    have hreserve := congrFun hledger .reserve
    have htoken := congrFun hledger .token
    have hdebt := congrFun hledger .debt
    simp [hs.token, hs.debt] at hreserve htoken hdebt
    have hactive : BPD_GAS_COMPENSATION ≤ s₁.activePool.BPDDebt := by
      simp only [State.ledger] at hdebt
      omega
    have hgas : BPD_GAS_COMPENSATION ≤ s₁.bpdToken.balances d.gasPool :=
      reserve_le (by have := hs.reserve; omega)
    simp only [BorrowerOperations.repayBPD, ActivePool.decreaseBPDDebt, bind_ok, SafeMath.sub_ok,
      pure_ok]
    obtain ⟨s₂, hburn⟩ := BPDToken.burn_succeeds (s := { s₁ with activePool :=
      { s₁.activePool with BPDDebt := s₁.activePool.BPDDebt - BPD_GAS_COMPENSATION } })
      d.gasPool_ne_zero hgas (hgas.trans (balances_le_totalSupply htoken _))
    exact ⟨s₂, _, ⟨_, ⟨hactive, rfl⟩, rfl⟩, hburn⟩
  · intro block price s₀ hints n first amount t s₁ a s₂ hprice hloop huntil
    have hledger : s₂.ledger d = s.ledger d + t.entries + entry .coll (s₁.vault a).coll +
        entry .debt (s₁.vault a).debt + entry .reserve BPD_GAS_COMPENSATION := by
      rw [redeemFullyUntilReserve_ledger huntil, redeemLoop_ledger hloop,
        PriceFeed.fetchPrice_ledger hprice]
      simp [RedemptionTotals.entries]
    have hreserve := congrFun hledger .reserve
    have htoken := congrFun hledger .token
    simp [hs.token, RedemptionTotals.entries] at hreserve htoken
    have hgas : BPD_GAS_COMPENSATION ≤ s₂.bpdToken.balances d.gasPool :=
      reserve_le (by have := hs.reserve; omega)
    exact BPDToken.burn_succeeds d.gasPool_ne_zero hgas
      (hgas.trans (balances_le_totalSupply htoken _))
  · intro t l s₁ hsigned hl huntil
    obtain ⟨s₀, htallied, hsame, hsupply⟩ := liquidationLoop_tallied hs hl
    have hledger := settleUntilPayout_ledger htallied huntil
    have hreserve := congrFun hledger .reserve
    have htoken := congrFun hledger .token
    simp [hsame, hs.token] at hreserve htoken
    exact BPDToken._transfer_succeeds d.gasPool_ne_zero hsigned.1.1 htoken
      ((settleUntilPayout_supply_le huntil).trans_lt hsupply)
      (reserve_le (by have := hs.reserve; omega))
  · intro t l s₁ hl huntil
    obtain ⟨s₀, htallied, hsame, -⟩ := liquidationLoop_tallied hs hl
    have hledger := StabilityPool.offsetUntilBurn_ledger (d := d) huntil
    rw [htallied.ledger, hsame] at hledger
    have hdeposit := congrFun hledger .deposit
    have htoken := congrFun hledger .token
    simp [hs.token, hs.deposit, LiquidationTotals.entries] at hdeposit htoken
    have hheld : l.totals.totalDebtToOffset ≤ s₁.bpdToken.balances d.stabilityPool := by
      simp only [State.ledger] at hdeposit
      omega
    exact BPDToken.burn_succeeds d.stabilityPool_ne_zero hheld
      (hheld.trans (balances_le_totalSupply htoken _))

/-- 101 is liquidated against the deposit of 100, and 103 closes its vault. -/
theorem reserves_cover_run : ∃ s, Reachable testnet s ∧ Reserved testnet s ∧
    s.Active 100 ∧ s.Active 102 ∧ (s.vault 101).status = .closedByLiquidation ∧
      (s.vault 103).status = .closedByOwner ∧ 0 < s.stabilityPool.totalBPDDeposits := by
  obtain ⟨s, h, -, hcheck⟩ := runs_reachable testnet testGenesis
    [⟨testBlock 60000, 100, 5 * 10 ^ 18, .openVault (10 ^ 16) (10000 * 10 ^ 18) 0 0⟩,
      ⟨testBlock 60000, 101, 55 * 10 ^ 15, .openVault (10 ^ 16) (2000 * 10 ^ 18) 0 0⟩,
      ⟨testBlock 60000, 102, 10 ^ 17, .openVault (10 ^ 16) (2000 * 10 ^ 18) 0 0⟩,
      ⟨testBlock 60000, 103, 10 ^ 18, .openVault (10 ^ 16) (2000 * 10 ^ 18) 0 0⟩,
      ⟨testBlock 60000, 100, 0, .provideToSP (5000 * 10 ^ 18) 0⟩,
      ⟨testBlock 44000, 104, 0, .liquidate 101⟩,
      ⟨testBlock 60000, 100, 0, .transfer 103 (10 * 10 ^ 18)⟩,
      ⟨testBlock 60000, 103, 0, .closeVault⟩]
    (fun s => s.Active 100 ∧ s.Active 102 ∧ (s.vault 101).status = .closedByLiquidation ∧
      (s.vault 103).status = .closedByOwner ∧ 0 < s.stabilityPool.totalBPDDeposits)
    (by decide +kernel)
  exact ⟨s, h, reserves_cover h, of_decide_eq_true hcheck⟩

end MoneyProtocol
