import MoneyProtocol.Safety.DefaultPool

/-!
# The counters agree with the records

In every reachable state the Active Pool counts exactly the collateral and the debt recorded
for the active vaults, and there is as much BPD as there is debt in the two pools.
-/

namespace MoneyProtocol

open Outcome Book PointSum MoneypBase

variable {d : Deployment} {s : State} {xs : List Address}

/-- The other vaults have no collateral and no debt. -/
theorem total_coll_eq (h : s.book.Registry xs) :
    total Vault.coll s.vaultManager.vaults = ∑ a ∈ s.activeVaults, (s.vault a).coll := by
  have hsum := sum_activeVaults h (f := fun a => (s.vault a).coll) fun a ha => (h.inactive a ha).1
  rw [hsum]
  unfold total
  rfl

theorem total_debt_eq (h : s.book.Registry xs) :
    total Vault.debt s.vaultManager.vaults = ∑ a ∈ s.activeVaults, (s.vault a).debt := by
  have hsum := sum_activeVaults h (f := fun a => (s.vault a).debt) fun a ha =>
    (h.inactive a ha).2.1
  rw [hsum]
  unfold total
  rfl

/-- The Active Pool counts the collateral and the debt of the active vaults, to the wei. -/
theorem activePool_exact (h : Reachable d s) :
    s.activePool.RBTC = ∑ a ∈ s.activeVaults, (s.vault a).coll ∧
      s.activePool.BPDDebt = ∑ a ∈ s.activeVaults, (s.vault a).debt := by
  obtain ⟨xs, hxs⟩ := h.registry
  have hcoll := h.balanced.coll
  have hdebt := h.balanced.debt
  simp only [State.ledger] at hcoll hdebt
  rw [← total_coll_eq hxs, ← total_debt_eq hxs]
  omega

theorem activePool_exact_run : ∃ s, Reachable testnet s ∧
    s.activePool.RBTC = ∑ a ∈ s.activeVaults, (s.vault a).coll ∧ s.activePool.RBTC ≠ 0 := by
  -- 101 is liquidated to the vault of 100, which then collects
  obtain ⟨s, h, -, hcheck⟩ := runs_reachable testnet testGenesis
    [⟨testBlock 60000, 100, 5 * 10 ^ 18, .openVault (10 ^ 16) (10000 * 10 ^ 18) 0 0⟩,
      ⟨testBlock 60000, 101, 55 * 10 ^ 15, .openVault (10 ^ 16) (2000 * 10 ^ 18) 0 0⟩,
      ⟨testBlock 44000, 102, 0, .liquidate 101⟩,
      ⟨testBlock 60000, 100, 10 ^ 18, .addColl 0 0⟩]
    (fun s => s.activePool.RBTC ≠ 0) (by decide +kernel)
  exact ⟨s, h, (activePool_exact h).1, of_decide_eq_true hcheck⟩

/-- Nobody holds more BPD than there is. -/
theorem balances_le_totalSupply (htoken : s.ledger d .token = 0) (a : Address) :
    s.bpdToken.balances a ≤ s.bpdToken.totalSupply := by
  have hle := le_total id s.bpdToken.balances a
  simp only [State.ledger, id_eq] at htoken hle
  omega

theorem Balanced.supply_eq (hs : Balanced d s) :
    s.bpdToken.totalSupply = s.activePool.BPDDebt + s.defaultPool.BPDDebt := by
  have hsupply := hs.supply
  simp only [State.ledger] at hsupply
  omega

/-- There is as much BPD as debt; a redeemer never holds more than the entire system debt,
so that the assertion of a redemption holds. -/
theorem supply_eq_debt (h : Reachable d s) :
    s.bpdToken.totalSupply = s.activePool.BPDDebt + s.defaultPool.BPDDebt ∧
      ∀ block redeemer price s₁ totalBPDSupplyAtStart,
        PriceFeed.fetchPrice block s = .ok (price, s₁) →
        getEntireSystemDebt s₁ = .ok totalBPDSupplyAtStart →
        assert (s₁.bpdToken.balances redeemer ≤ totalBPDSupplyAtStart) = .ok () := by
  refine ⟨h.balanced.supply_eq, ?_⟩
  intro block redeemer price s₁ totalBPDSupplyAtStart hprice hdebt
  obtain ⟨_, rfl⟩ := PriceFeed.fetchPrice_ok hprice
  simp only [getEntireSystemDebt, SafeMath.add_ok] at hdebt
  rw [assert_ok, ← hdebt.2, ← h.balanced.supply_eq]
  exact balances_le_totalSupply h.balanced.token redeemer

theorem supply_eq_debt_run : ∃ s, Reachable testnet s ∧
    s.bpdToken.totalSupply = s.activePool.BPDDebt + s.defaultPool.BPDDebt ∧
    s.bpdToken.totalSupply ≠ 0 := by
  obtain ⟨s, h, -, hcheck⟩ := runs_reachable testnet testGenesis
    [⟨testBlock 60000, 100, 5 * 10 ^ 18, .openVault (10 ^ 16) (10000 * 10 ^ 18) 0 0⟩,
      ⟨testBlock 60000, 101, 55 * 10 ^ 15, .openVault (10 ^ 16) (2000 * 10 ^ 18) 0 0⟩,
      ⟨testBlock 60000, 100, 0, .provideToSP (1000 * 10 ^ 18) 0⟩,
      ⟨testBlock 44000, 102, 0, .liquidate 101⟩]
    (fun s => s.bpdToken.totalSupply ≠ 0) (by decide +kernel)
  exact ⟨s, h, (supply_eq_debt h).1, of_decide_eq_true hcheck⟩

end MoneyProtocol
