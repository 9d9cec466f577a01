import MoneyProtocol.Safety.Product

/-!
# The epochs of the Stability Pool

A new epoch is meant to begin where an offset empties the pool. The code begins one where the
loss per unit staked reaches one, and the loss is rounded up: an offset that leaves less than one
part in `1e18` of the deposits, but not nothing, takes the rest from its depositors as well.
-/

namespace MoneyProtocol.StabilityPool

open Outcome

variable {d : Deployment} {s s' : State} {block : Block} {debt coll : ℕ}

/-- A new epoch begins, with a new product, exactly if the pool has been emptied. -/
structure EpochDiscipline (s s' : State) : Prop where
  emptied : s'.stabilityPool.currentEpoch = s.stabilityPool.currentEpoch + 1 ∧
    s'.stabilityPool.P = DECIMAL_PRECISION ↔ s'.stabilityPool.totalBPDDeposits = 0
  remains : s'.stabilityPool.totalBPDDeposits ≠ 0 →
    s'.stabilityPool.currentEpoch = s.stabilityPool.currentEpoch

theorem updateProduct_epoch {factor : ℕ} {p p' : Product} (h : updateProduct factor p = .ok p') :
    factor = 0 ∧ p'.epoch = p.epoch + 1 ∧ p'.P = DECIMAL_PRECISION ∨
      factor ≠ 0 ∧ p'.epoch = p.epoch := by
  simp only [updateProduct] at h
  split_ifs at h with hzero
  · simp only [bind_ok, pure_ok, MoneypSafeMath128.add_ok] at h
    obtain ⟨_, ⟨-, rfl⟩, rfl⟩ := h
    exact .inl ⟨hzero, rfl, rfl⟩
  right
  simp only [bind_ok] at h
  obtain ⟨_, -, _, -, h⟩ := h
  split_ifs at h
  · simp only [bind_ok, pure_ok] at h
    obtain ⟨_, -, _, -, _, -, rfl⟩ := h
    exact ⟨hzero, rfl⟩
  · obtain rfl := pure_ok.mp h
    exact ⟨hzero, rfl⟩

/-- The epochs are in order exactly if the offset takes all deposits, or leaves more than one
part in `1e18` of them. -/
theorem epochDiscipline_iff (hpos : 0 < debt) (hdebt : debt ≤ s.stabilityPool.totalBPDDeposits)
    (h : offset d block debt coll s = .ok s') :
    EpochDiscipline s s' ↔ debt = s.stabilityPool.totalBPDDeposits ∨
      s.stabilityPool.totalBPDDeposits < leftAfter debt s.stabilityPool := by
  rcases offset_effect h with ⟨hnone, -⟩ | ⟨-, s₁, hissue, ⟨e⟩⟩
  · omega
  obtain ⟨i⟩ := triggerMPIssuance_effect hissue
  have htotal : s'.stabilityPool.totalBPDDeposits = s.stabilityPool.totalBPDDeposits - debt := by
    rw [e.pool, i.pool]
  have hepoch : s'.stabilityPool.currentEpoch = e.product.epoch := by rw [e.pool]
  have hP : s'.stabilityPool.P = e.product.P := by rw [e.pool]
  have hdeposits : 0 < s₁.stabilityPool.totalBPDDeposits := by
    have := e.debt_le
    have := e.debt_pos
    omega
  have hzero := factor_eq_zero_iff e.debt_le e.error_le hdeposits
  have hleft : leftAfter debt s₁.stabilityPool = leftAfter debt s.stabilityPool := by
    rw [i.pool]
    rfl
  have htotal₁ : s₁.stabilityPool.totalBPDDeposits = s.stabilityPool.totalBPDDeposits := by
    rw [i.pool]
  have hepoch₁ : s₁.stabilityPool.currentEpoch = s.stabilityPool.currentEpoch := by rw [i.pool]
  rw [hleft, htotal₁] at hzero
  rcases updateProduct_epoch e.products with ⟨hfactor, hnext, hreset⟩ | ⟨hfactor, hsame⟩
  · -- the loss is total, so the epoch advances
    have hlost := hzero.mp hfactor
    have hadvances : s'.stabilityPool.currentEpoch = s.stabilityPool.currentEpoch + 1 := by
      rw [hepoch, hnext, hepoch₁]
    constructor
    · intro hdiscipline
      have hempty := hdiscipline.emptied.mp ⟨hadvances, hP.trans hreset⟩
      omega
    · intro hcondition
      have hempty : s'.stabilityPool.totalBPDDeposits = 0 := by omega
      exact ⟨iff_of_true ⟨hadvances, hP.trans hreset⟩ hempty, fun hne => absurd hempty hne⟩
  · have hkept : s'.stabilityPool.currentEpoch = s.stabilityPool.currentEpoch := by
      rw [hepoch, hsame, hepoch₁]
    have hleaves := mt hzero.mpr hfactor
    rw [not_or, not_le] at hleaves
    refine iff_of_true ⟨iff_of_false ?_ ?_, fun _ => hkept⟩ (.inr hleaves.2)
    · rintro ⟨hadvances, -⟩
      omega
    · have := hleaves.1
      omega

/-- An offset of 2210 of 5000 BPD. -/
theorem epochDiscipline_iff_partial : ∃ s s', Reachable testnet s ∧
    offset testnet (testBlock 44000) (2210 * 10 ^ 18) (5 * 10 ^ 16) s = .ok s' ∧
      EpochDiscipline s s' := by
  obtain ⟨s, h, -, hcheck⟩ := runs_reachable testnet testGenesis
    [⟨testBlock 60000, 100, 5 * 10 ^ 18, .openVault (10 ^ 16) (10000 * 10 ^ 18) 0 0⟩,
      ⟨testBlock 60000, 100, 0, .provideToSP (5000 * 10 ^ 18) 0⟩]
    (fun s => decide (2210 * 10 ^ 18 ≤ s.stabilityPool.totalBPDDeposits ∧
        s.stabilityPool.totalBPDDeposits < leftAfter (2210 * 10 ^ 18) s.stabilityPool) &&
      succeeds (fun _ => true)
        (offset testnet (testBlock 44000) (2210 * 10 ^ 18) (5 * 10 ^ 16) s))
    (by decide +kernel)
  simp only [Bool.and_eq_true, decide_eq_true_eq] at hcheck
  obtain ⟨⟨hdebt, hleaves⟩, hoffset⟩ := hcheck
  obtain ⟨s', hoffset, -⟩ := exists_of_succeeds hoffset
  exact ⟨s, s', h, hoffset, (epochDiscipline_iff (by decide) hdebt hoffset).mpr (.inr hleaves)⟩

/-- The offset leaves 1 wei of deposits in the pool, and begins a new epoch. -/
theorem epoch_ends_early : ∃ s s', Reachable testnet s ∧
    offset testnet (testBlock 44000) (2210 * 10 ^ 18) (5 * 10 ^ 16) s = .ok s' ∧
      s'.stabilityPool.totalBPDDeposits = 1 ∧ s'.stabilityPool.currentEpoch = 1 ∧
      ¬EpochDiscipline s s' := by
  obtain ⟨s, h, -, hcheck⟩ := runs_reachable testnet testGenesis
    [⟨testBlock 60000, 100, 5 * 10 ^ 18, .openVault (10 ^ 16) (10000 * 10 ^ 18) 0 0⟩,
      ⟨testBlock 60000, 100, 0, .provideToSP (2210 * 10 ^ 18 + 1) 0⟩]
    (fun s => decide (s.stabilityPool.currentEpoch = 0) &&
      succeeds (fun s' => decide (s'.stabilityPool.totalBPDDeposits = 1 ∧
          s'.stabilityPool.currentEpoch = 1))
        (offset testnet (testBlock 44000) (2210 * 10 ^ 18) (5 * 10 ^ 16) s))
    (by decide +kernel)
  simp only [Bool.and_eq_true, decide_eq_true_eq] at hcheck
  obtain ⟨hepoch, hoffset⟩ := hcheck
  obtain ⟨s', hoffset, hafter⟩ := exists_of_succeeds hoffset
  obtain ⟨htotal, hnext⟩ := of_decide_eq_true hafter
  refine ⟨s, s', h, hoffset, htotal, hnext, fun hdiscipline => ?_⟩
  have hkept := hdiscipline.remains (by omega)
  omega

end MoneyProtocol.StabilityPool
