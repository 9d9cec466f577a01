import MoneyProtocol.Book.Order
import MoneyProtocol.Safety.Membership

/-!
# The order of the list over whole runs

Rewards are rounded vault by vault, so a redistribution can turn two neighbours around whose
ratios are equal up to rounding. In runs where no redistribution meets such neighbours, and
that restake no stale vault, the list stays sorted and its last vault has the smallest ratio.
-/

namespace MoneyProtocol

open Outcome Book VaultManager

variable {d : Deployment} {s s' : State} {xs : List Address} {u w : Address} {t : Transaction}

/-- The list is sorted by what `getNominalICR` reads, down to the last vault. -/
structure Sorted (s : State) : Prop where
  adjacent : ∀ u w NICR nextNICR, SortedVaults.contains u s.sortedVaults →
    SortedVaults.getNext u s.sortedVaults = w → w ≠ 0 → getNominalICR u s = .ok NICR →
    getNominalICR w s = .ok nextNICR → nextNICR ≤ NICR
  last : ∀ u NICR lastNICR, s.Active u → getNominalICR u s = .ok NICR →
    getNominalICR (SortedVaults.getLast s.sortedVaults) s = .ok lastNICR → lastNICR ≤ NICR

theorem Book.Ordered.sorted (hxs : s.book.Registry xs) (h : s.book.Ordered xs) : Sorted s := by
  constructor
  · intro u w NICR nextNICR hu hnext hw hNICR hnextNICR
    rw [← getNominalICR_ok hNICR, ← getNominalICR_ok hnextNICR]
    obtain ⟨front, back, rfl⟩ := List.append_of_mem (hxs.linked.contains_iff.mp hu)
    have hback : w = back.headD 0 := hnext.symm.trans hxs.linked.represents.next_eq
    have hmem : w ∈ back := by
      rw [hback] at hw ⊢
      apply LinkedList.headD_mem
      rintro rfl
      exact hw rfl
    exact (List.pairwise_cons.mp (List.pairwise_append.mp h).2.1).1 w hmem
  · intro u NICR lastNICR hu hNICR hlastNICR
    rw [← getNominalICR_ok hNICR, ← getNominalICR_ok hlastNICR]
    have hlast : SortedVaults.getLast s.sortedVaults = xs.getLastD 0 :=
      hxs.linked.represents.tail_eq
    rw [hlast]
    exact h.getLastD_le ((hxs.active u).mp hu)

/-- What the transaction redistributes, if anything, keeps neighbours in order. -/
def Transaction.RedistributesInOrder (d : Deployment) (t : Transaction) (s : State) : Prop :=
  match t.liquidationLoop d s with
  | .error _ => True
  | .ok l => l.totals.totalDebtToRedistribute ≠ 0 → l.state.book.KeepsOrder
      l.totals.totalDebtToRedistribute l.totals.totalCollToRedistribute

/-- A transaction that restakes no stale vault and redistributes in order. -/
def OrderedStep (d : Deployment) (s s' : State) : Prop :=
  ∃ t : Transaction, t.Signed d ∧ ¬t.RestakesStale s ∧ t.RedistributesInOrder d s ∧
    transact d t s = .ok s'

theorem OrderedStep.kept (h : OrderedStep d s s') : KeptStep .keepsOrder d s s' := by
  obtain ⟨t, hsigned, hfresh, horder, h⟩ := h
  refine ⟨t, hsigned, ⟨fun _ => hfresh, ?_, fun _ _ => trivial⟩, h⟩
  intro l hl
  unfold Transaction.RedistributesInOrder at horder
  rw [hl] at horder
  exact horder

/-- As long as every step of the run keeps neighbours in order, the list is sorted. -/
theorem sorted_of_ordered {g : Genesis}
    (h : Relation.ReflTransGen (OrderedStep d) g.state s) : Sorted s := by
  have hkept : Relation.ReflTransGen (KeptStep .keepsOrder d) g.state s :=
    Relation.ReflTransGen.mono (fun _ _ => OrderedStep.kept) _ _ h
  obtain ⟨g', hmoves⟩ := KeptReachable.moves ⟨g, hkept⟩
  obtain ⟨xs, hxs, hordered⟩ := Ordered.moves g'.registry List.Pairwise.nil hmoves
  exact hordered.sorted hxs

instance {b : Book} {debt coll : ℕ} : Decidable (b.Apart debt coll u w) :=
  inferInstanceAs (Decidable (_ ≤ _))

instance {b : Book} : Decidable (b.Alike u w) :=
  decidable_of_iff ((b.vaults u).coll = (b.vaults w).coll ∧ (b.vaults u).debt = (b.vaults w).debt ∧
      (b.vaults u).stake = (b.vaults w).stake ∧
      (b.rewardSnapshots u).RBTC = (b.rewardSnapshots w).RBTC ∧
      (b.rewardSnapshots u).BPDDebt = (b.rewardSnapshots w).BPDDebt)
    ⟨fun ⟨h₁, h₂, h₃, h₄, h₅⟩ => ⟨h₁, h₂, h₃, h₄, h₅⟩,
      fun ⟨h₁, h₂, h₃, h₄, h₅⟩ => ⟨h₁, h₂, h₃, h₄, h₅⟩⟩

instance {b : Book} {debt coll : ℕ} : Decidable (b.KeepsOrder debt coll) :=
  List.decidableBAll (fun u => SortedVaults.getNext u b.sortedVaults ≠ 0 →
    b.Apart debt coll u (SortedVaults.getNext u b.sortedVaults) ∨
      b.Alike u (SortedVaults.getNext u b.sortedVaults)) b.vaultOwners

instance : Decidable (t.RedistributesInOrder d s) := by
  unfold Transaction.RedistributesInOrder
  split <;> infer_instance

/-- Every transaction of the run redistributes in order. -/
def runsInOrder (d : Deployment) : List Transaction → State → Bool
  | [], _ => true
  | t :: ts, s => decide (t.RedistributesInOrder d s) && match transact d t s with
    | .ok s => runsInOrder d ts s
    | .error _ => false

theorem run_ordered {ts : List Transaction} (hsigned : ∀ t ∈ ts, t.Signed d)
    (hfresh : ∀ t ∈ ts, ∀ s, ¬t.RestakesStale s) (horder : runsInOrder d ts s = true)
    (h : run d ts s = .ok s') : Relation.ReflTransGen (OrderedStep d) s s' := by
  induction ts generalizing s with
  | nil =>
    obtain rfl := pure_ok.mp h
    exact .refl
  | cons t ts ih =>
    simp only [run, bind_ok] at h
    obtain ⟨s₁, hstep, h⟩ := h
    simp only [runsInOrder, hstep, Bool.and_eq_true, decide_eq_true_eq] at horder
    exact .head ⟨t, hsigned t (by simp), hfresh t (by simp) s, horder.1, hstep⟩
      (ih (fun u hu => hsigned u (by simp [hu])) (fun u hu => hfresh u (by simp [hu])) horder.2 h)

/-- The vault of 102 is redistributed to those of 100 and 101. -/
theorem sorted_of_ordered_run : ∃ s, Reachable testnet s ∧ s.vaultManager.B_RBTC ≠ 0 ∧
    SortedVaults.getSize s.sortedVaults = 2 ∧ Sorted s := by
  have hrun := runs_reachable testnet testGenesis
    [⟨testBlock 60000, 100, 5 * 10 ^ 18, .openVault (10 ^ 16) (10000 * 10 ^ 18) 0 0⟩,
      ⟨testBlock 60000, 101, 4 * 10 ^ 18, .openVault (10 ^ 16) (10000 * 10 ^ 18) 0 0⟩,
      ⟨testBlock 60000, 102, 55 * 10 ^ 15, .openVault (10 ^ 16) (2000 * 10 ^ 18) 0 0⟩,
      ⟨testBlock 44000, 103, 0, .liquidate 102⟩]
    (fun s => s.vaultManager.B_RBTC ≠ 0 ∧ SortedVaults.getSize s.sortedVaults = 2)
    (by decide +kernel)
  obtain ⟨s, h, hrun, hcheck⟩ := hrun
  obtain ⟨hrewards, hsize⟩ := of_decide_eq_true hcheck
  refine ⟨s, h, hrewards, hsize, sorted_of_ordered (d := testnet)
    (run_ordered (by decide +kernel) ?_ (by decide +kernel) hrun)⟩
  simp [Transaction.RestakesStale]

/-- Two vaults of the same ratio turn around when a third is redistributed to them. -/
theorem order_reversed : ¬∀ d s, Reachable d s → Sorted s := by
  intro hall
  obtain ⟨s, h, -, hcheck⟩ := runs_reachable testnet testGenesis
    [⟨testBlock 60000, 100, 150000000000000000, .openVault (10 ^ 16) 1863681592039800995025 0 0⟩,
      ⟨testBlock 60000, 101, 146816208393632418,
        .openVault (10 ^ 16) 1819900497512437810946 100 0⟩,
      ⟨testBlock 60000, 102, 55 * 10 ^ 15, .openVault (10 ^ 16) (2000 * 10 ^ 18) 0 0⟩,
      ⟨testBlock 44000, 103, 0, .liquidate 102⟩]
    (fun s => SortedVaults.contains 100 s.sortedVaults ∧
      SortedVaults.getNext 100 s.sortedVaults = 101 ∧
      (getNominalICR 100 s).toOption = some 5569410779366799 ∧
      (getNominalICR 101 s).toOption = some 5569410779366800) (by decide +kernel)
  obtain ⟨hcontains, hnext, hfirst, hsecond⟩ := of_decide_eq_true hcheck
  have hread {u : Address} {r : ℕ} (h : (getNominalICR u s).toOption = some r) :
      getNominalICR u s = .ok r := by
    cases hu : getNominalICR u s with
    | error e => rw [hu] at h; cases h
    | ok v =>
      rw [hu] at h
      exact congrArg _ (Option.some.inj h)
  have hle := (hall testnet s h).adjacent 100 101 _ _ hcontains hnext (by decide) (hread hfirst)
    (hread hsecond)
  omega

end MoneyProtocol
