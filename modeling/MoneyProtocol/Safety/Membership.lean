import MoneyProtocol.Book.Runs
import Mathlib.Data.List.Count

/-!
# Who has a vault

The status of a vault, the sorted list and the array of owners always name the same owners,
and the system never loses its last one.
-/

namespace MoneyProtocol

open Book

variable {d : Deployment} {s s' : State} {xs : List Address}

theorem Book.Registry.contains_iff (h : s.book.Registry xs) (a : Address) :
    SortedVaults.contains a s.sortedVaults ↔ s.Active a :=
  h.linked.contains_iff.trans (h.active a).symm

theorem Book.Registry.mem_owners_iff (h : s.book.Registry xs) (a : Address) :
    a ∈ s.vaultManager.vaultOwners ↔ s.Active a :=
  (h.owners a).trans (h.active a).symm

theorem Book.Registry.getSize_eq (h : s.book.Registry xs) :
    SortedVaults.getSize s.sortedVaults = s.vaultManager.vaultOwners.length :=
  h.linked.size_eq.trans h.length_eq.symm

/-- The three records agree on every address, and neither the list nor the array is empty
again once a vault has been opened. -/
theorem membership_agrees (h : Reachable d s) :
    (∀ a, (s.Active a ↔ SortedVaults.contains a s.sortedVaults) ∧
      (SortedVaults.contains a s.sortedVaults ↔ a ∈ s.vaultManager.vaultOwners) ∧
      (s.Active a → s.vaultManager.vaultOwners.count a = 1 ∧
        s.vaultManager.vaultOwners[(s.vault a).arrayIndex]? = some a)) ∧
      SortedVaults.getSize s.sortedVaults = s.vaultManager.vaultOwners.length ∧
      (0 < s.vaultManager.vaultOwners.length → ∀ s', Relation.ReflTransGen (Step d) s s' →
        0 < s'.vaultManager.vaultOwners.length ∧ 0 < SortedVaults.getSize s'.sortedVaults) := by
  obtain ⟨xs, hxs⟩ := h.registry
  refine ⟨fun a => ⟨(hxs.contains_iff a).symm, ?_, fun hactive => ?_⟩, hxs.getSize_eq,
    fun hpos s' hsteps => ?_⟩
  · rw [hxs.contains_iff, hxs.mem_owners_iff]
  · have hmem : a ∈ s.vaultManager.vaultOwners := (hxs.mem_owners_iff a).mpr hactive
    exact ⟨List.count_eq_one_of_mem hxs.indexed.nodup hmem, hxs.indexed.getElem? hmem⟩
  · obtain ⟨hmoves, hreach⟩ := h.steps_moves hsteps
    obtain ⟨ys, hys⟩ := hreach.registry
    have hlength : 0 < s'.vaultManager.vaultOwners.length := hmoves.owners_pos hpos
    exact ⟨hlength, by rwa [hys.getSize_eq]⟩

theorem membership_agrees_liquidated : ∃ s, Reachable testnet s ∧
    (s.Active 100 ↔ SortedVaults.contains 100 s.sortedVaults) ∧
    s.vaultManager.vaultOwners = [100, 102] := by
  -- the owner of the last slot moves to the slot of the liquidated one
  obtain ⟨s, h, -, hcheck⟩ := runs_reachable testnet testGenesis
    [⟨testBlock 60000, 100, 5 * 10 ^ 18, .openVault (10 ^ 16) (10000 * 10 ^ 18) 0 0⟩,
      ⟨testBlock 60000, 101, 55 * 10 ^ 15, .openVault (10 ^ 16) (2000 * 10 ^ 18) 0 0⟩,
      ⟨testBlock 60000, 102, 5 * 10 ^ 18, .openVault (10 ^ 16) (10000 * 10 ^ 18) 0 0⟩,
      ⟨testBlock 44000, 103, 0, .liquidate 101⟩]
    (fun s => s.vaultManager.vaultOwners = [100, 102]) (by decide +kernel)
  exact ⟨s, h, ((membership_agrees h).1 100).1, of_decide_eq_true hcheck⟩

end MoneyProtocol
