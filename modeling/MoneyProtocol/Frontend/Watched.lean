import MoneyProtocol.Isolation.Accounts
import MoneyProtocol.Pool.Runs

/-!
# Watching the chain

Between two actions of an account, others use the system, and the store reads the chain from time
to time. A run of both is what a form of that account lives through.
-/

namespace MoneyProtocol.Sdk.Frontend

open StabilityPool

variable {d : Deployment} {s s' : State} {u : Address}

/-- A transaction that somebody else has signed. -/
def OthersStep (d : Deployment) (u : Address) (s s' : State) : Prop :=
  ∃ t : Transaction, t.Signed d ∧ ¬t.SignedBy u ∧ transact d t s = .ok s'

theorem others_steps (hu : d.External u) (hs : Reachable d s)
    (h : Relation.ReflTransGen (OthersStep d u) s s') :
    Reachable d s' ∧ Guarded u s s' ∧ ∀ carry sent, ∃ carry' sent',
      Relation.ReflTransGen (Event .any d) ⟨s, carry, sent⟩ ⟨s', carry', sent'⟩ := by
  induction h with
  | refl => exact ⟨hs, .of_keeps (.refl u s), fun carry sent => ⟨carry, sent, .refl⟩⟩
  | @tail s₁ s₂ _ hstep ih =>
    obtain ⟨hreach, hguarded, hevents⟩ := ih
    obtain ⟨t, hsigned, hforeign, ht⟩ := hstep
    have hlast : ForeignStep d u s₁ s₂ := ⟨t, hforeign, ht⟩
    refine ⟨hreach.step ⟨t, hsigned, ht⟩, hguarded.trans (hlast.guarded hu), ?_⟩
    intro carry sent
    obtain ⟨carry', sent', hbefore⟩ := hevents carry sent
    obtain ⟨sent'', hafter⟩ := transact_events (h := ⟨s₁, carry', sent'⟩) hreach.balanced hsigned
      keptBy_any ht
    exact ⟨_, sent'', hbefore.trans hafter⟩

section

variable {R : Type} {read : State → Outcome R} {r : R} {rs : List R}

/-- Something was read, and since then others have acted. -/
def ReadBefore (d : Deployment) (u : Address) (read : State → Outcome R) (r : R) (s : State) :
    Prop :=
  ∃ s₀, Reachable d s₀ ∧ read s₀ = .ok r ∧ Relation.ReflTransGen (OthersStep d u) s₀ s

theorem ReadBefore.now (u : Address) (hs : Reachable d s) (h : read s = .ok r) :
    ReadBefore d u read r s :=
  ⟨s, hs, h, .refl⟩

theorem ReadBefore.others (h : ReadBefore d u read r s) (hstep : OthersStep d u s s') :
    ReadBefore d u read r s' := by
  obtain ⟨s₀, hs₀, hread, hothers⟩ := h
  exact ⟨s₀, hs₀, hread, hothers.tail hstep⟩

theorem ReadBefore.reachable (hu : d.External u) (h : ReadBefore d u read r s) :
    Reachable d s := by
  obtain ⟨s₀, hs₀, -, hothers⟩ := h
  exact (others_steps hu hs₀ hothers).1

/-- Others act, and now and then the store reads something and tells the form. -/
inductive Watched (d : Deployment) (u : Address) (read : State → Outcome R) :
    State → List R → State → Prop
  | start (s : State) : Watched d u read s [] s
  | others {s s' s'' : State} {rs : List R} (hstep : OthersStep d u s s')
    (hrest : Watched d u read s' rs s'') : Watched d u read s rs s''
  | update {s s' : State} {r : R} {rs : List R} (hread : read s = .ok r)
    (hrest : Watched d u read s rs s') : Watched d u read s (r :: rs) s'

theorem Watched.others_steps
    (h : Watched d u read s rs s') : Relation.ReflTransGen (OthersStep d u) s s' := by
  induction h with
  | start s => exact .refl
  | others hstep _ ih => exact ih.head hstep
  | update _ _ ih => exact ih

end

end MoneyProtocol.Sdk.Frontend
