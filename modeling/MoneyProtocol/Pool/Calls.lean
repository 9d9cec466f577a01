import MoneyProtocol.Pool.Effects

/-!
# Histories of the Stability Pool

The storage of the pool changes in five calls, which may come in any order and with any
arguments that their checks admit, and the rest of the system may do in between what it likes. A
history keeps, next to the state, what the roundings of the losses have left in the pool and how
much MP has been sent. A history may keep to a policy on its offsets and its depositors.
-/

namespace MoneyProtocol.StabilityPool

open Outcome

variable {d : Deployment} {s s' : State}

/-- The calls that change the storage of the pool; `offset` is called by the VaultManager. -/
inductive Call where
  | provideToSP (sender : Address) (amount : ℕ) (frontEndTag : Address)
  | withdrawFromSP (sender : Address) (amount : ℕ)
  | withdrawRBTCGainToVault (sender upperHint lowerHint : Address)
  | registerFrontEnd (sender : Address) (kickbackRate : ℕ)
  | offset (debtToOffset collToAdd : ℕ)

def Call.perform (d : Deployment) (block : Block) : Call → State → Outcome State
  | .provideToSP sender amount frontEndTag =>
    StabilityPool.provideToSP d block sender amount frontEndTag
  | .withdrawFromSP sender amount => StabilityPool.withdrawFromSP d block sender amount
  | .withdrawRBTCGainToVault sender upperHint lowerHint =>
    StabilityPool.withdrawRBTCGainToVault d block sender upperHint lowerHint
  | .registerFrontEnd sender kickbackRate => StabilityPool.registerFrontEnd sender kickbackRate
  | .offset debtToOffset collToAdd => StabilityPool.offset d block debtToOffset collToAdd

/-- Depositors and front ends are outside accounts. -/
def Call.Signed (d : Deployment) : Call → Prop
  | .provideToSP sender _ _ | .withdrawFromSP sender _ | .withdrawRBTCGainToVault sender _ _
  | .registerFrontEnd sender _ => d.External sender
  | .offset _ _ => True

/-- What the losses have taken from the deposits beyond the debts that were offset, in units of
`1e-18` BPD: a loss shrinks it together with the deposits, adds its own rounding error and takes
the error before it back. An offset of all deposits leaves nothing. -/
def carryAfter (debt : ℕ) (carry : ℚ) (p : StabilityPool) : ℚ :=
  if p.totalBPDDeposits = 0 ∨ debt = 0 then carry
  else if debt = p.totalBPDDeposits then 0
  else carry * (1 - lossPerUnit p debt / DECIMAL_PRECISION) + lossError p debt -
    p.lastBPDLossError_Offset

/-- A state with what it does not store: the carry of the losses, and the MP that
CommunityIssuance has sent. -/
structure History where
  state : State
  carry : ℚ
  sent : ℕ

def History.start (g : Genesis) : History := ⟨g.state, 0, 0⟩

def Call.carry (h : History) : Call → ℚ
  | .offset debtToOffset _ => carryAfter debtToOffset h.carry h.state.stabilityPool
  | _ => h.carry

/-- The tag under which `a` has its deposit after it provides with `frontEndTag`. -/
def tagAfter (a frontEndTag : Address) (p : StabilityPool) : Address :=
  if (p.deposits a).initialValue = 0 then frontEndTag else (p.deposits a).frontEndTag

/-- What a history allows: offsets by their debt and the carry before them, and depositor calls
by the depositor and its tag. An issuance of MP makes no difference. -/
structure Policy where
  offset : ℕ → ℚ → StabilityPool → Prop
  settle : Address → Address → StabilityPool → Prop
  offset_issued : ∀ {debt carry p error sums}, offset debt carry p →
    offset debt carry { p with lastMPError := error, epochToScaleToG := sums }
  settle_issued : ∀ {a tag p error sums}, settle a tag p →
    settle a tag { p with lastMPError := error, epochToScaleToG := sums }

def Policy.any : Policy := ⟨fun _ _ _ => True, fun _ _ _ => True, id, id⟩

def Call.Keeps (P : Policy) (h : History) : Call → Prop
  | .provideToSP sender _ frontEndTag =>
    P.settle sender (tagAfter sender frontEndTag h.state.stabilityPool) h.state.stabilityPool
  | .withdrawFromSP sender _ | .withdrawRBTCGainToVault sender _ _ =>
    P.settle sender (h.state.stabilityPool.deposits sender).frontEndTag h.state.stabilityPool
  | .registerFrontEnd _ _ => True
  | .offset debtToOffset _ => P.offset debtToOffset h.carry h.state.stabilityPool

/-- One event of a history: a call to the pool that keeps to the policy, or anything that leaves
the pool and the issuance alone and takes no BPD from the pool. -/
inductive Event (P : Policy) (d : Deployment) : History → History → Prop
  | call {h : History} {s' : State} (c : Call) (block : Block) (hsigned : c.Signed d)
      (hkeeps : c.Keeps P h) (hs' : c.perform d block h.state = .ok s') :
      Event P d h ⟨s', c.carry h, h.sent + (h.state.mpToken.balances d.communityIssuance -
        s'.mpToken.balances d.communityIssuance)⟩
  | elsewhere {h : History} {s' : State}
      (hpool : s'.stabilityPool = h.state.stabilityPool)
      (hissuance : s'.communityIssuance = h.state.communityIssuance)
      (hbpd : h.state.bpdToken.balances d.stabilityPool ≤ s'.bpdToken.balances d.stabilityPool) :
      Event P d h { h with state := s' }

/-- The histories that events keeping to the policy reach from deployment. -/
def Recorded (P : Policy) (d : Deployment) (h : History) : Prop :=
  ∃ g : Genesis, Relation.ReflTransGen (Event P d) (History.start g) h

/-- What a call does to the storage, one thing at a time. -/
inductive Move (P : Policy) (d : Deployment) : History → History → Prop
  | issuance {h : History} {s' : State} (i : IssuanceEffect h.state s') :
      Move P d h { h with state := s' }
  | settlement {h : History} {s' : State} {a tag : Address}
      (hkeeps : P.settle a tag h.state.stabilityPool) (e : Settlement d a tag h.state s') :
      Move P d h ⟨s', h.carry, h.sent + (e.frontEndMP + e.depositorMP)⟩
  | registration {h : History} {s' : State} {a : Address} {kickbackRate : ℕ}
      (hnew : (h.state.stabilityPool.frontEnds a).registered = false)
      (hrate : kickbackRate ≤ DECIMAL_PRECISION)
      (hpool : s'.stabilityPool = { h.state.stabilityPool with
        frontEnds := Function.update h.state.stabilityPool.frontEnds a ⟨kickbackRate, true⟩ })
      (hissuance : s'.communityIssuance = h.state.communityIssuance) :
      Move P d h { h with state := s' }
  | offset {h : History} {s' : State} {debt coll : ℕ}
      (hkeeps : P.offset debt h.carry h.state.stabilityPool)
      (htotal : h.state.stabilityPool.totalBPDDeposits ≠ 0) (hdebt : debt ≠ 0)
      (e : OffsetEffect d debt coll h.state s') :
      Move P d h ⟨s', carryAfter debt h.carry h.state.stabilityPool, h.sent⟩
  | elsewhere {h : History} {s' : State}
      (hpool : s'.stabilityPool = h.state.stabilityPool)
      (hissuance : s'.communityIssuance = h.state.communityIssuance) :
      Move P d h { h with state := s' }

abbrev Moves (P : Policy) (d : Deployment) := Relation.ReflTransGen (Move P d)

variable {P : Policy} {h h' : History}

theorem IssuanceEffect.offset_kept {debt : ℕ} {carry : ℚ} (i : IssuanceEffect s s')
    (hkeeps : P.offset debt carry s.stabilityPool) : P.offset debt carry s'.stabilityPool := by
  rw [i.pool]
  exact P.offset_issued hkeeps

theorem IssuanceEffect.settle_kept {a tag : Address} (i : IssuanceEffect s s')
    (hkeeps : P.settle a tag s.stabilityPool) : P.settle a tag s'.stabilityPool := by
  rw [i.pool]
  exact P.settle_issued hkeeps

theorem IssuanceEffect.deposits (i : IssuanceEffect s s') :
    s'.stabilityPool.deposits = s.stabilityPool.deposits := by
  rw [i.pool]

theorem IssuanceEffect.tagAfter_eq {a tag : Address} (i : IssuanceEffect s s') :
    tagAfter a tag s'.stabilityPool = tagAfter a tag s.stabilityPool := by
  unfold tagAfter
  rw [i.deposits]

theorem IssuanceEffect.carryAfter_eq {debt : ℕ} {carry : ℚ} (i : IssuanceEffect s s') :
    carryAfter debt carry s'.stabilityPool = carryAfter debt carry s.stabilityPool := by
  rw [i.pool]
  rfl

/-- Issuance, then settlement. -/
theorem settled_moves {a tag : Address} {s₁ : State} (i : IssuanceEffect h.state s₁)
    (hkeeps : P.settle a tag h.state.stabilityPool) (e : Settlement d a tag s₁ s') :
    Moves P d h ⟨s', h.carry, h.sent + (h.state.mpToken.balances d.communityIssuance -
      s'.mpToken.balances d.communityIssuance)⟩ := by
  have hsent : h.state.mpToken.balances d.communityIssuance -
      s'.mpToken.balances d.communityIssuance = e.frontEndMP + e.depositorMP := by
    have := e.sent
    rw [i.mpToken] at this
    omega
  rw [hsent]
  have hissued : Move P d h { h with state := s₁ } := .issuance i
  have hsettled : Move P d { h with state := s₁ }
      ⟨s', h.carry, h.sent + (e.frontEndMP + e.depositorMP)⟩ :=
    .settlement (h := { h with state := s₁ }) (i.settle_kept hkeeps) e
  exact (Relation.ReflTransGen.single hissued).tail hsettled

/-- Every event is a sequence of moves. -/
theorem Event.moves (hevent : Event P d h h') : Moves P d h h' := by
  cases hevent with
  | elsewhere hpool hissuance => exact .single (.elsewhere hpool hissuance)
  | @call s' c block hsigned hkeeps hs' =>
    cases c with
    | provideToSP a amount tag =>
      obtain ⟨s₁, hissue, ⟨e⟩⟩ := provideToSP_effect hs'
      obtain ⟨i⟩ := triggerMPIssuance_effect hissue
      have htag : P.settle a (tagAfter a tag s₁.stabilityPool) h.state.stabilityPool := by
        rw [i.tagAfter_eq]
        exact hkeeps
      exact settled_moves i htag e
    | withdrawFromSP a amount =>
      obtain ⟨s₀, s₁, hpool, hissue, ⟨e⟩⟩ := withdrawFromSP_effect hs'
      obtain ⟨i⟩ := triggerMPIssuance_effect hissue
      simp only [State.pool, Prod.mk.injEq] at hpool
      obtain ⟨hstorage, hissuance, hmp⟩ := hpool
      have hmove : Move P d h { h with state := s₀ } := .elsewhere hstorage hissuance
      have hkept : P.settle a (s₁.stabilityPool.deposits a).frontEndTag s₀.stabilityPool := by
        rw [i.deposits, hstorage]
        exact hkeeps
      rw [← hmp]
      exact (Relation.ReflTransGen.single hmove).trans
        (settled_moves i hkept e)
    | withdrawRBTCGainToVault a upperHint lowerHint =>
      obtain ⟨s₁, hissue, ⟨e⟩⟩ := withdrawRBTCGainToVault_effect hs'
      obtain ⟨i⟩ := triggerMPIssuance_effect hissue
      have hkept : P.settle a (s₁.stabilityPool.deposits a).frontEndTag h.state.stabilityPool := by
        rw [i.deposits]
        exact hkeeps
      exact settled_moves i hkept e
    | registerFrontEnd a kickbackRate =>
      simp only [Call.perform, registerFrontEnd, requireFrontEndNotRegistered,
        requireValidKickbackRate, bind_ok, require_ok, pure_ok] at hs'
      obtain ⟨_, hnew, _, -, _, hrate, rfl⟩ := hs'
      rw [Nat.sub_self, Nat.add_zero]
      exact .single (.registration hnew hrate rfl rfl)
    | offset debt coll =>
      rcases offset_effect hs' with ⟨hnone, rfl⟩ | ⟨⟨htotal, hdebt⟩, s₁, hissue, ⟨e⟩⟩
      · rw [Nat.sub_self, Nat.add_zero]
        simp only [Call.carry, carryAfter, if_pos hnone]
        exact .refl
      · obtain ⟨i⟩ := triggerMPIssuance_effect hissue
        have hissued : Move P d h { h with state := s₁ } := .issuance i
        have htotal₁ : s₁.stabilityPool.totalBPDDeposits ≠ 0 := by
          rw [i.pool]
          exact htotal
        rw [e.mpToken, i.mpToken, Nat.sub_self, Nat.add_zero]
        simp only [Call.carry]
        rw [← i.carryAfter_eq]
        have hoffset : Move P d { h with state := s₁ }
            ⟨s', carryAfter debt h.carry s₁.stabilityPool, h.sent⟩ :=
          .offset (i.offset_kept hkeeps) htotal₁ hdebt e
        exact (Relation.ReflTransGen.single hissued).tail hoffset

/-- A property of the start that every move keeps holds in every history. -/
theorem Recorded.invariant {I : History → Prop} (hstart : ∀ g, I (History.start g))
    (hmove : ∀ {h h'}, I h → Move P d h h' → I h') (hrecorded : Recorded P d h) : I h := by
  obtain ⟨g, hrun⟩ := hrecorded
  have hmoves : Moves P d (History.start g) h := by
    induction hrun with
    | refl => exact .refl
    | tail _ hevent ih => exact ih.trans hevent.moves
  clear hrun
  induction hmoves with
  | refl => exact hstart g
  | tail _ hstep ih => exact hmove ih hstep

end MoneyProtocol.StabilityPool
