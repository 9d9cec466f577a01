import MoneyProtocol.Contracts.Lockup
import MoneyProtocol.Accounting.Calls
import MoneyProtocol.Book.Runs

/-!
# The first year of the MP token

Until the first year is over, the MP of the multisig can only move to registered lockup
contracts, and what they hold stays there: no call of an entry point, and no combination of
calls, leads around the guards.
-/

namespace MoneyProtocol

open Outcome PointSum

variable {d : Deployment} {f : LockupContractFactory d} {m m' m₀ : MPState} {block : Block}
  {a caller : Address} {v : ℕ}

/-- Nobody but the factory makes lockup contracts; none of them opens in the first year, and
none has granted an allowance. -/
structure LockedUp (f : LockupContractFactory d) (m : MPState) : Prop where
  registered : ∀ a, m.Registered a → ∃ c, m.lockups a = some c
  created : ∀ a c, m.lockups a = some c → f.creates a ∧
    d.deploymentStartTime + MPToken.ONE_YEAR_IN_SECONDS ≤ c.unlockTime
  allowances : ∀ a, f.creates a → ∀ b, m.allowances a b = 0

namespace LockedUp

theorem not_acts (h : LockedUp f m) (ha : m.Registered a) : ¬f.Acts a := by
  obtain ⟨c, hc⟩ := h.registered a ha
  exact not_not.mpr (h.created a c hc).1

theorem start (h : m.Deployed) : LockedUp f m := by
  constructor
  · intro a ha
    refine absurd ?_ ha
    rw [h.registered]
  · intro a c hc
    rw [h.lockups] at hc
    cases hc
  · intro a _ b
    rw [h.allowances]

end LockedUp

theorem MPToken.isFirstYear_ok {firstYear : Bool}
    (hblock : block.timestamp < d.deploymentStartTime + MPToken.ONE_YEAR_IN_SECONDS)
    (h : MPToken.isFirstYear d block = .ok firstYear) : firstYear = true := by
  simp only [isFirstYear, bind_ok, pure_ok, SafeMath.sub_ok] at h
  obtain ⟨_, ⟨hle, rfl⟩, rfl⟩ := h
  apply decide_eq_true
  omega

theorem MPState.onSystem_ok {g : State → Outcome State} (h : m.onSystem g = .ok m') :
    ∃ s, g m.system = .ok s ∧ m' = { m with system := s } := by
  simp only [onSystem, bind_ok, pure_ok] at h
  obtain ⟨s, hs, rfl⟩ := h
  exact ⟨s, hs, rfl⟩

theorem MPToken.approve_ok {owner spender : Address}
    (h : MPToken._approve owner spender v m = .ok m') :
    owner ≠ 0 ∧ m' = { m with
      allowances := Function.update m.allowances owner
        (Function.update (m.allowances owner) spender v) } := by
  simp only [_approve, bind_ok, require_ok, pure_ok] at h
  obtain ⟨_, howner, _, -, rfl⟩ := h
  exact ⟨howner, rfl⟩

/-- In the first year nobody spends an allowance over the tokens of the multisig, whoever
granted it. -/
theorem MPToken.transferFrom_multisig {recipient : Address}
    (hblock : block.timestamp < d.deploymentStartTime + MPToken.ONE_YEAR_IN_SECONDS) :
    MPToken.transferFrom d block caller d.multisig recipient v m ≠ .ok m' := by
  intro h
  simp only [transferFrom, bind_ok, require_ok] at h
  obtain ⟨firstYear, hyear, _, hne, -⟩ := h
  exact hne (isFirstYear_ok hblock hyear) rfl

/-- In the first year the multisig does not stake. -/
theorem MPToken.sendToMPStaking_multisig {s s' : State}
    (hblock : block.timestamp < d.deploymentStartTime + MPToken.ONE_YEAR_IN_SECONDS) :
    MPToken.sendToMPStaking d block d.multisig v s ≠ .ok s' := by
  intro h
  simp only [sendToMPStaking, bind_ok, require_ok] at h
  obtain ⟨firstYear, hyear, _, hne, -⟩ := h
  exact hne (isFirstYear_ok hblock hyear) rfl

/-- In the first year the multisig pays registered lockup contracts only. -/
theorem MPToken.transfer_multisig {s s' : State} {recipient : Address}
    (hblock : block.timestamp < d.deploymentStartTime + MPToken.ONE_YEAR_IN_SECONDS)
    (h : MPToken.transfer d block d.multisig recipient v s = .ok s') :
    isRegisteredLockup s recipient := by
  simp only [transfer, requireLockupForMultisig, if_true, bind_ok, require_ok] at h
  obtain ⟨_, ⟨firstYear, hyear, hregistered⟩, -⟩ := h
  exact hregistered (isFirstYear_ok hblock hyear)

/-- What a call in the first year does to the balances: nothing, while it may register lockup
contracts, or one move, from an account that acts for itself; and from the multisig to a
registered lockup contract. -/
inductive FirstYearEffect (f : LockupContractFactory d) (m m' : MPState) : Prop
  | unmoved (hbalances : m'.balances = m.balances)
      (hregistered : ∀ a, m.Registered a → m'.Registered a)
  | moved (sender recipient : Address) (amount : ℕ) (hacts : f.Acts sender)
      (hmultisig : sender = d.multisig → m.Registered recipient)
      (hbalances : m'.balances = move sender recipient amount m.balances)
      (hregistered : ∀ a, m.Registered a ↔ m'.Registered a)

theorem FirstYearEffect.of_system (h : m'.system = m.system) : FirstYearEffect f m m' := by
  refine .unmoved (congrArg (fun s => s.mpToken.balances) h) fun a ha => ?_
  unfold MPState.Registered
  rw [h]
  exact ha

/-- An allowance is granted by its owner, and the owner is not a lockup contract. -/
theorem LockedUp.approve {owner spender : Address} (h : LockedUp f m) (howner : f.Acts owner)
    (happrove : MPToken._approve owner spender v m = .ok m') :
    LockedUp f m' ∧ m'.system = m.system := by
  obtain ⟨-, rfl⟩ := MPToken.approve_ok happrove
  refine ⟨⟨h.registered, h.created, ?_⟩, rfl⟩
  intro a ha b
  have hne : a ≠ owner := by
    rintro rfl
    exact howner ha
  simp only [Function.update_of_ne hne]
  exact h.allowances a ha b

/-- A move of the balances touches neither the contracts nor the allowances. -/
theorem LockedUp.move {s : State} {sender recipient : Address} (h : LockedUp f m)
    (hmoved : v ≤ m.system.mpToken.balances sender ∧ s = { m.system with mpToken :=
      { m.system.mpToken with
        balances := PointSum.move sender recipient v m.system.mpToken.balances } })
    (hacts : f.Acts sender) (hmultisig : sender = d.multisig → m.Registered recipient) :
    LockedUp f { m with system := s } ∧ FirstYearEffect f m { m with system := s } := by
  obtain ⟨-, rfl⟩ := hmoved
  exact ⟨⟨h.registered, h.created, h.allowances⟩,
    .moved sender recipient v hacts hmultisig rfl fun _ => Iff.rfl⟩

theorem LockedUp.transferFrom {sender recipient : Address} (h : LockedUp f m)
    (hblock : block.timestamp < d.deploymentStartTime + MPToken.ONE_YEAR_IN_SECONDS)
    (ht : MPToken.transferFrom d block caller sender recipient v m = .ok m') :
    LockedUp f m' ∧ FirstYearEffect f m m' := by
  have hsender : sender ≠ d.multisig := by
    rintro rfl
    exact MPToken.transferFrom_multisig hblock ht
  simp only [MPToken.transferFrom, bind_ok, SafeMath.subWith_ok] at ht
  obtain ⟨_, -, _, -, _, -, m₁, hmove, _, ⟨hallowance, rfl⟩, happrove⟩ := ht
  obtain ⟨s, hs, rfl⟩ := MPState.onSystem_ok hmove
  have hmoved := MPToken._transfer_move hs
  obtain ⟨-, rfl⟩ := MPToken.approve_ok happrove
  by_cases hacts : f.Acts sender
  · obtain ⟨hlocked, heffect⟩ := h.move hmoved hacts fun he => absurd he hsender
    refine ⟨⟨hlocked.registered, hlocked.created, ?_⟩, ?_⟩
    · intro a ha b
      have hne : a ≠ sender := by
        rintro rfl
        exact hacts ha
      simp only [Function.update_of_ne hne]
      exact h.allowances a ha b
    · cases heffect with
      | unmoved hbalances hregistered => exact .unmoved hbalances hregistered
      | moved sender recipient amount hacts hmultisig hbalances hregistered =>
        exact .moved sender recipient amount hacts hmultisig hbalances hregistered
  · -- a lockup contract has granted nothing, so nothing moves
    have hcreated : f.creates sender := not_not.mp hacts
    have hnone : m.allowances sender caller = 0 := h.allowances sender hcreated caller
    obtain rfl : v = 0 := by
      rw [hnone] at hallowance
      omega
    obtain ⟨-, rfl⟩ := hmoved
    refine ⟨⟨h.registered, h.created, ?_⟩, .unmoved ?_ fun _ ha => ha⟩
    · intro a ha b
      by_cases hne : a = sender
      · subst hne
        by_cases hb : b = caller
        · subst hb
          simp [hnone]
        · simp [h.allowances a ha b]
      · simp [Function.update_of_ne hne, h.allowances a ha b]
    · simp [MPState.balances, PointSum.move]

theorem LockedUp.deploy {lockup beneficiary : Address} {unlockTime : ℕ} (h : LockedUp f m)
    (hcreates : f.creates lockup) (hd : LockupContractFactory.deployLockupContract d lockup caller
      beneficiary unlockTime m = .ok m') : LockedUp f m' ∧ FirstYearEffect f m m' := by
  simp only [LockupContractFactory.deployLockupContract, bind_ok, require_ok, pure_ok,
    SafeMath.add_ok] at hd
  obtain ⟨_, -, _, ⟨-, rfl⟩, _, hunlock, _, hfree, rfl⟩ := hd
  have hother {a : Address} (ha : m.Registered a) : a ≠ lockup := by
    rintro rfl
    obtain ⟨c, hc⟩ := h.registered a ha
    rw [hc] at hfree
    cases hfree
  refine ⟨⟨?_, ?_, h.allowances⟩, .unmoved rfl ?_⟩
  · intro a ha
    by_cases hne : a = lockup
    · subst hne
      exact ⟨_, Function.update_self _ _ _⟩
    · simp only [MPState.Registered, MPToken.isRegisteredLockup, Function.update_of_ne hne] at ha ⊢
      exact h.registered a ha
  · intro a c hc
    by_cases hne : a = lockup
    · subst hne
      simp only [Function.update_self, Option.some.injEq] at hc
      subst hc
      exact ⟨hcreates, hunlock⟩
    · simp only [Function.update_of_ne hne] at hc
      exact h.created a c hc
  · intro a ha
    simp only [MPState.Registered, MPToken.isRegisteredLockup, Function.update_of_ne (hother ha)]
    exact ha

/-- No lockup contract opens in the first year. -/
theorem LockedUp.withdrawMP {lockup : Address} (h : LockedUp f m)
    (hblock : block.timestamp < d.deploymentStartTime + MPToken.ONE_YEAR_IN_SECONDS) :
    LockupContract.withdrawMP d block lockup caller m ≠ .ok m' := by
  intro hw
  unfold LockupContract.withdrawMP at hw
  cases hc : m.lockups lockup with
  | none =>
    rw [hc] at hw
    cases hw
  | some c =>
    simp only [hc, bind_ok, require_ok] at hw
    obtain ⟨_, -, _, hopen, -⟩ := hw
    have hlate := (h.created lockup c hc).2
    omega

theorem LockedUp.step (h : LockedUp f m) (hstep : FirstYearStep f m m') :
    LockedUp f m' ∧ FirstYearEffect f m m' := by
  obtain ⟨block, caller, c, hblock, hpossible, hc⟩ := hstep
  cases c with
  | transfer recipient amount =>
    obtain ⟨s, hs, rfl⟩ := MPState.onSystem_ok hc
    refine h.move (MPToken.transfer_move hs) hpossible ?_
    rintro rfl
    exact MPToken.transfer_multisig hblock hs
  | approve spender amount =>
    simp only [MPCall.execute, MPToken.approve, bind_ok] at hc
    obtain ⟨_, -, hc⟩ := hc
    exact (h.approve hpossible hc).imp_right .of_system
  | transferFrom sender recipient amount => exact h.transferFrom hblock hc
  | increaseAllowance spender addedValue =>
    simp only [MPCall.execute, MPToken.increaseAllowance, bind_ok] at hc
    obtain ⟨_, -, _, -, hc⟩ := hc
    exact (h.approve hpossible hc).imp_right .of_system
  | decreaseAllowance spender subtractedValue =>
    simp only [MPCall.execute, MPToken.decreaseAllowance, bind_ok] at hc
    obtain ⟨_, -, _, -, hc⟩ := hc
    exact (h.approve hpossible hc).imp_right .of_system
  | permit recoveredAddress owner spender amount deadline =>
    simp only [MPCall.execute, MPToken.permit, bind_ok, require_ok] at hc
    obtain ⟨_, -, _, rfl, hc⟩ := hc
    have hcounted : LockedUp f { m with
        nonces := Function.update m.nonces recoveredAddress (m.nonces recoveredAddress + 1) } :=
      ⟨h.registered, h.created, h.allowances⟩
    -- the signer is the owner, who acts for itself
    exact (hcounted.approve hpossible.2 hc).imp_right fun hsame => .of_system (hsame.trans rfl)
  | sendToMPStaking sender amount =>
    simp only [MPCall.execute, MPToken.requireCallerIsMPStaking, bind_ok, require_ok] at hc
    obtain ⟨_, hstaking, hc⟩ := hc
    obtain ⟨s, hs, rfl⟩ := MPState.onSystem_ok hc
    refine h.move (MPToken.sendToMPStaking_move hs) (hpossible.2 hstaking) ?_
    rintro rfl
    exact absurd hs (MPToken.sendToMPStaking_multisig hblock)
  | deployLockupContract lockup beneficiary unlockTime => exact h.deploy hpossible.2 hc
  | withdrawMP lockup => exact absurd hc (h.withdrawMP hblock)

theorem FirstYearEffect.registered (h : FirstYearEffect f m m') (ha : m.Registered a) :
    m'.Registered a := by
  cases h with
  | unmoved _ hregistered => exact hregistered a ha
  | moved _ _ _ _ _ _ hregistered => exact (hregistered a).mp ha

/-- What a lockup contract holds stays there. -/
theorem FirstYearEffect.stays (hlocked : LockedUp f m) (h : FirstYearEffect f m m')
    (ha : m.Registered a) : m.balances a ≤ m'.balances a := by
  cases h with
  | unmoved hbalances _ => rw [hbalances]
  | moved sender recipient amount hacts _ hbalances _ =>
    have hne : a ≠ sender := by
      rintro rfl
      exact hlocked.not_acts ha hacts
    rw [hbalances]
    exact le_move hne

/-- What the multisig and the registered lockup contracts hold together. -/
def MPState.locked (d : Deployment) (m : MPState) : ℕ :=
  m.balances d.multisig + ∑ a with m.Registered a, m.balances a

theorem FirstYearEffect.locked_le (hlocked : LockedUp f m) (h : FirstYearEffect f m m') :
    m.locked d ≤ m'.locked d := by
  have hmore : ∑ a with m.Registered a, m'.balances a ≤
      ∑ a with m'.Registered a, m'.balances a := by
    apply Finset.sum_le_sum_of_subset
    intro a ha
    simp only [Finset.mem_filter, Finset.mem_univ, true_and] at ha ⊢
    exact h.registered ha
  have hstays : ∑ a with m.Registered a, m.balances a ≤ ∑ a with m.Registered a, m'.balances a := by
    apply Finset.sum_le_sum
    intro a ha
    exact h.stays hlocked (by simpa using ha)
  unfold MPState.locked
  cases h with
  | unmoved hbalances _ =>
    rw [hbalances] at hmore ⊢
    omega
  | moved sender recipient amount hacts hmultisig hbalances _ =>
    by_cases hsender : sender = d.multisig
    · -- what leaves the multisig arrives in the registered lockup contract
      have hrecipient := hmultisig hsender
      have hne : sender ≠ recipient := by
        rintro rfl
        exact hlocked.not_acts hrecipient hacts
      have hpaid : ∑ a with m.Registered a, m'.balances a =
          (∑ a with m.Registered a, m.balances a) + amount := by
        rw [hbalances]
        apply sum_move
        · simp only [Finset.mem_filter, Finset.mem_univ, true_and]
          exact fun ha => hlocked.not_acts ha hacts
        · simpa using hrecipient
      have hleft : m'.balances sender = m.balances sender - amount := by
        rw [hbalances, move_source hne]
      rw [← hsender, hleft]
      omega
    · have hleft : m.balances d.multisig ≤ m'.balances d.multisig := by
        rw [hbalances]
        exact le_move (Ne.symm hsender)
      omega

theorem LockedUp.run (h : LockedUp f m) (hrun : Relation.ReflTransGen (FirstYearStep f) m m') :
    LockedUp f m' ∧ m.locked d ≤ m'.locked d ∧
      ∀ a, m.Registered a → m'.Registered a ∧ m.balances a ≤ m'.balances a := by
  induction hrun with
  | refl => exact ⟨h, le_rfl, fun a ha => ⟨ha, le_rfl⟩⟩
  | tail _ hstep ih =>
    obtain ⟨hlocked, htogether, hstays⟩ := ih
    obtain ⟨hlocked', heffect⟩ := hlocked.step hstep
    refine ⟨hlocked', htogether.trans (heffect.locked_le hlocked), fun a ha => ?_⟩
    obtain ⟨ha', hle⟩ := hstays a ha
    exact ⟨heffect.registered ha', hle.trans (heffect.stays hlocked ha')⟩

/-- What the first year guarantees in a state that a run from deployment reaches. -/
structure FirstYearLockup (f : LockupContractFactory d) (m₀ m : MPState) : Prop where
  /-- What left the multisig is in registered lockup contracts. -/
  locked : m₀.balances d.multisig ≤ m.balances d.multisig + ∑ a with m.Registered a, m.balances a
  /-- What leaves it next goes to one of them. -/
  leaves : ∀ m', FirstYearStep f m m' → m'.balances d.multisig < m.balances d.multisig →
    ∃ lockup amount, m.Registered lockup ∧
      m'.balances = move d.multisig lockup amount m.balances
  stays : ∀ m', Relation.ReflTransGen (FirstYearStep f) m m' → ∀ a, m.Registered a →
    m'.Registered a ∧ m.balances a ≤ m'.balances a
  spent : ∀ block caller recipient amount m',
    block.timestamp < d.deploymentStartTime + MPToken.ONE_YEAR_IN_SECONDS →
    (MPCall.transferFrom d.multisig recipient amount).execute d block caller m ≠ .ok m'
  staked : ∀ block caller amount m',
    block.timestamp < d.deploymentStartTime + MPToken.ONE_YEAR_IN_SECONDS →
    (MPCall.sendToMPStaking d.multisig amount).execute d block caller m ≠ .ok m'

/-- The lockup holds after any calls in the first year. -/
theorem first_year_lockup (hdeployed : m₀.Deployed)
    (hrun : Relation.ReflTransGen (FirstYearStep f) m₀ m) : FirstYearLockup f m₀ m := by
  obtain ⟨hlocked, htogether, -⟩ := (LockedUp.start (f := f) hdeployed).run hrun
  constructor
  · have hnone : ∑ a with m₀.Registered a, m₀.balances a = 0 := by
      apply Finset.sum_eq_zero
      intro a ha
      have hregistered : m₀.Registered a := by simpa using ha
      unfold MPState.Registered MPToken.isRegisteredLockup at hregistered
      rw [hdeployed.registered] at hregistered
      exact absurd rfl hregistered
    unfold MPState.locked at htogether
    omega
  · intro m' hstep hless
    obtain ⟨-, heffect⟩ := hlocked.step hstep
    cases heffect with
    | unmoved hbalances _ =>
      rw [hbalances] at hless
      exact absurd hless (lt_irrefl _)
    | moved sender recipient amount hacts hmultisig hbalances _ =>
      have hsender : sender = d.multisig := by
        by_contra hne
        rw [hbalances] at hless
        exact absurd (le_move (Ne.symm hne)) (Nat.not_le.mpr hless)
      exact ⟨recipient, amount, hmultisig hsender, hsender ▸ hbalances⟩
  · intro m' hrun' a ha
    exact (hlocked.run hrun').2.2 a ha
  · intro block caller recipient amount m' hblock
    exact MPToken.transferFrom_multisig hblock
  · intro block caller amount m' hblock h
    simp only [MPCall.execute, MPToken.requireCallerIsMPStaking, bind_ok] at h
    obtain ⟨_, -, h⟩ := h
    obtain ⟨s, hs, -⟩ := MPState.onSystem_ok h
    exact MPToken.sendToMPStaking_multisig hblock hs

/-- A factory that creates at one address only. -/
def testFactory : LockupContractFactory testnet := ⟨fun a => a = 1000, by decide⟩

/-- The MP tokens are the multisig's. -/
def testMint : MPState where
  system := { testGenesis.state with mpToken := ⟨fun a => if a = 13 then 100 else 0, fun _ => 0⟩ }
  allowances _ _ := 0
  nonces _ := 0
  lockups _ := none

theorem testMint_deployed : testMint.Deployed := ⟨rfl, rfl, rfl, rfl⟩

/-- A lockup contract is deployed, and the multisig pays it. -/
theorem first_year_lockup_paid : ∃ m, FirstYearLockup testFactory testMint m ∧
    m.Registered 1000 ∧ m.balances 1000 = 40 ∧ m.balances 13 = 60 := by
  have hdeploys : succeeds (fun m => succeeds
      (fun m' : MPState =>
        decide (m'.Registered 1000 ∧ m'.balances 1000 = 40 ∧ m'.balances 13 = 60))
      ((MPCall.transfer 1000 40).execute testnet (testBlock 1) 13 m))
      ((MPCall.deployLockupContract 1000 8 31536000).execute testnet (testBlock 1) 107
        testMint) = true := by
    decide +kernel
  obtain ⟨m₁, hdeploy, hpays⟩ := exists_of_succeeds hdeploys
  obtain ⟨m, hpay, hcheck⟩ := exists_of_succeeds hpays
  have hdeployed : FirstYearStep testFactory testMint m₁ :=
    ⟨testBlock 1, 107, .deployLockupContract 1000 8 31536000, by decide,
      ⟨show ¬(107 : Address) = 1000 by decide, rfl⟩, hdeploy⟩
  have hpaid : FirstYearStep testFactory m₁ m :=
    ⟨testBlock 1, 13, .transfer 1000 40, by decide, show ¬(13 : Address) = 1000 by decide, hpay⟩
  exact ⟨m, first_year_lockup testMint_deployed
    ((Relation.ReflTransGen.single hdeployed).tail hpaid),
    of_decide_eq_true hcheck⟩

end MoneyProtocol
