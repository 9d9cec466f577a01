import MoneyProtocol.Sdk.Fees
import MoneyProtocol.Store.BlockPolledMoneypStore

/-!
# What the store reads and derives

The base state has a field for each read of the chain, and the fees. `_get` resolves all of the
reads together; where one fails, the error that was caught stands in its place. The reducer
compares the fields with the methods of their values.
-/

namespace MoneyProtocol.Sdk

open Outcome Decimal

inductive FrontendStatus where
  | unregistered
  | registered (kickbackRate : Decimal)
  deriving DecidableEq

structure UserVault extends Vault where
  ownerAddress : Address
  status : UserVaultStatus
  deriving DecidableEq

/-- A vault as it was after its last modification, with its owner. -/
structure OwnedVault extends VaultWithPendingRedistribution where
  ownerAddress : Address

def OwnedVault.applyRedistribution (v : OwnedVault) (totalRedistributed : Vault) : UserVault :=
  { v.toVaultWithPendingRedistribution.applyRedistribution totalRedistributed with
    ownerAddress := v.ownerAddress
    status := v.status }

structure StabilityDeposit where
  initialBPD : Decimal
  currentBPD : Decimal
  collateralGain : Decimal
  mpReward : Decimal
  frontendTag : Address

structure MPStake where
  stakedMP : Decimal := ZERO
  collateralGain : Decimal := ZERO
  bpdGain : Decimal := ZERO

def Decimal.eq (a that : Decimal) : Bool := decide (a = that)

def Vault.equals (v that : Vault) : Bool :=
  v.collateral.eq that.collateral && v.debt.eq that.debt

def UserVault.equals (v that : UserVault) : Bool :=
  v.toVault.equals that.toVault && decide (v.ownerAddress = that.ownerAddress) &&
    decide (v.status = that.status)

def OwnedVault.equals (v that : OwnedVault) : Bool :=
  v.toVault.equals that.toVault && decide (v.ownerAddress = that.ownerAddress) &&
    decide (v.status = that.status) && v.stake.eq that.stake &&
    v.snapshotOfTotalRedistributed.equals that.snapshotOfTotalRedistributed

def StabilityDeposit.equals (d that : StabilityDeposit) : Bool :=
  d.initialBPD.eq that.initialBPD && d.currentBPD.eq that.currentBPD &&
    d.collateralGain.eq that.collateralGain && d.mpReward.eq that.mpReward &&
    decide (d.frontendTag = that.frontendTag)

def MPStake.equals (s that : MPStake) : Bool :=
  s.stakedMP.eq that.stakedMP && s.collateralGain.eq that.collateralGain &&
    s.bpdGain.eq that.bpdGain

/-- The time values are compared as numbers, and that of an invalid date equals none. -/
def sameTime : Date → Date → Bool
  | some t, some t' => decide (t = t')
  | _, _ => false

def Fees.equals (f that : Fees) : Bool :=
  f.baseRateWithoutDecay.eq that.baseRateWithoutDecay &&
    f.minuteDecayFactor.eq that.minuteDecayFactor && f.beta.eq that.beta &&
    sameTime f.lastFeeOperation that.lastFeeOperation &&
    sameTime f.timeOfLatestBlock that.timeOfLatestBlock && f.recoveryMode == that.recoveryMode

def Fees.setRecoveryMode (f : Fees) (recoveryMode : Bool) : Outcome Fees :=
  Fees.new f.baseRateWithoutDecay f.minuteDecayFactor f.beta f.lastFeeOperation
    f.timeOfLatestBlock recoveryMode

/-- The fields of the base state that are read, in the order of the reads. -/
inductive ReadField where
  | price
  | numberOfVaults
  | totalRedistributed
  | total
  | bpdInStabilityPool
  | totalStakedMP
  | riskiestVaultBeforeRedistribution
  | remainingStabilityPoolMPReward
  | frontend
  | accountBalance
  | bpdBalance
  | mpBalance
  | collateralSurplusBalance
  | vaultBeforeRedistribution
  | stabilityDeposit
  | mpStake
  | ownFrontend
  deriving DecidableEq

def ReadField.all : List ReadField :=
  [.price, .numberOfVaults, .totalRedistributed, .total, .bpdInStabilityPool, .totalStakedMP,
    .riskiestVaultBeforeRedistribution, .remainingStabilityPoolMPReward, .frontend,
    .accountBalance, .bpdBalance, .mpBalance, .collateralSurplusBalance,
    .vaultBeforeRedistribution, .stabilityDeposit, .mpStake, .ownFrontend]

theorem ReadField.mem_all (f : ReadField) : f ∈ all := by
  cases f <;> decide

/-- The kind of value that a field is declared with. -/
@[reducible] def ReadField.Value : ReadField → Type
  | .price | .bpdInStabilityPool | .totalStakedMP | .remainingStabilityPoolMPReward => Decimal
  | .accountBalance | .bpdBalance | .mpBalance | .collateralSurplusBalance => Decimal
  | .numberOfVaults => ℕ
  | .total | .totalRedistributed => Vault
  | .riskiestVaultBeforeRedistribution | .vaultBeforeRedistribution => OwnedVault
  | .stabilityDeposit => StabilityDeposit
  | .mpStake => MPStake
  | .frontend | .ownFrontend => FrontendStatus

/-- What stands in the fields that are read. -/
abbrev ReadFields := (f : ReadField) → Fetched f.Value

structure MoneypStoreBaseState where
  fields : ReadFields
  feesInNormalMode : Fees

structure MoneypStoreDerivedState where
  vault : UserVault
  fees : Fees
  borrowingRate : Decimal
  redemptionRate : Decimal
  haveUndercollateralizedVaults : Bool

/-- An error is not identical to anything that was there before. -/
def strictEquals : Fetched ℕ → Fetched ℕ → Outcome Bool
  | .value a, .value b => return decide (a = b)
  | _, _ => return false

/-- `eq` and `equals` call a method of the value. An error has no such method, and what it lacks is
no argument to one. -/
def byMethod {α : Type} (equals : α → α → Bool) : Fetched α → Fetched α → Outcome Bool
  | .value a, .value b => return equals a b
  | _, _ => .error .invalid

/-- The status of an error is undefined, and so is its rate. -/
def frontendStatusEquals : Fetched FrontendStatus → Fetched FrontendStatus → Outcome Bool
  | .value .unregistered, .value .unregistered => return true
  | .value .unregistered, _ => return false
  | .value (.registered a), .value (.registered b) => return a.eq b
  | .error, .value (.registered _) => .error .invalid
  | _, _ => return false

def sameValue : (f : ReadField) → Fetched f.Value → Fetched f.Value → Outcome Bool
  | .price | .bpdInStabilityPool | .totalStakedMP | .remainingStabilityPoolMPReward =>
    byMethod Decimal.eq
  | .accountBalance | .bpdBalance | .mpBalance | .collateralSurplusBalance => byMethod Decimal.eq
  | .numberOfVaults => strictEquals
  | .total | .totalRedistributed => byMethod Vault.equals
  | .riskiestVaultBeforeRedistribution | .vaultBeforeRedistribution => byMethod OwnedVault.equals
  | .stabilityDeposit => byMethod StabilityDeposit.equals
  | .mpStake => byMethod MPStake.equals
  | .frontend | .ownFrontend => frontendStatusEquals

/-- The new value, unless it is the same as the old one. -/
def updateIfChanged (f : ReadField) (prev next : Fetched f.Value) : Fetched f.Value :=
  match sameValue f prev next with
  | .ok true => prev
  | _ => next

/-- The comparison of every field has to come to its end; that of the fees always does. -/
def reduce (baseState baseStateUpdate : MoneypStoreBaseState) : Outcome MoneypStoreBaseState := do
  assert (∀ f ∈ ReadField.all,
    (sameValue f (baseState.fields f) (baseStateUpdate.fields f)).isOk = true)
  return {
    fields := fun f => updateIfChanged f (baseState.fields f) (baseStateUpdate.fields f)
    feesInNormalMode :=
      if baseState.feesInNormalMode.equals baseStateUpdate.feesInNormalMode then
        baseState.feesInNormalMode
      else baseStateUpdate.feesInNormalMode }

/-- The fields whose values are compared by a method of theirs. -/
def ReadField.comparedByMethod : ReadField → Bool
  | .numberOfVaults | .frontend | .ownFrontend => false
  | _ => true

theorem sameValue_values (f : ReadField) (a b : f.Value) :
    ∃ same, sameValue f (.value a) (.value b) = .ok same := by
  cases f with
  | frontend => cases a <;> cases b <;> exact ⟨_, rfl⟩
  | ownFrontend => cases a <;> cases b <;> exact ⟨_, rfl⟩
  | _ => exact ⟨_, rfl⟩

/-- The comparison with an error throws. -/
theorem sameValue_method {f : ReadField} (h : f.comparedByMethod = true)
    (prev : Fetched f.Value) : sameValue f prev .error = .error .invalid := by
  cases f with
  | numberOfVaults => exact absurd h Bool.false_ne_true
  | frontend => exact absurd h Bool.false_ne_true
  | ownFrontend => exact absurd h Bool.false_ne_true
  | _ => cases prev <;> rfl

/-- Or it finds the error to be a new value. -/
theorem sameValue_other {f : ReadField} (h : ¬f.comparedByMethod = true) (a : f.Value) :
    sameValue f (.value a) .error = .ok false := by
  cases f with
  | numberOfVaults => rfl
  | frontend => cases a <;> rfl
  | ownFrontend => cases a <;> rfl
  | _ => exact absurd rfl h

theorem updateIfChanged_cases (f : ReadField) (prev next : Fetched f.Value) :
    updateIfChanged f prev next = prev ∨ updateIfChanged f prev next = next := by
  unfold updateIfChanged
  split
  · exact .inl rfl
  · exact .inr rfl

section reduce

variable {prev next s : MoneypStoreBaseState} {f : ReadField}

theorem reduce_ok (h : reduce prev next = .ok s) :
    (∀ f, s.fields f = prev.fields f ∨ s.fields f = next.fields f) ∧
      (s.feesInNormalMode = prev.feesInNormalMode ∨
        s.feesInNormalMode = next.feesInNormalMode) := by
  obtain ⟨_, -, h⟩ := bind_ok.mp h
  rw [← pure_ok.mp h]
  constructor
  · intro f
    exact updateIfChanged_cases f _ _
  · dsimp only
    split_ifs
    · exact .inl rfl
    · exact .inr rfl

theorem reduce_method (hf : f.comparedByMethod = true) (h : next.fields f = .error) :
    ∃ e, reduce prev next = .error e := by
  cases hreduce : reduce prev next with
  | error e => exact ⟨e, rfl⟩
  | ok s =>
    obtain ⟨_, hassert, -⟩ := bind_ok.mp hreduce
    have hcompared := assert_ok.mp hassert f f.mem_all
    rw [h, sameValue_method hf] at hcompared
    exact absurd hcompared Bool.false_ne_true

/-- Where only the other fields have errors, the reduction comes to its end, and keeps them. -/
theorem reduce_other (hprev : ∀ f, prev.fields f ≠ .error)
    (hnext : ∀ f, f.comparedByMethod = true → next.fields f ≠ .error) :
    ∃ s, reduce prev next = .ok s ∧ (∀ f, next.fields f = .error → s.fields f = .error) ∧
      (next.feesInNormalMode.timeOfLatestBlock = none →
        s.feesInNormalMode = next.feesInNormalMode) := by
  have hcompare (f : ReadField) : ∃ same, sameValue f (prev.fields f) (next.fields f) = .ok same ∧
      (next.fields f = .error → same = false) := by
    cases ha : prev.fields f with
    | error => exact absurd ha (hprev f)
    | value a =>
      cases hb : next.fields f with
      | error =>
        have hf : ¬f.comparedByMethod = true := fun hf => hnext f hf hb
        exact ⟨false, sameValue_other hf a, fun _ => rfl⟩
      | value b =>
        obtain ⟨same, h⟩ := sameValue_values f a b
        exact ⟨same, h, fun hnot => Fetched.noConfusion rfl (heq_of_eq hnot)⟩
  have hall : ∀ f ∈ ReadField.all,
      (sameValue f (prev.fields f) (next.fields f)).isOk = true := by
    intro f _
    obtain ⟨same, h, -⟩ := hcompare f
    rw [h]
    rfl
  refine ⟨_, bind_ok.mpr ⟨(), assert_ok.mpr hall, rfl⟩, ?_, ?_⟩
  · intro f hf
    obtain ⟨same, h, hsame⟩ := hcompare f
    dsimp only
    rw [updateIfChanged, h, hsame hf]
    exact hf
  · intro hdate
    have hchanged : prev.feesInNormalMode.equals next.feesInNormalMode = false := by
      rw [Fees.equals, hdate]
      simp [sameTime]
    dsimp only
    rw [hchanged]
    rfl

end reduce

theorem Decimal.eq_iff {a b : Decimal} : a.eq b = true ↔ a = b := by
  rw [Decimal.eq, decide_eq_true_iff]

theorem Vault.equals_eq {a b : Vault} (h : a.equals b = true) : a = b := by
  simp only [Vault.equals, Bool.and_eq_true, Decimal.eq_iff] at h
  cases a
  cases b
  simp only [Vault.mk.injEq]
  exact h

theorem UserVault.equals_eq {a b : UserVault} (h : a.equals b = true) : a = b := by
  obtain ⟨_, _, _⟩ := a
  obtain ⟨_, _, _⟩ := b
  simp only [UserVault.equals, Bool.and_eq_true, decide_eq_true_iff] at h
  obtain ⟨⟨hvault, rfl⟩, rfl⟩ := h
  rw [Vault.equals_eq hvault]

theorem OwnedVault.equals_eq {a b : OwnedVault} (h : a.equals b = true) : a = b := by
  obtain ⟨⟨⟨_, _⟩, _, _, _⟩, _⟩ := a
  obtain ⟨⟨⟨_, _⟩, _, _, _⟩, _⟩ := b
  simp only [OwnedVault.equals, Bool.and_eq_true, Decimal.eq_iff, decide_eq_true_iff] at h
  obtain ⟨⟨⟨⟨hvault, rfl⟩, rfl⟩, rfl⟩, hsnapshot⟩ := h
  obtain ⟨rfl, rfl⟩ := Vault.mk.inj (Vault.equals_eq hvault)
  rw [Vault.equals_eq hsnapshot]

theorem StabilityDeposit.equals_eq {a b : StabilityDeposit} (h : a.equals b = true) : a = b := by
  cases a
  cases b
  simp only [StabilityDeposit.equals, Bool.and_eq_true, Decimal.eq_iff, decide_eq_true_iff] at h
  obtain ⟨⟨⟨⟨rfl, rfl⟩, rfl⟩, rfl⟩, rfl⟩ := h
  rfl

theorem MPStake.equals_eq {a b : MPStake} (h : a.equals b = true) : a = b := by
  cases a
  cases b
  simp only [MPStake.equals, Bool.and_eq_true, Decimal.eq_iff] at h
  obtain ⟨⟨rfl, rfl⟩, rfl⟩ := h
  rfl

theorem sameTime_eq {a b : Date} (h : sameTime a b = true) : a = b := by
  cases a with
  | none => exact absurd h Bool.false_ne_true
  | some a =>
    cases b with
    | none => exact absurd h Bool.false_ne_true
    | some b => rw [of_decide_eq_true h]

theorem Fees.equals_eq {a b : Fees} (h : a.equals b = true) : a = b := by
  cases a
  cases b
  simp only [Fees.equals, Bool.and_eq_true, Decimal.eq_iff, beq_iff_eq] at h
  obtain ⟨⟨⟨⟨⟨rfl, rfl⟩, rfl⟩, hlast⟩, hlatest⟩, rfl⟩ := h
  rw [sameTime_eq hlast, sameTime_eq hlatest]

theorem byMethod_eq {α : Type} {equals : α → α → Bool} {prev next : Fetched α}
    (hequals : ∀ a b, equals a b = true → a = b) (h : byMethod equals prev next = .ok true) :
    prev = next := by
  cases prev with
  | error => exact absurd h (by simp [byMethod])
  | value a =>
    cases next with
    | error => exact absurd h (by simp [byMethod])
    | value b => rw [hequals a b (pure_ok.mp h)]

theorem strictEquals_eq {prev next : Fetched ℕ} (h : strictEquals prev next = .ok true) :
    prev = next := by
  cases prev with
  | error => exact absurd h (by simp [strictEquals])
  | value a =>
    cases next with
    | error => exact absurd h (by simp [strictEquals])
    | value b => rw [of_decide_eq_true (pure_ok.mp h)]

theorem frontendStatusEquals_eq {prev next : Fetched FrontendStatus}
    (h : frontendStatusEquals prev next = .ok true) : prev = next := by
  unfold frontendStatusEquals at h
  split at h
  · rfl
  · exact absurd (pure_ok.mp h) Bool.false_ne_true
  · rw [Decimal.eq_iff.mp (pure_ok.mp h)]
  · exact absurd h (by simp)
  · exact absurd (pure_ok.mp h) Bool.false_ne_true

/-- A value that compares as the same is the same. -/
theorem sameValue_eq {f : ReadField} {prev next : Fetched f.Value}
    (h : sameValue f prev next = .ok true) : prev = next := by
  cases f with
  | numberOfVaults => exact strictEquals_eq h
  | total => exact byMethod_eq (fun _ _ => Vault.equals_eq) h
  | totalRedistributed => exact byMethod_eq (fun _ _ => Vault.equals_eq) h
  | riskiestVaultBeforeRedistribution => exact byMethod_eq (fun _ _ => OwnedVault.equals_eq) h
  | vaultBeforeRedistribution => exact byMethod_eq (fun _ _ => OwnedVault.equals_eq) h
  | stabilityDeposit => exact byMethod_eq (fun _ _ => StabilityDeposit.equals_eq) h
  | mpStake => exact byMethod_eq (fun _ _ => MPStake.equals_eq) h
  | frontend => exact frontendStatusEquals_eq h
  | ownFrontend => exact frontendStatusEquals_eq h
  | _ => exact byMethod_eq (fun _ _ => Decimal.eq_iff.mp) h

theorem updateIfChanged_eq (f : ReadField) (prev next : Fetched f.Value) :
    updateIfChanged f prev next = next := by
  unfold updateIfChanged
  split
  · next h => exact sameValue_eq h
  · rfl

/-- The reductions keep old objects where they can, but the values are those of the update. -/
theorem reduce_eq {prev next s : MoneypStoreBaseState} (h : reduce prev next = .ok s) :
    s = next := by
  obtain ⟨_, -, h⟩ := bind_ok.mp h
  rw [← pure_ok.mp h]
  obtain ⟨fields, fees⟩ := next
  congr 1
  · funext f
    exact updateIfChanged_eq f _ _
  · dsimp only
    split_ifs with hequals
    · exact Fees.equals_eq hequals
    · rfl

/-- Whatever is computed with an error throws. -/
def Fetched.get {α : Type} : Fetched α → Outcome α
  | .value a => return a
  | .error => .error .invalid

def derive (s : MoneypStoreBaseState) : Outcome MoneypStoreDerivedState := do
  let total ← (s.fields .total).get
  let price ← (s.fields .price).get
  let fees ← s.feesInNormalMode.setRecoveryMode (total.collateralRatioIsBelowCritical price)
  let vaultBeforeRedistribution ← (s.fields .vaultBeforeRedistribution).get
  let totalRedistributed ← (s.fields .totalRedistributed).get
  let borrowingRate ← fees.borrowingRate fees.timeOfLatestBlock
  let redemptionRate ← fees.redemptionRate ZERO fees.timeOfLatestBlock
  let riskiestVaultBeforeRedistribution ← (s.fields .riskiestVaultBeforeRedistribution).get
  return {
    vault := vaultBeforeRedistribution.applyRedistribution totalRedistributed
    fees := fees
    borrowingRate := borrowingRate
    redemptionRate := redemptionRate
    haveUndercollateralizedVaults :=
      (riskiestVaultBeforeRedistribution.applyRedistribution
        totalRedistributed).collateralRatioIsBelowMinimum price }

def reduceDerived (derivedState derivedStateUpdate : MoneypStoreDerivedState) :
    MoneypStoreDerivedState where
  fees := if derivedStateUpdate.fees.equals derivedState.fees then derivedState.fees
    else derivedStateUpdate.fees
  vault := if derivedState.vault.equals derivedStateUpdate.vault then derivedState.vault
    else derivedStateUpdate.vault
  borrowingRate :=
    if derivedState.borrowingRate.eq derivedStateUpdate.borrowingRate then
      derivedState.borrowingRate
    else derivedStateUpdate.borrowingRate
  redemptionRate :=
    if derivedState.redemptionRate.eq derivedStateUpdate.redemptionRate then
      derivedState.redemptionRate
    else derivedStateUpdate.redemptionRate
  haveUndercollateralizedVaults :=
    if derivedState.haveUndercollateralizedVaults = derivedStateUpdate.haveUndercollateralizedVaults
    then derivedState.haveUndercollateralizedVaults
    else derivedStateUpdate.haveUndercollateralizedVaults

theorem reduceDerived_eq (prev next : MoneypStoreDerivedState) :
    reduceDerived prev next = next := by
  have hpick {α : Type} {p : Prop} [Decidable p] {a b : α} (h : p → a = b) :
      (if p then a else b) = b := by
    split_ifs with hp
    · exact h hp
    · rfl
  unfold reduceDerived
  rw [hpick fun h => (Fees.equals_eq h).symm, hpick fun h => UserVault.equals_eq h,
    hpick fun h => Decimal.eq_iff.mp h, hpick fun h => Decimal.eq_iff.mp h, hpick fun h => h]

/-- The values of the store. -/
def moneypValues : BaseValues MoneypStoreBaseState MoneypStoreDerivedState where
  derive := derive
  reduce := reduce
  reduceDerived := fun derivedState derivedStateUpdate =>
    return reduceDerived derivedState derivedStateUpdate

structure BitcoinsMoneypConnection where
  userAddress : Option Address
  frontendTag : Option Address

/-- What the reads of a block resolve to. That of `createFees` is the time of the last fee operation
and the base rate. -/
structure Reads where
  blockTimestamp : Fetched ℕ
  createFees : Fetched (ℕ × Decimal)
  fields : ReadFields

/-- The fields that are not read without a frontend or a user. -/
def withoutRead (connection : BitcoinsMoneypConnection) : (f : ReadField) → Option f.Value
  | .frontend => if connection.frontendTag.isSome then none else some .unregistered
  | .accountBalance | .bpdBalance | .mpBalance | .collateralSurplusBalance =>
    if connection.userAddress.isSome then none else some ZERO
  | .vaultBeforeRedistribution =>
    if connection.userAddress.isSome then none
    else some { collateral := ZERO, debt := ZERO, status := .nonExistent, ownerAddress := 0 }
  | .stabilityDeposit =>
    if connection.userAddress.isSome then none else some ⟨ZERO, ZERO, ZERO, ZERO, 0⟩
  | .mpStake => if connection.userAddress.isSome then none else some {}
  | .ownFrontend => if connection.userAddress.isSome then none else some .unregistered
  | _ => none

def fetchedFields (connection : BitcoinsMoneypConnection) (reads : Reads) : ReadFields := fun f =>
  match withoutRead connection f with
  | some a => .value a
  | none => reads.fields f

/-- The date of an error is invalid. -/
def dateOf : Fetched ℕ → Date
  | .value timestamp => convertToDate timestamp
  | .error => none

/-- An error in place of `createFees` cannot be called. -/
def fetchedFees (reads : Reads) : Outcome Fees := do
  let (lastFeeOperationTime, baseRateWithoutDecay) ← reads.createFees.get
  let lastFeeOperationTime ← toNumber lastFeeOperationTime
  Fees.new baseRateWithoutDecay MINUTE_DECAY_FACTOR BETA (convertToDate lastFeeOperationTime)
    (dateOf reads.blockTimestamp) false

/-- The base state and the timestamp of a block; `_get` rejects where it throws. -/
def get (connection : BitcoinsMoneypConnection) (reads : Reads) :
    Option (MoneypStoreBaseState × Fetched ℕ) :=
  match fetchedFees reads with
  | .ok fees => some (⟨fetchedFields connection reads, fees⟩, reads.blockTimestamp)
  | .error _ => none

section get

variable {connection : BitcoinsMoneypConnection} {reads : Reads}

theorem fetchedFees_ok {fees : Fees} (h : fetchedFees reads = .ok fees) :
    fees.timeOfLatestBlock = dateOf reads.blockTimestamp := by
  obtain ⟨_, -, h⟩ := bind_ok.mp h
  obtain ⟨_, -, h⟩ := bind_ok.mp h
  obtain ⟨_, -, h⟩ := bind_ok.mp h
  rw [← pure_ok.mp h]

/-- The fees cannot be created: they were not read, or the time of the last operation is no safe
integer. -/
def FeesRejected (reads : Reads) : Prop :=
  ∀ time baseRate, reads.createFees = .value (time, baseRate) → 2 ^ 53 ≤ time

theorem get_rejected (h : FeesRejected reads) : get connection reads = none := by
  unfold get
  cases hfees : fetchedFees reads with
  | error e => rfl
  | ok fees =>
    obtain ⟨⟨time, baseRate⟩, hget, hfees⟩ := bind_ok.mp hfees
    obtain ⟨_, htime, -⟩ := bind_ok.mp hfees
    obtain ⟨_, hsafe, -⟩ := bind_ok.mp htime
    cases hread : reads.createFees with
    | error =>
      rw [hread] at hget
      exact absurd hget (by simp [Fetched.get])
    | value read =>
      rw [hread] at hget
      rw [pure_ok.mp hget] at hread
      exact absurd (h time baseRate hread) (Nat.not_le.mpr (require_ok.mp hsafe))

theorem get_created (h : ¬FeesRejected reads) : ∃ b, get connection reads = some b := by
  unfold FeesRejected at h
  push Not at h
  obtain ⟨time, baseRate, hread, htime⟩ := h
  have hfees : fetchedFees reads = .ok ⟨baseRate, MINUTE_DECAY_FACTOR, BETA, convertToDate time,
      dateOf reads.blockTimestamp, false⟩ := by
    rw [fetchedFees, hread]
    refine bind_ok.mpr ⟨(time, baseRate), rfl, bind_ok.mpr ⟨time, ?_, ?_⟩⟩
    · exact bind_ok.mpr ⟨(), require_ok.mpr htime, rfl⟩
    · exact Fees.new_ok.mpr rfl
  rw [get, hfees]
  exact ⟨_, rfl⟩

theorem get_eq_some {b : MoneypStoreBaseState} {timestamp : Fetched ℕ}
    (h : get connection reads = some (b, timestamp)) :
    b.fields = fetchedFields connection reads ∧ fetchedFees reads = .ok b.feesInNormalMode ∧
      timestamp = reads.blockTimestamp := by
  unfold get at h
  cases hfees : fetchedFees reads with
  | error e =>
    rw [hfees] at h
    exact absurd h (by simp)
  | ok fees =>
    rw [hfees] at h
    obtain ⟨rfl, rfl⟩ := Prod.mk.inj (Option.some.inj h)
    exact ⟨rfl, rfl, rfl⟩

end get

end MoneyProtocol.Sdk
