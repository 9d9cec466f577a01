import MoneyProtocol.Sdk.Rates
import MoneyProtocol.Store.CachedReadable

/-!
# Reads from the cache

The answers to the fetches of a store may come in any order, and most of their reads may fail, but
the state is the answer of the block that it is tagged with as a whole. What is read for a block
through the cache is then never that of another one.
-/

namespace MoneyProtocol.Sdk

open Outcome Decimal

/-- The times of the blocks are in reach of a date and of the powers, and no fee operation is later
than its block. -/
structure Readable.Dated (r : Readable) : Prop where
  timestamp : ∀ n, r.getBlockTimestamp n < 60 * 2 ^ 32
  lastFeeOperation : ∀ n, (r.createFees n).1 ≤ r.getBlockTimestamp n

/-- The reads of a fetch of block `n`: what stands there, unless the read fails. The timestamp is
there, as the state would otherwise keep the tag of another block. -/
structure Reads.OfBlock (r : Readable) (connection : BitcoinsMoneypConnection) (n : ℕ)
    (reads : Reads) : Prop where
  timestamp : reads.blockTimestamp = .value (r.getBlockTimestamp n)
  fees : reads.createFees = .error ∨ reads.createFees = .value (r.createFees n)
  fields : ∀ f, withoutRead connection f = none →
    reads.fields f = .error ∨ reads.fields f = .value (r.field connection n f)

/-- A state of block `n` as a whole. -/
structure MoneypStoreBaseState.OfBlock (r : Readable) (connection : BitcoinsMoneypConnection)
    (n : ℕ) (b : MoneypStoreBaseState) : Prop where
  fields : ∀ f, b.fields f = .error ∨ b.fields f = .value (r.field connection n f)
  fees : r.feesAt n false = .ok b.feesInNormalMode

section answers

variable {r : Readable} {connection : BitcoinsMoneypConnection} {n : ℕ} {reads : Reads}
  {b : MoneypStoreBaseState} {timestamp : Fetched ℕ} {fees : Fees}

/-- What is fixed without a user or a frontend is what the fields have then. -/
theorem Readable.field_withoutRead {f : ReadField} {a : f.Value}
    (h : withoutRead connection f = some a) : r.field connection n f = a := by
  obtain ⟨userAddress, frontendTag⟩ := connection
  cases f with
  | frontend =>
    cases frontendTag with
    | none => exact Option.some.inj h
    | some _ => cases h
  | price => cases h
  | numberOfVaults => cases h
  | totalRedistributed => cases h
  | total => cases h
  | bpdInStabilityPool => cases h
  | totalStakedMP => cases h
  | riskiestVaultBeforeRedistribution => cases h
  | remainingStabilityPoolMPReward => cases h
  | _ =>
    cases userAddress with
    | none => exact Option.some.inj h
    | some _ => cases h

/-- An answer is of the block that it was fetched for. -/
theorem Reads.OfBlock.get (h : reads.OfBlock r connection n)
    (hget : Sdk.get connection reads = some (b, timestamp)) : b.OfBlock r connection n := by
  obtain ⟨hfields, hfees, -⟩ := get_eq_some hget
  constructor
  · intro f
    rw [hfields, fetchedFields]
    cases hwithout : withoutRead connection f with
    | none => exact h.fields f hwithout
    | some a => exact .inr (congrArg _ (Readable.field_withoutRead hwithout).symm)
  · rcases h.fees with herror | hvalue
    · rw [fetchedFees, herror] at hfees
      cases hfees
    · rw [fetchedFees, hvalue, h.timestamp] at hfees
      exact hfees

theorem Readable.feesAt_eq {recoveryMode : Bool} : r.feesAt n recoveryMode = .ok fees ↔
    (r.createFees n).1 < 2 ^ 53 ∧ fees = ⟨(r.createFees n).2, MINUTE_DECAY_FACTOR, BETA,
      convertToDate (r.createFees n).1, convertToDate (r.getBlockTimestamp n), recoveryMode⟩ := by
  simp only [feesAt, bind_ok, toNumber_ok, Fees.new_ok]
  constructor
  · rintro ⟨_, ⟨htime, rfl⟩, rfl⟩
    exact ⟨htime, rfl⟩
  · rintro ⟨htime, rfl⟩
    exact ⟨_, ⟨htime, rfl⟩, rfl⟩

/-- The flag that is set afterwards is that of fees created with it. -/
theorem Readable.setRecoveryMode_ok {recoveryMode : Bool} {fees' : Fees}
    (h : r.feesAt n false = .ok fees) :
    fees.setRecoveryMode recoveryMode = .ok fees' ↔ r.feesAt n recoveryMode = .ok fees' := by
  obtain ⟨htime, rfl⟩ := feesAt_eq.mp h
  rw [Fees.setRecoveryMode, Fees.new_ok, feesAt_eq]
  exact (and_iff_right htime).symm

/-- Dates can be made of such times, and a power of the time between them. -/
theorem times_in_reach {now last : ℕ} (hnow : now < 60 * 2 ^ 32) (hlast : last ≤ now) :
    now * 1000 ≤ 8640000000000000 ∧ last * 1000 ≤ 8640000000000000 ∧
      (now * 1000 - last * 1000) / 60000 ≤ 0xffffffff := by
  rw [minutes_eq]
  omega

theorem Readable.Dated.baseRate (hdated : r.Dated) {recoveryMode : Bool}
    (h : r.feesAt n recoveryMode = .ok fees) :
    ∃ rate, fees.baseRate fees.timeOfLatestBlock = .ok rate := by
  obtain ⟨-, rfl⟩ := feesAt_eq.mp h
  obtain ⟨hnow, hlast, hword⟩ := times_in_reach (hdated.timestamp n) (hdated.lastFeeOperation n)
  simp only [Fees.baseRate, convertToDate, Date.ofMilliseconds, if_pos hnow, if_pos hlast]
  exact ⟨_, bind_ok.mpr ⟨_, pow_decay hword, rfl⟩⟩

theorem Readable.Dated.rates (hdated : r.Dated) {recoveryMode : Bool}
    (h : r.feesAt n recoveryMode = .ok fees) :
    (∃ rate, fees.borrowingRate fees.timeOfLatestBlock = .ok rate) ∧
      ∃ rate, fees.redemptionRate ZERO fees.timeOfLatestBlock = .ok rate := by
  obtain ⟨baseRate, hbaseRate⟩ := hdated.baseRate h
  constructor
  · rw [Fees.borrowingRate]
    split_ifs
    · exact ⟨_, rfl⟩
    · exact ⟨_, bind_ok.mpr ⟨baseRate, hbaseRate, rfl⟩⟩
  · exact ⟨_, bind_ok.mpr ⟨baseRate, hbaseRate, rfl⟩⟩

/-- Where no read of a method's value has failed, the state can be derived. -/
theorem derive_total (hdated : r.Dated) (hb : b.OfBlock r connection n)
    (hmethod : ∀ f, f.comparedByMethod = true → b.fields f ≠ .error) :
    ∃ next, derive b = .ok next := by
  have hvalue {f : ReadField} (hf : f.comparedByMethod = true) :
      (b.fields f).get = .ok (r.field connection n f) := by
    rw [(hb.fields f).resolve_left (hmethod f hf)]
    rfl
  obtain ⟨htime, -⟩ := Readable.feesAt_eq.mp hb.fees
  have hfees : r.feesAt n ((r.getTotal n).collateralRatioIsBelowCritical (r.getPrice n)) = .ok _ :=
    Readable.feesAt_eq.mpr ⟨htime, rfl⟩
  have hset := (Readable.setRecoveryMode_ok hb.fees).mpr hfees
  obtain ⟨⟨borrowingRate, hborrowing⟩, redemptionRate, hredemption⟩ := hdated.rates hfees
  refine ⟨_, bind_ok.mpr ⟨_, hvalue rfl, bind_ok.mpr ⟨_, hvalue rfl, bind_ok.mpr ⟨_, hset,
    bind_ok.mpr ⟨_, hvalue rfl, bind_ok.mpr ⟨_, hvalue rfl, bind_ok.mpr ⟨borrowingRate, hborrowing,
      bind_ok.mpr ⟨redemptionRate, hredemption, bind_ok.mpr ⟨_, hvalue rfl, rfl⟩⟩⟩⟩⟩⟩⟩⟩⟩

end answers

/-- Reads that answered a fetch of a block, with that block. -/
abbrev BlockReads := ℕ × Reads

/-- One of these answers to fetches of block `n` came without the field, as its read had failed. -/
def FailedIn (connection : BitcoinsMoneypConnection) (answers : BlockReads → Prop) (n : ℕ)
    (f : ReadField) : Prop :=
  ∃ reads, answers (n, reads) ∧ fetchedFields connection reads f = .error

/-- A state that is one of these answers to fetches of block `n`. -/
structure Answers (r : Readable) (connection : BitcoinsMoneypConnection)
    (answers : BlockReads → Prop) (n : ℕ) (b : MoneypStoreBaseState) : Prop where
  ofBlock : b.OfBlock r connection n
  answered : ∃ reads, answers (n, reads) ∧ b.fields = fetchedFields connection reads

/-- A state with a tag is an answer to a fetch of that block, with all that is derived from it. -/
structure Current (r : Readable) (connection : BitcoinsMoneypConnection)
    (answers : BlockReads → Prop) (s : PolledState) : Prop where
  unloaded : s.loaded = false → s.extraState = none
  base : ∀ n, BlockPolledMoneypStoreBasedCache.blockTag s = some n →
    ∃ b next, s.baseState = some b ∧ Answers r connection answers n b ∧ derive b = .ok next ∧
      s.derivedState = some next

section states

variable {r : Readable} {connection : BitcoinsMoneypConnection} {s s' : PolledState}
  {answers answers' : BlockReads → Prop} {b : MoneypStoreBaseState} {timestamp : Fetched ℕ}
  {tag : Option ℕ}

theorem Current.mono (h : Current r connection answers s) (hmore : ∀ x, answers x → answers' x) :
    Current r connection answers' s := by
  refine ⟨h.unloaded, fun n hn => ?_⟩
  obtain ⟨b, next, hb, ⟨hof, reads, hreads, hfields⟩, hnext, hderived⟩ := h.base n hn
  exact ⟨b, next, hb, ⟨hof, reads, hmore _ hreads, hfields⟩, hnext, hderived⟩

theorem Current.of_same (h : Current r connection answers s) (hloaded : s'.loaded = s.loaded)
    (hbase : s'.baseState = s.baseState) (hderived : s'.derivedState = s.derivedState)
    (hextra : s'.extraState = s.extraState) : Current r connection answers s' := by
  constructor
  · rw [hloaded, hextra]
    exact h.unloaded
  · rw [BlockPolledMoneypStoreBasedCache.blockTag, hextra, hbase, hderived]
    exact h.base

theorem load_current (hnot : s.loaded = false) (h : Current r connection answers s)
    (hb : ∀ n, tag = some n → Answers r connection answers n b) :
    Current r connection answers (moneypValues.polled.load b ⟨tag, timestamp⟩ s) := by
  rcases StoreValues.load_cases (v := moneypValues.polled) (b := b) (x := ⟨tag, timestamp⟩) hnot
    with hl | ⟨derived, hderive, hl⟩
  · rw [hl]
    refine ⟨fun _ => h.unloaded hnot, fun n hn => ?_⟩
    rw [BlockPolledMoneypStoreBasedCache.blockTag, h.unloaded hnot] at hn
    cases hn
  · rw [hl]
    exact ⟨fun hl => absurd hl Bool.true_eq_false_eq_False,
      fun n hn => ⟨b, derived, rfl, hb n hn, hderive, rfl⟩⟩

/-- An update with an answer takes it as a whole, or changes nothing. -/
theorem update_current {n : ℕ} (hdated : r.Dated) (hs : s.Sound) (hloaded : s.loaded = true)
    (h : Current r connection answers s) (hb : Answers r connection answers n b) :
    Current r connection answers
      (moneypValues.polled.update (some b) (some ⟨some n, timestamp⟩) s) := by
  obtain ⟨prev, derived, old, hprev, hderived, hold⟩ := hs.states hloaded
  cases hreduced : moneypValues.polled.reduced (some b) prev with
  | error e =>
    rw [StoreValues.update_unreduced hprev hderived hreduced]
    exact h
  | ok base =>
    have hreduce : reduce prev b = .ok base := hreduced
    obtain rfl : base = b := reduce_eq hreduce
    have hmethod (f : ReadField) (hf : f.comparedByMethod = true) : base.fields f ≠ .error := by
      intro herror
      obtain ⟨e, he⟩ : ∃ e, reduce prev base = .error e := reduce_method hf herror
      rw [hreduce] at he
      cases he
    obtain ⟨next, hnext⟩ := derive_total hdated hb.ofBlock hmethod
    have hderive : (moneypValues.polled.derive base >>=
        moneypValues.polled.reduceDerived derived) = .ok next :=
      bind_ok.mpr ⟨next, hnext, pure_ok.mpr (reduceDerived_eq derived next)⟩
    rw [StoreValues.update_derived hprev hderived hreduced hderive]
    simp only [StoreValues.updateExtra, hold, StoreValues.finishUpdate]
    refine ⟨fun hnot => absurd hloaded (Bool.eq_false_iff.mp hnot), fun m hm => ?_⟩
    obtain rfl : n = m := Option.some.inj hm
    exact ⟨base, next, rfl, hb, hnext, rfl⟩

theorem receive_current (hdated : r.Dated) (hs : s.Sound) (h : Current r connection answers s)
    (hb : ∀ n, tag = some n → Answers r connection answers n b) :
    Current r connection answers
      (BlockPolledMoneypStore.receive moneypValues tag b timestamp s) := by
  cases tag with
  | none =>
    rw [BlockPolledMoneypStore.receive]
    split_ifs with hloaded
    · exact h
    · exact load_current (Bool.eq_false_iff.mpr hloaded) h hb
  | some n =>
    rw [BlockPolledMoneypStore.receive]
    split_ifs with hloaded
    · exact update_current hdated hs hloaded h (hb n rfl)
    · exact load_current (Bool.eq_false_iff.mpr hloaded) h hb

/-- The timer derives what is there already. -/
theorem Current.of_timer (hs : s.Sound) (hloaded : s.loaded = true)
    (h : Current r connection answers s) :
    Current r connection answers (moneypValues.polled.update none none s) := by
  rcases StoreValues.update_states (v := moneypValues.polled) none none hs hloaded with
    ⟨hsame, -⟩ | ⟨prev, b, hprev, hreduced, hbase, hderived, hextra⟩
  · rw [hsame]
    exact h
  · have hextra' : (moneypValues.polled.update none none s).extraState = s.extraState := by
      rcases hextra with h | ⟨_, _, hnone, -⟩
      · exact h
      · exact absurd hnone (by simp)
    obtain rfl : prev = b := Except.ok.inj hreduced
    have hloaded' : (moneypValues.polled.update none none s).loaded = true :=
      (StoreValues.update_sound hs hloaded).2
    refine ⟨fun hnot => absurd hloaded' (Bool.eq_false_iff.mp hnot), fun n hn => ?_⟩
    rw [BlockPolledMoneypStoreBasedCache.blockTag, hextra'] at hn
    obtain ⟨b, next, hb, hof, hnext, hold⟩ := h.base n hn
    obtain rfl : b = prev := Option.some.inj (hb.symm.trans hprev)
    refine ⟨b, next, hbase, hof, hnext, ?_⟩
    rcases hderived with hsame | ⟨derived, next', derived', -, hnext', hreduce, hnew⟩
    · exact hsame.trans hold
    · obtain rfl : next = next' := Except.ok.inj (hnext.symm.trans hnext')
      rw [hnew, ← pure_ok.mp hreduce, reduceDerived_eq]

end states

section runs

variable {r : Readable} {connection : BitcoinsMoneypConnection} {w : PolledStore} {e : ReadEvent}
  {events : List ReadEvent} {answers : BlockReads → Prop}

/-- The answer to the fetch of a block is what was read there. -/
def ReadsBlock (r : Readable) (connection : BitcoinsMoneypConnection) (w : PolledStore)
    (e : ReadEvent) : Prop :=
  ∀ n reads, FailedReads.answered w e = some (some n, reads) → reads.OfBlock r connection n

/-- An event ends a fetch of a block with these reads. -/
def Ends (x : BlockReads) (w : PolledStore) (e : ReadEvent) : Prop :=
  FailedReads.answered w e = some (some x.1, x.2)

theorem step_current (hdated : r.Dated) (hw : w.store.Sound)
    (hold : Current r connection answers w.store) (hreads : ReadsBlock r connection w e) :
    Current r connection (fun x => answers x ∨ Ends x w e)
      (FailedReads.step connection w e).store := by
  have h : Current r connection (fun x => answers x ∨ Ends x w e) w.store :=
    hold.mono fun _ => Or.inl
  cases e with
  | start => exact h
  | stop i =>
    simp only [FailedReads.step, ReadEvent.toStoreEvent, BlockPolledMoneypStore.step]
    split_ifs
    · exact h.of_same rfl rfl rfl rfl
    · exact h
  | block blockTag => exact h
  | timeout =>
    simp only [FailedReads.step, ReadEvent.toStoreEvent, BlockPolledMoneypStore.step,
      StoreValues.updateScheduled]
    split_ifs with htimer
    · have hloaded := hw.timer htimer
      have hw' : MoneypStore.Sound { w.store with updateScheduled := false } :=
        ⟨hw.base, hw.derived, hw.extra, fun h => Bool.noConfusion h⟩
      have h' : Current r connection _ { w.store with updateScheduled := false } :=
        h.of_same rfl rfl rfl rfl
      exact Current.of_timer hw' hloaded h'
    · exact h
  | answer i reads =>
    cases hfetch : w.fetches[i]? with
    | none =>
      have hsame : (FailedReads.step connection w (.answer i reads)).store = w.store := by
        simp only [FailedReads.step, ReadEvent.toStoreEvent, BlockPolledMoneypStore.step, hfetch]
      rw [hsame]
      exact h
    | some tag =>
      cases hget : Sdk.get connection reads with
      | none =>
        rw [FailedReads.step_rejected hget]
        exact h
      | some answer =>
        obtain ⟨b, timestamp⟩ := answer
        rw [FailedReads.step_answer hfetch hget]
        apply receive_current hdated hw h
        intro n htag
        have hanswered : FailedReads.answered w (.answer i reads) = some (some n, reads) := by
          rw [FailedReads.answered, hfetch, htag]
          rfl
        exact ⟨(hreads n reads hanswered).get hget, reads, .inr hanswered, (get_eq_some hget).1⟩

/-- Some event of a run from the start ends a fetch of a block with these reads. -/
def Answered (connection : BitcoinsMoneypConnection) (events : List ReadEvent)
    (x : BlockReads) : Prop :=
  Machine.Once (FailedReads.step connection) (Ends x) BlockPolledMoneypStore.new events

theorem run_current (hdated : r.Dated)
    (hreads : Machine.Along (FailedReads.step connection) (ReadsBlock r connection)
      BlockPolledMoneypStore.new events) :
    Current r connection (Answered connection events)
      (events.foldl (FailedReads.step connection) BlockPolledMoneypStore.new).store := by
  have hnew : Current r connection (fun _ => False)
    (BlockPolledMoneypStore.new : PolledStore).store :=
    ⟨fun _ => rfl, fun _ h => Option.noConfusion rfl (heq_of_eq h)⟩
  have hkept := Machine.Along.recorded
    (J := fun answers w => w.store.Sound ∧ Current r connection answers w.store)
    (fun answers w e hw hread =>
      ⟨FailedReads.step_sound hw.1, step_current hdated hw.1 hw.2 hread⟩)
    ⟨BlockPolledMoneypStore.new_sound, hnew⟩ hreads
  exact hkept.2.mono fun x hx => hx.resolve_left id

end runs

section reading

variable {r : Readable} {connection : BitcoinsMoneypConnection} {s : PolledState} {n : ℕ}
  {answers : BlockReads → Prop} {b : MoneypStoreBaseState} {f : ReadField} {a : f.Value}
  {v : Fetched f.Value} {address : Option Address} {u : Address}

open BlockPolledMoneypStoreBasedCache

theorem hit_some {α : Type} {isHit : Bool} {value : Option (Fetched α)} {v : Fetched α} :
    hit isHit value = some v ↔ isHit = true ∧ value = some v := by
  cases isHit with
  | false => simp [hit]
  | true => simp [hit]

theorem blockHit_tag (h : blockHit s (some ⟨some n⟩) = true) : blockTag s = some n :=
  of_decide_eq_true h

theorem own_of_hit {own : Option Address} (h : address = none ∨ address = own) :
    (address <|> own) = own := by
  rcases h with rfl | rfl
  · rfl
  · cases address <;> rfl

/-- With a user the address that hits is the user's. -/
theorem userHit_user (h : userHit connection s (some ⟨some n⟩) address = true)
    (hu : requireAddress connection address = .ok u) :
    blockTag s = some n ∧ connection.userAddress = some u := by
  obtain ⟨hblock, haddress⟩ := (Bool.and_eq_true _ _).mp h
  have hown := own_of_hit (of_decide_eq_true haddress)
  exact ⟨blockHit_tag hblock, hown.symm.trans (requireGiven_ok.mp hu)⟩

theorem frontendHit_tag (h : frontendHit connection s (some ⟨some n⟩) address = true)
    (hu : requireFrontendAddress connection address = .ok u) :
    blockTag s = some n ∧ connection.frontendTag = some u := by
  obtain ⟨hblock, haddress⟩ := (Bool.and_eq_true _ _).mp h
  have hown := own_of_hit (of_decide_eq_true haddress)
  exact ⟨blockHit_tag hblock, hown.symm.trans (requireGiven_ok.mp hu)⟩

theorem MoneypStoreBaseState.OfBlock.value {x : f.Value} (hb : b.OfBlock r connection n)
    (h : (b.fields f).get = .ok x) : r.field connection n f = x := by
  rcases hb.fields f with herror | hvalue
  · rw [herror] at h
    cases h
  · rw [hvalue] at h
    exact pure_ok.mp h

/-- A field of a state with this tag. -/
theorem Current.field (h : Current r connection answers s) (htag : blockTag s = some n)
    (ha : r.field connection n f = a) (hv : FailedReads.field s f = some v) :
    v = .value a ∨ v = .error ∧ FailedIn connection answers n f := by
  obtain ⟨b, next, hb, ⟨hof, reads, hreads, hfields⟩, -, -⟩ := h.base n htag
  rw [FailedReads.field_some hb] at hv
  rw [← Option.some.inj hv, ← ha]
  rcases hof.fields f with herror | hvalue
  · refine .inr ⟨herror, reads, hreads, ?_⟩
    rw [← hfields]
    exact herror
  · exact .inl hvalue

theorem Current.block (h : Current r connection answers s) (ha : r.field connection n f = a)
    (hv : hit (blockHit s (some ⟨some n⟩)) (FailedReads.field s f) = some v) :
    v = .value a ∨ v = .error ∧ FailedIn connection answers n f := by
  obtain ⟨hblock, hv⟩ := hit_some.mp hv
  exact h.field (blockHit_tag hblock) ha hv

/-- A read of an account, whose field is that of the user. -/
theorem Current.user {read : Address → f.Value} (h : Current r connection answers s)
    (hread : (requireAddress connection address >>= fun u => pure (read u)) = .ok a)
    (hfield : ∀ u, connection.userAddress = some u → r.field connection n f = read u)
    (hv : hit (userHit connection s (some ⟨some n⟩) address) (FailedReads.field s f) = some v) :
    v = .value a ∨ v = .error ∧ FailedIn connection answers n f := by
  obtain ⟨u, hu, hread⟩ := bind_ok.mp hread
  obtain ⟨huser, hv⟩ := hit_some.mp hv
  obtain ⟨htag, huser⟩ := userHit_user huser hu
  exact h.field htag ((hfield u huser).trans (pure_ok.mp hread)) hv

/-- What is derived from a state of a block is what the reads there amount to. -/
theorem derive_ofBlock {next : MoneypStoreDerivedState} (hb : b.OfBlock r connection n)
    (h : derive b = .ok next) :
    next.vault = OwnedVault.applyRedistribution
        (r.field connection n .vaultBeforeRedistribution) (r.getTotalRedistributed n) ∧
      r.feesAt n ((r.getTotal n).collateralRatioIsBelowCritical (r.getPrice n)) =
        .ok next.fees := by
  simp only [derive, bind_ok, pure_ok] at h
  obtain ⟨total, htotal, price, hprice, fees, hfees, vault, hvault, redistributed, hredistributed,
    _, -, _, -, _, -, rfl⟩ := h
  have htotal : r.getTotal n = total := hb.value htotal
  have hprice : r.getPrice n = price := hb.value hprice
  have hredistributed : r.getTotalRedistributed n = redistributed := hb.value hredistributed
  rw [htotal, hprice, hredistributed, hb.value hvault]
  exact ⟨rfl, (Readable.setRecoveryMode_ok hb.fees).mp hfees⟩

/-- One of the fields that a value is read from is missing in an answer to a fetch of block `n`. -/
def Getter.FailedIn (g : Getter) (connection : BitcoinsMoneypConnection)
    (answers : BlockReads → Prop) (n : ℕ) : Prop :=
  ∃ f ∈ g.fields, Sdk.FailedIn connection answers n f

theorem Getter.failedIn_of {g : Getter} {α : Type} {v : Fetched α} {a : α}
    (h : v = .value a ∨ v = .error ∧ Sdk.FailedIn connection answers n f) (hf : f ∈ g.fields) :
    v = .value a ∨ v = .error ∧ g.FailedIn connection answers n :=
  h.imp_right fun herror => ⟨herror.1, f, hf, herror.2⟩

/-- What the cache has of a block is what the contracts return there, unless the read failed. -/
theorem Current.cached {g : Getter} {a : g.Value} {v : Fetched g.Value}
    (h : Current r connection answers s) (hread : r.read connection n g = .ok a)
    (hv : BlockPolledMoneypStoreBasedCache.read connection s (some ⟨some n⟩) g = some v) :
    v = .value a ∨ v = .error ∧ g.FailedIn connection answers n := by
  cases g with
  | getVaultsBeforeRedistribution _ => cases hv
  | getVaults _ => cases hv
  | getTotalRedistributed =>
    exact Getter.failedIn_of (h.block (f := .totalRedistributed) (pure_ok.mp hread) hv)
      List.mem_cons_self
  | getNumberOfVaults =>
    exact Getter.failedIn_of (h.block (f := .numberOfVaults) (pure_ok.mp hread) hv)
      List.mem_cons_self
  | getPrice =>
    exact Getter.failedIn_of (h.block (f := .price) (pure_ok.mp hread) hv)
      List.mem_cons_self
  | getTotal =>
    exact Getter.failedIn_of (h.block (f := .total) (pure_ok.mp hread) hv)
      List.mem_cons_self
  | getRemainingStabilityPoolMPReward =>
    exact Getter.failedIn_of (h.block (f := .remainingStabilityPoolMPReward) (pure_ok.mp hread) hv)
      List.mem_cons_self
  | getBPDInStabilityPool =>
    exact Getter.failedIn_of (h.block (f := .bpdInStabilityPool) (pure_ok.mp hread) hv)
      List.mem_cons_self
  | getTotalStakedMP =>
    exact Getter.failedIn_of (h.block (f := .totalStakedMP) (pure_ok.mp hread) hv)
      List.mem_cons_self
  | getVaultBeforeRedistribution address =>
    refine Getter.failedIn_of (h.user (f := .vaultBeforeRedistribution) hread
      (fun u huser => ?_) hv)
      List.mem_cons_self
    rw [Readable.field, huser]
    rfl
  | getStabilityDeposit address =>
    refine Getter.failedIn_of (h.user (f := .stabilityDeposit) hread (fun u huser => ?_) hv)
      List.mem_cons_self
    rw [Readable.field, huser]
    rfl
  | getBPDBalance address =>
    refine Getter.failedIn_of (h.user (f := .bpdBalance) hread (fun u huser => ?_) hv)
      List.mem_cons_self
    rw [Readable.field, huser]
    rfl
  | getMPBalance address =>
    refine Getter.failedIn_of (h.user (f := .mpBalance) hread (fun u huser => ?_) hv)
      List.mem_cons_self
    rw [Readable.field, huser]
    rfl
  | getCollateralSurplusBalance address =>
    refine Getter.failedIn_of (h.user (f := .collateralSurplusBalance) hread (fun u huser => ?_) hv)
      List.mem_cons_self
    rw [Readable.field, huser]
    rfl
  | getMPStake address =>
    refine Getter.failedIn_of (h.user (f := .mpStake) hread (fun u huser => ?_) hv)
      List.mem_cons_self
    rw [Readable.field, huser]
    rfl
  | getFrontendStatus address =>
    obtain ⟨u, hu, hread⟩ := bind_ok.mp hread
    obtain ⟨htag, hv⟩ := hit_some.mp hv
    obtain ⟨hblock, hfrontend⟩ := frontendHit_tag htag hu
    refine Getter.failedIn_of (h.field (f := .frontend) hblock ?_ hv) List.mem_cons_self
    rw [Readable.field, hfrontend]
    exact pure_ok.mp hread
  | getVault address =>
    obtain ⟨u, hu, hread⟩ := bind_ok.mp hread
    obtain ⟨huser, hv⟩ := hit_some.mp hv
    obtain ⟨htag, huser⟩ := userHit_user huser hu
    obtain ⟨b, next, -, hof, hnext, hderived⟩ := h.base n htag
    obtain ⟨hvault, -⟩ := derive_ofBlock hof.ofBlock hnext
    rw [hderived] at hv
    rw [Readable.field, huser] at hvault
    rw [← pure_ok.mp hread, ← Option.some.inj hv]
    exact .inl (congrArg _ hvault)
  | getFees =>
    obtain ⟨hblock, hv⟩ := hit_some.mp hv
    obtain ⟨b, next, -, hof, hnext, hderived⟩ := h.base n (blockHit_tag hblock)
    obtain ⟨-, hfees⟩ := derive_ofBlock hof.ofBlock hnext
    rw [hderived] at hv
    rw [← Option.some.inj hv]
    exact .inl (congrArg _ (Except.ok.inj (hfees.symm.trans hread)))

end reading

section through

variable {c : CachedReadable} {answers : BlockReads → Prop} {n : ℕ}

/-- What a read amounts to: the value, unless a field that it needs is missing in an answer to a
fetch of the block; then it gives the error that stands there, or throws. -/
def ReadsOf (c : CachedReadable) (answers : BlockReads → Prop) (n : ℕ) (g : Getter) (a : g.Value)
    (result : Outcome (Fetched g.Value)) : Prop :=
  result = .ok (.value a) ∨
    g.FailedIn c.connection answers n ∧ (result = .ok .error ∨ result = .error .invalid)

/-- From the cache or from the contracts. -/
theorem CachedReadable.readThrough_current {g : Getter} {a : g.Value}
    (h : Current c.readable c.connection answers c.store)
    (hread : c.readable.read c.connection n g = .ok a) :
    c.readThrough (some ⟨some n⟩) g = .ok (.value a) ∨
      c.readThrough (some ⟨some n⟩) g = .ok .error ∧ g.FailedIn c.connection answers n := by
  unfold readThrough
  cases hcached : BlockPolledMoneypStoreBasedCache.read c.connection c.store (some ⟨some n⟩) g with
  | some value =>
    rcases h.cached hread hcached with rfl | ⟨rfl, hfailed⟩
    · exact .inl rfl
    · exact .inr ⟨rfl, hfailed⟩
  | none => exact .inl (map_ok.mpr ⟨a, hread, rfl⟩)

theorem CachedReadable.readThrough_readsOf {g : Getter} {a : g.Value}
    (h : Current c.readable c.connection answers c.store)
    (hread : c.readable.read c.connection n g = .ok a) :
    ReadsOf c answers n g a (c.readThrough (some ⟨some n⟩) g) :=
  (readThrough_current h hread).imp_right fun herror => ⟨herror.2, .inl herror.1⟩

/-- An error of either read is thrown, as the vault is computed with both. -/
theorem CachedReadable.getVault_readsOf {address : Option Address} {a : UserVault}
    (h : Current c.readable c.connection answers c.store)
    (hread : c.readable.read c.connection n (.getVault address) = .ok a) :
    ReadsOf c answers n (.getVault address) a (c.getVault (some ⟨some n⟩) address) := by
  obtain ⟨u, hu, hread⟩ := bind_ok.mp hread
  have hvault : c.readable.read c.connection n (.getVaultBeforeRedistribution address) =
      .ok (c.readable.getVaultBeforeRedistribution u n) := bind_ok.mpr ⟨u, hu, rfl⟩
  have hredistributed : c.readable.read c.connection n .getTotalRedistributed =
      .ok (c.readable.getTotalRedistributed n) := rfl
  rw [getVault, ← pure_ok.mp hread]
  rcases readThrough_current h hvault with hv | ⟨hv, f, hf, hfailed⟩
  · rcases readThrough_current h hredistributed with ht | ⟨ht, f, hf, hfailed⟩
    · rw [hv, ht]
      exact .inl rfl
    · rw [hv, ht]
      exact .inr ⟨⟨f, List.mem_cons_of_mem _ hf, hfailed⟩, .inr rfl⟩
  · rcases readThrough_current h hredistributed with ht | ⟨ht, -⟩
    · rw [hv, ht]
      exact .inr ⟨⟨f, List.mem_cons.mpr (.inl (List.mem_singleton.mp hf)), hfailed⟩, .inr rfl⟩
    · rw [hv, ht]
      exact .inr ⟨⟨f, List.mem_cons.mpr (.inl (List.mem_singleton.mp hf)), hfailed⟩, .inr rfl⟩

/-- An error in place of what was redistributed is thrown at the first vault of the slice. -/
theorem CachedReadable.getVaults_readsOf {params : VaultListingParams} {a : List UserVault}
    (h : Current c.readable c.connection answers c.store)
    (hread : c.readable.read c.connection n (.getVaults params) = .ok a) :
    ReadsOf c answers n (.getVaults params) a (c.getVaults (some ⟨some n⟩) params) := by
  obtain ⟨vaults, hvaults, hread⟩ := bind_ok.mp hread
  have hslice : c.readThrough (some ⟨some n⟩) (.getVaultsBeforeRedistribution params) =
      .ok (.value vaults) := map_ok.mpr ⟨vaults, hvaults, rfl⟩
  have hredistributed : c.readable.read c.connection n .getTotalRedistributed =
      .ok (c.readable.getTotalRedistributed n) := rfl
  rw [getVaults, hslice, ← pure_ok.mp hread]
  rcases readThrough_current h hredistributed with ht | ⟨ht, hfailed⟩
  · rw [ht]
    exact .inl (map_ok.mpr ⟨_, List.mapM_pure, rfl⟩)
  · rw [ht]
    cases vaults with
    | nil => exact .inl rfl
    | cons vault vaults => exact .inr ⟨hfailed, .inr rfl⟩

end through

/-- A connection with a store never mixes up blocks: in every run in which the answers to the
fetches of blocks come in any order and may fail in part, a read for a block gives what the
contracts return there, unless a read that it needs failed in an answer to a fetch of the block. -/
theorem cached_reads_current {r : Readable} {connection : BitcoinsMoneypConnection}
    {events : List ReadEvent} {n : ℕ} {g : Getter} {a : g.Value} {c : CachedReadable}
    (hdated : r.Dated)
    (hreads : Machine.Along (FailedReads.step connection) (ReadsBlock r connection)
      BlockPolledMoneypStore.new events)
    (hc : c.readable = r ∧ c.connection = connection ∧
      c.store = (events.foldl (FailedReads.step connection) BlockPolledMoneypStore.new).store)
    (hread : r.read connection n g = .ok a) :
    ReadsOf c (Answered connection events) n g a (c.read (some ⟨some n⟩) g) := by
  obtain ⟨rfl, rfl, hstore⟩ := hc
  have hcurrent : Current c.readable c.connection (Answered c.connection events) c.store := by
    rw [hstore]
    exact run_current hdated hreads
  cases g with
  | getVault address => exact CachedReadable.getVault_readsOf hcurrent hread
  | getVaults params => exact CachedReadable.getVaults_readsOf hcurrent hread
  | _ => exact CachedReadable.readThrough_readsOf hcurrent hread

/-- Contracts in which every block adds a vault. -/
def addsVaults : Readable where
  getBlockTimestamp _ := 1700000000
  createFees _ := (1700000000, 0)
  getPrice _ := 0
  getNumberOfVaults n := n
  getTotalRedistributed _ := Vault.empty
  getTotal _ := Vault.empty
  getBPDInStabilityPool _ := 0
  getTotalStakedMP _ := 0
  getRiskiestVaultBeforeRedistribution _ :=
    { collateral := 0, debt := 0, status := .nonExistent, ownerAddress := 0 }
  getRemainingStabilityPoolMPReward _ := 0
  getFrontendStatus _ _ := .unregistered
  getBalance _ _ := 0
  getBPDBalance _ _ := 0
  getMPBalance _ _ := 0
  getCollateralSurplusBalance _ _ := 0
  getVaultBeforeRedistribution _ _ :=
    { collateral := 0, debt := 0, status := .nonExistent, ownerAddress := 0 }
  getStabilityDeposit _ _ := ⟨0, 0, 0, 0, 0⟩
  getMPStake _ _ := {}
  getMultipleSortedVaults _ _ _ := []

/-- The reads of one of its blocks, for nobody. -/
def readsOf (n : ℕ) : Reads where
  blockTimestamp := .value (addsVaults.getBlockTimestamp n)
  createFees := .value (addsVaults.createFees n)
  fields := fun f => .value (addsVaults.field ⟨none, none⟩ n f)

/-- The eighth block is answered before the seventh. -/
def eighthFirst : List ReadEvent :=
  [.start, .answer 0 (readsOf 6), .block 7, .block 8, .answer 1 (readsOf 8),
    .answer 0 (readsOf 7)]

def afterEighthFirst : CachedReadable where
  readable := addsVaults
  connection := ⟨none, none⟩
  store := (eighthFirst.foldl (FailedReads.step ⟨none, none⟩) BlockPolledMoneypStore.new).store
  latest := 8

theorem cached_reads_current_late :
    afterEighthFirst.read (some ⟨some 7⟩) .getNumberOfVaults = .ok (.value 7) ∧
      ReadsOf afterEighthFirst (Answered ⟨none, none⟩ eighthFirst) 7 .getNumberOfVaults 7
        (afterEighthFirst.read (some ⟨some 7⟩) .getNumberOfVaults) := by
  have hread (n : ℕ) : (readsOf n).OfBlock addsVaults ⟨none, none⟩ n :=
    ⟨rfl, .inr rfl, fun _ _ => .inr rfl⟩
  have hdated : addsVaults.Dated :=
    ⟨fun _ => show 1700000000 < 60 * 2 ^ 32 by decide, fun _ => le_refl _⟩
  have hreads : Machine.Along (FailedReads.step ⟨none, none⟩) (ReadsBlock addsVaults ⟨none, none⟩)
      BlockPolledMoneypStore.new eighthFirst := by
    refine ⟨?_, ?_, ?_, ?_, ?_, ?_, trivial⟩
    · rintro n reads ⟨⟩
    · rintro n reads ⟨⟩
    · rintro n reads ⟨⟩
    · rintro n reads ⟨⟩
    · rintro n reads ⟨⟩
      exact hread 8
    · rintro n reads ⟨⟩
      exact hread 7
  exact ⟨rfl, cached_reads_current hdated hreads ⟨rfl, rfl, rfl⟩ rfl⟩

/-- The same, but the timestamp of the eighth block could not be read. -/
def afterFailedTimestamp : CachedReadable where
  readable := addsVaults
  connection := ⟨none, none⟩
  store := ([.start, .answer 0 (readsOf 6), .block 7, .block 8, .answer 0 (readsOf 7),
    .answer 0 { readsOf 8 with blockTimestamp := .error }].foldl
      (FailedReads.step ⟨none, none⟩) BlockPolledMoneypStore.new).store
  latest := 8

/-- Without the timestamp the rates cannot be derived, and the state has the fields of the eighth
block under the tag of the seventh. -/
theorem failed_timestamp_mixes_blocks :
    afterFailedTimestamp.read (some ⟨some 7⟩) .getNumberOfVaults = .ok (.value 8) :=
  rfl

end MoneyProtocol.Sdk
