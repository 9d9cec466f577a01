import MoneyProtocol.Pool.Solvency
import Mathlib.Algebra.Order.Floor.Semifield
import Mathlib.Data.Rat.Floor

/-!
# Front ends and the deposits under their tags

The stake of a front end and the deposits under its tag are compounded separately. What is read of
either is its worth rounded down, as long as it is not lost. A call of a depositor writes both
anew, so that the stake loses a fraction of one wei where the deposit may lose none. A history
whose stakes can spare that, and that cuts no stake off before its deposits, keeps every stake
above the deposits under its tag.
-/

namespace MoneyProtocol.StabilityPool

open Outcome MoneypBase Shares

variable {d : Deployment} {s s' : State} {h h' : History} {p : StabilityPool}
  {a b tag : Address} {debt coll c v : ℕ} {q q' q'' : Product}

/-- Nothing is read of the stake any more: it was rounded down to zero, or it is less than a
billionth of what was put in. -/
def Lost (v : ℕ) (q q' : Product) : Prop :=
  scaledStake v q q' = 0 ∨ scaledStake v q q' < v / 10 ^ 9

instance : Decidable (Lost v q q') := inferInstanceAs (Decidable (_ ∨ _))

/-- The stake is less than a billionth of what was put in, although something is left of it. -/
def CutOff (v : ℕ) (q q' : Product) : Prop :=
  0 < scaledStake v q q' ∧ scaledStake v q q' < v / 10 ^ 9

theorem lost_iff : Lost v q q' ↔ compoundedStake v q q' = 0 := by
  unfold Lost compoundedStake
  split_ifs with hsmall
  · exact iff_of_true (.inr hsmall) rfl
  · exact or_iff_left hsmall

@[simp] theorem lost_zero : Lost 0 q q' := by
  left
  simp [scaledStake]

theorem Lost.later (hpast : v ≠ 0 → Decays q q') (hlater : Decays q' q'') (h : Lost v q q') :
    Lost v q q'' := by
  by_cases hv : v = 0
  · rw [hv]
    exact lost_zero
  · rw [lost_iff] at h ⊢
    exact Nat.le_zero.mp ((compoundedStake_anti (hpast hv) hlater).trans_eq h)

/-- What the stake is worth as long as it is not lost. -/
def live (v : ℕ) (q q' : Product) : ℚ := if Lost v q q' then 0 else worth v q q'

theorem live_nonneg : 0 ≤ live v q q' := by
  unfold live
  split_ifs
  · exact le_rfl
  · exact worth_nonneg

@[simp] theorem live_zero : live 0 q q' = 0 := if_pos lost_zero

theorem floor_worth (hkept : ¬(q.epoch < q'.epoch ∨ 1 < q'.scale - q.scale)) :
    ⌊worth v q q'⌋₊ = scaledStake v q q' := by
  rw [scaledStake, if_neg hkept, worth, if_neg fun hepoch => hkept (.inl hepoch),
    ← Nat.floor_div_eq_div (K := ℚ)]
  push_cast
  rfl

/-- What is read of a stake is what it is worth, rounded down. -/
theorem floor_live : ⌊live v q q'⌋₊ = compoundedStake v q q' := by
  unfold live
  split_ifs with hlost
  · rw [lost_iff.mp hlost, Nat.floor_zero]
  · rw [Lost, not_or] at hlost
    obtain ⟨hsome, hlarge⟩ := hlost
    rw [compoundedStake, if_neg hlarge]
    apply floor_worth
    intro hexpired
    exact hsome (if_pos hexpired)

/-- The fraction that the reading drops. -/
theorem fract_add_floor_live : Int.fract (live v q q') + ⌊live v q q'⌋₊ = live v q q' := by
  rw [natCast_floor_eq_intCast_floor live_nonneg]
  exact Int.fract_add_floor _

theorem live_lt_one_iff : live v q q' < 1 ↔ Lost v q q' := by
  rw [lost_iff, ← floor_live, Nat.floor_eq_zero]

/-- A stake that is written now. -/
theorem live_now (hP : 0 < q.P) : live v q q = v := by
  by_cases hv : v = 0
  · rw [hv, live_zero, Nat.cast_zero]
  have hscaled : scaledStake v q q = v := by
    simp [scaledStake, hP]
  have hkept : ¬Lost v q q := by
    rw [Lost, hscaled, not_or]
    exact ⟨hv, (Nat.div_le_self v _).not_gt⟩
  have hpos : (q.P : ℚ) ≠ 0 := by
    exact_mod_cast hP.ne'
  rw [live, if_neg hkept, worth, if_neg (lt_irrefl _), Nat.sub_self, pow_zero, mul_one]
  exact mul_div_cancel_right₀ _ hpos

/-- What the product of `q` becomes at `q'`. -/
def ratio (q q' : Product) : ℚ := q'.P / (q.P * SCALE_FACTOR ^ (q'.scale - q.scale))

theorem ratio_nonneg : 0 ≤ ratio q q' := by
  unfold ratio
  positivity

/-- All stakes decay by the same ratio. -/
theorem worth_later (hpast : v ≠ 0 → Decays q q') (hlater : Decays q' q'')
    (hepoch : q'.epoch = q''.epoch) : worth v q q'' = ratio q' q'' * worth v q q' := by
  by_cases hv : v = 0
  · simp [hv]
  by_cases hlost : q.epoch < q'.epoch
  · rw [worth, worth, if_pos hlost, if_pos (hlost.trans_eq hepoch), mul_zero]
  rcases hpast hv with hold | ⟨-, hscale, -⟩
  · contradiction
  rcases hlater with hnew | ⟨-, hscale', hP'⟩
  · omega
  have hscales : q''.scale - q.scale = (q'.scale - q.scale) + (q''.scale - q'.scale) := by omega
  rw [worth, if_neg (hepoch ▸ hlost), worth, if_neg hlost, ratio, hscales, pow_add]
  by_cases hzero : q'.P = 0
  · have hzero' : q''.P = 0 := by
      rw [hzero, Nat.zero_mul] at hP'
      exact Nat.le_zero.mp hP'
    simp [hzero, hzero']
  have hpos : (q'.P : ℚ) ≠ 0 := by
    exact_mod_cast hzero
  have hfactor : (SCALE_FACTOR : ℚ) ≠ 0 := by norm_num [SCALE_FACTOR]
  field_simp

/-- What is not lost at the end decays by the ratio. -/
theorem live_later (hpast : v ≠ 0 → Decays q q') (hlater : Decays q' q'')
    (hepoch : q'.epoch = q''.epoch) (hkept : ¬Lost v q q'') :
    live v q q'' = ratio q' q'' * live v q q' := by
  have hbefore : ¬Lost v q q' := fun hlost => hkept (hlost.later hpast hlater)
  rw [live, live, if_neg hkept, if_neg hbefore]
  exact worth_later hpast hlater hepoch

theorem live_later_le (hpast : v ≠ 0 → Decays q q') (hlater : Decays q' q'')
    (hepoch : q'.epoch = q''.epoch) : live v q q'' ≤ ratio q' q'' * live v q q' := by
  by_cases hlost : Lost v q q''
  · rw [live, if_pos hlost]
    exact mul_nonneg ratio_nonneg live_nonneg
  · exact (live_later hpast hlater hepoch hlost).le

/-- What the deposit of `a` is worth as long as it is not lost. -/
def depositLive (p : StabilityPool) (a : Address) : ℚ :=
  live (p.deposits a).initialValue (productThen (p.depositSnapshots a)) (productNow p)

/-- What the stake of the front end `tag` is worth as long as it is not lost. -/
def stakeLive (p : StabilityPool) (tag : Address) : ℚ :=
  live (p.frontEndStakes tag) (productThen (p.frontEndSnapshots tag)) (productNow p)

/-- The deposits under a tag. -/
def taggedLive (p : StabilityPool) (tag a : Address) : ℚ :=
  if (p.deposits a).frontEndTag = tag then depositLive p a else 0

/-- What a stake is worth beyond the deposits under its tag. -/
def spare (p : StabilityPool) (tag : Address) : ℚ := stakeLive p tag - ∑ a, taggedLive p tag a

theorem taggedLive_nonneg : 0 ≤ taggedLive p tag a := by
  unfold taggedLive
  split_ifs
  · exact live_nonneg
  · exact le_rfl

theorem depositLive_of_tag (htag : (p.deposits a).frontEndTag = tag) :
    taggedLive p tag a = depositLive p a :=
  if_pos htag

theorem compoundedDeposit_eq_floor (hc : getCompoundedBPDDeposit a s = .ok c) :
    c = ⌊depositLive s.stabilityPool a⌋₊ := by
  unfold depositLive
  simp only [getCompoundedBPDDeposit] at hc
  split_ifs at hc with hzero
  · rw [hzero, live_zero, Nat.floor_zero, pure_ok.mp hc]
  · rw [floor_live, getCompoundedStakeFromSnapshots_ok hc]

theorem compoundedFrontEndStake_eq_floor (hc : getCompoundedFrontEndStake tag s = .ok c) :
    c = ⌊stakeLive s.stabilityPool tag⌋₊ := by
  unfold stakeLive
  simp only [getCompoundedFrontEndStake] at hc
  split_ifs at hc with hzero
  · rw [hzero, live_zero, Nat.floor_zero, pure_ok.mp hc]
  · rw [floor_live, getCompoundedStakeFromSnapshots_ok hc]

/-- The policy of histories whose stakes can spare what their rounding takes, and in which no stake
is cut off before the deposits under its tag are lost. -/
def Policy.covering : Policy where
  offset := fun debt _ p => ∀ q,
    updateProduct (DECIMAL_PRECISION - lossPerUnit p debt) (productNow p) = .ok q →
      ∀ tag, CutOff (p.frontEndStakes tag) (productThen (p.frontEndSnapshots tag)) q →
        ∀ a, (p.deposits a).frontEndTag = tag →
          Lost (p.deposits a).initialValue (productThen (p.depositSnapshots a)) q
  settle := fun a tag p =>
    Int.fract (stakeLive p tag) ≤ Int.fract (depositLive p a) + spare p tag
  offset_issued := id
  settle_issued := id

namespace Settlement

theorem productNow_eq (e : Settlement d a tag s s') :
    productNow s'.stabilityPool = productNow s.stabilityPool := by
  rw [e.pool]
  rfl

theorem depositLive_self (e : Settlement d a tag s s') (hP : 0 < s.stabilityPool.P) :
    depositLive s'.stabilityPool a = e.newDeposit := by
  unfold depositLive
  rw [e.productNow_eq, e.pool]
  unfold restaked
  simp only [Function.update_self]
  by_cases hzero : e.newDeposit = 0
  · simp only [hzero, if_true, live_zero, Nat.cast_zero]
  · simp only [if_neg hzero]
    exact live_now (q := productNow s.stabilityPool) hP

theorem depositLive_of_ne (e : Settlement d a tag s s') (hb : b ≠ a) :
    depositLive s'.stabilityPool b = depositLive s.stabilityPool b := by
  rw [e.pool]
  unfold depositLive restaked
  simp only [Function.update_of_ne hb]
  rfl

theorem stakeLive_self (e : Settlement d a tag s s') (hP : 0 < s.stabilityPool.P) :
    stakeLive s'.stabilityPool tag = e.newStake := by
  unfold stakeLive
  rw [e.productNow_eq, e.pool]
  unfold restaked
  simp only [Function.update_self]
  by_cases hzero : e.newStake = 0
  · simp only [hzero, live_zero, Nat.cast_zero]
  · simp only [if_neg hzero]
    exact live_now (q := productNow s.stabilityPool) hP

theorem stakeLive_of_ne (e : Settlement d a tag s s') (hb : b ≠ tag) :
    stakeLive s'.stabilityPool b = stakeLive s.stabilityPool b := by
  rw [e.pool]
  unfold stakeLive restaked
  simp only [Function.update_of_ne hb]
  rfl

theorem taggedLive_of_ne (e : Settlement d a tag s s') (frontEnd : Address) (hb : b ≠ a) :
    taggedLive s'.stabilityPool frontEnd b = taggedLive s.stabilityPool frontEnd b := by
  have hsame : s'.stabilityPool.deposits b = s.stabilityPool.deposits b := by
    rw [e.pool]
    exact Function.update_of_ne hb _ _
  rw [taggedLive, taggedLive, hsame, e.depositLive_of_ne hb]

/-- Where there is a deposit, it is under the tag of the call. -/
theorem taggedLive_before (e : Settlement d a tag s s') {frontEnd : Address} :
    taggedLive s.stabilityPool frontEnd a =
      if tag = frontEnd then depositLive s.stabilityPool a else 0 := by
  by_cases hzero : (s.stabilityPool.deposits a).initialValue = 0
  · have hnone : depositLive s.stabilityPool a = 0 := by
      rw [depositLive, hzero, live_zero]
    rw [taggedLive, hnone, ite_self, ite_self]
  · rw [taggedLive, ← e.tag_known hzero]

theorem taggedLive_after (e : Settlement d a tag s s') (hP : 0 < s.stabilityPool.P)
    {frontEnd : Address} : taggedLive s'.stabilityPool frontEnd a =
      if tag = frontEnd then (e.newDeposit : ℚ) else 0 := by
  rw [taggedLive, e.depositLive_self hP]
  by_cases hzero : e.newDeposit = 0
  · rw [hzero, Nat.cast_zero, ite_self, ite_self]
  · have htag : (s'.stabilityPool.deposits a).frontEndTag = tag := by
      rw [e.pool]
      simp [restaked, hzero]
    rw [htag]

/-- After a depositor call the stake is worth the deposits under its tag exactly if it can spare
what its rounding takes. -/
theorem covered_live_iff (e : Settlement d a tag s s') (hP : 0 < s.stabilityPool.P) :
    Covered (taggedLive s'.stabilityPool tag) 0 (stakeLive s'.stabilityPool tag) ↔
      Policy.covering.settle a tag s.stabilityPool := by
  have hsum := sum_change (k := a) fun b hb => e.taggedLive_of_ne tag hb
  rw [e.taggedLive_before, e.taggedLive_after hP, if_pos rfl, if_pos rfl] at hsum
  have hdeposit : Int.fract (depositLive s.stabilityPool a) + e.compounded =
      depositLive s.stabilityPool a := by
    rw [compoundedDeposit_eq_floor e.compounds]
    exact fract_add_floor_live
  have hstake : Int.fract (stakeLive s.stabilityPool tag) + e.stake =
      stakeLive s.stabilityPool tag := by
    rw [compoundedFrontEndStake_eq_floor e.stakes]
    exact fract_add_floor_live
  have hnewDeposit : ((e.newDeposit + e.withdrawn : ℕ) : ℚ) = (e.compounded + e.deposited : ℕ) :=
    congrArg _ e.deposit_eq
  have hnewStake : ((e.newStake + e.withdrawn : ℕ) : ℚ) = (e.stake + e.deposited : ℕ) :=
    congrArg _ e.stake_eq
  push_cast at hnewDeposit hnewStake
  unfold Covered Policy.covering spare
  rw [e.stakeLive_self hP]
  constructor <;> intro <;> linarith

/-- The other stakes and the deposits under their tags stay as they are. -/
theorem covered_live_of_ne (e : Settlement d a tag s s') (hP : 0 < s.stabilityPool.P)
    {frontEnd : Address} (hne : frontEnd ≠ tag) (hcovered :
      Covered (taggedLive s.stabilityPool frontEnd) 0 (stakeLive s.stabilityPool frontEnd)) :
    Covered (taggedLive s'.stabilityPool frontEnd) 0 (stakeLive s'.stabilityPool frontEnd) := by
  have hsum := sum_change (k := a) fun b hb => e.taggedLive_of_ne frontEnd hb
  rw [e.taggedLive_before, e.taggedLive_after hP, if_neg hne.symm, if_neg hne.symm, add_zero,
    add_zero] at hsum
  unfold Covered at hcovered ⊢
  rw [hsum, e.stakeLive_of_ne hne]
  exact hcovered

end Settlement

/-- Two products after the snapshots, or an epoch later, nothing is left. -/
theorem lost_of_older {w : ℕ} {q₀ : Product} (holder : Decays q₀ q) (hlater : Decays q q')
    (hexpired : q.epoch < q'.epoch ∨ 1 < q'.scale - q.scale) : Lost w q₀ q' := by
  left
  apply if_pos
  rcases holder with hepoch | ⟨hepoch, hscale, -⟩ <;> rcases hlater with hepoch' | ⟨hepoch', -⟩
  · exact .inl (by omega)
  · exact .inl (by omega)
  · exact .inl (by omega)
  · omega

/-- Whether the stake is lost or not, it stays above the deposits, unless it is cut off alone. -/
theorem covered_later {K : Type} [Fintype K] {values : K → ℕ} {products : K → Product}
    (hvalues : ∀ k, values k ≠ 0 → Decays (products k) q') (hpast : v ≠ 0 → Decays q q')
    (hlater : Decays q' q'') (holder : ∀ k, values k ≠ 0 → v ≠ 0 → Decays (products k) q)
    (hkeeps : CutOff v q q'' → ∀ k, Lost (values k) (products k) q'')
    (hcovered : Covered (fun k => live (values k) (products k) q') 0 (live v q q')) :
    Covered (fun k => live (values k) (products k) q'') 0 (live v q q'') := by
  have hle (k : K) : live (values k) (products k) q' ≤ live v q q' :=
    (Finset.single_le_sum (f := fun k => live (values k) (products k) q') (fun _ _ => live_nonneg)
      (Finset.mem_univ k)).trans (hcovered.sum_le le_rfl)
  have hepoch (hv : v ≠ 0) (hsame : ¬q.epoch < q''.epoch) : q'.epoch = q''.epoch := by
    rcases hpast hv with hold | ⟨hold, -⟩ <;> rcases hlater with hnew | ⟨hnew, -⟩ <;> omega
  by_cases hlost : Lost v q q''
  · suffices hall : ∀ k, Lost (values k) (products k) q'' from
      .none (fun k => if_pos (hall k)) live_nonneg
    intro k
    by_cases hbefore : Lost v q q'
    · -- nothing was left before
      have hnone : live v q q' = 0 := if_pos hbefore
      apply Lost.later (hvalues k) hlater
      rw [← live_lt_one_iff]
      have := hle k
      linarith
    have hv : v ≠ 0 := by
      rintro rfl
      exact hbefore lost_zero
    by_cases hsome : scaledStake v q q'' = 0
    · by_cases hexpired : q.epoch < q''.epoch ∨ 1 < q''.scale - q.scale
      · by_cases hk : values k = 0
        · rw [hk]
          exact lost_zero
        · exact lost_of_older (holder k hk hv) ((hpast hv).trans hlater) hexpired
      · -- the stake is worth less than one wei, and so are the deposits
        have hsame := hepoch hv fun h => hexpired (.inl h)
        have hworth : worth v q q'' < 1 := by
          rw [← Nat.floor_eq_zero, floor_worth hexpired]
          exact hsome
        rw [← live_lt_one_iff]
        calc live (values k) (products k) q''
            ≤ ratio q' q'' * live (values k) (products k) q' :=
              live_later_le (hvalues k) hlater hsame
          _ ≤ ratio q' q'' * live v q q' := mul_le_mul_of_nonneg_left (hle k) ratio_nonneg
          _ = worth v q q'' := by
              rw [live, if_neg hbefore, worth_later hpast hlater hsame]
          _ < 1 := hworth
    · exact hkeeps ⟨Nat.pos_of_ne_zero hsome, hlost.resolve_left hsome⟩ k
  · have hv : v ≠ 0 := by
      rintro rfl
      exact hlost lost_zero
    have hsame := hepoch hv fun h => hlost (.inl (if_pos (.inl h)))
    have hshrunk : Covered (fun k => live (values k) (products k) q'')
        (ratio q' q'' * 0 + (live v q q'' - ratio q' q'' * live v q q')) (live v q q'') :=
      hcovered.shrink ratio_nonneg fun k => live_later_le (hvalues k) hlater hsame
    rw [live_later hpast hlater hsame hlost, mul_zero, sub_self, add_zero] at hshrunk
    rw [live_later hpast hlater hsame hlost]
    exact hshrunk

/-- A stake is written with every change of a deposit under its tag. -/
def Older (p : StabilityPool) : Prop :=
  ∀ a, (p.deposits a).initialValue ≠ 0 → p.frontEndStakes (p.deposits a).frontEndTag ≠ 0 →
    Decays (productThen (p.depositSnapshots a))
      (productThen (p.frontEndSnapshots (p.deposits a).frontEndTag))

theorem Older.restaked {deposit stake : ℕ} (hp : Older p) (haged : Aged p) :
    Older (restaked a tag deposit stake p) := by
  intro b hvalue hstake
  unfold StabilityPool.restaked at hvalue hstake ⊢
  by_cases hb : b = a
  · subst hb
    simp only [Function.update_self] at hvalue hstake ⊢
    by_cases hzero : deposit = 0
    · rw [if_pos hzero] at hvalue
      exact absurd rfl hvalue
    · simp only [if_neg hzero, Function.update_self] at hstake ⊢
      rw [if_neg hstake]
      exact .refl _
  · simp only [Function.update_of_ne hb] at hvalue hstake ⊢
    by_cases htag : (p.deposits b).frontEndTag = tag
    · simp only [htag, Function.update_self] at hstake ⊢
      rw [if_neg hstake]
      exact haged.deposit hvalue
    · simp only [Function.update_of_ne htag] at hstake ⊢
      exact hp b hvalue hstake

/-- The stakes are worth the deposits under their tags. -/
structure StakesCover (p : StabilityPool) : Prop where
  product_pos : 0 < p.P
  aged : Aged p
  older : Older p
  covered : ∀ tag, Covered (taggedLive p tag) 0 (stakeLive p tag)

theorem StakesCover.sum_le (hs : StakesCover p) (A : Finset Address) :
    ∑ a ∈ A, taggedLive p tag a ≤ stakeLive p tag :=
  (hs.covered tag).sum_subset_le le_rfl fun _ => taggedLive_nonneg

theorem StakesCover.spare_nonneg (hs : StakesCover p) : 0 ≤ spare p tag :=
  sub_nonneg.mpr (hs.sum_le Finset.univ)

theorem StakesCover.depositLive_le (hs : StakesCover p) :
    depositLive p a ≤ stakeLive p (p.deposits a).frontEndTag := by
  have hsum : ∑ b ∈ {a}, taggedLive p (p.deposits a).frontEndTag b ≤ _ := hs.sum_le {a}
  rw [Finset.sum_singleton, depositLive_of_tag rfl] at hsum
  exact hsum

theorem StakesCover.start (g : Genesis) : StakesCover (History.start g).state.stabilityPool := by
  refine ⟨?_, (Solvent.start g).aged, ?_, ?_⟩
  · exact DECIMAL_PRECISION_pos
  · intro a hvalue
    exact absurd rfl hvalue
  · intro tag
    apply Covered.none
    · intro a
      unfold taggedLive
      split_ifs
      · exact live_zero
      · rfl
    · exact live_nonneg

/-- An offset that keeps to the policy. -/
theorem StakesCover.offset (hs : StakesCover s.stabilityPool) {carry : ℚ}
    (hkeeps : Policy.covering.offset debt carry s.stabilityPool)
    (e : OffsetEffect d debt coll s s') {tag : Address} :
    Covered (taggedLive s'.stabilityPool tag) 0 (stakeLive s'.stabilityPool tag) := by
  let values (a : Address) : ℕ := if (s.stabilityPool.deposits a).frontEndTag = tag then
    (s.stabilityPool.deposits a).initialValue else 0
  let products (a : Address) : Product := productThen (s.stabilityPool.depositSnapshots a)
  have htagged (q : Product) (a : Address) : live (values a) (products a) q =
      if (s.stabilityPool.deposits a).frontEndTag = tag then
        live (s.stabilityPool.deposits a).initialValue (products a) q else 0 := by
    dsimp only [values]
    split_ifs
    · rfl
    · exact live_zero
  have hvalues {a : Address} (ha : values a ≠ 0) :
      (s.stabilityPool.deposits a).frontEndTag = tag ∧
        (s.stabilityPool.deposits a).initialValue ≠ 0 := by
    dsimp only [values] at ha
    split_ifs at ha with htag
    · exact ⟨htag, ha⟩
    · exact absurd rfl ha
  have hbefore : taggedLive s.stabilityPool tag =
      fun a => live (values a) (products a) (productNow s.stabilityPool) := by
    funext a
    rw [htagged]
    rfl
  have hafter : taggedLive s'.stabilityPool tag =
      fun a => live (values a) (products a) e.product := by
    funext a
    rw [htagged, e.pool]
    rfl
  have hstake : stakeLive s'.stabilityPool tag = live (s.stabilityPool.frontEndStakes tag)
      (productThen (s.stabilityPool.frontEndSnapshots tag)) e.product := by
    rw [e.pool]
    rfl
  have hcovered := hs.covered tag
  rw [hbefore] at hcovered
  rw [hafter, hstake]
  apply covered_later _ _ (updateProduct_decays (Nat.sub_le _ _) e.products) _ _ hcovered
  · intro a ha
    exact hs.aged.deposit (hvalues ha).2
  · exact hs.aged.stake
  · intro a ha hv
    obtain ⟨rfl, hvalue⟩ := hvalues ha
    exact hs.older a hvalue hv
  · intro hcutOff a
    by_cases ha : values a = 0
    · rw [ha]
      exact lost_zero
    · have htag := (hvalues ha).1
      have hlost := hkeeps e.product e.products tag hcutOff a htag
      dsimp only [values]
      rw [if_pos htag]
      exact hlost

theorem StakesCover.move (hs : StakesCover h.state.stabilityPool)
    (hmove : Move .covering d h h') : StakesCover h'.state.stabilityPool := by
  have haged := hs.aged.move hmove
  cases hmove with
  | issuance i =>
    rw [i.pool]
    exact ⟨hs.product_pos, hs.aged, hs.older, hs.covered⟩
  | registration _ _ hpool =>
    rw [hpool]
    exact ⟨hs.product_pos, hs.aged, hs.older, hs.covered⟩
  | elsewhere hpool =>
    rw [hpool]
    exact hs
  | @settlement s' a tag hkeeps e =>
    refine ⟨?_, haged, ?_, ?_⟩
    · rw [e.pool]
      exact hs.product_pos
    · rw [e.pool]
      exact hs.older.restaked hs.aged
    · intro frontEnd
      by_cases htag : frontEnd = tag
      · rw [htag]
        exact (e.covered_live_iff hs.product_pos).mpr hkeeps
      · exact e.covered_live_of_ne hs.product_pos htag (hs.covered frontEnd)
  | offset hkeeps _ _ e =>
    refine ⟨?_, haged, ?_, ?_⟩
    · rw [e.pool]
      exact e.product_pos
    · rw [e.pool]
      exact hs.older
    · intro tag
      exact hs.offset hkeeps e

theorem Recorded.stakesCover (hrecorded : Recorded .covering d h) :
    StakesCover h.state.stabilityPool :=
  hrecorded.invariant StakesCover.start StakesCover.move

/-- `P` and its snapshots are at most `1e18`. -/
structure Bounded (p : StabilityPool) : Prop where
  product : p.P ≤ DECIMAL_PRECISION
  snapshots : ∀ tag, p.frontEndStakes tag ≠ 0 → (p.frontEndSnapshots tag).P ≤ DECIMAL_PRECISION

variable {P : Policy}

theorem Bounded.restaked {deposit stake : ℕ} (hp : Bounded p) :
    Bounded (restaked a tag deposit stake p) := by
  refine ⟨hp.product, ?_⟩
  intro frontEnd hstake
  unfold StabilityPool.restaked at hstake ⊢
  by_cases htag : frontEnd = tag
  · subst htag
    simp only [Function.update_self] at hstake ⊢
    rw [if_neg hstake]
    exact hp.product
  · simp only [Function.update_of_ne htag] at hstake ⊢
    exact hp.snapshots frontEnd hstake

theorem Bounded.move (hs : Bounded h.state.stabilityPool) (hmove : Move P d h h') :
    Bounded h'.state.stabilityPool := by
  cases hmove with
  | issuance i =>
    rw [i.pool]
    exact ⟨hs.product, hs.snapshots⟩
  | registration _ _ hpool =>
    rw [hpool]
    exact ⟨hs.product, hs.snapshots⟩
  | elsewhere hpool =>
    rw [hpool]
    exact hs
  | @settlement s' a tag _ e =>
    have hrestaked :
        Bounded (StabilityPool.restaked a tag e.newDeposit e.newStake h.state.stabilityPool) :=
      hs.restaked
    rw [e.pool]
    exact ⟨hrestaked.product, hrestaked.snapshots⟩
  | offset _ _ _ e =>
    rw [e.pool]
    exact ⟨(updateProduct_bounds hs.product (Nat.sub_le _ _) e.products).2, hs.snapshots⟩

theorem Recorded.bounded (hrecorded : Recorded P d h) : Bounded h.state.stabilityPool := by
  apply hrecorded.invariant (I := fun h => Bounded h.state.stabilityPool)
  · intro g
    exact ⟨le_rfl, fun _ hstake => absurd rfl hstake⟩
  · exact Bounded.move

/-- As long as the scale has not changed, a stake keeps more than a billionth. -/
theorem not_cutOff (hP : q.P ≤ DECIMAL_PRECISION) (hP' : SCALE_FACTOR ≤ q'.P)
    (hscale : q'.scale = 0) : ¬CutOff v q q' := by
  rintro ⟨hpos, hsmall⟩
  unfold scaledStake at hpos hsmall
  split_ifs at hpos hsmall
  · exact absurd hpos (lt_irrefl _)
  rw [hscale, Nat.zero_sub, pow_zero, Nat.mul_one] at hpos hsmall
  have hq : 0 < q.P := by
    by_contra hzero
    rw [Nat.eq_zero_of_not_pos hzero, Nat.div_zero] at hpos
    exact absurd hpos (lt_irrefl _)
  rw [Nat.div_lt_iff_lt_mul hq] at hsmall
  have hle : v / 10 ^ 9 * q.P ≤ v * q'.P := by
    calc v / 10 ^ 9 * q.P ≤ v / 10 ^ 9 * (10 ^ 9 * SCALE_FACTOR) := Nat.mul_le_mul_left _ hP
      _ = v / 10 ^ 9 * 10 ^ 9 * SCALE_FACTOR := (Nat.mul_assoc _ _ _).symm
      _ ≤ v * q'.P := Nat.mul_le_mul (Nat.div_mul_le_self _ _) hP'
  omega

end MoneyProtocol.StabilityPool
