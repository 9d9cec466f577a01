import MoneyProtocol.Sdk.Rates
import MoneyProtocol.Accounting.RedemptionRate
import MoneyProtocol.Contracts.HintHelpers
import MoneyProtocol.Safety.RedemptionHints

/-!
# The SDK's redemption rate

`redeemBPD` looks up hints and a rate, and sends the redemption with the rate and a tolerance as
its maximum fee. The rate bounds what the contracts charge later on, so the maximum is never in
the way.
-/

namespace MoneyProtocol.Sdk

open Outcome Decimal VaultManager HintHelpers

variable {d : Deployment} {s s' s₀ : State} {t : Transaction}
  {timestamp price amount BPDamount maxIterations maxFee R : ℕ} {hints : RedemptionHints}
  {findHints : ℕ → Address × Address}

def redeemMaxIterations : ℕ := 70

def defaultRedemptionRateSlippageTolerance : Decimal := 10 ^ 15

/-- `Fees.redemptionRate` for the redemption of this amount, at the time of the block. -/
def quotedRedemptionRate (timestamp price amount : ℕ) (s : State) : Outcome Decimal := do
  let fees ← getFees timestamp price s
  fees.redemptionRate (div amount (getTotal s).debt) fees.timeOfLatestBlock

def defaultMaxRedemptionRate (timestamp price amount : ℕ) (s : State) : Outcome Decimal := do
  let rate ← quotedRedemptionRate timestamp price amount s
  return min (add rate defaultRedemptionRateSlippageTolerance) ONE

/-- The arguments that a redemption is sent with. -/
structure PopulatedRedemption where
  truncatedAmount : Decimal
  hints : RedemptionHints
  maxRedemptionRate : Decimal

/-- The call, with this maximum fee. -/
def PopulatedRedemption.operation (p : PopulatedRedemption) (maxFee : ℕ) : Operation :=
  .redeemCollateral p.truncatedAmount p.hints redeemMaxIterations maxFee

/-- The hints for the insert position come from `findHintsForNominalCollateralRatio`, a random
search. -/
def findRedemptionHints (findHints : ℕ → Address × Address) (price amount : ℕ) (s : State) :
    Outcome (Decimal × RedemptionHints) := do
  let hint ← getRedemptionHints amount price redeemMaxIterations s
  let (upperHint, lowerHint) := if hint.partialRedemptionHintNICR = 0 then (0, 0)
    else findHints hint.partialRedemptionHintNICR
  return (hint.truncatedBPDamount,
    ⟨hint.firstRedemptionHint, upperHint, lowerHint, hint.partialRedemptionHintNICR⟩)

def redeemBPD (findHints : ℕ → Address × Address) (timestamp price amount : ℕ)
    (maxRedemptionRate : Option Decimal) (s : State) : Outcome PopulatedRedemption := do
  let (truncatedAmount, hints) ← findRedemptionHints findHints price amount s
  require (truncatedAmount ≠ 0) "redeemBPD: amount too low to redeem (try at least 1800)"
  match maxRedemptionRate with
  | some maxRedemptionRate => return ⟨truncatedAmount, hints, maxRedemptionRate⟩
  | none => do
    let maxRedemptionRate ← defaultMaxRedemptionRate timestamp price truncatedAmount s
    return ⟨truncatedAmount, hints, maxRedemptionRate⟩

/-- No fee operation and no change of the system's debt in between. -/
structure NoFeeOperation (s₀ s : State) : Prop where
  baseRate : s.vaultManager.baseRate = s₀.vaultManager.baseRate
  lastFeeOperationTime : s.vaultManager.lastFeeOperationTime = s₀.vaultManager.lastFeeOperationTime
  debt : (getTotal s).debt = (getTotal s₀).debt

/-- The SDK's base rate for a redemption. -/
theorem quotedRedemptionRate_ok (hdebt : 0 < (getTotal s).debt)
    (h : quotedRedemptionRate timestamp price amount s = .ok R) :
    R = min (MINIMUM_REDEMPTION_RATE + (amount * DIGITS / (getTotal s).debt / 2 +
      decayedBaseRate timestamp s)) ONE := by
  simp only [quotedRedemptionRate, Fees.redemptionRate, bind_ok, pure_ok] at h
  obtain ⟨fees, hfees, base, hbase, rfl⟩ := h
  obtain ⟨-, rfl⟩ := (baseRate_ok hfees).mp hbase
  obtain ⟨-, rfl⟩ := getFees_ok.mp hfees
  have hfraction : div amount (getTotal s).debt = amount * DIGITS / (getTotal s).debt :=
    if_neg hdebt.ne'
  have hhalf (x : ℕ) : div x BETA = x / 2 := by
    have hBETA : BETA = DIGITS * 2 := by
      decide
    have hDIGITS : 0 < DIGITS := by
      decide
    rw [div, if_neg (by decide), hBETA, Nat.mul_comm x]
    exact Nat.mul_div_mul_left x 2 hDIGITS
  simp only [hfraction, hhalf, Decimal.add]
  split_ifs with hzero
  · rfl
  · rw [not_not.mp hzero, Nat.zero_div, Nat.zero_add]

/-- The base rate decays, and what is drawn is worth at most the amount. -/
theorem redeemedBaseRate_le {now worth : ℕ} (hlater : timestamp ≤ now)
    (hbetween : NoFeeOperation s₀ s) (hworth : worth ≤ amount * DIGITS) :
    redeemedBaseRate now worth (getTotal s).debt s ≤
      amount * DIGITS / (getTotal s₀).debt / 2 + decayedBaseRate timestamp s₀ := by
  have hminutes : (timestamp - s₀.vaultManager.lastFeeOperationTime) / 60 ≤
      (now - s₀.vaultManager.lastFeeOperationTime) / 60 :=
    Nat.div_le_div_right (Nat.sub_le_sub_right hlater _)
  have hdecay : s₀.vaultManager.baseRate *
      decayFactor ((now - s₀.vaultManager.lastFeeOperationTime) / 60) / DECIMAL_PRECISION ≤
        decayedBaseRate timestamp s₀ := by
    apply Nat.div_le_div_right
    exact Nat.mul_le_mul_left _ (decayFactor_antitone hminutes)
  have hshare : worth / (getTotal s₀).debt / 2 ≤ amount * DIGITS / (getTotal s₀).debt / 2 :=
    Nat.div_le_div_right (Nat.div_le_div_right hworth)
  rw [redeemedBaseRate, hbetween.baseRate, hbetween.lastFeeOperationTime, hbetween.debt]
  apply (min_le_left _ _).trans
  rw [Nat.add_comm]
  exact Nat.add_le_add hshare hdecay

theorem total_debt_eq {supply : ℕ} (h : MoneypBase.getEntireSystemDebt s = .ok supply) :
    supply = (getTotal s).debt := by
  simp only [MoneypBase.getEntireSystemDebt, SafeMath.add_ok] at h
  exact h.2.symm

/-- The rate that is charged, and that it decides which maximum fees are accepted. -/
theorem redeemCollateral_within (hlater : timestamp ≤ t.block.timestamp)
    (hbetween : NoFeeOperation s₀ s)
    (hR : quotedRedemptionRate timestamp price amount s₀ = .ok R)
    (hop : t.operation = .redeemCollateral BPDamount hints maxIterations maxFee)
    (hamount : BPDamount ≤ amount) (h : transact d t s = .ok s') :
    (∃ rate, getRedemptionRate s' = .ok rate ∧ rate ≤ R) ∧
      ∀ newMaxFee, R ≤ newMaxFee → newMaxFee ≤ DECIMAL_PRECISION →
        transact d { t with
          operation := .redeemCollateral BPDamount hints maxIterations newMaxFee } s = .ok s' := by
  simp only [transact, hop, nonPayable, bind_ok] at h
  obtain ⟨_, hvalue, h⟩ := h
  obtain ⟨rate, worth, supply, hsupply, hpos, hworth, hrate, heq, hany⟩ :=
    redeemCollateral_charged h
  obtain rfl := total_debt_eq hsupply
  have hfloor : REDEMPTION_FEE_FLOOR = MINIMUM_REDEMPTION_RATE := by
    decide
  have hle : rate ≤ R := by
    rw [heq, quotedRedemptionRate_ok (hbetween.debt ▸ hpos) hR, hfloor]
    have hworth' : worth ≤ amount * DIGITS := hworth.trans (Nat.mul_le_mul_right _ hamount)
    have hbase := redeemedBaseRate_le hlater hbetween hworth'
    exact min_le_min (Nat.add_le_add_left hbase _) le_rfl
  refine ⟨⟨rate, hrate, hle⟩, ?_⟩
  intro newMaxFee hnew hcap
  simp only [transact, nonPayable, bind_ok]
  exact ⟨(), hvalue, hany newMaxFee (hle.trans hnew) hcap⟩

/-- A redemption without a maximum of the caller's is sent with the default one. -/
theorem redeemBPD_default {p : PopulatedRedemption}
    (h : redeemBPD findHints timestamp price amount none s = .ok p) :
    ∃ rate, quotedRedemptionRate timestamp price p.truncatedAmount s = .ok rate ∧
      p.maxRedemptionRate = min (rate + defaultRedemptionRateSlippageTolerance) ONE := by
  simp only [redeemBPD, defaultMaxRedemptionRate, bind_ok, pure_ok, Prod.exists] at h
  obtain ⟨_, _, -, _, -, _, ⟨rate, hrate, rfl⟩, rfl⟩ := h
  exact ⟨rate, hrate, rfl⟩

theorem quotedRedemptionRate_le (h : quotedRedemptionRate timestamp price amount s = .ok R) :
    R ≤ ONE := by
  simp only [quotedRedemptionRate, Fees.redemptionRate, bind_ok, pure_ok] at h
  obtain ⟨_, -, _, -, rfl⟩ := h
  exact min_le_right _ _

/-- A redemption at a later time, with no fee operation or change of the debt in between, is
charged at most the rate that the SDK quotes for its amount or more. With the maximum fee that
`redeemBPD` sets by default it succeeds wherever it does with another one. -/
theorem redemption_within_quote (price : ℕ) (hlater : timestamp ≤ t.block.timestamp)
    (hbetween : NoFeeOperation s₀ s) :
    (∀ amount R BPDamount hints maxIterations maxFee s',
      quotedRedemptionRate timestamp price amount s₀ = .ok R →
      t.operation = .redeemCollateral BPDamount hints maxIterations maxFee → BPDamount ≤ amount →
      transact d t s = .ok s' → ∃ rate, getRedemptionRate s' = .ok rate ∧ rate ≤ R) ∧
    (∀ findHints amount p maxFee s',
      redeemBPD findHints timestamp price amount none s₀ = .ok p →
      transact d { t with operation := p.operation maxFee } s = .ok s' →
      transact d { t with operation := p.operation p.maxRedemptionRate } s = .ok s') := by
  constructor
  · intro amount R BPDamount hints maxIterations maxFee s' hR hop hamount h
    exact (redeemCollateral_within hlater hbetween hR hop hamount h).1
  · intro findHints amount p maxFee s' hp h
    obtain ⟨rate, hrate, hmax⟩ := redeemBPD_default hp
    have hwithin := redeemCollateral_within (t := { t with operation := p.operation maxFee })
      hlater hbetween hrate rfl le_rfl h
    apply hwithin.2
    · rw [hmax]
      exact le_min (Nat.le_add_right _ _) (quotedRedemptionRate_le hrate)
    · rw [hmax]
      exact min_le_right _ _

/-- 100 redeems a whole vault ten minutes after it has asked for the rate. -/
def testRedemption (p : PopulatedRedemption) (maxFee : ℕ) : Transaction :=
  ⟨{ lateBlock 60000 with timestamp := BOOTSTRAP_PERIOD + 600 }, 100, 0, p.operation maxFee⟩

/-- It is sent with a maximum of 100%. -/
def testQuotedRedemption (s : State) : Outcome (PopulatedRedemption × ℕ × State) := do
  let p ← redeemBPD (fun _ => (0, 0)) BOOTSTRAP_PERIOD (60000 * 10 ^ 18) (2010 * 10 ^ 18) none s
  let R ← quotedRedemptionRate BOOTSTRAP_PERIOD (60000 * 10 ^ 18) p.truncatedAmount s
  let s' ← transact testnet (testRedemption p ONE) s
  return (p, R, s')

theorem redemption_within_quote_later : ∃ s s' p R rate, Reachable testnet s ∧
    redeemBPD (fun _ => (0, 0)) BOOTSTRAP_PERIOD (60000 * 10 ^ 18) (2010 * 10 ^ 18) none s =
      .ok p ∧
    quotedRedemptionRate BOOTSTRAP_PERIOD (60000 * 10 ^ 18) p.truncatedAmount s = .ok R ∧
    getRedemptionRate s' = .ok rate ∧ rate ≤ R ∧
    transact testnet (testRedemption p p.maxRedemptionRate) s = .ok s' := by
  obtain ⟨s, hs, -, hcheck⟩ := runs_reachable testnet testGenesis
    [⟨testBlock 60000, 100, 5 * 10 ^ 18, .openVault (10 ^ 16) (10000 * 10 ^ 18) 0 0⟩,
      ⟨testBlock 60000, 101, 10 ^ 17, .openVault (10 ^ 16) (2000 * 10 ^ 18) 0 0⟩]
    (fun s => succeeds (fun _ => true) (testQuotedRedemption s)) (by decide +kernel)
  obtain ⟨⟨p, R, s'⟩, hquoted, -⟩ := exists_of_succeeds hcheck
  simp only [testQuotedRedemption, bind_ok, pure_ok, Prod.mk.injEq] at hquoted
  obtain ⟨q, hq, R', hR, s'', h, -, -, -⟩ := hquoted
  have hlater : BOOTSTRAP_PERIOD ≤ (testRedemption q ONE).block.timestamp := Nat.le_add_right _ _
  have hbetween : NoFeeOperation s s := ⟨rfl, rfl, rfl⟩
  obtain ⟨hrate, hdefault⟩ := redemption_within_quote (d := testnet)
    (60000 * 10 ^ 18) hlater hbetween
  obtain ⟨rate, hcharged, hle⟩ := hrate q.truncatedAmount R' q.truncatedAmount q.hints
    redeemMaxIterations ONE s'' hR rfl le_rfl h
  have haccepted := hdefault (fun _ => (0, 0)) (2010 * 10 ^ 18) q ONE s'' hq h
  exact ⟨s, s'', q, R', rate, hs, hq, hR, hcharged, hle, haccepted⟩

end MoneyProtocol.Sdk
