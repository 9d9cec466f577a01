import MoneyProtocol.Contracts.PriceFeed

/-!
# Outages of the oracles

The price feed falls back on the second oracle where the first reports failure, and on the last
good price where both do. It has no answer to an oracle that reverts, and takes a price of zero
from the main oracle as good.
-/

namespace MoneyProtocol

open Outcome

variable {a : Adapters} {o : Oracles} {c c' : PriceFeedContract} {price : ℕ}

/-- The oracles leave a way to a price: the main oracle answers, with a price above zero or
with a failure that it reports, and then the fallback answers as well. -/
def Oracles.Works (o : Oracles) : Prop :=
  ∃ price success, o.peek = .ok (price, success) ∧
    if success then 0 < price else ∃ answer, o.getPricing = .ok answer

/-- An oracle has just answered with this price, and reported success. -/
def Oracles.Fresh (o : Oracles) (price : ℕ) : Prop :=
  o.peek = .ok (price, true) ∨ ∃ time, o.getPricing = .ok (price, time)

theorem MOCExternalPriceFeed.latestAnswer_eq :
    MOCExternalPriceFeed.latestAnswer o = o.peek := by
  unfold latestAnswer
  cases o.peek <;> rfl

theorem RSKExternalPriceFeed.latestAnswer_ok {success : Bool} :
    RSKExternalPriceFeed.latestAnswer o = .ok (price, success) ↔
      (∃ time, o.getPricing = .ok (price, time)) ∧ success = decide (price ≠ 0) := by
  unfold latestAnswer
  cases h : o.getPricing with
  | error e => simp [bind, Except.bind]
  | ok answer =>
    obtain ⟨p, time⟩ := answer
    simp only [bind_ok, pure_ok, Except.ok.injEq, Prod.mk.injEq]
    constructor
    · rintro ⟨_, rfl, rfl, rfl⟩
      exact ⟨⟨time, rfl, rfl⟩, rfl⟩
    · rintro ⟨⟨_, rfl, rfl⟩, rfl⟩
      exact ⟨_, rfl, rfl, rfl⟩

theorem Adapters.latestAnswer_moc : a.latestAnswer o a.moc = o.peek := by
  rw [latestAnswer, if_pos rfl, MOCExternalPriceFeed.latestAnswer_eq]

theorem Adapters.latestAnswer_rsk :
    a.latestAnswer o a.rsk = RSKExternalPriceFeed.latestAnswer o := by
  rw [latestAnswer, if_neg a.distinct.symm, if_pos rfl]

namespace PriceFeedContract

/-- The contract after `setAddresses`: it reads from the adapters, has no owner any more, and
its last good price is one. -/
structure Installed (a : Adapters) (c : PriceFeedContract) : Prop where
  owner : c.owner = 0
  main : c.priceFeeds 0 = a.moc
  fallback : c.priceFeeds 1 = a.rsk
  good : 0 < c.lastGoodPrice

theorem setExternalPriceFeed_ok {index : Fin 2} {feed : Address}
    (h : setExternalPriceFeed a o index feed c = .ok (price, c')) :
    a.latestAnswer o feed = .ok (price, true) ∧
      c' = { c with priceFeeds := Function.update c.priceFeeds index feed } := by
  simp only [setExternalPriceFeed, bind_ok, require_ok, pure_ok, Function.update_self] at h
  obtain ⟨_, -, ⟨p, success⟩, hanswer, _, hsuccess, heq⟩ := h
  simp only [Prod.mk.injEq] at heq
  obtain ⟨rfl, rfl⟩ := heq
  exact ⟨hsuccess ▸ hanswer, rfl⟩

/-- The last answer that `setAddresses` accepts is the fallback's, which is above zero. -/
theorem setAddresses_installed {msgSender : Address}
    (h : c.setAddresses a o msgSender a.all = .ok c') : c'.Installed a := by
  simp only [setAddresses, Adapters.all, setFeeds, List.zip_cons_cons, List.zip_nil_right, bind_ok,
    require_ok, pure_ok] at h
  obtain ⟨_, -, _, -, c₃, ⟨⟨p₁, c₁⟩, hmoc, ⟨p₂, c₂⟩, hrsk, rfl⟩, rfl⟩ := h
  obtain ⟨-, rfl⟩ := setExternalPriceFeed_ok hmoc
  obtain ⟨hanswer, rfl⟩ := setExternalPriceFeed_ok hrsk
  rw [Adapters.latestAnswer_rsk, RSKExternalPriceFeed.latestAnswer_ok] at hanswer
  have hgood : p₂ ≠ 0 := of_decide_eq_true hanswer.2.symm
  exact ⟨rfl, rfl, rfl, Nat.pos_of_ne_zero hgood⟩

/-- Nobody owns the contract any more. -/
theorem Installed.setAddresses_fails (h : c.Installed a) {msgSender : Caller}
    {priceFeedAddresses : List Address} :
    c.setAddresses a o msgSender priceFeedAddresses ≠ .ok c' := by
  intro hset
  simp only [setAddresses, bind_ok, require_ok, h.owner] at hset
  obtain ⟨_, howner, -⟩ := hset
  exact msgSender.2 howner

/-- All that `fetchPrice` can return. -/
theorem Installed.fetchPrice_cases (h : c.Installed a)
    (hfetch : c.fetchPrice a o = .ok (price, c')) :
    (o.peek = .ok (price, true) ∧ c' = { c with lastGoodPrice := price }) ∨
    ∃ q answer, o.peek = .ok (q, false) ∧ o.getPricing = .ok answer ∧
      ((answer.1 = price ∧ 0 < price ∧ c' = { c with lastGoodPrice := price }) ∨
        (price = c.lastGoodPrice ∧ c' = c)) := by
  simp only [fetchPrice, fetchPriceFrom, h.main, h.fallback, Adapters.latestAnswer_moc,
    Adapters.latestAnswer_rsk, bind_ok] at hfetch
  obtain ⟨⟨p, success⟩, hpeek, hfetch⟩ := hfetch
  cases success with
  | true =>
    simp only [if_true, pure_ok, Prod.mk.injEq] at hfetch
    obtain ⟨rfl, rfl⟩ := hfetch
    exact .inl ⟨hpeek, rfl⟩
  | false =>
    simp only [Bool.false_eq_true, if_false, bind_ok] at hfetch
    obtain ⟨⟨q, success⟩, hanswer, hfetch⟩ := hfetch
    obtain ⟨⟨time, hpricing⟩, rfl⟩ := RSKExternalPriceFeed.latestAnswer_ok.mp hanswer
    refine .inr ⟨p, (q, time), hpeek, hpricing, ?_⟩
    by_cases hq : q = 0
    · simp only [hq, ne_eq, not_true_eq_false, decide_false, Bool.false_eq_true, if_false, pure_ok,
        Prod.mk.injEq] at hfetch
      exact .inr ⟨hfetch.1.symm, hfetch.2.symm⟩
    · simp only [hq, ne_eq, not_false_eq_true, decide_true, if_true, pure_ok,
        Prod.mk.injEq] at hfetch
      obtain ⟨rfl, rfl⟩ := hfetch
      exact .inl ⟨rfl, Nat.pos_of_ne_zero hq, rfl⟩

/-- `fetchPrice` returns a price above zero, a fresh one or the last good one. -/
def Priced (a : Adapters) (o : Oracles) (c : PriceFeedContract) : Prop :=
  ∃ price c', c.fetchPrice a o = .ok (price, c') ∧ 0 < price ∧
    (o.Fresh price ∨ price = c.lastGoodPrice)

theorem Installed.priced_iff (h : c.Installed a) : c.Priced a o ↔ o.Works := by
  constructor
  · rintro ⟨price, c', hfetch, hpos, -⟩
    obtain ⟨hpeek, -⟩ | ⟨q, answer, hpeek, hpricing, -⟩ := h.fetchPrice_cases hfetch
    · exact ⟨price, true, hpeek, by simpa using hpos⟩
    · exact ⟨q, false, hpeek, by simpa using ⟨_, _, hpricing⟩⟩
  · rintro ⟨p, success, hpeek, hworks⟩
    unfold Priced fetchPrice
    simp only [fetchPriceFrom, h.main, h.fallback, Adapters.latestAnswer_moc,
      Adapters.latestAnswer_rsk, hpeek, bind, Except.bind]
    cases success with
    | true => exact ⟨p, _, rfl, by simpa using hworks, .inl (.inl hpeek)⟩
    | false =>
      obtain ⟨⟨q, time⟩, hpricing⟩ : ∃ answer, o.getPricing = .ok answer := by simpa using hworks
      have hanswer : RSKExternalPriceFeed.latestAnswer o = .ok (q, decide (q ≠ 0)) :=
        RSKExternalPriceFeed.latestAnswer_ok.mpr ⟨⟨time, hpricing⟩, rfl⟩
      rw [hanswer]
      by_cases hq : q = 0
      · subst hq
        exact ⟨c.lastGoodPrice, c, rfl, h.good, .inr rfl⟩
      · refine ⟨q, { c with lastGoodPrice := q }, by simp [hq], Nat.pos_of_ne_zero hq, ?_⟩
        exact .inl (.inr ⟨time, hpricing⟩)

theorem Installed.fetched (h : c.Installed a) (hpriced : c.Priced a o) :
    (PriceFeedCall.fetchPrice.after a o c).Installed a := by
  obtain ⟨price, c', hfetch, hpos, -⟩ := hpriced
  simp only [PriceFeedCall.after, hfetch]
  obtain ⟨-, rfl⟩ | ⟨_, _, -, -, ⟨-, -, rfl⟩ | ⟨-, rfl⟩⟩ := h.fetchPrice_cases hfetch
  · exact ⟨h.owner, h.main, h.fallback, hpos⟩
  · exact ⟨h.owner, h.main, h.fallback, hpos⟩
  · exact h

theorem Installed.after_setAddresses (h : c.Installed a) (msgSender : Caller)
    (priceFeedAddresses : List Address) :
    (PriceFeedCall.setAddresses msgSender priceFeedAddresses).after a o c = c := by
  simp only [PriceFeedCall.after]
  split
  · next c' hset => exact absurd hset h.setAddresses_fails
  · rfl

/-- Every `fetchPrice` among the calls, made one after the other, is answered with a price. -/
def AlwaysPriced (a : Adapters) : List (Oracles × PriceFeedCall) → PriceFeedContract → Prop
  | [], _ => True
  | (o, call) :: calls, c =>
    (call = .fetchPrice → c.Priced a o) ∧ AlwaysPriced a calls (call.after a o c)

/-- After `setAddresses`, whatever is called and whatever the oracles do meanwhile: every
`fetchPrice` is answered with a price if and only if the oracles work at every `fetchPrice`. -/
theorem alwaysPriced_iff {msgSender : Address} {c₀ : PriceFeedContract}
    {calls : List (Oracles × PriceFeedCall)}
    (hset : c₀.setAddresses a o msgSender a.all = .ok c) :
    AlwaysPriced a calls c ↔ ∀ o', (o', PriceFeedCall.fetchPrice) ∈ calls → o'.Works := by
  have h := setAddresses_installed hset
  clear hset
  induction calls generalizing c with
  | nil => simp [AlwaysPriced]
  | cons call calls ih =>
    obtain ⟨o', call⟩ := call
    simp only [AlwaysPriced, List.mem_cons, Prod.mk.injEq]
    cases call with
    | setAddresses msgSender priceFeedAddresses =>
      rw [h.after_setAddresses]
      have hrest := ih h
      simpa using hrest
    | fetchPrice =>
      constructor
      · rintro ⟨hpriced, hrest⟩ o'' (⟨rfl, -⟩ | hmem)
        · exact h.priced_iff.mp (hpriced rfl)
        · exact (ih (h.fetched (hpriced rfl))).mp hrest o'' hmem
      · intro hworks
        have hpriced : c.Priced a o' := h.priced_iff.mpr (hworks o' (.inl ⟨rfl, rfl⟩))
        exact ⟨fun _ => hpriced,
          (ih (h.fetched hpriced)).mpr fun o'' hmem => hworks o'' (.inr hmem)⟩

def testAdapters : Adapters := ⟨20, 21, by decide⟩

/-- Right after the constructor. -/
def testDeployed : PriceFeedContract := ⟨⟨0⟩, 100, fun _ => 0⟩

/-- Both oracles answer with the price. -/
def testOracles (price : ℕ) : Oracles := ⟨.ok (price, true), .ok (price, 0), fun _ => 1⟩

/-- The main oracle answers with zero: the price is zero. It reverts: the fallback is not
asked. It reports failure and the fallback reverts: the last good price is not used. -/
theorem fetchPrice_blocked :
    ∃ c, testDeployed.setAddresses testAdapters (testOracles 60000) 100 testAdapters.all = .ok c ∧
      ¬AlwaysPriced testAdapters [(⟨.ok (0, true), .ok (60000, 0), fun _ => 1⟩, .fetchPrice)] c ∧
      ¬AlwaysPriced testAdapters
        [(⟨.error (.revert ""), .ok (60000, 0), fun _ => 1⟩, .fetchPrice)] c ∧
      ¬AlwaysPriced testAdapters
        [(⟨.ok (60000, false), .error (.revert ""), fun _ => 1⟩, .fetchPrice)] c := by
  have hsucceeds : succeeds (fun _ => true) (testDeployed.setAddresses testAdapters
      (testOracles 60000) 100 testAdapters.all) = true := by
    decide +kernel
  obtain ⟨c, hset, -⟩ := exists_of_succeeds hsucceeds
  have hinstalled := setAddresses_installed hset
  refine ⟨c, hset, ?_, ?_, ?_⟩
  · rintro ⟨hpriced, -⟩
    have hworks := hinstalled.priced_iff.mp (hpriced rfl)
    simp [Oracles.Works] at hworks
  · rintro ⟨hpriced, -⟩
    have hworks := hinstalled.priced_iff.mp (hpriced rfl)
    simp [Oracles.Works] at hworks
  · rintro ⟨hpriced, -⟩
    have hworks := hinstalled.priced_iff.mp (hpriced rfl)
    simp [Oracles.Works] at hworks

/-- The main oracle fails twice, and the fallback the second time: the price it gave the first
time is kept. -/
theorem alwaysPriced_iff_outage :
    ∃ c, testDeployed.setAddresses testAdapters (testOracles 60000) 100 testAdapters.all = .ok c ∧
      AlwaysPriced testAdapters [(⟨.ok (0, false), .ok (50000, 0), fun _ => 1⟩, .fetchPrice),
        (⟨.ok (0, false), .ok (0, 0), fun _ => 1⟩, .fetchPrice)] c := by
  have hsucceeds : succeeds (fun _ => true) (testDeployed.setAddresses testAdapters
      (testOracles 60000) 100 testAdapters.all) = true := by
    decide +kernel
  obtain ⟨c, hset, -⟩ := exists_of_succeeds hsucceeds
  refine ⟨c, hset, (alwaysPriced_iff hset).mpr ?_⟩
  intro o ho
  simp only [List.mem_cons, Prod.mk.injEq, and_true, List.not_mem_nil, or_false] at ho
  rcases ho with rfl | rfl
  · exact ⟨0, false, rfl, by simp⟩
  · exact ⟨0, false, rfl, by simp⟩

end PriceFeedContract

/-- What the system sees of the oracles. -/
def Oracles.block (o : Oracles) (a : Adapters) (c : PriceFeedContract) (timestamp : ℕ) : Block where
  timestamp := timestamp
  latestAnswer i := (a.latestAnswer o (c.priceFeeds i)).toOption

theorem PriceFeed.fetchPriceFrom_contract {timestamp : ℕ} {feeds : List (Fin 2)} {s s' : State}
    (hs : s.priceFeed = c.toPriceFeed) :
    fetchPriceFrom (o.block a c timestamp) feeds s = .ok (price, s') ↔
      ∃ c', c.fetchPriceFrom a o feeds = .ok (price, c') ∧
        s' = { s with priceFeed := c'.toPriceFeed } := by
  induction feeds with
  | nil =>
    simp only [fetchPriceFrom, PriceFeedContract.fetchPriceFrom, pure_ok, Except.ok.injEq,
      Prod.mk.injEq, ← hs]
    constructor
    · rintro ⟨rfl, rfl⟩
      exact ⟨c, ⟨rfl, rfl⟩, by rw [← hs]⟩
    · rintro ⟨_, ⟨rfl, rfl⟩, rfl⟩
      exact ⟨rfl, by rw [← hs]⟩
  | cons i feeds ih =>
    simp only [fetchPriceFrom, PriceFeedContract.fetchPriceFrom, Oracles.block] at ih ⊢
    cases a.latestAnswer o (c.priceFeeds i) with
    | error e => simp [Except.toOption, bind, Except.bind]
    | ok answer =>
      obtain ⟨p, success⟩ := answer
      cases success with
      | true =>
        simp only [Except.toOption, bind, Except.bind, if_true, pure_ok, Except.ok.injEq,
          Prod.mk.injEq]
        constructor
        · rintro ⟨rfl, rfl⟩
          exact ⟨_, ⟨rfl, rfl⟩, rfl⟩
        · rintro ⟨_, ⟨rfl, rfl⟩, rfl⟩
          exact ⟨rfl, rfl⟩
      | false => simpa [Except.toOption, bind, Except.bind] using ih

/-- The system fetches the price that the contract does. -/
theorem PriceFeed.fetchPrice_contract {timestamp : ℕ} {s s' : State}
    (hs : s.priceFeed = c.toPriceFeed) :
    fetchPrice (o.block a c timestamp) s = .ok (price, s') ↔
      ∃ c', c.fetchPrice a o = .ok (price, c') ∧ s' = { s with priceFeed := c'.toPriceFeed } :=
  fetchPriceFrom_contract hs

end MoneyProtocol
