import MoneyProtocol.Safety.HintedPosition
import MoneyProtocol.Safety.RedemptionPositions
import MoneyProtocol.Sdk.Redemption
import MoneyProtocol.Sdk.Agreement
import Mathlib.Data.Nat.Dist

/-!
# The search for hints

Before a vault changes, the SDK looks up where it will stand in the list. It lets the contracts
draw vaults at random, a limited number in one call, and starts from the one that is nearest. Each
of its calls reads the block that is the latest one by then.
-/

namespace MoneyProtocol.Sdk

open Outcome Decimal MoneypMath VaultManager HintHelpers BorrowerOperations SortedVaults

def NOMINAL_COLLATERAL_RATIO_PRECISION : Decimal := 100 * 10 ^ 18

def Vault.nominalCollateralRatio (v : Vault) : Decimal :=
  mulDiv v.collateral NOMINAL_COLLATERAL_RATIO_PRECISION v.debt

def maxNumberOfTrialsAtOnce : ℕ := 2500

/-- The loop of `generateTrials`; every round takes a trial off, so `fuel = totalNumberOfTrials`
is never used up. -/
def generateTrialsLoop : ℕ → ℕ → List ℕ
  | 0, _ => []
  | fuel + 1, totalNumberOfTrials =>
    if totalNumberOfTrials = 0 then []
    else min totalNumberOfTrials maxNumberOfTrialsAtOnce :: generateTrialsLoop fuel
      (totalNumberOfTrials - min totalNumberOfTrials maxNumberOfTrialsAtOnce)

def generateTrials (totalNumberOfTrials : ℕ) : Outcome (List ℕ) := do
  assert (totalNumberOfTrials > 0)
  return generateTrialsLoop totalNumberOfTrials totalNumberOfTrials

/-- The calls of `getApproxHint`, from this one on. Each goes on with the seed that the one before
has left. -/
def collectApproxHints (keccak256 : ℕ → ℕ) (CR : ℕ) (latest : ℕ → State) :
    List ℕ → ℕ → ℕ → Outcome (List ApproxHint)
  | [], _, _ => return []
  | numberOfTrials :: restOfTrials, call, latestRandomSeed => do
    let result ← getApproxHint keccak256 CR numberOfTrials latestRandomSeed (latest call)
    let results ← collectApproxHints keccak256 CR latest restOfTrials (call + 1)
      result.latestRandomSeed
    return result :: results

def closer (a b : ApproxHint) : ApproxHint := if a.diff < b.diff then a else b

/-- The reduction of the results; that of an empty array throws. -/
def closest : List ApproxHint → Outcome ApproxHint
  | [] => .error .invalid
  | result :: results => return results.foldl closer result

/-- What the calls of `getApproxHint` come to; the first call has counted the vaults. -/
def findApproxHint (keccak256 : ℕ → ℕ) (CR : ℕ) (latest : ℕ → State) (trials : List ℕ)
    (randomInteger : ℕ) : Outcome ApproxHint := do
  let results ← collectApproxHints keccak256 CR latest trials 1 randomInteger
  closest results

/-- `trials` is the number of trials for a number of vaults, ten times its square root. -/
def findHintsForNominalCollateralRatio (keccak256 trials : ℕ → ℕ) (randomInteger : ℕ)
    (latest : ℕ → State) (nominalCollateralRatio : Decimal) : Outcome (Address × Address) := do
  let numberOfVaults ← toNumber (latest 0).vaultManager.vaultOwners.length
  if numberOfVaults = 0 then return (0, 0)
  else if nominalCollateralRatio = INFINITY then return (0, getFirst (latest 1).sortedVaults)
  else do
    let trials ← generateTrials (trials numberOfVaults)
    let hint ← findApproxHint keccak256 nominalCollateralRatio latest trials randomInteger
    let s := latest (trials.length + 1)
    findInsertPosition (fun a => getNominalICR a s) nominalCollateralRatio hint.hintAddress
      hint.hintAddress s.sortedVaults

def findHints (keccak256 trials : ℕ → ℕ) (randomInteger : ℕ) (latest : ℕ → State) (vault : Vault) :
    Outcome (Address × Address) :=
  findHintsForNominalCollateralRatio keccak256 trials randomInteger latest
    vault.nominalCollateralRatio

/-- The last call of the search. -/
def lastCall (trials : ℕ → ℕ) (latest : ℕ → State) (nominalCollateralRatio : Decimal) : ℕ :=
  let numberOfVaults := (latest 0).vaultManager.vaultOwners.length
  if numberOfVaults = 0 then 0
  else if nominalCollateralRatio = INFINITY then 1
  else (generateTrialsLoop (trials numberOfVaults) (trials numberOfVaults)).length + 1

variable {d : Deployment} {s s' : State} {t : Transaction} {keccak256 trials : ℕ → ℕ}
  {randomInteger CR rounds seed numTrials : ℕ} {latest : ℕ → State} {vault : Vault}
  {hint hint' : ApproxHint} {upperHint lowerHint : Address} {xs seen : List Address}

/-- The owners that are drawn after this seed. -/
def drawn (keccak256 : ℕ → ℕ) (owners : List Address) : ℕ → ℕ → List Address
  | 0, _ => []
  | n + 1, seed => owners.getD (keccak256 seed % owners.length) 0 ::
      drawn keccak256 owners n (keccak256 seed)

theorem drawn_add (owners : List Address) (m n seed : ℕ) :
    drawn keccak256 owners (m + n) seed =
      drawn keccak256 owners m seed ++ drawn keccak256 owners n (keccak256^[m] seed) := by
  induction m generalizing seed with
  | zero =>
    rw [Nat.zero_add]
    rfl
  | succ m ih =>
    rw [Nat.succ_add, drawn, ih, drawn, List.cons_append]
    rfl

theorem drawn_subset {owners : List Address} (howners : owners ≠ []) (n seed : ℕ) :
    drawn keccak256 owners n seed ⊆ owners := by
  induction n generalizing seed with
  | zero => exact List.nil_subset _
  | succ n ih =>
    have hlt : keccak256 seed % owners.length < owners.length :=
      Nat.mod_lt _ (List.length_pos_iff.mpr howners)
    apply List.cons_subset.mpr ⟨_, ih _⟩
    rw [List.getD_eq_getElem?_getD, List.getElem?_eq_getElem hlt]
    exact List.getElem_mem hlt

/-- How far the ratio of a vault is from the one that is looked for. -/
def distance (CR : ℕ) (s : State) (a : Address) : Outcome ℕ := do
  let NICR ← getNominalICR a s
  return Nat.dist NICR CR

theorem getAbsoluteDifference_ok {a b v : ℕ} (h : getAbsoluteDifference a b = .ok v) :
    v = Nat.dist a b := by
  unfold getAbsoluteDifference at h
  unfold Nat.dist
  split_ifs at h with hle
  · obtain ⟨-, rfl⟩ := SafeMath.sub_ok.mp h
    omega
  · obtain ⟨-, rfl⟩ := SafeMath.sub_ok.mp h
    omega

/-- The hint is one of these vaults, and none of them is nearer. -/
structure Nearest (CR : ℕ) (s : State) (hint : ApproxHint) (seen : List Address) : Prop where
  mem : hint.hintAddress ∈ seen
  diff : distance CR s hint.hintAddress = .ok hint.diff
  le : ∀ a ∈ seen, ∃ v, distance CR s a = .ok v ∧ hint.diff ≤ v

/-- The seed does not matter for it. -/
theorem Nearest.seeded (h : Nearest CR s hint seen)
    (haddress : hint'.hintAddress = hint.hintAddress)
    (hdiff : hint'.diff = hint.diff) : Nearest CR s hint' seen := by
  constructor
  · rw [haddress]
    exact h.mem
  · rw [haddress, hdiff]
    exact h.diff
  · rw [hdiff]
    exact h.le

/-- The nearer of two hints is the nearest of all that either has seen. -/
theorem Nearest.merge {seen' : List Address} (h : Nearest CR s hint seen)
    (h' : Nearest CR s hint' seen') (hle : hint'.diff ≤ hint.diff) :
    Nearest CR s hint' (seen ++ seen') := by
  refine ⟨List.mem_append_right _ h'.mem, h'.diff, ?_⟩
  intro a ha
  rcases List.mem_append.mp ha with ha | ha
  · obtain ⟨v, hv, hmin⟩ := h.le a ha
    exact ⟨v, hv, hle.trans hmin⟩
  · exact h'.le a ha

theorem Nearest.subset {seen' : List Address} (h : Nearest CR s hint seen) (hsub : seen' ⊆ seen)
    (hsup : seen ⊆ seen') : Nearest CR s hint seen' :=
  ⟨hsup h.mem, h.diff, fun a ha => h.le a (hsub ha)⟩

theorem nearest_self {a : Address} {v : ℕ} (seed : ℕ) (h : distance CR s a = .ok v) :
    Nearest CR s ⟨a, v, seed⟩ [a] := by
  refine ⟨List.mem_singleton_self a, h, ?_⟩
  intro u hu
  rw [List.mem_singleton.mp hu]
  exact ⟨v, h, le_rfl⟩

/-- Every round looks at one more vault. -/
theorem approxHintLoop_nearest (hnearest : Nearest CR s hint seen)
    (h : approxHintLoop keccak256 CR s rounds hint = .ok hint') :
    Nearest CR s hint' (seen ++ drawn keccak256 s.vaultManager.vaultOwners rounds
      hint.latestRandomSeed) ∧
      hint'.latestRandomSeed = keccak256^[rounds] hint.latestRandomSeed := by
  induction rounds generalizing hint seen with
  | zero =>
    rw [← pure_ok.mp h, drawn, List.append_nil]
    exact ⟨hnearest, rfl⟩
  | succ rounds ih =>
    obtain ⟨current, hcurrent, h⟩ := bind_ok.mp h
    obtain ⟨NICR, hNICR, h⟩ := bind_ok.mp h
    obtain ⟨currentDiff, hdiff, h⟩ := bind_ok.mp h
    have hdistance : distance CR s current = .ok currentDiff := by
      rw [getAbsoluteDifference_ok hdiff]
      exact bind_ok.mpr ⟨NICR, hNICR, rfl⟩
    have hdrawn : s.vaultManager.vaultOwners.getD
        (keccak256 hint.latestRandomSeed % s.vaultManager.vaultOwners.length) 0 = current := by
      unfold getVaultFromVaultOwnersArray at hcurrent
      split at hcurrent
      · next owner howner =>
        rw [List.getD_eq_getElem?_getD, howner]
        exact pure_ok.mp hcurrent
      · exact absurd hcurrent (by simp)
    have hself := nearest_self (keccak256 hint.latestRandomSeed) hdistance
    rw [drawn, hdrawn, List.append_cons, Function.iterate_succ_apply]
    split_ifs at h with hlt
    · exact ih (hnearest.merge hself hlt.le) h
    · have hsame : Nearest CR s { hint with
          latestRandomSeed := keccak256 hint.latestRandomSeed } seen := hnearest.seeded rfl rfl
      have hkept := hself.merge hsame (Nat.le_of_not_lt hlt)
      apply ih _ h
      apply hkept.subset
      · exact List.append_subset.mpr ⟨List.subset_append_right _ _, List.subset_append_left _ _⟩
      · exact List.append_subset.mpr ⟨List.subset_append_right _ _, List.subset_append_left _ _⟩

theorem getApproxHint_nearest (howners : s.vaultManager.vaultOwners ≠ [])
    (h : getApproxHint keccak256 CR numTrials seed s = .ok hint) :
    Nearest CR s hint (getLast s.sortedVaults ::
      drawn keccak256 s.vaultManager.vaultOwners (numTrials - 1) seed) ∧
      hint.latestRandomSeed = keccak256^[numTrials - 1] seed := by
  rw [getApproxHint, if_neg (fun hzero => howners (List.length_eq_zero_iff.mp hzero))] at h
  obtain ⟨NICR, hNICR, h⟩ := bind_ok.mp h
  obtain ⟨diff, hdiff, h⟩ := bind_ok.mp h
  have hdistance : distance CR s (getLast s.sortedVaults) = .ok diff := by
    rw [getAbsoluteDifference_ok hdiff, Nat.dist_comm]
    exact bind_ok.mpr ⟨NICR, hNICR, rfl⟩
  exact approxHintLoop_nearest (nearest_self seed hdistance) h

/-- The calls of a search draw one after another; each of them counts the last vault of the list as
one of its trials. -/
def drawnBy (trials : List ℕ) : ℕ := (trials.map fun numberOfTrials => numberOfTrials - 1).sum

theorem collected_nearest {list : List ℕ} {call : ℕ} {results : List ApproxHint}
    (howners : s.vaultManager.vaultOwners ≠ []) (hnearest : Nearest CR s hint seen)
    (hlast : getLast s.sortedVaults ∈ seen)
    (h : collectApproxHints keccak256 CR (fun _ => s) list call seed = .ok results) :
    Nearest CR s (results.foldl closer hint)
      (seen ++ drawn keccak256 s.vaultManager.vaultOwners (drawnBy list) seed) := by
  induction list generalizing call seed hint seen results with
  | nil =>
    rw [← pure_ok.mp h]
    have hnone : drawn keccak256 s.vaultManager.vaultOwners (drawnBy []) seed = [] := rfl
    rw [hnone, List.append_nil]
    exact hnearest
  | cons numberOfTrials list ih =>
    obtain ⟨result, hresult, h⟩ := bind_ok.mp h
    obtain ⟨results, hresults, h⟩ := bind_ok.mp h
    obtain ⟨hfound, hseed⟩ := getApproxHint_nearest howners hresult
    have hcloser : Nearest CR s (closer hint result) (seen ++
        drawn keccak256 s.vaultManager.vaultOwners (numberOfTrials - 1) seed) := by
      unfold closer
      split_ifs with hlt
      · apply (hfound.merge hnearest hlt.le).subset
        · apply List.append_subset.mpr ⟨List.subset_append_right _ _, _⟩
          apply List.Subset.trans (List.subset_cons_self _ _) (List.subset_append_left _ _)
        · apply List.append_subset.mpr ⟨_, List.subset_append_left _ _⟩
          exact List.cons_subset.mpr
            ⟨List.mem_append_left _ hlast, List.subset_append_right _ _⟩
      · apply (hnearest.merge hfound (Nat.le_of_not_lt hlt)).subset
        · apply List.append_subset.mpr ⟨List.subset_append_left _ _, _⟩
          apply List.Subset.trans (List.subset_cons_self _ _) (List.subset_append_right _ _)
        · apply List.append_subset.mpr ⟨List.subset_append_left _ _, _⟩
          exact List.cons_subset.mpr
            ⟨List.mem_append_left _ hlast, List.subset_append_right _ _⟩
    have hrest := ih hcloser (List.mem_append_left _ hlast) hresults
    rw [← pure_ok.mp h, List.foldl_cons, drawnBy, List.map_cons, List.sum_cons, drawn_add,
      ← hseed, ← List.append_assoc]
    exact hrest

theorem findApproxHint_nearest {list : List ℕ} (howners : s.vaultManager.vaultOwners ≠ [])
    (h : findApproxHint keccak256 CR (fun _ => s) list randomInteger = .ok hint) :
    Nearest CR s hint (getLast s.sortedVaults ::
      drawn keccak256 s.vaultManager.vaultOwners (drawnBy list) randomInteger) := by
  cases list with
  | nil =>
    obtain ⟨results, hresults, hclosest⟩ := bind_ok.mp h
    rw [← pure_ok.mp hresults] at hclosest
    exact absurd hclosest (by simp [closest])
  | cons numberOfTrials list =>
    obtain ⟨results, hresults, hclosest⟩ := bind_ok.mp h
    obtain ⟨result, hresult, hresults⟩ := bind_ok.mp hresults
    obtain ⟨rest, hrest, hresults⟩ := bind_ok.mp hresults
    obtain ⟨hfound, hseed⟩ := getApproxHint_nearest howners hresult
    have hnearest := collected_nearest howners hfound List.mem_cons_self hrest
    rw [← pure_ok.mp hresults] at hclosest
    rw [← pure_ok.mp hclosest, drawnBy, List.map_cons, List.sum_cons, drawn_add, ← hseed]
    exact hnearest

/-- The trials are split into as few calls as possible, and none is lost. -/
theorem generateTrialsLoop_spec {fuel total : ℕ} (hfuel : total ≤ fuel) :
    (generateTrialsLoop fuel total).length =
        (total + (maxNumberOfTrialsAtOnce - 1)) / maxNumberOfTrialsAtOnce ∧
      drawnBy (generateTrialsLoop fuel total) + (generateTrialsLoop fuel total).length = total := by
  induction fuel generalizing total with
  | zero =>
    obtain rfl : total = 0 := Nat.le_zero.mp hfuel
    exact ⟨rfl, rfl⟩
  | succ fuel ih =>
    rw [generateTrialsLoop]
    split_ifs with hzero
    · subst hzero
      exact ⟨rfl, rfl⟩
    · unfold maxNumberOfTrialsAtOnce at ih ⊢
      have hle : total - min total 2500 ≤ fuel := by
        omega
      obtain ⟨hlength, hdrawn⟩ := ih hle
      have hhead (list : List ℕ) :
          drawnBy (min total 2500 :: list) = min total 2500 - 1 + drawnBy list := rfl
      rw [List.length_cons, hlength, hhead]
      rw [hlength] at hdrawn
      constructor
      · omega
      · omega

/-- The calls that a number of trials takes. -/
def numberOfCalls (totalNumberOfTrials : ℕ) : ℕ :=
  (totalNumberOfTrials + (maxNumberOfTrialsAtOnce - 1)) / maxNumberOfTrialsAtOnce

/-- Where no block comes in between, the search starts from an open vault that is at least as near
as the last one of the list and every one that was drawn. One call that draws as often would have
come as near. -/
theorem hint_nearest {total : ℕ} {list : List ℕ} (hs : Reachable d s)
    (howners : s.vaultManager.vaultOwners ≠ []) (hlist : generateTrials total = .ok list)
    (h : findApproxHint keccak256 CR (fun _ => s) list randomInteger = .ok hint) :
    hint.hintAddress ∈ s.vaultManager.vaultOwners ∧
      distance CR s hint.hintAddress = .ok hint.diff ∧
      IsLeast {v | ∃ a ∈ getLast s.sortedVaults :: drawn keccak256 s.vaultManager.vaultOwners
        (total - numberOfCalls total) randomInteger, distance CR s a = .ok v} hint.diff ∧
      ∀ one,
        getApproxHint keccak256 CR (total - numberOfCalls total + 1) randomInteger s = .ok one →
        one.diff = hint.diff := by
  obtain ⟨_, -, hlist⟩ := bind_ok.mp hlist
  have hnearest := findApproxHint_nearest howners h
  obtain ⟨hlength, hdrawn⟩ := generateTrialsLoop_spec (le_refl total)
  have htotal : drawnBy list = total - numberOfCalls total := by
    rw [← pure_ok.mp hlist, numberOfCalls, ← hlength]
    omega
  rw [htotal] at hnearest
  obtain ⟨zs, hzs⟩ := hs.registry
  have hlast : getLast s.sortedVaults ∈ s.vaultManager.vaultOwners := by
    apply (hzs.owners _).mpr
    apply hzs.linked.represents.tail_mem
    rintro rfl
    exact howners (List.length_eq_zero_iff.mp hzs.length_eq)
  have hleast {hint : ApproxHint} (hnearest : Nearest CR s hint (getLast s.sortedVaults ::
      drawn keccak256 s.vaultManager.vaultOwners (total - numberOfCalls total) randomInteger)) :
      IsLeast {v | ∃ a ∈ getLast s.sortedVaults :: drawn keccak256 s.vaultManager.vaultOwners
        (total - numberOfCalls total) randomInteger, distance CR s a = .ok v} hint.diff := by
    refine ⟨⟨_, hnearest.mem, hnearest.diff⟩, ?_⟩
    rintro v ⟨a, ha, hv⟩
    obtain ⟨v', hv', hle⟩ := hnearest.le a ha
    rw [Except.ok.inj (hv.symm.trans hv')]
    exact hle
  refine ⟨?_, hnearest.diff, hleast hnearest, ?_⟩
  · rcases List.mem_cons.mp hnearest.mem with haddress | haddress
    · rw [haddress]
      exact hlast
    · exact drawn_subset howners _ _ haddress
  · intro one hone
    obtain ⟨hfound, -⟩ := getApproxHint_nearest howners hone
    exact (hleast hfound).unique (hleast hnearest)

def twoVaults : List Transaction :=
  [⟨testBlock 60000, 100, 5 * 10 ^ 18, .openVault (10 ^ 16) (10000 * 10 ^ 18) 0 0⟩,
    ⟨testBlock 60000, 101, 10 ^ 17, .openVault (10 ^ 16) (2000 * 10 ^ 18) 0 0⟩]

/-- It does not hash well. -/
def testHash (word : ℕ) : ℕ := 3 * word + 1

theorem hint_nearest_drawn : ∃ s hint, Reachable testnet s ∧
    findApproxHint testHash (10 ^ 17) (fun _ => s) [20] 7 = .ok hint ∧
    hint.hintAddress ∈ s.vaultManager.vaultOwners ∧ hint.hintAddress = 100 := by
  obtain ⟨s, hs, -, hcheck⟩ := runs_reachable testnet testGenesis twoVaults
    (fun s => decide (s.vaultManager.vaultOwners ≠ []) && succeeds (fun hint =>
      decide (hint.hintAddress = 100)) (findApproxHint testHash (10 ^ 17) (fun _ => s) [20] 7))
    (by decide +kernel)
  obtain ⟨howners, hcheck⟩ := (Bool.and_eq_true_iff).mp hcheck
  obtain ⟨hint, hfound, haddress⟩ := exists_of_succeeds hcheck
  have hlist : generateTrials 20 = .ok [20] := rfl
  have hnearest := hint_nearest hs (of_decide_eq_true howners) hlist hfound
  exact ⟨s, hint, hs, hfound, hnearest.1, of_decide_eq_true haddress⟩

theorem nominalCollateralRatio_eq (v : Vault) :
    v.nominalCollateralRatio = nominalCR v.collateral v.debt := by
  unfold Vault.nominalCollateralRatio mulDiv nominalCR
  by_cases hdebt : v.debt = 0
  · rw [if_pos hdebt, if_neg (by simp [hdebt])]
    rfl
  · rw [if_neg hdebt, if_pos (Nat.pos_of_ne_zero hdebt)]
    rfl

theorem nominalICR_le (hs : Reachable d s) (a : Address) : s.book.nominalICR a ≤ INFINITY := by
  unfold Book.nominalICR nominalCR
  split_ifs
  · apply (Nat.div_le_self _ _).trans
    apply Nat.le_sub_one_of_lt
    calc s.book.entireColl a * NICR_PRECISION < 2 ^ 129 * NICR_PRECISION :=
          Nat.mul_lt_mul_of_pos_right (entireColl_lt hs a) (by decide)
      _ < 2 ^ 256 := by decide
  · exact le_rfl

/-- Whatever blocks come in between the calls, the search ends at two neighbours whose ratios in
the last block it has seen enclose the one that it looked for. -/
theorem found_between {ratio : Decimal} (hs : Reachable d s)
    (hlast : latest (lastCall trials latest ratio) = s)
    (hfound : findHintsForNominalCollateralRatio keccak256 trials randomInteger latest ratio =
      .ok (upperHint, lowerHint)) (hxs : s.book.Registry xs) :
    Between s.book.nominalICR ratio xs upperHint lowerHint := by
  obtain ⟨numberOfVaults, hnumber, hfound⟩ := bind_ok.mp hfound
  obtain ⟨_, -, hnumber⟩ := bind_ok.mp hnumber
  have hnumber := pure_ok.mp hnumber
  unfold lastCall at hlast
  rw [hnumber] at hlast
  by_cases hnone : numberOfVaults = 0
  · rw [if_pos hnone] at hfound hlast
    obtain ⟨rfl, rfl⟩ := Prod.mk.inj (pure_ok.mp hfound)
    have hempty : xs = [] := by
      rw [hlast] at hnumber
      exact List.length_eq_zero_iff.mp (hxs.length_eq.symm.trans (hnumber.trans hnone))
    rw [hempty]
    exact ⟨[], [], rfl, rfl, rfl, fun hne => absurd rfl hne, fun hne => absurd rfl hne⟩
  · rw [if_neg hnone] at hfound hlast
    by_cases hinfinite : ratio = INFINITY
    · rw [if_pos hinfinite] at hfound hlast
      obtain ⟨rfl, rfl⟩ := Prod.mk.inj (pure_ok.mp hfound)
      rw [hlast, hinfinite]
      have hhead : s.sortedVaults.head = xs.headD 0 := hxs.linked.represents.head_eq
      refine ⟨[], xs, rfl, rfl, hhead, fun hne => absurd rfl hne, fun _ => ?_⟩
      exact ⟨_, rfl, nominalICR_le hs _⟩
    · rw [if_neg hinfinite] at hfound hlast
      obtain ⟨list, hlist, hfound⟩ := bind_ok.mp hfound
      obtain ⟨hint, -, hfound⟩ := bind_ok.mp hfound
      obtain ⟨_, -, hlist⟩ := bind_ok.mp hlist
      rw [pure_ok.mp hlist] at hlast
      rw [hlast] at hfound
      apply (findInsertPosition_sound hxs.linked hfound).between
      intro u _ r hr
      exact getNominalICR_ok hr

/-- The hints of a transaction of a borrower. -/
def hintsOf : Operation → Option (Address × Address)
  | .openVault _ _ upperHint lowerHint | .addColl upperHint lowerHint
  | .withdrawColl _ upperHint lowerHint | .withdrawBPD _ _ upperHint lowerHint
  | .repayBPD _ upperHint lowerHint | .withdrawRBTCGainToVault upperHint lowerHint =>
    some (upperHint, lowerHint)
  | .adjustVault a => some (a.upperHint, a.lowerHint)
  | _ => none

theorem hintsOf_cases (h : hintsOf t.operation = some (upperHint, lowerHint)) :
    t.operation.Adjusts ∨ ∃ maxFee amount,
      t.operation = .openVault maxFee amount upperHint lowerHint := by
  cases hop : t.operation with
  | openVault maxFee amount upper lower =>
    rw [hop] at h
    obtain ⟨rfl, rfl⟩ := Prod.mk.inj (Option.some.inj h)
    exact .inr ⟨maxFee, amount, rfl⟩
  | addColl => exact .inl trivial
  | withdrawColl => exact .inl trivial
  | withdrawBPD => exact .inl trivial
  | repayBPD => exact .inl trivial
  | adjustVault => exact .inl trivial
  | withdrawRBTCGainToVault => exact .inl trivial
  | _ =>
    rw [hop] at h
    exact absurd h (by simp [hintsOf])

theorem adjustment_hints {value : ℕ} {adj : Adjustment} {s₁ : State}
    (h : hintsOf t.operation = some (upperHint, lowerHint))
    (hadj : t.adjustment d s = .ok (value, adj, s₁)) :
    adj.upperHint = upperHint ∧ adj.lowerHint = lowerHint := by
  unfold Transaction.adjustment at hadj
  cases hop : t.operation with
  | addColl =>
    rw [hop] at h hadj
    obtain ⟨_, -, hadj⟩ := bind_ok.mp hadj
    obtain ⟨rfl, rfl⟩ := Prod.mk.inj (Option.some.inj h)
    rw [← (Prod.mk.inj (Prod.mk.inj (pure_ok.mp hadj)).2).1]
    exact ⟨rfl, rfl⟩
  | adjustVault a =>
    rw [hop] at h hadj
    obtain ⟨_, -, hadj⟩ := bind_ok.mp hadj
    obtain ⟨rfl, rfl⟩ := Prod.mk.inj (Option.some.inj h)
    rw [← (Prod.mk.inj (Prod.mk.inj (pure_ok.mp hadj)).2).1]
    exact ⟨rfl, rfl⟩
  | withdrawRBTCGainToVault =>
    rw [hop] at h hadj
    obtain ⟨_, -, hadj⟩ := bind_ok.mp hadj
    obtain ⟨rfl, rfl⟩ := Prod.mk.inj (Option.some.inj h)
    rw [← (Prod.mk.inj (Prod.mk.inj (pure_ok.mp hadj)).2).1]
    exact ⟨rfl, rfl⟩
  | withdrawColl =>
    rw [hop] at h hadj
    obtain ⟨rfl, rfl⟩ := Prod.mk.inj (Option.some.inj h)
    rw [← (Prod.mk.inj (Prod.mk.inj (pure_ok.mp hadj)).2).1]
    exact ⟨rfl, rfl⟩
  | withdrawBPD =>
    rw [hop] at h hadj
    obtain ⟨rfl, rfl⟩ := Prod.mk.inj (Option.some.inj h)
    rw [← (Prod.mk.inj (Prod.mk.inj (pure_ok.mp hadj)).2).1]
    exact ⟨rfl, rfl⟩
  | repayBPD =>
    rw [hop] at h hadj
    obtain ⟨rfl, rfl⟩ := Prod.mk.inj (Option.some.inj h)
    rw [← (Prod.mk.inj (Prod.mk.inj (pure_ok.mp hadj)).2).1]
    exact ⟨rfl, rfl⟩
  | _ =>
    rw [hop] at hadj
    exact absurd hadj (by simp)

/-- The hints that the SDK has found for a vault are where the contracts put it, as long as they
find it with the collateral and the debt that the SDK expects and no block comes in between; the
owner's own vault is no hint, as it is taken out first. -/
theorem hints_taken (hs : Reachable d s)
    (hlast : latest (lastCall trials latest vault.nominalCollateralRatio) = s)
    (hfound : findHints keccak256 trials randomInteger latest vault = .ok (upperHint, lowerHint))
    (hsigned : t.Signed d) (hhints : hintsOf t.operation = some (upperHint, lowerHint))
    (hupper : upperHint ≠ t.sender) (hlower : lowerHint ≠ t.sender)
    (h : transact d t s = .ok s') (hrecorded : recordedVault t.sender s' = vault) :
    ∃ xs, Linked s.sortedVaults xs ∧
      PutBetween t.sender upperHint lowerHint (xs.erase t.sender) s'.sortedVaults := by
  obtain ⟨xs, hxs⟩ := hs.registry
  refine ⟨xs, hxs.linked, ?_⟩
  have hbetween := found_between hs hlast hfound hxs
  rw [nominalCollateralRatio_eq, ← hrecorded] at hbetween
  have hknown {read : Address → Outcome ℕ} (hreads : s.book.Reads t.sender read) :
      Known s.book.nominalICR read (xs.erase t.sender) := by
    intro u hu r hr
    apply hreads u r _ hr
    rintro rfl
    exact hxs.linked.nodup.not_mem_erase hu
  rcases hintsOf_cases hhints with hadjusts | ⟨maxFee, amount, hopens⟩
  · obtain ⟨value, adj, s₁, sender, hadj, hsame, -, hdefault, h⟩ :=
      transact_adjustment hsigned hadjusts h
    obtain ⟨rfl, rfl⟩ := adjustment_hints hhints hadj
    obtain ⟨coll, debt, data, read, rfl, rfl, rfl, hreads, hinsert⟩ :=
      adjustVaultInternal_reInserts hdefault h
    have hsorted : s₁.sortedVaults = s.sortedVaults := congrArg Book.sortedVaults hsame.book
    rw [hsame.book] at hreads
    rw [hsorted] at hinsert
    exact reInsert_between hxs.linked hbetween hupper hlower (hknown hreads) hinsert
  · have hpayable : ∃ s₁, transferRBTC t.sender d.borrowerOperations t.value s = .ok s₁ ∧
        openVault d t.block t.sender t.value maxFee amount upperHint lowerHint s₁ = .ok s' := by
      rw [transact, hopens] at h
      exact bind_ok.mp h
    obtain ⟨s₁, hsend, h⟩ := hpayable
    have hsame : s₁.book = s.book := transferRBTC_book hsend
    obtain ⟨debt, data, read, hbook, hreads, hinsert⟩ :=
      openVault_inserts h (hsame ▸ hs.balanced.owners_lt hxs)
    have hsorted : s₁.sortedVaults = s.sortedVaults := congrArg Book.sortedVaults hsame
    rw [hsame] at hbook hreads
    rw [hsorted] at hinsert
    have hnew : t.sender ∉ xs := (insert_sound hxs.linked hinsert).1
    obtain ⟨hcoll, hdebt, -⟩ := hxs.inactive t.sender hnew
    have hvault : s'.vault t.sender = s'.book.vaults t.sender := rfl
    have hratio : nominalCR (recordedVault t.sender s').collateral
        (recordedVault t.sender s').debt = nominalCR t.value debt := by
      rw [recordedVault, hvault, hbook]
      simp [Book.opened, hcoll, hdebt]
    have hdata : s'.sortedVaults = data := congrArg Book.sortedVaults hbook
    rw [hratio] at hbetween
    rw [hdata]
    have herase := List.erase_of_not_mem hnew
    have hknown' := hknown hreads
    rw [herase] at hknown' ⊢
    exact insert_between hxs.linked hbetween hknown' hinsert

/-- Opens a vault with hints. -/
def opensHinted : Transaction :=
  ⟨testBlock 60000, 102, 5 * 10 ^ 17, .openVault (10 ^ 16) (2000 * 10 ^ 18) 100 101⟩

theorem hints_taken_opened : ∃ s s' xs, Reachable testnet s ∧
    transact testnet opensHinted s = .ok s' ∧ Linked s.sortedVaults xs ∧
    PutBetween 102 100 101 (xs.erase 102) s'.sortedVaults := by
  obtain ⟨s, s', hs, h, hcheck⟩ := runsThen_reachable testnet testGenesis twoVaults opensHinted
    (fun s s' => succeeds (fun hints => decide (hints = (100, 101)))
      (findHints testHash (fun n => 10 * n) 7 (fun _ => s) (recordedVault 102 s')))
    (by decide +kernel)
  obtain ⟨hints, hfound, hcheck⟩ := exists_of_succeeds hcheck
  obtain rfl := of_decide_eq_true hcheck
  obtain ⟨xs, hxs, hput⟩ := hints_taken hs rfl hfound (by decide) rfl (by decide) (by decide) h rfl
  exact ⟨s, s', xs, hs, h, hxs, hput⟩

end MoneyProtocol.Sdk
