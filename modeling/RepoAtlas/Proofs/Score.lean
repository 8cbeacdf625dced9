import RepoAtlas.Proofs.Number.Arithmetic
import RepoAtlas.Proofs.Outcome
import RepoAtlas.Score

/-!
# `RepoAtlas.Proofs.Score`: scores of any counters

Scores are computed in binary64 arithmetic, where every step rounds and a step out of range fails.
What comes of it is settled for all counters:

* `coverage_of_le_shareLimit`, `coverage_of_shareLimit_lt`, `coverage_of_roundingLimit_le`: how many
  tests for each file have a coverage, and how the computation fails for more.
* `health_eq`, `health_of_roundingLimit_le`: the same for markers of debt and external packages. The
  integers that the computation converts must be below the rounding limit.
* `health_eq_exactHealth`: a health is the one of exact arithmetic (`exactHealth`), however large
  the counters are. It is lowered by debt and by external packages, and raised by coverage.

The last one needs no bound on errors. While the markers cost a thousand at most, every number in
the computation is half an integer, and nothing is rounded. From there on only the order is used:
rounding keeps it, so the sum stays far below the least health, to which both results are lifted.
-/

set_option autoImplicit false

namespace RepoAtlas.Score

open RepoAtlas.Number
open RepoAtlas.Number.Binary64

/-! ### Within bounds -/

/-- What is clamped is not below the lower bound. -/
theorem le_clamp (low high n : Int) : low ≤ clamp low high n :=
  le_max_left _ _

/-- Nor above the upper one, if that is above the lower. -/
theorem clamp_le {low high : Int} (h : low ≤ high) (n : Int) : clamp low high n ≤ high :=
  max_le h (min_le_left _ _)

/-- What is not above the lower bound is clamped to it. -/
theorem clamp_of_le {low high n : Int} (h : n ≤ low) : clamp low high n = low :=
  max_eq_left ((min_le_right _ _).trans h)

/-- A coverage is a percentage. -/
theorem coverage_mem {files tests n : Int} (h : coverage files tests = .ok n) : 0 ≤ n ∧ n ≤ 100 := by
  unfold coverage at h
  split at h
  · cases h
    decide
  · obtain ⟨share, -, h⟩ := bind_eq_ok_iff.mp h
    obtain ⟨percent, -, h⟩ := bind_eq_ok_iff.mp h
    cases h
    exact ⟨le_clamp 0 100 percent, clamp_le (by decide) percent⟩

/-- A health lies between its floor and its ceiling. -/
theorem health_mem {debt externals coverage n : Int} (h : health debt externals coverage = .ok n) :
    20 ≤ n ∧ n ≤ 100 := by
  obtain ⟨missing, -, h⟩ := bind_eq_ok_iff.mp h
  obtain ⟨reliance, -, h⟩ := bind_eq_ok_iff.mp h
  obtain ⟨markers, -, h⟩ := bind_eq_ok_iff.mp h
  obtain ⟨points, -, h⟩ := bind_eq_ok_iff.mp h
  cases h
  exact ⟨le_clamp 20 100 points, clamp_le (by decide) points⟩

/-! ### Coverage -/

/-- The greatest number of tests for each file that still has a coverage. -/
def shareLimit : Rat := 11529215046068469 * 2 ^ (964 : Int)

/-- The share that is rounded last, one quantum below the first whose percentage overflows. -/
theorem shareLimit_eq : shareLimit = ((5764607523034234 : Nat) + 1 / 2) * 2 ^ (965 : Int) := by
  have hquantum : (2 : Rat) ^ (965 : Int) = 2 * 2 ^ (964 : Int) := by
    rw [← zpow_one_add₀ two_ne_zero]
    rfl
  unfold shareLimit
  rw [hquantum]
  generalize (2 : Rat) ^ (964 : Int) = quantum
  push_cast
  ring

/-- The rounding limit in quanta of the binade where percentages overflow. -/
theorem roundingLimit_eq_percent : roundingLimit = (2 ^ 59 - 2 ^ 5) * 2 ^ (965 : Int) := by
  have htop : (2 : Rat) ^ (1024 : Int) = 2 ^ 59 * 2 ^ (965 : Int) := by
    rw [← zpow_ofNat, ← zpow_add₀ two_ne_zero]
    rfl
  have hstep : (2 : Rat) ^ (970 : Int) = 2 ^ 5 * 2 ^ (965 : Int) := by
    rw [← zpow_ofNat, ← zpow_add₀ two_ne_zero]
    rfl
  unfold roundingLimit
  rw [htop, hstep, sub_mul]

/-- The greatest share is finite, so percentages overflow before shares do. -/
theorem shareLimit_lt_roundingLimit : shareLimit < roundingLimit := by
  rw [shareLimit_eq, roundingLimit_eq_percent]
  exact mul_lt_mul_of_pos_right (by norm_num) (zpow_pos two_pos _)

/-- Which shares have a percentage below the rounding limit. -/
theorem mul_hundred_lt_iff {r : Rat} (hr : Representable r) :
    r * 100 < roundingLimit ↔ r ≤ (5764607523034234 : Nat) * 2 ^ (965 : Int) := by
  have hquantum : (0 : Rat) < 2 ^ (965 : Int) := zpow_pos two_pos _
  rw [roundingLimit_eq_percent]
  -- In quanta of the binade where percentages overflow, both sides compare integers.
  rcases hr.multiple_or_lt 965 with ⟨k, rfl⟩ | ⟨-, hlt⟩
  · have hlimit : (2 ^ 59 - 2 ^ 5 : Rat) = (576460752303423456 : Nat) := by norm_num
    rw [hlimit, mul_right_comm, mul_lt_mul_iff_left₀ hquantum, mul_le_mul_iff_left₀ hquantum]
    rw [← Nat.cast_ofNat, ← Nat.cast_mul, Nat.cast_lt, Nat.cast_le]
    omega
  · rw [two_zpow_add 965 52] at hlt
    generalize (2 : Rat) ^ (965 : Int) = quantum at hquantum hlt ⊢
    norm_num at hlt ⊢
    refine iff_of_true ?_ ?_ <;> linarith

/-- One test for each file is far below the limit. -/
theorem one_le_shareLimit : 1 ≤ shareLimit := by
  have hpower : (1 : Rat) ≤ 2 ^ (964 : Int) := one_le_zpow₀ one_le_two (by decide)
  exact one_le_mul_of_one_le_of_one_le (by norm_num) hpower

/-- The share is rounded first, then its percentage is compared with the limit. -/
theorem rounded_mul_hundred_lt_iff {share : Rat} (h : 0 ≤ share) :
    rounded share * 100 < roundingLimit ↔ share ≤ shareLimit := by
  rcases h.eq_or_lt with rfl | hpos
  · rw [rounded_of_nonneg le_rfl, roundMagnitude_zero, zero_mul]
    exact iff_of_true roundingLimit_pos (zero_le_one.trans one_le_shareLimit)
  · -- The last share that is rounded down to the greatest allowed one lies half a quantum above it.
    rw [rounded_of_nonneg h, mul_hundred_lt_iff (representable_roundMagnitude hpos),
      roundMagnitude_le_iff (by norm_num) (by norm_num) (by norm_num) hpos, if_pos (by norm_num),
      shareLimit_eq]

/-- The sum with one half has a floor, as no finite number and one half overflow. -/
theorem roundHalfUp_of_standsFor {x : Binary64} {v : Rat} (hx : StandsFor x v) (hv : |v| ≤ greatest) :
    roundHalfUp x = .ok ⌊rounded (v + 1 / 2)⌋ := by
  have hhalf : StandsFor half (1 / 2) := standsFor_of_nonneg (by norm_num)
  have hsum : |v + 1 / 2| < roundingLimit := by
    refine (abs_add_le v (1 / 2)).trans_lt ?_
    rw [abs_of_pos (by norm_num : (0 : Rat) < 1 / 2)]
    exact (add_le_add_left hv _).trans_lt (add_lt_roundingLimit (lt_two_zpow (by norm_num)))
  exact (hx.add hhalf hsum).floor

section Shares

variable {files tests : Int}

/-- Shares of counters are not negative. -/
theorem share_nonneg (hfiles : 0 < files) (htests : 0 ≤ tests) : 0 ≤ (tests : Rat) / files :=
  div_nonneg (by exact_mod_cast htests) (by exact_mod_cast hfiles.le)

/-- A coverage is the percentage of the rounded share, if that is finite. -/
theorem coverage_of_lt (hfiles : 0 < files) (htests : 0 ≤ tests)
    (h : (tests : Rat) / files < roundingLimit) :
    coverage files tests = do
      let percent ← roundHalfUp
        ((Binary64.finite false (rounded ((tests : Rat) / files))).mul (.finite false 100))
      return clamp 0 100 percent := by
  have hnonneg := share_nonneg hfiles htests
  unfold coverage
  rw [if_neg (not_le.mpr hfiles), quotient_of_lt (by rwa [abs_of_nonneg hnonneg]), ok_bind,
    ofRat_of_nonneg hnonneg h]

/-- The percentage of a share that binary64 holds, rounded half up. -/
def percentOf (held : Rat) : Int :=
  ⌊rounded (rounded (held * 100) + 1 / 2)⌋

/-- A share up to the limit is rounded, and its percentage is the coverage. -/
theorem coverage_eq (hfiles : 0 < files) (htests : 0 ≤ tests)
    (h : (tests : Rat) / files ≤ shareLimit) :
    coverage files tests = .ok (clamp 0 100 (percentOf (rounded ((tests : Rat) / files)))) := by
  have hnonneg := share_nonneg hfiles htests
  have hsmall := (rounded_mul_hundred_lt_iff hnonneg).mpr h
  have hproduct := mul_nonneg (rounded_nonneg hnonneg) (by norm_num : (0 : Rat) ≤ 100)
  -- The share, its percentage and the sum with one half are all finite.
  rw [coverage_of_lt hfiles htests (h.trans_lt shareLimit_lt_roundingLimit),
    mul_of_lt (rounded_nonneg hnonneg) (by norm_num) hsmall,
    roundHalfUp_of_standsFor (standsFor_of_nonneg (rounded_nonneg hproduct))
      (abs_rounded_le (by rwa [abs_of_nonneg hproduct]))]
  rfl

/-- Such a share has a coverage. -/
theorem coverage_of_le_shareLimit (hfiles : 0 < files) (htests : 0 ≤ tests)
    (h : (tests : Rat) / files ≤ shareLimit) : ∃ n, coverage files tests = .ok n :=
  ⟨_, coverage_eq hfiles htests h⟩

/-- Beyond it, the percentage is infinite although the share is not. -/
theorem coverage_of_shareLimit_lt (hfiles : 0 < files) (htests : 0 ≤ tests)
    (hmore : shareLimit < (tests : Rat) / files) (h : (tests : Rat) / files < roundingLimit) :
    coverage files tests = .error .floorOfInfinity := by
  have hlarge := mt (rounded_mul_hundred_lt_iff (share_nonneg hfiles htests)).mp (not_le.mpr hmore)
  rw [coverage_of_lt hfiles htests h, mul_of_le (not_lt.mp hlarge)]
  rfl

/-- Later on, the share has no value itself. -/
theorem coverage_of_roundingLimit_le (hfiles : 0 < files)
    (h : roundingLimit ≤ (tests : Rat) / files) :
    coverage files tests = .error .quotientTooLarge := by
  unfold coverage
  rw [if_neg (not_le.mpr hfiles), quotient_of_le (h.trans (le_abs_self _))]
  rfl

/-- Files that include the tests among them have a coverage. -/
theorem exists_coverage (htests : 0 ≤ tests) (hle : tests ≤ files) :
    ∃ n, coverage files tests = .ok n := by
  rcases (htests.trans hle).eq_or_lt with rfl | hfiles
  · exact ⟨0, rfl⟩
  · refine coverage_of_le_shareLimit hfiles htests ?_
    have hshare : (tests : Rat) / files ≤ 1 := by
      rw [div_le_one (by exact_mod_cast hfiles)]
      exact_mod_cast hle
    exact hshare.trans one_le_shareLimit

end Shares

/-! ### Costs -/

/-- What missing coverage costs, exactly. -/
def exactCoverageCost (coverage : Int) : Rat :=
  max 0 ((50 - coverage) / 2)

/-- What external packages cost, exactly. -/
def exactExternalCost (externals : Int) : Rat :=
  min (3 * externals / 2) 20

/-- The cost of coverage is half an integer. -/
theorem exactCoverageCost_eq (coverage : Int) :
    exactCoverageCost coverage = ((max 0 (50 - coverage) : Int) : Rat) / 2 := by
  unfold exactCoverageCost
  push_cast
  rw [← max_div_div_right (by norm_num : (0 : Rat) ≤ 2), zero_div]

/-- So is the cost of packages, the cap included. -/
theorem exactExternalCost_eq (externals : Int) :
    exactExternalCost externals = ((min (3 * externals) 40 : Int) : Rat) / 2 := by
  unfold exactExternalCost
  push_cast
  rw [← min_div_div_right (by norm_num : (0 : Rat) ≤ 2)]
  norm_num

/-- Packages cost no more than the cap. -/
theorem exactExternalCost_le (externals : Int) : exactExternalCost externals ≤ 20 :=
  min_le_right _ _

/-- Packages never pay. -/
theorem exactExternalCost_nonneg {externals : Int} (h : 0 ≤ externals) :
    0 ≤ exactExternalCost externals := by
  have hcast : (0 : Rat) ≤ externals := by exact_mod_cast h
  exact le_min (by linarith) (by norm_num)

/-- Coverage costs at most half of its target. -/
theorem exactCoverageCost_mem {coverage : Int} (h : 0 ≤ coverage) :
    0 ≤ exactCoverageCost coverage ∧ exactCoverageCost coverage ≤ 25 := by
  have hcast : (0 : Rat) ≤ coverage := by exact_mod_cast h
  exact ⟨le_max_left _ _, max_le (by norm_num) (by linarith)⟩

/-- The cost of missing coverage is computed exactly. -/
theorem coverageCost_eq {coverage : Int} (h : 0 ≤ coverage) :
    coverageCost coverage = .ok (.finite false (exactCoverageCost coverage)) := by
  rw [exactCoverageCost_eq]
  unfold coverageCost coverageTarget
  split
  · next henough =>
    rw [max_eq_left (by omega)]
    norm_num
    rfl
  · next hmissing =>
    rw [max_eq_right (by omega)]
    generalize hcount : 50 - coverage = count
    have hnonneg : (0 : Rat) ≤ count := by exact_mod_cast (by omega : 0 ≤ count)
    -- What is missing is a small whole number, so neither converting nor halving it rounds.
    have hsmall : (count : Rat) ≤ 50 := by exact_mod_cast (by omega : count ≤ 50)
    have hlimit : (count : Rat) < roundingLimit := lt_roundingLimit (hsmall.trans (by norm_num))
    rw [ofInt_of_lt (by rwa [abs_of_nonneg hnonneg]), ok_bind, ofRat_of_nonneg hnonneg hlimit,
      rounded_intCast (by omega)]
    unfold half
    rw [mul_of_lt hnonneg (by norm_num) (by linarith), mul_one_div, rounded_half (by omega)]
    rfl

/-- The cost of external packages is computed exactly, also where the product overflows. -/
theorem externalCost_eq {externals : Int} (h : 0 ≤ externals)
    (hlimit : (externals : Rat) < roundingLimit) :
    externalCost externals = .ok (.finite false (exactExternalCost externals)) := by
  have hnonneg : (0 : Rat) ≤ externals := by exact_mod_cast h
  unfold externalCost externalPenalty externalPenaltyCap
  rw [ofInt_of_lt (by rwa [abs_of_nonneg hnonneg]), ok_bind, ofRat_of_nonneg hnonneg hlimit]
  -- Up to thirteen packages cost less than the cap, from fourteen on they cost more.
  rcases le_or_gt externals 13 with hfew | hmany
  · have hcast : (externals : Rat) ≤ 13 := by exact_mod_cast hfew
    have hcost : (externals : Rat) * (3 / 2) = ((3 * externals : Int) : Rat) / 2 := by
      push_cast
      ring
    have hunder : ¬(20 : Rat) < (externals : Rat) * (3 / 2) := by linarith
    rw [rounded_intCast (by omega), mul_of_lt hnonneg (by norm_num) (lt_roundingLimit (by linarith)),
      hcost, rounded_half (by omega), ← hcost]
    have hexact : exactExternalCost externals = (externals : Rat) * (3 / 2) := by
      rw [exactExternalCost_eq, min_eq_left (by omega), hcost]
    dsimp only
    rw [hexact, lt_finite, decide_eq_false hunder]
    rfl
  · have hexact : exactExternalCost externals = 20 := by
      rw [exactExternalCost_eq, min_eq_right (by omega)]
      norm_num
    have hcast : ((14 : Int) : Rat) ≤ externals := by exact_mod_cast hmany
    have hcount := intCast_le_rounded (by decide) hcast
    push_cast at hcount
    generalize rounded externals = count at hcount ⊢
    rw [hexact]
    -- The product may be infinite, and is more than the cap then as well.
    rcases lt_or_ge (count * (3 / 2)) roundingLimit with hsmall | hlarge
    · have hproduct : ((21 : Int) : Rat) ≤ count * (3 / 2) := by
        push_cast
        linarith
      have hcost := intCast_le_rounded (by decide) hproduct
      push_cast at hcost
      rw [mul_of_lt (by linarith) (by norm_num) hsmall]
      dsimp only
      rw [lt_finite, decide_eq_true (by linarith)]
      rfl
    · rw [mul_of_le hlarge]
      rfl

/-! ### Health -/

/-- The health of exact arithmetic. -/
def exactHealth (debt externals coverage : Int) : Int :=
  max 20 (min 100 ⌊(100 : Rat) - max (0 : Rat) ((50 - coverage) / 2) - 5 * debt
    - min (3 * (externals : Rat) / 2) 20 + 1 / 2⌋)

/-- The health of exact arithmetic, by the costs. -/
theorem exactHealth_eq (debt externals coverage : Int) :
    exactHealth debt externals coverage = clamp 20 100
      ⌊100 - exactCoverageCost coverage - 5 * debt - exactExternalCost externals + 1 / 2⌋ :=
  rfl

/-- More debt, more packages and less coverage never make the health better. -/
theorem exactHealth_anti {debt debt' externals externals' coverage coverage' : Int}
    (hdebt : debt ≤ debt') (hexternals : externals ≤ externals') (hcoverage : coverage' ≤ coverage) :
    exactHealth debt' externals' coverage' ≤ exactHealth debt externals coverage := by
  have hdebt' : (debt : Rat) ≤ debt' := by exact_mod_cast hdebt
  have hexternals' : (externals : Rat) ≤ externals' := by exact_mod_cast hexternals
  have hcoverage' : (coverage' : Rat) ≤ coverage := by exact_mod_cast hcoverage
  unfold exactHealth
  -- Every cost is monotone in its counter, and so are the floor and the bounds.
  gcongr

variable {debt externals coverage : Int}

/-- A health is what the rounded sums come to: first the cost of coverage is taken off, then that of
the markers, then that of the packages. -/
theorem health_eq (hdebt : |((5 * debt : Int) : Rat)| < roundingLimit) (hexternals : 0 ≤ externals)
    (hlimit : (externals : Rat) < roundingLimit) (hcoverage : 0 ≤ coverage) :
    health debt externals coverage = .ok (clamp 20 100
      ⌊rounded (rounded (rounded (100 - exactCoverageCost coverage - rounded (5 * debt : Int))
        - exactExternalCost externals) + 1 / 2)⌋) := by
  obtain ⟨hcost, hcost'⟩ := exactCoverageCost_mem hcoverage
  have hreliance := exactExternalCost_nonneg hexternals
  have hreliance' := exactExternalCost_le externals
  have hmarkers := abs_le.mp (abs_rounded_le hdebt)
  -- No sum leaves the range: after the cost of the markers there is room for a hundred more.
  have hroom : greatest + 100 < roundingLimit := add_lt_roundingLimit (lt_two_zpow (by norm_num))
  -- What the cost of coverage leaves of a hundred is half an integer.
  have hhalf : 100 - exactCoverageCost coverage = ((200 - max 0 (50 - coverage) : Int) : Rat) / 2 := by
    rw [exactCoverageCost_eq]
    push_cast
    ring
  have hkept : rounded (100 - exactCoverageCost coverage) = 100 - exactCoverageCost coverage := by
    rw [hhalf, rounded_half (by omega)]
  have hfirst : |100 - exactCoverageCost coverage| < roundingLimit :=
    lt_roundingLimit (abs_le.mpr ⟨by linarith, by linarith⟩)
  have hsecond : |100 - exactCoverageCost coverage - rounded (5 * debt : Int)| < roundingLimit :=
    (abs_le.mpr ⟨by linarith, by linarith⟩ : _ ≤ greatest + 100).trans_lt hroom
  have hrest := abs_le.mp (abs_rounded_le hsecond)
  have hthird : |rounded (100 - exactCoverageCost coverage - rounded (5 * debt : Int))
      - exactExternalCost externals| < roundingLimit :=
    (abs_le.mpr ⟨by linarith, by linarith⟩ : _ ≤ greatest + 100).trans_lt hroom
  have hvalue := (((standsFor_of_nonneg (by norm_num : (0 : Rat) ≤ 100)).sub
    (standsFor_of_nonneg hcost) hfirst).sub (ofRat_of_lt hdebt) (by rwa [hkept])).sub
    (standsFor_of_nonneg hreliance) (by rwa [hkept])
  rw [hkept] at hvalue
  unfold health debtPenalty healthFloor healthCeiling
  rw [coverageCost_eq hcoverage, ok_bind, externalCost_eq hexternals hlimit, ok_bind, mul_comm debt,
    ofInt_of_lt hdebt, ok_bind]
  dsimp only
  rw [roundHalfUp_of_standsFor hvalue (abs_rounded_le hthird)]
  rfl

/-- Both counters are converted, and either conversion may fail. -/
theorem health_of_roundingLimit_le (hcoverage : 0 ≤ coverage) (hexternals : 0 ≤ externals)
    (h : roundingLimit ≤ |((5 * debt : Int) : Rat)| ∨ roundingLimit ≤ (externals : Rat)) :
    health debt externals coverage = .error .integerTooLarge := by
  unfold health debtPenalty
  rw [coverageCost_eq hcoverage, ok_bind]
  rcases lt_or_ge (externals : Rat) roundingLimit with hfew | hmany
  · have hdebt := h.resolve_right (not_le.mpr hfew)
    rw [externalCost_eq hexternals hfew, ok_bind, mul_comm, ofInt_of_le hdebt]
    rfl
  · unfold externalCost
    rw [ofInt_of_le (hmany.trans (le_abs_self _))]
    rfl

/-- Counters of any file system have a health. -/
theorem exists_health (hdebt : |debt| ≤ 2 ^ 200) (hexternals : 0 ≤ externals)
    (hexternals' : externals ≤ 2 ^ 200) (hcoverage : 0 ≤ coverage) :
    ∃ n, health debt externals coverage = .ok n := by
  have hdebt' : |((5 * debt : Int) : Rat)| ≤ 5 * 2 ^ 200 := by
    rw [← Int.cast_abs, abs_mul]
    exact_mod_cast mul_le_mul_of_nonneg_left hdebt (by decide : (0 : Int) ≤ 5)
  have hcount : (externals : Rat) ≤ 2 ^ 200 := by exact_mod_cast hexternals'
  exact ⟨_, health_eq (lt_roundingLimit (hdebt'.trans (by norm_num))) hexternals
    (lt_roundingLimit (hcount.trans (by norm_num))) hcoverage⟩

/-- Counters that the computation of a health accepts, and a coverage. -/
structure InRange (debt externals coverage : Int) : Prop where
  debt_nonneg : 0 ≤ debt
  debt_finite : (ofInt? (5 * debt)).isSome
  externals_nonneg : 0 ≤ externals
  externals_finite : (ofInt? externals).isSome
  coverage_nonneg : 0 ≤ coverage
  coverage_le : coverage ≤ 100

/-- The cost of the markers converts to a finite value. -/
theorem InRange.debt_lt (h : InRange debt externals coverage) :
    |((5 * debt : Int) : Rat)| < roundingLimit :=
  isSome_ofInt?_iff.mp h.debt_finite

/-- So does the number of packages. -/
theorem InRange.externals_lt (h : InRange debt externals coverage) :
    (externals : Rat) < roundingLimit :=
  (le_abs_self _).trans_lt (isSome_ofInt?_iff.mp h.externals_finite)

/-- While the markers cost a thousand at most, nothing is rounded. -/
theorem health_of_few (h : InRange debt externals coverage) (hfew : 5 * debt ≤ 1000) :
    health debt externals coverage = .ok (exactHealth debt externals coverage) := by
  have hdebt := h.debt_nonneg
  have hexternals := h.externals_nonneg
  have hcoverage := h.coverage_nonneg
  -- All sums are halves of small integers.
  have hmarkers : rounded ((5 * debt : Int) : Rat) = (5 * debt : Int) := rounded_intCast (by omega)
  have hfirst : 100 - exactCoverageCost coverage - (5 * debt : Int)
      = ((200 - max 0 (50 - coverage) - 10 * debt : Int) : Rat) / 2 := by
    rw [exactCoverageCost_eq]
    push_cast
    ring
  have hsecond : 100 - exactCoverageCost coverage - (5 * debt : Int) - exactExternalCost externals
      = ((200 - max 0 (50 - coverage) - 10 * debt - min (3 * externals) 40 : Int) : Rat) / 2 := by
    rw [hfirst, exactExternalCost_eq]
    push_cast
    ring
  have hthird : 100 - exactCoverageCost coverage - (5 * debt : Int) - exactExternalCost externals
      + 1 / 2
      = ((200 - max 0 (50 - coverage) - 10 * debt - min (3 * externals) 40 + 1 : Int) : Rat) / 2 := by
    rw [hsecond]
    push_cast
    ring
  rw [health_eq h.debt_lt hexternals h.externals_lt hcoverage, exactHealth_eq, hmarkers, hfirst,
    rounded_half (by omega), ← hfirst, hsecond, rounded_half (by omega), ← hsecond, hthird,
    rounded_half (by omega), ← hthird]
  push_cast
  rfl

/-- Beyond that, the health is the least one in either arithmetic. -/
theorem health_of_many (h : InRange debt externals coverage) (hmany : 1000 < 5 * debt) :
    health debt externals coverage = .ok (exactHealth debt externals coverage) := by
  have hcost := (exactCoverageCost_mem h.coverage_nonneg).1
  have hreliance := exactExternalCost_nonneg h.externals_nonneg
  have hcast : ((1000 : Int) : Rat) ≤ (5 * debt : Int) := by exact_mod_cast hmany.le
  have hmarkers := intCast_le_rounded (by decide) hcast
  rw [health_eq h.debt_lt h.externals_nonneg h.externals_lt h.coverage_nonneg, exactHealth_eq]
  generalize rounded ((5 * debt : Int) : Rat) = markers at hmarkers ⊢
  push_cast at hcast hmarkers
  -- Each sum stays below an integer that rounding does not cross.
  have hfirst : rounded (100 - exactCoverageCost coverage - markers) ≤ (-900 : Int) :=
    rounded_le_intCast (by decide) (by push_cast; linarith)
  generalize rounded (100 - exactCoverageCost coverage - markers) = first at hfirst ⊢
  have hsecond : rounded (first - exactExternalCost externals) ≤ (-900 : Int) :=
    rounded_le_intCast (by decide) (by linarith)
  generalize rounded (first - exactExternalCost externals) = second at hsecond ⊢
  push_cast at hsecond
  have hthird : rounded (second + 1 / 2) ≤ (-899 : Int) :=
    rounded_le_intCast (by decide) (by push_cast; linarith)
  have hcomputed : ⌊rounded (second + 1 / 2)⌋ ≤ -899 := Int.floor_le_iff.mpr (by
    push_cast at hthird ⊢
    linarith)
  have hexact : ⌊100 - exactCoverageCost coverage - 5 * debt - exactExternalCost externals + 1 / 2⌋
      ≤ -899 := Int.floor_le_iff.mpr (by
    push_cast
    linarith)
  rw [clamp_of_le (hcomputed.trans (by decide)), clamp_of_le (hexact.trans (by decide))]

/-- A health is the one of exact arithmetic, with few markers as with many. -/
theorem health_eq_exact (h : InRange debt externals coverage) :
    health debt externals coverage = .ok (exactHealth debt externals coverage) := by
  rcases le_or_gt (5 * debt) 1000 with hfew | hmany
  · exact health_of_few h hfew
  · exact health_of_many h hmany

/-- A health is the one of exact arithmetic, so it is lowered by debt and by packages, and raised by
coverage. -/
theorem health_eq_exactHealth (h : InRange debt externals coverage) :
    health debt externals coverage = .ok (exactHealth debt externals coverage) ∧
      ∀ {debt' externals' coverage' : Int}, InRange debt' externals' coverage' → debt ≤ debt' →
        externals ≤ externals' → coverage' ≤ coverage →
        ∃ n, health debt' externals' coverage' = .ok n ∧ n ≤ exactHealth debt externals coverage :=
  ⟨health_eq_exact h, fun h' hdebt hexternals hcoverage =>
    ⟨_, health_eq_exact h', exactHealth_anti hdebt hexternals hcoverage⟩⟩

/-- Of counters with three hundred digits and of small ones there is a health, and the order holds
between them. -/
theorem health_eq_exactHealth_huge :
    InRange 1 7 49 ∧ InRange (2 ^ 1000) (2 ^ 1000) 0 ∧ health 1 7 49 = .ok 84 ∧
      ∃ n, health (2 ^ 1000) (2 ^ 1000) 0 = .ok n ∧ n ≤ 84 := by
  have hfew : InRange 1 7 49 := by constructor <;> decide +kernel
  have hmany : InRange (2 ^ 1000) (2 ^ 1000) 0 := by constructor <;> decide +kernel
  have hvalue : exactHealth 1 7 49 = 84 := by decide +kernel
  obtain ⟨hhealth, hanti⟩ := health_eq_exactHealth hfew
  rw [hvalue] at hhealth hanti
  exact ⟨hfew, hmany, hhealth, hanti hmany (by decide +kernel) (by decide +kernel) (by decide)⟩

end RepoAtlas.Score
