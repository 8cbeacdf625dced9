import RepoAtlas.Proofs.Score

/-!
# `RepoAtlas.Proofs.Score.Coverage`: which percentage a share gets

A coverage is the share of tests in percent, rounded half up, after the share itself, its percentage
and the sum with one half have each been rounded to what binary64 holds. The order of shares
survives all of this, the exact percentage does not: in the middle between two percentages (`tie`),
and very near to it, the wrong one may come out.

* `coverage_monotone`: a coverage exists for shares up to a limit and follows their order, from 0
  without tests to 100 with as many tests as files.
* `lt_percentOf_iff`: each percentage starts at a certain share that binary64 holds (`firstAbove`).
  There are a hundred of them. That they are right is settled by running the three roundings on each
  and on its neighbour below; what lies elsewhere follows, as the order is kept.
* `coverage_eq_exactCoverage_iff`: for which shares the coverage is the exact one, and that for all
  others it is one more or one less.
* `coverage_of_few`: with up to `2 ^ 44` files only four shares are affected, each at a tie.
-/

set_option autoImplicit false

namespace RepoAtlas.Score

open RepoAtlas.Number

/-! ### The order of shares -/

/-- The percent of a share grow with it: each operation rounds in a monotone way. -/
theorem percentOf_mono {x y : Rat} (h : x ≤ y) : percentOf x ≤ percentOf y :=
  Int.floor_le_floor (rounded_mono (add_le_add_left
    (rounded_mono (mul_le_mul_of_nonneg_right h (by norm_num))) _))

/-- Keeping a number within bounds is monotone. -/
theorem clamp_mono {low high m n : Int} (h : m ≤ n) : clamp low high m ≤ clamp low high n :=
  max_le_max le_rfl (min_le_min le_rfl h)

/-- A larger share has no smaller percentage. -/
theorem clamp_percentOf_mono {x y : Rat} (h : x ≤ y) :
    clamp 0 100 (percentOf (rounded x)) ≤ clamp 0 100 (percentOf (rounded y)) :=
  clamp_mono (percentOf_mono (rounded_mono h))

section Order

variable {files tests : Int}

/-- Shares up to the limit have a coverage, and no others. -/
theorem exists_coverage_iff (hfiles : 0 ≤ files) (htests : 0 ≤ tests) :
    (∃ n, coverage files tests = .ok n) ↔ files = 0 ∨ (tests : Rat) / files ≤ shareLimit := by
  rcases hfiles.eq_or_lt with rfl | hpos
  · exact iff_of_true ⟨0, rfl⟩ (.inl rfl)
  · rw [or_iff_right hpos.ne']
    refine ⟨fun ⟨n, hn⟩ => ?_, coverage_of_le_shareLimit hpos htests⟩
    by_contra hmore
    -- Beyond the limit the computation fails, in one of two places.
    rcases lt_or_ge ((tests : Rat) / files) roundingLimit with hfinite | hinfinite
    · rw [coverage_of_shareLimit_lt hpos htests (not_le.mp hmore) hfinite] at hn
      cases hn
    · rw [coverage_of_roundingLimit_le hpos hinfinite] at hn
      cases hn

/-- The coverage that there is, by the share. -/
theorem coverage_eq_ok_iff (hfiles : 0 < files) (htests : 0 ≤ tests) {n : Int} :
    coverage files tests = .ok n ↔ (tests : Rat) / files ≤ shareLimit ∧
      n = clamp 0 100 (percentOf (rounded ((tests : Rat) / files))) := by
  constructor
  · intro h
    have hshare := ((exists_coverage_iff hfiles.le htests).mp ⟨n, h⟩).resolve_left hfiles.ne'
    rw [coverage_eq hfiles htests hshare] at h
    exact ⟨hshare, (Except.ok.inj h).symm⟩
  · rintro ⟨hshare, rfl⟩
    exact coverage_eq hfiles htests hshare

/-- A coverage exists for shares up to the limit, and follows their order: more tests never lower
it, more files never raise it. It is 0 without tests, and 100 with as many tests as files. -/
theorem coverage_monotone (hfiles : 0 ≤ files) (htests : 0 ≤ tests) :
    ((∃ n, coverage files tests = .ok n) ↔ files = 0 ∨ (tests : Rat) / files ≤ shareLimit) ∧
      ∀ n, coverage files tests = .ok n →
        (∀ more n', tests ≤ more → coverage files more = .ok n' → n ≤ n') ∧
        (∀ more, 0 < files → files ≤ more → ∃ n', coverage more tests = .ok n' ∧ n' ≤ n) ∧
        (tests = 0 → n = 0) ∧
        (0 < files → files ≤ tests → n = 100) := by
  refine ⟨exists_coverage_iff hfiles htests, fun n hn => ?_⟩
  rcases hfiles.eq_or_lt with rfl | hpos
  · -- Without files, the coverage is 0 for any tests.
    cases hn
    refine ⟨fun more n' _ hn' => ?_, fun _ h => absurd h (lt_irrefl 0), fun _ => rfl,
      fun h => absurd h (lt_irrefl 0)⟩
    cases hn'
    rfl
  · obtain ⟨hshare, rfl⟩ := (coverage_eq_ok_iff hpos htests).mp hn
    have hcast : (0 : Rat) < files := by exact_mod_cast hpos
    refine ⟨fun more n' hmore hn' => ?_, fun more _ hmore => ?_, fun hnone => ?_, fun _ hall => ?_⟩
    · obtain ⟨-, rfl⟩ := (coverage_eq_ok_iff hpos (htests.trans hmore)).mp hn'
      refine clamp_percentOf_mono (div_le_div_of_nonneg_right ?_ hcast.le)
      exact_mod_cast hmore
    · have hless : (tests : Rat) / more ≤ tests / files :=
        div_le_div_of_nonneg_left (by exact_mod_cast htests) hcast (by exact_mod_cast hmore)
      exact ⟨_, coverage_eq (hpos.trans_le hmore) htests (hless.trans hshare),
        clamp_percentOf_mono hless⟩
    · rw [hnone, Int.cast_zero, zero_div]
      decide +kernel
    · -- The share of one has the percentage 100, and larger shares are held within bounds.
      have hone : (1 : Rat) ≤ tests / files := by
        rw [one_le_div hcast]
        exact_mod_cast hall
      have htop : clamp 0 100 (percentOf (rounded 1)) = 100 := by decide +kernel
      exact le_antisymm (clamp_le (by decide) _) (htop.symm.trans_le (clamp_percentOf_mono hone))

/-- A third of a number beyond all that fits a double is still a third. -/
theorem coverage_monotone_huge :
    (0 : Int) ≤ 3 * 2 ^ 1000 ∧ (0 : Int) ≤ 2 ^ 1000 ∧ coverage (3 * 2 ^ 1000) (2 ^ 1000) = .ok 33 ∧
      (∀ more n', 2 ^ 1000 ≤ more → coverage (3 * 2 ^ 1000) more = .ok n' → 33 ≤ n') ∧
      ∀ more, 3 * 2 ^ 1000 ≤ more → ∃ n', coverage more (2 ^ 1000) = .ok n' ∧ n' ≤ 33 := by
  have hfiles : (0 : Int) ≤ 3 * 2 ^ 1000 := by decide +kernel
  have htests : (0 : Int) ≤ 2 ^ 1000 := by decide +kernel
  have hcoverage : coverage (3 * 2 ^ 1000) (2 ^ 1000) = .ok 33 := by decide +kernel
  obtain ⟨hmore, hless, -, -⟩ := (coverage_monotone hfiles htests).2 33 hcoverage
  exact ⟨hfiles, htests, hcoverage, hmore, fun more => hless more (by decide +kernel)⟩

end Order

/-! ### Ties -/

/-- The coverage of exact arithmetic. -/
def exactCoverage (files tests : Int) : Int :=
  ⌊100 * (tests : Rat) / files + 1 / 2⌋

/-- The middle between `k` and `k + 1` percent, from which on the latter is the exact coverage. -/
def tie (k : Nat) : Rat :=
  (2 * k + 1) / 200

/-- The percentages whose tie is held as a share that does not get the next percentage. -/
def lowTies : List Nat := [14, 28, 56, 57]

/-- The percentages where the share that is held just below the tie gets the next one as well. -/
def wideTies : List Nat := [0, 2, 8, 11, 33, 40, 46, 67, 68, 79, 80, 92, 93]

/-- The first share that binary64 holds and that gets more than `k` percent: the one that holds the
tie, except for a few ties. -/
def firstAbove (k : Nat) : Rat :=
  let quantum := 2 ^ quantumExponent (tie k)
  if k ∈ lowTies then rounded (tie k) + quantum
  else if k ∈ wideTies then rounded (tie k) - quantum
  else rounded (tie k)

/-- The exponent of the shares just below a tie. One tie is a power of two, with smaller quanta
below it; no other one has a power of two so near. -/
def exponentBelow (k : Nat) : Int :=
  quantumExponent ((2 * k + 1) / 201)

/-- The last share up to `k` percent, in quanta. -/
def quantaBelow (k : Nat) : Nat :=
  nearest (firstAbove k / 2 ^ exponentBelow k) - 1

/-- Two neighbouring shares of which one gets `k` percent at most, and the other one more. -/
structure Cut (k : Nat) : Prop where
  normal : 2 ^ 52 ≤ quantaBelow k
  next : firstAbove k = (quantaBelow k + 1 : Nat) * 2 ^ exponentBelow k
  percentOf_le : percentOf (quantaBelow k * 2 ^ exponentBelow k) ≤ k
  lt_percentOf : k < percentOf (firstAbove k)

/-- The cut below each percent number, computed for all hundred of them. -/
theorem cut_of_lt {k : Nat} (h : k < 100) : Cut k := by
  have hall : ∀ k < 100, 2 ^ 52 ≤ quantaBelow k ∧
      firstAbove k = (quantaBelow k + 1 : Nat) * 2 ^ exponentBelow k ∧
      percentOf (quantaBelow k * 2 ^ exponentBelow k) ≤ k ∧ k < percentOf (firstAbove k) := by
    decide +kernel
  obtain ⟨hnormal, hnext, hle, hlt⟩ := hall k h
  exact ⟨hnormal, hnext, hle, hlt⟩

/-- Between the two neighbours, nothing is held. -/
theorem Cut.le_of_lt {k : Nat} (h : Cut k) {share : Rat} (hshare : 0 ≤ share)
    (hlt : rounded share < firstAbove k) :
    rounded share ≤ quantaBelow k * 2 ^ exponentBelow k := by
  have hquantum : (0 : Rat) < 2 ^ exponentBelow k := zpow_pos two_pos _
  rcases hshare.eq_or_lt with rfl | hpos
  · rw [rounded_of_nonneg le_rfl, roundMagnitude_zero]
    positivity
  · rw [rounded_of_nonneg hshare] at hlt ⊢
    -- A double is a multiple of the quantum, or is so small that it lies below the cut anyway.
    rcases (representable_roundMagnitude hpos).multiple_or_lt (exponentBelow k) with
      ⟨j, hj⟩ | ⟨-, hsmall⟩
    · rw [hj, h.next, mul_lt_mul_iff_left₀ hquantum, Nat.cast_lt] at hlt
      rw [hj]
      exact mul_le_mul_of_nonneg_right (by exact_mod_cast Nat.le_of_lt_succ hlt) hquantum.le
    · rw [two_zpow_add _ 52] at hsmall
      exact hsmall.le.trans (mul_le_mul_of_nonneg_right (by exact_mod_cast h.normal) hquantum.le)

/-- A share gets more than `k` percent if it is rounded to the first such share or beyond. -/
theorem lt_percentOf_iff {k : Nat} (hk : k < 100) {share : Rat} (hshare : 0 ≤ share) :
    (k : Int) < percentOf (rounded share) ↔ firstAbove k ≤ rounded share := by
  have hcut := cut_of_lt hk
  constructor
  · intro h
    by_contra hbelow
    have hle := percentOf_mono (hcut.le_of_lt hshare (not_le.mp hbelow))
    exact absurd (h.trans_le (hle.trans hcut.percentOf_le)) (lt_irrefl _)
  · exact fun h => hcut.lt_percentOf.trans_le (percentOf_mono h)

/-- The exact coverage is more than `k` from the tie on. -/
theorem lt_exactCoverage_iff {files tests : Int} (k : Nat) :
    (k : Int) < exactCoverage files tests ↔ tie k ≤ (tests : Rat) / files := by
  unfold exactCoverage tie
  rw [← Int.add_one_le_iff, Int.le_floor, mul_div_assoc]
  push_cast
  constructor <;> intro h <;> linarith

/-! ### Exact coverages -/

/-- A share from a tie on that is not told from the tie, where the tie is held as too little. -/
def FallsShort (share : Rat) : Prop :=
  ∃ k ∈ lowTies, tie k ≤ share ∧ rounded share = rounded (tie k)

/-- A share below a tie that is rounded to one that gets the next percentage. -/
def Overshoots (share : Rat) : Prop :=
  ∃ k < 100, share < tie k ∧ firstAbove k ≤ rounded share

/-- A tie that does not fall short rounds up to where the next percent begins. -/
theorem rounded_tie_le {k : Nat} (h : k ∉ lowTies) : firstAbove k ≤ rounded (tie k) := by
  unfold firstAbove
  dsimp only
  rw [if_neg h]
  split
  · exact sub_le_self _ (zpow_pos two_pos _).le
  · exact le_rfl

/-- A tie that falls short stays below. -/
theorem rounded_tie_lt {k : Nat} (h : k ∈ lowTies) : rounded (tie k) < firstAbove k := by
  unfold firstAbove
  dsimp only
  rw [if_pos h]
  exact lt_add_of_pos_right _ (zpow_pos two_pos _)

/-- The first share after a low tie comes right after it. -/
theorem rounded_eq_of_lowTie {k : Nat} (hk : k ∈ lowTies) {share : Rat} (hshare : tie k ≤ share)
    (h : rounded share < firstAbove k) : rounded share = rounded (tie k) := by
  have hall : ∀ k ∈ lowTies, k < 100 ∧ 0 ≤ tie k ∧
      rounded (tie k) = quantaBelow k * 2 ^ exponentBelow k := by
    decide +kernel
  obtain ⟨hlt, htie, hheld⟩ := hall k hk
  refine le_antisymm ?_ (rounded_mono hshare)
  rw [hheld]
  exact (cut_of_lt hlt).le_of_lt (htie.trans hshare) h

/-- The shares of neighbouring ties are far apart. -/
theorem firstAbove_between {k : Nat} (h : k < 99) :
    firstAbove k ≤ rounded (tie (k + 1)) ∧ rounded (tie k) < firstAbove (k + 1) := by
  have hall : ∀ k < 99, firstAbove k ≤ rounded (tie (k + 1)) ∧
      rounded (tie k) < firstAbove (k + 1) := by
    decide +kernel
  exact hall k h

/-- What a share gets and what it should get, told by the percentages that each of them exceeds. -/
structure Settled (share : Rat) (got due : Int) : Prop where
  got_nonneg : 0 ≤ got
  got_le : got ≤ 100
  lt_got_iff : ∀ k : Nat, k < 100 → ((k : Int) < got ↔ firstAbove k ≤ rounded share)
  due_nonneg : 0 ≤ due
  due_le : due ≤ 100
  lt_due_iff : ∀ k : Nat, (k : Int) < due ↔ tie k ≤ share

namespace Settled

variable {share : Rat} {got due : Int}

/-- Too little comes of a low tie that the share has reached. -/
theorem lt_iff_fallsShort (h : Settled share got due) : got < due ↔ FallsShort share := by
  constructor
  · intro hless
    obtain ⟨k, rfl⟩ := Int.eq_ofNat_of_zero_le h.got_nonneg
    have hlt : k < 100 := by
      have hhigh := h.due_le
      omega
    have hreached := (h.lt_due_iff k).mp hless
    have hbelow := mt (h.lt_got_iff k hlt).mpr (lt_irrefl _)
    -- A tie that is reached, but not by the rounded share, is one of the low ones.
    have hlow : k ∈ lowTies := by
      by_contra hlow
      exact hbelow ((rounded_tie_le hlow).trans (rounded_mono hreached))
    exact ⟨k, hlow, hreached, rounded_eq_of_lowTie hlow hreached (not_le.mp hbelow)⟩
  · rintro ⟨k, hlow, hreached, hheld⟩
    -- What rounds like a low tie stays below the cut, though the tie is reached.
    have hlt : ∀ k ∈ lowTies, k < 100 := by decide
    have hbelow := rounded_tie_lt hlow
    rw [← hheld] at hbelow
    exact (not_lt.mp (mt (h.lt_got_iff k (hlt k hlow)).mp (not_le.mpr hbelow))).trans_lt
      ((h.lt_due_iff k).mpr hreached)

/-- Too much comes of a tie that only the rounded share has reached. -/
theorem lt_iff_overshoots (h : Settled share got due) : due < got ↔ Overshoots share := by
  constructor
  · intro hmore
    obtain ⟨k, rfl⟩ := Int.eq_ofNat_of_zero_le h.due_nonneg
    have hlt : k < 100 := by
      have hhigh := h.got_le
      omega
    exact ⟨k, hlt, not_le.mp (mt (h.lt_due_iff k).mpr (lt_irrefl _)),
      (h.lt_got_iff k hlt).mp hmore⟩
  · rintro ⟨k, hlt, hbelow, hheld⟩
    exact (not_lt.mp (mt (h.lt_due_iff k).mp (not_le.mpr hbelow))).trans_lt
      ((h.lt_got_iff k hlt).mpr hheld)

/-- It is never more than one percent, as the next tie is too far away. -/
theorem near (h : Settled share got due) : due ≤ got + 1 ∧ got ≤ due + 1 := by
  constructor
  · by_contra hfar
    obtain ⟨k, rfl⟩ := Int.eq_ofNat_of_zero_le h.got_nonneg
    have hlt : k < 99 := by
      have hhigh := h.due_le
      omega
    -- The next tie is reached, so the cut before it is passed.
    have hreached := (h.lt_due_iff (k + 1)).mp (by push_cast; omega)
    exact lt_irrefl _ ((h.lt_got_iff k (by omega)).mpr
      ((firstAbove_between hlt).1.trans (rounded_mono hreached)))
  · by_contra hfar
    obtain ⟨k, rfl⟩ := Int.eq_ofNat_of_zero_le h.due_nonneg
    have hlt : k < 99 := by
      have hhigh := h.got_le
      omega
    -- The next cut is passed, so the tie before it is reached.
    have hheld := (h.lt_got_iff (k + 1) (by omega)).mp (by push_cast; omega)
    have hbelow := not_le.mp (mt (h.lt_due_iff k).mpr (lt_irrefl _))
    exact absurd (hheld.trans (rounded_mono hbelow.le)) (not_le.mpr (firstAbove_between hlt).2)

end Settled

section Exact

variable {files tests : Int}

/-- The exact coverage is a percent number. -/
theorem exactCoverage_mem (hfiles : 0 < files) (htests : 0 ≤ tests) (hle : tests ≤ files) :
    0 ≤ exactCoverage files tests ∧ exactCoverage files tests ≤ 100 := by
  have hshare := share_nonneg hfiles htests
  have hone : (tests : Rat) / files ≤ 1 := by
    rw [div_le_one (by exact_mod_cast hfiles)]
    exact_mod_cast hle
  unfold exactCoverage
  rw [mul_div_assoc, Int.le_floor, ← Int.lt_add_one_iff, Int.floor_lt]
  push_cast
  constructor <;> linarith

/-- Files with the tests among them have a coverage that is settled by the share. -/
theorem exists_settled (hfiles : 0 < files) (htests : 0 ≤ tests) (hle : tests ≤ files) :
    ∃ n, coverage files tests = .ok n ∧
      Settled ((tests : Rat) / files) n (exactCoverage files tests) := by
  obtain ⟨n, hn⟩ := exists_coverage htests hle
  obtain ⟨hlow, hhigh⟩ := coverage_mem hn
  obtain ⟨hlow', hhigh'⟩ := exactCoverage_mem hfiles htests hle
  obtain ⟨-, rfl⟩ := (coverage_eq_ok_iff hfiles htests).mp hn
  refine ⟨_, hn, hlow, hhigh, fun k hk => ?_, hlow', hhigh', lt_exactCoverage_iff⟩
  rw [← lt_percentOf_iff hk (share_nonneg hfiles htests)]
  unfold clamp
  omega

/-- A coverage is the exact one, unless the share falls short of a tie or overshoots it. Then it is
one less or one more. -/
theorem coverage_eq_exactCoverage_iff (hfiles : 0 < files) (htests : 0 ≤ tests)
    (hle : tests ≤ files) :
    (coverage files tests = .ok (exactCoverage files tests) ↔
      ¬FallsShort (tests / files) ∧ ¬Overshoots (tests / files)) ∧
    (coverage files tests = .ok (exactCoverage files tests - 1) ↔ FallsShort (tests / files)) ∧
    (coverage files tests = .ok (exactCoverage files tests + 1) ↔ Overshoots (tests / files)) := by
  obtain ⟨n, hn, hsettled⟩ := exists_settled hfiles htests hle
  obtain ⟨hless, hmore⟩ := hsettled.near
  rw [hn, ← hsettled.lt_iff_fallsShort, ← hsettled.lt_iff_overshoots]
  simp only [Except.ok.injEq]
  omega

/-- The middle between 14 and 15 percent gets 14, and what lies just below the one between 0 and 1
gets 1. -/
theorem coverage_of_ties :
    coverage 200 29 = .ok 14 ∧ exactCoverage 200 29 = 15 ∧
      coverage (2 * 10 ^ 20) (10 ^ 18 - 1) = .ok 1 ∧
      exactCoverage (2 * 10 ^ 20) (10 ^ 18 - 1) = 0 := by
  decide +kernel

/-- A share of 29 in 200 falls short of its percent. -/
theorem coverage_eq_exactCoverage_iff_tie :
    (0 : Int) < 200 ∧ (0 : Int) ≤ 29 ∧ (29 : Int) ≤ 200 ∧ FallsShort ((29 : Int) / (200 : Int)) ∧
      coverage 200 29 = .ok (exactCoverage 200 29 - 1) := by
  have htie : FallsShort ((29 : Int) / (200 : Int)) := ⟨14, by decide +kernel⟩
  exact ⟨by decide, by decide, by decide, htie,
    (coverage_eq_exactCoverage_iff (by decide) (by decide) (by decide)).2.1.mpr htie⟩

end Exact

/-! ### Few files -/

/-- Rounding moves a share by half a quantum at most. -/
theorem abs_rounded_sub_le {share : Rat} (hshare : 0 ≤ share) (hone : share < 1) :
    |rounded share - share| ≤ 2 ^ (-54 : Int) := by
  rcases hshare.eq_or_lt with rfl | hpos
  · rw [rounded_of_nonneg le_rfl, roundMagnitude_zero, sub_zero, abs_zero]
    exact (zpow_pos two_pos _).le
  · have hquantum : (0 : Rat) < 2 ^ quantumExponent share := zpow_pos two_pos _
    -- A share below one has a quantum of at most two to the minus 53, and rounding moves it by half
    -- a quantum.
    have hexponent : quantumExponent share ≤ -53 := by
      have hlog := (floorLog2_spec hpos).1.trans_lt hone
      rw [← zpow_zero (2 : Rat), zpow_lt_zpow_iff] at hlog
      unfold quantumExponent
      omega
    have hsmall : (2 : Rat) ^ quantumExponent share ≤ 2 * 2 ^ (-54 : Int) :=
      (zpow_le_zpow_iff.mpr hexponent).trans_eq (by norm_num)
    obtain ⟨hbelow, habove⟩ := nearest_near (div_nonneg hshare hquantum.le)
    have hbelow' := mul_le_mul_of_nonneg_right hbelow hquantum.le
    have habove' := mul_le_mul_of_nonneg_right habove hquantum.le
    rw [add_mul, div_mul_cancel₀ share hquantum.ne'] at hbelow' habove'
    rw [rounded_of_nonneg hshare, roundMagnitude_eq, abs_le]
    generalize (2 : Rat) ^ (-54 : Int) = half at hsmall ⊢
    constructor <;> linarith

/-- Each tie and the first share after it are within one quantum of shares up to one. -/
theorem firstAbove_near {k : Nat} (h : k < 100) :
    0 ≤ tie k ∧ tie k < 1 ∧ rounded (tie k) < 1 ∧ tie k - 2 ^ (-53 : Int) ≤ firstAbove k := by
  have hall : ∀ k < 100, 0 ≤ tie k ∧ tie k < 1 ∧ rounded (tie k) < 1 ∧
      tie k - 2 ^ (-53 : Int) ≤ firstAbove k := by
    decide +kernel
  exact hall k h

/-- A share that falls short of a tie or overshoots it is very near to the tie. -/
theorem FallsShort.exists_near {share : Rat} (h : FallsShort share) :
    ∃ k ∈ lowTies, tie k ≤ share ∧ share - tie k < 2 ^ (-52 : Int) := by
  obtain ⟨k, hlow, hreached, hheld⟩ := h
  have hlt : ∀ k ∈ lowTies, k < 100 := by decide
  obtain ⟨htie, htie', hone, -⟩ := firstAbove_near (hlt k hlow)
  -- A share of one or more is not rounded down to a tie.
  have hshare : share < 1 := by
    by_contra hlarge
    have hrounded := rounded_mono (not_lt.mp hlarge)
    have hkept : rounded 1 = 1 := by decide +kernel
    rw [hkept, hheld] at hrounded
    exact absurd hone (not_lt.mpr hrounded)
  -- The share and the tie round to the same double, so both are near to it.
  have hmoved := abs_le.mp (abs_rounded_sub_le (htie.trans hreached) hshare)
  have hmoved' := abs_le.mp (abs_rounded_sub_le htie htie')
  rw [hheld] at hmoved
  refine ⟨k, hlow, hreached, ?_⟩
  norm_num at hmoved hmoved' ⊢
  linarith

/-- A share that overshoots is next to a tie. -/
theorem Overshoots.exists_near {share : Rat} (hshare : 0 ≤ share) (h : Overshoots share) :
    ∃ k, share < tie k ∧ tie k - share < 2 ^ (-52 : Int) := by
  obtain ⟨k, hk, hbelow, hheld⟩ := h
  obtain ⟨-, htie, -, hnear⟩ := firstAbove_near hk
  -- The share and what it rounds to lie on the two sides of the tie.
  have hmoved := abs_le.mp (abs_rounded_sub_le hshare (hbelow.trans htie))
  refine ⟨k, hbelow, ?_⟩
  norm_num at hmoved hnear ⊢
  linarith

section Few

variable {files tests : Int}

/-- The share of a few files is at a tie or far away from it. -/
theorem share_eq_tie_or (hfiles : 0 < files) (hfew : files ≤ 2 ^ 44) (k : Nat) :
    (tests : Rat) / files = tie k ∨ 2 ^ (-52 : Int) ≤ |(tests : Rat) / files - tie k| := by
  have hcast : (0 : Rat) < files := by exact_mod_cast hfiles
  -- The distance is a multiple of the share of half a percent of one file.
  have hdistance : (tests : Rat) / files - tie k
      = ((200 * tests - (2 * k + 1) * files : Int) : Rat) / (200 * files) := by
    unfold tie
    push_cast
    field_simp
  rcases eq_or_ne (200 * tests - (2 * k + 1) * files) 0 with hzero | hne
  · refine .inl (sub_eq_zero.mp ?_)
    rw [hdistance, hzero, Int.cast_zero, zero_div]
  · right
    have hstep : (1 : Rat) ≤ |((200 * tests - (2 * k + 1) * files : Int) : Rat)| := by
      rw [← Int.cast_abs]
      exact_mod_cast Int.one_le_abs hne
    have hsize : (200 * files : Rat) ≤ 2 ^ 52 := by
      have hle : (files : Rat) ≤ 2 ^ 44 := by exact_mod_cast hfew
      norm_num at hle ⊢
      linarith
    rw [hdistance, abs_div, abs_of_pos (by linarith : (0 : Rat) < 200 * files), zpow_neg,
      le_div_iff₀ (by linarith)]
    refine le_trans ?_ hstep
    rw [inv_mul_le_iff₀ (by positivity), mul_one]
    exact_mod_cast hsize

/-- Few files get the exact coverage, unless the share is one of four ties. Then they get one
percent less. -/
theorem coverage_of_few (hfiles : 0 < files) (htests : 0 ≤ tests) (hle : tests ≤ files)
    (hfew : files ≤ 2 ^ 44) :
    coverage files tests = .ok (if ∃ k ∈ lowTies, (tests : Rat) / files = tie k then
      exactCoverage files tests - 1 else exactCoverage files tests) := by
  obtain ⟨n, hn, hsettled⟩ := exists_settled hfiles htests hle
  have hnear := hsettled.near
  -- With so few files, a share is a tie or clearly apart from it, so it does not overshoot.
  have hover : ¬Overshoots ((tests : Rat) / files) := by
    intro h
    obtain ⟨k, hbelow, hclose⟩ := h.exists_near (share_nonneg hfiles htests)
    rcases share_eq_tie_or hfiles hfew k with heq | hfar
    · exact hbelow.ne heq
    · rw [abs_sub_comm, abs_of_pos (sub_pos.mpr hbelow)] at hfar
      exact absurd hclose (not_lt.mpr hfar)
  rw [← hsettled.lt_iff_overshoots] at hover
  rw [hn]
  congr 1
  split
  · next htie =>
    obtain ⟨k, hlow, heq⟩ := htie
    have hshort := hsettled.lt_iff_fallsShort.mpr ⟨k, hlow, heq.ge, by rw [heq]⟩
    omega
  · next htie =>
    -- And it falls short at a tie only.
    have hshort : ¬FallsShort ((tests : Rat) / files) := by
      intro h
      obtain ⟨k, hlow, hreached, hclose⟩ := h.exists_near
      rcases share_eq_tie_or hfiles hfew k with heq | hfar
      · exact htie ⟨k, hlow, heq⟩
      · rw [abs_of_nonneg (sub_nonneg.mpr hreached)] at hfar
        exact absurd hclose (not_lt.mpr hfar)
    rw [← hsettled.lt_iff_fallsShort] at hshort
    omega

end Few

end RepoAtlas.Score
