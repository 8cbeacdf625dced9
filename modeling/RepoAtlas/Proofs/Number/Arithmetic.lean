import Mathlib.Data.Rat.Floor
import RepoAtlas.Proofs.Number.Rounding

/-!
# `RepoAtlas.Proofs.Number.Arithmetic`: what the operations compute

The value of an operation stands for the exact result, rounded once, and overflow starts at the
rounding limit. So a computation is followed on the numbers alone:

* `rounded`: rounding with a sign. It keeps the order (`rounded_mono`) and what is representable
  (`rounded_eq_self`), and its results never exceed the greatest magnitude (`abs_rounded_le`).
* `StandsFor`: a finite value and its number.
* `ofRat_of_lt`, `ofRat_of_le`: a number has a finite value below the rounding limit only.
* `StandsFor.add`, `StandsFor.sub`, `StandsFor.floor`: operations on values as operations on
  numbers. Products are needed of numbers that are not negative only (`mul_of_lt`, `mul_of_le`).
* `toInt?_eq_some_iff`: a value is a whole number if its exact value is.
-/

set_option autoImplicit false

namespace RepoAtlas.Number

/-! ### Rounding with a sign -/

/-- A number with its magnitude rounded. -/
def rounded (q : Rat) : Rat :=
  if q < 0 then -roundMagnitude (-q) else roundMagnitude q

/-- A number that is not negative is rounded as its magnitude is. -/
theorem rounded_of_nonneg {q : Rat} (h : 0 ≤ q) : rounded q = roundMagnitude q :=
  if_neg (not_lt.mpr h)

/-- A negative number is rounded as its magnitude is, with the sign put back. -/
theorem rounded_of_neg {q : Rat} (h : q < 0) : rounded q = -roundMagnitude (-q) :=
  if_pos h

/-- Rounding with a sign rounds magnitudes. -/
theorem abs_rounded (q : Rat) : |rounded q| = roundMagnitude |q| := by
  rcases lt_or_ge q 0 with h | h
  · rw [rounded_of_neg h, abs_neg, abs_of_neg h, abs_of_nonneg (roundMagnitude_nonneg _)]
  · rw [rounded_of_nonneg h, abs_of_nonneg h, abs_of_nonneg (roundMagnitude_nonneg _)]

/-- No number that is not negative gets a sign. -/
theorem rounded_nonneg {q : Rat} (h : 0 ≤ q) : 0 ≤ rounded q := by
  rw [rounded_of_nonneg h]
  exact roundMagnitude_nonneg q

/-- Rounding keeps the order. -/
theorem rounded_mono {x y : Rat} (h : x ≤ y) : rounded x ≤ rounded y := by
  -- With different signs the results are on different sides of zero, and magnitudes are not compared.
  rcases lt_or_ge x 0 with hx | hx
  · rw [rounded_of_neg hx]
    rcases lt_or_ge y 0 with hy | hy
    · rw [rounded_of_neg hy]
      exact neg_le_neg (roundMagnitude_mono (neg_pos.mpr hy) (neg_le_neg h))
    · exact (neg_nonpos.mpr (roundMagnitude_nonneg _)).trans (rounded_nonneg hy)
  · rw [rounded_of_nonneg hx, rounded_of_nonneg (hx.trans h)]
    rcases hx.eq_or_lt with rfl | hpos
    · rw [roundMagnitude_zero]
      exact roundMagnitude_nonneg y
    · exact roundMagnitude_mono hpos h

/-- Rounding keeps what is representable. -/
theorem rounded_eq_self {q : Rat} (h : Representable |q|) : rounded q = q := by
  rcases lt_trichotomy q 0 with hneg | rfl | hpos
  · rw [abs_of_neg hneg] at h
    rw [rounded_of_neg hneg, roundMagnitude_eq_self h (neg_pos.mpr hneg), neg_neg]
  · rw [rounded_of_nonneg le_rfl, roundMagnitude_zero]
  · rw [abs_of_pos hpos] at h
    rw [rounded_of_nonneg hpos.le, roundMagnitude_eq_self h hpos]

/-- Halves of integers are kept, up to a size no score reaches. -/
theorem rounded_half {n : Int} (h : n.natAbs ≤ 2 ^ 53) : rounded (n / 2) = n / 2 := by
  refine rounded_eq_self ?_
  rw [abs_div, abs_two, ← Int.cast_abs, Int.abs_eq_natAbs, Int.cast_natCast]
  exact representable_half h

/-- Rounding keeps integers, as halves of even ones. -/
theorem rounded_intCast {n : Int} (h : n.natAbs ≤ 2 ^ 52) : rounded n = n := by
  -- An integer is half of an even one, and halves are kept.
  have hhalf := rounded_half (n := 2 * n) (by omega)
  push_cast at hhalf
  rwa [mul_div_cancel_left₀ _ two_ne_zero] at hhalf

/-- Rounding never crosses an integer of such a size. -/
theorem intCast_le_rounded {n : Int} (hn : n.natAbs ≤ 2 ^ 52) {q : Rat} (h : (n : Rat) ≤ q) :
    (n : Rat) ≤ rounded q :=
  (rounded_intCast hn).symm.trans_le (rounded_mono h)

/-- Nor from above. -/
theorem rounded_le_intCast {n : Int} (hn : n.natAbs ≤ 2 ^ 52) {q : Rat} (h : q ≤ n) :
    rounded q ≤ n :=
  (rounded_mono h).trans_eq (rounded_intCast hn)

/-- Below the rounding limit, results are at most the greatest magnitude. -/
theorem abs_rounded_le {q : Rat} (h : |q| < roundingLimit) : |rounded q| ≤ greatest := by
  rw [abs_rounded]
  rcases (abs_nonneg q).eq_or_lt with hzero | hpos
  · rw [← hzero, roundMagnitude_zero]
    unfold greatest
    exact sub_nonneg.mpr (zpow_le_zpow_iff.mpr (by decide))
  · exact (representable_roundMagnitude hpos).le_greatest
      ((roundMagnitude_lt_overflowBound_iff hpos).mpr h)

/-- What is at most the greatest magnitude has room below the rounding limit. -/
theorem add_lt_roundingLimit {x : Rat} (h : x < 2 ^ (970 : Int)) : greatest + x < roundingLimit := by
  -- The room between the greatest magnitude and the limit is half a quantum, `2 ^ 970`.
  have hquantum : (2 : Rat) ^ (971 : Int) = 2 ^ (970 : Int) + 2 ^ (970 : Int) := by
    rw [show (971 : Int) = 970 + 1 from rfl, zpow_add_one₀ two_ne_zero, mul_two]
  unfold greatest roundingLimit
  rw [hquantum]
  -- The powers are hidden, so that none of them is evaluated.
  generalize (2 : Rat) ^ (1024 : Int) = top
  generalize (2 : Rat) ^ (970 : Int) = half at h ⊢
  linarith

/-- What scores are made of is far below the room there is. -/
theorem lt_two_zpow {x : Rat} (h : x ≤ 2 ^ 210) : x < 2 ^ (970 : Int) := by
  refine h.trans_lt ?_
  rw [← zpow_ofNat]
  exact zpow_lt_zpow_iff.mpr (by decide)

/-- Counters of any file system, and what scores make of them, are far from the limit. -/
theorem lt_roundingLimit {x : Rat} (h : x ≤ 2 ^ 210) : x < roundingLimit := by
  have hroom := add_lt_roundingLimit (lt_two_zpow h)
  have hgreatest : 0 ≤ greatest := sub_nonneg.mpr (zpow_le_zpow_iff.mpr (by decide))
  exact (le_add_of_nonneg_left hgreatest).trans_lt hroom

namespace Binary64

/-! ### Values and numbers -/

/-- A finite value and the number it stands for. -/
inductive StandsFor : Binary64 → Rat → Prop
  | finite (negative : Bool) {magnitude : Rat} (nonneg : 0 ≤ magnitude) :
    StandsFor (.finite negative magnitude) (if negative then -magnitude else magnitude)

/-- A magnitude without a sign stands for itself. -/
theorem standsFor_of_nonneg {magnitude : Rat} (h : 0 ≤ magnitude) :
    StandsFor (.finite false magnitude) magnitude :=
  .finite false h

/-- What stands for a number is finite. -/
theorem StandsFor.exists_finite {x : Binary64} {v : Rat} (h : StandsFor x v) :
    ∃ negative magnitude, x = .finite negative magnitude := by
  cases h with
  | finite negative nonneg => exact ⟨negative, _, rfl⟩

/-- The value of a number other than zero, by the magnitude that it is rounded to. -/
theorem ofRat_eq {q : Rat} (h : q ≠ 0) :
    ofRat q = if roundMagnitude |q| < overflowBound then .finite (q < 0) (roundMagnitude |q|)
      else .infinite (q < 0) := by
  have habs : (if q < 0 then -q else q) = |q| := by
    split
    · next hneg => rw [abs_of_neg hneg]
    · next hnonneg => rw [abs_of_nonneg (not_lt.mp hnonneg)]
  unfold ofRat
  rw [if_neg h, habs]

/-- Below the rounding limit a number has a finite value. -/
theorem ofRat_of_lt {q : Rat} (h : |q| < roundingLimit) : StandsFor (ofRat q) (rounded q) := by
  rcases eq_or_ne q 0 with rfl | hne
  · rw [rounded_of_nonneg le_rfl, roundMagnitude_zero]
    exact standsFor_of_nonneg le_rfl
  · have hvalue : rounded q = if decide (q < 0) = true then -roundMagnitude |q|
        else roundMagnitude |q| := by
      rcases lt_or_ge q 0 with hneg | hnonneg
      · rw [rounded_of_neg hneg, abs_of_neg hneg, if_pos (decide_eq_true hneg)]
      · rw [rounded_of_nonneg hnonneg, abs_of_nonneg hnonneg,
          if_neg (by simpa using not_lt.mpr hnonneg)]
    -- The sign of the value is the sign of the number, and its magnitude does not overflow.
    rw [ofRat_eq hne, if_pos ((roundMagnitude_lt_overflowBound_iff (abs_pos.mpr hne)).mpr h), hvalue]
    exact .finite _ (roundMagnitude_nonneg _)

/-- Some numbers have finite values. -/
theorem roundingLimit_pos : 0 < roundingLimit := by
  unfold roundingLimit
  exact sub_pos.mpr (zpow_lt_zpow_iff.mpr (by decide))

/-- From the rounding limit on its value is infinite. -/
theorem ofRat_of_le {q : Rat} (h : roundingLimit ≤ |q|) : ofRat q = .infinite (q < 0) := by
  have hpos : 0 < |q| := roundingLimit_pos.trans_le h
  rw [ofRat_eq (abs_pos.mp hpos), if_neg]
  rw [roundMagnitude_lt_overflowBound_iff hpos]
  exact not_lt.mpr h

/-- The value of a number that is not negative has no sign. -/
theorem ofRat_of_nonneg {q : Rat} (hq : 0 ≤ q) (h : q < roundingLimit) :
    ofRat q = .finite false (rounded q) := by
  rw [rounded_of_nonneg hq]
  rcases hq.eq_or_lt with rfl | hpos
  · rw [roundMagnitude_zero]
    rfl
  · rw [ofRat_eq hpos.ne', abs_of_pos hpos, if_pos ((roundMagnitude_lt_overflowBound_iff hpos).mpr h),
      decide_eq_false (not_lt.mpr hq)]

/-- Below the rounding limit an integer converts to its value. -/
theorem ofInt_of_lt {n : Int} (h : |(n : Rat)| < roundingLimit) : ofInt n = .ok (ofRat n) := by
  obtain ⟨negative, magnitude, hfinite⟩ := (ofRat_of_lt h).exists_finite
  unfold ofInt ofInt?
  rw [hfinite]

/-- From there on its conversion overflows. -/
theorem ofInt_of_le {n : Int} (h : roundingLimit ≤ |(n : Rat)|) :
    ofInt n = .error .integerTooLarge := by
  unfold ofInt ofInt?
  rw [ofRat_of_le h]

/-- The integers that convert to a finite value. -/
theorem isSome_ofInt?_iff {n : Int} : (ofInt? n).isSome ↔ |(n : Rat)| < roundingLimit := by
  refine ⟨fun hsome => ?_, fun h => ?_⟩
  · -- Were the integer not below the limit, its value would be infinite.
    by_contra hmore
    unfold ofInt? at hsome
    rw [ofRat_of_le (not_lt.mp hmore)] at hsome
    cases hsome
  · obtain ⟨negative, magnitude, hfinite⟩ := (ofRat_of_lt h).exists_finite
    unfold ofInt?
    rw [hfinite]
    rfl

/-- A quotient of integers is rounded once, from its exact value: neither operand is converted
before. -/
theorem quotient_of_lt {num den : Int} (h : |(num : Rat) / den| < roundingLimit) :
    quotient num den = .ok (ofRat (num / den)) := by
  obtain ⟨negative, magnitude, hfinite⟩ := (ofRat_of_lt h).exists_finite
  unfold quotient
  rw [hfinite]

/-- It overflows by the size of the exact quotient, not by that of the operands. -/
theorem quotient_of_le {num den : Int} (h : roundingLimit ≤ |(num : Rat) / den|) :
    quotient num den = .error .quotientTooLarge := by
  unfold quotient
  rw [ofRat_of_le h]

/-! ### Operations -/

/-- Magnitudes are compared as numbers. -/
theorem lt_finite (m n : Rat) : (Binary64.finite false m).lt (.finite false n) = decide (m < n) :=
  rfl

namespace StandsFor

variable {x y : Binary64} {v w : Rat}

/-- Sums are exact sums, rounded. -/
theorem add (hx : StandsFor x v) (hy : StandsFor y w) (h : |v + w| < roundingLimit) :
    StandsFor (x.add y) (rounded (v + w)) := by
  cases hx with
  | @finite s m hm =>
    cases hy with
    | @finite t n hn =>
      unfold Binary64.add
      dsimp only
      generalize (if s = true then -m else m) + (if t = true then -n else n) = sum at h ⊢
      by_cases hzero : sum = 0
      · -- A sum of zero keeps a sign, which makes no difference to the number.
        rw [if_pos hzero, hzero, rounded_of_nonneg le_rfl, roundMagnitude_zero]
        have hsigned := StandsFor.finite (s && t) (le_refl (0 : Rat))
        rwa [neg_zero, ite_self] at hsigned
      · rw [if_neg hzero]
        exact ofRat_of_lt h

/-- Changing the sign is exact. -/
theorem neg (hx : StandsFor x v) : StandsFor x.neg (-v) := by
  cases hx with
  | @finite s m hm =>
    have hvalue : -(if s = true then -m else m) = if (!s) = true then -m else m := by
      cases s <;> simp
    rw [hvalue]
    exact .finite (!s) hm

/-- Differences are exact differences, rounded. -/
theorem sub (hx : StandsFor x v) (hy : StandsFor y w) (h : |v - w| < roundingLimit) :
    StandsFor (x.sub y) (rounded (v - w)) := by
  rw [sub_eq_add_neg] at h ⊢
  exact hx.add hy.neg h

/-- The greatest integer below is that of the number: no rounding takes part. -/
theorem floor (hx : StandsFor x v) : x.floor = .ok ⌊v⌋ := by
  cases hx with
  | finite s hm => rfl

end StandsFor

/-- A product of numbers that are not negative. -/
theorem mul_of_lt {m n : Rat} (hm : 0 ≤ m) (hn : 0 ≤ n) (h : m * n < roundingLimit) :
    (Binary64.finite false m).mul (.finite false n) = .finite false (rounded (m * n)) := by
  unfold Binary64.mul
  dsimp only
  rw [ofRat_of_nonneg (mul_nonneg hm hn) h]
  rfl

/-- Such a product is infinite from the rounding limit on. -/
theorem mul_of_le {m n : Rat} (h : roundingLimit ≤ m * n) :
    (Binary64.finite false m).mul (.finite false n) = .infinite false := by
  unfold Binary64.mul
  dsimp only
  rw [ofRat_of_le (h.trans (le_abs_self _))]
  rfl

/-! ### Whole numbers -/

/-- The integer of a value is read off its exact value. -/
theorem toInt?_eq (x : Binary64) :
    x.toInt? = x.toRat?.bind fun q => if q.den = 1 then some q.num else none := by
  cases x with
  | infinite negative => rfl
  | nan => rfl
  | finite negative magnitude => cases negative <;> rfl

/-- A value is a whole number if its exact value is. -/
theorem toInt?_eq_some_iff {x : Binary64} {n : Int} :
    x.toInt? = some n ↔ x.toRat? = some (n : Rat) := by
  rw [toInt?_eq, Option.bind_eq_some_iff]
  constructor
  · rintro ⟨q, hq, hwhole⟩
    split at hwhole
    · next hden =>
      rw [hq, ← Option.some.inj hwhole, (Rat.den_eq_one_iff q).mp hden]
    · cases hwhole
  · intro h
    exact ⟨n, h, by rw [Rat.den_intCast, if_pos rfl, Rat.num_intCast]⟩

end Binary64

end RepoAtlas.Number
