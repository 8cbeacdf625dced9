import Mathlib.Algebra.Order.Field.Power
import Mathlib.Data.Rat.Lemmas
import Mathlib.Tactic.FieldSimp
import Mathlib.Tactic.Linarith
import Mathlib.Tactic.Positivity
import Mathlib.Tactic.Ring
import RepoAtlas.Number.Binary64

/-!
# `RepoAtlas.Proofs.Number.Rounding`: what rounding does to magnitudes

A magnitude is rounded in two moves: its binade sets the quantum, and the number of quanta is
rounded to the nearest integer, a tie to the even one. Nothing here depends on how far that is from
the exact number. What is used of rounding is that it never crosses a magnitude that binary64 holds:

* `Representable`: the magnitudes that binary64 holds, however large.
* `le_roundMagnitude`, `roundMagnitude_le`: what lies on one side of such a magnitude is rounded to
  the same side, so these magnitudes are kept (`roundMagnitude_eq_self`).
* `roundMagnitude_mono`: rounding keeps the order.
* `roundMagnitude_le_iff`: which numbers are rounded up past a given magnitude. The cut is half a
  quantum above it, and a number at the cut goes to the even side.
* `roundMagnitude_lt_overflowBound_iff`: hence which numbers are too large for binary64.
-/

set_option autoImplicit false

namespace RepoAtlas.Number

/-! ### The nearest integer -/

/-- The integer nearest to a number that is not negative, ties to even. -/
def nearest (x : Rat) : Nat :=
  roundHalfEven x.num.toNat x.den

/-- The integer that a quotient is rounded to is at most half a divisor away, ties included. -/
theorem roundHalfEven_near (num : Nat) {den : Nat} (hden : 0 < den) :
    2 * (roundHalfEven num den * den) ≤ 2 * num + den ∧
      2 * num ≤ 2 * (roundHalfEven num den * den) + den := by
  have hdiv := Nat.div_add_mod num den
  have hmod := Nat.mod_lt num hden
  rw [Nat.mul_comm] at hdiv
  have hparity : num / den % 2 = 0 ∨ num / den % 2 = 1 := by omega
  unfold roundHalfEven
  dsimp only
  -- Rounded down, rounded up, or in the middle.
  split
  · omega
  · split
    · rw [Nat.add_mul]
      omega
    · rcases hparity with h | h <;> rw [h, Nat.add_mul] <;> omega

/-- The numerator of a number that is not negative, as a number. -/
theorem cast_num_toNat {x : Rat} (hx : 0 ≤ x) : ((x.num.toNat : Nat) : Rat) = x * x.den := by
  have hnum : ((x.num.toNat : Nat) : Rat) = (x.num : Rat) := by
    exact_mod_cast Int.toNat_of_nonneg (Rat.num_nonneg.mpr hx)
  rw [hnum, Rat.mul_den_eq_num]

/-- The nearest integer is at most one half away. -/
theorem nearest_near {x : Rat} (hx : 0 ≤ x) :
    (nearest x : Rat) ≤ x + 1 / 2 ∧ x ≤ nearest x + 1 / 2 := by
  have hden : (0 : Rat) < x.den := by exact_mod_cast x.den_pos
  have hnear := roundHalfEven_near x.num.toNat x.den_pos
  have hnum := cast_num_toNat hx
  -- The bounds of whole numbers, multiplied by the denominator.
  have hlow : 2 * ((nearest x : Rat) * x.den) ≤ 2 * (x * x.den) + x.den := by
    rw [← hnum]
    exact_mod_cast hnear.1
  have hhigh : 2 * (x * x.den) ≤ 2 * ((nearest x : Rat) * x.den) + x.den := by
    rw [← hnum]
    exact_mod_cast hnear.2
  constructor
  · refine le_of_mul_le_mul_right ?_ hden
    linarith
  · refine le_of_mul_le_mul_right ?_ hden
    linarith

/-- The nearest integer is not below any integer that the number reaches. -/
theorem le_nearest {n : Nat} {x : Rat} (h : (n : Rat) ≤ x) : n ≤ nearest x := by
  have hnear := (nearest_near ((Nat.cast_nonneg n).trans h)).2
  -- Were the nearest integer less, it would be one less, and more than one half away.
  by_contra hless
  have hstep : (nearest x : Rat) + 1 ≤ n := by exact_mod_cast Nat.lt_of_not_le hless
  linarith

/-- Nor above any integer that the number does not exceed. -/
theorem nearest_le {n : Nat} {x : Rat} (hx : 0 ≤ x) (h : x ≤ n) : nearest x ≤ n := by
  have hnear := (nearest_near hx).1
  by_contra hmore
  have hstep : (n : Rat) + 1 ≤ nearest x := by exact_mod_cast Nat.lt_of_not_le hmore
  linarith

/-- Nearest integers keep the order. -/
theorem nearest_mono {x y : Rat} (hx : 0 ≤ x) (h : x ≤ y) : nearest x ≤ nearest y := by
  have hbelow := (nearest_near hx).1
  have habove := (nearest_near (hx.trans h)).2
  by_contra hmore
  have hstep : (nearest y : Rat) + 1 ≤ nearest x := by exact_mod_cast Nat.lt_of_not_le hmore
  -- Only a tie is left: both numbers lie in the middle between the two integers.
  have heq : x = y := by linarith
  rw [heq] at hmore
  exact hmore le_rfl

/-- A number in the middle between two integers goes to the even one. -/
theorem nearest_half (n : Nat) : nearest ((n : Rat) + 1 / 2) = n + n % 2 := by
  have hhalf : (n : Rat) + 1 / 2 = ((2 * n + 1 : Int) : Rat) / (2 : Int) := by
    push_cast
    ring
  -- The fraction is in lowest terms, as its numerator is odd.
  have hcoprime : Nat.Coprime (2 * (n : Int) + 1).natAbs (2 : Int).natAbs := by
    have habs : (2 * (n : Int) + 1).natAbs = 2 * n + 1 := by omega
    have hodd : (2 * n + 1) % 2 = 1 := by omega
    rw [habs]
    show Nat.gcd (2 * n + 1) 2 = 1
    rw [Nat.gcd_comm, Nat.gcd_rec, hodd]
    rfl
  have hnum : ((n : Rat) + 1 / 2).num.toNat = 2 * n + 1 := by
    rw [hhalf, Rat.num_div_eq_of_coprime (by decide) hcoprime]
    omega
  have hden : ((n : Rat) + 1 / 2).den = 2 := by
    rw [hhalf]
    exact_mod_cast Rat.den_div_eq_of_coprime (by decide) hcoprime
  have hquotient : (2 * n + 1) / 2 = n := by omega
  have hrest : (2 * n + 1) % 2 = 1 := by omega
  rw [nearest, hnum, hden]
  simp [roundHalfEven, hquotient, hrest]

/-- Which numbers are rounded up past an integer: those beyond the middle, and the middle itself if
the integer is odd. -/
theorem nearest_le_iff {n : Nat} {x : Rat} (hx : 0 ≤ x) :
    nearest x ≤ n ↔ if n % 2 = 0 then x ≤ n + 1 / 2 else x < n + 1 / 2 := by
  have hmiddle := nearest_half n
  -- Below the middle, at it, and beyond it.
  rcases lt_trichotomy x ((n : Rat) + 1 / 2) with hlt | rfl | hgt
  · have hle : nearest x ≤ n := by
      have hnear := (nearest_near hx).1
      by_contra hmore
      have hstep : (n : Rat) + 1 ≤ nearest x := by exact_mod_cast Nat.lt_of_not_le hmore
      linarith
    refine iff_of_true hle ?_
    split
    · exact hlt.le
    · exact hlt
  · rw [hmiddle]
    split <;> simp <;> omega
  · have hmore : ¬ nearest x ≤ n := by
      have hnear := (nearest_near hx).2
      intro hle
      have hstep : (nearest x : Rat) ≤ n := by exact_mod_cast hle
      linarith
    refine iff_of_false hmore ?_
    split
    · exact not_le.mpr hgt
    · exact not_lt.mpr hgt.le

/-! ### Binades -/

/-- The binade of a positive number. -/
theorem floorLog2_spec {q : Rat} (hq : 0 < q) :
    (2 : Rat) ^ floorLog2 q ≤ q ∧ q < (2 : Rat) ^ (floorLog2 q + 1) := by
  have hden : 0 < (q.den : Rat) := by exact_mod_cast q.den_pos
  have hnum : q.num.toNat ≠ 0 := by
    have hpos := Rat.num_pos.mpr hq
    omega
  have hvalue : q = (q.num.toNat : Rat) / q.den := by
    rw [cast_num_toNat hq.le]
    field_simp
  -- Numerator and denominator each lie between two powers of two.
  have hnumLow : (2 : Rat) ^ (q.num.toNat.log2 : Int) ≤ q.num.toNat := by
    exact_mod_cast Nat.log2_self_le hnum
  have hnumHigh : (q.num.toNat : Rat) < 2 ^ ((q.num.toNat.log2 : Int) + 1) := by
    exact_mod_cast Nat.lt_log2_self (n := q.num.toNat)
  have hdenLow : (2 : Rat) ^ (q.den.log2 : Int) ≤ q.den := by
    exact_mod_cast Nat.log2_self_le q.den_nz
  have hdenHigh : (q.den : Rat) < 2 ^ ((q.den.log2 : Int) + 1) := by
    exact_mod_cast Nat.lt_log2_self (n := q.den)
  unfold floorLog2
  generalize q.num.toNat.log2 = a at hnumLow hnumHigh ⊢
  generalize q.den.log2 = b at hdenLow hdenHigh ⊢
  -- The guess compares the numbers of binary digits, so it is right or too great by one.
  have hlow : (2 : Rat) ^ ((a : Int) - b - 1) ≤ q := by
    rw [hvalue, le_div_iff₀ hden]
    calc (2 : Rat) ^ ((a : Int) - b - 1) * q.den
        ≤ 2 ^ ((a : Int) - b - 1) * 2 ^ ((b : Int) + 1) :=
          mul_le_mul_of_nonneg_left hdenHigh.le (by positivity)
      _ = 2 ^ (a : Int) := by
          rw [← zpow_add₀ two_ne_zero]
          congr 1
          omega
      _ ≤ q.num.toNat := hnumLow
  have hhigh : q < (2 : Rat) ^ ((a : Int) - b + 1) := by
    rw [hvalue, div_lt_iff₀ hden]
    calc (q.num.toNat : Rat)
        < 2 ^ ((a : Int) + 1) := hnumHigh
      _ = 2 ^ ((a : Int) - b + 1) * 2 ^ (b : Int) := by
          rw [← zpow_add₀ two_ne_zero]
          congr 1
          omega
      _ ≤ 2 ^ ((a : Int) - b + 1) * q.den :=
          mul_le_mul_of_nonneg_left hdenLow (by positivity)
  dsimp only
  split
  · next hguess => exact ⟨hguess, hhigh⟩
  · next hguess =>
    refine ⟨hlow, ?_⟩
    rw [sub_add_cancel]
    exact not_le.mp hguess

/-- Powers of two are ordered as their exponents. -/
theorem zpow_lt_zpow_iff {a b : Int} : (2 : Rat) ^ a < 2 ^ b ↔ a < b :=
  zpow_lt_zpow_iff_right₀ (by norm_num)

/-- So they are with equality. -/
theorem zpow_le_zpow_iff {a b : Int} : (2 : Rat) ^ a ≤ 2 ^ b ↔ a ≤ b :=
  zpow_le_zpow_iff_right₀ (by norm_num)

/-- A number has at most 53 binary digits before its quantum. -/
theorem lt_of_quantumExponent {q : Rat} (hq : 0 < q) : q < (2 : Rat) ^ (quantumExponent q + 53) := by
  refine (floorLog2_spec hq).2.trans_le (zpow_le_zpow_iff.mpr ?_)
  unfold quantumExponent
  omega

/-- Unless the quantum is the least one, there are 53 of them. -/
theorem le_of_quantumExponent {q : Rat} (hq : 0 < q) (h : quantumExponent q ≠ -1074) :
    (2 : Rat) ^ (quantumExponent q + 52) ≤ q := by
  refine le_trans (zpow_le_zpow_iff.mpr ?_) (floorLog2_spec hq).1
  unfold quantumExponent at h ⊢
  omega

/-- No quantum is finer than that of the subnormal numbers. -/
theorem le_quantumExponent (q : Rat) : -1074 ≤ quantumExponent q :=
  le_max_left _ _

/-- The quantum of the numbers between two powers of two. -/
theorem quantumExponent_eq {q : Rat} {e : Int} (he : -1074 ≤ e) (hlow : (2 : Rat) ^ (e + 52) ≤ q)
    (hhigh : q < (2 : Rat) ^ (e + 53)) : quantumExponent q = e := by
  have hspec := floorLog2_spec ((zpow_pos two_pos _).trans_le hlow)
  have habove := zpow_lt_zpow_iff.mp (hlow.trans_lt hspec.2)
  have hbelow := zpow_lt_zpow_iff.mp (hspec.1.trans_lt hhigh)
  unfold quantumExponent
  omega

/-- Greater numbers have no finer quantum. -/
theorem quantumExponent_mono {x y : Rat} (hx : 0 < x) (h : x ≤ y) :
    quantumExponent x ≤ quantumExponent y := by
  have hlog := zpow_lt_zpow_iff.mp
    (((floorLog2_spec hx).1.trans h).trans_lt (floorLog2_spec (hx.trans_le h)).2)
  unfold quantumExponent
  omega

/-! ### Magnitudes that binary64 holds -/

/-- Whole multiples of a quantum with at most 53 binary digits. No limit is set to the exponent:
overflow is a matter of its own. -/
def Representable (r : Rat) : Prop :=
  ∃ (n : Nat) (e : Int), n ≤ 2 ^ 53 ∧ -1074 ≤ e ∧ r = n * 2 ^ e

/-- Halves of small integers are representable. -/
theorem representable_half {n : Nat} (h : n ≤ 2 ^ 53) : Representable (n / 2) :=
  ⟨n, -1, h, by decide, by rw [zpow_neg_one, div_eq_mul_inv]⟩

/-- In a binade a representable magnitude is a multiple of the quantum or lies below the binade. -/
theorem Representable.multiple_or_lt {r : Rat} (h : Representable r) (E : Int) :
    (∃ k : Nat, r = k * 2 ^ E) ∨ (-1074 < E ∧ r < 2 ^ (E + 52)) := by
  obtain ⟨n, e, hn, he, rfl⟩ := h
  -- A quantum at least that of the binade divides; a finer one leaves 53 digits below the binade.
  rcases le_or_gt E e with hE | hE
  · refine .inl ⟨n * 2 ^ (e - E).toNat, ?_⟩
    have hexponent : (2 : Rat) ^ e = 2 ^ (e - E).toNat * 2 ^ E := by
      rw [← zpow_natCast, ← zpow_add₀ two_ne_zero]
      congr 1
      omega
    rw [hexponent]
    push_cast
    ring
  · have hbound : (n : Rat) * 2 ^ e ≤ 2 ^ (E + 52) := by
      calc (n : Rat) * 2 ^ e
          ≤ 2 ^ (53 : Int) * 2 ^ e :=
            mul_le_mul_of_nonneg_right (by exact_mod_cast hn) (zpow_pos two_pos e).le
        _ = 2 ^ (53 + e) := (zpow_add₀ two_ne_zero _ _).symm
        _ ≤ 2 ^ (E + 52) := zpow_le_zpow_iff.mpr (by omega)
    rcases hbound.eq_or_lt with heq | hlt
    · refine .inl ⟨2 ^ 52, ?_⟩
      rw [heq, add_comm, zpow_add₀ two_ne_zero]
      norm_cast
    · exact .inr ⟨by omega, hlt⟩

/-- What rounding is: the nearest number of quanta. -/
theorem roundMagnitude_eq (q : Rat) :
    roundMagnitude q = nearest (q / 2 ^ quantumExponent q) * 2 ^ quantumExponent q :=
  rfl

/-- Magnitudes are not negative. -/
theorem roundMagnitude_nonneg (q : Rat) : 0 ≤ roundMagnitude q := by
  rw [roundMagnitude_eq]
  positivity

/-- Zero is kept, although it has no binade. -/
theorem roundMagnitude_zero : roundMagnitude 0 = 0 := by
  rw [roundMagnitude_eq, zero_div]
  have hzero : nearest 0 = 0 := by decide
  rw [hzero, Nat.cast_zero, zero_mul]

/-- A multiple of the quantum below a number stays below it. -/
theorem le_roundMagnitude_of_multiple {k : Nat} {q : Rat} (h : (k : Rat) * 2 ^ quantumExponent q ≤ q) :
    (k : Rat) * 2 ^ quantumExponent q ≤ roundMagnitude q := by
  have hquantum : (0 : Rat) < 2 ^ quantumExponent q := zpow_pos two_pos _
  have hnearest := le_nearest ((le_div_iff₀ hquantum).mpr h)
  rw [roundMagnitude_eq]
  exact mul_le_mul_of_nonneg_right (by exact_mod_cast hnearest) hquantum.le

/-- A multiple of the quantum above a number stays above it. -/
theorem roundMagnitude_le_of_multiple {k : Nat} {q : Rat} (hq : 0 ≤ q)
    (h : q ≤ k * 2 ^ quantumExponent q) : roundMagnitude q ≤ k * 2 ^ quantumExponent q := by
  have hquantum : (0 : Rat) < 2 ^ quantumExponent q := zpow_pos two_pos _
  have hnearest := nearest_le (div_nonneg hq hquantum.le) ((div_le_iff₀ hquantum).mpr h)
  rw [roundMagnitude_eq]
  exact mul_le_mul_of_nonneg_right (by exact_mod_cast hnearest) hquantum.le

/-- A power of two some binary digits up, for the numerals that exponents are written with. -/
theorem two_zpow_add (e : Int) (d : Nat) [d.AtLeastTwo] :
    (2 : Rat) ^ (e + (OfNat.ofNat d : Int)) = ((2 ^ ofNat(d) : Nat) : Rat) * 2 ^ e := by
  rw [add_comm, zpow_add₀ two_ne_zero, zpow_ofNat, Nat.cast_pow, Nat.cast_ofNat]

/-- Rounding never crosses a representable magnitude downwards. -/
theorem le_roundMagnitude {r q : Rat} (hr : Representable r) (hq : 0 < q) (h : r ≤ q) :
    r ≤ roundMagnitude q := by
  rcases hr.multiple_or_lt (quantumExponent q) with ⟨k, rfl⟩ | ⟨hE, hlt⟩
  · exact le_roundMagnitude_of_multiple h
  · -- The number has 53 digits, the first of which is already more than the magnitude.
    have hdigits := le_of_quantumExponent hq (by omega)
    rw [two_zpow_add _ 52] at hdigits hlt
    exact hlt.le.trans (le_roundMagnitude_of_multiple hdigits)

/-- Rounding never crosses a representable magnitude upwards. -/
theorem roundMagnitude_le {r q : Rat} (hr : Representable r) (hq : 0 < q) (h : q ≤ r) :
    roundMagnitude q ≤ r := by
  rcases hr.multiple_or_lt (quantumExponent q) with ⟨k, rfl⟩ | ⟨hE, hlt⟩
  · exact roundMagnitude_le_of_multiple hq.le h
  · have hdigits := le_of_quantumExponent hq (by omega)
    exact absurd (hdigits.trans h) (not_le.mpr hlt)

/-- The results of rounding are representable. -/
theorem representable_roundMagnitude {q : Rat} (hq : 0 < q) : Representable (roundMagnitude q) := by
  have hquantum : (0 : Rat) < 2 ^ quantumExponent q := zpow_pos two_pos _
  have hdigits := (lt_of_quantumExponent hq).le
  rw [two_zpow_add _ 53] at hdigits
  exact ⟨_, quantumExponent q,
    nearest_le (div_nonneg hq.le hquantum.le) ((div_le_iff₀ hquantum).mpr hdigits),
    le_quantumExponent q, roundMagnitude_eq q⟩

/-- Rounding keeps what is representable. -/
theorem roundMagnitude_eq_self {r : Rat} (hr : Representable r) (hpos : 0 < r) :
    roundMagnitude r = r :=
  le_antisymm (roundMagnitude_le hr hpos le_rfl) (le_roundMagnitude hr hpos le_rfl)

/-- Rounding keeps the order. -/
theorem roundMagnitude_mono {x y : Rat} (hx : 0 < x) (h : x ≤ y) :
    roundMagnitude x ≤ roundMagnitude y := by
  have hy : 0 < y := hx.trans_le h
  rcases (quantumExponent_mono hx h).eq_or_lt with heq | hlt
  · -- One quantum for both.
    have hquantum : (0 : Rat) < 2 ^ quantumExponent y := zpow_pos two_pos _
    rw [roundMagnitude_eq, roundMagnitude_eq, heq]
    have hnearest := nearest_mono (div_nonneg hx.le hquantum.le)
      (div_le_div_of_nonneg_right h hquantum.le)
    exact mul_le_mul_of_nonneg_right (by exact_mod_cast hnearest) hquantum.le
  · -- A power of two lies between the two numbers, and neither crosses it.
    have hpower : Representable ((2 : Rat) ^ (quantumExponent x + 53)) := by
      have hlow := le_quantumExponent x
      exact ⟨1, quantumExponent x + 53, by decide, by omega, by simp⟩
    refine (roundMagnitude_le hpower hx (lt_of_quantumExponent hx).le).trans
      (le_roundMagnitude hpower hy ?_)
    have hlow := le_quantumExponent x
    exact (zpow_le_zpow_iff.mpr (by omega)).trans (le_of_quantumExponent hy (by omega))

/-! ### Where rounding turns over -/

/-- Which numbers are rounded up past a magnitude with 53 digits: those more than half a quantum
above it, and the number in the middle if the last digit is odd. -/
theorem roundMagnitude_le_iff {n : Nat} {e : Int} {q : Rat} (hlow : 2 ^ 52 ≤ n) (hhigh : n < 2 ^ 53)
    (he : -1074 ≤ e) (hq : 0 < q) :
    roundMagnitude q ≤ n * 2 ^ e ↔
      if n % 2 = 0 then q ≤ (n + 1 / 2) * 2 ^ e else q < (n + 1 / 2) * 2 ^ e := by
  have hquantum : (0 : Rat) < 2 ^ e := zpow_pos two_pos e
  have hmiddle : (n : Rat) * 2 ^ e < (n + 1 / 2) * 2 ^ e :=
    mul_lt_mul_of_pos_right (by linarith) hquantum
  rcases lt_or_ge q (2 ^ (e + 52)) with hless | hfrom
  · -- Below the binade of the magnitude.
    have hle : q ≤ n * 2 ^ e := by
      refine hless.le.trans ?_
      rw [two_zpow_add _ 52]
      exact mul_le_mul_of_nonneg_right (by exact_mod_cast hlow) hquantum.le
    refine iff_of_true (roundMagnitude_le ⟨n, e, hhigh.le, he, rfl⟩ hq hle) ?_
    split
    · exact hle.trans hmiddle.le
    · exact hle.trans_lt hmiddle
  · rcases lt_or_ge q (2 ^ (e + 53)) with hto | habove
    · -- In its binade, the quantum is that of the magnitude.
      rw [roundMagnitude_eq, quantumExponent_eq he hfrom hto, mul_le_mul_iff_left₀ hquantum,
        Nat.cast_le, nearest_le_iff (div_nonneg hq.le hquantum.le), div_le_iff₀ hquantum,
        div_lt_iff₀ hquantum]
    · -- Above its binade.
      rw [two_zpow_add _ 53] at habove
      have hstep : (n : Rat) + 1 ≤ ((2 ^ 53 : Nat) : Rat) := by exact_mod_cast hhigh
      have hhalf : (n : Rat) + 1 / 2 < ((2 ^ 53 : Nat) : Rat) :=
        lt_of_lt_of_le (by linarith) hstep
      have hmore : (n + 1 / 2 : Rat) * 2 ^ e < q :=
        (mul_lt_mul_of_pos_right hhalf hquantum).trans_le habove
      have hround : ((2 ^ 53 : Nat) : Rat) * 2 ^ e ≤ roundMagnitude q :=
        le_roundMagnitude ⟨2 ^ 53, e, le_rfl, he, rfl⟩ hq habove
      refine iff_of_false (fun hle => ?_) ?_
      · have hcompare := le_of_mul_le_mul_right (hround.trans hle) hquantum
        linarith
      · split
        · exact not_le.mpr hmore
        · exact not_lt.mpr hmore.le

/-- The greatest finite magnitude. -/
def greatest : Rat := 2 ^ (1024 : Int) - 2 ^ (971 : Int)

/-- Where magnitudes start that are rounded to infinity: half a quantum above the greatest. -/
def roundingLimit : Rat := 2 ^ (1024 : Int) - 2 ^ (970 : Int)

/-- The greatest finite magnitude, in its quantum. -/
theorem greatest_eq : greatest = ((2 ^ 53 - 1 : Nat) : Rat) * 2 ^ (971 : Int) := by
  have hpower : (2 : Rat) ^ (1024 : Int) = 2 ^ 53 * 2 ^ (971 : Int) := by
    rw [← zpow_ofNat, ← zpow_add₀ two_ne_zero]
    rfl
  unfold greatest
  rw [hpower]
  generalize (2 : Rat) ^ (971 : Int) = quantum
  push_cast
  ring

/-- The rounding limit is half a quantum above the greatest magnitude, whose last digit is odd. -/
theorem roundingLimit_eq :
    roundingLimit = (((2 ^ 53 - 1 : Nat) : Rat) + 1 / 2) * 2 ^ (971 : Int) := by
  have hquantum : (2 : Rat) ^ (971 : Int) = 2 * 2 ^ (970 : Int) := by
    rw [← zpow_one_add₀ two_ne_zero]
    norm_num
  rw [add_mul, ← greatest_eq]
  unfold greatest roundingLimit
  rw [hquantum]
  ring

/-- The greatest magnitude does not overflow. -/
theorem greatest_lt_overflowBound : greatest < overflowBound := by
  unfold greatest overflowBound
  exact sub_lt_self _ (zpow_pos two_pos 971)

/-- A representable magnitude is too large or at most the greatest one. -/
theorem Representable.le_greatest {r : Rat} (hr : Representable r) (h : r < overflowBound) :
    r ≤ greatest := by
  rcases hr.multiple_or_lt 971 with ⟨k, rfl⟩ | ⟨-, hlt⟩
  · have hk : (k : Rat) < ((2 ^ 53 : Nat) : Rat) := by
      refine lt_of_mul_lt_mul_right ?_ (zpow_pos two_pos 971).le
      rw [← two_zpow_add 971 53]
      exact h
    have hk' : k ≤ 2 ^ 53 - 1 := Nat.le_sub_one_of_lt (by exact_mod_cast hk)
    rw [greatest_eq]
    exact mul_le_mul_of_nonneg_right (by exact_mod_cast hk') (zpow_pos two_pos 971).le
  · rw [two_zpow_add 971 52] at hlt
    rw [greatest_eq]
    exact hlt.le.trans (mul_le_mul_of_nonneg_right (by norm_num) (zpow_pos two_pos 971).le)

/-- Which magnitudes are rounded to finite ones. -/
theorem roundMagnitude_lt_overflowBound_iff {q : Rat} (hq : 0 < q) :
    roundMagnitude q < overflowBound ↔ q < roundingLimit := by
  -- Results are representable, so none lies between the greatest magnitude and the bound.
  have hgreatest : roundMagnitude q < overflowBound ↔ roundMagnitude q ≤ greatest :=
    ⟨(representable_roundMagnitude hq).le_greatest, fun h => h.trans_lt greatest_lt_overflowBound⟩
  rw [hgreatest, greatest_eq, roundMagnitude_le_iff (by decide) (by decide) (by decide) hq,
    if_neg (by decide), roundingLimit_eq]

end RepoAtlas.Number
