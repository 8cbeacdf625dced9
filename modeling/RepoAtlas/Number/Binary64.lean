/-!
# `RepoAtlas.Number.Binary64`: rounded arithmetic

Scores are computed in IEEE binary64 arithmetic, and their last unit shows in the output. A value
is a sign and a magnitude, both exact; every operation computes the exact rational result and
rounds it once (`ofRat`): to the nearest multiple of the quantum of its binade, ties to the even
multiple, and to infinity when the magnitude reaches `2 ^ 1024`.
-/

set_option autoImplicit false

namespace RepoAtlas.Number

/-- The quotient rounded to the nearest integer, ties to even. The denominator is positive. -/
def roundHalfEven (num den : Nat) : Nat :=
  let quotient := num / den
  let rest := num % den
  if 2 * rest < den then quotient
  else if den < 2 * rest then quotient + 1
  else quotient + quotient % 2

/-- The greatest `e` with `2 ^ e ≤ q`, for positive `q`. -/
def floorLog2 (q : Rat) : Int :=
  let guess : Int := (q.num.toNat.log2 : Int) - (q.den.log2 : Int)
  if (2 : Rat) ^ guess ≤ q then guess else guess - 1

/-- The exponent of the quantum at a positive magnitude: 53 significant bits, but no quantum below
`2 ^ -1074`. -/
def quantumExponent (q : Rat) : Int :=
  max (-1074) (floorLog2 q - 52)

/-- A magnitude rounded to a multiple of its quantum. -/
def roundMagnitude (q : Rat) : Rat :=
  let quantum := (2 : Rat) ^ quantumExponent q
  let scaled := q / quantum
  (roundHalfEven scaled.num.toNat scaled.den : Rat) * quantum

/-- The least magnitude that is too large. -/
def overflowBound : Rat := (2 : Rat) ^ (1024 : Int)

/-- A binary64 value; a zero has a sign. -/
inductive Binary64 where
  | finite (negative : Bool) (magnitude : Rat)
  | infinite (negative : Bool)
  | nan
  deriving DecidableEq, Repr

namespace Binary64

/-- The value nearest to a rational number. -/
def ofRat (q : Rat) : Binary64 :=
  if q = 0 then .finite false 0
  else
    let rounded := roundMagnitude (if q < 0 then -q else q)
    if rounded < overflowBound then .finite (q < 0) rounded else .infinite (q < 0)

/-- The value nearest to an integer, unless that is infinite. -/
def ofInt? (n : Int) : Option Binary64 :=
  match ofRat n with
  | .finite negative magnitude => some (.finite negative magnitude)
  | _ => none

/-- The exact value of a finite one. -/
def toRat? : Binary64 → Option Rat
  | .finite negative magnitude => some (if negative then -magnitude else magnitude)
  | _ => none

/-- The value with the other sign. -/
def neg : Binary64 → Binary64
  | .finite negative magnitude => .finite (!negative) magnitude
  | .infinite negative => .infinite (!negative)
  | .nan => .nan

/-- The rounded sum. A sum of zero is positive unless both operands are negative. -/
def add : Binary64 → Binary64 → Binary64
  | .nan, _ | _, .nan => .nan
  | .infinite a, .infinite b => if a = b then .infinite a else .nan
  | .infinite a, _ => .infinite a
  | _, .infinite b => .infinite b
  | .finite a x, .finite b y =>
    let sum : Rat := (if a then -x else x) + (if b then -y else y)
    if sum = 0 then .finite (a && b) 0 else ofRat sum

/-- The rounded difference. -/
def sub (x y : Binary64) : Binary64 :=
  x.add y.neg

/-- The rounded product. -/
def mul : Binary64 → Binary64 → Binary64
  | .nan, _ | _, .nan => .nan
  | .infinite a, .infinite b => .infinite (a != b)
  | .infinite a, .finite b y => if y = 0 then .nan else .infinite (a != b)
  | .finite a x, .infinite b => if x = 0 then .nan else .infinite (a != b)
  | .finite a x, .finite b y =>
    match ofRat (x * y) with
    | .finite _ magnitude => .finite (a != b) magnitude
    | .infinite _ => .infinite (a != b)
    | .nan => .nan

/-- Whether a value is less than another one; a NaN is never. -/
def lt : Binary64 → Binary64 → Bool
  | .nan, _ | _, .nan => false
  | .infinite a, .infinite b => a && !b
  | .infinite a, .finite _ _ => a
  | .finite _ _, .infinite b => !b
  | .finite a x, .finite b y => decide ((if a then -x else x) < (if b then -y else y))

/-- The whole number that a value is, if it is one. -/
def toInt? : Binary64 → Option Int
  | .finite negative magnitude =>
    if magnitude.den = 1 then some (if negative then -magnitude.num else magnitude.num) else none
  | _ => none

end Binary64

/-- Why a computation on numbers has no result. -/
inductive Fault where
  /-- An integer beyond the range of binary64 meets a binary64 value. -/
  | integerTooLarge
  /-- The quotient of two integers lies beyond the range of binary64. -/
  | quotientTooLarge
  /-- The floor of an infinity. -/
  | floorOfInfinity
  /-- The floor of a NaN. -/
  | floorOfNan
  deriving DecidableEq, Repr

/-- The wording of a fault. -/
def Fault.message : Fault → String
  | .integerTooLarge => "int too large to convert to float"
  | .quotientTooLarge => "integer division result too large for a float"
  | .floorOfInfinity => "cannot convert float infinity to integer"
  | .floorOfNan => "cannot convert float NaN to integer"

namespace Binary64

/-- The value nearest to an integer. -/
def ofInt (n : Int) : Except Fault Binary64 :=
  match ofInt? n with
  | some x => .ok x
  | none => .error .integerTooLarge

/-- The greatest integer that is at most a value. -/
def floor : Binary64 → Except Fault Int
  | .finite negative magnitude => .ok (if negative then -magnitude else magnitude).floor
  | .infinite _ => .error .floorOfInfinity
  | .nan => .error .floorOfNan

/-- The rounded quotient of an integer by a positive one. -/
def quotient (num den : Int) : Except Fault Binary64 :=
  match ofRat (num / den) with
  | .infinite _ => .error .quotientTooLarge
  | x => .ok x

end Binary64

end RepoAtlas.Number
