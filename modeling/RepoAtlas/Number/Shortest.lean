import RepoAtlas.Number.Decimal

/-!
# `RepoAtlas.Number.Shortest`: the shortest decimal text of a binary64 value

A finite value is written with the fewest significant digits that read back as the same value;
among those, with the ones nearest to it. For each number of digits only the two neighbours of the
value on that decimal grid can read back. `Layout` holds what a text format decides beyond that:
the range of exponents written positionally.
-/

set_option autoImplicit false

namespace RepoAtlas.Number

/-- The greatest `e` with `10 ^ e ≤ q`, for positive `q`, searched from a first guess. -/
def floorLog10 (q : Rat) : Int :=
  let guess : Int := (floorLog2 q) * 30103 / 100000
  if (10 : Rat) ^ (guess + 1) ≤ q then guess + 1
  else if (10 : Rat) ^ guess ≤ q then guess
  else guess - 1

/-- The neighbours of a positive value on the grid of decimals with `count` digits that read back
as the value, the nearer one first; a tie goes to the even one. -/
def readBack (q : Rat) (count : Nat) : List (Nat × Int) :=
  let scale := floorLog10 q - ((count : Int) - 1)
  let scaled := q / (10 : Rat) ^ scale
  let low := scaled.floor.toNat
  let distance := scaled - (low : Rat)
  let ordered :=
    if distance < 1 - distance || (distance = 1 - distance && low % 2 = 0) then [low, low + 1]
    else [low + 1, low]
  (ordered.map fun n => (n, scale)).filter fun (n, scale) =>
    Binary64.ofRat ((n : Rat) * (10 : Rat) ^ scale) = .finite false q

/-- The shortest decimal that reads back as a positive value: its digits and its scale. -/
def shortest (q : Rat) : Nat × Int :=
  ((List.range 17).findSome? fun i => (readBack q (i + 1)).head?).getD (0, 0)

/-- The digits of a significand without zeros at the end, and the scale that goes with them. -/
def trimZeros (digits : List Char) (scale : Int) : List Char × Int :=
  let trimmed := (digits.reverse.dropWhile (· = '0')).reverse
  (trimmed, scale + ((digits.length - trimmed.length : Nat) : Int))

/-- What a decimal format decides: the decimal exponents of the first digit that are written
positionally, and the texts of the values that are not finite. -/
structure Layout where
  leastPositional : Int
  greatestPositional : Int
  infinity : String
  nan : String

/-- The text of a positive magnitude. A positional text has a digit on both sides of its point; an
exponent has a sign and two digits at least. -/
def Layout.magnitude (layout : Layout) (q : Rat) : String :=
  let (significand, scale) := shortest q
  let (digits, scale) := trimZeros (Nat.toDigits 10 significand) scale
  let exponent := scale + (digits.length : Int) - 1
  if layout.leastPositional ≤ exponent && exponent ≤ layout.greatestPositional then
    if 0 ≤ scale then
      String.ofList (digits ++ List.replicate scale.toNat '0') ++ ".0"
    else if 0 ≤ exponent then
      String.ofList (digits.take (exponent.toNat + 1)) ++ "." ++
        String.ofList (digits.drop (exponent.toNat + 1))
    else
      "0." ++ String.ofList (List.replicate (-exponent - 1).toNat '0' ++ digits)
  else
    let mark := match digits with
      | [] => ""
      | [d] => String.singleton d
      | d :: rest => String.ofList (d :: '.' :: rest)
    let size := Nat.toDigits 10 exponent.natAbs
    mark ++ (if exponent < 0 then "e-" else "e+") ++
      String.ofList (List.replicate (2 - size.length) '0' ++ size)

/-- The text of a value. -/
def Layout.render (layout : Layout) : Binary64 → String
  | .nan => layout.nan
  | .infinite negative => (if negative then "-" else "") ++ layout.infinity
  | .finite negative q =>
    (if negative then "-" else "") ++ if q = 0 then "0.0" else layout.magnitude q

end RepoAtlas.Number
