import RepoAtlas.Number.Binary64

/-!
# `RepoAtlas.Number.Decimal`: reading decimal numbers

A decimal number is a whole significand and a power of ten. `toBinary64` gives the nearest
binary64 value. Exponents may be astronomically large, so a number that is certainly beyond the
range, or certainly below half the least magnitude, is decided by its order of magnitude alone.
-/

set_option autoImplicit false

namespace RepoAtlas.Number

/-- A signed decimal number `± significand * 10 ^ exponent`. -/
structure Decimal where
  negative : Bool
  significand : Nat
  exponent : Int
  deriving DecidableEq, Repr

/-- The value of a decimal digit. -/
def digitValue (c : Char) : Nat := c.toNat - '0'.toNat

/-- The number that ASCII digits write, most significant first. -/
def ofDigits (digits : List Char) : Nat :=
  digits.foldl (fun n c => 10 * n + digitValue c) 0

/-- The number of decimal digits. -/
def digitCount (n : Nat) : Nat := (Nat.toDigits 10 n).length

/-- The most decimal digits of an integer that is read or written. -/
def digitLimit : Nat := 4300

/-- The wording for an integer that exceeds the limit. -/
def digitLimitText (details : String) : String :=
  s!"Exceeds the limit ({digitLimit} digits) for integer string conversion{details}; " ++
    "use sys.set_int_max_str_digits() to increase the limit"

/-- The binary64 value nearest to a decimal number. -/
def Decimal.toBinary64 (d : Decimal) : Binary64 :=
  let order := d.exponent + digitCount d.significand
  if d.significand = 0 || order < -330 then .finite d.negative 0
  else if 310 < order then .infinite d.negative
  else
    match Binary64.ofRat ((d.significand : Rat) * (10 : Rat) ^ d.exponent) with
    | .finite _ magnitude => .finite d.negative magnitude
    | .infinite _ => .infinite d.negative
    | .nan => .nan

end RepoAtlas.Number
