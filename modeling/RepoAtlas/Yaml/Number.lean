import RepoAtlas.Number.Decimal
import RepoAtlas.Text.Digit
import RepoAtlas.Yaml.Token

/-!
# `RepoAtlas.Yaml.Number`: the values of numbers

Underscores between digits mean nothing. Integers may be binary, octal, hexadecimal or sexagesimal;
sexagesimal floating-point numbers are summed up in binary64 arithmetic from the last place on.
A text that is tagged as a number need not be one.
-/

set_option autoImplicit false

namespace RepoAtlas.Yaml

open RepoAtlas.Number

/-- A text without its underscores. -/
def dropMarks (text : List Char) : List Char :=
  text.filter (· ≠ '_')

/-- A sign at the front of a text and the rest: whether it is negative. -/
def splitSign : List Char → Bool × List Char
  | '-' :: rest => (true, rest)
  | '+' :: rest => (false, rest)
  | text => (false, text)

/-- The blanks that may stand around a number: spaces, tabs and the breaks of lines and pages. -/
def isNumberBlank (c : Char) : Bool :=
  c = ' ' || (9 ≤ c.toNat && c.toNat ≤ 13)

/-- A number's text with ASCII digits and without the blanks around it. -/
def numeral (text : List Char) : List Char :=
  (((text.map Text.toAsciiDigit).dropWhile isNumberBlank).reverse.dropWhile isNumberBlank).reverse

/-- The value of a digit in a base. -/
def digitIn? (base : Nat) (c : Char) : Option Nat :=
  let value :=
    if c.isDigit then c.toNat - '0'.toNat
    else if c.isAlpha then c.toLower.toNat - 'a'.toNat + 10
    else base
  if value < base then some value else none

/-- A text without the letter that announces its base. -/
def dropBaseMark (base : Nat) : List Char → List Char
  | '0' :: letter :: digits =>
    let marked : Bool := match base with
      | 2 => letter.toLower == 'b'
      | 8 => letter.toLower == 'o'
      | 16 => letter.toLower == 'x'
      | _ => false
    if marked then digits else '0' :: letter :: digits
  | text => text

/-- Reads an integer in a base: blanks around it, a sign, the mark of its base, digits. A decimal
one has a limited number of digits. -/
def readInteger (base : Nat) (text : List Char) : Except Fault Int :=
  let (negative, unsigned) := splitSign (numeral text)
  let digits := dropBaseMark base unsigned
  match digits.mapM (digitIn? base) with
  | none => .error (.badInteger base (String.ofList text))
  | some values =>
    if values.isEmpty then .error (.badInteger base (String.ofList text))
    else if base = 10 && digitLimit < values.length then .error (.integerTooLong values.length)
    else
      let size : Int := (values.foldl (fun n digit => base * n + digit) 0 : Nat)
      .ok (if negative then -size else size)

/-- The value of a text tagged as an integer. -/
def integerValue (text : String) : Except Fault Int := do
  let marked := dropMarks text.toList
  if marked.isEmpty then
    throw .emptyNumber
  let (negative, digits) := splitSign marked
  let size ← match digits with
    | [] => throw .emptyNumber
    | ['0'] => pure 0
    | '0' :: 'b' :: rest => readInteger 2 rest
    | '0' :: 'x' :: rest => readInteger 16 rest
    | '0' :: _ => readInteger 8 digits
    | _ =>
      if digits.contains ':' then do
        let places ← (digits.splitOn ':').mapM (readInteger 10)
        pure (places.foldl (fun total place => 60 * total + place) 0)
      else readInteger 10 digits
  return if negative then -size else size

/-- Reads digits with an optional point among them: the digits and how many follow the point. -/
def readPoint (text : List Char) : Option (List Char × Nat × List Char) :=
  let whole := text.takeWhile Char.isDigit
  match text.drop whole.length with
  | '.' :: rest =>
    let fraction := rest.takeWhile Char.isDigit
    if whole.isEmpty && fraction.isEmpty then none
    else some (whole ++ fraction, fraction.length, rest.drop fraction.length)
  | rest => if whole.isEmpty then none else some (whole, 0, rest)

/-- Reads an exponent that ends a text; nothing is the exponent zero. -/
def readExponent (text : List Char) : Option Int :=
  match text with
  | [] => some 0
  | mark :: rest =>
    if mark = 'e' || mark = 'E' then
      let (negative, digits) := splitSign rest
      if !digits.isEmpty && digits.all Char.isDigit then
        let size : Int := ofDigits digits
        some (if negative then -size else size)
      else none
    else none

/-- Reads a floating-point number: blanks around it, a sign, and a decimal number, an infinity or
a NaN. -/
def readFloat (text : List Char) : Except Fault Binary64 :=
  let (negative, unsigned) := splitSign (numeral text)
  let word := String.ofList (unsigned.map Char.toLower)
  if word = "inf" || word = "infinity" then .ok (.infinite negative)
  else if word = "nan" then .ok .nan
  else
    match readPoint unsigned with
    | none => .error (.badFloat (String.ofList text))
    | some (digits, places, rest) =>
      match readExponent rest with
      | none => .error (.badFloat (String.ofList text))
      | some exponent =>
        .ok (Decimal.toBinary64 ⟨negative, ofDigits digits, exponent - places⟩)

/-- Adds up the places of a sexagesimal number, last one first. -/
def addPlaces : List Binary64 → Int → Binary64 → Except Fault Binary64
  | [], _, total => .ok total
  | place :: places, base, total =>
    match Binary64.ofInt? base with
    | none => .error .baseTooLarge
    | some factor => addPlaces places (base * 60) (total.add (place.mul factor))

/-- The value of a text tagged as a floating-point number, given in lower case. -/
def floatValue (lowered : String) : Except Fault Binary64 := do
  let marked := dropMarks lowered.toList
  if marked.isEmpty then
    throw .emptyNumber
  let (negative, digits) := splitSign marked
  let word := String.ofList digits
  let size ←
    if word = ".inf" then pure (.infinite false)
    else if word = ".nan" then return .nan
    else if digits.contains ':' then do
      let places ← (digits.splitOn ':').mapM readFloat
      addPlaces places.reverse 1 (.finite false 0)
    else readFloat digits
  return if negative then size.neg else size

end RepoAtlas.Yaml
