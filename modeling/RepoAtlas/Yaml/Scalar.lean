import RepoAtlas.Yaml.Token

/-!
# `RepoAtlas.Yaml.Scalar`: what a plain scalar means

A plain scalar is of the first kind whose spelling it has: truth value, floating-point number,
integer, merge key, null, timestamp, value key; any other plain scalar is a text. The spellings are
those of YAML 1.1, with octal, hexadecimal, binary and sexagesimal integers.
-/

set_option autoImplicit false

namespace RepoAtlas.Yaml

/-- The kinds of nodes. -/
inductive Tag where
  | null
  | bool
  | int
  | float
  | binary
  | timestamp
  | omap
  | pairs
  | set
  | str
  | seq
  | map
  | merge
  | value
  /-- Any other kind, for which no value can be built. -/
  | other
  deriving DecidableEq, Repr

/-- The kinds that YAML itself defines, with their names. -/
def Tag.core : List (String × Tag) :=
  [("null", .null), ("bool", .bool), ("int", .int), ("float", .float), ("binary", .binary),
   ("timestamp", .timestamp), ("omap", .omap), ("pairs", .pairs), ("set", .set), ("str", .str),
   ("seq", .seq), ("map", .map), ("merge", .merge), ("value", .value)]

/-- What the names of YAML's own kinds start with. -/
def coreStart : String := "tag:yaml.org,2002:"

/-- The kind with a full name. -/
def Tag.ofName (name : String) : Tag :=
  ((Tag.core.find? fun (short, _) => coreStart ++ short = name).map Prod.snd).getD .other

namespace Scalar

/-- A digit or an underscore. -/
def isDigitOrMark (c : Char) : Bool := c.isDigit || c = '_'

/-- A text without a sign at its front. -/
def dropSign : List Char → List Char
  | '-' :: rest | '+' :: rest => rest
  | text => text

/-- A text without a line feed at its end. -/
def dropFinalBreak (text : List Char) : List Char :=
  if text.getLast? = some '\n' then text.dropLast else text

/-- Spellings of truth values. -/
def boolWords : List String :=
  ["yes", "Yes", "YES", "no", "No", "NO", "true", "True", "TRUE", "false", "False", "FALSE", "on",
   "On", "ON", "off", "Off", "OFF"]

/-- Spellings of null. -/
def nullWords : List String := ["~", "null", "Null", "NULL", ""]

/-- The places of a sexagesimal number after its first: a digit, or two of which the first is
less than six. -/
def isSixty (place : List Char) : Bool :=
  match place with
  | [c] => c.isDigit
  | [a, b] => '0' ≤ a && a ≤ '5' && b.isDigit
  | _ => false

/-- A text cut at its colons. -/
def places (text : List Char) : List (List Char) :=
  text.splitOn ':'

/-- Whether a text spells an integer. -/
def isInt (text : List Char) : Bool :=
  match dropSign text with
  | '0' :: 'b' :: digits => !digits.isEmpty && digits.all fun c => c = '0' || c = '1' || c = '_'
  | '0' :: 'x' :: digits =>
    !digits.isEmpty && digits.all fun c =>
      isDigitOrMark c || ('a' ≤ c && c ≤ 'f') || ('A' ≤ c && c ≤ 'F')
  | ['0'] => true
  | '0' :: digits => digits.all fun c => ('0' ≤ c && c ≤ '7') || c = '_'
  | c :: rest =>
    c.isDigit &&
      match places rest with
      | [] => true
      | first :: others => first.all isDigitOrMark && others.all isSixty
  | [] => false

/-- Whether a text is nothing or an exponent with its sign. -/
def isExponent (text : List Char) : Bool :=
  match text with
  | [] => true
  | mark :: sign :: digits =>
    (mark = 'e' || mark = 'E') && (sign = '-' || sign = '+') && !digits.isEmpty &&
      digits.all Char.isDigit
  | _ => false

/-- Whether a text is a fraction, with or without an exponent. -/
def isFraction (text : List Char) : Bool :=
  isExponent (text.dropWhile isDigitOrMark)

/-- Whether a text spells a floating-point number. -/
def isFloat (text : List Char) : Bool :=
  let unsigned := dropSign text
  match unsigned with
  | '.' :: rest =>
    (text = unsigned && (rest.head?.any Char.isDigit) && isFraction rest) ||
      ["inf", "Inf", "INF"].contains (String.ofList rest) ||
      (text = unsigned && ["nan", "NaN", "NAN"].contains (String.ofList rest))
  | c :: _ =>
    c.isDigit &&
      let whole := unsigned.takeWhile (· ≠ '.')
      match unsigned.drop whole.length with
      | [] => false
      | _ :: fraction =>
        match places whole with
        | [first] => first.all isDigitOrMark && isFraction fraction
        | first :: others =>
          first.all isDigitOrMark && others.all isSixty && fraction.all isDigitOrMark
        | [] => false
  | [] => false

/-- A point in time as written. The lengths of month and day tell whether a date may stand
alone. -/
structure Stamp where
  year : Nat
  month : List Char
  day : List Char
  /-- Hour, minute and second, and the digits of the fraction. -/
  time : Option (Nat × Nat × Nat × List Char)
  /-- The offset from universal time: its sign, hours and minutes. -/
  offset : Option (Bool × Nat × Nat)

/-- The number that digits write. -/
def number (digits : List Char) : Nat :=
  digits.foldl (fun n c => 10 * n + (c.toNat - '0'.toNat)) 0

/-- Takes as many digits as there are, up to a number of them, but at least so many. -/
def takeDigits (least most : Nat) (text : List Char) : Option (List Char × List Char) :=
  let digits := (text.take most).takeWhile Char.isDigit
  if digits.length < least then none else some (digits, text.drop digits.length)

/-- Takes a character. -/
def takeChar (expected : Char) (text : List Char) : Option (List Char) :=
  match text with
  | c :: rest => if c = expected then some rest else none
  | [] => none

/-- Reads the offset from universal time at the end of a text. -/
def readOffset (text : List Char) : Option (Option (Bool × Nat × Nat)) :=
  match text.dropWhile fun c => c = ' ' || c = '\t' with
  | ['Z'] => some none
  | sign :: rest =>
    if sign = '+' || sign = '-' then do
      let (hours, rest) ← takeDigits 1 2 rest
      if rest.isEmpty then return some (sign = '-', number hours, 0)
      let rest ← takeChar ':' rest
      let (minutes, rest) ← takeDigits 2 2 rest
      if rest.isEmpty then return some (sign = '-', number hours, number minutes) else none
    else none
  | [] => if text.isEmpty then some none else none

/-- Reads a point in time. -/
def readStamp (text : List Char) : Option Stamp := do
  let (year, rest) ← takeDigits 4 4 text
  let rest ← takeChar '-' rest
  let (month, rest) ← takeDigits 1 2 rest
  let rest ← takeChar '-' rest
  let (day, rest) ← takeDigits 1 2 rest
  if rest.isEmpty then
    return ⟨number year, month, day, none, none⟩
  let rest ←
    match rest with
    | 'T' :: rest | 't' :: rest => some rest
    | c :: _ =>
      if c = ' ' || c = '\t' then some (rest.dropWhile fun c => c = ' ' || c = '\t') else none
    | [] => none
  let (hour, rest) ← takeDigits 1 2 rest
  let rest ← takeChar ':' rest
  let (minute, rest) ← takeDigits 2 2 rest
  let rest ← takeChar ':' rest
  let (second, rest) ← takeDigits 2 2 rest
  let (fraction, rest) :=
    match rest with
    | '.' :: rest => (rest.takeWhile Char.isDigit, rest.dropWhile Char.isDigit)
    | rest => ([], rest)
  let offset ← readOffset rest
  return ⟨number year, month, day, some (number hour, number minute, number second, fraction), offset⟩

/-- Whether a text spells a point in time: a date alone needs two digits for month and day. -/
def isTimestamp (text : List Char) : Bool :=
  match readStamp text with
  | some stamp => stamp.time.isSome || (stamp.month.length = 2 && stamp.day.length = 2)
  | none => false

/-- The kind of a plain scalar. -/
def plainTag (value : String) : Tag :=
  let text := dropFinalBreak value.toList
  let word := String.ofList text
  if boolWords.contains word then .bool
  else if isFloat text then .float
  else if isInt text then .int
  else if word = "<<" then .merge
  else if nullWords.contains word then .null
  else if isTimestamp text then .timestamp
  else if word = "=" then .value
  else if word = "!" || word = "&" || word = "*" then .other
  else .str

end Scalar

end RepoAtlas.Yaml
