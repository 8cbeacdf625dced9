import RepoAtlas.Json.Basic
import RepoAtlas.Keyed
import RepoAtlas.Number.Decimal

/-!
# `RepoAtlas.Json.Reader`: reading JSON

A reader of JSON texts. Besides the standard's grammar it takes `NaN`, `Infinity` and `-Infinity`
for numbers. It refuses, with the offset of the first character at fault, everything else:
control characters inside strings, commas before a closing bracket, anything after the value, a
byte order mark. Integers have at most 4300 digits and values nest at most 900 deep; both limits
are errors of their own, since they do not make a text malformed.
-/

set_option autoImplicit false

namespace RepoAtlas.Json

open RepoAtlas.Number
open CodePoint (isHighHalf isLowHalf ofCode ofCodes)

/-- What a malformed text lacks or has too much of. -/
inductive Flaw where
  | value
  | propertyName
  | colon
  | comma
  | unterminated
  | control
  | escape
  | unicodeEscape
  | extra
  | byteOrderMark
  deriving DecidableEq, Repr

/-- The wording of a flaw. -/
def Flaw.message : Flaw → String
  | .value => "Expecting value"
  | .propertyName => "Expecting property name enclosed in double quotes"
  | .colon => "Expecting ':' delimiter"
  | .comma => "Expecting ',' delimiter"
  | .unterminated => "Unterminated string starting at"
  | .control => "Invalid control character at"
  | .escape => "Invalid \\escape"
  | .unicodeEscape => "Invalid \\uXXXX escape"
  | .extra => "Extra data"
  | .byteOrderMark => "Unexpected UTF-8 BOM (decode using utf-8-sig)"

/-- Why a text has no value. -/
inductive ReadError where
  /-- The text is no JSON from this offset on. -/
  | malformed (flaw : Flaw) (offset : Nat)
  /-- An integer has too many digits. -/
  | integerTooLong (digits : Nat)
  /-- Values nest too deep. -/
  | tooDeep
  deriving DecidableEq, Repr

/-- The deepest nesting. -/
def maxDepth : Nat := 900

/-- A place in a text: the offset and the text from there on. -/
structure Place where
  offset : Nat
  rest : List Char

/-- The place after the first `n` characters. -/
def Place.drop (place : Place) (n : Nat) : Place :=
  ⟨place.offset + n, place.rest.drop n⟩

/-- The blanks between tokens. -/
def isBlank (c : Char) : Bool :=
  c = ' ' || c = '\t' || c = '\n' || c = '\r'

/-- The next place that holds no blank. -/
def Place.skipBlanks (place : Place) : Place :=
  place.drop (place.rest.takeWhile isBlank).length

/-- A text has a value at a place, after which reading goes on, or an error. -/
abbrev Reading (α : Type) := Except ReadError (α × Place)

/-- The value of four hexadecimal digits. -/
def hexValue? (digits : List Char) : Option Nat :=
  digits.foldl (fun value c => do
    let value ← value
    let digit ←
      if c.isDigit then some (c.toNat - '0'.toNat)
      else if 'a' ≤ c && c ≤ 'f' then some (c.toNat - 'a'.toNat + 10)
      else if 'A' ≤ c && c ≤ 'F' then some (c.toNat - 'A'.toNat + 10)
      else none
    return 16 * value + digit) (some 0)

/-- The character that a letter after a backslash stands for. -/
def escaped? : Char → Option Char
  | '"' => some '"'
  | '\\' => some '\\'
  | '/' => some '/'
  | 'b' => some '\x08'
  | 'f' => some '\x0c'
  | 'n' => some '\n'
  | 'r' => some '\r'
  | 't' => some '\t'
  | _ => none

/-- The code unit written by the four digits after `\u`; a further character must follow them. -/
def codeUnit? (rest : List Char) : Option Nat :=
  if rest.length < 5 then none else hexValue? (rest.take 4)

/-- Reads the code points of a string up to its closing quote, given those read so far, last first,
and the number of characters that an escape has used up already. -/
def readCharacters (opening : Nat) :
    List CodePoint → Nat → Nat → List Char → Reading CodeText
  | _, _, _, [] => .error (.malformed .unterminated opening)
  | done, offset, skip + 1, _ :: rest => readCharacters opening done (offset + 1) skip rest
  | done, offset, 0, c :: rest =>
    if c = '"' then .ok (⟨done.reverse⟩, ⟨offset + 1, rest⟩)
    else if c = '\\' then
      match rest with
      | [] => .error (.malformed .unterminated opening)
      | 'u' :: digits =>
        match codeUnit? (digits.take 5) with
        | none => .error (.malformed .unicodeEscape (offset + 1))
        | some high =>
          if isHighHalf high && (digits.drop 4).take 2 = ['\\', 'u'] &&
              6 < ((digits.drop 4).take 7).length then
            match codeUnit? ((digits.drop 6).take 5) with
            | none => .error (.malformed .unicodeEscape (offset + 7))
            | some low =>
              if isLowHalf low then
                readCharacters opening (ofCodes high low :: done) (offset + 1) 11 rest
              else readCharacters opening (ofCode high :: done) (offset + 1) 5 rest
          else readCharacters opening (ofCode high :: done) (offset + 1) 5 rest
      | letter :: _ =>
        match escaped? letter with
        | some meant => readCharacters opening (.char meant :: done) (offset + 1) 1 rest
        | none => .error (.malformed .escape offset)
    else if c.toNat < 0x20 then .error (.malformed .control offset)
    else readCharacters opening (.char c :: done) (offset + 1) 0 rest

/-- Reads a string from its opening quote on. -/
def readString (place : Place) : Reading CodeText :=
  readCharacters place.offset [] (place.offset + 1) 0 (place.rest.drop 1)

/-- The digits at the front of a text. -/
def leadingDigits (text : List Char) : List Char :=
  text.takeWhile Char.isDigit

/-- The fraction at the front of a text: a point and at least one digit. -/
def fraction (text : List Char) : List Char :=
  match text with
  | '.' :: rest => leadingDigits rest
  | _ => []

/-- The exponent at the front of a text with its length; no exponent has length zero. -/
def exponent (text : List Char) : Int × Nat :=
  match text with
  | c :: rest =>
    if c = 'e' || c = 'E' then
      let (negative, signs, rest) := match rest with
        | '-' :: rest => (true, 1, rest)
        | '+' :: rest => (false, 1, rest)
        | rest => (false, 0, rest)
      let digits := leadingDigits rest
      if digits.isEmpty then (0, 0)
      else
        let size : Int := ofDigits digits
        (if negative then -size else size, 1 + signs + digits.length)
    else (0, 0)
  | [] => (0, 0)

/-- Reads a number. -/
def readNumber (place : Place) : Reading Json :=
  let negative := place.rest.head? = some '-'
  let unsigned := if negative then place.drop 1 else place
  let whole := match unsigned.rest with
    | '0' :: _ => ['0']
    | rest => leadingDigits rest
  if whole.isEmpty then .error (.malformed .value place.offset)
  else
    let afterWhole := unsigned.drop whole.length
    let decimals := fraction afterWhole.rest
    let afterDecimals :=
      if decimals.isEmpty then afterWhole else afterWhole.drop (decimals.length + 1)
    let (power, powerLength) := exponent afterDecimals.rest
    if decimals.isEmpty && powerLength = 0 then
      if digitLimit < whole.length then .error (.integerTooLong whole.length)
      else
        let size : Int := ofDigits whole
        .ok (.int (if negative then -size else size), afterWhole)
    else
      let value : Decimal := ⟨negative, ofDigits (whole ++ decimals), power - decimals.length⟩
      .ok (.float value.toBinary64, afterDecimals.drop powerLength)

/-- Values written as words. -/
def words : List (String × Json) :=
  [("null", .null), ("true", .bool true), ("false", .bool false), ("NaN", .float .nan),
   ("Infinity", .float (.infinite false)), ("-Infinity", .float (.infinite true))]

/-- Reads a value that is neither string, array nor object. -/
def readAtom (place : Place) : Reading Json :=
  match words.find? fun (word, _) => word.toList.isPrefixOf place.rest with
  | some (word, value) => .ok (value, place.drop word.length)
  | none => readNumber place

/-- The character at a place. -/
def Place.head? (place : Place) : Option Char := place.rest.head?

mutual

/-- Reads a value, inside which values may nest `room` deep. -/
def readValue : (fuel room : Nat) → Place → Except ReadError (Json × Place)
  | 0, _, _ => .error .tooDeep
  | fuel + 1, room, place =>
    match place.head? with
    | some '"' => (readString place).map fun (text, after) => (.str text, after)
    | some '[' =>
      match room with
      | 0 => .error .tooDeep
      | room + 1 =>
        let inside := (place.drop 1).skipBlanks
        if inside.head? = some ']' then .ok (.arr [], inside.drop 1)
        else readItems fuel room [] inside
    | some '\x7b' =>
      match room with
      | 0 => .error .tooDeep
      | room + 1 =>
        let inside := (place.drop 1).skipBlanks
        if inside.head? = some '\x7d' then .ok (.obj [], inside.drop 1)
        else readMembers fuel room [] inside
    | _ => readAtom place

/-- Reads the items of an array, given those read so far, last first. -/
def readItems : (fuel room : Nat) → List Json → Place → Except ReadError (Json × Place)
  | 0, _, _, _ => .error .tooDeep
  | fuel + 1, room, done, place => do
    let (item, after) ← readValue fuel room place
    let after := after.skipBlanks
    match after.head? with
    | some ']' => return (.arr (item :: done).reverse, after.drop 1)
    | some ',' => readItems fuel room (item :: done) (after.drop 1).skipBlanks
    | _ => throw (.malformed .comma after.offset)

/-- Reads the members of an object, given those read so far. -/
def readMembers :
    (fuel room : Nat) → List (CodeText × Json) → Place → Except ReadError (Json × Place)
  | 0, _, _, _ => .error .tooDeep
  | fuel + 1, room, done, place => do
    if place.head? ≠ some '"' then
      throw (.malformed .propertyName place.offset)
    let (name, after) ← readString place
    let after := after.skipBlanks
    if after.head? ≠ some ':' then
      throw (.malformed .colon after.offset)
    let (value, after) ← readValue fuel room (after.drop 1).skipBlanks
    let after := after.skipBlanks
    let members := Keyed.set name value done
    match after.head? with
    | some '\x7d' => return (.obj members, after.drop 1)
    | some ',' => readMembers fuel room members (after.drop 1).skipBlanks
    | _ => throw (.malformed .comma after.offset)

end

/-- The value of a JSON text. Each call either takes a character or hands on to one that does, so
twice the length of the text bounds the calls. -/
def read (text : List Char) : Except ReadError Json := do
  if text.head? = some (Char.ofNat 0xFEFF) then
    throw (.malformed .byteOrderMark 0)
  let (value, after) ←
    readValue (2 * text.length + 2) maxDepth (Place.skipBlanks ⟨0, text⟩)
  let after := after.skipBlanks
  if after.rest.isEmpty then return value
  else throw (.malformed .extra after.offset)

/-- The line and the column of an offset, both counted from one. -/
def lineAndColumn (text : List Char) (offset : Nat) : Nat × Nat :=
  let before := text.take offset
  (before.count '\n' + 1, (before.reverse.takeWhile (· ≠ '\n')).length + 1)

/-- The wording of a read error. -/
def ReadError.message (text : List Char) : ReadError → String
  | .malformed flaw offset =>
    let (line, column) := lineAndColumn text offset
    s!"{flaw.message}: line {line} column {column} (char {offset})"
  | .integerTooLong digits =>
    digitLimitText s!": value has {digits} digits"
  | .tooDeep => "maximum recursion depth exceeded"

end RepoAtlas.Json
