import RepoAtlas.Json.Basic
import RepoAtlas.Number.Shortest
import RepoAtlas.Text.Quoted

/-!
# `RepoAtlas.Json.Writer`: writing JSON

Values are written in pure ASCII, in one of two layouts: on one line with a blank after commas and
colons, or with every item and member on a line of its own, indented by two blanks a level. Empty
arrays and objects are written without anything between their brackets in both.
-/

set_option autoImplicit false

namespace RepoAtlas.Json

open RepoAtlas.Number RepoAtlas.Text

/-- A code unit as an escape. -/
def unitEscape (unit : Nat) : String := "\\u" ++ hexPadded 4 unit

/-- One character of a string as written. A character beyond the basic plane is a pair of halves. -/
def writeChar (c : Char) : String :=
  if c = '"' then "\\\""
  else if c = '\\' then "\\\\"
  else if c = '\n' then "\\n"
  else if c = '\r' then "\\r"
  else if c = '\t' then "\\t"
  else if c = '\x08' then "\\b"
  else if c = '\x0c' then "\\f"
  else if 0x20 ≤ c.toNat && c.toNat < 0x7F then String.singleton c
  else if c.toNat < 0x10000 then unitEscape c.toNat
  else
    let code := c.toNat - 0x10000
    unitEscape (0xD800 + code / 0x400) ++ unitEscape (0xDC00 + code % 0x400)

/-- One code point of a string as written. -/
def writePoint : CodePoint → String
  | .char c => writeChar c
  | .high half => unitEscape (0xD800 + half)
  | .low half => unitEscape (0xDC00 + half)

/-- A string between its quotes. -/
def writeString (text : CodeText) : String :=
  "\"" ++ String.join (text.points.map writePoint) ++ "\""

/-- Numbers are written with an exponent below `1e-04` and from `1e+16` on. -/
def numberLayout : Layout := ⟨-4, 15, "Infinity", "NaN"⟩

/-- How the parts of arrays and objects are set out. -/
inductive Style where
  /-- Everything on one line. -/
  | compact
  /-- One part on a line, two blanks a level. -/
  | indented

/-- What stands between an opening bracket and the first part, at a level. -/
def Style.break (style : Style) (level : Nat) : String :=
  match style with
  | .compact => ""
  | .indented => "\n" ++ String.ofList (List.replicate (2 * level) ' ')

/-- What stands between two parts. -/
def Style.comma (style : Style) (level : Nat) : String :=
  match style with
  | .compact => ", "
  | .indented => "," ++ style.break level

/-- Parts between brackets. -/
def Style.bracket (style : Style) (level : Nat) (opening closing : String)
    (parts : List String) : String :=
  if parts.isEmpty then opening ++ closing
  else
    opening ++ style.break (level + 1) ++ (style.comma (level + 1)).intercalate parts ++
      style.break level ++ closing

mutual

/-- A value as written at a level. -/
def writeAt (style : Style) (level : Nat) : Json → String
  | .null => "null"
  | .bool value => if value then "true" else "false"
  | .int value => toString value
  | .float value => numberLayout.render value
  | .str value => writeString value
  | .arr items => style.bracket level "[" "]" (writeItems style (level + 1) items)
  | .obj members => style.bracket level "\x7b" "\x7d" (writeMembers style (level + 1) members)

/-- The items of an array as written at a level. -/
def writeItems (style : Style) (level : Nat) : List Json → List String
  | [] => []
  | item :: rest => writeAt style level item :: writeItems style level rest

/-- The members of an object as written at a level. -/
def writeMembers (style : Style) (level : Nat) : List (CodeText × Json) → List String
  | [] => []
  | (name, value) :: rest =>
    (writeString name ++ ": " ++ writeAt style level value) :: writeMembers style level rest

end

/-- A value as text. -/
def write (style : Style) (value : Json) : String :=
  writeAt style 0 value

mutual

/-- Whether every integer of a value has few enough digits to be written. -/
def isWritable : Json → Bool
  | .int value => digitCount value.natAbs ≤ digitLimit
  | .arr items => areWritable items
  | .obj members => membersWritable members
  | _ => true

/-- Whether every item can be written. -/
def areWritable : List Json → Bool
  | [] => true
  | item :: rest => isWritable item && areWritable rest

/-- Whether every member can be written. -/
def membersWritable : List (CodeText × Json) → Bool
  | [] => true
  | (_, value) :: rest => isWritable value && membersWritable rest

end

end RepoAtlas.Json
