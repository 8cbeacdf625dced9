import RepoAtlas.Text.Quoted

/-!
# `RepoAtlas.CodeText`: texts of code points

Side files can spell a character beyond the basic plane as a pair of halves, and nothing keeps them
from spelling one half alone. What they say is therefore a text of code points: characters, and
halves of pairs. Every text of characters is one, and the module's coercion takes it for one.

A first half directly before a second half is spelled like the character that the two stand for, so
a text of that kind is read back with the character in place of the halves; `joined` is what is read
back. A file never gives a text with such a pair in it.

Paths and the names in them are texts of characters. What a side file says is made one by escapes,
which start with U+0000: no name of a file holds it, so the system refuses an escape as it refuses
what it stands for.

* `ofString_inj`: texts of characters are told apart as they were.
* `shown`: what a message shows of a text.
* `toPath`, `ofPath`: a text as a path, and the text of a path.
-/

set_option autoImplicit false

namespace RepoAtlas

/-- A code point: a character, or the first or second half of a pair. Halves are numbered from the
first of their kind on. -/
inductive CodePoint where
  | char (c : Char)
  | high (half : Fin 0x400)
  | low (half : Fin 0x400)
  deriving DecidableEq, Repr

namespace CodePoint

/-- The character, if a code point is one. -/
def char? : CodePoint → Option Char
  | .char c => some c
  | _ => none

/-- The character of a pair of halves. -/
def ofPair (high low : Fin 0x400) : Char :=
  Char.ofNat (0x10000 + high * 0x400 + low)

/-- Whether a code is that of the first half of a pair. -/
def isHighHalf (code : Nat) : Bool := 0xD800 ≤ code && code < 0xDC00

/-- Whether a code is that of the second half of a pair. -/
def isLowHalf (code : Nat) : Bool := 0xDC00 ≤ code && code < 0xE000

/-- The code point with a code. -/
def ofCode (code : Nat) : CodePoint :=
  if isHighHalf code then .high (Fin.ofNat 0x400 (code - 0xD800))
  else if isLowHalf code then .low (Fin.ofNat 0x400 (code - 0xDC00))
  else .char (Char.ofNat code)

/-- The character whose halves have the two codes. -/
def ofCodes (high low : Nat) : CodePoint :=
  .char (ofPair (Fin.ofNat 0x400 (high - 0xD800)) (Fin.ofNat 0x400 (low - 0xDC00)))

end CodePoint

/-- A text of code points. -/
structure CodeText where
  points : List CodePoint
  deriving DecidableEq, Repr

namespace CodeText

/-- The text of a text of characters. -/
def ofString (text : String) : CodeText :=
  ⟨text.toList.map CodePoint.char⟩

instance : Coe String CodeText := ⟨ofString⟩

instance : Inhabited CodeText := ⟨⟨[]⟩⟩

instance : Append CodeText := ⟨fun text other => ⟨text.points ++ other.points⟩⟩

/-- The characters of a text without halves. -/
def toString? (text : CodeText) : Option String :=
  (text.points.mapM CodePoint.char?).map String.ofList

/-- A code point as a message shows it: halves are escapes. -/
def showPoint : CodePoint → List Char
  | .char c => [c]
  | .high half => ("\\u" ++ Text.hexPadded 4 (0xD800 + half)).toList
  | .low half => ("\\u" ++ Text.hexPadded 4 (0xDC00 + half)).toList

/-- A text as a message shows it. -/
def shown (text : CodeText) : String :=
  String.ofList (text.points.flatMap showPoint)

instance : ToString CodeText := ⟨shown⟩

/-- U+0000, which no name of a file holds. -/
def null : Char := Char.ofNat 0

/-- A code point in a path. What no name of a file holds is U+0000 with a character after it. -/
def escapePoint : CodePoint → List Char
  | .char c => if c = null then [null, null] else [c]
  | .high half => [null, Char.ofNat (0x100 + half)]
  | .low half => [null, Char.ofNat (0x500 + half)]

/-- A text as a path, or as a name in one. -/
def toPath (text : CodeText) : String :=
  String.ofList (text.points.flatMap escapePoint)

/-- The code point whose escape ends with a character. -/
def unescape (c : Char) : CodePoint :=
  if c.toNat < 0x100 then .char null
  else if c.toNat < 0x500 then .high (Fin.ofNat 0x400 (c.toNat - 0x100))
  else .low (Fin.ofNat 0x400 (c.toNat - 0x500))

/-- The code points in a path. -/
def pathPoints : List Char → List CodePoint
  | [] => []
  | [c] => [.char c]
  | c :: next :: rest =>
    if c = null then unescape next :: pathPoints rest else .char c :: pathPoints (next :: rest)

/-- The text of a path. -/
def ofPath (path : String) : CodeText :=
  ⟨pathPoints path.toList⟩

/-- A text as digits or as a word. A half can stand in neither, and no more can U+0000, which takes
its place. -/
def nulled (text : CodeText) : String :=
  String.ofList (text.points.map fun point => point.char?.getD null)

/-- Code points with characters in place of pairs of halves. -/
def joinPoints : List CodePoint → List CodePoint
  | .high high :: .low low :: rest => .char (CodePoint.ofPair high low) :: joinPoints rest
  | point :: rest => point :: joinPoints rest
  | [] => []

/-- A text with characters in place of pairs of halves. -/
def joined (text : CodeText) : CodeText :=
  ⟨joinPoints text.points⟩

/-- The points of a text are its characters. -/
@[simp] theorem points_ofString (text : String) :
    (ofString text).points = text.toList.map CodePoint.char :=
  rfl

/-- The points of two texts follow each other. -/
@[simp] theorem points_append (text other : CodeText) :
    (text ++ other).points = text.points ++ other.points := rfl

/-- A text is given by its points. -/
@[ext] theorem ext {text other : CodeText} (h : text.points = other.points) : text = other := by
  cases text
  cases other
  cases h
  rfl

/-- Texts of characters are told apart as they were. -/
@[simp] theorem ofString_inj {text other : String} :
    ofString text = ofString other ↔ text = other := by
  constructor
  · intro h
    have hpoints : text.toList.map CodePoint.char = other.toList.map CodePoint.char :=
      congrArg points h
    rw [← String.toList_inj]
    exact (List.map_inj_right fun _ _ => CodePoint.char.inj).mp hpoints
  · exact congrArg ofString

end CodeText

end RepoAtlas
