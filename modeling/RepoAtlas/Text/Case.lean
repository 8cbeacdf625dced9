import RepoAtlas.Text.Case.Rows

/-!
# `RepoAtlas.Text.Case`: upper and lower case

Full case mappings in any script. Lowering a text is not character by character: a capital sigma
at the end of a word becomes the final form `ς`, elsewhere `σ`, so `lower` looks at what stands
before and after.
-/

set_option autoImplicit false

namespace RepoAtlas.Text

/-- Cased characters that are not passed over. -/
def isCased (c : Char) : Bool :=
  inClass Char.isAlpha wideCased c

/-- Characters that are passed over when looking for a cased neighbour. -/
def isCaseIgnorable (c : Char) : Bool :=
  caseIgnorable.contains c.toNat

/-- The lower-case form of one character, the capital sigma taken as medial. -/
def lowerChar (c : Char) : List Char :=
  if c.toNat < 128 then [c.toLower]
  else if c.toNat = 0x130 then ['i', Char.ofNat 0x307]
  else [Char.ofNat ((lowerRows.image? c.toNat).getD c.toNat)]

/-- The upper-case form of one character. -/
def upperChar (c : Char) : List Char :=
  if c.toNat < 128 then [c.toUpper]
  else match upperSequences.lookup c.toNat with
    | some codes => codes.map Char.ofNat
    | none => [Char.ofNat ((upperRows.image? c.toNat).getD c.toNat)]

/-- Whether the nearest character that is not passed over is cased. -/
def meetsCased (text : List Char) : Bool :=
  match text.dropWhile isCaseIgnorable with
  | [] => false
  | c :: _ => isCased c

/-- Lowers a text, given the text before it in reverse. -/
def lowerAfter (before : List Char) : List Char → List Char
  | [] => []
  | c :: rest =>
    let image :=
      if c = 'Σ' then
        if meetsCased before && !meetsCased rest then ['ς'] else ['σ']
      else lowerChar c
    image ++ lowerAfter (c :: before) rest

/-- The lower-case form of a text. -/
def lower (text : String) : String :=
  String.ofList (lowerAfter [] text.toList)

end RepoAtlas.Text
