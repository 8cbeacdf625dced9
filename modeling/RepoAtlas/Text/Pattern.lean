/-!
# `RepoAtlas.Text.Pattern`: patterns of character classes

A pattern is a sequence of pieces, each asking for one character of a class or allowing any number
of them. `Pattern.Matches` says which texts a pattern describes. A text is run through a pattern
one character at a time: `Live` marks the places of the pattern that the text read so far can have
reached, so running takes one step per character however the pieces overlap.
-/

set_option autoImplicit false

namespace RepoAtlas.Text

/-- A piece of a pattern. -/
inductive Piece where
  /-- One character of the class. -/
  | one (ofClass : Char → Bool)
  /-- Any number of characters of the class. -/
  | many (ofClass : Char → Bool)

/-- Pieces in sequence. -/
abbrev Pattern := List Piece

namespace Pattern

/-- The pieces of at least one character of a class. -/
def atLeastOne (ofClass : Char → Bool) : Pattern := [.one ofClass, .many ofClass]

/-- The pieces of a fixed text. -/
def literal (text : String) : Pattern :=
  text.toList.map fun c => .one (· = c)

/-- The texts that a pattern describes. -/
inductive Matches : Pattern → List Char → Prop where
  | nil : Matches [] []
  | one {p : Char → Bool} {rest : Pattern} {c : Char} {text : List Char} :
      p c → Matches rest text → Matches (.one p :: rest) (c :: text)
  | skip {p : Char → Bool} {rest : Pattern} {text : List Char} :
      Matches rest text → Matches (.many p :: rest) text
  | more {p : Char → Bool} {rest : Pattern} {c : Char} {text : List Char} :
      p c → Matches (.many p :: rest) text → Matches (.many p :: rest) (c :: text)

/-- For each place of a pattern, and last for its end, whether the text read so far can have
reached it. -/
abbrev Live := List Bool

/-- The places reached before any text, given whether the first one is. -/
def start (reached : Bool) : Pattern → Live
  | [] => [reached]
  | .one _ :: rest => reached :: start false rest
  | .many _ :: rest => reached :: start reached rest

/-- The places reached after one more character, given whether the first place is reached from
the left. -/
def step (c : Char) (reached : Bool) : Pattern → Live → Live
  | .one p :: rest, live :: lives =>
    reached :: step c (live && p c) rest lives
  | .many p :: rest, live :: lives =>
    let here := reached || (live && p c)
    here :: step c here rest lives
  | _, _ => [reached]

/-- Whether the whole pattern has been read. -/
def accepting (live : Live) : Bool :=
  live.getLastD false

/-- Whether some place is reached at all. -/
def alive (live : Live) : Bool :=
  live.any id

end Pattern

end RepoAtlas.Text
