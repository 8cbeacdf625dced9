/-!
# `RepoAtlas.Source.Metrics`: counting in source text

Lines, markers of debt, and the test that tells whether a path looks like a test. All three look
for matches from left to right, and go on behind each match. Letters are compared without regard to
case, in the sense in which `ı` and `İ` are an `i` and `ſ` is an `s`.
-/

set_option autoImplicit false

namespace RepoAtlas.Source

/-- Adds the number of matches in a text. `matchFront` gives the length of the match at the front of
a text, if there is one; the first `skip` characters of the text belong to an earlier match. -/
def addMatches (matchFront : List Char → Option Nat) : (total skip : Nat) → List Char → Nat
  | total, _, [] => total
  | total, skip + 1, _ :: rest => addMatches matchFront total skip rest
  | total, 0, c :: rest =>
    match matchFront (c :: rest) with
    | some length => addMatches matchFront (total + 1) (length - 1) rest
    | none => addMatches matchFront total 0 rest

/-- The number of matches in a text. -/
def countMatches (matchFront : List Char → Option Nat) (text : List Char) : Nat :=
  addMatches matchFront 0 0 text

/-- The length of a line break at the front of a text: a line feed, or a carriage return and a line
feed. -/
def matchBreak : List Char → Option Nat
  | '\n' :: _ => some 1
  | '\r' :: '\n' :: _ => some 2
  | _ => none

/-- The number of lines: one more than there are breaks between them. -/
def countLines (text : List Char) : Nat :=
  countMatches matchBreak text + 1

/-- Whether a character is a form of an ASCII lower-case letter. -/
def isFormOf (letter c : Char) : Bool :=
  c.toLower = letter || (letter = 'i' && (c = 'ı' || c = 'İ')) || (letter = 's' && c = 'ſ')

/-- Whether a text starts with a word, given in ASCII lower case. -/
def startsWithWord : List Char → List Char → Bool
  | [], _ => true
  | _ :: _, [] => false
  | letter :: word, c :: text => isFormOf letter c && startsWithWord word text

/-- The length of the first of some words that a text starts with. -/
def matchWord (words : List (List Char)) (text : List Char) : Option Nat :=
  (words.find? (startsWithWord · text)).map List.length

/-- The number of words found in a text. -/
def countWords (words : List (List Char)) (text : List Char) : Nat :=
  countMatches (matchWord words) text

/-- The words that mark unfinished work. -/
def debtWords : List (List Char) := ["todo".toList, "fixme".toList]

/-- The number of markers of debt. -/
def countDebtMarkers (text : List Char) : Nat :=
  countWords debtWords text

/-- The words that a test's path holds. -/
def testWords : List (List Char) := ["test".toList, "spec".toList, "__tests__".toList]

/-- Whether a path looks like a test. -/
def looksLikeTest (path : String) : Bool :=
  0 < countWords testWords path.toList

end RepoAtlas.Source
