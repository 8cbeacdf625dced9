/-!
# `RepoAtlas.Text.Ranges`: sets of characters given by ranges

A character class beyond ASCII is a list of inclusive ranges of code points. Classes are given
by two parts: a decision on the first 128 code points, which proofs can evaluate cheaply, and a
table for the rest.
-/

set_option autoImplicit false

namespace RepoAtlas.Text

/-- Inclusive ranges of code points. -/
abbrev Ranges := List (Nat × Nat)

/-- Whether a code point lies in one of the ranges. -/
def Ranges.contains (ranges : Ranges) (code : Nat) : Bool :=
  ranges.any fun range => range.1 ≤ code && code ≤ range.2

/-- Whether a character is of a class, given on ASCII by a test and beyond it by ranges. -/
def inClass (ascii : Char → Bool) (beyond : Ranges) (c : Char) : Bool :=
  if c.toNat < 128 then ascii c else beyond.contains c.toNat

end RepoAtlas.Text
