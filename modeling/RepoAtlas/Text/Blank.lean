import RepoAtlas.Text.Ranges

/-!
# `RepoAtlas.Text.Blank`: white space

Blanks are the characters of Unicode's bidirectional types `WS`, `B` and `S` and the space
separators, which is what scanners of source text and of settings skip.
-/

set_option autoImplicit false

namespace RepoAtlas.Text

/-- The blanks among the first 128 characters. -/
def isAsciiBlank (c : Char) : Bool :=
  c = ' ' || (9 ≤ c.toNat && c.toNat ≤ 13) || (28 ≤ c.toNat && c.toNat ≤ 31)

/-- The blanks beyond ASCII. -/
def wideBlanks : Ranges :=
  [(0x85, 0x85), (0xa0, 0xa0), (0x1680, 0x1680), (0x2000, 0x200a), (0x2028, 0x2029), (0x202f, 0x202f),
   (0x205f, 0x205f), (0x3000, 0x3000)]

/-- White space of any script. -/
def isBlank (c : Char) : Bool :=
  inClass isAsciiBlank wideBlanks c

/-- A text without the blanks at its two ends. -/
def strip (text : List Char) : List Char :=
  ((text.dropWhile isBlank).reverse.dropWhile isBlank).reverse

end RepoAtlas.Text
