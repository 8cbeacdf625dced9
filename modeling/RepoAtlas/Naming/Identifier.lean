import RepoAtlas.Text.Case
import RepoAtlas.Text.Word

/-!
# `RepoAtlas.Naming.Identifier`: identifiers and titles from names

A module is known by an identifier made of lower-case ASCII letters, digits, underscores and
single hyphens, and shown by a title. Both are computed from an arbitrary name: `sanitize` gives
the identifier, `humanize` the title.
-/

set_option autoImplicit false

namespace RepoAtlas.Naming

open RepoAtlas.Text

/-- Characters that an identifier takes over: ASCII letters, digits, hyphen and underscore. -/
def isIdentifierChar (c : Char) : Bool :=
  c.isAlphanum || c = '_' || c = '-'

/-- Puts a hyphen for every character that an identifier does not take over. -/
def hyphenate (name : List Char) : List Char :=
  name.map fun c => if isIdentifierChar c then c else '-'

/-- Replaces each run of hyphens by one hyphen. -/
def collapseHyphens : List Char → List Char
  | [] => []
  | c :: rest =>
    if c = '-' ∧ rest.head? = some '-' then collapseHyphens rest else c :: collapseHyphens rest

/-- The identifier of a name. -/
def sanitize (name : String) : String :=
  String.ofList ((collapseHyphens (hyphenate name.toList)).map Char.toLower)

/-- Raises the first character of each word, given whether the character before belongs to a
word. -/
def raiseWords (inWord : Bool) : List Char → List Char
  | [] => []
  | c :: rest =>
    if isWord c then
      (if inWord then [c] else upperChar c) ++ raiseWords true rest
    else
      c :: raiseWords false rest

/-- The title of a name: hyphens and underscores become spaces, words start with a capital. -/
def humanize (name : String) : String :=
  String.ofList <| raiseWords false <|
    name.toList.map fun c => if c = '-' || c = '_' then ' ' else c

end RepoAtlas.Naming
