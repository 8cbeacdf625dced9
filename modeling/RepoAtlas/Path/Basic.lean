import RepoAtlas.Text.Case
import RepoAtlas.Text.Split

/-!
# `RepoAtlas.Path.Basic`: path texts

A path is a text in which slashes separate names. The normal form of an absolute path is what a
stack of names leaves: empty names and `.` push nothing, `..` pops the last name (nothing at the
top), every other name is pushed. A path that starts with exactly two slashes keeps both; any
other number of leading slashes counts as one.

Every path the atlas stores is in normal form, so containment can be decided on the texts
(`isWithin`).
-/

set_option autoImplicit false

namespace RepoAtlas.Path

open RepoAtlas.Text

/-- The names of a path between its slashes, empty ones included. -/
def segments (path : String) : List String :=
  (splitAt '/' path.toList).map String.ofList

/-- The names of a path: neither empty ones nor `.`. -/
def names (path : String) : List String :=
  (segments path).filter fun name => name ≠ "" && name ≠ "."

/-- Whether a path starts at the top directory. -/
def isAbsolute (path : String) : Bool :=
  path.toList.head? = some '/'

/-- One step of the stack of names, its last name first. -/
def push (stack : List String) (name : String) : List String :=
  if name = "" ∨ name = "." then stack
  else if name = ".." then stack.tail
  else name :: stack

/-- The names that the stack keeps, first name first. -/
def normalNames (path : String) : List String :=
  ((segments path).foldl push []).reverse

/-- The leading slashes that the normal form keeps. -/
def leadingSlashes (path : String) : String :=
  match path.toList with
  | '/' :: '/' :: '/' :: _ => "/"
  | '/' :: '/' :: _ => "//"
  | _ => "/"

/-- The absolute path with the given names. -/
def ofNames (names : List String) : String :=
  "/" ++ "/".intercalate names

/-- The normal form of an absolute path. A relative path is taken from the top directory. -/
def normalize (path : String) : String :=
  leadingSlashes path ++ "/".intercalate (normalNames path)

/-- Continues a path by another one; an absolute continuation replaces it. -/
def join (path continuation : String) : String :=
  if isAbsolute continuation then continuation
  else if path = "" || path.toList.getLast? = some '/' then path ++ continuation
  else path ++ "/" ++ continuation

/-- The normal form of a path, anchored at a directory unless it is absolute. -/
def resolveUnder (root path : String) : String :=
  if isAbsolute path then normalize path else normalize (join root path)

/-- A text without the slashes at its end. -/
def dropFinalSlashes (path : List Char) : List Char :=
  (path.reverse.dropWhile (· = '/')).reverse

/-- The part of a path before its last slash; only a path that is all slashes keeps them. -/
def directoryName (path : String) : String :=
  let head := (path.toList.reverse.dropWhile (· ≠ '/')).reverse
  if head.all (· = '/') then String.ofList head else String.ofList (dropFinalSlashes head)

/-- The part of a path after its last slash. -/
def baseName (path : String) : String :=
  String.ofList (path.toList.reverse.takeWhile (· ≠ '/')).reverse

/-- Whether a path is a root or lies under it, both in normal form. The root's own text must be
followed by a slash, so `/a/bc` does not lie under `/a/b`. -/
def isWithin (path root : String) : Bool :=
  path = root || (dropFinalSlashes root.toList ++ ['/']).isPrefixOf path.toList

/-- The last name of a path, empty when it has none. -/
def lastName (path : String) : String :=
  (names path).getLastD ""

/-- The part of a name from its last dot on, unless that dot is its first or last character. -/
def suffix (name : String) : String :=
  let reversed := name.toList.reverse
  let stem := reversed.dropWhile (· ≠ '.')
  let tail := reversed.takeWhile (· ≠ '.')
  if stem.length ≤ 1 || tail.isEmpty then "" else String.ofList ('.' :: tail.reverse)

/-- The extension of a path in lower case, with its dot. -/
def extensionOf (path : String) : String :=
  lower (suffix (lastName path))

/-- The extensions of source files. -/
def sourceExtensions : List String :=
  [".js", ".mjs", ".cjs", ".ts", ".tsx", ".jsx", ".json", ".vue", ".py"]

/-- Whether a path has one of the given extensions. -/
def isSource (path : String) (extensions : List String) : Bool :=
  extensions.contains (extensionOf path)

end RepoAtlas.Path
