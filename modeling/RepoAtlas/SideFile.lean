import RepoAtlas.Json.Reader
import RepoAtlas.Path.Spelling
import RepoAtlas.Traced
import RepoAtlas.Tree.Text

/-!
# `RepoAtlas.SideFile`: data that stands beside the code

Side files are JSON. A side file that is missing says nothing, and neither does one that cannot be
read, which is noted in detail. Integers and nesting beyond the limits of the reader are the only
contents that make a request fail.
-/

set_option autoImplicit false

namespace RepoAtlas.SideFile

/-- What reading a side file leads to. -/
inductive Reading where
  | missing
  | unreadable (reason : String)
  | content (value : Json)

/-- Reads one side file. -/
def read (tree : Tree) (path : String) : Except Failure Reading :=
  if Path.hasNull path then .error .nullInPath
  else
    match tree.readText path with
    | .error (.system .notFound) => .ok .missing
    | .error fault => .ok (.unreadable (fault.message path))
    | .ok text =>
      match Json.read text with
      | .ok value => .ok (.content value)
      | .error (.integerTooLong digits) => .error (.integerTooLong digits)
      | .error .tooDeep => .error .tooDeep
      | .error fault => .ok (.unreadable (fault.message text))

/-- The value of the first of several side files that says anything, null being nothing. -/
def first (tree : Tree) (root : String) : List String → Traced (Option Json)
  | [] => Traced.ok none
  | place :: places => do
    let path := Path.below root place
    match ← Traced.ofExcept (read tree path) with
    | .content .null | .missing => first tree root places
    | .content value => return some value
    | .unreadable reason =>
      Traced.note .debug .overrides s!"Ignoring unreadable side file {path}: {reason}"
      first tree root places

/-- The texts in an array that are not empty. -/
def texts (value : Option Json) : List CodeText :=
  match value with
  | some (.arr items) => (items.filterMap Json.str?).filter (· ≠ "")
  | _ => []

/-- A member that is a text. -/
def text? (entry : Json) (name : CodeText) : Option CodeText :=
  entry.member? name >>= Json.str?

/-- A member that is a text with something in it. -/
def filledText? (entry : Json) (name : CodeText) : Option CodeText :=
  (text? entry name).filter (· ≠ "")

/-- Whether a value is an object. -/
def isObject : Json → Bool
  | .obj _ => true
  | _ => false

end RepoAtlas.SideFile
