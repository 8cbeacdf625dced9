import RepoAtlas.CodeText
import RepoAtlas.Number.Binary64

/-!
# `RepoAtlas.Json.Basic`: JSON values

Whole numbers written without fraction and exponent are integers of any size; every other number
is a binary64 value. Strings are texts of code points, since a string can spell half a pair of code
units. Members of an object keep the order in which their names first appeared; a name that appears
again replaces the value and not the place.
-/

set_option autoImplicit false

namespace RepoAtlas

open RepoAtlas.Number

/-- A JSON value. -/
inductive Json where
  | null
  | bool (value : Bool)
  | int (value : Int)
  | float (value : Binary64)
  | str (value : CodeText)
  | arr (items : List Json)
  | obj (members : List (CodeText × Json))

namespace Json

instance : Inhabited Json := ⟨.null⟩

/-- A member of an object; none for other values and missing members. -/
def member? (name : CodeText) : Json → Option Json
  | .obj members => members.lookup name
  | _ => none

/-- The text, if a value is one. -/
def str? : Json → Option CodeText
  | .str value => some value
  | _ => none

/-- The items, if a value is an array. -/
def arr? : Json → Option (List Json)
  | .arr items => some items
  | _ => none

/-- The array of texts. -/
def ofTexts (values : List CodeText) : Json :=
  .arr (values.map .str)

end Json

end RepoAtlas
