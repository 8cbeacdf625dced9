/-!
# `RepoAtlas.Keyed`: values under keys, in order of arrival

A list of pairs in which a key keeps the place where it first appeared and the value it was last
given. Lookup is `List.lookup`.
-/

set_option autoImplicit false

namespace RepoAtlas.Keyed

variable {κ α : Type} [DecidableEq κ]

/-- Gives a key a value: in place when the key is there, else at the end. -/
def set (key : κ) (value : α) : List (κ × α) → List (κ × α)
  | [] => [(key, value)]
  | (other, old) :: rest =>
    if other = key then (key, value) :: rest else (other, old) :: set key value rest

/-- Gives values to keys one after the other. -/
def setMany (pairs : List (κ × α)) : List (κ × α) :=
  pairs.foldl (fun table pair => set pair.1 pair.2 table) []

end RepoAtlas.Keyed
