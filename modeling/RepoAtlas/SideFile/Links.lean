import RepoAtlas.Json.Writer
import RepoAtlas.Module.Manual
import RepoAtlas.SideFile

/-!
# `RepoAtlas.SideFile.Links`: manual links

Manual links are the objects of an array that name both ends. They are written back in the same
form; the date is left out of a link that has none.
-/

set_option autoImplicit false

namespace RepoAtlas

open RepoAtlas.Module

/-- A link as JSON. -/
def Module.Link.toJson (link : Link) : Json :=
  let date : List (CodeText × Json) :=
    if link.createdAt = "" then [] else [("createdAt", .str link.createdAt)]
  .obj (("source", .str link.source) :: ("target", .str link.target) :: date)

/-- Links as JSON. -/
def Module.Link.listToJson (links : List Link) : Json :=
  .arr (links.map Link.toJson)

namespace SideFile

/-- The link that an entry makes, if it names both ends. -/
def linkOf? (entry : Json) : Option Link := do
  let source ← filledText? entry "source"
  let target ← filledText? entry "target"
  return { source, target, createdAt := (text? entry "createdAt").getD "" }

/-- The links that the content of a side file makes. -/
def linksOf : Json → List Link
  | .arr entries => entries.filterMap linkOf?
  | _ => []

/-- The manual links of a repository. -/
def links (tree : Tree) (root : String) (places : List String) : Traced (List Link) := do
  let content ← first tree root places
  return (content.map linksOf).getD []

/-- The text of a links file. -/
def linksText (links : List Link) : String :=
  Json.write .indented (Link.listToJson links) ++ "\n"

end SideFile

end RepoAtlas
