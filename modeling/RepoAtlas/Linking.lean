import RepoAtlas.Session
import RepoAtlas.SideFile.Links

/-!
# `RepoAtlas.Linking`: adding and removing manual links

A new link joins two different known modules and is written at the end of the links file; a link
that is there already is left as it is. Links are read from the first place that has any and
written to the first place.
-/

set_option autoImplicit false

namespace RepoAtlas.Work

open RepoAtlas.Module

/-- Writes links to the first of several places and gives its path. -/
def storeLinks (root : String) (places : List String) (links : List Link) : Work String := do
  match places with
  | [] => throw .noPlace
  | place :: _ =>
    let path := Path.below root place
    save path (SideFile.linksText links)
    return path

/-- The manual links of a repository. -/
def loadLinks (root : String) (places : List String) : Work (List Link) :=
  traced fun tree => SideFile.links tree root places

/-- Adds a link, and tells whether it is new. -/
def addLink (root : String) (places : List String) (known : List CodeText)
    (source target : CodeText) : Work (Link × Bool) := do
  if source = "" || target = "" then
    throw .missingEnd
  if source = target then
    throw .selfLink
  unless known.contains source && known.contains target do
    throw (.unknownModule source target)
  let links ← loadLinks root places
  match links.find? (·.joins source target) with
  | some link => return (link, false)
  | none =>
    let link : Link := { source, target, createdAt := (← get).now.text }
    let path ← storeLinks root places (links ++ [link])
    note .info .overrides s!"Added manual link {source} -> {target} in {path}"
    return (link, true)

/-- Removes a link, and tells whether it was there. -/
def removeLink (root : String) (places : List String) (source target : CodeText) : Work Bool := do
  if source = "" || target = "" then
    throw .missingEnd
  let links ← loadLinks root places
  let remaining := links.filter fun link => !link.joins source target
  -- A pair that occurs several times goes as a whole.
  if remaining.length = links.length then
    return false
  else
    let path ← storeLinks root places remaining
    note .info .overrides s!"Removed manual link {source} -> {target} from {path}"
    return true

end RepoAtlas.Work
