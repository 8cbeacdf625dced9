import RepoAtlas.Tree.Lookup

/-!
# `RepoAtlas.Tree.Canonical`: paths without links

The canonical path of an entry has no links in it. Names that do not exist are kept as they are, so
every path has one.

A link that leads back to itself cannot be resolved. The path is then stuck at that link, and what is
left of it is joined to the way there as text. A link under way is recognised by how it was
reached: from the directory where the whole path starts, or from the top once a link has led
there. So a link may be entered again, but only as often as there are ways to reach it.
-/

set_option autoImplicit false

namespace RepoAtlas.Tree

/-- Where a resolution stands: names from the top, or from the directory where the path starts. In
the latter case the first names may be steps up. -/
structure Spot where
  fromTop : Bool
  names : List String
  deriving DecidableEq, Repr

namespace Spot

/-- The top directory. -/
def top : Spot := ⟨true, []⟩

/-- The directory where a path starts. -/
def start : Spot := ⟨false, []⟩

/-- The path of a spot. -/
def text (spot : Spot) : String :=
  (if spot.fromTop then "/" else "") ++ "/".intercalate spot.names

/-- One name further down. -/
def down (spot : Spot) (name : String) : Spot :=
  { spot with names := spot.names ++ [name] }

/-- One step up; there is none from the top. -/
def up (spot : Spot) : Spot :=
  match spot.names.getLast? with
  | none => if spot.fromTop then spot else spot.down ".."
  | some name => if name = ".." then spot.down ".." else { spot with names := spot.names.dropLast }

/-- The place of a spot, given the directory where the path starts. -/
def place (directory : Place) (spot : Spot) : Place :=
  spot.names.foldl (fun place name => if name = ".." then place.dropLast else place ++ [name])
    (if spot.fromTop then [] else directory)

end Spot

/-- What resolving a path leads to: a spot without links on the way, or a text that is stuck at a
link. -/
inductive Resolution where
  | reached (spot : Spot)
  | stuck (path : String)
  deriving DecidableEq, Repr

/-- A path that is stuck, with the names after it. -/
def stuckAt (path : String) (rest : List String) : Resolution :=
  .stuck (Path.join path ("/".intercalate rest))

/-- Resolves names from a spot on, given how to resolve the target of a link. -/
def resolveWith (tree : Tree) (directory : Place)
    (enter : List Spot → Spot → List String → Resolution) (active : List Spot) :
    Spot → List String → Resolution
  | spot, [] => .reached spot
  | spot, name :: rest =>
    if name = "" ∨ name = "." then resolveWith tree directory enter active spot rest
    else if name = ".." then resolveWith tree directory enter active spot.up rest
    else
      let here := spot.down name
      match tree.entry? (here.place directory) with
      | some (.link target) =>
        if active.contains here then stuckAt here.text rest
        else
          let spot := if Path.isAbsolute target then .top else spot
          match enter (here :: active) spot (Path.segments target) with
          | .reached spot => resolveWith tree directory enter active spot rest
          | .stuck path => stuckAt path rest
      | _ => resolveWith tree directory enter active here rest

/-- Resolves names from a spot on, entering at most the given number of nested links. -/
def resolveNames (tree : Tree) (directory : Place) :
    Nat → List Spot → Spot → List String → Resolution
  | 0, active, spot, names =>
    tree.resolveWith directory (fun _ spot rest => stuckAt spot.text rest) active spot names
  | nested + 1, active, spot, names =>
    tree.resolveWith directory (resolveNames tree directory nested) active spot names

/-- The canonical form of a path, given the directory where it starts. No more links can be under way
than there are links and ways to reach them: each step up is taken from that directory or one above
it. -/
def canonical (tree : Tree) (directory : Place) (path : String) : String :=
  let ways := tree.entries.length * (directory.length + 2)
  let start := if Path.isAbsolute path then Spot.top else Spot.start
  let text := match tree.resolveNames directory ways [] start (Path.segments path) with
    | .reached spot => spot.text
    | .stuck path => path
  Path.normalize (Path.join (Path.ofNames directory) text)

end RepoAtlas.Tree
