import RepoAtlas.Module.Manual
import RepoAtlas.Naming.Identifier
import RepoAtlas.SideFile

/-!
# `RepoAtlas.SideFile.Modules`: manual modules

Manual modules are the objects of an array, which may be the member `modules` of an object. Every
object makes a module, whatever it lacks: an identifier is made from the name, a name from the
identifier. Counters count if they are whole numbers from zero on, also when written as `12.0`.
-/

set_option autoImplicit false

namespace RepoAtlas.SideFile

open RepoAtlas.Module

/-- A counter: a whole number from zero on. -/
def counter? : Json → Option Int
  | .int n => if 0 ≤ n then some n else none
  | .float x => x.toInt?.filter fun n => decide (0 ≤ n)
  | _ => none

/-- The counter that a member gives. -/
def counterOf (entry : Json) (name : CodeText) : Option Int :=
  entry.member? name >>= counter?

/-- The roots of an entry: one path, or else several. -/
def rootsOf (root : String) (entry : Json) : List String :=
  let paths := match filledText? entry "path" with
    | some path => [path]
    | none => texts (entry.member? "rootPaths")
  paths.map fun path => Path.resolveUnder root path.toPath

/-- The identifier of an entry. A half in a name counts as any character that no identifier takes
over. -/
def idOf (entry : Json) : CodeText :=
  (filledText? entry "id").getD
    (Naming.sanitize ((filledText? entry "name").getD "custom-module").nulled)

/-- The module that an entry makes. -/
def moduleOf (root : String) (entry : Json) : ManualModule where
  id := idOf entry
  name := (filledText? entry "name").getD (idOf entry)
  kind := (filledText? entry "type").getD "custom"
  roots := rootsOf root entry
  dependencies := texts (entry.member? "dependencies")
  packages := texts (entry.member? "externalDependencies")
  frameworks := texts (entry.member? "frameworks")
  metrics := {
    files := counterOf entry "fileCount"
    lines := counterOf entry "lineCount"
    debt := counterOf entry "todoCount"
    tests := counterOf entry "testFileCount" }

/-- The entries of a side file. -/
def entriesOf (content : Json) : List Json :=
  match content with
  | .arr entries => entries
  | .obj _ =>
    match content.member? "modules" with
    | some (.arr entries) => entries
    | _ => []
  | _ => []

/-- The modules that the content of a side file makes. -/
def modulesOf (root : String) (content : Json) : List ManualModule :=
  ((entriesOf content).filter isObject).map (moduleOf root)

/-- The manual modules of a repository. -/
def modules (tree : Tree) (root : String) (places : List String) : Traced (List ManualModule) := do
  let content ← first tree root places
  return (content.map (modulesOf root)).getD []

end RepoAtlas.SideFile
