import RepoAtlas.SideFile

/-!
# `RepoAtlas.SideFile.Packages`: the package manifest

The manifest of a repository declares the packages it needs to run and to be developed.
-/

set_option autoImplicit false

namespace RepoAtlas.SideFile

/-- The members of the manifest that declare packages. -/
def packageTables : List CodeText := ["dependencies", "devDependencies"]

/-- The packages that a manifest declares, names repeated as they are declared. -/
def packagesOf (manifest : Json) : List CodeText :=
  packageTables.flatMap fun table =>
    match manifest.member? table with
    | some (.obj members) => members.map Prod.fst
    | _ => []

/-- The packages that the manifest of a repository declares. -/
def packages (tree : Tree) (root : String) : Traced (List CodeText) := do
  let manifest ← first tree root ["package.json"]
  return (manifest.map packagesOf).getD []

end RepoAtlas.SideFile
