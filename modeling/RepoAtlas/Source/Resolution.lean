import RepoAtlas.Source.Reference
import RepoAtlas.Tree.Lookup

/-!
# `RepoAtlas.Source.Resolution`: where a relative reference may lead

A reference that starts with a dot is tried as it stands, then with the extensions a reference may
leave out, then as a directory with an index file. It leads to the first of these that is there.
-/

set_option autoImplicit false

namespace RepoAtlas.Source

/-- Extensions that a reference may leave out, in the order in which they are tried. -/
def omittedExtensions : List String := [".js", ".ts", ".json", ".jsx", ".tsx"]

/-- Files that stand for their directory. -/
def indexFiles : List String := ["index.js", "index.ts"]

/-- The paths that a reference in a file may mean, in the order in which they are tried. -/
def candidatePaths (file reference : String) : List String :=
  let base := Path.normalize (Path.join (Path.directoryName file) reference)
  base :: omittedExtensions.map (base ++ ·) ++ indexFiles.map (Path.join base)

/-- The path that a reference in a file leads to. -/
def resolve? (tree : Tree) (file reference : String) : Option String :=
  if isRelative reference then
    ((candidatePaths file reference).find? tree.pathExists).map Path.normalize
  else none

end RepoAtlas.Source
