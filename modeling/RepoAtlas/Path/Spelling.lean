import RepoAtlas.Path.Basic

/-!
# `RepoAtlas.Path.Spelling`: paths as users spell them

Messages repeat the paths that users and settings give. They are kept as they are, `..` included;
only empty names and `.` are left out, and the path with no name at all is written `.`.
-/

set_option autoImplicit false

namespace RepoAtlas.Path

/-- A path from its leading slashes, if any, and its names. -/
def spell (path : String) (names : List String) : String :=
  if isAbsolute path then leadingSlashes path ++ "/".intercalate names
  else if names.isEmpty then "."
  else "/".intercalate names

/-- A path without superfluous parts. -/
def tidy (path : String) : String :=
  spell path (names path)

/-- A path below a root, unless it is absolute, without superfluous parts. -/
def below (root path : String) : String :=
  tidy (join root path)

/-- The directory that a path names an entry of; the way up stops at the path without names. -/
def parent (path : String) : String :=
  spell path (names path).dropLast

/-- Whether a path holds the character U+0000, which no system takes. -/
def hasNull (path : String) : Bool :=
  path.toList.contains (Char.ofNat 0)

end RepoAtlas.Path
