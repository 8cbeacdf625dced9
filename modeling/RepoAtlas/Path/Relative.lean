import RepoAtlas.Path.Basic

/-!
# `RepoAtlas.Path.Relative`: paths as seen from a root

The way from a root to a path drops their common names, climbs with one `..` for each name of the
root that is left, and descends by the names of the path that are left. Output shows paths this
way (`hint`).
-/

set_option autoImplicit false

namespace RepoAtlas.Path

/-- Two lists of names without their longest common beginning. -/
def dropCommon : List String → List String → List String × List String
  | a :: as, b :: bs => if a = b then dropCommon as bs else (a :: as, b :: bs)
  | as, bs => (as, bs)

/-- The names on the way from a root to a path. -/
def wayNames (path root : String) : List String :=
  let (down, up) := dropCommon (normalNames path) (normalNames root)
  up.map (fun _ => "..") ++ down

/-- The way from a root to a path, `.` when they are the same; none for an empty path. -/
def relative? (path root : String) : Option String :=
  if path = "" then none
  else
    let way := wayNames path root
    some (if way.isEmpty then "." else "/".intercalate way)

/-- How output shows a path: the way from the root, or the path's last name when it is the root
itself. An empty path cannot be shown. -/
def hint? (path root : String) : Option String :=
  (relative? path root).map fun way => if way = "." then baseName path else way

end RepoAtlas.Path
