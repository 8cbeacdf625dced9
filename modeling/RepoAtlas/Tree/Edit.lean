import RepoAtlas.Tree.Lookup

/-!
# `RepoAtlas.Tree.Edit`: changing a tree

Writing a file follows links, also one whose target does not exist yet. Making directories makes
the missing ones on the way; what has been made stays when a later step fails, so the changed tree
comes with the outcome.
-/

set_option autoImplicit false

namespace RepoAtlas.Tree

/-- Makes one directory; its parent must be there. -/
def makeDirectory (tree : Tree) (path : String) : Except Fault Tree :=
  match tree.trace .handle path with
  | .ok (.vacant directory name) => .ok (tree.insert (directory ++ [name]) .directory)
  | .ok _ => .error .alreadyExists
  | .error fault => .error fault

/-- Makes the directory with the given names, last name first, and the missing ones above it. A
directory that is there already will do. -/
def makeDirectoriesAt (tree : Tree) : List String → Tree × Except Fault Unit
  | [] => (tree, .ok ())
  | name :: above =>
    let path := Path.ofNames (name :: above).reverse
    let settle (tree : Tree) (fault : Fault) : Tree × Except Fault Unit :=
      (tree, match tree.probe path with
        | .ok (some .directory) => .ok ()
        | .ok _ => .error fault
        | .error fault => .error fault)
    match tree.makeDirectory path with
    | .ok made => (made, .ok ())
    | .error .notFound =>
      -- Only a missing parent calls for a second attempt.
      match makeDirectoriesAt tree above with
      | (tree, .error fault) => (tree, .error fault)
      | (tree, .ok ()) =>
        match tree.makeDirectory path with
        | .ok made => (made, .ok ())
        | .error .notFound => (tree, .error .notFound)
        | .error fault => settle tree fault
    | .error fault => settle tree fault

/-- Makes a directory and the missing ones above it. -/
def makeDirectories (tree : Tree) (path : String) : Tree × Except Fault Unit :=
  tree.makeDirectoriesAt (Path.names path).reverse

/-- Makes the directories above a path. -/
def makeParents (tree : Tree) (path : String) : Tree × Except Fault Unit :=
  tree.makeDirectoriesAt (Path.names path).reverse.tail

/-- Writes a file, in place of its old content. -/
def putFile (tree : Tree) (path : String) (content : List UInt8) : Except Fault Tree :=
  match tree.trace .write path with
  | .ok (.vacant directory name) => .ok (tree.insert (directory ++ [name]) (.file content))
  | .ok (.reached place) =>
    match tree.entry? place with
    | some (.file _) => .ok (tree.insert place (.file content))
    | _ => .error .isDirectory
  | .ok (.atLink _ _ _) => .error .tooManyLinks
  | .error fault => .error fault

/-- Adds to the end of a file, which is made if it is missing. -/
def extendFile (tree : Tree) (path : String) (content : List UInt8) : Except Fault Tree :=
  match tree.readOctets path with
  | .ok old => tree.putFile path (old ++ content)
  | .error _ => tree.putFile path content

/-- The entries of a tree that an earlier one does not have in the same form, directories before what
is in them. -/
def changesSince (tree earlier : Tree) : List (Place × Entry) :=
  tree.entries.filter fun (place, entry) => earlier.entry? place ≠ some entry

end RepoAtlas.Tree
