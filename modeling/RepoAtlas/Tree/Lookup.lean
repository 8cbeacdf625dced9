import RepoAtlas.Text.Quoted
import RepoAtlas.Tree.Basic

/-!
# `RepoAtlas.Tree.Lookup`: finding entries by path

A lookup goes from the top directory name by name. A name inside anything but a directory, a
missing name and a name of more than 255 octets end it. A link is replaced by its target, read
from the directory that holds the link; a lookup that would cross more than 40 links fails, which
also settles links that lead back to themselves. Paths longer than 4095 octets are refused before
they are looked at.
-/

set_option autoImplicit false

namespace RepoAtlas.Tree

/-- Why an operation on the tree fails. -/
inductive Fault where
  | notFound
  | notDirectory
  | isDirectory
  | alreadyExists
  | tooManyLinks
  | nameTooLong
  deriving DecidableEq, Repr

/-- The number that systems give a fault. -/
def Fault.number : Fault → Nat
  | .notFound => 2
  | .notDirectory => 20
  | .isDirectory => 21
  | .alreadyExists => 17
  | .tooManyLinks => 40
  | .nameTooLong => 36

/-- The wording that systems give a fault. -/
def Fault.wording : Fault → String
  | .notFound => "No such file or directory"
  | .notDirectory => "Not a directory"
  | .isDirectory => "Is a directory"
  | .alreadyExists => "File exists"
  | .tooManyLinks => "Too many levels of symbolic links"
  | .nameTooLong => "File name too long"

/-- A fault at a path, in words. -/
def Fault.message (fault : Fault) (path : String) : String :=
  s!"[Errno {fault.number}] {fault.wording}: {Text.quoted path}"

/-- The most links that one lookup crosses. -/
def maxLinks : Nat := 40

/-- The most octets of a name. -/
def maxName : Nat := 255

/-- The most octets of a path. -/
def maxPath : Nat := 4095

/-- The names that a lookup goes through. A slash at the end asks for a directory; an empty name
stands for it. -/
def lookupNames (path : String) : List String :=
  (Path.segments path).filter (· ≠ "") ++
    if path.toList.getLast? = some '/' then [""] else []

/-- What a lookup is for. -/
inductive Purpose where
  /-- To use what a path leads to. -/
  | use
  /-- To write a file, which may be missing. No file can be written where a directory is asked for. -/
  | write
  /-- To handle the entry at a path itself. A final link is not crossed. -/
  | handle
  deriving DecidableEq, Repr

/-- Where a lookup stops for want of names, or at a link. -/
inductive Stop where
  /-- There is an entry. -/
  | reached (place : Place)
  /-- Only the last name is missing from its directory. -/
  | vacant (directory : Place) (name : String)
  /-- A link in a directory, with the names that follow it. -/
  | atLink (directory : Place) (target : String) (rest : List String)

/-- Follows names until they end or a link has to be crossed. -/
def advance (tree : Tree) (purpose : Purpose) : Place → List String → Except Fault Stop
  | place, [] => .ok (.reached place)
  | place, name :: rest =>
    match tree.entry? place with
    | some .directory =>
      if name = "" || name = "." then advance tree purpose place rest
      else if name = ".." then advance tree purpose place.dropLast rest
      -- A slash after the last name rules a file out before the name is even looked up.
      else if purpose = .write && !rest.isEmpty && rest.all (· = "") then .error .isDirectory
      else if maxName < name.utf8ByteSize then .error .nameTooLong
      else
        match tree.entry? (place ++ [name]) with
        | none =>
          if rest.all (· = "") then .ok (.vacant place name) else .error .notFound
        | some (.link target) =>
          -- The names after a link are read inside what it leads to, so only a final link may stay.
          if rest.isEmpty && purpose = .handle then .ok (.reached (place ++ [name]))
          else .ok (.atLink place target rest)
        | some _ => advance tree purpose (place ++ [name]) rest
    | _ => .error .notDirectory

/-- Follows names, crossing at most the given number of links. -/
def follow (tree : Tree) (purpose : Purpose) : Nat → Place → List String → Except Fault Stop
  | links, place, names =>
    match advance tree purpose place names with
    | .ok (.atLink directory target rest) =>
      match links with
      | 0 => .error .tooManyLinks
      | links + 1 =>
        tree.follow purpose links (if Path.isAbsolute target then [] else directory)
          (lookupNames target ++ rest)
    | result => result

/-- Where an absolute path leads. -/
def trace (tree : Tree) (purpose : Purpose) (path : String) : Except Fault Stop :=
  if maxPath < path.utf8ByteSize then .error .nameTooLong
  else tree.follow purpose maxLinks [] (lookupNames path)

/-- The place of the entry that a path leads to, links crossed. -/
def locate (tree : Tree) (path : String) : Except Fault Place :=
  match tree.trace .use path with
  | .ok (.reached place) => .ok place
  | .ok _ => .error .notFound
  | .error fault => .error fault

/-- The entry that a path leads to, links crossed. -/
def find (tree : Tree) (path : String) : Except Fault Entry := do
  let place ← tree.locate path
  match tree.entry? place with
  | some entry => return entry
  | none => throw .notFound

/-- Whether a path leads to anything. -/
def pathExists (tree : Tree) (path : String) : Bool :=
  (tree.find path).toOption.isSome

/-- Whether a path leads to a directory. -/
def isDirectory (tree : Tree) (path : String) : Bool :=
  match tree.find path with
  | .ok .directory => true
  | _ => false

/-- Whether a path leads to a file. -/
def isFile (tree : Tree) (path : String) : Bool :=
  match tree.find path with
  | .ok (.file _) => true
  | _ => false

/-- The entry that a path leads to, if any. Only a name that is too long is a fault. -/
def probe (tree : Tree) (path : String) : Except Fault (Option Entry) :=
  match tree.find path with
  | .ok entry => .ok (some entry)
  | .error .nameTooLong => .error .nameTooLong
  | .error _ => .ok none

/-- The content of the file that a path leads to. -/
def readOctets (tree : Tree) (path : String) : Except Fault (List UInt8) := do
  match ← tree.find path with
  | .file content => return content
  | _ => throw .isDirectory

/-- Puts an entry before the first one whose name does not come earlier. -/
def insertByName (item : String × Entry) : List (String × Entry) → List (String × Entry)
  | [] => [item]
  | next :: rest =>
    if item.1 ≤ next.1 then item :: next :: rest else next :: insertByName item rest

/-- Entries in order of their names. -/
def sortByName (items : List (String × Entry)) : List (String × Entry) :=
  items.foldr insertByName []

/-- The names and entries in the directory that a path leads to, sorted by name. -/
def list (tree : Tree) (path : String) : Except Fault (List (String × Entry)) := do
  let place ← tree.locate path
  match tree.entry? place with
  | some .directory =>
    return sortByName (tree.children place)
  | _ => throw .notDirectory

end RepoAtlas.Tree
