import RepoAtlas.Instant
import RepoAtlas.Path.Spelling
import RepoAtlas.Traced
import RepoAtlas.Tree.Canonical
import RepoAtlas.Tree.Edit
import RepoAtlas.Text.Utf8

/-!
# `RepoAtlas.Session`: a run on a tree of files

A session holds the tree, where relative paths start, the home directories, the clock, and what
has been told so far. A request is a computation on a session: it may fail, but what it has changed
and told before stays.
-/

set_option autoImplicit false

namespace RepoAtlas

/-- Where notices go. -/
structure Journal where
  /-- Whether details are told. -/
  verbose : Bool := false
  /-- The file that keeps notices besides the console. -/
  file : Option String := none
  deriving DecidableEq, Repr

/-- A run on a tree of files. -/
structure Session where
  tree : Tree
  /-- The directory from which relative paths are taken. -/
  directory : String
  /-- The home directories of users; the one who runs the session has an empty name. -/
  homes : List (String × String) := []
  now : Instant
  /-- Where notices go, if anywhere. -/
  journal : Option Journal := none
  /-- What has been printed. -/
  output : String := ""
  /-- What has been told on the console. -/
  console : String := ""

/-- A request to a session. -/
abbrev Work := EStateM Failure Session

namespace Work

/-- Prints a text. -/
def print (text : String) : Work Unit :=
  modify fun s => { s with output := s.output ++ text }

/-- Tells a text on the console. -/
def tell (text : String) : Work Unit :=
  modify fun s => { s with console := s.console ++ text }

/-- The tree as it is. -/
def tree : Work Tree := return (← get).tree

/-- Replaces the tree. -/
def setTree (tree : Tree) : Work Unit :=
  modify fun s => { s with tree := tree }

/-- Passes a notice on. A log file that can no longer be written to is left alone. -/
def pass (notice : Notice) : Work Unit := do
  let s ← get
  match s.journal with
  | none => return
  | some journal =>
    if notice.isTold journal.verbose then
      tell notice.consoleLine
      if let some file := journal.file then
        match s.tree.extendFile file (Text.Utf8.encode (notice.logLine s.now.logText)) with
        | .ok tree => setTree tree
        | .error _ => return

/-- Gives a notice. -/
def note (level : Level) (topic : Topic) (text : String) : Work Unit :=
  pass ⟨level, topic, text⟩

/-- Runs a computation on the tree as it is, and passes its notices on. -/
def traced {α : Type} (computation : Tree → Traced α) : Work α := do
  let result := computation (← tree)
  result.notices.forM pass
  match result.outcome with
  | .ok value => return value
  | .error failure => throw failure

/-- A path taken from the session's directory. -/
def absolute (path : String) : Work String :=
  return Path.join (← get).directory path

/-- A path with the home directory in place of a first name that starts with a tilde. -/
def expandHome (path : String) : Work String := do
  match Path.names path with
  | [] => return path
  | first :: rest =>
    match Path.isAbsolute path, first.toList with
    | false, '~' :: user =>
      match (← get).homes.lookup (String.ofList user) with
      | some home => return Path.below home ("/".intercalate rest)
      | none => throw (if Path.hasNull first then .nullInPath else .noHome)
    | _, _ => return path

/-- Refuses a path that no system takes. -/
def refuseNull (path : String) : Work Unit := do
  if Path.hasNull path then
    throw .nullInPath

/-- The canonical form of a path. Links that lead back to themselves have none. -/
def resolve (path : String) : Work String := do
  refuseNull path
  let s ← get
  let canonical := s.tree.canonical (Path.names s.directory) path
  match s.tree.find canonical with
  | .error .tooManyLinks => throw (.linkLoop canonical)
  | _ => return canonical

/-- The entry that a path leads to, if any. -/
def probe (path : String) : Work (Option Entry) := do
  if Path.hasNull path then
    return none
  match (← tree).probe (← absolute path) with
  | .ok entry => return entry
  | .error fault => throw (.system fault path)

/-- Makes the missing directories above a path. -/
def makeParents (path : String) : Work Unit := do
  refuseNull (Path.parent path)
  let (tree, outcome) := (← tree).makeParents (← absolute path)
  setTree tree
  match outcome with
  | .ok () => return
  | .error fault => throw (.system fault (Path.parent path))

/-- Writes a text to a file, in place of its old content. -/
def writeText (path text : String) : Work Unit := do
  refuseNull path
  match (← tree).putFile (← absolute path) (Text.Utf8.encode text) with
  | .ok tree => setTree tree
  | .error fault => throw (.system fault path)

/-- Writes a text to a file and makes the missing directories above it. -/
def save (path text : String) : Work Unit := do
  makeParents path
  writeText path text

end Work

end RepoAtlas
