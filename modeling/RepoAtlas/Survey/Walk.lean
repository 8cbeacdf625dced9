import RepoAtlas.Module.Registry
import RepoAtlas.Path.Relative
import RepoAtlas.Source.Metrics
import RepoAtlas.Source.Resolution
import RepoAtlas.Traced
import RepoAtlas.Tree.Text

/-!
# `RepoAtlas.Survey.Walk`: reading the files of modules

Each module is walked by itself. Its files are those of its roots: a root that is a file, and
everything below a root that is a directory, except below directories that are passed over and
directories that are roots of another module. A file that two roots lead to counts once. Source
files are read and counted, and the modules and packages they refer to are added to the record.

What a file refers to is looked up in the registry as it was before the walk, so the modules may
be walked in any order.
-/

set_option autoImplicit false

namespace RepoAtlas.Survey

open RepoAtlas.Module

/-- What a walk is about. -/
structure Scope where
  /-- The root from which paths are looked at. -/
  root : String
  /-- Further names of directories to pass over. -/
  excluded : List String := []
  /-- The extensions of source files. -/
  extensions : List String := Path.sourceExtensions

/-- What a walk comes across. -/
inductive Sighting where
  | file (path : String)
  | unlistable (path : String) (fault : Tree.Fault)
  | missing (path : String)
  deriving DecidableEq, Repr

/-- The owners of roots: each root with the identifier of a module. -/
abbrev Owners := List (String × CodeText)

/-- Whether a walk of a module enters a directory. -/
def enters (scope : Scope) (owners : Owners) (id : CodeText) (name path : String) : Bool :=
  !Naming.isIgnored name scope.excluded && (owners.lookup path).all (· = id)

/-- What is below a directory, entering directories to the given depth. Links are not entered. -/
def below (tree : Tree) (scope : Scope) (owners : Owners) (id : CodeText) :
    (depth : Nat) → (path : String) → List Sighting
  | 0, _ => []
  | depth + 1, path =>
    match tree.list path with
    | .error fault => [.unlistable path fault]
    | .ok entries =>
      entries.flatMap fun (name, entry) =>
        let child := Path.normalize (Path.join path name)
        match entry with
        -- A link is taken for a file here, whatever it leads to; reading it tells the difference.
        | .directory =>
          if enters scope owners id name child then below tree scope owners id depth child else []
        | _ => [.file child]

/-- What a root of a module leads to. Directories nest no deeper than there are entries. -/
def sightings (tree : Tree) (scope : Scope) (owners : Owners) (id : CodeText) (root : String) :
    List Sighting :=
  if tree.isDirectory root then below tree scope owners id (tree.entries.length + 1) root
  else if tree.isFile root then [.file root]
  else [.missing root]

/-- Keeps the first sighting of each file, given the files seen before. -/
def distinctFiles (before : List String) : List Sighting → List Sighting
  | [] => []
  | .file path :: rest =>
    if before.contains path then distinctFiles before rest
    else .file path :: distinctFiles (path :: before) rest
  | sighting :: rest => sighting :: distinctFiles before rest

/-- Whether a walk has anything to do with a sighting: of the files, only with source files. -/
def isOfInterest (scope : Scope) : Sighting → Bool
  | .file path => Path.isSource path scope.extensions
  | _ => true

/-- The sightings of a module that matter, in order. -/
def sightingsOf (tree : Tree) (scope : Scope) (owners : Owners) (record : Record) :
    List Sighting :=
  (distinctFiles [] (record.roots.toList.flatMap (sightings tree scope owners record.id))).filter
    (isOfInterest scope)

/-- What a source file says. -/
structure FileReport where
  lines : Nat
  debt : Nat
  isTest : Bool
  /-- The modules that its relative references lead to. -/
  targets : List CodeText
  packages : List CodeText
  deriving DecidableEq, Repr

/-- What the text of a file of a module says. -/
def report (tree : Tree) (scope : Scope) (registry : Registry) (id : CodeText) (path : String)
    (text : List Char) : FileReport :=
  let references := Source.references text
  let owners := references.relative.toList.filterMap fun reference =>
    Source.resolve? tree path reference >>= registry.findOwner
  { lines := Source.countLines text
    debt := Source.countDebtMarkers text
    isTest := Source.looksLikeTest ((Path.relative? path scope.root).getD "")
    targets := (owners.map Record.id).filter (· ≠ id)
    packages := references.packages.toList.map .ofString }

/-- Adds what a file says to the record of its module. -/
def addReport (record : Record) (file : FileReport) : Record :=
  let counted := { record with metrics := {
    files := record.metrics.files + 1
    lines := record.metrics.lines + file.lines
    debt := record.metrics.debt + file.debt
    tests := record.metrics.tests + if file.isTest then 1 else 0 } }
  file.packages.foldl Record.addPackage (file.targets.foldl Record.addDependency counted)

/-- What has come of a walk so far. -/
structure Progress where
  record : Record
  visited : Nat := 0
  notices : List Notice := []

/-- Gives a notice in detail. -/
def Progress.note (progress : Progress) (text : String) : Progress :=
  { progress with notices := progress.notices ++ [⟨.debug, .walker, text⟩] }

/-- Takes in one sighting. -/
def visit (tree : Tree) (scope : Scope) (registry : Registry) (progress : Progress)
    (sighting : Sighting) : Progress :=
  let id := progress.record.id
  match sighting with
  | .missing path =>
    progress.note s!"Module {id} root {CodeText.ofPath path} does not exist; skipping"
  | .unlistable path fault => progress.note s!"Cannot list {path}: {fault.message path}"
  | .file path =>
    match tree.readSource path with
    | .error fault => progress.note s!"Skipping unreadable file {path}: {fault.message path}"
    | .ok text =>
      { progress with
        record := addReport progress.record (report tree scope registry id path text)
        visited := progress.visited + 1 }

/-- Walks one module. -/
def walkRecord (tree : Tree) (scope : Scope) (registry : Registry) (owners : Owners)
    (record : Record) : Progress :=
  (sightingsOf tree scope owners record).foldl (visit tree scope registry) { record := record }

/-- Walks all modules: the changed registry and the number of files read. -/
def walk (tree : Tree) (scope : Scope) (registry : Registry) : Traced (Registry × Nat) :=
  let owners := registry.rootOwners
  let (walked, progress) := registry.transformWith fun record =>
    let progress := walkRecord tree scope registry owners record
    (progress.record, progress)
  let visited := progress.foldl (fun total p => total + p.visited) 0
  ⟨progress.flatMap Progress.notices, .ok (walked, visited)⟩

end RepoAtlas.Survey
