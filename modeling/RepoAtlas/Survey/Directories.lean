import RepoAtlas.Module.Record
import RepoAtlas.Path.Spelling
import RepoAtlas.Traced

/-!
# `RepoAtlas.Survey.Directories`: the modules that directories make

Every directory at the root of a repository is a module, unless its name is passed over. A
container is different: its directories are modules of their own, containers among them are
entered in turn, and the container itself is a module only if it holds source files of its own.

Links to directories count as directories. Links may lead back up, so that a container contains
itself; the descent still ends, since no lookup crosses more than a fixed number of links.
-/

set_option autoImplicit false

namespace RepoAtlas.Survey

open RepoAtlas.Module

/-- Files that are taken for the entry of a server. -/
def serverEntries : List String := ["server.js", "app.js", "index.js"]

/-- Whether a path leads to a file. No file has a name that holds U+0000; a name that is too long
is a failure. -/
def isFileAt (tree : Tree) (path : String) : Except Failure Bool :=
  if Path.hasNull path then .ok false
  else
    match tree.probe path with
    | .ok (some (.file _)) => .ok true
    | .ok _ => .ok false
    | .error fault => .error (.system fault path)

/-- The first of several places that has a file. -/
def firstFile? (tree : Tree) (root : String) : List String → Except Failure (Option String)
  | [] => .ok none
  | place :: places => do
    let path := Path.below root place
    if ← isFileAt tree path then return some path
    else firstFile? tree root places

/-- What an entry of a directory is, links crossed. A link whose target is missing is nothing; one
that cannot be followed for any other reason is a failure. -/
def seen (tree : Tree) (path : String) : Entry → Except Failure (Option Entry)
  | .link _ =>
    match tree.find path with
    | .ok entry => .ok (some entry)
    | .error .notFound => .ok none
    | .error fault => .error (.system fault path)
  | entry => .ok (some entry)

/-- What a directory contributes, given the identity of its module. -/
def contributionOf (identity : Naming.Identity) (path : String) : Contribution where
  id := identity.id
  name := identity.name
  kind := identity.kind
  roots := [Path.normalize path]
  source := "directory"

/-- The identity of a container that holds source files. -/
def containerIdentity (name : String) : Naming.Identity :=
  let identity := Naming.classify name
  if identity.kind = "code" then { identity with kind := "workspace" } else identity

/-- Whether the settings pass a directory over. -/
def isIgnored (settings : Settings) (name : String) : Bool :=
  Naming.isIgnored name settings.excluded

/-- Whether the settings take a directory for a container. -/
def isContainer (settings : Settings) (name : String) : Bool :=
  Naming.isComposite name (settings.containers.map Text.lower)

/-- What one entry of a container brings: whether it is a source file, and contributions. -/
structure Share where
  isSource : Bool := false
  contributions : List Contribution := []

/-- What a container with a name and a path contributes, entering containers in it to the given
depth. -/
def container (tree : Tree) (settings : Settings) :
    (depth : Nat) → (name path : String) → Traced (List Contribution)
  | 0, _, _ => Traced.fail .tooDeep
  | depth + 1, name, path =>
    match tree.list path with
    | .error fault => do
      Traced.note .debug .detector s!"Cannot list composite directory {path}: {fault.message path}"
      return []
    | .ok entries => do
      let shares ← entries.mapM fun (child, entry) => do
        let childPath := Path.join path child
        -- What an entry is gets settled before its name is looked at, so a bad link always shows.
        match ← Traced.ofExcept (seen tree childPath entry) with
        | some (.file _) =>
          return { isSource := Path.isSource child settings.sourceExtensions : Share }
        | some .directory =>
          if isIgnored settings child then
            return {}
          let own := contributionOf (Naming.classify child) childPath
          if isContainer settings child then
            let inner ← container tree settings depth child childPath
            return { contributions := own :: inner : Share }
          else
            return { contributions := [own] : Share }
        | _ => return {}
      let inner := shares.flatMap Share.contributions
      -- The container comes after what is in it, wherever its source files stand in the listing.
      if shares.any Share.isSource then
        return inner ++ [contributionOf (containerIdentity name) path]
      else
        return inner

/-- A depth that no descent exceeds: between two links it passes each directory once. -/
def containerDepth (tree : Tree) : Nat :=
  (Tree.maxLinks + 1) * (tree.entries.length + 1) + 1

/-- What one entry at the root of a repository contributes. -/
def topEntry (tree : Tree) (settings : Settings) (root name : String) (entry : Entry) :
    Traced (List Contribution) := do
  let path := Path.join root name
  match ← Traced.ofExcept (seen tree path entry) with
  | some .directory =>
    if isIgnored settings name then
      return []
    else if isContainer settings name then
      container tree settings (containerDepth tree) name path
    else
      return [contributionOf (Naming.classify name) path]
  | _ => return []

/-- What the directories of a repository contribute, in order of their names. -/
def directories (tree : Tree) (settings : Settings) (root : String) :
    Traced (List Contribution) :=
  match tree.list root with
  | .error fault => Traced.fail (.system fault root)
  | .ok entries => do
    let contributions ← entries.mapM fun (name, entry) => topEntry tree settings root name entry
    return contributions.flatten

/-- What the entry file of a server contributes. -/
def serverContribution (path : String) : Contribution where
  id := Naming.backend.id
  name := Naming.backend.name
  kind := Naming.backend.kind
  roots := [Path.normalize path]
  source := "auto"

end RepoAtlas.Survey
