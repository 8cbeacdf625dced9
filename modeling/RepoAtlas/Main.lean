import RepoAtlas.Command.Reach
import RepoAtlas.Command.Run
import Std.Time.DateTime.Timestamp

/-!
# `RepoAtlas.Main`: the command line

A snapshot of the files that an invocation is about is taken first. The invocation is carried out
on the snapshot, and what it has changed there is written back.
-/

set_option autoImplicit false

namespace RepoAtlas.Main

open RepoAtlas.Command

/-- A snapshot under way: the tree so far and the directories that have been read. -/
structure Taking where
  tree : Tree := .empty
  read : List Place := []

/-- A step of taking a snapshot. -/
abbrev Take := StateT Taking IO

/-- The target of a link in a directory. The target is taken in its canonical form. One that does not
exist is replaced by a name that no file has, and a link that leads back to itself by its own
name. -/
def linkTarget (directory name : String) : IO String := do
  let link := IO.FS.DirEntry.mk directory name
  try
    let _ ← link.path.metadata
    let target ← IO.FS.realPath link.path
    return target.toString
  catch
    | .noFileOrDirectory _ _ _ => return String.singleton (Char.ofNat 0)
    | _ => return name

mutual

/-- Takes in what a name in a directory stands for, directories with all that is in them on
demand. Whatever cannot be read is left out. -/
partial def takeName (deep : Bool) (directory name : String) : Take Unit := do
  let place := Path.names directory ++ [name]
  let entry := IO.FS.DirEntry.mk directory name
  try
    let kind ← entry.path.symlinkMetadata
    match kind.type with
    | .dir =>
      if ((← get).tree.entry? place).isNone then
        modify fun s => { s with tree := s.tree.insert place .directory }
      if deep && !(← get).read.contains place then
        modify fun s => { s with read := place :: s.read }
        for child in ← entry.path.readDir do
          takeName true (Path.join directory name) child.fileName
    | .file =>
      if ((← get).tree.entry? place).isNone then
        let content ← IO.FS.readBinFile entry.path
        modify fun s => { s with tree := s.tree.insert place (.file content.toList) }
    | .symlink =>
      if ((← get).tree.entry? place).isNone then
        let target ← linkTarget directory name
        modify fun s => { s with tree := s.tree.insert place (.link target) }
        if Path.isAbsolute target then
          takePath deep "/" (Path.names target)
    | .other => return
  catch _ => return

/-- Takes in what is on the way that names lead from a directory, and what they lead to. -/
partial def takePath (deep : Bool) (directory : String) : List String → Take Unit
  | [] => return
  | ".." :: rest => takePath deep (Path.parent directory) rest
  | name :: rest => do
    takeName (deep && rest.isEmpty) directory name
    match (← get).tree.entry? (Path.names directory ++ [name]) with
    | some .directory => takePath deep (Path.join directory name) rest
    | some (.link target) =>
      if Path.isAbsolute target then
        takePath deep "/" (Path.names target ++ rest)
    | _ => return

end

/-- Takes in what a path leads to. -/
def take (directory path : String) : Take Unit :=
  takePath true "/" (Path.names (Path.join directory path))

/-- A session on a snapshot of the files that an invocation is about. -/
def openSession (invocation : Invocation) : IO Session := do
  let directory := (← IO.currentDir).toString
  let home ← IO.getEnv "HOME"
  let now ← Std.Time.Timestamp.now
  let microseconds := now.toNanosecondsSinceUnixEpoch.val.toNat / 1000
  let session (tree : Tree) : Session :=
    { tree, directory
      homes := home.toList.map fun home => ("", home)
      now := Instant.ofMicroseconds microseconds }
  let root := invocation.request.root
  let expanded := match (Work.expandHome root).run (session .empty) with
    | .ok path _ => path
    | .error _ _ => root
  let first : Take Unit := do
    takePath false "/" (Path.names directory)
    take directory expanded
    for target in invocation.targets do
      takePath false "/" (Path.names (Path.join directory target))
  let (_, taking) ← first.run {}
  match (Work.namedPaths root).run (session taking.tree) with
  | .ok paths _ =>
    let (_, taking) ← (paths.forM (take directory)).run taking
    return session taking.tree
  | .error _ _ => return session taking.tree

/-- Writes back what has changed on a snapshot. -/
def writeBack (tree earlier : Tree) : IO Unit := do
  for (place, entry) in tree.changesSince earlier do
    let path := Path.ofNames place
    match entry with
    | .directory => IO.FS.createDirAll path
    | .file content => IO.FS.writeBinFile path (ByteArray.mk content.toArray)
    | .link _ => return

/-- How the command line is used. -/
def usage : String :=
  "usage: modgraph [-h] [-v] [--log-file LOG_FILE] COMMAND ...\n" ++
  "  detect [-h] [-v] [-o OUTPUT] [--compact] [PATH]\n" ++
  "  links list [-h] [-v] [PATH]\n" ++
  "  links add [-h] [-v] [--path PATH] SOURCE TARGET\n" ++
  "  links remove [-h] [-v] [--path PATH] SOURCE TARGET"

/-- Carries out the command line with the given words and gives its exit status. -/
def run (arguments : List String) : IO UInt32 := do
  match Invocation.read arguments with
  | .error .help =>
    IO.println usage
    return 0
  | .error .usage =>
    IO.eprintln usage
    return 2
  | .ok invocation =>
    let session ← openSession invocation
    let finish (after : Session) : IO Unit := do
      IO.eprint after.console
      writeBack after.tree session.tree
      IO.print after.output
    match (Work.runInvocation invocation).run session with
    | .ok status after =>
      finish after
      return status.toUInt32
    | .error failure after =>
      finish after
      IO.eprintln failure.message
      return 1

end RepoAtlas.Main

/-- The command line. -/
def main (arguments : List String) : IO UInt32 :=
  RepoAtlas.Main.run arguments
