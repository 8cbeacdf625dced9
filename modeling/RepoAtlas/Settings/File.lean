import RepoAtlas.Session
import RepoAtlas.Tree.Text

/-!
# `RepoAtlas.Settings.File`: where settings are read from

Settings are read from a file of a fixed name in a directory. A path to the directory, to the file
itself or to any other file beside it all lead to the same settings. Without the file, nothing is
set.
-/

set_option autoImplicit false

namespace RepoAtlas

/-- The settings that the file at a canonical path makes. -/
def Settings.ofFile (tree : Tree) (file : String) : Except Settings.Fault Settings :=
  match tree.readText file with
  | .error fault => .error (.unreadable (Path.lastName file) (fault.message file))
  | .ok text => Settings.ofText (Path.lastName file) text

namespace Work

/-- The canonical path of the file with the settings that a path stands for. -/
def settingsFile (path : String) : Work String := do
  let path := Path.tidy (← expandHome path)
  if (← probe path) = some .directory then
    resolve (Path.below path Settings.fileName)
  else if Path.lastName path = Settings.fileName then
    resolve path
  else
    resolve (Path.below (Path.parent path) Settings.fileName)

/-- The settings that a path stands for, and the directory that they are for. -/
def loadSettings (path : String) : Work (String × Settings) := do
  let file ← settingsFile path
  -- A link may have led elsewhere: the settings are for the directory where the file really is.
  let root ← resolve (Path.parent file)
  if (← probe file).isNone then
    return (root, {})
  match Settings.ofFile (← tree) file with
  | .ok settings => return (root, settings)
  | .error fault => throw (.settings fault)

/-- The settings that a path stands for; a file that is at fault is put aside. -/
def settingsOr (path : String) (putAside : Settings.Fault → Work Settings) : Work Settings :=
  try
    return (← loadSettings path).2
  catch
    | .settings fault =>
      if fault.isFileFault then putAside fault else throw (.settings fault)
    | failure => throw failure

end Work

end RepoAtlas
