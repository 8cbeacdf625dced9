import RepoAtlas.Graph
import RepoAtlas.Settings
import RepoAtlas.Tree.Lookup

/-!
# `RepoAtlas.Failure`: why a request cannot be met

Scans skip whatever they cannot read; a request fails for what nothing can be done about. The causes
are kept apart, since some of them have a message for the user and some end a run.
-/

set_option autoImplicit false

namespace RepoAtlas

/-- Why a request cannot be met. -/
inductive Failure where
  /-- An operation on a path fails. -/
  | system (fault : Tree.Fault) (path : String)
  /-- A path holds the character U+0000. -/
  | nullInPath
  /-- Links lead back to themselves. -/
  | linkLoop (path : String)
  /-- There is no home directory of that name. -/
  | noHome
  /-- There is nothing at the root of the repository, as the user wrote it. -/
  | rootMissing (root : String)
  /-- The root of the repository is no directory. -/
  | rootNotDirectory (root : String)
  /-- The settings are at fault. -/
  | settings (fault : Settings.Fault)
  /-- A side file holds an integer with too many digits. -/
  | integerTooLong (digits : Nat)
  /-- A result holds an integer with too many digits. -/
  | integerUnwritable
  /-- A side file nests too deep. -/
  | tooDeep
  /-- A link lacks one of its ends. -/
  | missingEnd
  /-- A link would lead from a module to itself. -/
  | selfLink
  /-- A link would join a module that is not known. -/
  | unknownModule (source target : CodeText)
  /-- There is no place for a links file. -/
  | noPlace
  /-- The graph cannot be finished. -/
  | graph (fault : Graph.Fault)
  deriving DecidableEq, Repr

namespace Failure

/-- The wording of a failure. -/
def message : Failure → String
  | .system fault path => fault.message path
  | .nullInPath => "embedded null byte"
  | .linkLoop path => s!"Symlink loop from {Text.quoted path}"
  | .noHome => "Could not determine home directory."
  | .rootMissing root => s!"Repository path not found: {root}"
  | .rootNotDirectory root => s!"Repository path is not a directory: {root}"
  | .settings fault => fault.message
  | .integerTooLong digits => Number.digitLimitText s!": value has {digits} digits"
  | .integerUnwritable => Number.digitLimitText ""
  | .tooDeep => "maximum recursion depth exceeded"
  | .missingEnd => "Source and target modules are required"
  | .selfLink => "Cannot create self-dependency"
  | .unknownModule source target => s!"Source or target module not found: {source} -> {target}"
  | .noPlace => "tuple index out of range"
  | .graph (.number fault) => fault.message
  | .graph .emptyHint => "no path specified"

/-- Whether an operation on a path failed. -/
def isSystem : Failure → Bool
  | .system _ _ => true
  | _ => false

/-- Whether the request itself holds a value that cannot be used. -/
def isBadValue : Failure → Bool
  | .nullInPath | .integerTooLong _ | .integerUnwritable | .missingEnd | .selfLink => true
  | _ => false

end Failure

end RepoAtlas
