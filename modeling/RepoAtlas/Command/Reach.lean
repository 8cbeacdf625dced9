import RepoAtlas.Command.Invocation
import RepoAtlas.Survey

/-!
# `RepoAtlas.Command.Reach`: which files an invocation is about

A snapshot has to hold what an invocation may look at before it can be carried out: the repository,
the files it writes to, and what the settings and the manual modules of the repository name
outside of it.
-/

set_option autoImplicit false

namespace RepoAtlas.Command

/-- The repository that a request is about. -/
def Request.root : Request → String
  | .detect root _ _ | .listLinks root | .addLink root _ _ | .removeLink root _ _ => root

/-- The files that an invocation writes to besides links files. -/
def Invocation.targets (invocation : Invocation) : List String :=
  let outputs := match invocation.request with
    | .detect _ output _ => output.toList
    | _ => []
  outputs ++ invocation.logFile.toList

end RepoAtlas.Command

namespace RepoAtlas.Work

/-- The paths that the settings and the manual modules of a repository name. -/
def namedPaths (root : String) : Work (List String) := do
  let path ← resolve (← expandHome root)
  let settings ← settingsOr path fun _ => return {}
  let modules ← traced fun tree => SideFile.modules tree path settings.modulesFiles
  let places := (settings.modulesFiles ++ settings.linksFiles).map (Path.below path)
  return places ++ modules.flatMap Module.ManualModule.roots

end RepoAtlas.Work
