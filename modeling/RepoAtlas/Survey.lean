import RepoAtlas.Settings.File
import RepoAtlas.SideFile.Links
import RepoAtlas.SideFile.Modules
import RepoAtlas.SideFile.Packages
import RepoAtlas.Survey.Directories
import RepoAtlas.Survey.Walk

/-!
# `RepoAtlas.Survey`: from a repository to its graph

A survey registers the modules of a repository (the entry file of a server, then directories, then
manual modules), walks their files, adds manual links and builds the graph. It fails only if the
root cannot be used or a value is out of reach.
-/

set_option autoImplicit false

namespace RepoAtlas.Survey

open RepoAtlas.Module

/-- The modules that a repository shows by itself. -/
def registered (tree : Tree) (settings : Settings) (root : String) : Traced Registry := do
  let declared ← SideFile.packages tree root
  let entry ← Traced.ofExcept (firstFile? tree root serverEntries)
  let found ← directories tree settings root
  return (Registry.empty declared).ensureAll ((entry.map serverContribution).toList ++ found)

/-- Adds the manual modules. -/
def withManual (tree : Tree) (settings : Settings) (root : String) (registry : Registry) :
    Traced Registry := do
  let manual ← SideFile.modules tree root settings.modulesFiles
  let registry := registry.mergeManual manual
  Traced.note .debug .detector
    s!"Registered {registry.ids.length} modules ({manual.length} manual entries)"
  return registry

/-- Walks the files of the modules. -/
def walked (tree : Tree) (settings : Settings) (root : String) (registry : Registry) :
    Traced Registry := do
  let scope : Scope :=
    { root := Path.normalize root
      excluded := settings.excluded
      extensions := settings.sourceExtensions }
  let (registry, visited) ← walk tree scope registry
  Traced.note .debug .detector s!"Visited {visited} source files"
  return registry

/-- Adds the manual links. -/
def linked (tree : Tree) (settings : Settings) (root : String) (registry : Registry) :
    Traced Registry := do
  return registry.applyLinks (← SideFile.links tree root settings.linksFiles)

/-- The graph of the modules. -/
def finished (root : String) (registry : Registry) : Traced Graph := do
  match Graph.build registry.records root with
  | .error fault => Traced.fail (.graph fault)
  | .ok graph =>
    Traced.note .info .detector
      (s!"Detected {graph.summary.modules} modules with {graph.summary.dependencies} " ++
        "dependencies")
    return graph

end RepoAtlas.Survey

namespace RepoAtlas.Work

/-- The canonical root of a repository. -/
def openRoot (root : String) : Work String := do
  let path ← resolve (← expandHome root)
  match ← probe path with
  | none => throw (.rootMissing root)
  | some .directory => return path
  | some _ => throw (.rootNotDirectory root)

/-- Surveys a repository with the given settings, or else its own. -/
def survey (given : Option Settings) (root : String) : Work Graph := do
  let path ← openRoot root
  let settings ← match given with
    | some settings => pure settings
    | none => settingsOr path fun fault => do
      note .warning .detector s!"Ignoring invalid configuration: {fault.message}"
      return {}
  note .info .detector s!"Detecting modules in {path}"
  let registry ← traced fun tree => Survey.registered tree settings path
  let registry ← traced fun tree => Survey.withManual tree settings path registry
  let registry ← traced fun tree => Survey.walked tree settings path registry
  let registry ← traced fun tree => Survey.linked tree settings path registry
  traced fun _ => Survey.finished path registry

end RepoAtlas.Work
