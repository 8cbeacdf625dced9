import RepoAtlas.Module.Record

/-!
# `RepoAtlas.Module.Manual`: what users add to the atlas

Users add modules, with counters that override the measured ones, and links: dependencies between
modules that no file shows.
-/

set_option autoImplicit false

namespace RepoAtlas.Module

/-- A module that a user adds. -/
structure ManualModule where
  id : CodeText
  name : CodeText
  kind : CodeText := "custom"
  roots : List String := []
  dependencies : List CodeText := []
  packages : List CodeText := []
  frameworks : List CodeText := []
  metrics : Metrics (Option Int) := .unset
  deriving DecidableEq, Repr

/-- A dependency that a user adds; without a date the text is empty. -/
structure Link where
  source : CodeText
  target : CodeText
  createdAt : CodeText := ""
  deriving DecidableEq, Repr

/-- Whether a link joins two modules in the given direction. -/
def Link.joins (link : Link) (source target : CodeText) : Bool :=
  link.source = source && link.target = target

/-- What a manual module contributes. -/
def ManualModule.contribution (m : ManualModule) : Contribution where
  id := m.id
  name := m.name
  kind := m.kind
  roots := m.roots
  source := "manual"
  manual := true

/-- Takes in what only a manual module brings. -/
def Record.merge (record : Record) (m : ManualModule) : Record :=
  let record := m.dependencies.foldl addDependency record
  let record := m.packages.foldl addPackage record
  let record := m.frameworks.foldl addFramework record
  { record with metrics := m.metrics.override record.metrics }

end RepoAtlas.Module
