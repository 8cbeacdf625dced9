import RepoAtlas.CodeText
import RepoAtlas.OrderedSet
import RepoAtlas.Path.Basic

/-!
# `RepoAtlas.Module.Record`: what is known about a module

A record gathers what the scan learns about one module. A contribution says that a module exists:
the first one for an identifier fixes the module's name and kind, later ones only add root paths.
In a contribution an empty text means that nothing is said.
-/

set_option autoImplicit false

namespace RepoAtlas.Module

/-- The four counters of a module. -/
structure Metrics (α : Type) where
  files : α
  lines : α
  debt : α
  tests : α
  deriving DecidableEq, Repr

/-- Counters that start at zero. -/
def Metrics.zero : Metrics Int := ⟨0, 0, 0, 0⟩

/-- Counters of which none is given. -/
def Metrics.unset : Metrics (Option Int) := ⟨none, none, none, none⟩

/-- Replaces the counters that are given. -/
def Metrics.override (given : Metrics (Option Int)) (counters : Metrics Int) : Metrics Int where
  files := given.files.getD counters.files
  lines := given.lines.getD counters.lines
  debt := given.debt.getD counters.debt
  tests := given.tests.getD counters.tests

/-- What is known about a module. -/
structure Record where
  id : CodeText
  name : CodeText
  kind : CodeText := "code"
  /-- The files and directories that make up the module. -/
  roots : OrderedSet String := .empty
  /-- Identifiers of modules that this one depends on. -/
  dependencies : OrderedSet CodeText := .empty
  /-- Names of external packages that this module refers to. -/
  packages : OrderedSet CodeText := .empty
  frameworks : OrderedSet CodeText := .empty
  /-- The paths that stand for the module in the output. -/
  hints : OrderedSet String := .empty
  metrics : Metrics Int := .zero
  /-- Where the module was last contributed from. -/
  source : String := "auto"
  /-- Whether a user asked for the module. -/
  manual : Bool := false
  deriving DecidableEq, Repr

/-- Says that a module exists; an empty text says nothing. -/
structure Contribution where
  id : CodeText
  name : CodeText := ""
  kind : CodeText := ""
  roots : List String := []
  source : String := ""
  manual : Bool := false
  deriving DecidableEq, Repr

namespace Record

/-- Adds a root, which also stands for the module in the output. -/
def addRoot (record : Record) (path : String) : Record :=
  { record with roots := record.roots.insert path, hints := record.hints.insert path }

/-- Adds a dependency on a module. -/
def addDependency (record : Record) (id : CodeText) : Record :=
  { record with dependencies := record.dependencies.insert id }

/-- Adds an external package. -/
def addPackage (record : Record) (name : CodeText) : Record :=
  { record with packages := record.packages.insert name }

/-- Adds a framework. -/
def addFramework (record : Record) (name : CodeText) : Record :=
  { record with frameworks := record.frameworks.insert name }

/-- Takes in what every contribution may add: roots in normal form, a source, the manual mark. -/
def absorb (record : Record) (c : Contribution) : Record :=
  let record := (c.roots.map Path.normalize).foldl addRoot record
  { record with
    source := if c.source = "" then record.source else c.source
    manual := record.manual || c.manual }

end Record

/-- The frameworks whose presence in the package manifest is told for a kind of module. -/
def frameworkHints : List (CodeText × List CodeText) :=
  [("frontend", ["react", "vue", "angular", "svelte", "next", "nuxt"]),
   ("backend", ["express", "koa", "fastify", "nest", "hapi"]),
   ("database", ["mongoose", "sequelize", "prisma", "pg", "mysql"]),
   ("docs", ["docusaurus", "mkdocs", "sphinx"])]

/-- The frameworks of a kind of module that the manifest declares. -/
def frameworksFor (kind : CodeText) (declared : List CodeText) : List CodeText :=
  ((frameworkHints.lookup kind).getD []).filter declared.contains

/-- The record that the first contribution for an identifier opens. -/
def Record.opened (c : Contribution) (declared : List CodeText) : Record where
  id := c.id
  name := if c.name = "" then c.id else c.name
  kind := if c.kind = "" then "code" else c.kind
  frameworks := .ofList (frameworksFor c.kind declared)

end RepoAtlas.Module
