import RepoAtlas.Module.Record
import RepoAtlas.Path.Relative
import RepoAtlas.Score

/-!
# `RepoAtlas.Graph`: the finished graph

Records are scored, modules that carry nothing are dropped, and dependencies on modules that are
not listed are pruned, so that every edge joins two different listed modules. Scores fail for
counters beyond the range of binary64, and an empty hint cannot be shown.
-/

set_option autoImplicit false

namespace RepoAtlas

open RepoAtlas.Module

/-- A module as output shows it. -/
structure FinishedModule where
  id : CodeText
  name : CodeText
  kind : CodeText
  hints : List CodeText
  dependencies : List CodeText
  packages : List CodeText
  metrics : Metrics Int
  coverage : Int
  health : Int
  frameworks : List CodeText
  source : String
  manual : Bool
  deriving DecidableEq, Repr

/-- A dependency between two listed modules. -/
structure Edge where
  source : CodeText
  target : CodeText
  deriving DecidableEq, Repr

/-- The text that identifies an edge. -/
def Edge.id (edge : Edge) : CodeText :=
  edge.source ++ ("->" : CodeText) ++ edge.target

/-- Totals over a graph. -/
structure Summary where
  modules : Nat
  dependencies : Nat
  packages : Nat
  lines : Int
  deriving DecidableEq, Repr

/-- Modules, their dependencies and the totals. -/
structure Graph where
  modules : List FinishedModule
  edges : List Edge
  summary : Summary
  deriving DecidableEq, Repr

namespace Graph

/-- Why records have no graph. -/
inductive Fault where
  /-- A score is out of reach. -/
  | number (fault : Number.Fault)
  /-- A hint is the empty path. -/
  | emptyHint
  deriving DecidableEq, Repr

/-- The hints of a record as seen from a root; hints that show as nothing are dropped. -/
def shownHints (record : Record) (root : String) : Except Fault (List CodeText) := do
  let shown ← record.hints.toList.mapM fun path =>
    match Path.hint? path root with
    | some hint => .ok hint
    | none => .error .emptyHint
  return (shown.filter (· ≠ "")).map CodeText.ofPath

/-- Turns faults of numbers into faults of the graph. -/
def ofScore {α : Type} (score : Except Number.Fault α) : Except Fault α :=
  score.mapError .number

/-- Scores a record. -/
def finish (record : Record) (root : String) : Except Fault FinishedModule := do
  let coverage ← ofScore (Score.coverage record.metrics.files record.metrics.tests)
  let health ← ofScore (Score.health record.metrics.debt record.packages.size coverage)
  let hints ← shownHints record root
  return {
    id := record.id
    name := record.name
    kind := record.kind
    hints := hints
    dependencies := record.dependencies.toList
    packages := record.packages.toList
    metrics := record.metrics
    coverage := coverage
    health := health
    frameworks := record.frameworks.toList
    source := record.source
    manual := record.manual }

/-- Whether a module carries anything: a user's wish, a directory, code, or a dependency. -/
def isReportable (m : FinishedModule) : Bool :=
  m.manual || (m.source = "directory" && !m.hints.isEmpty) ||
    (0 < m.metrics.files || 0 < m.metrics.lines) ||
    !m.dependencies.isEmpty || !m.packages.isEmpty

/-- Keeps the dependencies on other listed modules. -/
def prune (listed : List CodeText) (m : FinishedModule) : FinishedModule :=
  { m with dependencies := m.dependencies.filter fun target =>
      listed.contains target && target ≠ m.id }

/-- The edges that leave a module. -/
def edgesOf (m : FinishedModule) : List Edge :=
  m.dependencies.map (Edge.mk m.id)

/-- The totals over listed modules. -/
def summarize (modules : List FinishedModule) : Summary where
  modules := modules.length
  dependencies := modules.foldl (fun total m => total + m.dependencies.length) 0
  packages := modules.foldl (fun total m => total + m.packages.length) 0
  lines := modules.foldl (fun total m => total + m.metrics.lines) 0

/-- The graph over finished modules. -/
def ofModules (finished : List FinishedModule) : Graph :=
  let reportable := finished.filter isReportable
  let modules := reportable.map (prune (reportable.map FinishedModule.id))
  { modules := modules
    edges := modules.flatMap edgesOf
    summary := summarize modules }

/-- The graph of records as seen from a root. -/
def build (records : List Record) (root : String) : Except Fault Graph := do
  let finished ← records.mapM (finish · root)
  return ofModules finished

/-- The first module with an identifier. -/
def find? (graph : Graph) (id : CodeText) : Option FinishedModule :=
  graph.modules.find? (·.id = id)

end Graph

end RepoAtlas
