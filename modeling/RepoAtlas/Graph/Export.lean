import RepoAtlas.Graph
import RepoAtlas.Json.Basic

/-!
# `RepoAtlas.Graph.Export`: a graph as JSON

The members of every object stand in a fixed order.
-/

set_option autoImplicit false

namespace RepoAtlas

/-- A module as JSON. -/
def FinishedModule.toJson (m : FinishedModule) : Json :=
  .obj [
    ("id", .str m.id),
    ("name", .str m.name),
    ("type", .str m.kind),
    ("pathHints", .ofTexts m.hints),
    ("dependencies", .ofTexts m.dependencies),
    ("externalDependencies", .ofTexts m.packages),
    ("fileCount", .int m.metrics.files),
    ("lineCount", .int m.metrics.lines),
    ("todoCount", .int m.metrics.debt),
    ("testFileCount", .int m.metrics.tests),
    ("coverage", .int m.coverage),
    ("health", .int m.health),
    ("frameworks", .ofTexts m.frameworks),
    ("source", .str m.source),
    ("manual", .bool m.manual)]

/-- An edge as JSON; all edges are internal. -/
def Edge.toJson (edge : Edge) : Json :=
  .obj [
    ("id", .str edge.id),
    ("source", .str edge.source),
    ("target", .str edge.target),
    ("type", .str "internal")]

/-- The totals as JSON. -/
def Summary.toJson (summary : Summary) : Json :=
  .obj [
    ("moduleCount", .int summary.modules),
    ("dependencyCount", .int summary.dependencies),
    ("externalDependencyCount", .int summary.packages),
    ("totalLines", .int summary.lines)]

/-- A graph as JSON. -/
def Graph.toJson (graph : Graph) : Json :=
  .obj [
    ("modules", .arr (graph.modules.map FinishedModule.toJson)),
    ("edges", .arr (graph.edges.map Edge.toJson)),
    ("summary", graph.summary.toJson)]

end RepoAtlas
