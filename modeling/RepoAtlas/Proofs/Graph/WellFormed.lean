import Mathlib.Algebra.Order.Ring.Int
import Mathlib.Data.List.Nodup
import RepoAtlas.Graph
import RepoAtlas.Proofs.Module.History
import RepoAtlas.Proofs.Outcome

/-!
# `RepoAtlas.Proofs.Graph.WellFormed`: the graph of any registry is well formed

`Graph.build` scores records, drops the modules that carry nothing and prunes dependencies on
modules that are not listed. Whether a module carries anything is settled before pruning, so a
module may be listed for a dependency that is then pruned.

* `build_eq_ok`: sound records that can be scored have a graph.
* `isReportable_iff`: a sound record is dropped exactly when it carries nothing (`Idle`).
* `build_replay_wellFormed`: the graph of a registry, whatever its history, is well formed. Every
  field of `WellFormed` is a statement about the graph as a whole.

The graph is built over the list of finished modules, which stands in the relation
`Forall₂ (finish · root = .ok ·)` to the records. All proofs go through this relation.
-/

set_option autoImplicit false

namespace RepoAtlas.Graph

open RepoAtlas.Module

/-! ### Scoring one record -/

/-- A record that has a coverage and, on it, a health. -/
def Scorable (record : Record) : Prop :=
  (Score.coverage record.metrics.files record.metrics.tests >>=
    Score.health record.metrics.debt record.packages.size).isOk = true

instance (record : Record) : Decidable (Scorable record) :=
  inferInstanceAs (Decidable (_ = true))

/-- A record that can be scored has a coverage and a health. -/
theorem Scorable.exists_scores {record : Record} (h : Scorable record) :
    ∃ coverage, Score.coverage record.metrics.files record.metrics.tests = .ok coverage ∧
      ∃ health, Score.health record.metrics.debt record.packages.size coverage = .ok health := by
  unfold Scorable at h
  cases hscores : Score.coverage record.metrics.files record.metrics.tests >>=
      Score.health record.metrics.debt record.packages.size with
  | ok health =>
    obtain ⟨coverage, hcoverage, hhealth⟩ := bind_eq_ok_iff.mp hscores
    exact ⟨coverage, hcoverage, health, hhealth⟩
  | error fault =>
    rw [hscores] at h
    cases h

/-- A score is kept as it is, if there is one. -/
theorem ofScore_eq_ok_iff {α : Type} {score : Except Number.Fault α} {a : α} :
    ofScore score = .ok a ↔ score = .ok a := by
  cases score with
  | ok _ => exact ⟨fun h => by cases h; rfl, fun h => by cases h; rfl⟩
  | error fault => exact ⟨fun h => (nomatch h), fun h => (nomatch h)⟩

/-- The hints of a record that show as something. -/
def visibleHints (record : Record) (root : String) : List CodeText :=
  ((record.hints.toList.filterMap (Path.hint? · root)).filter (· ≠ "")).map CodeText.ofPath

/-- Only the empty path cannot be shown. -/
theorem isSome_hint? {path : String} (h : path ≠ "") (root : String) :
    ∃ hint, Path.hint? path root = some hint := by
  unfold Path.hint? Path.relative?
  rw [if_neg h]
  exact ⟨_, rfl⟩

/-- Hints can all be shown if none is the empty path. -/
theorem shownHints_of_not_mem {record : Record} (h : "" ∉ record.hints) (root : String) :
    shownHints record root = .ok (visibleHints record root) := by
  have hshown : ∀ path ∈ record.hints.toList, ∃ hint, Path.hint? path root = some hint :=
    fun path hpath => isSome_hint? (ne_of_mem_of_not_mem hpath h) root
  unfold shownHints visibleHints
  refine bind_eq_ok_iff.mpr ⟨_, mapM_eq_ok_iff.mpr ?_, rfl⟩
  generalize record.hints.toList = paths at hshown
  -- Every path but the empty one has a hint.
  induction paths with
  | nil => exact List.Forall₂.nil
  | cons path rest ih =>
    obtain ⟨hint, hhint⟩ := hshown path List.mem_cons_self
    rw [List.filterMap_cons, hhint]
    refine List.Forall₂.cons ?_ (ih fun p hp => hshown p (List.mem_cons_of_mem _ hp))
    rw [hhint]

/-- A sound record never hints at the empty path. -/
theorem not_mem_hints_of_sound {record : Record} (h : record.Sound) : "" ∉ record.hints := by
  intro hempty
  have hpath : "" ∈ record.hints.toList := hempty
  rw [h.hints_eq] at hpath
  exact Path.absolute_ne_empty (Path.isLead_leadingSlashes "") _
    (h.normal "" hpath).eq_absolute.symm

/-- What finishing a record leads to. -/
structure Finished (root : String) (record : Record) (m : FinishedModule) : Prop where
  id_eq : m.id = record.id
  hints_eq : m.hints = visibleHints record root
  dependencies_eq : m.dependencies = record.dependencies.toList
  packages_eq : m.packages = record.packages.toList
  metrics_eq : m.metrics = record.metrics
  source_eq : m.source = record.source
  manual_eq : m.manual = record.manual

/-- Finishing a sound record keeps what it knows. -/
theorem finished_of_finish {root : String} {record : Record} {m : FinishedModule}
    (sound : record.Sound) (h : finish record root = .ok m) : Finished root record m := by
  obtain ⟨coverage, -, h⟩ := bind_eq_ok_iff.mp h
  obtain ⟨health, -, h⟩ := bind_eq_ok_iff.mp h
  obtain ⟨hints, hhints, h⟩ := bind_eq_ok_iff.mp h
  rw [shownHints_of_not_mem (not_mem_hints_of_sound sound)] at hhints
  cases hhints
  cases h
  exact ⟨rfl, rfl, rfl, rfl, rfl, rfl, rfl⟩

/-- A record that can be scored and hints at no empty path can be finished. -/
theorem finish_of_scorable {record : Record} (hints : "" ∉ record.hints) (scorable : Scorable record)
    (root : String) : ∃ m, finish record root = .ok m := by
  obtain ⟨coverage, hcoverage, health, hhealth⟩ := scorable.exists_scores
  cases h : finish record root with
  | ok m => exact ⟨m, rfl⟩
  | error fault =>
    unfold finish at h
    simp only [ofScore, hcoverage, hhealth, Except.mapError, ok_bind,
      shownHints_of_not_mem hints] at h
    cases h

/-- A record that carries nothing: no user asked for it, no directory shows it, and it has neither
code nor dependencies. -/
structure Idle (root : String) (record : Record) : Prop where
  not_manual : record.manual = false
  not_shown : ¬(record.source = "directory" ∧ visibleHints record root ≠ [])
  no_files : record.metrics.files = 0
  no_lines : record.metrics.lines = 0
  no_dependencies : record.dependencies.toList = []
  no_packages : record.packages.toList = []

/-- A finished module is dropped exactly when its record carries nothing. -/
theorem isReportable_iff {root : String} {record : Record} {m : FinishedModule}
    (sound : record.Sound) (h : Finished root record m) :
    isReportable m = true ↔ ¬Idle root record := by
  unfold isReportable
  rw [h.hints_eq, h.dependencies_eq, h.packages_eq, h.metrics_eq, h.source_eq, h.manual_eq]
  simp only [Bool.or_eq_true, Bool.and_eq_true, decide_eq_true_eq, Bool.not_eq_true',
    List.isEmpty_eq_false_iff]
  constructor
  · rintro ((((hmanual | hshown) | hcode) | hdeps) | hpackages) <;> intro idle
    · exact absurd (idle.not_manual.symm.trans hmanual) (by decide)
    · exact idle.not_shown hshown
    · have hfiles := idle.no_files
      have hlines := idle.no_lines
      omega
    · exact hdeps idle.no_dependencies
    · exact hpackages idle.no_packages
  · intro busy
    refine Decidable.byContradiction fun hnone => busy ?_
    simp only [not_or] at hnone
    obtain ⟨⟨⟨⟨hmanual, hshown⟩, hfiles, hlines⟩, hdeps⟩, hpackages⟩ := hnone
    rw [Bool.not_eq_true] at hmanual
    -- Counters that no user set are not negative, so "not positive" is "zero".
    obtain ⟨hfiles', hlines', -⟩ := sound.counted hmanual
    exact ⟨hmanual, hshown, by omega, by omega, Decidable.not_not.mp hdeps,
      Decidable.not_not.mp hpackages⟩

/-- Sound records that can be scored have a graph, from every root. -/
theorem build_eq_ok {records : List Record} (sound : ∀ record ∈ records, record.Sound)
    (scorable : ∀ record ∈ records, Scorable record) (root : String) :
    ∃ graph, build records root = .ok graph := by
  have hall : ∃ finished, records.mapM (finish · root) = .ok finished := by
    induction records with
    | nil => exact ⟨[], rfl⟩
    | cons record rest ih =>
      rw [List.forall_mem_cons] at sound scorable
      obtain ⟨finished, hfinished⟩ := ih sound.2 scorable.2
      obtain ⟨m, hm⟩ := finish_of_scorable (not_mem_hints_of_sound sound.1) scorable.1 root
      exact ⟨m :: finished, mapM_eq_ok_iff.mpr (.cons hm (mapM_eq_ok_iff.mp hfinished))⟩
  obtain ⟨finished, hfinished⟩ := hall
  exact ⟨ofModules finished, bind_eq_ok_iff.mpr ⟨finished, hfinished, rfl⟩⟩

/-! ### Well-formed graphs -/

/-- The identifiers of the listed modules. -/
def ids (graph : Graph) : List CodeText :=
  graph.modules.map FinishedModule.id

/-- A graph that fits the records it is built from, whose identifiers were registered in the given
order. -/
structure WellFormed (records : List Record) (registered : List CodeText) (root : String)
    (graph : Graph) : Prop where
  ids_ne_empty : ∀ id ∈ graph.ids, id ≠ ""
  ids_nodup : graph.ids.Nodup
  /-- Modules stand in the order in which they were registered. -/
  ids_sublist : graph.ids.Sublist registered
  /-- A record is left out exactly when it carries nothing. -/
  absent_iff : ∀ record ∈ records, record.id ∉ graph.ids ↔ Idle root record
  /-- A module shows what its record knows; its dependencies are those of the record, in order,
  on other listed modules. -/
  of_record : ∀ m ∈ graph.modules, ∃ record ∈ records, m.id = record.id ∧
    m.dependencies = record.dependencies.toList.filter
      (fun target => decide (target ∈ graph.ids ∧ target ≠ record.id)) ∧
    m.packages = record.packages.toList ∧ m.metrics = record.metrics
  dependencies_nodup : ∀ m ∈ graph.modules, m.dependencies.Nodup
  /-- The edges are the pairs of a module and a dependency, module by module. -/
  edges_eq : graph.edges = graph.modules.flatMap fun m =>
    m.dependencies.map fun target => { source := m.id, target := target }
  edges_join : ∀ edge ∈ graph.edges,
    edge.source ∈ graph.ids ∧ edge.target ∈ graph.ids ∧ edge.source ≠ edge.target
  edges_nodup : graph.edges.Nodup
  modules_count : graph.summary.modules = graph.modules.length
  dependencies_count : graph.summary.dependencies = graph.edges.length
  dependencies_sum :
    graph.summary.dependencies = (graph.modules.map fun m => m.dependencies.length).sum
  packages_sum : graph.summary.packages = (graph.modules.map fun m => m.packages.length).sum
  lines_sum : graph.summary.lines = (graph.modules.map fun m => m.metrics.lines).sum

/-- Pruning keeps the identifiers: the listed modules are the reportable ones. -/
theorem ids_ofModules (finished : List FinishedModule) :
    (ofModules finished).ids = (finished.filter isReportable).map FinishedModule.id := by
  show ((finished.filter isReportable).map _).map FinishedModule.id = _
  rw [List.map_map]
  rfl

/-- A listed module is a reportable one, pruned to the listed identifiers. -/
theorem mem_modules_ofModules {finished : List FinishedModule} {m : FinishedModule} :
    m ∈ (ofModules finished).modules ↔
      ∃ whole ∈ finished, isReportable whole = true ∧
        prune (ofModules finished).ids whole = m := by
  rw [ids_ofModules]
  show m ∈ (finished.filter isReportable).map _ ↔ _
  rw [List.mem_map]
  simp only [List.mem_filter, and_assoc]

/-- A graph has an edge exactly for each dependency of each module. -/
theorem mem_flatMap_edgesOf {modules : List FinishedModule} {edge : Edge} :
    edge ∈ modules.flatMap edgesOf ↔
      ∃ m ∈ modules, m.id = edge.source ∧ edge.target ∈ m.dependencies := by
  obtain ⟨source, target⟩ := edge
  rw [List.mem_flatMap]
  simp only [edgesOf, List.mem_map, Edge.mk.injEq]
  constructor
  · rintro ⟨m, hm, target', htarget, hsource, rfl⟩
    exact ⟨m, hm, hsource, htarget⟩
  · rintro ⟨m, hm, hsource, htarget⟩
    exact ⟨m, hm, target, htarget, hsource, rfl⟩

/-- Modules with different identifiers and no dependency twice have no edge twice. -/
theorem nodup_flatMap_edgesOf {modules : List FinishedModule}
    (hids : (modules.map FinishedModule.id).Nodup)
    (hdeps : ∀ m ∈ modules, m.dependencies.Nodup) : (modules.flatMap edgesOf).Nodup := by
  rw [List.nodup_flatMap]
  constructor
  · intro m hm
    exact (hdeps m hm).map fun a b hab => (Edge.mk.inj hab).2
  · refine (List.pairwise_map.mp hids).imp fun {m m'} hne => ?_
    intro edge hedge hedge'
    obtain ⟨_, -, rfl⟩ := List.mem_map.mp hedge
    obtain ⟨_, -, heq⟩ := List.mem_map.mp hedge'
    exact hne (Edge.mk.inj heq).1.symm

/-- There are as many edges as dependencies. -/
theorem length_flatMap_edgesOf (modules : List FinishedModule) :
    (modules.flatMap edgesOf).length = (modules.map fun m => m.dependencies.length).sum := by
  rw [List.length_flatMap]
  exact congrArg List.sum (List.map_congr_left fun m _ => List.length_map _)

/-- Finished modules stand for sound records, one by one. -/
theorem forall₂_finished {records : List Record} {root : String} {finished : List FinishedModule}
    (sound : ∀ record ∈ records, record.Sound)
    (h : records.mapM (finish · root) = .ok finished) :
    List.Forall₂ (fun record m => record ∈ records ∧ Finished root record m) records finished :=
  ((List.forall₂_and_left _ _).mpr ⟨fun _ hr => hr, mapM_eq_ok_iff.mp h⟩).imp
    fun record _ hm => ⟨hm.1, finished_of_finish (sound record hm.1) hm.2⟩

section

variable {records : List Record} {root : String} {finished : List FinishedModule}
  (hall : List.Forall₂ (fun record m => record ∈ records ∧ Finished root record m) records finished)

include hall

/-- Finishing keeps the ids. -/
theorem ids_finished : finished.map FinishedModule.id = records.map Record.id :=
  (map_eq_map_of_forall₂ (fun _ _ hm => hm.2.id_eq.symm) hall).symm

/-- What a listed module shows is what its record knows, pruned. -/
theorem exists_record_of_mem_modules {m : FinishedModule}
    (hm : m ∈ (ofModules finished).modules) :
    ∃ record ∈ records, m.id = record.id ∧
      m.dependencies = record.dependencies.toList.filter
        (fun target => decide (target ∈ (ofModules finished).ids ∧ target ≠ record.id)) ∧
      m.packages = record.packages.toList ∧ m.metrics = record.metrics := by
  obtain ⟨whole, hwhole, -, rfl⟩ := mem_modules_ofModules.mp hm
  obtain ⟨record, -, hrecord, hfin⟩ := (exists_of_forall₂ hall).2 whole hwhole
  refine ⟨record, hrecord, hfin.id_eq, ?_, hfin.packages_eq, hfin.metrics_eq⟩
  show whole.dependencies.filter _ = _
  rw [hfin.dependencies_eq, hfin.id_eq]
  refine List.filter_congr fun target _ => ?_
  rw [Bool.decide_and, List.contains_eq_mem]

/-- A record is listed exactly when it carries something. -/
theorem mem_ids_iff_not_idle (distinct : (records.map Record.id).Nodup)
    (sound : ∀ record ∈ records, record.Sound) {record : Record} (hrecord : record ∈ records) :
    record.id ∈ (ofModules finished).ids ↔ ¬Idle root record := by
  obtain ⟨m, hm, -, hfin⟩ := (exists_of_forall₂ hall).1 record hrecord
  rw [← isReportable_iff (sound record hrecord) hfin, ids_ofModules]
  constructor
  · intro hmem
    obtain ⟨m', hm', hid⟩ := List.mem_map.mp hmem
    obtain ⟨hm', hreportable⟩ := List.mem_filter.mp hm'
    -- Identifiers are distinct, so the listed module is the one of this record.
    have hsame : m' = m := List.inj_on_of_nodup_map (ids_finished hall ▸ distinct) hm' hm
      (hid.trans hfin.id_eq.symm)
    exact hsame ▸ hreportable
  · intro hreportable
    exact List.mem_map.mpr ⟨m, List.mem_filter.mpr ⟨hm, hreportable⟩, hfin.id_eq⟩

/-- Edges join different listed modules: a pruned dependency leads to no module or to itself. -/
theorem joins_of_mem_edges {edge : Edge} (hedge : edge ∈ (ofModules finished).edges) :
    edge.source ∈ (ofModules finished).ids ∧ edge.target ∈ (ofModules finished).ids ∧
      edge.source ≠ edge.target := by
  obtain ⟨m, hm, hsource, htarget⟩ := mem_flatMap_edgesOf.mp hedge
  obtain ⟨record, -, hid, hdeps, -⟩ := exists_record_of_mem_modules hall hm
  rw [hdeps, List.mem_filter, decide_eq_true_eq] at htarget
  refine ⟨hsource ▸ List.mem_map_of_mem hm, htarget.2.1, fun heq => htarget.2.2 ?_⟩
  rw [← heq, ← hsource, hid]

end

/-- The graph of sound records with different identifiers fits them. -/
theorem wellFormed_of_build {records : List Record} {root : String} {graph : Graph}
    (distinct : (records.map Record.id).Nodup) (named : ∀ record ∈ records, record.id ≠ "")
    (sound : ∀ record ∈ records, record.Sound) (h : build records root = .ok graph) :
    WellFormed records (records.map Record.id) root graph := by
  obtain ⟨finished, hmap, hgraph⟩ := bind_eq_ok_iff.mp h
  cases hgraph
  have hall := forall₂_finished sound hmap
  have hsub : (ofModules finished).ids.Sublist (records.map Record.id) := by
    rw [ids_ofModules, ← ids_finished hall]
    exact List.filter_sublist.map _
  have hdeps : ∀ m ∈ (ofModules finished).modules, m.dependencies.Nodup := by
    intro m hm
    obtain ⟨record, -, -, hdeps, -⟩ := exists_record_of_mem_modules hall hm
    rw [hdeps]
    exact record.dependencies.nodup.filter _
  -- The summary counts by going through the modules, so its counts are sums.
  have hcount : (ofModules finished).summary.dependencies
      = ((ofModules finished).modules.map fun m => m.dependencies.length).sum := by
    rw [List.sum_eq_foldl, List.foldl_map]
    rfl
  refine
    { ids_ne_empty := fun id hid => ?_
      ids_nodup := distinct.sublist hsub
      ids_sublist := hsub
      absent_iff := fun record hrecord => ?_
      of_record := fun m hm => exists_record_of_mem_modules hall hm
      dependencies_nodup := hdeps
      edges_eq := rfl
      edges_join := fun edge hedge => joins_of_mem_edges hall hedge
      edges_nodup := nodup_flatMap_edgesOf (distinct.sublist hsub) hdeps
      modules_count := rfl
      dependencies_count := hcount.trans (length_flatMap_edgesOf _).symm
      dependencies_sum := hcount
      packages_sum := ?_
      lines_sum := ?_ }
  · obtain ⟨record, hrecord, rfl⟩ := List.mem_map.mp (hsub.mem hid)
    exact named record hrecord
  · rw [mem_ids_iff_not_idle hall distinct sound hrecord, Classical.not_not]
  · rw [List.sum_eq_foldl, List.foldl_map]
    rfl
  · rw [List.sum_eq_foldl, List.foldl_map]
    rfl

/-- Whatever has happened to a registry that started empty, its graph is well formed if its records
can be scored. The identifiers stand in the order in which the history first names them. -/
theorem build_replay_wellFormed (declared : List CodeText) (history : List Operation)
    (root : String)
    (scorable : ∀ record ∈ ((Registry.empty declared).replay history).records, Scorable record) :
    ∃ graph, build ((Registry.empty declared).replay history).records root = .ok graph ∧
      WellFormed ((Registry.empty declared).replay history).records
        (OrderedSet.ofList (registeredBy history)).toList root graph := by
  have hsound : ∀ record ∈ ((Registry.empty declared).replay history).records, record.Sound :=
    fun _ hrecord => (Registry.sound_replay declared history).of_mem hrecord
  obtain ⟨graph, hgraph⟩ := build_eq_ok hsound scorable root
  refine ⟨graph, hgraph, ?_⟩
  rw [← Registry.idSet_replay declared history]
  exact wellFormed_of_build (Registry.distinct _) (Registry.named _) hsound hgraph

/-- A history with an empty identifier, a module named twice, a dangling dependency, one of a module
on itself, and a link between registered modules. -/
def sampleHistory : List Operation :=
  [.ensure { id := "", roots := ["/r/none"] },
    .ensure { id := "web", kind := "frontend", roots := ["/r/web/"], source := "directory" },
    .ensure { id := "idle" },
    .addDependency "web" "gone",
    .addDependency "web" "web",
    .mergeManual [{ id := "core", name := "Core", dependencies := ["web", "idle"] }],
    .applyLinks [⟨"web", "core", ""⟩, ⟨"web", "gone", ""⟩, ⟨"core", "core", ""⟩],
    .addPackage "core" "vue",
    .ensure { id := "web", roots := ["/r/more"] }]

/-- A history with dangling dependencies, and some on the module itself, builds a well-formed graph.
-/
theorem build_sampleHistory_wellFormed :
    (∀ record ∈ ((Registry.empty ["vue"]).replay sampleHistory).records, Scorable record) ∧
    ∃ graph,
      build ((Registry.empty ["vue"]).replay sampleHistory).records "/r" = .ok graph ∧
      WellFormed ((Registry.empty ["vue"]).replay sampleHistory).records
        (OrderedSet.ofList (registeredBy sampleHistory)).toList "/r" graph := by
  have scorable : ∀ record ∈ ((Registry.empty ["vue"]).replay sampleHistory).records,
      Scorable record := by decide +kernel
  exact ⟨scorable, build_replay_wellFormed ["vue"] sampleHistory "/r" scorable⟩

end RepoAtlas.Graph
