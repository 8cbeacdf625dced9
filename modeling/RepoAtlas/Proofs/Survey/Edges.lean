import RepoAtlas.Proofs.Graph.WellFormed
import RepoAtlas.Proofs.Survey.Stages

/-!
# `RepoAtlas.Proofs.Survey.Edges`: where the edges of a graph come from

An edge of the graph of a survey joins two listed modules for one of three reasons: a file that is
read for the first refers to the second (`RefersTo`), a manual module lists it, or a link does. And
whenever two different listed modules have such a reason, they have their edge, once. So nothing is
lost or made up between a file and the graph, although references are resolved, owned, merged,
linked and pruned in different places.

`survey_edges` is the statement; the work is done by `DependsOn`, carried from stage to stage.
-/

set_option autoImplicit false

namespace RepoAtlas.Survey

open RepoAtlas.Module

/-- A file that is read for one module has a relative reference to a path that another module
owns. -/
def RefersTo (tree : Tree) (scope : Scope) (registry : Registry) (source target : CodeText) :
    Prop :=
  ∃ record, registry.get? source = some record ∧
    ∃ path text, .file path ∈ sightingsOf tree scope registry.rootOwners record ∧
      tree.readSource path = .ok text ∧
      ∃ reference ∈ (Source.references text).relative, ∃ resolved owner,
        Source.resolve? tree path reference = some resolved ∧
        registry.findOwner resolved = some owner ∧ owner.id = target

/-- Two different listed modules of which something says that the first depends on the second: a
file, a manual module or a link. -/
def Joined (stages : Stages) (graph : Graph) (source target : CodeText) : Prop :=
  source ∈ graph.ids ∧ target ∈ graph.ids ∧ source ≠ target ∧
    (RefersTo stages.walking.tree stages.scope stages.merged source target ∨
      (∃ m ∈ stages.manual, m.id = source ∧ target ∈ m.dependencies) ∨
      ∃ link ∈ stages.links, link.source = source ∧ link.target = target)

section

variable {tree : Tree} {scope : Scope} {registry : Registry}

/-- The files of some sightings are those that are seen as files. -/
theorem mem_files {found : List Sighting} {path : String} :
    path ∈ files found ↔ .file path ∈ found := by
  unfold files
  rw [List.mem_filterMap]
  constructor
  · rintro ⟨sighting, hmem, hfile⟩
    cases sighting with
    | file other =>
      cases hfile
      exact hmem
    | missing other => cases hfile
    | unlistable other fault => cases hfile
  · exact fun hmem => ⟨_, hmem, rfl⟩

/-- A file says that it refers to each other module that owns what one of its references leads
to. -/
theorem mem_targets_report {id target : CodeText} {path : String} {text : List Char} :
    target ∈ (report tree scope registry id path text).targets ↔
      target ≠ id ∧ ∃ reference ∈ (Source.references text).relative, ∃ resolved owner,
        Source.resolve? tree path reference = some resolved ∧
        registry.findOwner resolved = some owner ∧ owner.id = target := by
  unfold report
  simp only [List.mem_filter, List.mem_map, List.mem_filterMap, decide_eq_true_eq]
  -- Both sides say that the owner is another module; what is left is how it is found.
  rw [and_comm]
  refine and_congr_right fun _ => ?_
  constructor
  · rintro ⟨owner, ⟨reference, hreference, howner⟩, hid⟩
    obtain ⟨resolved, hresolved, howner⟩ := Option.bind_eq_some_iff.mp howner
    exact ⟨reference, hreference, resolved, owner, hresolved, howner, hid⟩
  · rintro ⟨reference, hreference, resolved, owner, hresolved, howner, hid⟩
    exact ⟨owner, ⟨reference, hreference,
      Option.bind_eq_some_iff.mpr ⟨resolved, hresolved, howner⟩⟩, hid⟩

/-- What the readings of a module refer to. -/
theorem mem_flatMap_targets {record : Record} {target : CodeText} :
    target ∈ (reportsOf tree scope registry record.id
        (readings tree scope registry.rootOwners record)).flatMap FileReport.targets ↔
      target ≠ record.id ∧ ∃ path text,
        .file path ∈ sightingsOf tree scope registry.rootOwners record ∧
        tree.readSource path = .ok text ∧
        ∃ reference ∈ (Source.references text).relative, ∃ resolved owner,
          Source.resolve? tree path reference = some resolved ∧
          registry.findOwner resolved = some owner ∧ owner.id = target := by
  rw [reportsOf, List.flatMap_map, List.mem_flatMap]
  simp only [Prod.exists, readings, mem_filterMap_reading?, mem_files, mem_targets_report]
  constructor
  · rintro ⟨path, text, ⟨hfile, hread⟩, hne, hrefers⟩
    exact ⟨hne, path, text, hfile, hread, hrefers⟩
  · rintro ⟨hne, path, text, hfile, hread, hrefers⟩
    exact ⟨path, text, ⟨hfile, hread⟩, hne, hrefers⟩

end

namespace Stages.Of

variable {stages : Stages} {s : Session} {given : Option Settings} {root : String} {graph : Graph}
  {source target : CodeText}

/-- Before the walk only manual modules depend on others. -/
theorem dependsOn_merged (h : stages.Of s given root graph) :
    stages.merged.DependsOn source target ↔
      source ≠ "" ∧ ∃ m ∈ stages.manual, m.id = source ∧ target ∈ m.dependencies := by
  obtain ⟨declared, entry, found, -, -, hshown⟩ := registered_eq_ok h.registered
  unfold Stages.merged
  rw [Registry.dependsOn_mergeManual, hshown, Registry.dependsOn_ensureAll]
  exact or_iff_right (Registry.not_dependsOn_empty declared)

/-- The walk adds what files refer to. -/
theorem dependsOn_walked (h : stages.Of s given root graph) :
    stages.walked.DependsOn source target ↔
      stages.merged.DependsOn source target ∨
        (source ≠ target ∧
          RefersTo stages.walking.tree stages.scope stages.merged source target) := by
  have hmember : ∀ before ∈ stages.merged.records,
      (stages.walked.DependsOn before.id target ↔ stages.merged.DependsOn before.id target ∨
        (before.id ≠ target ∧
          RefersTo stages.walking.tree stages.scope stages.merged before.id target)) := by
    intro before hbefore
    refine (Registry.dependsOn_of_mem (h.mem_walked hbefore)).trans ?_
    rw [Registry.dependsOn_of_mem hbefore]
    unfold gainAll RefersTo Stages.readingsOf
    rw [OrderedSet.mem_insertMany, mem_flatMap_targets, Registry.get?_of_mem _ hbefore, ne_comm]
    simp only [Option.some.injEq, exists_eq_left']
  by_cases hsource : source ∈ stages.merged.ids
  · obtain ⟨before, hbefore, rfl⟩ := List.mem_map.mp hsource
    exact hmember before hbefore
  · -- A module that is not registered depends on nothing, before and after.
    have hnone := (Registry.get?_eq_none_iff _).mpr hsource
    have hnone' := (Registry.get?_eq_none_iff _).mpr (h.ids_walked ▸ hsource)
    unfold Registry.DependsOn RefersTo
    rw [hnone, hnone']
    simp only [reduceCtorEq, false_and, exists_false, and_false, or_self]

/-- The edges of the graph join the listed modules of which one depends on the other in the end. -/
theorem mem_edges_iff (h : stages.Of s given root graph) :
    ⟨source, target⟩ ∈ graph.edges ↔
      source ∈ graph.ids ∧ target ∈ graph.ids ∧ source ≠ target ∧
        stages.final.DependsOn source target := by
  have hgraph := Graph.wellFormed_of_build stages.final.distinct stages.final.named
    (fun _ hmem => h.sound_final.of_mem hmem) h.built
  have hdepends : ∀ m ∈ graph.modules, ∀ target, target ∈ m.dependencies ↔
      target ∈ graph.ids ∧ m.id ≠ target ∧ stages.final.DependsOn m.id target := by
    intro m hm target
    obtain ⟨record, hrecord, hid, hdeps, -⟩ := hgraph.of_record m hm
    rw [hdeps, List.mem_filter, decide_eq_true_eq, hid, Registry.dependsOn_of_mem hrecord, ne_comm]
    exact ⟨fun ⟨hmem, hlisted, hne⟩ => ⟨hlisted, hne, hmem⟩,
      fun ⟨hlisted, hne, hmem⟩ => ⟨hmem, hlisted, hne⟩⟩
  -- Edges are dependencies of listed modules, and those are what a record depends on, pruned.
  have hedges : ⟨source, target⟩ ∈ graph.edges ↔
      ∃ m ∈ graph.modules, m.id = source ∧ target ∈ m.dependencies := by
    rw [hgraph.edges_eq]
    exact Graph.mem_flatMap_edgesOf
  rw [hedges]
  constructor
  · rintro ⟨m, hm, rfl, htarget⟩
    exact ⟨List.mem_map_of_mem hm, (hdepends m hm target).mp htarget⟩
  · rintro ⟨hsource, hrest⟩
    obtain ⟨m, hm, rfl⟩ := List.mem_map.mp hsource
    exact ⟨m, hm, rfl, (hdepends m hm target).mpr hrest⟩

end Stages.Of

/-- The edges of a survey are sound and complete: they join exactly the modules that are `Joined`,
each pair once. -/
theorem survey_edges {s s' : Session} {given : Option Settings} {root : String}
    {graph : Graph} (h : Work.survey given root s = .ok graph s') :
    ∃ stages : Stages, stages.Of s given root graph ∧ ∀ source target,
      (⟨source, target⟩ ∈ graph.edges ↔ Joined stages graph source target) ∧
      (Joined stages graph source target → graph.edges.count ⟨source, target⟩ = 1) := by
  obtain ⟨stages, hstages⟩ := exists_stages h
  have hgraph := Graph.wellFormed_of_build stages.final.distinct stages.final.named
    (fun _ hmem => hstages.sound_final.of_mem hmem) hstages.built
  have hregistered : ∀ id ∈ graph.ids, id ∈ stages.walked.ids := fun id hid =>
    Registry.ids_applyLinks stages.walked stages.links ▸ hgraph.ids_sublist.mem hid
  have hedge : ∀ source target, ⟨source, target⟩ ∈ graph.edges ↔
      Joined stages graph source target := by
    intro source target
    -- The three reasons are what the stages add: the walk, manual modules and links.
    rw [hstages.mem_edges_iff]
    refine and_congr_right fun hsource => and_congr_right fun htarget =>
      and_congr_right fun hne => ?_
    have hnonempty := hgraph.ids_ne_empty source hsource
    unfold Stages.final
    rw [Registry.dependsOn_applyLinks, hstages.dependsOn_walked, hstages.dependsOn_merged]
    constructor
    · rintro ((⟨-, hmanual⟩ | ⟨-, hrefers⟩) | ⟨-, -, -, hlink⟩)
      · exact Or.inr (Or.inl hmanual)
      · exact Or.inl hrefers
      · exact Or.inr (Or.inr hlink)
    · rintro (hrefers | hmanual | hlink)
      · exact Or.inl (Or.inr ⟨hne, hrefers⟩)
      · exact Or.inl (Or.inl ⟨hnonempty, hmanual⟩)
      · exact Or.inr ⟨hne, hregistered source hsource, hregistered target htarget, hlink⟩
  refine ⟨stages, hstages, fun source target => ⟨hedge source target, fun hjoined => ?_⟩⟩
  exact List.count_eq_one_of_mem hgraph.edges_nodup ((hedge source target).mpr hjoined)

/-- A repository in which a file, a manual module and a link each make an edge. The manual module
also lists a module that is not there. Notices go to a file that is read for a module itself. -/
def sampleSession : Session where
  tree := {
    entries :=
      [(["r"], .directory), (["r", "web"], .directory), (["r", "core"], .directory),
        (["r", "web", "a.js"], .file "import '../core/b'".toUTF8.toList),
        (["r", "core", "b.js"], .file []),
        (["r", "modules.json"],
          .file "[\x7b\"id\": \"ops\", \"dependencies\": [\"web\", \"gone\"]\x7d]".toUTF8.toList),
        (["r", "module-links.json"],
          .file "[\x7b\"source\": \"core\", \"target\": \"ops\"\x7d]".toUTF8.toList)]
    distinct := by decide }
  directory := "/"
  now := ⟨2024, 1, 1, 0, 0, 0, 0⟩
  journal := some { verbose := true, file := some "/r/core/log.js" }

/-- An import, a manual dependency and a link each join two modules, by one edge a pair. -/
theorem survey_sampleSession_edges :
    ∃ graph s', Work.survey none "/r" sampleSession = .ok graph s' ∧
      ∃ stages : Stages, stages.Of sampleSession none "/r" graph ∧ ∀ source target,
        (⟨source, target⟩ ∈ graph.edges ↔
          Joined stages graph source target) ∧
        (Joined stages graph source target →
          graph.edges.count ⟨source, target⟩ = 1) := by
  obtain ⟨graph, s', h⟩ := Work.exists_of_isSome_answer?
    (show (Work.answer? (Work.survey none "/r") sampleSession).isSome = true by decide +kernel)
  exact ⟨graph, s', h, survey_edges h⟩

end RepoAtlas.Survey
