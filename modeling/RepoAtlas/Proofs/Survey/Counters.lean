import RepoAtlas.Proofs.Graph.WellFormed
import RepoAtlas.Proofs.Module.Counters
import RepoAtlas.Proofs.SideFile.Modules
import RepoAtlas.Proofs.Survey.Stages

/-!
# `RepoAtlas.Proofs.Survey.Counters`: given counters and counted ones add up

A manual module may give counters, and files that are read are counted. The given value is set
before files are read, and reading adds to it: a module shows the value that was given last plus
what was counted.

* `Stages.Of.get_metricsOf_final`: the sum, for every registered module and every counter.
* `survey_counters`: what the graph shows, and that it shows every manual module.
* `given_counter_is_exceeded`: a module with a given counter and a file shows neither the given
  value nor the counted one.
-/

set_option autoImplicit false

namespace RepoAtlas.Survey

open RepoAtlas.Module

/-- What the files that are read for a module add to a counter. -/
def counted (scope : Scope) (reads : List Reading) : Counter → Nat
  | .files => reads.length
  | .lines => (reads.map fun reading => Source.countLines reading.2).sum
  | .debt => (reads.map fun reading => Source.countDebtMarkers reading.2).sum
  | .tests => reads.countP fun reading =>
      Source.looksLikeTest ((Path.relative? reading.1 scope.root).getD "")

/-- Each counter grows by what is counted in the files that are read. -/
theorem Gained.get_metrics {tree : Tree} {scope : Scope} {registry : Registry}
    {before after : Record} {reads : List Reading}
    (h : Gained tree scope registry before after reads) (counter : Counter) :
    after.metrics.get counter = before.metrics.get counter + counted scope reads counter := by
  cases counter with
  | files => exact h.files
  | lines => exact h.lines
  | debt => exact h.debt
  | tests => exact h.tests

namespace Stages.Of

variable {stages : Stages} {s : Session} {given : Option Settings} {root : String} {graph : Graph}

/-- A manual module has an id. -/
theorem id_ne_empty_of_manual (h : stages.Of s given root graph) {m : ManualModule}
    (hm : m ∈ stages.manual) : m.id ≠ "" := by
  obtain ⟨content, -, hcontent⟩ := Traced.outcome_bind_eq_ok_iff.mp h.manual
  rw [← Except.ok.inj hcontent] at hm
  cases content with
  | none => exact absurd hm List.not_mem_nil
  | some value =>
    obtain ⟨entry, -, rfl⟩ := List.mem_map.mp hm
    exact SideFile.idOf_ne_empty entry

/-- In the end a counter is the value that was given to it last, or else zero, and what was counted
in the files that are read. -/
theorem get_metricsOf_final (h : stages.Of s given root graph) {record : Record}
    (hrecord : record ∈ stages.merged.records) (counter : Counter) :
    (stages.final.metricsOf record.id).get counter
      = (lastGiven stages.manual record.id counter).getD 0
        + counted stages.scope (stages.readingsOf record) counter := by
  have hnonempty := stages.merged.named record hrecord
  -- The registry before manual modules counts nothing.
  have hshown : stages.shown.metricsOf record.id = .zero := by
    obtain ⟨declared, entry, found, -, -, hshown⟩ := registered_eq_ok h.registered
    rw [hshown, Registry.metricsOf_ensureAll, Registry.metricsOf_empty]
  have hmerged : record.metrics.get counter
      = (lastGiven stages.manual record.id counter).getD 0 := by
    rw [← stages.merged.metricsOf_of_mem hrecord]
    show ((stages.shown.mergeManual stages.manual).metricsOf record.id).get counter = _
    rw [Registry.get_metricsOf_mergeManual _ _ hnonempty, hshown, Metrics.get_zero]
  -- The walk adds what it counts, and links add nothing.
  have hgained := gained_gainAll stages.walking.tree stages.scope stages.merged record
    (stages.readingsOf record)
  rw [← hmerged, ← hgained.get_metrics counter]
  unfold Stages.final
  rw [Registry.metricsOf_applyLinks]
  exact congrArg (Metrics.get · counter)
    (stages.walked.metricsOf_of_mem (h.mem_walked hrecord))

/-- The graph shows every manual module. -/
theorem mem_ids_of_manual (h : stages.Of s given root graph) {m : ManualModule}
    (hm : m ∈ stages.manual) : m.id ∈ graph.ids := by
  have hnonempty := h.id_ne_empty_of_manual hm
  have hmerged : stages.merged.isManual m.id = true := by
    show (stages.shown.mergeManual stages.manual).isManual m.id = true
    rw [Registry.isManual_mergeManual _ _ hnonempty, Bool.or_eq_true, List.any_eq_true]
    exact Or.inr ⟨m, hm, by simp⟩
  obtain ⟨record, hrecord, hid, hmanual⟩ := stages.merged.exists_mem_of_isManual hmerged
  -- Neither the walk nor links take the mark away.
  have hfinal : stages.final.isManual m.id = true := by
    unfold Stages.final
    rw [Registry.isManual_applyLinks, ← hid]
    exact (stages.walked.isManual_of_mem (h.mem_walked hrecord)).trans hmanual
  obtain ⟨shown, hshown, hsame, hmark⟩ := stages.final.exists_mem_of_isManual hfinal
  have hgraph := Graph.wellFormed_of_build stages.final.distinct stages.final.named
    (fun _ hmem => h.sound_final.of_mem hmem) h.built
  refine Decidable.byContradiction fun habsent => ?_
  have hidle := (hgraph.absent_iff shown hshown).mp (hsame ▸ habsent)
  exact absurd (hidle.not_manual.symm.trans hmark) (by decide)

end Stages.Of

/-- What the counters of a survey show. The graph lists every manual module; and each counter of
each module that it lists is the value that a manual module with its identifier gave last, or else
zero, and on top of it what was counted in the files that are read for the module. -/
theorem survey_counters {s s' : Session} {given : Option Settings} {root : String} {graph : Graph}
    (h : Work.survey given root s = .ok graph s') :
    ∃ stages : Stages, stages.Of s given root graph ∧
      (∀ m ∈ stages.manual, m.id ∈ graph.ids) ∧
      ∀ shown ∈ graph.modules, ∃ record ∈ stages.merged.records, record.id = shown.id ∧
        ∀ counter, shown.metrics.get counter
          = (lastGiven stages.manual shown.id counter).getD 0
            + counted stages.scope (stages.readingsOf record) counter := by
  obtain ⟨stages, hstages⟩ := exists_stages h
  refine ⟨stages, hstages, fun m hm => hstages.mem_ids_of_manual hm, fun shown hshown => ?_⟩
  have hgraph := Graph.wellFormed_of_build stages.final.distinct stages.final.named
    (fun _ hmem => hstages.sound_final.of_mem hmem) hstages.built
  obtain ⟨final, hfinal, hid, -, -, hmetrics⟩ := hgraph.of_record shown hshown
  -- The identifiers are those of the modules that are walked.
  have hregistered : final.id ∈ stages.merged.ids := by
    rw [← hstages.ids_walked, ← Registry.ids_applyLinks stages.walked stages.links]
    exact List.mem_map_of_mem hfinal
  obtain ⟨record, hrecord, hsame⟩ := List.mem_map.mp hregistered
  refine ⟨record, hrecord, hsame.trans hid.symm, fun counter => ?_⟩
  rw [hmetrics, ← stages.final.metricsOf_of_mem hfinal, hid, ← hsame]
  exact hstages.get_metricsOf_final hrecord counter

/-- A repository with a directory that holds one file, and a manual module with its identifier that
gives two counters. -/
def givenSession : Session where
  tree := {
    entries :=
      [(["r"], .directory), (["r", "src"], .directory), (["r", "src", "a.js"], .file []),
        (["r", "modules.json"],
          .file "[\x7b\"id\": \"src\", \"fileCount\": 5, \"todoCount\": 2\x7d]".toUTF8.toList)]
    distinct := by decide }
  directory := "/"
  now := ⟨2024, 1, 1, 0, 0, 0, 0⟩

/-- Counters that are given are added to by the files that are read. -/
theorem survey_givenSession_counters :
    ∃ graph s', Work.survey (some {}) "/r" givenSession = .ok graph s' ∧
      ∃ stages : Stages, stages.Of givenSession (some {}) "/r" graph ∧
        (∀ m ∈ stages.manual, m.id ∈ graph.ids) ∧
        ∀ shown ∈ graph.modules, ∃ record ∈ stages.merged.records, record.id = shown.id ∧
          ∀ counter, shown.metrics.get counter
            = (lastGiven stages.manual shown.id counter).getD 0
              + counted stages.scope (stages.readingsOf record) counter := by
  obtain ⟨graph, s', h⟩ := Work.exists_of_isSome_answer?
    (show (Work.answer? (Work.survey (some {}) "/r") givenSession).isSome = true by
      decide +kernel)
  exact ⟨graph, s', h, survey_counters h⟩

/-- Five files are given and one is counted; the module shows six. -/
theorem given_counter_is_exceeded :
    ∃ graph s', Work.survey (some {}) "/r" givenSession = .ok graph s' ∧
      ∃ stages : Stages, stages.Of givenSession (some {}) "/r" graph ∧
        lastGiven stages.manual "src" .files = some 5 ∧
        ∃ shown ∈ graph.modules, shown.id = ("src" : CodeText) ∧ shown.metrics.files = 6 := by
  have quiet : givenSession.IsQuiet := fun _ h => nomatch h
  have hanswer : (Work.answer? (Work.survey (some {}) "/r") givenSession).any
      (fun graph => decide (∃ shown ∈ graph.modules,
        shown.id = ("src" : CodeText) ∧ shown.metrics.files = 6))
        = true := by
    decide +kernel
  -- The counter that is given stands in the side file; the graph shows one more.
  have hgiven : ((SideFile.modules givenSession.tree "/r"
      ({} : Settings).modulesFiles).outcome.toOption.map fun manual =>
        lastGiven manual "src" .files) = some (some 5) := by
    decide +kernel
  obtain ⟨graph, s', h⟩ := Work.exists_of_isSome_answer? (Option.isSome_of_any hanswer)
  rw [Work.answer?_of_ok h, Option.any_some] at hanswer
  obtain ⟨stages, hstages⟩ := exists_stages h
  have hmanual := hstages.manual
  rw [(hstages.trees_eq quiet).2.1, hstages.settings_eq, hstages.path_eq
    (show Work.answer? (Work.openRoot "/r") givenSession = some "/r" by decide +kernel)] at hmanual
  rw [hmanual] at hgiven
  exact ⟨graph, s', h, stages, hstages, Option.some.inj hgiven, of_decide_eq_true hanswer⟩

end RepoAtlas.Survey
