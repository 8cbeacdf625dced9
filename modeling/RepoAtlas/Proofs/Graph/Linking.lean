import RepoAtlas.Proofs.Graph.WellFormed

/-!
# `RepoAtlas.Proofs.Graph.Linking`: the graph with one edge more

A dependency that is added to a record shows as one edge of the graph, provided that both its ends
are listed and the edge was not there. Everything else of the graph stays as it was, scores
included, since no score looks at dependencies.

* `withEdge`: the graph with an edge more.
* `edges_withEdge`: the one edge among the others.
* `build_withEdge`: adding the dependency to the record leads to this graph.
-/

set_option autoImplicit false

namespace RepoAtlas

open RepoAtlas.Module

/-- A module with a dependency more, if it is the one that is asked for. -/
def FinishedModule.withDependency (source target : CodeText) (m : FinishedModule) :
    FinishedModule :=
  if m.id = source then { m with dependencies := m.dependencies ++ [target] } else m

namespace Graph

/-- A graph with an edge more: its target comes last among the dependencies of its source. -/
def withEdge (graph : Graph) (source target : CodeText) : Graph where
  modules := graph.modules.map (FinishedModule.withDependency source target)
  edges := (graph.modules.map (FinishedModule.withDependency source target)).flatMap edgesOf
  summary := { graph.summary with dependencies := graph.summary.dependencies + 1 }

variable {source target : CodeText}

/-- A dependency leaves the id. -/
@[simp] theorem id_withDependency (m : FinishedModule) :
    (m.withDependency source target).id = m.id := by
  unfold FinishedModule.withDependency
  split <;> rfl

/-- It leaves the packages. -/
@[simp] theorem packages_withDependency (m : FinishedModule) :
    (m.withDependency source target).packages = m.packages := by
  unfold FinishedModule.withDependency
  split <;> rfl

/-- It leaves the metrics. -/
@[simp] theorem metrics_withDependency (m : FinishedModule) :
    (m.withDependency source target).metrics = m.metrics := by
  unfold FinishedModule.withDependency
  split <;> rfl

/-- So the ids of all modules stay. -/
theorem map_id_withDependency (modules : List FinishedModule) :
    (modules.map (FinishedModule.withDependency source target)).map FinishedModule.id
      = modules.map FinishedModule.id := by
  simp [Function.comp_def]

/-- Modules with other identifiers are left alone. -/
theorem map_withDependency_of_not_mem {modules : List FinishedModule}
    (h : source ∉ modules.map FinishedModule.id) :
    modules.map (FinishedModule.withDependency source target) = modules := by
  refine (List.map_congr_left fun m hm => ?_).trans (List.map_id modules)
  have hne : m.id ≠ source := fun heq => h (heq ▸ List.mem_map_of_mem hm)
  exact if_neg hne

/-- The edges of a module list in which one module has a dependency more. -/
theorem flatMap_edgesOf_withDependency {modules : List FinishedModule}
    (hids : (modules.map FinishedModule.id).Nodup)
    (hsource : source ∈ modules.map FinishedModule.id) :
    ∃ before after, modules.flatMap edgesOf = before ++ after ∧
      (modules.map (FinishedModule.withDependency source target)).flatMap edgesOf
        = before ++ ⟨source, target⟩ :: after := by
  obtain ⟨m, hm, rfl⟩ := List.mem_map.mp hsource
  obtain ⟨front, back, rfl⟩ := List.append_of_mem hm
  rw [List.map_append, List.map_cons, List.nodup_append, List.nodup_cons] at hids
  obtain ⟨-, ⟨hback, -⟩, hfront⟩ := hids
  -- The id stands once, so all other modules stay as they are.
  have hfront' : m.id ∉ front.map FinishedModule.id :=
    fun hmem => hfront _ hmem _ List.mem_cons_self rfl
  refine ⟨front.flatMap edgesOf ++ edgesOf m, back.flatMap edgesOf, ?_, ?_⟩
  · rw [List.flatMap_append, List.flatMap_cons, List.append_assoc]
  · rw [List.map_append, List.map_cons, map_withDependency_of_not_mem hfront',
      map_withDependency_of_not_mem hback, List.flatMap_append, List.flatMap_cons,
      FinishedModule.withDependency, if_pos rfl]
    simp [edgesOf]

/-- The edges of the graph and the new one. -/
theorem edges_withEdge {graph : Graph} (hedges : graph.edges = graph.modules.flatMap edgesOf)
    (hids : graph.ids.Nodup) (hsource : source ∈ graph.ids) :
    ∃ before after, graph.edges = before ++ after ∧
      (graph.withEdge source target).edges = before ++ ⟨source, target⟩ :: after :=
  hedges ▸ flatMap_edgesOf_withDependency hids hsource

/-! ### The graph of a record with a dependency more -/

/-- A module with a dependency carries something. -/
theorem isReportable_withDependency {m : FinishedModule}
    (h : m.id = source → isReportable m = true) :
    isReportable (m.withDependency source target) = isReportable m := by
  unfold FinishedModule.withDependency
  split
  · next hid =>
    rw [h hid]
    simp [isReportable]
  · rfl

/-- A dependency on another listed module is not pruned. -/
theorem prune_withDependency {listed : List CodeText} (htarget : target ∈ listed)
    (hne : source ≠ target) (m : FinishedModule) :
    prune listed (m.withDependency source target)
      = (prune listed m).withDependency source target := by
  unfold FinishedModule.withDependency
  show prune listed _ = if m.id = source then _ else _
  split
  · next hid =>
    have hkept : (listed.contains target && decide (target ≠ m.id)) = true := by
      rw [Bool.and_eq_true, List.contains_iff_mem, decide_eq_true_eq, hid]
      exact ⟨htarget, hne.symm⟩
    unfold prune
    simp only [List.filter_append, List.filter_singleton, hkept, cond_true]
  · rfl

/-- The dependencies of a summary are counted by the edges. -/
theorem dependencies_summarize (modules : List FinishedModule) :
    (summarize modules).dependencies = (modules.flatMap edgesOf).length := by
  rw [length_flatMap_edgesOf, List.sum_eq_foldl, List.foldl_map]
  rfl

/-- A dependency more adds one to the summary. -/
theorem summarize_withDependency {modules : List FinishedModule}
    (hids : (modules.map FinishedModule.id).Nodup)
    (hsource : source ∈ modules.map FinishedModule.id) :
    summarize (modules.map (FinishedModule.withDependency source target))
      = { summarize modules with dependencies := (summarize modules).dependencies + 1 } := by
  obtain ⟨before, after, hedges, hedges'⟩ :=
    @flatMap_edgesOf_withDependency source target modules hids hsource
  have hdependencies :
      (summarize (modules.map (FinishedModule.withDependency source target))).dependencies
        = (summarize modules).dependencies + 1 := by
    rw [dependencies_summarize, dependencies_summarize, hedges, hedges']
    simp only [List.length_append, List.length_cons]
    omega
  -- Only the dependencies are counted from what has changed.
  rw [← hdependencies]
  unfold summarize
  simp only [List.length_map, List.foldl_map, packages_withDependency, metrics_withDependency]

/-- A new dependency between modules of a graph is a new edge of it. -/
theorem ofModules_withDependency {finished : List FinishedModule}
    (hids : (finished.map FinishedModule.id).Nodup) (hsource : source ∈ (ofModules finished).ids)
    (htarget : target ∈ (ofModules finished).ids) (hne : source ≠ target) :
    ofModules (finished.map (FinishedModule.withDependency source target))
      = (ofModules finished).withEdge source target := by
  rw [ids_ofModules] at hsource htarget
  have hlisted : (finished.map (FinishedModule.withDependency source target)).filter isReportable
      = (finished.filter isReportable).map (FinishedModule.withDependency source target) := by
    rw [List.filter_map]
    refine congrArg (List.map _) (List.filter_congr fun m hm => ?_)
    refine isReportable_withDependency fun hid => ?_
    -- Identifiers are distinct, so the listed module with this one is the same.
    obtain ⟨m', hm', hid'⟩ := List.mem_map.mp hsource
    obtain ⟨hm', hreportable⟩ := List.mem_filter.mp hm'
    rw [List.inj_on_of_nodup_map hids hm hm' (hid.trans hid'.symm)]
    exact hreportable
  have hmodules : (ofModules (finished.map (FinishedModule.withDependency source target))).modules
      = (ofModules finished).modules.map (FinishedModule.withDependency source target) := by
    unfold ofModules
    simp only [hlisted, map_id_withDependency]
    rw [List.map_map, List.map_map]
    exact List.map_congr_left fun m _ => prune_withDependency htarget hne m
  have hids' : (ofModules finished).ids.Nodup := by
    rw [ids_ofModules]
    exact hids.sublist (List.filter_sublist.map _)
  rw [← ids_ofModules] at hsource
  have hsummary : (ofModules (finished.map (FinishedModule.withDependency source target))).summary
      = ((ofModules finished).withEdge source target).summary := by
    show summarize (ofModules (finished.map _)).modules = _
    rw [hmodules, summarize_withDependency hids' hsource]
    rfl
  have hedges : (ofModules (finished.map (FinishedModule.withDependency source target))).edges
      = ((ofModules finished).withEdge source target).edges :=
    congrArg (List.flatMap edgesOf) hmodules
  exact Graph.mk.injEq .. ▸ ⟨hmodules, hedges, hsummary⟩

/-- No score looks at dependencies. -/
theorem finish_addDependency {record : Record} {root : String} {m : FinishedModule}
    (hnew : target ∉ record.dependencies) (h : finish record root = .ok m) :
    finish (record.addDependency target) root
      = .ok { m with dependencies := m.dependencies ++ [target] } := by
  obtain ⟨coverage, hcoverage, h⟩ := bind_eq_ok_iff.mp h
  obtain ⟨health, hhealth, h⟩ := bind_eq_ok_iff.mp h
  obtain ⟨hints, hhints, h⟩ := bind_eq_ok_iff.mp h
  have hinsert :
      (record.dependencies.insert target).toList = record.dependencies.toList ++ [target] := by
    -- The target is new, so it comes at the end.
    rw [OrderedSet.toList_insert]
    exact if_neg hnew
  cases h
  refine bind_eq_ok_iff.mpr ⟨coverage, hcoverage, bind_eq_ok_iff.mpr ⟨health, hhealth,
    bind_eq_ok_iff.mpr ⟨hints, hhints, ?_⟩⟩⟩
  show Except.ok _ = _
  rw [← hinsert]
  rfl

/-- A new dependency between listed modules shows as an edge more, and as nothing else. -/
theorem build_withEdge {records : List Record} {root : String} {graph : Graph}
    (distinct : (records.map Record.id).Nodup) (sound : ∀ record ∈ records, record.Sound)
    (h : build records root = .ok graph) (hsource : source ∈ graph.ids)
    (htarget : target ∈ graph.ids) (hne : source ≠ target) (hnew : ⟨source, target⟩ ∉ graph.edges) :
    build (records.map fun record =>
        if record.id = source then record.addDependency target else record) root
      = .ok (graph.withEdge source target) := by
  obtain ⟨finished, hmap, hgraph⟩ := bind_eq_ok_iff.mp h
  cases hgraph
  have hall := forall₂_finished sound hmap
  -- The record of the source does not depend on the target, or there would be an edge.
  have hfresh : ∀ record ∈ records, record.id = source → target ∉ record.dependencies := by
    intro record hrecord hid hmem
    obtain ⟨m, hm, hsame⟩ := List.mem_map.mp hsource
    obtain ⟨record', hrecord', hid', hdependencies, -⟩ := exists_record_of_mem_modules hall hm
    obtain rfl : record' = record := List.inj_on_of_nodup_map distinct hrecord' hrecord
      (hid'.symm.trans (hsame.trans hid.symm))
    refine hnew (mem_flatMap_edgesOf.mpr ⟨m, hm, hsame, ?_⟩)
    rw [hdependencies, List.mem_filter, decide_eq_true_eq, hid]
    exact ⟨hmem, htarget, hne.symm⟩
  have hmap' : (records.map fun record =>
      if record.id = source then record.addDependency target else record).mapM (finish · root)
        = .ok (finished.map (FinishedModule.withDependency source target)) := by
    refine mapM_eq_ok_iff.mpr (List.rel_map (fun record m hm => ?_)
      ((List.forall₂_and_left _ _).mpr ⟨fun _ hr => hr, mapM_eq_ok_iff.mp hmap⟩))
    obtain ⟨hrecord, hfinish⟩ := hm
    have hid := (finished_of_finish (sound record hrecord) hfinish).id_eq
    unfold FinishedModule.withDependency
    by_cases hsame : record.id = source
    · rw [if_pos hsame, if_pos (hid.trans hsame)]
      exact finish_addDependency (hfresh record hrecord hsame) hfinish
    · rw [if_neg hsame, if_neg fun heq => hsame (hid.symm.trans heq)]
      exact hfinish
  refine bind_eq_ok_iff.mpr ⟨_, hmap', congrArg Except.ok ?_⟩
  exact ofModules_withDependency (ids_finished hall ▸ distinct) hsource htarget hne

end Graph

end RepoAtlas
