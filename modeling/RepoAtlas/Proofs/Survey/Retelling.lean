import RepoAtlas.Proofs.Graph.Linking
import RepoAtlas.Proofs.Graph.Retelling
import RepoAtlas.Proofs.Module.Counters
import RepoAtlas.Proofs.Survey.Contents
import RepoAtlas.Proofs.Tree.Rewriting

/-!
# `RepoAtlas.Proofs.Survey.Retelling`: a survey after one file was rewritten

A survey takes the links of a repository as they are read, and then goes by the tree. So the graph
that it leads to (`Yields`) can be followed along two changes: the links get one more, and one file
of the tree gets another content.

* `outcome_ofTree_eq_ok_iff`: the links are all that is left to know.
* `Yields.withEdge`: one more link shows as one more edge.
* `Yields.retold`: another content shows where the file is read, and only there.
-/

set_option autoImplicit false

namespace RepoAtlas.Survey

open RepoAtlas.Module
open RepoAtlas.Text.Utf8 (decodeLossy)

/-- The graph that a survey leads to, given the links. -/
def Yields (tree : Tree) (settings : Settings) (path : String) (links : List Link) (graph : Graph) :
    Prop :=
  ∃ merged walked visited, (mergedOf tree settings path).outcome = .ok merged ∧
    (walk tree (scopeAt settings path) merged).outcome = .ok (walked, visited) ∧
    Graph.build (walked.applyLinks links).records path = .ok graph

variable {tree other : Tree} {settings : Settings} {path : String} {links : List Link}
  {graph : Graph}

/-- A survey leads to a graph for the links that are read. -/
theorem outcome_ofTree_eq_ok_iff : (ofTree tree settings path).outcome = .ok graph ↔
    ∃ links, (SideFile.links tree path settings.linksFiles).outcome = .ok links ∧
      Yields tree settings path links graph := by
  constructor
  · intro h
    obtain ⟨merged, hmerged, h⟩ := Traced.outcome_bind_eq_ok_iff.mp h
    obtain ⟨after, hwalked, h⟩ := Traced.outcome_bind_eq_ok_iff.mp h
    obtain ⟨final, hlinked, h⟩ := Traced.outcome_bind_eq_ok_iff.mp h
    obtain ⟨visited, hwalk⟩ := walked_eq_ok hwalked
    obtain ⟨links, hlinks, rfl⟩ := linked_eq_ok hlinked
    exact ⟨links, hlinks, merged, after, visited, hmerged, hwalk, finished_eq_ok h⟩
  · rintro ⟨links, hlinks, merged, after, visited, hmerged, hwalk, hbuild⟩
    -- Conversely, each stage leads to what the next one starts from.
    have hwalked : (walked tree settings path merged).outcome = .ok after :=
      Traced.outcome_bind_eq_ok_iff.mpr ⟨(after, visited), hwalk, rfl⟩
    have hlinked : (linked tree settings path after).outcome = .ok (after.applyLinks links) :=
      Traced.outcome_bind_eq_ok_iff.mpr ⟨links, hlinks, rfl⟩
    have hfinished : (finished path (after.applyLinks links)).outcome = .ok graph := by
      unfold finished
      rw [hbuild]
      rfl
    exact Traced.outcome_bind_eq_ok_iff.mpr ⟨merged, hmerged, Traced.outcome_bind_eq_ok_iff.mpr
      ⟨after, hwalked, Traced.outcome_bind_eq_ok_iff.mpr ⟨_, hlinked, hfinished⟩⟩⟩

/-! ### What the walk leaves -/

/-- What is walked is sound, also with links added. -/
theorem sound_of_walk {merged walked : Registry} {visited : Nat}
    (hmerged : (mergedOf tree settings path).outcome = .ok merged)
    (hwalk : (walk tree (scopeAt settings path) merged).outcome = .ok (walked, visited))
    (links : List Link) : (walked.applyLinks links).Sound := by
  obtain ⟨walked', hwalk', -, hrecords⟩ := walk_eq_ok tree (scopeAt settings path) merged
  cases hwalk.symm.trans hwalk'
  refine Registry.Sound.apply (fun id record hget => ?_) (.applyLinks links)
  obtain ⟨hmem, -⟩ := (Registry.get?_eq_some_iff _).mp hget
  rw [hrecords] at hmem
  obtain ⟨before, hbefore, rfl⟩ := List.mem_map.mp hmem
  exact sound_gainAll ((sound_mergedOf hmerged).of_mem hbefore) _

/-- The graph fits what is walked, with the links added. -/
theorem wellFormed_of_walk {merged walked : Registry} {visited : Nat}
    (hmerged : (mergedOf tree settings path).outcome = .ok merged)
    (hwalk : (walk tree (scopeAt settings path) merged).outcome = .ok (walked, visited))
    (hbuild : Graph.build (walked.applyLinks links).records path = .ok graph) :
    Graph.WellFormed (walked.applyLinks links).records (walked.applyLinks links).ids path graph :=
  Graph.wellFormed_of_build (walked.applyLinks links).distinct (walked.applyLinks links).named
    (fun _ hmem => (sound_of_walk hmerged hwalk links).of_mem hmem) hbuild

/-- A graph with distinct modules, and edges that are their dependencies. -/
theorem Yields.wellFormed (h : Yields tree settings path links graph) :
    graph.ids.Nodup ∧ (∀ id ∈ graph.ids, id ≠ "") ∧
      graph.edges = graph.modules.flatMap Graph.edgesOf := by
  obtain ⟨merged, walked, visited, hmerged, hwalk, hbuild⟩ := h
  have hgraph := wellFormed_of_walk hmerged hwalk hbuild
  exact ⟨hgraph.ids_nodup, hgraph.ids_ne_empty, hgraph.edges_eq⟩

/-- Listed modules without an edge between them have no link. -/
theorem Yields.find?_eq_none {source target : CodeText} (h : Yields tree settings path links graph)
    (hne : source ≠ target) (hsource : source ∈ graph.ids) (htarget : target ∈ graph.ids)
    (hnew : ⟨source, target⟩ ∉ graph.edges) : links.find? (·.joins source target) = none := by
  obtain ⟨merged, walked, visited, hmerged, hwalk, hbuild⟩ := h
  have hgraph := wellFormed_of_walk hmerged hwalk hbuild
  rw [List.find?_eq_none]
  intro link hlink hjoins
  obtain ⟨hlinkSource, hlinkTarget⟩ : link.source = source ∧ link.target = target := by
    simpa [Link.joins] using hjoins
  -- The record of the source depends on the target, and so its module shows the edge.
  obtain ⟨m, hm, hid⟩ := List.mem_map.mp hsource
  obtain ⟨record, hrecord, hsame, hdependencies, -⟩ := hgraph.of_record m hm
  have hids : (walked.applyLinks links).ids = walked.ids := walked.ids_applyLinks links
  have hdepends : (walked.applyLinks links).DependsOn source target := by
    rw [Registry.dependsOn_applyLinks, ← hids]
    exact Or.inr ⟨hne, hgraph.ids_sublist.mem hsource, hgraph.ids_sublist.mem htarget, link, hlink,
      hlinkSource, hlinkTarget⟩
  rw [← hid, hsame, Registry.dependsOn_of_mem hrecord] at hdepends
  rw [hgraph.edges_eq] at hnew
  refine hnew (Graph.mem_flatMap_edgesOf.mpr ⟨m, hm, hid, ?_⟩)
  rw [hdependencies, List.mem_filter, decide_eq_true_eq, ← hsame, hid]
  exact ⟨hdepends, htarget, hne.symm⟩

/-- One more link between listed modules without an edge shows as this edge. -/
theorem Yields.withEdge (h : Yields tree settings path links graph) {link : Link}
    {source target : CodeText} (hpair : link.source = source ∧ link.target = target)
    (hne : source ≠ target) (hsource : source ∈ graph.ids) (htarget : target ∈ graph.ids)
    (hnew : ⟨source, target⟩ ∉ graph.edges) :
    Yields tree settings path (links ++ [link]) (graph.withEdge source target) := by
  obtain ⟨rfl, rfl⟩ := hpair
  obtain ⟨merged, walked, visited, hmerged, hwalk, hbuild⟩ := h
  refine ⟨merged, walked, visited, hmerged, hwalk, ?_⟩
  have hsound := sound_of_walk hmerged hwalk links
  have hgraph := wellFormed_of_walk hmerged hwalk hbuild
  -- The modules of the graph are records of the registry, so the link counts.
  have hcontains : ∀ id ∈ graph.ids, (walked.applyLinks links).contains id = true :=
    fun id hid => (Registry.contains_iff _).mpr (hgraph.ids_sublist.mem hid)
  have hlinks : walked.applyLinks (links ++ [link]) = (walked.applyLinks links).applyLink link :=
    List.foldl_append
  rw [hlinks, Registry.records_applyLink _ ⟨hne, hcontains _ hsource, hcontains _ htarget⟩]
  exact Graph.build_withEdge (walked.applyLinks links).distinct (fun _ hmem => hsound.of_mem hmem)
    hbuild hsource htarget hne hnew

/-! ### One file with another content -/

/-- Whether a path leads to a place. -/
def reaches (tree : Tree) (spot : Place) (file : String) : Bool :=
  tree.locate file = .ok spot

/-- How often the walk of a record comes across the file at a place: links lead to it by several
paths. -/
def timesMet (tree : Tree) (settings : Settings) (path : String) (spot : Place) (owners : Owners)
    (record : Record) : Nat :=
  (files (sightingsOf tree (scopeAt settings path) owners record)).countP (reaches tree spot)

/-- How often the walk of a module reads the file at a place. -/
def timesRead (tree : Tree) (settings : Settings) (path : String) (spot : Place)
    (id : CodeText) : Nat :=
  match (mergedOf tree settings path).outcome with
  | .error _ => 0
  | .ok merged => ((merged.get? id).map (timesMet tree settings path spot merged.rootOwners)).getD 0

/-- A module for which a file is read has readings. -/
theorem exists_readings_of_timesRead {merged : Registry} {spot : Place} {content : List UInt8}
    {id : CodeText} (hmerged : (mergedOf tree settings path).outcome = .ok merged)
    (hspot : tree.entry? spot = some (.file content))
    (hread : timesRead tree settings path spot id ≠ 0) :
    ∃ before ∈ merged.records, before.id = id ∧
      readings tree (scopeAt settings path) merged.rootOwners before ≠ [] := by
  unfold timesRead at hread
  rw [hmerged] at hread
  cases hget : merged.get? id with
  | none => simp [hget] at hread
  | some before =>
    obtain ⟨hbefore, hid⟩ := (Registry.get?_eq_some_iff _).mp hget
    simp only [hget, Option.map_some, Option.getD_some, timesMet, ne_eq, List.countP_eq_zero,
      not_forall, not_not] at hread
    obtain ⟨file, hfile, hlead⟩ := hread
    -- The path leads to a file, so there is a reading of it.
    have hfind : tree.isFile file = true := Tree.isFile_iff.mpr
      ⟨content, Tree.find_eq_ok_iff.mpr ⟨spot, of_decide_eq_true hlead, hspot⟩⟩
    obtain ⟨text, htext⟩ := exists_readSource hfind
    exact ⟨before, hbefore, hid,
      List.ne_nil_of_mem (mem_filterMap_reading?.mpr ⟨hfile, htext⟩ : (file, text) ∈ _)⟩

/-- A module for which a file is read has counted it, or a user has set its counters. -/
theorem counted_of_timesRead {merged walked : Registry} {visited : Nat} {spot : Place}
    {content : List UInt8} {record : Record}
    (hmerged : (mergedOf tree settings path).outcome = .ok merged)
    (hwalk : (walk tree (scopeAt settings path) merged).outcome = .ok (walked, visited))
    (hspot : tree.entry? spot = some (.file content))
    (hrecord : record ∈ (walked.applyLinks links).records)
    (hread : timesRead tree settings path spot record.id ≠ 0) :
    record.manual = true ∨ 0 < record.metrics.files := by
  obtain ⟨walked', hwalk', -, hrecords⟩ := walk_eq_ok tree (scopeAt settings path) merged
  cases hwalk.symm.trans hwalk'
  obtain ⟨before, hbefore, hid, hreadings⟩ := exists_readings_of_timesRead hmerged hspot hread
  rw [← Registry.isManual_of_mem _ hrecord, ← Registry.metricsOf_of_mem _ hrecord,
    Registry.isManual_applyLinks, Registry.metricsOf_applyLinks, ← hid]
  have hafter : gainAll before (reportsOf tree (scopeAt settings path) merged before.id
      (readings tree (scopeAt settings path) merged.rootOwners before)) ∈ walked.records :=
    hrecords ▸ List.mem_map_of_mem hbefore
  -- A record that is not manual starts without files and gains one for each reading.
  cases hmanual : before.manual with
  | true => exact Or.inl ((Registry.isManual_of_mem _ hafter).trans hmanual)
  | false =>
    obtain ⟨hfiles, -⟩ := ((sound_mergedOf hmerged).of_mem hbefore).counted hmanual
    have hlength := List.length_pos_of_ne_nil hreadings
    refine Or.inr ?_
    rw [show before.id = (gainAll before _).id from rfl, Registry.metricsOf_of_mem _ hafter]
    show 0 < before.metrics.files + ((reportsOf _ _ _ _ _).length : Int)
    rw [reportsOf, List.length_map]
    omega

section

variable {spot : Place} {old new : List UInt8} (h : tree.Rewritten other spot old new)
  {scope : Scope} {registry : Registry} {id : CodeText}

include h

/-- The file is read on both sides, with its two texts. -/
theorem report_retold {file : String} (text text' : List Char) :
    (report tree scope registry id file text).Retold text text'
      (report other scope registry id file text') where
  lines := ⟨rfl, rfl⟩
  debt := ⟨rfl, rfl⟩
  isTest := rfl
  references heq := by
    unfold report
    simp only [heq, resolve?_eq_of_alike h.alike]
  packages := ⟨rfl, rfl⟩

/-- Reading files, one after the other: the one that differs counts each time. -/
theorem foldl_addReport_retold (paths : List String) {n : Nat} {record record' : Record}
    (hrecord : record.Retold (decodeLossy old) (decodeLossy new) n record') :
    ((reportsOf tree scope registry id (paths.filterMap (reading? tree))).foldl addReport
        record).Retold (decodeLossy old) (decodeLossy new)
      (n + paths.countP (reaches tree spot))
      ((reportsOf other scope registry id (paths.filterMap (reading? other))).foldl addReport
        record') := by
  -- File by file: one that leads to the place is read with other contents, all others are read as
  -- before.
  induction paths generalizing n record record' with
  | nil => exact hrecord
  | cons file rest ih =>
    by_cases hspot : tree.locate file = .ok spot
    · obtain ⟨hold, hnew⟩ := h.readOctets_eq hspot
      have hread : reading? tree file = some (file, decodeLossy old) := by
        rw [reading?, Tree.readSource, hold]
        rfl
      have hread' : reading? other file = some (file, decodeLossy new) := by
        rw [reading?, Tree.readSource, hnew]
        rfl
      rw [List.filterMap_cons_some hread, List.filterMap_cons_some hread',
        List.countP_cons_of_pos (show reaches tree spot file = true from decide_eq_true hspot),
        ← Nat.add_assoc, Nat.add_right_comm]
      exact ih (hrecord.addReport_retold (report_retold h _ _))
    · have hsame : reading? other file = reading? tree file := by
        rw [reading?, reading?, Tree.readSource, Tree.readSource, h.readOctets_eq_of_ne hspot]
      have hlead : ¬reaches tree spot file = true := fun htrue => hspot (of_decide_eq_true htrue)
      rw [List.countP_cons_of_neg hlead]
      cases hread : reading? tree file with
      | none =>
        rw [List.filterMap_cons_none hread, List.filterMap_cons_none (hsame.trans hread)]
        exact ih hrecord
      | some reading =>
        have hreport : report other scope registry id reading.1 reading.2
            = report tree scope registry id reading.1 reading.2 := by
          unfold report
          rw [resolve?_eq_of_alike h.alike]
        rw [List.filterMap_cons_some hread, List.filterMap_cons_some (hsame.trans hread)]
        show Record.Retold _ _ _ ((reportsOf _ _ _ _ _).foldl _ _)
          ((reportsOf _ _ _ _ _).foldl _ (addReport record' (report other _ _ _ _ _)))
        rw [hreport]
        exact ih (hrecord.addReport _)

/-- Both walks come across the same files. -/
theorem files_sightingsOf_eq (settings : Settings) (path : String) (owners : Owners)
    (record : Record) :
    files (sightingsOf other (scopeAt settings path) owners record)
      = files (sightingsOf tree (scopeAt settings path) owners record) := by
  have hsame : record.Matches Eq record :=
    ⟨rfl, List.forall₂_eq_eq_eq ▸ rfl, List.forall₂_eq_eq_eq ▸ rfl⟩
  have hfiles : List.Forall₂ Eq (files (sightingsOf tree (scopeAt settings path) owners record))
      (files (sightingsOf other (scopeAt settings path) owners record)) :=
    (corresponds_of_alike h.alike path).forall₂_files_sightingsOf rfl
      (fun path path' heq => by rw [heq]) rfl hsame
  rw [List.forall₂_eq_eq_eq] at hfiles
  exact hfiles.symm

/-- The walk leaves what it would have left, but for the other text. -/
theorem walk_retold (settings : Settings) (path : String) {merged walked : Registry} {visited : Nat}
    (hwalk : (walk tree (scopeAt settings path) merged).outcome = .ok (walked, visited)) :
    ∃ walked' visited',
      (walk other (scopeAt settings path) merged).outcome = .ok (walked', visited') ∧
      walked.Retold (decodeLossy old) (decodeLossy new)
        (fun id => ((merged.get? id).map
          (timesMet tree settings path spot merged.rootOwners)).getD 0) walked' := by
  obtain ⟨walked₁, hwalk₁, -, hrecords⟩ := walk_eq_ok tree (scopeAt settings path) merged
  obtain ⟨walked', hwalk', -, hrecords'⟩ := walk_eq_ok other (scopeAt settings path) merged
  cases hwalk.symm.trans hwalk₁
  refine ⟨walked', _, hwalk', ?_⟩
  unfold Registry.Retold
  rw [hrecords, hrecords', List.forall₂_map_left_iff, List.forall₂_map_right_iff, List.forall₂_same]
  intro record hrecord
  -- Each record is walked by itself, in the same files on both sides.
  have hread := @foldl_addReport_retold tree other spot old new h (scopeAt settings path) merged
    record.id (files (sightingsOf tree (scopeAt settings path) merged.rootOwners record)) 0 record
    record (.refl (decodeLossy old) (decodeLossy new) record)
  rw [foldl_addReport, foldl_addReport, Nat.zero_add] at hread
  unfold readings
  rw [files_sightingsOf_eq h]
  show Record.Retold _ _ (((merged.get? record.id).map _).getD 0) _ _
  rw [merged.get?_of_mem hrecord]
  exact hread

/-- The same modules are walked, if no manifest and no file with manual modules is rewritten. -/
theorem outcome_mergedOf_eq (hspares : ∀ place ∈ "package.json" :: settings.modulesFiles,
      tree.locate (Path.below path place) ≠ .ok spot) :
    (mergedOf other settings path).outcome = (mergedOf tree settings path).outcome := by
  -- The manifest and the manual modules are read from other files, which are the same.
  have hfirst : ∀ places : List String, places ⊆ "package.json" :: settings.modulesFiles →
      Traced.Agrees Eq Eq (SideFile.first tree path places) (SideFile.first other path places) :=
    fun places hplaces => first_agrees_of_readOctets fun place hplace =>
      h.readOctets_eq_of_ne (hspares place (hplaces hplace))
  have hpackages := SideFile.packages_agrees (hfirst ["package.json"] (by simp))
  have hmodules : Traced.Agrees Eq (List.Forall₂ (ManualModule.Matches Eq))
      (SideFile.modules tree path settings.modulesFiles)
      (SideFile.modules other path settings.modulesFiles) := by
    refine SideFile.modules_agrees (hfirst settings.modulesFiles (by simp)) fun _ _ _ _ => ?_
    rw [List.forall₂_eq_eq_eq]
  have hmerged := (corresponds_of_alike h.alike path).mergedOf_agrees settings hpackages hmodules
  exact (agree_eq_iff.mp (hmerged.imp (fun _ _ heq => heq) fun _ _ hmatch => hmatch.eq_of_eq)).symm

/-- With the other content the survey leads to a graph as well, if that has scores. It differs in
the modules for which the file is read, in as much as its texts do. -/
theorem Yields.retold (hspares : ∀ place ∈ "package.json" :: settings.modulesFiles,
      tree.locate (Path.below path place) ≠ .ok spot)
    (hyields : Yields tree settings path links graph)
    (haffords : graph.Affords (decodeLossy old) (decodeLossy new)
      (timesRead tree settings path spot)) :
    ∃ graph', Yields other settings path links graph' ∧
      graph.Retold (decodeLossy old) (decodeLossy new)
        (timesRead tree settings path spot) graph' := by
  obtain ⟨merged, walked, visited, hmerged, hwalk, hbuild⟩ := hyields
  obtain ⟨walked', visited', hwalk', hretold⟩ := walk_retold h settings path hwalk
  -- How often each record reads the file is told by the registry before the walk.
  have htimes : timesRead tree settings path spot = fun id =>
      ((merged.get? id).map (timesMet tree settings path spot merged.rootOwners)).getD 0 := by
    unfold timesRead
    rw [hmerged]
  rw [← htimes] at hretold
  have hsound := sound_of_walk hmerged hwalk links
  obtain ⟨graph', hbuild', hgraph⟩ := Graph.build_retold (hretold.applyLinks links)
    (fun _ hmem => hsound.of_mem hmem)
    (fun _ hmem => counted_of_timesRead hmerged hwalk h.before hmem) hbuild haffords
  exact ⟨graph', ⟨merged, walked', visited', (outcome_mergedOf_eq h hspares).trans hmerged, hwalk',
    hbuild'⟩, hgraph⟩

end

end RepoAtlas.Survey
