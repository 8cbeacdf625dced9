import RepoAtlas.Proofs.Module.Dependencies
import RepoAtlas.Proofs.Session.Reading
import RepoAtlas.Proofs.Survey.Reading

/-!
# `RepoAtlas.Proofs.Survey.Stages`: a survey, stage by stage

A survey that completes has gone through stages, each of which reads the tree and hands its result
to the next. `Stages` holds these results and the sessions that the stages run in, and `Stages.Of`
says how each one comes from those before it. Whatever is proved about the stages holds of the whole
survey.

* `exists_stages`: a survey that completes has stages.
* `Stages.Of.trees_eq`: if notices go to no file, all stages see the tree as it was at the start.
  Otherwise a later stage sees a tree in which the log file has grown (`Stages.Of.grown`).
-/

set_option autoImplicit false

namespace RepoAtlas.Survey

open RepoAtlas.Module

/-- The settings that a survey goes by: those given, or else those of the repository. -/
def settingsFor (given : Option Settings) (path : String) : Work Settings :=
  match given with
  | some settings => pure settings
  | none => Work.settingsOr path fun fault => do
    Work.note .warning .detector s!"Ignoring invalid configuration: {fault.message}"
    return {}

/-- The results of the stages of a survey, and the sessions that they run in. -/
structure Stages where
  /-- The canonical path of the repository. -/
  path : String
  settings : Settings
  /-- The session in which modules are registered. -/
  registering : Session
  /-- The modules that the repository shows by itself. -/
  shown : Registry
  /-- The session in which manual modules are added. -/
  merging : Session
  manual : List ManualModule
  /-- The session in which files are walked. -/
  walking : Session
  /-- The modules after the walk. -/
  walked : Registry
  /-- The number of files read. -/
  visited : Nat
  /-- The session in which links are added. -/
  linking : Session
  links : List Link

namespace Stages

/-- The modules that are walked. -/
def merged (stages : Stages) : Registry :=
  stages.shown.mergeManual stages.manual

/-- What the walk is about. -/
def scope (stages : Stages) : Scope where
  root := Path.normalize stages.path
  excluded := stages.settings.excluded
  extensions := stages.settings.sourceExtensions

/-- The files that are read for a module, with their texts. -/
def readingsOf (stages : Stages) (record : Record) : List Reading :=
  readings stages.walking.tree stages.scope stages.merged.rootOwners record

/-- The modules that the graph is built from. -/
def final (stages : Stages) : Registry :=
  stages.walked.applyLinks stages.links

/-- The stages of a survey that leads to a graph. -/
structure Of (stages : Stages) (s : Session) (given : Option Settings) (root : String)
    (graph : Graph) : Prop where
  opens : ∃ s₁ s₂, Work.openRoot root s = .ok stages.path s₁ ∧
    settingsFor given stages.path s₁ = .ok stages.settings s₂ ∧
    Work.note .info .detector s!"Detecting modules in {stages.path}" s₂ = .ok () stages.registering
  registers : Work.traced (registered · stages.settings stages.path) stages.registering
    = .ok stages.shown stages.merging
  merges : Work.traced (withManual · stages.settings stages.path stages.shown) stages.merging
    = .ok stages.merged stages.walking
  walks : Work.traced (Survey.walked · stages.settings stages.path stages.merged) stages.walking
    = .ok stages.walked stages.linking
  manual : (SideFile.modules stages.merging.tree stages.path stages.settings.modulesFiles).outcome
    = .ok stages.manual
  walked : (walk stages.walking.tree stages.scope stages.merged).outcome
    = .ok (stages.walked, stages.visited)
  links : (SideFile.links stages.linking.tree stages.path stages.settings.linksFiles).outcome
    = .ok stages.links
  built : Graph.build stages.final.records stages.path = .ok graph

end Stages

/-- The second stage reads the manual modules and merges them. -/
theorem withManual_eq_ok {tree : Tree} {settings : Settings} {path : String}
    {registry after : Registry} (h : (withManual tree settings path registry).outcome = .ok after) :
    ∃ manual, (SideFile.modules tree path settings.modulesFiles).outcome = .ok manual ∧
      after = registry.mergeManual manual := by
  obtain ⟨manual, hmanual, h⟩ := Traced.outcome_bind_eq_ok_iff.mp h
  obtain ⟨_, -, h⟩ := Traced.outcome_bind_eq_ok_iff.mp h
  exact ⟨manual, hmanual, (Except.ok.inj h).symm⟩

/-- The third stage walks all modules, with the scope that the settings give. -/
theorem walked_eq_ok {tree : Tree} {settings : Settings} {path : String}
    {registry after : Registry} (h : (walked tree settings path registry).outcome = .ok after) :
    ∃ visited, (walk tree
      { root := Path.normalize path
        excluded := settings.excluded
        extensions := settings.sourceExtensions } registry).outcome = .ok (after, visited) := by
  obtain ⟨⟨found, visited⟩, hwalk, h⟩ := Traced.outcome_bind_eq_ok_iff.mp h
  obtain ⟨_, -, h⟩ := Traced.outcome_bind_eq_ok_iff.mp h
  cases h
  exact ⟨visited, hwalk⟩

/-- The fourth stage reads the links and applies them. -/
theorem linked_eq_ok {tree : Tree} {settings : Settings} {path : String}
    {registry after : Registry} (h : (linked tree settings path registry).outcome = .ok after) :
    ∃ links, (SideFile.links tree path settings.linksFiles).outcome = .ok links ∧
      after = registry.applyLinks links := by
  obtain ⟨links, hlinks, h⟩ := Traced.outcome_bind_eq_ok_iff.mp h
  exact ⟨links, hlinks, (Except.ok.inj h).symm⟩

/-- The last stage makes the graph, and passes its failure on. -/
theorem finished_eq_ok {path : String} {registry : Registry} {graph : Graph}
    (h : (finished path registry).outcome = .ok graph) :
    Graph.build registry.records path = .ok graph := by
  unfold finished at h
  cases hbuild : Graph.build registry.records path with
  | error fault =>
    rw [hbuild] at h
    cases h
  | ok found =>
    rw [hbuild] at h
    obtain ⟨_, -, h⟩ := Traced.outcome_bind_eq_ok_iff.mp h
    cases h
    rfl

/-- Finding the settings takes nothing away, also where a fault in them is told. -/
theorem keeps_settingsFor (given : Option Settings) (path : String) :
    Work.Keeps (settingsFor given path) := by
  cases given with
  | some settings => exact .pure settings
  | none => exact .settingsOr path fun fault => (Work.Keeps.note _ _ _).bind fun _ => .pure _

/-- A survey in a straight line: finding the settings is one step among the others. -/
theorem survey_eq (given : Option Settings) (root : String) :
    Work.survey given root = (do
      let path ← Work.openRoot root
      let settings ← settingsFor given path
      Work.note .info .detector s!"Detecting modules in {path}"
      let registry ← Work.traced fun tree => registered tree settings path
      let registry ← Work.traced fun tree => withManual tree settings path registry
      let registry ← Work.traced fun tree => walked tree settings path registry
      let registry ← Work.traced fun tree => linked tree settings path registry
      Work.traced fun _ => finished path registry) := by
  cases given <;> rfl

/-- A survey that completes has gone through its stages. -/
theorem exists_stages {s s' : Session} {given : Option Settings} {root : String} {graph : Graph}
    (h : Work.survey given root s = .ok graph s') :
    ∃ stages : Stages, stages.Of s given root graph := by
  rw [survey_eq] at h
  obtain ⟨path, s₁, hopen, h⟩ := Work.bind_eq_ok_iff.mp h
  obtain ⟨settings, s₂, hsettings, h⟩ := Work.bind_eq_ok_iff.mp h
  obtain ⟨_, s₃, hnote, h⟩ := Work.bind_eq_ok_iff.mp h
  -- From here on every stage is a computation on the tree.
  obtain ⟨shown, s₄, hshown, h⟩ := Work.bind_eq_ok_iff.mp h
  obtain ⟨merged, s₅, hmerged, h⟩ := Work.bind_eq_ok_iff.mp h
  obtain ⟨after, s₆, hwalked, h⟩ := Work.bind_eq_ok_iff.mp h
  obtain ⟨final, s₇, hlinked, h⟩ := Work.bind_eq_ok_iff.mp h
  -- Each stage says what it reads from the tree of its session.
  obtain ⟨manual, hmanual, rfl⟩ := withManual_eq_ok (Work.traced_eq_ok hmerged).1
  obtain ⟨visited, hwalk⟩ := walked_eq_ok (Work.traced_eq_ok hwalked).1
  obtain ⟨links, hlinks, rfl⟩ := linked_eq_ok (Work.traced_eq_ok hlinked).1
  exact ⟨⟨path, settings, s₃, shown, s₄, manual, s₅, after, visited, s₆, links⟩,
    { opens := ⟨s₁, s₂, hopen, hsettings, hnote⟩
      registers := hshown
      merges := hmerged
      walks := hwalked
      manual := hmanual
      walked := hwalk
      links := hlinks
      built := finished_eq_ok (Work.traced_eq_ok h).1 }⟩

/-- What a repository shows by itself: the entry file of a server, then its directories. -/
theorem registered_eq_ok {tree : Tree} {settings : Settings} {path : String} {shown : Registry}
    (h : (registered tree settings path).outcome = .ok shown) :
    ∃ declared entry found, firstFile? tree path serverEntries = .ok entry ∧
      (directories tree settings path).outcome = .ok found ∧
      shown = (Registry.empty declared).ensureAll
        ((entry.map serverContribution).toList ++ found) := by
  obtain ⟨declared, -, h⟩ := Traced.outcome_bind_eq_ok_iff.mp h
  obtain ⟨entry, hentry, h⟩ := Traced.outcome_bind_eq_ok_iff.mp h
  obtain ⟨found, hfound, h⟩ := Traced.outcome_bind_eq_ok_iff.mp h
  exact ⟨declared, entry, found, hentry, hfound, (Except.ok.inj h).symm⟩

namespace Stages.Of

variable {stages : Stages} {s : Session} {given : Option Settings} {root : String} {graph : Graph}

/-! ### What the stages see -/

/-- The session in which modules are registered is later than the first one. -/
theorem later_registering (h : stages.Of s given root graph) : s.Later stages.registering := by
  obtain ⟨s₁, s₂, hopen, hsettings, hnote⟩ := h.opens
  have h₁ := (Work.openRoot_eq_ok hopen).2
  have h₂ := (keeps_settingsFor given stages.path).of_ok s₁ _ s₂ hsettings
  exact (h₁.trans h₂).trans ((Work.Keeps.note _ _ _).of_ok s₂ _ _ hnote)

/-- The session of the walk is later than that. -/
theorem later_walking (h : stages.Of s given root graph) :
    stages.registering.Later stages.walking :=
  (Work.traced_eq_ok h.registers).2.trans (Work.traced_eq_ok h.merges).2

/-- The tree that is walked has all that the tree has from which modules are registered. -/
theorem grown (h : stages.Of s given root graph) :
    stages.registering.tree.Grown stages.walking.tree :=
  h.later_walking.grown

/-- Names are proper when modules are registered, if they were at first. -/
theorem wellNamed_registering (h : stages.Of s given root graph) (hnamed : s.tree.WellNamed) :
    stages.registering.tree.WellNamed :=
  h.later_registering.wellNamed hnamed

/-- And when modules are walked. -/
theorem wellNamed_walking (h : stages.Of s given root graph) (hnamed : s.tree.WellNamed) :
    stages.walking.tree.WellNamed :=
  h.later_walking.wellNamed (h.wellNamed_registering hnamed)

/-- The path of the repository is what opening its root answers. -/
theorem path_eq (h : stages.Of s given root graph) {path : String}
    (hopen : Work.answer? (Work.openRoot root) s = some path) : stages.path = path := by
  obtain ⟨s₁, s₂, hopened, -⟩ := h.opens
  exact Option.some.inj ((Work.answer?_of_ok hopened).symm.trans hopen)

/-- Settings that are given are gone by. -/
theorem settings_eq {settings : Settings} (h : stages.Of s (some settings) root graph) :
    stages.settings = settings := by
  obtain ⟨s₁, s₂, -, hsettings, -⟩ := h.opens
  exact (EStateM.Result.ok.inj hsettings).1.symm

/-- If notices go to no file, all stages see the tree as it was at the start. -/
theorem trees_eq (h : stages.Of s given root graph) (quiet : s.IsQuiet) :
    stages.registering.tree = s.tree ∧ stages.merging.tree = s.tree ∧
      stages.walking.tree = s.tree ∧ stages.linking.tree = s.tree := by
  have hmerging := h.later_registering.trans (Work.traced_eq_ok h.registers).2
  have hwalking := hmerging.trans (Work.traced_eq_ok h.merges).2
  have hlinking := hwalking.trans (Work.traced_eq_ok h.walks).2
  exact ⟨h.later_registering.tree_eq quiet, hmerging.tree_eq quiet, hwalking.tree_eq quiet,
    hlinking.tree_eq quiet⟩

/-- If notices go to no file, the modules that are walked come from the tree as it was. -/
theorem outcome_merged (h : stages.Of s given root graph) (quiet : s.IsQuiet) :
    (Survey.registered s.tree stages.settings stages.path >>=
      withManual s.tree stages.settings stages.path).outcome = .ok stages.merged := by
  obtain ⟨hregistering, hmerging, -⟩ := h.trees_eq quiet
  have hshown := (Work.traced_eq_ok h.registers).1
  have hmerged := (Work.traced_eq_ok h.merges).1
  rw [hregistering] at hshown
  rw [hmerging] at hmerged
  exact Traced.outcome_bind_eq_ok_iff.mpr ⟨stages.shown, hshown, hmerged⟩

/-- The path of a repository that is surveyed is in normal form. -/
theorem isNormal_path (h : stages.Of s given root graph) : Path.IsNormal stages.path := by
  obtain ⟨s₁, s₂, hopen, -⟩ := h.opens
  exact (Work.openRoot_eq_ok hopen).1

/-- The modules that a repository shows by itself, as the outcome of the first stage. -/
theorem registered (h : stages.Of s given root graph) :
    (registered stages.registering.tree stages.settings stages.path).outcome = .ok stages.shown :=
  (Work.traced_eq_ok h.registers).1

/-! ### What the stages lead to -/

/-- The modules after the walk, with all that they gained from it. -/
theorem walked_eq (h : stages.Of s given root graph) :
    stages.visited = (stages.merged.records.map fun record =>
        (readings stages.walking.tree stages.scope stages.merged.rootOwners record).length).sum ∧
      stages.walked.records = stages.merged.records.map fun record => gainAll record
        (reportsOf stages.walking.tree stages.scope stages.merged record.id
          (readings stages.walking.tree stages.scope stages.merged.rootOwners record)) := by
  obtain ⟨walked, hwalk, -, hrecords⟩ := walk_eq_ok stages.walking.tree stages.scope stages.merged
  have hsame := h.walked.symm.trans hwalk
  simp only [Except.ok.injEq, Prod.mk.injEq] at hsame
  exact ⟨hsame.2, hsame.1 ▸ hrecords⟩

/-- A module after the walk has gained what the files say that were read for it. -/
theorem mem_walked (h : stages.Of s given root graph) {record : Record}
    (hrecord : record ∈ stages.merged.records) :
    gainAll record (reportsOf stages.walking.tree stages.scope stages.merged record.id
      (stages.readingsOf record)) ∈ stages.walked.records := by
  rw [h.walked_eq.2]
  exact List.mem_map.mpr ⟨record, hrecord, rfl⟩

/-- The walk neither registers nor forgets a module. -/
theorem ids_walked (h : stages.Of s given root graph) : stages.walked.ids = stages.merged.ids := by
  unfold Registry.ids
  rw [h.walked_eq.2, List.map_map]
  rfl

/-- The records that are walked are sound: they come from nothing by operations that keep it. -/
theorem sound_merged (h : stages.Of s given root graph) : stages.merged.Sound := by
  obtain ⟨declared, entry, found, -, -, hshown⟩ := registered_eq_ok h.registered
  unfold Stages.merged
  rw [hshown]
  exact ((Registry.sound_empty declared).ensureAll _).apply (.mergeManual stages.manual)

/-- So are those that the graph is made of, after the walk and the links. -/
theorem sound_final (h : stages.Of s given root graph) : stages.final.Sound := by
  refine Registry.Sound.apply (fun id record hget => ?_) (.applyLinks stages.links)
  obtain ⟨hmem, -⟩ := (Registry.get?_eq_some_iff _).mp hget
  rw [h.walked_eq.2] at hmem
  obtain ⟨before, hbefore, rfl⟩ := List.mem_map.mp hmem
  exact sound_gainAll (h.sound_merged.of_mem hbefore) _

end Stages.Of

end RepoAtlas.Survey
