import RepoAtlas.Proofs.Survey.Edges
import RepoAtlas.Proofs.Survey.Ownership

/-!
# `RepoAtlas.Proofs.Survey.Attribution`: whose file a file is to imports

A walk gives a file to the modules whose roots lead to it, and stops at the roots of others. What
leads to the file by an import looks for the first registered module with a root around it. These
two rules are independent: an import may well lead to a module that never reads the file.

* `findOwner_eq_some_iff`: an import finds the first module with a root around the file.
* `surrounds_of_reading`: a module that reads a file has a root around it.
* `survey_attribution`: hence the module that reads a file is also the one that imports find, as
  long as no module registered before it has a root around the file; otherwise one of those is.
* `import_leads_past_reader`: a manual module inside a directory module is registered after it, and
  so its own imports lead out of it.
-/

set_option autoImplicit false

namespace RepoAtlas.Survey

open RepoAtlas.Module
open RepoAtlas.Path (IsName IsNormal descend)

/-- A module with a root that is the path or lies around it. -/
def Surrounds (record : Record) (path : String) : Prop :=
  ∃ root ∈ record.roots, Path.isWithin path root = true

/-- The first registered module with a root around a path. -/
def IsFirstAround (registry : Registry) (path : String) (owner : Record) : Prop :=
  ∃ before after, registry.records = before ++ owner :: after ∧ Surrounds owner path ∧
    ∀ other ∈ before, ¬Surrounds other path

/-- An import finds the first module around the path that it leads to. -/
theorem findOwner_eq_some_iff {registry : Registry} {path : String} (hnormal : IsNormal path)
    {owner : Record} :
    registry.findOwner path = some owner ↔ IsFirstAround registry path owner := by
  -- A record surrounds the path if one of its roots does.
  have haround : ∀ record : Record,
      record.roots.toList.any (Path.isWithin path) = true ↔ Surrounds record path := fun _ =>
    List.any_eq_true
  unfold Registry.findOwner IsFirstAround
  simp only [hnormal.normalize_eq]
  rw [List.find?_eq_some_iff_append, haround]
  constructor
  · rintro ⟨hsurrounds, before, after, hsplit, hbefore⟩
    refine ⟨before, after, hsplit, hsurrounds, fun other hother => ?_⟩
    rw [← haround]
    simpa using hbefore other hother
  · rintro ⟨before, after, hsplit, hsurrounds, hbefore⟩
    refine ⟨hsurrounds, before, after, hsplit, fun other hother => ?_⟩
    rw [Bool.not_eq_true', ← Bool.not_eq_true, haround]
    exact hbefore other hother

/-- If some module has a root around a path, one is found, and it is that module exactly when none
registered before it has such a root. -/
theorem exists_isFirstAround {registry : Registry} {path : String} (hnormal : IsNormal path)
    {front back : List Record} {record : Record}
    (hsplit : registry.records = front ++ record :: back) (hsurrounds : Surrounds record path) :
    ∃ owner, IsFirstAround registry path owner ∧
      (owner = record ↔ ∀ earlier ∈ front, ¬Surrounds earlier path) := by
  have hsome : (registry.findOwner path).isSome = true := by
    obtain ⟨root, hroot, hwithin⟩ := hsurrounds
    unfold Registry.findOwner
    simp only [hnormal.normalize_eq, List.find?_isSome, List.any_eq_true]
    exact ⟨record, by simp [hsplit], root, hroot, hwithin⟩
  obtain ⟨owner, howner⟩ := Option.isSome_iff_exists.mp hsome
  refine ⟨owner, (findOwner_eq_some_iff hnormal).mp howner, ?_, fun hfirst => ?_⟩
  · rintro rfl
    obtain ⟨before, after, hsplit', -, hbefore⟩ := (findOwner_eq_some_iff hnormal).mp howner
    -- Records are distinct, so there is one way to split them at this one.
    have hnodup : registry.records.Nodup := registry.distinct.of_map _
    have hnot : ∀ {before after}, registry.records = before ++ owner :: after →
        owner ∉ before ∧ owner ∉ after := by
      intro before after hsplit
      rw [hsplit, List.nodup_append, List.nodup_cons] at hnodup
      exact ⟨fun hmem => hnodup.2.2 owner hmem owner List.mem_cons_self rfl, hnodup.2.1.1⟩
    have hsame := (List.append_cons_inj_of_notMem (hnot hsplit').1 (hnot hsplit').2).mp
      (hsplit'.symm.trans hsplit)
    exact hsame.1 ▸ hbefore
  · have hrecord := (findOwner_eq_some_iff hnormal).mpr ⟨front, back, hsplit, hsurrounds, hfirst⟩
    exact Option.some.inj (howner.symm.trans hrecord)

/-! ### What references lead to -/

/-- The paths that the references of a file lead to. -/
def leadsTo (tree : Tree) (file : String) (text : List Char) : List String :=
  (Source.references text).relative.toList.filterMap (Source.resolve? tree file)

/-- The dependency that a module gains from a reference to a path: the owner of the path, unless
that is the module itself. -/
def targetOf (registry : Registry) (id : CodeText) (path : String) : Option CodeText :=
  ((registry.findOwner path).map Record.id).filter (· ≠ id)

/-- The targets of a report are the modules that own what its references lead to. -/
theorem targets_report (tree : Tree) (scope : Scope) (registry : Registry) (id : CodeText)
    (file : String) (text : List Char) :
    (report tree scope registry id file text).targets
      = (leadsTo tree file text).filterMap (targetOf registry id) := by
  unfold report leadsTo
  simp only [List.map_filterMap, List.filter_filterMap, List.filterMap_filterMap]
  refine List.filterMap_congr fun reference _ => ?_
  cases Source.resolve? tree file reference with
  | none => rfl
  | some resolved => rfl

/-- How references to a path count, wherever they stand: as a dependency on one module in the files
of every other module, and as nothing in files of that module. -/
structure ImportsLeadTo (stages : Stages) (path : String) (owner : Record) : Prop where
  elsewhere : ∀ record ∈ stages.merged.records, record ≠ owner →
    ∀ file text, (file, text) ∈ stages.readingsOf record →
      path ∈ leadsTo stages.walking.tree file text → stages.walked.DependsOn record.id owner.id
  within : ∀ file text, (file, text) ∈ stages.readingsOf owner →
    (report stages.walking.tree stages.scope stages.merged owner.id file text).targets
      = ((leadsTo stages.walking.tree file text).filter (· ≠ path)).filterMap
          (targetOf stages.merged owner.id)

namespace Stages.Of

variable {stages : Stages} {s : Session} {given : Option Settings} {root : String} {graph : Graph}
  {path : String}

/-- A file that is read for a module has a normal path, and the module has a root around it. -/
theorem surrounds_of_reading (h : stages.Of s given root graph) (hnamed : s.tree.WellNamed)
    {record : Record} (hrecord : record ∈ stages.merged.records) {text : List Char}
    (hread : (path, text) ∈ stages.readingsOf record) :
    IsNormal path ∧ Surrounds record path := by
  have hnormal := (h.sound_merged.of_mem hrecord).normal
  obtain ⟨-, -, hfound⟩ :=
    ((readings_exact (h.wellNamed_walking hnamed) hnormal).mem_iff path text).mp hread
  rcases hfound with hroot | ⟨start, hstart, -, names, -, hnames, rfl, -⟩
  · exact ⟨hnormal path hroot, path, hroot, by simp [Path.isWithin]⟩
  · exact ⟨(hnormal start hstart).descend hnames, start, hstart,
      (hnormal start hstart).isWithin_self hnames⟩

/-- References to a path lead to the module that is first around it. -/
theorem importsLeadTo (h : stages.Of s given root graph) {owner : Record}
    (howner : stages.merged.findOwner path = some owner) : ImportsLeadTo stages path owner where
  elsewhere := by
    intro record hrecord hne file text hread hleads
    obtain ⟨hfile, htext⟩ := mem_filterMap_reading?.mp hread
    obtain ⟨reference, hreference, hresolved⟩ := List.mem_filterMap.mp hleads
    -- No two records share an id, so another record has another one.
    have hid : record.id ≠ owner.id := by
      intro heq
      have hfound := Registry.get?_of_mem _ (List.mem_of_find?_eq_some howner)
      rw [← heq, Registry.get?_of_mem _ hrecord] at hfound
      exact hne (Option.some.inj hfound)
    rw [h.dependsOn_walked]
    exact Or.inr ⟨hid, record, Registry.get?_of_mem _ hrecord, file, text, mem_files.mp hfile,
      htext, reference, hreference, path, owner, hresolved, howner, rfl⟩
  within := by
    intro file text _
    have hnone : targetOf stages.merged owner.id path = none := by
      simp [targetOf, howner]
    rw [targets_report, List.filterMap_filter]
    refine List.filterMap_congr fun led _ => ?_
    by_cases hled : led = path
    · simp [hled, hnone]
    · simp [hled]

end Stages.Of

/-- Whose file a file that is read is to imports. Imports that lead to it count for the first
registered module with a root around it. That is the module that reads the file exactly when no
module registered before has a root around the file. -/
theorem survey_attribution {s s' : Session} (hnamed : s.tree.WellNamed)
    {given : Option Settings} {root : String} {graph : Graph}
    (h : Work.survey given root s = .ok graph s') :
    ∃ stages : Stages, stages.Of s given root graph ∧ ∀ front record back,
      stages.merged.records = front ++ record :: back →
        ∀ path text, (path, text) ∈ stages.readingsOf record →
          ∃ owner, stages.merged.findOwner path = some owner ∧
            IsFirstAround stages.merged path owner ∧
            (owner = record ↔ ∀ earlier ∈ front, ¬Surrounds earlier path) ∧
            ImportsLeadTo stages path owner := by
  obtain ⟨stages, hstages⟩ := exists_stages h
  refine ⟨stages, hstages, ?_⟩
  intro front record back hsplit path text hread
  have hrecord : record ∈ stages.merged.records := by simp [hsplit]
  obtain ⟨hnormal, hsurrounds⟩ := hstages.surrounds_of_reading hnamed hrecord hread
  obtain ⟨owner, hfirst, hiff⟩ := exists_isFirstAround hnormal hsplit hsurrounds
  have howner := (findOwner_eq_some_iff hnormal).mpr hfirst
  exact ⟨owner, howner, hfirst, hiff, hstages.importsLeadTo howner⟩

/-- A repository with a directory, and a manual module inside it in which one file imports
another. -/
def insideSession : Session where
  tree := {
    entries :=
      [(["r"], .directory), (["r", "src"], .directory), (["r", "src", "a.js"], .file []),
        (["r", "src", "core"], .directory),
        (["r", "src", "core", "a.js"], .file "import './b.js'".toUTF8.toList),
        (["r", "src", "core", "b.js"], .file []),
        (["r", "modules.json"],
          .file "[\x7b\"id\": \"core\", \"path\": \"src/core\"\x7d]".toUTF8.toList)]
    distinct := by decide }
  directory := "/"
  now := ⟨2024, 1, 1, 0, 0, 0, 0⟩

/-- Where a module stands inside another, the first one registered owns the files of both. -/
theorem survey_insideSession_attribution :
    insideSession.tree.WellNamed ∧
    ∃ graph s', Work.survey (some {}) "/r" insideSession = .ok graph s' ∧
      ∃ stages : Stages, stages.Of insideSession (some {}) "/r" graph ∧ ∀ front record back,
        stages.merged.records = front ++ record :: back →
          ∀ path text, (path, text) ∈ stages.readingsOf record →
            ∃ owner, stages.merged.findOwner path = some owner ∧
              IsFirstAround stages.merged path owner ∧
              (owner = record ↔ ∀ earlier ∈ front, ¬Surrounds earlier path) ∧
              ImportsLeadTo stages path owner := by
  have hnamed : insideSession.tree.WellNamed := by decide +kernel
  obtain ⟨graph, s', h⟩ := Work.exists_of_isSome_answer?
    (show (Work.answer? (Work.survey (some {}) "/r") insideSession).isSome = true by
      decide +kernel)
  exact ⟨hnamed, graph, s', h, survey_attribution hnamed h⟩

/-- Only the manual module reads its files, and yet imports of one of them lead to the directory
around it, which is registered first: one of its own files makes the module depend on that. -/
theorem import_leads_past_reader :
    ∃ graph s', Work.survey (some {}) "/r" insideSession = .ok graph s' ∧
      ∃ stages : Stages, stages.Of insideSession (some {}) "/r" graph ∧
        ∃ record ∈ stages.merged.records, record.id = "core" ∧
          (∀ other ∈ stages.merged.records,
            "/r/src/core/b.js" ∈ (stages.readingsOf other).map Prod.fst ↔ other = record) ∧
          (stages.merged.findOwner "/r/src/core/b.js").map Record.id = some ("src" : CodeText) ∧
          ⟨"core", "src"⟩ ∈ graph.edges := by
  have quiet : insideSession.IsQuiet := fun _ h => nomatch h
  -- What the survey answers, and what it walks, can both be computed.
  have hanswer : (Work.answer? (Work.survey (some {}) "/r") insideSession).any
      (fun graph => decide (⟨"core", "src"⟩ ∈ graph.edges)) = true := by decide +kernel
  have hwalked : ((registered insideSession.tree {} "/r" >>=
      withManual insideSession.tree {} "/r").outcome.toOption.any fun merged =>
        decide (∃ record ∈ merged.records, record.id = ("core" : CodeText) ∧
          (∀ other ∈ merged.records, "/r/src/core/b.js" ∈
            (readings insideSession.tree { root := "/r" } merged.rootOwners other).map Prod.fst ↔
              other = record) ∧
          (merged.findOwner "/r/src/core/b.js").map Record.id
            = some ("src" : CodeText))) = true := by
    decide +kernel
  obtain ⟨graph, s', h⟩ := Work.exists_of_isSome_answer? (Option.isSome_of_any hanswer)
  rw [Work.answer?_of_ok h, Option.any_some, decide_eq_true_eq] at hanswer
  obtain ⟨stages, hstages⟩ := exists_stages h
  have hpath := hstages.path_eq
    (show Work.answer? (Work.openRoot "/r") insideSession = some "/r" by decide +kernel)
  have hmerged := hstages.outcome_merged quiet
  rw [hstages.settings_eq, hpath] at hmerged
  rw [hmerged] at hwalked
  obtain ⟨record, hrecord, hid, hreads, howner⟩ := of_decide_eq_true hwalked
  have hscope : stages.scope = { root := "/r" } := by
    have hnormal : Path.normalize "/r" = "/r" := by decide +kernel
    unfold Stages.scope
    rw [hpath, hstages.settings_eq, hnormal]
    rfl
  refine ⟨graph, s', h, stages, hstages, record, hrecord, hid, fun other hother => ?_, howner,
    hanswer⟩
  unfold Stages.readingsOf
  rw [(hstages.trees_eq quiet).2.2.1, hscope]
  exact hreads other hother

end RepoAtlas.Survey
