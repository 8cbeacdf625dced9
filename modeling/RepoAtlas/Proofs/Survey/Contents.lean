import RepoAtlas.Proofs.Session.Agreement
import RepoAtlas.Proofs.SideFile.Agreement
import RepoAtlas.Proofs.Survey.Correspondence

/-!
# `RepoAtlas.Proofs.Survey.Contents`: the contents that a survey goes by

A survey looks at names, kinds and links all over a repository, but reads few files: the settings of
the repository, the places of side files, and the source files that lie under the roots of modules
and are not passed over (`IsInput`). That any other file is there may matter, what it says does not.

* `survey_goes_by_inputs`: trees with the same outline, and the same contents of the inputs, lead to
  the same outcome.
-/

set_option autoImplicit false

namespace RepoAtlas.Survey

open RepoAtlas.Module
open RepoAtlas.Path (IsName IsNormal)
open RepoAtlas.Tree (SameKind)
open RepoAtlas.Work (outcome)

/-- The files that the survey of a root may read. -/
inductive IsInput (s : Session) (given : Option Settings) (root : String) : String → Prop
  /-- The file with the settings of the repository, unless settings are given. -/
  | settings {path file : String} (hgiven : given = none)
      (hopen : outcome (Work.openRoot root) s = .ok path)
      (hfile : outcome (Work.settingsFile path) s = .ok file) : IsInput s given root file
  /-- The manifest of packages, and the places of manual modules and links. -/
  | sideFile {path place : String} {settings : Settings}
      (hopen : outcome (Work.openRoot root) s = .ok path)
      (hsettings : outcome (settingsFor given path) s = .ok settings)
      (hplace : place ∈ "package.json" :: (settings.modulesFiles ++ settings.linksFiles)) :
      IsInput s given root (Path.below path place)
  /-- A source file that is a root of a module, or lies under one on a clear way. -/
  | source {path file : String} {settings : Settings} {merged : Registry} {record : Record}
      (hopen : outcome (Work.openRoot root) s = .ok path)
      (hsettings : outcome (settingsFor given path) s = .ok settings)
      (hmerged : (mergedOf s.tree settings path).outcome = .ok merged)
      (hrecord : record ∈ merged.records)
      (hsource : Path.isSource file settings.sourceExtensions = true)
      (hunder : file ∈ record.roots ∨
        ∃ above ∈ record.roots, s.tree.isDirectory above = true ∧
          LiesUnder s.tree (MayEnter (scopeAt settings path) merged.rootOwners record.id) above
            file) :
      IsInput s given root file

/-! ### Trees of the same outline -/

section

variable {tree other : Tree} (alike : tree.Alike other)

include alike

/-- The same paths are files in alike trees. -/
theorem isFileAt_eq_of_alike (path : String) : isFileAt tree path = isFileAt other path := by
  have hfind := alike.find path
  unfold isFileAt Tree.probe
  generalize tree.find path = found at hfind
  generalize other.find path = found' at hfind
  cases hfind with
  | error heq => rw [heq]
  | ok hkind =>
    cases hkind with
    | same entry => rfl
    | file content content' => rfl

/-- What is no file reads alike. -/
theorem readOctets_eq_of_alike {path : String} (h : tree.isFile path = false) :
    tree.readOctets path = other.readOctets path := by
  have hfind := alike.find path
  unfold Tree.isFile at h
  unfold Tree.readOctets
  generalize tree.find path = found at hfind h
  generalize other.find path = found' at hfind
  cases hfind with
  | error heq => rw [heq]
  | ok hkind =>
    cases hkind with
    | same entry => rfl
    | file content content' => cases h

/-- The same paths lead to something. -/
theorem pathExists_eq_of_alike : tree.pathExists = other.pathExists := by
  funext path
  have hfind := alike.find path
  unfold Tree.pathExists
  generalize tree.find path = found at hfind
  generalize other.find path = found' at hfind
  cases hfind <;> rfl

/-- References lead to the same paths. -/
theorem resolve?_eq_of_alike : Source.resolve? tree = Source.resolve? other := by
  funext file reference
  unfold Source.resolve?
  rw [pathExists_eq_of_alike alike]

/-- Entries of the same kind are seen as the same kind, links crossed. -/
theorem seen_agrees_of_alike (path : String) {entry entry' : Entry} (h : SameKind entry entry') :
    Agree Eq (Option.Rel SameKind) (seen tree path entry) (seen other path entry') := by
  cases h with
  | file content content' => exact .ok (.some (.file content content'))
  | same =>
    cases entry with
    | directory => exact .ok (.some (.same _))
    | file content => exact .ok (.some (.same _))
    | link target =>
      -- Only a link is followed, and it leads to entries of the same kind.
      have hfind := alike.find path
      unfold seen
      generalize tree.find path = found at hfind
      generalize other.find path = found' at hfind
      cases hfind with
      | ok hfound => exact .ok (.some hfound)
      | @error fault _ hfault =>
        subst hfault
        cases fault with
        | notFound => exact .ok .none
        | _ => exact .error rfl

/-- Trees of the same outline correspond to each other, path by path. -/
theorem corresponds_of_alike (path : String) : Corresponds Eq Eq tree other path path := by
  -- Entries under one name are of one kind, so the same is seen of them.
  have hpartners : ∀ {directory : String} {entries entries' : List (String × Entry)},
      List.Forall₂ (fun pair pair' => pair'.1 = pair.1 ∧ SameKind pair.2 pair'.2) entries entries' →
        List.Forall₂ (Partners Eq Eq tree other directory directory) entries entries' := by
    intro directory entries entries' h
    refine h.imp fun pair pair' hpair => ?_
    have hseen := seen_agrees_of_alike alike (Path.join directory pair.1) hpair.2
    refine ⟨hpair.1, hpair.2, by rw [hpair.1], ?_⟩
    rw [hpair.1]
    exact hseen
  exact {
    matching := isMatching_eq
    failure := fun _ => rfl
    list_root := (alike.list path).imp (fun _ _ heq => by rw [heq]) fun _ _ => hpartners
    list := by
      rintro path _ rfl
      exact (alike.list path).imp (fun _ _ _ => trivial) fun _ _ => hpartners
    find := by
      rintro path _ rfl
      exact (alike.find path).imp (fun _ _ _ => trivial) fun _ _ hkind => hkind
    isSource := by
      rintro path _ rfl extensions
      rfl
    shown := by
      rintro path _ rfl
      rfl
    relative := by
      rintro path _ rfl
      rfl
    serverEntry := fun place _ => ⟨rfl, agree_eq_iff.mpr (isFileAt_eq_of_alike alike _)⟩
    containers := by
      refine ⟨containerDepth tree, ?_⟩
      rintro settings name path _ rfl
      refine ⟨rfl, ?_⟩
      unfold containerDepth
      rw [alike.length_eq]
    nesting := by
      refine ⟨tree.entries.length + 1, ?_⟩
      rintro scope scope' owners owners' id path _ rfl
      rw [alike.length_eq]
      exact ⟨rfl, rfl⟩ }

end

/-- Side files with the same contents say the same. -/
theorem first_agrees_of_readOctets {tree other : Tree} {path : String} {places : List String}
    (h : ∀ place ∈ places,
      tree.readOctets (Path.below path place) = other.readOctets (Path.below path place)) :
    Traced.Agrees Eq Eq (SideFile.first tree path places) (SideFile.first other path places) := by
  refine SideFile.first_agrees fun place hplace => ?_
  have hread : SideFile.read tree (Path.below path place)
      = SideFile.read other (Path.below path place) := by
    unfold SideFile.read Tree.readText
    rw [h place hplace]
  rw [hread]
  exact (Agree.refl (fun _ => rfl) _).imp (fun _ _ h => h) fun reading _ heq =>
    heq ▸ .refl reading

/-! ### The survey -/

/-- Two sessions that differ in their trees alone. -/
def AreSwapped (s : Session) (other : Tree) (t t' : Session) : Prop :=
  t = s ∧ t' = { s with tree := other }

section

variable {s : Session} {other : Tree} (alike : s.tree.Alike other)

include alike

/-- A session with its tree swapped for an alike one is alike. -/
theorem areAlike_of_alike : Work.AreAlike (AreSwapped s other) where
  tree := by
    rintro _ _ ⟨rfl, rfl⟩
    exact alike
  directory_eq := by
    rintro _ _ ⟨rfl, rfl⟩
    rfl
  homes_eq := by
    rintro _ _ ⟨rfl, rfl⟩
    rfl

/-- The same root is opened, whatever the files hold. -/
theorem outcome_openRoot_eq (root : String) :
    outcome (Work.openRoot root) s = outcome (Work.openRoot root) { s with tree := other } :=
  (Work.Agrees.openRoot (areAlike_of_alike alike) root).outcome_eq ⟨rfl, rfl⟩

variable {given : Option Settings} {root path : String}
  (hinputs : ∀ file, IsInput s given root file → s.tree.readOctets file = other.readOctets file)
  (hopen : outcome (Work.openRoot root) s = .ok path)

include hinputs hopen

/-- The same settings are found. -/
theorem outcome_settingsFor_eq :
    outcome (settingsFor given path) s
      = outcome (settingsFor given path) { s with tree := other } := by
  cases given with
  | some settings => rfl
  | none =>
    rw [outcome_settingsFor_none, outcome_settingsFor_none]
    congr 1
    refine (Work.Agrees.loadSettings (areAlike_of_alike alike) path ?_).outcome_eq ⟨rfl, rfl⟩
    rintro _ _ file t ⟨rfl, rfl⟩ hfile _ _ ⟨rfl, rfl⟩
    have hsame := hinputs file (.settings rfl hopen (Work.outcome_of_ok hfile))
    unfold Settings.ofFile Tree.readText
    rw [hsame]

variable {settings : Settings} (hsettings : outcome (settingsFor given path) s = .ok settings)

include hsettings

omit alike in
/-- Side files say the same. -/
theorem first_agrees_of_inputs {places : List String}
    (hplaces : places ⊆ "package.json" :: (settings.modulesFiles ++ settings.linksFiles)) :
    Traced.Agrees Eq Eq (SideFile.first s.tree path places) (SideFile.first other path places) :=
  first_agrees_of_readOctets fun _ hplace =>
    hinputs _ (.sideFile hopen hsettings (hplaces hplace))

/-- The files that a walk comes across say the same. -/
theorem filesAgree_of_inputs (hnamed : s.tree.WellNamed) {merged : Registry}
    (hmerged : (mergedOf s.tree settings path).outcome = .ok merged) {record : Record}
    (hrecord : record ∈ merged.records) {file : String}
    (hfile : file ∈ files (sightingsOf s.tree (scopeAt settings path) merged.rootOwners record)) :
    FilesAgree Eq s.tree other file file where
  text := by
    have hsame : s.tree.readOctets file = other.readOctets file := by
      -- A file that is read is an input; what is no file cannot be read in either tree.
      by_cases hisFile : s.tree.isFile file = true
      · have hnormal := ((sound_mergedOf hmerged).of_mem hrecord).normal
        obtain ⟨hsource, hunder⟩ := (mem_files_sightingsOf hnamed hnormal hisFile).mp hfile
        exact hinputs file (.source hopen hsettings hmerged hrecord hsource hunder)
      · exact readOctets_eq_of_alike alike (Bool.eq_false_iff.mpr hisFile)
    unfold Tree.readSource
    rw [hsame]
    exact .refl (fun _ => trivial) _
  references := by
    intro text _ reference _
    rw [resolve?_eq_of_alike alike]
    generalize Source.resolve? other file reference = led
    cases led with
    | none => exact .none
    | some path =>
      refine .some ?_
      rintro above _ rfl
      rfl

end

/-- A survey goes by its inputs: in a repository with the same names, kinds and links, and the same
contents of the inputs, it leads to the same graph, or fails for the same reason. -/
theorem survey_goes_by_inputs {s : Session} {other : Tree} (quiet : s.IsQuiet)
    (hnamed : s.tree.WellNamed) (alike : s.tree.Alike other) (given : Option Settings)
    (root : String)
    (hinputs : ∀ file, IsInput s given root file →
      s.tree.readOctets file = other.readOctets file) :
    outcome (Work.survey given root) s
      = outcome (Work.survey given root) { s with tree := other } := by
  rw [outcome_survey quiet, outcome_survey (s := { s with tree := other }) quiet,
    ← outcome_openRoot_eq alike]
  cases hopen : outcome (Work.openRoot root) s with
  | error failure => rw [error_bind, error_bind]
  | ok path =>
    rw [ok_bind, ok_bind, ← outcome_settingsFor_eq alike hinputs hopen]
    cases hsettings : outcome (settingsFor given path) s with
    | error failure => rw [error_bind, error_bind]
    | ok settings =>
      rw [ok_bind, ok_bind]
      -- Side files are inputs, so the same is read from them.
      have hfirst : ∀ places : List String,
          places ⊆ "package.json" :: (settings.modulesFiles ++ settings.linksFiles) →
          Traced.Agrees Eq Eq (SideFile.first s.tree path places)
            (SideFile.first other path places) := fun places hplaces =>
        first_agrees_of_inputs hinputs hopen hsettings hplaces
      have hpackages := SideFile.packages_agrees (hfirst ["package.json"] (by simp))
      have hlinks := SideFile.links_agrees (hfirst settings.linksFiles (by simp))
      have hmodules : Traced.Agrees Eq (List.Forall₂ (ManualModule.Matches Eq))
          (SideFile.modules s.tree path settings.modulesFiles)
          (SideFile.modules other path settings.modulesFiles) := by
        refine SideFile.modules_agrees (hfirst settings.modulesFiles (by simp)) fun _ _ _ _ => ?_
        rw [List.forall₂_eq_eq_eq]
      refine agree_eq_iff.mp ((corresponds_of_alike alike path).ofTree_agrees settings hpackages
        hmodules hlinks ?_)
      rintro merged hmerged record hrecord file hfile _ rfl
      exact filesAgree_of_inputs alike hinputs hopen hsettings hnamed hmerged hrecord hfile

/-- Whether two trees have the same contents in the files that the walk of a survey comes across. -/
def agreeOnFiles (tree other : Tree) (settings : Settings) (path : String) : Bool :=
  (mergedOf tree settings path).outcome.toOption.all fun merged =>
    merged.records.all fun record =>
      (files (sightingsOf tree (scopeAt settings path) merged.rootOwners record)).all fun file =>
        tree.readOctets file = other.readOctets file

/-- Trees that agree on the files of a survey agree on each source file under a root. -/
theorem readOctets_eq_of_agreeOnFiles {tree other : Tree} (hnamed : tree.WellNamed)
    (alike : tree.Alike other) {settings : Settings} {path : String}
    (h : agreeOnFiles tree other settings path = true) {merged : Registry}
    (hmerged : (mergedOf tree settings path).outcome = .ok merged) {record : Record}
    (hrecord : record ∈ merged.records) {file : String}
    (hsource : Path.isSource file settings.sourceExtensions = true)
    (hunder : file ∈ record.roots ∨ ∃ above ∈ record.roots, tree.isDirectory above = true ∧
      LiesUnder tree (MayEnter (scopeAt settings path) merged.rootOwners record.id) above file) :
    tree.readOctets file = other.readOctets file := by
  by_cases hisFile : tree.isFile file = true
  · have hnormal := ((sound_mergedOf hmerged).of_mem hrecord).normal
    have hmem : file ∈ files (sightingsOf tree (scopeAt settings path) merged.rootOwners record) :=
      (mem_files_sightingsOf hnamed hnormal hisFile).mpr ⟨hsource, hunder⟩
    unfold agreeOnFiles at h
    rw [hmerged] at h
    exact of_decide_eq_true (List.all_eq_true.mp (List.all_eq_true.mp h record hrecord) file hmem)
  · exact readOctets_eq_of_alike alike (Bool.eq_false_iff.mpr hisFile)

/-- A repository whose survey reads a manifest and one source file, of all the files in it. -/
def inputSession : Session where
  tree := {
    entries :=
      [(["r"], .directory), (["r", "package.json"], .file "{}".toUTF8.toList),
        (["r", "tool.py"], .file "pass".toUTF8.toList), (["r", "src"], .directory),
        (["r", "src", "a.js"], .file "import './b.txt'".toUTF8.toList),
        (["r", "src", "b.txt"], .file "TODO".toUTF8.toList),
        (["r", "src", "build"], .directory),
        (["r", "src", "build", "c.js"], .file "import 'c'".toUTF8.toList)]
    distinct := by decide }
  directory := "/"
  now := ⟨2024, 1, 1, 0, 0, 0, 0⟩

/-- The same repository with other contents in all files that are not read. -/
def rewrittenTree : Tree where
  entries :=
    [(["r"], .directory), (["r", "package.json"], .file "{}".toUTF8.toList),
      (["r", "tool.py"], .file "import sys".toUTF8.toList), (["r", "src"], .directory),
      (["r", "src", "a.js"], .file "import './b.txt'".toUTF8.toList),
      (["r", "src", "b.txt"], .file []), (["r", "src", "build"], .directory),
      (["r", "src", "build", "c.js"], .file "import 'd'".toUTF8.toList)]
  distinct := by decide

/-- Files that are no inputs may hold anything: the survey is the same. -/
theorem survey_inputSession_goes_by_inputs :
    (∀ file, IsInput inputSession (some {}) "/r" file →
      inputSession.tree.readOctets file = rewrittenTree.readOctets file) ∧
    outcome (Work.survey (some {}) "/r") inputSession
      = outcome (Work.survey (some {}) "/r") { inputSession with tree := rewrittenTree } := by
  have quiet : inputSession.IsQuiet := fun _ h => nomatch h
  have hnamed : inputSession.tree.WellNamed := by decide +kernel
  have alike : inputSession.tree.Alike rewrittenTree := by decide +kernel
  have hroot : outcome (Work.openRoot "/r") inputSession = .ok "/r" := by decide +kernel
  have hsides : ∀ place ∈ "package.json" :: (Settings.modulesFiles {} ++ Settings.linksFiles {}),
      inputSession.tree.readOctets (Path.below "/r" place)
        = rewrittenTree.readOctets (Path.below "/r" place) := by decide +kernel
  have hfiles : agreeOnFiles inputSession.tree rewrittenTree {} "/r" = true := by decide +kernel
  have hinputs : ∀ file, IsInput inputSession (some {}) "/r" file →
      inputSession.tree.readOctets file = rewrittenTree.readOctets file := by
    intro file hinput
    -- Inputs are the side files and the sources under a root, all of which are compared.
    cases hinput with
    | settings hgiven _ _ => cases hgiven
    | sideFile hopen hsettings hplace =>
      cases hroot.symm.trans hopen
      cases hsettings
      exact hsides _ hplace
    | @source path _ settings merged record hopen hsettings hmerged hrecord hsource hunder =>
      cases hroot.symm.trans hopen
      cases hsettings
      exact readOctets_eq_of_agreeOnFiles hnamed alike hfiles hmerged hrecord hsource hunder
  exact ⟨hinputs, survey_goes_by_inputs quiet hnamed alike (some {}) "/r" hinputs⟩

end RepoAtlas.Survey
