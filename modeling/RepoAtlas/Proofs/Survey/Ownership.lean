import RepoAtlas.Proofs.Survey.Registration

/-!
# `RepoAtlas.Proofs.Survey.Ownership`: every file is read for one module

Without manual modules, a walk reads each source file that registered roots lead to exactly once
over all modules, and no other file. Registration and walk know nothing of each other: registration
may nest roots, list one directory under several paths and give several directories one module, and
a walk stops at the roots of other modules. They fit together because of the deepest root, even if
the tree that is walked is a later one, in which the log file has grown:

* `exists_deepest`: on a clear way down from a root to a file there is a last root. Below it no
  directory is a root, so ownership stops nobody there.
* `mem_files_iff_claims`: a module reads the file exactly when it claims that root.
* `survey_reads_once`: hence one module reads it, once, since one module claims the root.
-/

set_option autoImplicit false

namespace RepoAtlas.Survey

open RepoAtlas.Module
open RepoAtlas.Path (IsName IsNormal descend)

/-- A path that some module has for a root. -/
def IsRoot (registry : Registry) (root : String) : Prop :=
  ∃ id, registry.Claims id root

/-- The deepest root that contains a path: whatever other root contains it contains this root. -/
structure IsDeepest (registry : Registry) (path root : String) : Prop where
  is_root : IsRoot registry root
  contains : Path.isWithin path root = true
  deepest : ∀ other, IsRoot registry other → Path.isWithin path other = true →
    Path.isWithin root other = true

/-- A path that some root which is a directory leads to, through directories that are real and not
passed over. Whose directories they are does not matter. -/
def IsReachable (tree : Tree) (scope : Scope) (registry : Registry) (path : String) : Prop :=
  ∃ root, IsRoot registry root ∧ tree.isDirectory root = true ∧
    LiesUnder tree (fun name _ => IsPassable scope.excluded name) root path

/-- A source file that a survey must read: the entry file of a server, or one that can be
reached. -/
def MustRead (stages : Stages) (path : String) : Prop :=
  Path.isSource path stages.scope.extensions = true ∧
    (stages.HasEntry path ∨ IsReachable stages.walking.tree stages.scope stages.merged path)

/-- The source files that the walk of a module comes across, in order. -/
def Stages.filesOf (stages : Stages) (record : Record) : List String :=
  files (sightingsOf stages.walking.tree stages.scope stages.merged.rootOwners record)

/-- How often the walk of a module comes across a source file. -/
def visits (stages : Stages) (record : Record) (path : String) : Nat :=
  (stages.filesOf record).count path

/-- On a way that starts at a root and does not end at one there is a last root. -/
theorem exists_last {rooted : List String → Prop} (start : rooted []) {names : List String}
    (stop : ¬rooted names) :
    ∃ front back, names = front ++ back ∧ back ≠ [] ∧ rooted front ∧
      ∀ mid rest, back = mid ++ rest → mid ≠ [] → ¬rooted (front ++ mid) := by
  -- By induction from the end of the names: the last one is where it stops, or the place is found
  -- further up.
  induction names using List.reverseRecOn with
  | nil => exact absurd start stop
  | append_singleton init name ih =>
    by_cases hinit : rooted init
    · refine ⟨init, [name], rfl, List.cons_ne_nil _ _, hinit, fun mid rest hsplit hmid => ?_⟩
      obtain ⟨first, more, rfl⟩ := List.exists_cons_of_ne_nil hmid
      obtain ⟨rfl, hmore⟩ := List.cons.inj hsplit
      rw [(List.append_eq_nil_iff.mp hmore.symm).1]
      exact stop
    · obtain ⟨front, back, rfl, hback, hfront, hlast⟩ := ih hinit
      refine ⟨front, back ++ [name], List.append_assoc _ _ _, ?_, hfront,
        fun mid rest hsplit hmid => ?_⟩
      · exact List.append_ne_nil_of_right_ne_nil _ (List.cons_ne_nil _ _)
      · rcases List.eq_nil_or_concat rest with rfl | ⟨rest, last, rfl⟩
        · rw [List.append_nil] at hsplit
          rw [← hsplit, ← List.append_assoc]
          exact stop
        · rw [List.concat_eq_append, ← List.append_assoc] at hsplit
          exact hlast mid rest (List.append_inj' hsplit rfl).1 hmid

/-- What the walk asks of a directory on a way that no root interrupts. -/
def MayPass (scope : Scope) (registry : Registry) (name path : String) : Prop :=
  IsPassable scope.excluded name ∧ ¬IsRoot registry path

namespace Stages.Of

variable {stages : Stages} {s : Session} {given : Option Settings} {root : String} {graph : Graph}
  {path : String}

/-- Without manual modules, the registry is what the directories show. -/
theorem merged_eq (hmanual : stages.manual = []) : stages.merged = stages.shown := by
  unfold Stages.merged
  rw [hmanual]
  rfl

/-- The files that can be read and that the walk of a module comes across. -/
theorem mem_filesOf (h : stages.Of s given root graph) (hnamed : s.tree.WellNamed)
    (hfile : stages.walking.tree.isFile path = true) {record : Record}
    (hrecord : record ∈ stages.merged.records) :
    path ∈ stages.filesOf record ↔ Path.isSource path stages.scope.extensions = true ∧
      (path ∈ record.roots ∨ ∃ start ∈ record.roots,
        stages.walking.tree.isDirectory start = true ∧ LiesUnder stages.walking.tree
          (MayEnter stages.scope stages.merged.rootOwners record.id) start path) :=
  mem_files_sightingsOf (h.wellNamed_walking hnamed) (h.sound_merged.of_mem hrecord).normal hfile

section

variable (h : stages.Of s given root graph) (hnamed : s.tree.WellNamed)
  (hmanual : stages.manual = [])

include h hnamed hmanual

/-- Every root is at the end of a way from the root of the repository. -/
theorem names_of_isRoot {claimed : String} (hroot : IsRoot stages.merged claimed) :
    ∃ names, names ≠ [] ∧ (∀ n ∈ names, IsName n) ∧ claimed = descend stages.path names := by
  rw [merged_eq hmanual] at hroot
  obtain ⟨id, hclaims⟩ := hroot
  rcases h.claims_shown hnamed hclaims with ⟨hentry, -⟩ | ⟨front, name, hnames, hpath, -⟩
  · obtain ⟨place, hplace, hpath, -⟩ := h.entry hentry
    exact ⟨[place], List.cons_ne_nil _ _, List.forall_mem_singleton.mpr hplace, hpath⟩
  · exact ⟨_, List.append_ne_nil_of_right_ne_nil _ (List.cons_ne_nil _ _), hnames, hpath⟩

/-- A root that is a file is the entry file of a server. -/
theorem entry_of_isRoot (hroot : IsRoot stages.merged path)
    (hfile : stages.walking.tree.isFile path = true) : stages.HasEntry path := by
  rw [merged_eq hmanual] at hroot
  obtain ⟨id, hclaims⟩ := hroot
  rcases h.claims_shown hnamed hclaims with ⟨hentry, -⟩ | ⟨_, _, _, _, _, hnot⟩
  · exact hentry
  · exact absurd ((hnot _ h.grown).symm.trans hfile) (by decide)

/-- A root that is a file stands directly in the root of the repository. -/
theorem length_of_isFile {names : List String} (hnames : ∀ n ∈ names, IsName n)
    (hroot : IsRoot stages.merged (descend stages.path names))
    (hfile : stages.walking.tree.isFile (descend stages.path names) = true) :
    names.length = 1 := by
  obtain ⟨place, hplace, hpath, -⟩ := h.entry (h.entry_of_isRoot hnamed hmanual hroot hfile)
  rw [h.isNormal_path.descend_inj hnames (List.forall_mem_singleton.mpr hplace) hpath]
  rfl

/-- A root has one owner, if no module is manual. -/
theorem claims_unique_merged {id other : CodeText} (hclaims : stages.merged.Claims id path)
    (hother : stages.merged.Claims other path) : other = id := by
  rw [merged_eq hmanual] at hclaims hother
  exact h.claims_unique hnamed hclaims hother

/-- A root below which the rest of a way has no other is the deepest around the end of the way. -/
theorem isDeepest_of_last {upper back : List String} (hupper : upper ≠ [])
    (hnames : ∀ n ∈ upper ++ back, IsName n)
    (hroot : IsRoot stages.merged (descend stages.path upper))
    (hlast : ∀ mid rest, back = mid ++ rest → mid ≠ [] →
      ¬IsRoot stages.merged (descend stages.path (upper ++ mid))) :
    IsDeepest stages.merged (descend stages.path (upper ++ back)) (descend stages.path upper) where
  is_root := hroot
  contains := by
    rw [h.isNormal_path.isWithin_descend hupper (List.forall_mem_append.mp hnames).1 hnames]
    exact List.prefix_append upper back
  deepest other hother hcontains := by
    have hnormal := h.isNormal_path
    obtain ⟨names, hne, hothers, rfl⟩ := h.names_of_isRoot hnamed hmanual hother
    rw [hnormal.isWithin_descend hne hothers hnames] at hcontains
    rw [hnormal.isWithin_descend hne hothers (List.forall_mem_append.mp hnames).1]
    rcases List.prefix_or_prefix_of_prefix hcontains (List.prefix_append upper back) with
      hprefix | ⟨mid, rfl⟩
    · exact hprefix
    · -- A root further down would stand on the rest of the way.
      obtain ⟨rest, hsplit⟩ := (List.prefix_append_right_inj upper).mp hcontains
      rcases List.eq_nil_or_concat mid with rfl | ⟨_, _, rfl⟩
      · exact ⟨[], by rw [List.append_nil, List.append_nil]⟩
      · refine absurd hother (hlast _ rest hsplit.symm ?_)
        rw [List.concat_eq_append]
        exact List.append_ne_nil_of_right_ne_nil _ (List.cons_ne_nil _ _)

/-- The deepest root around a file lies on the way to it from any root. -/
theorem exists_between {before names : List String} {claimed : String} (hbefore : before ≠ [])
    (hnames : ∀ n ∈ before ++ names, IsName n)
    (hstart : IsRoot stages.merged (descend stages.path before))
    (hdeepest : IsDeepest stages.merged (descend stages.path (before ++ names)) claimed) :
    ∃ mid rest, names = mid ++ rest ∧ claimed = descend stages.path (before ++ mid) := by
  have hnormal := h.isNormal_path
  have hbeforeNames := (List.forall_mem_append.mp hnames).1
  obtain ⟨claimedNames, hne, hclaimedNames, rfl⟩ :=
    h.names_of_isRoot hnamed hmanual hdeepest.is_root
  have habove : Path.isWithin (descend stages.path (before ++ names))
      (descend stages.path before) = true := by
    rw [hnormal.isWithin_descend hbefore hbeforeNames hnames]
    exact List.prefix_append before names
  -- The deepest root lies within the root that the way starts from, and the file within it.
  have hbelow := hdeepest.deepest _ hstart habove
  rw [hnormal.isWithin_descend hbefore hbeforeNames hclaimedNames] at hbelow
  obtain ⟨mid, rfl⟩ := hbelow
  have hcontains := hdeepest.contains
  rw [hnormal.isWithin_descend hne hclaimedNames hnames, List.prefix_append_right_inj] at hcontains
  obtain ⟨rest, rfl⟩ := hcontains
  exact ⟨mid, rest, rfl, rfl⟩

/-- Every source file that must be read lies under a deepest root without another root on the way,
unless it is a root itself. -/
theorem exists_deepest (hread : stages.HasEntry path ∨
      IsReachable stages.walking.tree stages.scope stages.merged path) :
    ∃ claimed, IsDeepest stages.merged path claimed ∧
      (path = claimed ∨ (stages.walking.tree.isDirectory claimed = true ∧
        LiesUnder stages.walking.tree (MayPass stages.scope stages.merged) claimed path)) := by
  by_cases hpath : IsRoot stages.merged path
  · have hself : Path.isWithin path path = true := by
      unfold Path.isWithin
      rw [decide_eq_true rfl, Bool.true_or]
    exact ⟨path, ⟨hpath, hself, fun _ _ hother => hother⟩, Or.inl rfl⟩
  rcases hread with hentry | ⟨start, hstart, hdir, names, hne, hnames, rfl, hclear⟩
  · exact absurd ⟨_, merged_eq hmanual ▸ h.claims_entry hentry⟩ hpath
  obtain ⟨before, hbefore, hbeforeNames, rfl⟩ := h.names_of_isRoot hnamed hmanual hstart
  -- The last root on the way from the one that reaches the file.
  obtain ⟨front, back, rfl, hback, hrooted, hlast⟩ := @exists_last
    (fun below => IsRoot stages.merged (descend (descend stages.path before) below))
    hstart _ hpath
  obtain ⟨hfrontNames, hbackNames⟩ := List.forall_mem_append.mp hnames
  have hlast' : ∀ mid rest, back = mid ++ rest → mid ≠ [] →
      ¬IsRoot stages.merged (descend stages.path (before ++ front ++ mid)) := by
    intro mid rest hsplit hmid
    rw [List.append_assoc, Path.descend_append]
    exact hlast mid rest hsplit hmid
  have hdeepest := h.isDeepest_of_last hnamed hmanual
    (List.append_ne_nil_of_left_ne_nil hbefore front)
    (List.append_assoc before front back ▸ List.forall_mem_append.mpr ⟨hbeforeNames, hnames⟩)
    (Path.descend_append stages.path before front ▸ hrooted) hlast'
  rw [List.append_assoc, Path.descend_append, Path.descend_append _ before] at hdeepest
  refine ⟨descend (descend stages.path before) front, hdeepest, Or.inr ⟨?_, ?_⟩⟩
  · obtain ⟨place, hplace, hentry⟩ := Tree.isDirectory_iff.mp hdir
    obtain ⟨hlocate, hfound⟩ := hclear.locate_descend
      (h.isNormal_path.descend hbeforeNames) hplace hentry hfrontNames hback
    exact Tree.isDirectory_iff.mpr ⟨_, hlocate, hfound⟩
  · refine ⟨back, hback, hbackNames, Path.descend_append _ _ _, ?_⟩
    intro ahead name after hsplit hafter
    obtain ⟨hreal, hpassable⟩ := hclear.drop ahead name after hsplit hafter
    have hbelow := hlast (ahead ++ [name]) after (by rw [hsplit, List.append_assoc]; rfl)
      (List.append_ne_nil_of_right_ne_nil _ (List.cons_ne_nil _ _))
    rw [Path.descend_append] at hbelow
    exact ⟨hreal, hpassable, hbelow⟩

/-- A module that comes across a file claims the deepest root around it: the walk would have
stopped there otherwise. -/
theorem claims_of_found {claimed : String} (hfile : stages.walking.tree.isFile path = true)
    (hdeepest : IsDeepest stages.merged path claimed) {id : CodeText} {start : String}
    (hstart : stages.merged.Claims id start)
    (hfound : path = start ∨ LiesUnder stages.walking.tree
      (MayEnter stages.scope stages.merged.rootOwners id) start path) :
    stages.merged.Claims id claimed := by
  obtain ⟨before, hbefore, hbeforeNames, rfl⟩ :=
    h.names_of_isRoot hnamed hmanual ⟨id, hstart⟩
  obtain ⟨names, hnames, rfl, hclear⟩ : ∃ names, (∀ n ∈ names, IsName n) ∧
      path = descend (descend stages.path before) names ∧
      (names ≠ [] → Clear stages.walking.tree (MayEnter stages.scope stages.merged.rootOwners id)
        (descend stages.path before) names) := by
    rcases hfound with rfl | ⟨names, -, hnames, hpath, hclear⟩
    · exact ⟨[], fun n hn => absurd hn List.not_mem_nil, rfl, fun hne => absurd rfl hne⟩
    · exact ⟨names, hnames, hpath, fun _ => hclear⟩
  rw [← Path.descend_append] at hdeepest
  obtain ⟨mid, rest, rfl, hclaimed⟩ := h.exists_between hnamed hmanual hbefore
    (List.forall_mem_append.mpr ⟨hbeforeNames, hnames⟩) ⟨id, hstart⟩ hdeepest
  by_cases hmid : mid = []
  · rw [hclaimed, hmid, List.append_nil]
    exact hstart
  by_cases hrest : rest = []
  · -- The file itself would be the root, but the entry file stands above all other roots.
    subst hrest
    rw [List.append_nil] at hnames hfile
    rw [← Path.descend_append] at hfile
    have hlength := h.length_of_isFile hnamed hmanual
      (List.forall_mem_append.mpr ⟨hbeforeNames, hnames⟩) (hclaimed ▸ hdeepest.is_root) hfile
    rw [List.length_append] at hlength
    have hpos := List.length_pos_iff.mpr hbefore
    have hpos' := List.length_pos_iff.mpr hmid
    omega
  · -- The walk enters the root on its way, so it belongs to the module that is walked.
    obtain ⟨front, name, rfl⟩ := (List.eq_nil_or_concat mid).resolve_left hmid
    rw [List.concat_eq_append] at hclaimed hclear
    obtain ⟨-, -, hown⟩ := hclear (List.append_ne_nil_of_right_ne_nil _ hrest) front name rest
      (List.append_assoc _ _ _) hrest
    obtain ⟨owner, howner⟩ := hdeepest.is_root
    have hlookup := Registry.lookup_rootOwners howner fun other hother =>
      h.claims_unique_merged hnamed hmanual howner hother
    rw [Path.descend_append] at hclaimed
    rw [← hclaimed] at hown
    exact hown owner hlookup ▸ howner

/-- A module comes across a source file exactly when it claims the deepest root around it. -/
theorem mem_files_iff_claims {claimed : String} (hfile : stages.walking.tree.isFile path = true)
    (hsource : Path.isSource path stages.scope.extensions = true)
    (hdeepest : IsDeepest stages.merged path claimed)
    (hunder : path = claimed ∨ (stages.walking.tree.isDirectory claimed = true ∧
      LiesUnder stages.walking.tree (MayPass stages.scope stages.merged) claimed path))
    {record : Record} (hrecord : record ∈ stages.merged.records) :
    path ∈ stages.filesOf record ↔ claimed ∈ record.roots := by
  have hclaims : ∀ root, root ∈ record.roots ↔ stages.merged.Claims record.id root :=
    fun root => (Registry.claims_of_mem hrecord).symm
  rw [h.mem_filesOf hnamed hfile hrecord, and_iff_right hsource]
  constructor
  · intro hfound
    rw [hclaims]
    -- The file is a root itself, or lies under one.
    rcases hfound with hroot | ⟨start, hroot, -, hunder⟩
    · exact h.claims_of_found hnamed hmanual hfile hdeepest ((hclaims path).mp hroot)
        (Or.inl rfl)
    · exact h.claims_of_found hnamed hmanual hfile hdeepest ((hclaims start).mp hroot)
        (Or.inr hunder)
  · intro hroot
    rcases hunder with rfl | ⟨hdir, names, hne, hnames, hpath, hclear⟩
    · exact Or.inl hroot
    · refine Or.inr ⟨claimed, hroot, hdir, names, hne, hnames, hpath, hclear.mono ?_⟩
      exact fun name path hpass => ⟨hpass.1, fun owner howner =>
        absurd ⟨owner, Registry.claims_of_lookup howner⟩ hpass.2⟩

/-- No module comes across a file that need not be read. -/
theorem mustRead_of_mem_files (hfile : stages.walking.tree.isFile path = true) {record : Record}
    (hrecord : record ∈ stages.merged.records) (hfound : path ∈ stages.filesOf record) :
    MustRead stages path := by
  rw [h.mem_filesOf hnamed hfile hrecord] at hfound
  obtain ⟨hsource, hroot | ⟨start, hroot, hdir, names, hne, hnames, hpath, hclear⟩⟩ := hfound
  · exact ⟨hsource, Or.inl (h.entry_of_isRoot hnamed hmanual
      ⟨_, (Registry.claims_of_mem hrecord).mpr hroot⟩ hfile)⟩
  · exact ⟨hsource, Or.inr ⟨start, ⟨_, (Registry.claims_of_mem hrecord).mpr hroot⟩, hdir, names,
      hne, hnames, hpath, hclear.mono fun _ _ hmay => hmay.1⟩⟩

end

end Stages.Of

/-- What the walks of all modules do with a file: one module, the one that claims the deepest root
around the file, comes across it once, and no other module does. -/
def IsReadOnce (stages : Stages) (path : String) : Prop :=
  ∃ record ∈ stages.merged.records, ∃ claimed, IsDeepest stages.merged path claimed ∧
    claimed ∈ record.roots ∧ visits stages record path = 1 ∧
    ∀ other ∈ stages.merged.records, other ≠ record →
      claimed ∉ other.roots ∧ visits stages other path = 0

/-- No file is lost and none is counted twice. Whenever a survey without manual modules completes,
each file that it must read is read once over all modules, and each other file not at all. -/
theorem survey_reads_once {s s' : Session} (hnamed : s.tree.WellNamed)
    {given : Option Settings} {root : String} {graph : Graph}
    (h : Work.survey given root s = .ok graph s') :
    ∃ stages : Stages, stages.Of s given root graph ∧
      (stages.manual = [] → ∀ path, stages.walking.tree.isFile path = true →
        (MustRead stages path → IsReadOnce stages path) ∧
        (¬MustRead stages path →
          ∀ record ∈ stages.merged.records, visits stages record path = 0)) := by
  obtain ⟨stages, hstages⟩ := exists_stages h
  refine ⟨stages, hstages, fun hmanual path hfile => ⟨?_, ?_⟩⟩
  · rintro ⟨hsource, hread⟩
    obtain ⟨claimed, hdeepest, hunder⟩ := hstages.exists_deepest hnamed hmanual hread
    -- The modules that read the file are those that claim its deepest root, and only one does.
    have hmem : ∀ record ∈ stages.merged.records,
        (path ∈ stages.filesOf record ↔ claimed ∈ record.roots) := fun record hrecord =>
      hstages.mem_files_iff_claims hnamed hmanual hfile hsource hdeepest hunder hrecord
    obtain ⟨id, record, hget, hclaimed⟩ := hdeepest.is_root
    obtain ⟨hrecord, rfl⟩ := (Registry.get?_eq_some_iff _).mp hget
    refine ⟨record, hrecord, claimed, hdeepest, hclaimed, ?_, fun other hother hne => ?_⟩
    · exact List.count_eq_one_of_mem (nodup_files_sightingsOf record)
        ((hmem record hrecord).mpr hclaimed)
    · have hnot : claimed ∉ other.roots := by
        intro hroot
        have hid := hstages.claims_unique_merged hnamed hmanual
          ((Registry.claims_of_mem hrecord).mpr hclaimed)
          ((Registry.claims_of_mem hother).mpr hroot)
        have hsame := Registry.get?_of_mem _ hother
        rw [hid, hget] at hsame
        exact hne (Option.some.inj hsame).symm
      exact ⟨hnot, List.count_eq_zero_of_not_mem (mt (hmem other hother).mp hnot)⟩
  · intro hnot record hrecord
    exact List.count_eq_zero_of_not_mem fun hfound => hnot
      (hstages.mustRead_of_mem_files hnamed hmanual hfile hrecord hfound)

/-- A repository with a server, a directory called like its module, a container that is a module
itself, another container in it, two directories that share an identifier, and a link. -/
def nestedSession : Session where
  tree := {
    entries :=
      [(["r"], .directory), (["r", "server.js"], .file []),
        (["r", "backend"], .directory), (["r", "backend", "b.js"], .file []),
        (["r", "packages"], .directory), (["r", "packages", "own.js"], .file []),
        (["r", "packages", "web"], .directory), (["r", "packages", "web", "a.js"], .file []),
        (["r", "packages", "web", "b.js"], .link "../../backend/b.js"),
        (["r", "packages", "apps"], .directory),
        (["r", "packages", "apps", "Web"], .directory),
        (["r", "packages", "apps", "Web", "c.js"], .file [])]
    distinct := by decide }
  directory := "/"
  now := ⟨2024, 1, 1, 0, 0, 0, 0⟩

/-- With modules in modules, and one id for two directories, each file is read by the innermost. -/
theorem survey_nestedSession_reads_once :
    nestedSession.tree.WellNamed ∧
    ∃ graph s', Work.survey (some {}) "/r" nestedSession = .ok graph s' ∧
      ∃ stages : Stages, stages.Of nestedSession (some {}) "/r" graph ∧ stages.manual = [] ∧
        ∀ path, stages.walking.tree.isFile path = true →
          (MustRead stages path → IsReadOnce stages path) ∧
          (¬MustRead stages path →
            ∀ record ∈ stages.merged.records, visits stages record path = 0) := by
  have quiet : nestedSession.IsQuiet := fun _ h => nomatch h
  have hnamed : nestedSession.tree.WellNamed := by decide +kernel
  obtain ⟨graph, s', h⟩ := Work.exists_of_isSome_answer?
    (show (Work.answer? (Work.survey (some {}) "/r") nestedSession).isSome = true by
      decide +kernel)
  obtain ⟨stages, hstages, hreads⟩ := survey_reads_once hnamed h
  obtain ⟨s₁, s₂, hopen, hsettings, -⟩ := hstages.opens
  have hpath : stages.path = "/r" := by
    have hroot : Work.answer? (Work.openRoot "/r") nestedSession = some "/r" := by decide +kernel
    exact Option.some.inj ((Work.answer?_of_ok hopen).symm.trans hroot)
  -- There is no file with manual modules.
  have hmanual : stages.manual = [] := by
    have hloaded := hstages.manual
    rw [hpath, (hstages.trees_eq quiet).2.1, ← (EStateM.Result.ok.inj hsettings).1] at hloaded
    have hnone : (SideFile.modules nestedSession.tree "/r"
        ({} : Settings).modulesFiles).outcome.toOption.map List.length = some 0 := by
      decide +kernel
    rw [hloaded] at hnone
    exact List.length_eq_zero_iff.mp (Option.some.inj hnone)
  exact ⟨hnamed, graph, s', h, stages, hstages, hmanual, hreads hmanual⟩

end RepoAtlas.Survey
