import Mathlib.Algebra.BigOperators.Ring.List
import RepoAtlas.Proofs.Graph.Scoring
import RepoAtlas.Proofs.Module.Counters
import RepoAtlas.Proofs.Session.Opening
import RepoAtlas.Proofs.SideFile.Reading
import RepoAtlas.Proofs.Source.Amount
import RepoAtlas.Proofs.Survey.Depth
import RepoAtlas.Proofs.Survey.Snapshot

/-!
# `RepoAtlas.Proofs.Survey.Completion`: what keeps a survey from completing

A survey passes over what it cannot make anything of: links whose target is missing, directories that
cannot be listed, files that cannot be read. One thing it does not pass over. At the root of a
repository and in every container that is entered, what each link leads to is asked for before
anything else, and a link that cannot be followed for any reason other than a missing target
(`StuckAt`) ends the survey.

* `container_error`, `directories_error`, `firstFile?_error`: nothing else makes these stages fail.
* `survey_completes_iff`: in a repository without settings and side files, a survey completes exactly
  when there is no such link.
* `self_link_is_fatal`: one link to itself is enough.
-/

set_option autoImplicit false

namespace RepoAtlas.Survey

open RepoAtlas.Module
open RepoAtlas.Path (IsName IsNormal descend)
open RepoAtlas.Tree (textOf)
open RepoAtlas.Work (outcome)

/-- The directories whose entries a survey looks at one by one: the root, and containers. -/
inductive Entered (tree : Tree) (settings : Settings) (root : String) : String → Prop
  | root : Entered tree settings root root
  | container {front : List String} {name : String}
      (at_ : ContainerAt tree settings root front name) :
      Entered tree settings root (descend root (front ++ [name]))

/-- A link in such a directory that cannot be followed, although its target is not just missing. -/
inductive StuckAt (tree : Tree) (settings : Settings) (root : String) :
    (path : String) → Tree.Fault → Prop
  | link {directory name target : String} {entries : List (String × Entry)} {fault : Tree.Fault}
      (entered : Entered tree settings root directory) (hlist : tree.list directory = .ok entries)
      (hmem : (name, .link target) ∈ entries)
      (hfind : tree.find (Path.join directory name) = .error fault) (hfault : fault ≠ .notFound) :
      StuckAt tree settings root (Path.join directory name) fault

/-- A failure because of such a link. -/
def IsStuck (tree : Tree) (settings : Settings) (root : String) (failure : Failure) : Prop :=
  ∃ path fault, StuckAt tree settings root path fault ∧ failure = .system fault path

variable {tree : Tree} {settings : Settings} {root : String}

/-! ### Looking at entries -/

/-- Only a link can fail to be looked at, and only where it leads to a fault of the system. -/
theorem seen_eq_error_iff {path : String} {entry : Entry} {failure : Failure} :
    seen tree path entry = .error failure ↔ ∃ target fault, entry = .link target ∧
      tree.find path = .error fault ∧ fault ≠ .notFound ∧ failure = .system fault path := by
  cases entry with
  | directory => exact ⟨fun h => (nomatch h), fun ⟨_, _, h, _⟩ => (nomatch h)⟩
  | file content => exact ⟨fun h => (nomatch h), fun ⟨_, _, h, _⟩ => (nomatch h)⟩
  | link target =>
    -- A link that leads to nothing is seen as nothing; all other faults are passed on.
    unfold seen
    cases hfind : tree.find path with
    | ok entry => exact ⟨fun h => (nomatch h), fun ⟨_, _, _, h, _⟩ => (nomatch h)⟩
    | error fault =>
      constructor
      · intro h
        cases fault with
        | notFound => cases h
        | _ =>
          cases h
          exact ⟨target, _, rfl, rfl, by decide, rfl⟩
      · rintro ⟨_, other, -, heq, hfault, rfl⟩
        cases heq
        cases fault with
        | notFound => exact absurd rfl hfault
        | _ => rfl

/-- Looking at an entry of a directory that is entered fails for a stuck link only. -/
theorem isStuck_of_seen {directory name : String} {entries : List (String × Entry)} {entry : Entry}
    (entered : Entered tree settings root directory) (hlist : tree.list directory = .ok entries)
    (hmem : (name, entry) ∈ entries) {failure : Failure}
    (h : seen tree (Path.join directory name) entry = .error failure) :
    IsStuck tree settings root failure := by
  obtain ⟨target, fault, rfl, hfind, hfault, rfl⟩ := seen_eq_error_iff.mp h
  exact ⟨_, fault, .link entered hlist hmem hfind hfault, rfl⟩

/-- The share of an entry fails only if going on does. -/
theorem shareOf_eq_error {onward : Traced (List Contribution)} {child path : String}
    {what : Option Entry} {failure : Failure}
    (h : (shareOf settings onward child path what).outcome = .error failure) :
    what = some .directory ∧ isIgnored settings child = false ∧
      isContainer settings child = true ∧ onward.outcome = .error failure := by
  rcases what with _ | (_ | content | target)
  · cases h
  · unfold shareOf at h
    dsimp only at h
    by_cases hignored : isIgnored settings child = true
    · rw [if_pos hignored] at h
      cases h
    -- Only going into a container can fail.
    by_cases hcontainer : isContainer settings child = true
    · rw [if_neg hignored, if_pos hcontainer] at h
      rcases Traced.outcome_bind_eq_error_iff.mp h with honward | ⟨_, -, h⟩
      · exact ⟨rfl, Bool.eq_false_iff.mpr hignored, hcontainer, honward⟩
      · cases h
    · rw [if_neg hignored, if_neg hcontainer] at h
      cases h
  · cases h
  · cases h

/-! ### Directories -/

/-- Entering a container deep enough fails for a stuck link only. -/
theorem container_error (hnamed : tree.WellNamed) (hroot : IsNormal root) {depth : Nat}
    {front : List String} {name : String} (reached : ContainerAt tree settings root front name)
    (hfront : ∀ n ∈ front ++ [name], IsName n)
    (hdepth : tree.reserve (descend root (front ++ [name])) < depth) {failure : Failure}
    (h : (container tree settings depth name (descend root (front ++ [name]))).outcome
      = .error failure) : IsStuck tree settings root failure := by
  induction depth generalizing front name with
  | zero => exact absurd hdepth (Nat.not_lt_zero _)
  | succ depth ih =>
    rw [container_succ] at h
    cases hlist : tree.list (descend root (front ++ [name])) with
    | error fault =>
      rw [hlist] at h
      cases h
    | ok entries =>
      rw [hlist] at h
      dsimp only at h
      rcases Traced.outcome_bind_eq_error_iff.mp h with h | ⟨shares, -, h⟩
      · obtain ⟨⟨child, entry⟩, hmem, h⟩ := Traced.exists_of_outcome_mapM_eq_error h
        rcases Traced.outcome_bind_eq_error_iff.mp h with hseen | ⟨what, hwhat, hshare⟩
        · exact isStuck_of_seen (.container reached) hlist hmem hseen
        -- The entry is a container itself, and entering it fails.
        obtain ⟨rfl, hkept, hcontainer, honward⟩ := shareOf_eq_error hshare
        have hname : IsName child := hnamed.isName_of_mem_list hlist hmem
        have hless := reserve_join_lt_of_mem hnamed (hroot.descend hfront) hlist hmem hwhat
        have hinner : IsChild tree settings (descend root (front ++ [name])) child :=
          ⟨⟨entries, entry, hlist, hmem, hwhat⟩, hkept⟩
        dsimp only at honward hless
        rw [join_descend] at honward hless
        exact ih (.inside reached hinner hcontainer)
          (List.forall_mem_append.mpr ⟨hfront, List.forall_mem_singleton.mpr hname⟩)
          (by omega) honward
      · split at h <;> cases h

/-- The directories of a repository that can be listed fail for a stuck link only. -/
theorem directories_error (hnamed : tree.WellNamed) (hroot : IsNormal root)
    {entries : List (String × Entry)} (hlist : tree.list root = .ok entries) {failure : Failure}
    (h : (directories tree settings root).outcome = .error failure) :
    IsStuck tree settings root failure := by
  unfold directories at h
  rw [hlist] at h
  dsimp only at h
  rcases Traced.outcome_bind_eq_error_iff.mp h with h | ⟨_, -, h⟩
  · obtain ⟨⟨name, entry⟩, hmem, h⟩ := Traced.exists_of_outcome_mapM_eq_error h
    -- Looking at an entry of the root failed, or going into it.
    rcases Traced.outcome_bind_eq_error_iff.mp h with hseen | ⟨what, hwhat, h⟩
    · exact isStuck_of_seen .root hlist hmem hseen
    have hname : IsName name := hnamed.isName_of_mem_list hlist hmem
    rcases what with _ | (_ | content | target)
    · cases h
    · dsimp only at h
      by_cases hignored : isIgnored settings name = true
      · rw [if_pos hignored] at h
        cases h
      by_cases hcontainer : isContainer settings name = true
      · rw [if_neg hignored, if_pos hcontainer] at h
        have hchild : IsChild tree settings root name :=
          ⟨⟨entries, entry, hlist, hmem, hwhat⟩, Bool.eq_false_iff.mpr hignored⟩
        -- The depth at the top is beyond the reserve of every path.
        have hdepth : tree.reserve (descend root ([] ++ [name])) < containerDepth tree :=
          Nat.lt_succ_of_lt (tree.reserve_lt _)
        exact container_error hnamed hroot (.top hchild hcontainer)
          (List.forall_mem_singleton.mpr hname) hdepth h
      · rw [if_neg hignored, if_neg hcontainer] at h
        cases h
    · cases h
    · cases h
  · cases h

/-- If directories contribute, no link is stuck. -/
theorem not_stuckAt_of_directories {found : List Contribution}
    (h : (directories tree settings root).outcome = .ok found) {path : String} {fault : Tree.Fault}
    (stuck : StuckAt tree settings root path fault) : False := by
  cases stuck with
  | @link directory name target entries fault entered hlist hmem hfind hfault =>
    -- What the link is seen as has been settled, at the root or in the container.
    have hseen : ∃ what, seen tree (Path.join directory name) (.link target) = .ok what := by
      cases entered with
      | root =>
        obtain ⟨entries', lists, hlist', -, hlists⟩ := directories_eq_ok h
        cases hlist.symm.trans hlist'
        obtain ⟨brought, -, htop⟩ := (exists_of_forall₂ hlists).1 _ hmem
        obtain ⟨what, hwhat, -⟩ := topEntry_cases htop
        exact ⟨what, hwhat⟩
      | container reached =>
        obtain ⟨depth, brought, hbrought, -⟩ := reached.exists_entered h
        rw [container_succ, hlist] at hbrought
        obtain ⟨shares, hshares, -⟩ := Traced.outcome_bind_eq_ok_iff.mp hbrought
        rw [Traced.outcome_mapM_eq_ok_iff] at hshares
        obtain ⟨share, -, hshare⟩ := (exists_of_forall₂ hshares).1 _ hmem
        obtain ⟨what, hwhat, -⟩ := Traced.outcome_bind_eq_ok_iff.mp hshare
        exact ⟨what, hwhat⟩
    obtain ⟨what, hwhat⟩ := hseen
    have herror := seen_eq_error_iff.mpr ⟨target, fault, rfl, hfind, hfault, rfl⟩
    rw [hwhat] at herror
    cases herror

/-- Looking for the entry file of a server fails for a stuck link only, if there is room for it. -/
theorem firstFile?_error {place : Place} (hnormal : IsNormal root)
    (hplace : tree.locate root = .ok place) (hdir : tree.entry? place = some .directory)
    {entries : List (String × Entry)} (hlist : tree.list root = .ok entries) {names : List String}
    (hnames : ∀ name ∈ names, IsName name ∧ ¬Tree.TooLong root name) {failure : Failure}
    (h : firstFile? tree root names = .error failure) : IsStuck tree settings root failure := by
  induction names with
  | nil => cases h
  | cons name rest ih =>
    obtain ⟨⟨hname, hshort⟩, hrest⟩ := List.forall_mem_cons.mp hnames
    have hbelow : Path.below root name = Path.join root name := (hnormal.join hname).tidy_eq
    rcases bind_eq_error_iff.mp h with hfile | ⟨found, -, h⟩
    · rw [hbelow] at hfile
      unfold isFileAt Tree.probe at hfile
      split at hfile
      · cases hfile
      have hfind : tree.find (Path.join root name) = .error .nameTooLong ∧
          failure = .system .nameTooLong (Path.join root name) := by
        cases hfound : tree.find (Path.join root name) with
        | ok entry =>
          rw [hfound] at hfile
          cases entry <;> cases hfile
        | error fault =>
          rw [hfound] at hfile
          cases fault <;> cases hfile
          exact ⟨rfl, rfl⟩
      obtain ⟨hfind, rfl⟩ := hfind
      -- The name and the path are short enough, so a link has led to a name that is not.
      have hlink : ∃ target, tree.entry? (place ++ [name]) = some (.link target) := by
        by_contra hnone
        have htrace := Tree.trace_join_of_not_link (by decide : Tree.Purpose.use ≠ .write) hnormal
          hplace hdir hname (Or.inr fun target heq => hnone ⟨target, heq⟩)
        rw [if_neg hshort] at htrace
        unfold Tree.find Tree.locate at hfind
        rw [htrace] at hfind
        by_cases hentry : tree.entry? (place ++ [name]) = none
        · rw [if_pos hentry] at hfind
          cases hfind
        · rw [if_neg hentry, ok_bind] at hfind
          split at hfind <;> cases hfind
      obtain ⟨target, hentry⟩ := hlink
      have hmem := (Tree.mem_list hlist hplace).mpr hentry
      exact ⟨_, _, .link .root hlist hmem hfind (by decide), rfl⟩
    · split at h
      · cases h
      · exact ih hrest h

/-! ### Bare repositories -/

/-- A repository at a place without settings and side files, with room for the names of these. -/
structure IsBare (tree : Tree) (place : Place) : Prop where
  settings : tree.entry? (place ++ [Settings.fileName]) = none
  sideFiles : ∀ side ∈ "package.json" :: (Settings.usualModulesFiles ++ Settings.usualLinksFiles),
    tree.isFile (Path.below (textOf place) side) = false
  room : (Work.settingsText place).utf8ByteSize ≤ Tree.maxPath

instance (tree : Tree) (place : Place) : Decidable (IsBare tree place) :=
  decidable_of_iff (tree.entry? (place ++ [Settings.fileName]) = none ∧
      (∀ side ∈ "package.json" :: (Settings.usualModulesFiles ++ Settings.usualLinksFiles),
        tree.isFile (Path.below (textOf place) side) = false) ∧
      (Work.settingsText place).utf8ByteSize ≤ Tree.maxPath)
    ⟨fun ⟨h₁, h₂, h₃⟩ => ⟨h₁, h₂, h₃⟩, fun h => ⟨h.settings, h.sideFiles, h.room⟩⟩

/-- What the walk of a survey reads for a module: its files together hold no more characters than
any file system does. -/
def ReadsModerately (tree : Tree) (settings : Settings) (root : String) : Prop :=
  ∀ merged ∈ (mergedOf tree settings root).outcome.toOption, ∀ record ∈ merged.records,
    ((readings tree (scopeAt settings root) merged.rootOwners record).map
      fun reading => reading.2.length).sum ≤ 2 ^ 100

instance (tree : Tree) (settings : Settings) (root : String) :
    Decidable (ReadsModerately tree settings root) :=
  inferInstanceAs (Decidable (∀ merged ∈ _, _))

/-- A record with what a moderate amount of text adds to counters that start at zero can be
scored. -/
theorem scorable_of_gained {scope : Scope} {registry : Registry} {before after : Record}
    {reads : List Reading} (h : Gained tree scope registry before after reads)
    (hmetrics : before.metrics = .zero) (hpackages : before.packages = .empty)
    (hamount : (reads.map fun reading => reading.2.length).sum ≤ 2 ^ 100) :
    Graph.Scorable after := by
  have hdebt : (reads.map fun reading => Source.countDebtMarkers reading.2).sum ≤ 2 ^ 100 :=
    (List.sum_le_sum fun reading _ => Source.countDebtMarkers_le reading.2).trans hamount
  have hsize : after.packages.size ≤ 3 * 2 ^ 100 := by
    have hlength : (reads.flatMap fun reading =>
        (Source.references reading.2).packages.toList.map CodeText.ofString).length
          ≤ 3 * 2 ^ 100 := by
      rw [List.length_flatMap]
      simp only [List.length_map]
      refine (List.sum_le_sum fun reading _ => Source.size_packages_le reading.2).trans ?_
      rw [List.sum_map_mul_left]
      exact Nat.mul_le_mul_left 3 hamount
    -- What the module refers to in the end is among what its files refer to, without repetitions.
    have hsubset : after.packages.toList ⊆ reads.flatMap fun reading =>
        (Source.references reading.2).packages.toList.map CodeText.ofString := by
      rw [h.packages, hpackages]
      intro name hname
      have hfound : name ∈ OrderedSet.ofList (reads.flatMap fun reading =>
          (Source.references reading.2).packages.toList.map CodeText.ofString) :=
        List.mem_of_mem_filter hname
      exact (OrderedSet.mem_insertMany.mp hfound).resolve_left List.not_mem_nil
    exact (after.packages.nodup.subperm hsubset).length_le.trans hlength
  have htests : after.metrics.tests ≤ after.metrics.files := by
    have hcount := List.countP_le_length (l := reads) (p := fun reading =>
      Source.looksLikeTest ((Path.relative? reading.1 scope.root).getD ""))
    rw [h.tests, h.files, hmetrics]
    simpa [Metrics.zero] using hcount
  refine Graph.scorable_of_moderate ⟨?_, htests, ?_, ?_, ?_⟩
  · rw [h.tests, hmetrics]
    simp [Metrics.zero]
  · rw [h.debt, hmetrics]
    exact add_nonneg (le_refl 0) (Int.natCast_nonneg _)
  · rw [h.debt, hmetrics]
    have hcast : (((reads.map fun reading => Source.countDebtMarkers reading.2).sum : Nat) : Int)
        ≤ 2 ^ 100 := by exact_mod_cast hdebt
    simp only [Metrics.zero, zero_add]
    exact hcast.trans (by norm_num)
  · exact hsize.trans (by norm_num)

/-! ### Surveys of bare repositories -/

section

variable {place : Place} (bare : IsBare tree place) (hnull : Path.hasNull (textOf place) = false)

include bare hnull

/-- No side file of a bare repository says anything. -/
theorem IsBare.first_eq {sides : List String}
    (hsides : sides ⊆ "package.json" :: (Settings.usualModulesFiles ++ Settings.usualLinksFiles)) :
    (SideFile.first tree (textOf place) sides).outcome = .ok none := by
  have hnulls : ∀ side ∈ "package.json" :: (Settings.usualModulesFiles ++ Settings.usualLinksFiles),
      Path.hasNull side = false := by decide
  exact SideFile.first_of_all_silent
    (fun side hside => Path.hasNull_below hnull (hnulls side (hsides hside)))
    fun side hside => SideFile.isSilent_of_isFile_eq_false (bare.sideFiles side (hsides hside))

/-- A bare repository has no manifest. -/
theorem IsBare.packages_eq : (SideFile.packages tree (textOf place)).outcome = .ok [] := by
  unfold SideFile.packages
  rw [Traced.outcome_bind, bare.first_eq hnull (by decide)]
  rfl

/-- It has no manual modules. -/
theorem IsBare.modules_eq :
    (SideFile.modules tree (textOf place) ({} : Settings).modulesFiles).outcome = .ok [] := by
  unfold SideFile.modules
  rw [Traced.outcome_bind, bare.first_eq hnull (by decide)]
  rfl

/-- It has no links. -/
theorem IsBare.links_eq :
    (SideFile.links tree (textOf place) ({} : Settings).linksFiles).outcome = .ok [] := by
  unfold SideFile.links
  rw [Traced.outcome_bind, bare.first_eq hnull (by decide)]
  rfl

/-- The modules of a bare repository are those of its directories and of the entry of a server. -/
theorem IsBare.mergedOf_eq : (mergedOf tree {} (textOf place)).outcome = (do
    let entry ← firstFile? tree (textOf place) serverEntries
    let found ← (directories tree {} (textOf place)).outcome
    return (Registry.empty []).ensureAll ((entry.map serverContribution).toList ++ found)) := by
  have hmanual : ∀ registry : Registry,
      (withManual tree {} (textOf place) registry).outcome = .ok registry := by
    intro registry
    unfold withManual
    rw [Traced.outcome_bind, bare.modules_eq hnull]
    rfl
  unfold mergedOf registered
  simp only [Traced.outcome_bind, bare.packages_eq hnull, ok_bind, hmanual, bind_assoc]
  rfl

/-- Once the modules of a bare repository are settled, it has a graph. -/
theorem IsBare.exists_graphOf {merged : Registry}
    (hmerged : (mergedOf tree {} (textOf place)).outcome = .ok merged)
    (hamount : ReadsModerately tree {} (textOf place)) :
    ∃ graph, (graphOf tree {} (textOf place) merged).outcome = .ok graph := by
  have hsettled := hmerged
  rw [bare.mergedOf_eq hnull] at hsettled
  obtain ⟨entry, -, hsettled⟩ := bind_eq_ok_iff.mp hsettled
  obtain ⟨found, -, hsettled⟩ := bind_eq_ok_iff.mp hsettled
  have hregistry := (Except.ok.inj hsettled).symm
  -- Nothing is counted before the walk.
  have hmetrics : ∀ record ∈ merged.records, record.metrics = .zero := by
    intro record hrecord
    rw [← merged.metricsOf_of_mem hrecord, hregistry, Registry.metricsOf_ensureAll]
    rfl
  have hpackages : ∀ record ∈ merged.records, record.packages = .empty := by
    have hwithout : merged.WithoutPackages := by
      rw [hregistry]
      refine Registry.withoutPackages_ensureAll (fun id record hget => ?_) _
      cases hget
    exact fun record hrecord => hwithout record.id record (merged.get?_of_mem hrecord)
  -- The walk adds what can be scored, and that is what the graph is built from.
  obtain ⟨after, hwalk, -, hrecords⟩ := walk_eq_ok tree (scopeAt {} (textOf place)) merged
  have hsound : ∀ record ∈ after.records, record.Sound := by
    rw [hrecords]
    exact List.forall_mem_map.mpr fun record hrecord =>
      sound_gainAll ((sound_mergedOf hmerged).of_mem hrecord) _
  have hscorable : ∀ record ∈ after.records, Graph.Scorable record := by
    rw [hrecords]
    exact List.forall_mem_map.mpr fun record hrecord =>
      scorable_of_gained (gained_gainAll tree _ merged record _) (hmetrics record hrecord)
        (hpackages record hrecord) (hamount merged (by rw [hmerged]; rfl) record hrecord)
  obtain ⟨graph, hbuild⟩ := Graph.build_eq_ok hsound hscorable (textOf place)
  have hwalked : (walked tree {} (textOf place) merged).outcome = .ok after := by
    unfold walked
    rw [Traced.outcome_bind]
    exact (congrArg (· >>= _) hwalk).trans rfl
  have hlinked : (linked tree {} (textOf place) after).outcome = .ok after := by
    unfold linked
    rw [Traced.outcome_bind, bare.links_eq hnull]
    rfl
  refine ⟨graph, ?_⟩
  unfold graphOf
  simp only [Traced.outcome_bind, hwalked, hlinked, ok_bind]
  unfold finished
  rw [hbuild]
  rfl

end

section

variable {place : Place} (hnamed : tree.WellNamed) (hlocation : tree.IsLocation place)
  (hfind : tree.find (textOf place) = .ok .directory)
  (hnull : Path.hasNull (textOf place) = false) (bare : IsBare tree place)

include hnamed hlocation hfind hnull bare

/-- Settling the modules of a bare repository fails for a stuck link only. -/
theorem mergedOf_error {failure : Failure}
    (h : (mergedOf tree {} (textOf place)).outcome = .error failure) :
    IsStuck tree {} (textOf place) failure := by
  have hnormal := Tree.isNormal_textOf hlocation.names
  have hroom := hlocation.room_of_find hfind
  have hplace : tree.locate (textOf place) = .ok place := by
    rw [hlocation.locate_eq, if_neg (Nat.not_lt.mpr hroom)]
  have hdir := hlocation.entry?_eq
  have hlist : tree.list (textOf place) = .ok (Tree.sortByName (tree.children place)) :=
    Tree.list_eq_ok_iff.mpr ⟨place, hplace, hdir, rfl⟩
  -- The names of server entries are shorter than the one of the settings, for which there is room.
  have hentries : ∀ name ∈ serverEntries, IsName name ∧ ¬Tree.TooLong (textOf place) name := by
    have hnames : ∀ name ∈ serverEntries, IsName name ∧ name.utf8ByteSize ≤ Tree.maxName ∧
        name.utf8ByteSize ≤ Settings.fileName.utf8ByteSize := by decide
    intro name hmem
    obtain ⟨hname, hshort, hless⟩ := hnames name hmem
    refine ⟨hname, not_or.mpr ⟨?_, Nat.not_lt.mpr hshort⟩⟩
    rw [Tree.join_textOf hlocation.names hname]
    exact Nat.not_lt.mpr (Work.room_of_shorter hlocation.names bare.room hname hless)
  rw [bare.mergedOf_eq hnull] at h
  rcases bind_eq_error_iff.mp h with h | ⟨entry, -, h⟩
  · exact firstFile?_error hnormal hplace hdir hlist hentries h
  rcases bind_eq_error_iff.mp h with h | ⟨found, -, h⟩
  · exact directories_error hnamed hnormal hlist h
  · cases h

/-- What a survey of a bare repository leads to, on a tree that stays as it is. -/
theorem ofTree_completes_iff (hamount : ReadsModerately tree {} (textOf place)) :
    ((∃ graph, (ofTree tree {} (textOf place)).outcome = .ok graph) ↔
      ∀ path fault, ¬StuckAt tree {} (textOf place) path fault) ∧
    ∀ failure, (ofTree tree {} (textOf place)).outcome = .error failure →
      IsStuck tree {} (textOf place) failure := by
  -- All stages after the registration succeed for a bare repository.
  have herror : ∀ failure, (ofTree tree {} (textOf place)).outcome = .error failure →
      IsStuck tree {} (textOf place) failure := by
    intro failure h
    rcases Traced.outcome_bind_eq_error_iff.mp h with h | ⟨merged, hmerged, h⟩
    · exact mergedOf_error hnamed hlocation hfind hnull bare h
    · obtain ⟨graph, hgraph⟩ := bare.exists_graphOf hnull hmerged hamount
      rw [hgraph] at h
      cases h
  refine ⟨⟨?_, ?_⟩, herror⟩
  · rintro ⟨graph, h⟩ path fault stuck
    obtain ⟨merged, hmerged, -⟩ := Traced.outcome_bind_eq_ok_iff.mp h
    rw [bare.mergedOf_eq hnull] at hmerged
    obtain ⟨entry, -, hmerged⟩ := bind_eq_ok_iff.mp hmerged
    obtain ⟨found, hfound, -⟩ := bind_eq_ok_iff.mp hmerged
    exact not_stuckAt_of_directories hfound stuck
  · intro hnone
    cases houtcome : (ofTree tree {} (textOf place)).outcome with
    | ok graph => exact ⟨graph, rfl⟩
    | error failure =>
      obtain ⟨path, fault, stuck, -⟩ := herror failure houtcome
      exact absurd stuck (hnone path fault)

end

/-- When a survey completes. In a repository without settings and side files, a survey leads to a
graph exactly if no link is stuck; otherwise it fails because of one. -/
theorem survey_completes_iff {s : Session} {root : String} {place : Place} (quiet : s.IsQuiet)
    (hnamed : s.tree.WellNamed) (hopen : outcome (Work.openRoot root) s = .ok (textOf place))
    (hlocation : s.tree.IsLocation place) (bare : IsBare s.tree place)
    (hamount : ReadsModerately s.tree {} (textOf place)) :
    ((∃ graph, outcome (Work.survey none root) s = .ok graph) ↔
      ∀ path fault, ¬StuckAt s.tree {} (textOf place) path fault) ∧
    ∀ failure, outcome (Work.survey none root) s = .error failure →
      IsStuck s.tree {} (textOf place) failure := by
  obtain ⟨hnull, hfind⟩ := Work.find_of_openRoot hopen
  have hlink : ∀ target,
      s.tree.entry? (place ++ [Settings.fileName]) ≠ some (.link target) := by
    rw [bare.settings]
    exact fun target h => nomatch h
  -- There are no settings, so the survey goes by none.
  have hsettings : outcome (settingsFor none (textOf place)) s = .ok {} := by
    rw [outcome_settingsFor_none, Work.outcome_loadSettings_textOf hopen hlocation hlink bare.room,
      Work.settingsAt_of_vacant hlocation hfind bare.settings bare.room]
    rfl
  have hsurvey : outcome (Work.survey none root) s
      = (ofTree s.tree {} (textOf place)).outcome := by
    rw [outcome_survey quiet, hopen, ok_bind, hsettings, ok_bind]
  rw [hsurvey]
  exact ofTree_completes_iff hnamed hlocation hfind hnull bare hamount

/-- A repository with bad links at all levels: at its root and in a container the target is missing,
and in a module a link leads to itself. -/
def brokenSession : Session where
  tree := {
    entries :=
      [(["r"], .directory), (["r", "gone"], .link "nowhere"), (["r", "packages"], .directory),
        (["r", "packages", "gone"], .link "../nowhere"), (["r", "packages", "ui"], .link "../src"),
        (["r", "src"], .directory), (["r", "src", "loop.js"], .link "loop.js"),
        (["r", "src", "up"], .link ".."),
        (["r", "src", "a.js"], .file "import './loop.js'".toUTF8.toList)]
    distinct := by decide }
  directory := "/"
  now := ⟨2024, 1, 1, 0, 0, 0, 0⟩

/-- Links into nothing do not stop a survey, even where a source is a link to itself. -/
theorem survey_brokenSession_completes_iff :
    brokenSession.tree.IsLocation ["r"] ∧ IsBare brokenSession.tree ["r"] ∧
    ReadsModerately brokenSession.tree {} (textOf ["r"]) ∧
    ((∃ graph, outcome (Work.survey none "/r") brokenSession = .ok graph) ↔
      ∀ path fault, ¬StuckAt brokenSession.tree {} (textOf ["r"]) path fault) ∧
    ∀ failure, outcome (Work.survey none "/r") brokenSession = .error failure →
      IsStuck brokenSession.tree {} (textOf ["r"]) failure := by
  have quiet : brokenSession.IsQuiet := fun _ h => nomatch h
  have hnamed : brokenSession.tree.WellNamed := by decide +kernel
  have hopen : outcome (Work.openRoot "/r") brokenSession = .ok (textOf ["r"]) := by
    decide +kernel
  have hlocation : brokenSession.tree.IsLocation ["r"] := by decide +kernel
  have bare : IsBare brokenSession.tree ["r"] := by decide +kernel
  have hamount : ReadsModerately brokenSession.tree {} (textOf ["r"]) := by decide +kernel
  exact ⟨hlocation, bare, hamount,
    survey_completes_iff quiet hnamed hopen hlocation bare hamount⟩

/-- A repository that holds nothing but a link to itself. -/
def selfLinkSession : Session where
  tree := {
    entries := [(["r"], .directory), (["r", "loop"], .link "loop")]
    distinct := by decide }
  directory := "/"
  now := ⟨2024, 1, 1, 0, 0, 0, 0⟩

/-- The root can be opened and listed, there are neither settings nor side files, and the survey
fails. -/
theorem self_link_is_fatal :
    outcome (Work.openRoot "/r") selfLinkSession = .ok (textOf ["r"]) ∧
    selfLinkSession.tree.list (textOf ["r"]) = .ok [("loop", .link "loop")] ∧
    IsBare selfLinkSession.tree ["r"] ∧
    outcome (Work.survey none "/r") selfLinkSession
      = .error (.system .tooManyLinks "/r/loop") := by
  decide +kernel

end RepoAtlas.Survey
