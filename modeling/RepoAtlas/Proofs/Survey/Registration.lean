import RepoAtlas.Proofs.Module.Claims
import RepoAtlas.Proofs.Survey.Directories
import RepoAtlas.Proofs.Survey.Stages

/-!
# `RepoAtlas.Proofs.Survey.Registration`: the roots that a repository shows by itself

A repository contributes the entry file of a server and directories. Directories may be links, may
be found again below a link, and may share an identifier with each other; but a directory's path
settles its identifier, since both come from its last name. So no two modules claim one root.

* `Brings.fromDirectory`: what is known of each contribution of a directory.
* `entry_of_firstFile?`: the entry file of a server stands at the root of the repository.
* `Stages.Of.claims_shown`, `Stages.Of.claims_unique`: the roots before manual modules come in, and
  that each of them is claimed by one module.
-/

set_option autoImplicit false

namespace RepoAtlas.Survey

open RepoAtlas.Module
open RepoAtlas.Path (IsName IsNormal descend)

/-- A path that leads to no file in a tree and in any later one. -/
def IsNeverFile (tree : Tree) (path : String) : Prop :=
  ∀ later, tree.Grown later → later.isFile path = false

/-- A file is not what can never be one. -/
theorem not_isNeverFile {tree : Tree} {path : String} (h : tree.isFile path = true) :
    ¬IsNeverFile tree path :=
  fun hnever => absurd ((hnever tree (.refl tree)).symm.trans h) (by decide)

/-- A way from the root to what is seen as a directory. It is no file, not even through a link, and
does not become one while a log grows. -/
structure WayToDirectory (tree : Tree) (root : String) (front : List String) (name : String) :
    Prop where
  names : ∀ n ∈ front ++ [name], IsName n
  not_file : IsNeverFile tree (descend root (front ++ [name]))

/-- A contribution of the directory at the end of a way from the root. -/
structure FromDirectory (tree : Tree) (root : String) (front : List String) (name : String)
    (c : Contribution) : Prop extends WayToDirectory tree root front name where
  id_eq : c.id = ((Naming.classify name).id : CodeText)
  roots_eq : c.roots = [descend root (front ++ [name])]

variable {tree : Tree} {settings : Settings} {root : String}

/-- What is seen as a directory is not found as a file. It need not be found at all, since its path
may be too long. -/
theorem isNeverFile_of_seen_directory {path : String} (hnormal : IsNormal path)
    {entries : List (String × Entry)} (hlist : tree.list path = .ok entries) {name : String}
    {entry : Entry} (hname : IsName name) (hmem : (name, entry) ∈ entries)
    (h : seen tree (Path.join path name) entry = .ok (some .directory)) :
    IsNeverFile tree (Path.join path name) := by
  intro later hgrown
  rw [← Bool.not_eq_true]
  intro hfile
  cases entry with
  | file content => cases h
  | link target =>
    -- A link counts as a directory only if it leads to one.
    have hdir : tree.isDirectory (Path.join path name) = true := by
      cases hfind : tree.find (Path.join path name) with
      | ok found =>
        simp only [seen, hfind] at h
        cases h
        rw [Tree.isDirectory, hfind]
      | error fault =>
        simp only [seen, hfind] at h
        cases fault <;> cases h
    have hlater := isDirectory_eq_false_of_isFile hfile
    exact absurd (hlater.symm.trans (hgrown.isDirectory hdir)) (by decide)
  | directory =>
    obtain ⟨place, hplace, hdir, -⟩ := Tree.list_eq_ok_iff.mp hlist
    obtain ⟨content, hfind⟩ := Tree.isFile_iff.mp hfile
    obtain ⟨found, hfound, hkind⟩ := Tree.entry?_of_find_join hnormal (hgrown.locate hplace)
      (hgrown.entry?_directory hdir) hname hfind
    rw [hgrown.entry?_directory ((Tree.mem_list hlist hplace).mp hmem)] at hfound
    cases hfound
    rcases hkind with heq | ⟨target, heq⟩ <;> cases heq

/-- What is seen as a directory one name further down is at the end of a way. -/
theorem wayToDirectory_of_seen (hnamed : tree.WellNamed) (hroot : IsNormal root)
    {front : List String} (hfront : ∀ n ∈ front, IsName n) {entries : List (String × Entry)}
    (hlist : tree.list (descend root front) = .ok entries) {name : String} {entry : Entry}
    (hmem : (name, entry) ∈ entries)
    (hseen : seen tree (Path.join (descend root front) name) entry = .ok (some .directory)) :
    WayToDirectory tree root front name where
  names := List.forall_mem_append.mpr
    ⟨hfront, List.forall_mem_singleton.mpr (hnamed.isName_of_mem_list hlist hmem)⟩
  not_file := by
    rw [Path.descend_append]
    exact isNeverFile_of_seen_directory (hroot.descend hfront) hlist
      (hnamed.isName_of_mem_list hlist hmem) hmem hseen

/-- The contribution of a directory under its own name, or under one with the same identifier. -/
theorem WayToDirectory.fromDirectory {front : List String} {name : String}
    (way : WayToDirectory tree root front name) (hroot : IsNormal root)
    {identity : Naming.Identity} (hid : identity.id = (Naming.classify name).id) :
    FromDirectory tree root front name
      (contributionOf identity (descend root (front ++ [name]))) where
  toWayToDirectory := way
  id_eq := congrArg CodeText.ofString hid
  roots_eq := by
    have hnormal : IsNormal (descend root (front ++ [name])) := hroot.descend way.names
    rw [contributionOf, hnormal.normalize_eq]

/-- A container has the id of its name. -/
theorem id_containerIdentity (name : String) :
    (containerIdentity name).id = (Naming.classify name).id := by
  show (if (Naming.classify name).kind = "code" then _ else Naming.classify name).id = _
  split <;> rfl

/-- A child of a directory that a way leads to is a step further on a way. -/
theorem IsChild.way (hnamed : tree.WellNamed) (hroot : IsNormal root) {front : List String}
    (hfront : ∀ n ∈ front, IsName n) {name : String}
    (h : IsChild tree settings (descend root front) name) :
    WayToDirectory tree root front name := by
  obtain ⟨entries, entry, hlist, hmem, hseen⟩ := h.shown
  exact wayToDirectory_of_seen hnamed hroot hfront hlist hmem hseen

/-- A container stands at the end of a way from the root. -/
theorem ContainerAt.way (hnamed : tree.WellNamed) (hroot : IsNormal root) {front : List String}
    {name : String} (h : ContainerAt tree settings root front name) :
    WayToDirectory tree root front name := by
  induction h with
  | top child _ => exact IsChild.way hnamed hroot (by simp) child
  | inside _ inner _ ih => exact inner.way hnamed hroot ih.names

/-- A contribution of a directory is known by its way: it has the identifier of the last name, and
the path of the directory for its only root. -/
theorem Brings.fromDirectory (hnamed : tree.WellNamed) (hroot : IsNormal root)
    {front : List String} {name : String} {c : Contribution}
    (h : Brings tree settings root front name c) : FromDirectory tree root front name c := by
  cases h with
  | plain child _ => exact (IsChild.way hnamed hroot (by simp) child).fromDirectory hroot rfl
  | inner above inner =>
    exact (inner.way hnamed hroot (above.way hnamed hroot).names).fromDirectory hroot rfl
  | own reached _ =>
    exact (reached.way hnamed hroot).fromDirectory hroot (id_containerIdentity name)

/-- What is found to be a file is one. -/
theorem isFile_of_isFileAt {path : String} (h : isFileAt tree path = .ok true) :
    tree.isFile path = true := by
  unfold isFileAt Tree.probe at h
  rw [Tree.isFile_iff]
  split at h
  · cases h
  · -- A path that is too long fails, and no other fault counts as a file.
    cases hfind : tree.find path with
    | ok entry =>
      simp only [hfind] at h
      cases entry with
      | file content => exact ⟨content, rfl⟩
      | directory => cases h
      | link target => cases h
    | error fault =>
      simp only [hfind] at h
      cases fault <;> cases h

/-- The entry file of a server is a file, and stands directly in the root of the repository. -/
theorem entry_of_firstFile? (hroot : IsNormal root) {places : List String}
    (hplaces : ∀ place ∈ places, IsName place) {path : String}
    (h : firstFile? tree root places = .ok (some path)) :
    ∃ place, IsName place ∧ path = descend root [place] ∧ tree.isFile path = true := by
  -- The first place with a file is taken.
  induction places with
  | nil => cases h
  | cons place rest ih =>
    obtain ⟨hplace, hrest⟩ := List.forall_mem_cons.mp hplaces
    have hbelow : Path.below root place = descend root [place] := (hroot.join hplace).tidy_eq
    obtain ⟨found, hfound, h⟩ := bind_eq_ok_iff.mp h
    rw [hbelow] at hfound h
    cases found with
    | true =>
      obtain rfl := Option.some.inj (Except.ok.inj h)
      exact ⟨place, hplace, rfl, isFile_of_isFileAt hfound⟩
    | false => exact ih hrest h

/-- The contribution of a server has a normal path for its root, and registering it normalizes once
more. -/
theorem mem_roots_serverContribution {entry path : String} (hnormal : IsNormal entry) :
    path ∈ (serverContribution entry).roots.map Path.normalize ↔ path = entry := by
  show path ∈ [Path.normalize (Path.normalize entry)] ↔ _
  rw [Path.normalize_normalize, hnormal.normalize_eq, List.mem_singleton]

/-- A path that is the entry file of the server. -/
def Stages.HasEntry (stages : Stages) (path : String) : Prop :=
  firstFile? stages.registering.tree stages.path serverEntries = .ok (some path)

namespace Stages.Of

variable {stages : Stages} {s : Session} {given : Option Settings} {graph : Graph}
  {id : CodeText} {path : String}

/-- An entry file of the server is a file below the root. -/
theorem entry (h : stages.Of s given root graph)
    (hentry : stages.HasEntry path) :
    ∃ place, IsName place ∧ path = descend stages.path [place] ∧
      stages.registering.tree.isFile path = true :=
  entry_of_firstFile? h.isNormal_path (by decide) hentry

/-- The module of a server claims its entry file. -/
theorem claims_entry (h : stages.Of s given root graph)
    (hentry : stages.HasEntry path) : stages.shown.Claims Naming.backend.id path := by
  obtain ⟨declared, entry, found, hfirst, -, hshown⟩ := registered_eq_ok h.registered
  rw [Stages.HasEntry, hfirst] at hentry
  cases hentry
  obtain ⟨place, hplace, rfl, -⟩ := h.entry hfirst
  have hnormal : IsNormal (descend stages.path [place]) := h.isNormal_path.join hplace
  rw [hshown, Registry.claims_ensureAll]
  refine Or.inr ⟨by decide, _, List.mem_cons_self, rfl, ?_⟩
  exact (mem_roots_serverContribution hnormal).mpr rfl

/-- Without manual modules, a root is the entry file of a server, or a directory that contributes,
claimed under the identifier of its last name. -/
theorem brings_of_claims (h : stages.Of s given root graph)
    (hnamed : s.tree.WellNamed) (hclaims : stages.shown.Claims id path) :
    (stages.HasEntry path ∧ id = (Naming.backend.id : CodeText)) ∨
      ∃ front name c, Brings stages.registering.tree stages.settings stages.path front name c ∧
        path = descend stages.path (front ++ [name]) ∧
        id = ((Naming.classify name).id : CodeText) := by
  obtain ⟨declared, entry, found, hfirst, hfound, hshown⟩ := registered_eq_ok h.registered
  rw [hshown, Registry.claims_ensureAll] at hclaims
  obtain ⟨-, c, hc, hid, hroots⟩ := hclaims.resolve_left fun ⟨_, hget, _⟩ => nomatch hget
  have hnormal := h.isNormal_path
  -- Contributions are the entry file of the server, if there is one, and directories.
  rcases List.mem_append.mp hc with hc | hc
  · cases entry with
    | none => exact absurd hc List.not_mem_nil
    | some entry =>
      obtain rfl := List.mem_singleton.mp hc
      obtain ⟨place, hplace, rfl, -⟩ := h.entry hfirst
      have hplaced : IsNormal (descend stages.path [place]) := hnormal.join hplace
      have hpath := (mem_roots_serverContribution hplaced).mp hroots
      exact Or.inl ⟨hpath ▸ hfirst, hid.symm⟩
  · obtain ⟨front, name, hbrings⟩ := (mem_directories_iff hfound c).mp hc
    have hfrom := hbrings.fromDirectory (h.wellNamed_registering hnamed) hnormal
    have hplaced : IsNormal (descend stages.path (front ++ [name])) := hnormal.descend hfrom.names
    rw [hfrom.roots_eq, List.map_singleton, hplaced.normalize_eq, List.mem_singleton] at hroots
    exact Or.inr ⟨front, name, c, hbrings, hroots, hid.symm.trans hfrom.id_eq⟩

/-- Such a directory stands at the end of a way from the root of the repository. -/
theorem claims_shown (h : stages.Of s given root graph)
    (hnamed : s.tree.WellNamed) (hclaims : stages.shown.Claims id path) :
    (stages.HasEntry path ∧ id = (Naming.backend.id : CodeText)) ∨
      ∃ front name, (∀ n ∈ front ++ [name], IsName n) ∧
        path = descend stages.path (front ++ [name]) ∧ id = ((Naming.classify name).id : CodeText) ∧
        IsNeverFile stages.registering.tree path := by
  refine (h.brings_of_claims hnamed hclaims).imp_right ?_
  rintro ⟨front, name, c, hbrings, rfl, hid⟩
  have hfrom := hbrings.fromDirectory (h.wellNamed_registering hnamed) h.isNormal_path
  exact ⟨front, name, hfrom.names, rfl, hid, hfrom.not_file⟩

/-- No two modules that a repository shows by itself claim one root. -/
theorem claims_unique (h : stages.Of s given root graph)
    (hnamed : s.tree.WellNamed) {other : CodeText} (hclaims : stages.shown.Claims id path)
    (hother : stages.shown.Claims other path) : other = id := by
  have hnormal := h.isNormal_path
  rcases h.claims_shown hnamed hclaims with
    ⟨hentry, rfl⟩ | ⟨front, name, hnames, rfl, rfl, hfile⟩
  · rcases h.claims_shown hnamed hother with ⟨-, rfl⟩ | ⟨_, _, _, _, _, hfile⟩
    · rfl
    · obtain ⟨-, -, -, hisFile⟩ := h.entry hentry
      exact absurd hfile (not_isNeverFile hisFile)
  · rcases h.claims_shown hnamed hother with
      ⟨hentry, -⟩ | ⟨front', name', hnames', hpath, rfl, -⟩
    · obtain ⟨-, -, -, hisFile⟩ := h.entry hentry
      exact absurd hfile (not_isNeverFile hisFile)
    · -- Ways to one path are the same, so their last names are.
      have hsame := hnormal.descend_inj hnames hnames' hpath
      have hlast : name = name' := List.singleton_inj.mp (List.append_inj' hsame rfl).2
      rw [hlast]

end Stages.Of

end RepoAtlas.Survey
