import RepoAtlas.Proofs.Naming.Identifier
import RepoAtlas.Proofs.Survey.Ownership

/-!
# `RepoAtlas.Proofs.Survey.Containers`: what containers bring, at every depth

Each directory in a container that is not passed over is a module, and so is the container if it
holds source files. A container in a container is therefore a module in any case: as a directory of
the container around it. Only a container at the root needs source files of its own.

* `Stages.Of.claims_of_brings`, `Stages.Of.exists_brings`: directories that contribute become roots,
  and roots that are no files come from them.
* `survey_container_roots`: which containers become roots, under which kind, and with what in them.
* `nested_container_is_root`: a container in a container is a root without a source file.
-/

set_option autoImplicit false

namespace RepoAtlas.Survey

open RepoAtlas.Module
open RepoAtlas.Path (IsName IsNormal descend)

variable {root : String}

/-- The contributions of a repository by itself, in order. -/
def Stages.Contributes (stages : Stages) (contributions : List Contribution) : Prop :=
  ∃ entry found, firstFile? stages.registering.tree stages.path serverEntries = .ok entry ∧
    (directories stages.registering.tree stages.settings stages.path).outcome = .ok found ∧
    contributions = (entry.map serverContribution).toList ++ found

namespace Stages.Of

variable {stages : Stages} {s : Session} {given : Option Settings} {graph : Graph}

/-- The registry after the directories holds their contributions, in order. -/
theorem shown_eq (h : stages.Of s given root graph) {contributions : List Contribution}
    (hall : stages.Contributes contributions) :
    ∃ declared, stages.shown = (Registry.empty declared).ensureAll contributions := by
  obtain ⟨entry, found, hentry, hfound, rfl⟩ := hall
  obtain ⟨declared, entry', found', hentry', hfound', hshown⟩ := registered_eq_ok h.registered
  obtain rfl : entry = entry' := Except.ok.inj (hentry.symm.trans hentry')
  obtain rfl : found = found' := Except.ok.inj (hfound.symm.trans hfound')
  exact ⟨declared, hshown⟩

/-- Every directory that contributes is a root of the module with its identifier. -/
theorem claims_of_brings (h : stages.Of s given root graph) (hnamed : s.tree.WellNamed)
    {front : List String} {name : String} {c : Contribution}
    (hbrings : Brings stages.registering.tree stages.settings stages.path front name c) :
    stages.shown.Claims (Naming.classify name).id (descend stages.path (front ++ [name])) := by
  have hfrom := hbrings.fromDirectory (h.wellNamed_registering hnamed) h.isNormal_path
  obtain ⟨declared, entry, found, -, hfound, hshown⟩ := registered_eq_ok h.registered
  have hname : IsName name := hfrom.names name (by simp)
  have hnormal : IsNormal (descend stages.path (front ++ [name])) :=
    h.isNormal_path.descend hfrom.names
  rw [hshown, Registry.claims_ensureAll]
  -- The name is not empty, so neither is its id.
  have hid : ((Naming.classify name).id : CodeText) ≠ "" :=
    mt CodeText.ofString_inj.mp (Naming.id_classify_ne_empty hname.ne_empty)
  refine Or.inr ⟨hid, c, ?_, hfrom.id_eq, ?_⟩
  · exact List.mem_append_right _ ((mem_directories_iff hfound c).mpr ⟨front, name, hbrings⟩)
  · rw [hfrom.roots_eq, List.map_singleton, hnormal.normalize_eq]
    exact List.mem_singleton_self _

/-- A root that is no file comes from a directory that contributes. -/
theorem exists_brings (h : stages.Of s given root graph) (hnamed : s.tree.WellNamed)
    {front : List String} {name : String}
    (way : WayToDirectory stages.registering.tree stages.path front name)
    (hroot : IsRoot stages.shown (descend stages.path (front ++ [name]))) :
    ∃ c, Brings stages.registering.tree stages.settings stages.path front name c := by
  obtain ⟨id, hclaims⟩ := hroot
  rcases h.brings_of_claims hnamed hclaims with ⟨hentry, -⟩ | ⟨front', name', c, hbrings, hpath, -⟩
  · -- The entry of a server is a file.
    obtain ⟨-, -, -, hfile⟩ := h.entry hentry
    exact absurd way.not_file (not_isNeverFile hfile)
  · -- Ways to one path are the same.
    have hfrom := hbrings.fromDirectory (h.wellNamed_registering hnamed) h.isNormal_path
    have hsame := h.isNormal_path.descend_inj way.names hfrom.names hpath
    obtain ⟨rfl, hlast⟩ := List.append_inj' hsame rfl
    obtain rfl := List.singleton_inj.mp hlast
    exact ⟨c, hbrings⟩

/-- A container is a root exactly when it holds source files or stands in a container. -/
theorem isRoot_container_iff (h : stages.Of s given root graph) (hnamed : s.tree.WellNamed)
    {front : List String} {name : String}
    (reached : ContainerAt stages.registering.tree stages.settings stages.path front name) :
    IsRoot stages.shown (descend stages.path (front ++ [name])) ↔
      HoldsSource stages.registering.tree stages.settings (descend stages.path (front ++ [name])) ∨
        front ≠ [] := by
  constructor
  · intro hroot
    have way := reached.way (h.wellNamed_registering hnamed) h.isNormal_path
    obtain ⟨c, hbrings⟩ := h.exists_brings hnamed way hroot
    -- A container is not brought as a plain directory: it is a child of another one, or holds
    -- sources.
    cases hbrings with
    | plain _ hplain => exact absurd reached.isContainer (by simp [hplain])
    | inner _ _ => exact Or.inr (by simp)
    | own _ hholds => exact Or.inl hholds
  · intro hor
    rcases hor with hholds | hnested
    · exact ⟨_, h.claims_of_brings hnamed (.own reached hholds)⟩
    · cases reached with
      | top _ _ => exact absurd rfl hnested
      | inside above inner _ => exact ⟨_, h.claims_of_brings hnamed (.inner above inner)⟩

/-- The kind of a container whose own contribution is the first for its identifier. -/
theorem kind_of_first (h : stages.Of s given root graph) {name path : String}
    (hname : name ≠ "") {contributions : List Contribution}
    (hall : stages.Contributes contributions)
    (hfirst : contributions.find? (·.id = ((Naming.classify name).id : CodeText))
      = some (contributionOf (containerIdentity name) path)) :
    ∃ record, stages.shown.get? (Naming.classify name).id = some record ∧
      record.kind = ((if (Naming.classify name).kind = "code" then "workspace"
        else (Naming.classify name).kind : String) : CodeText) := by
  obtain ⟨declared, hshown⟩ := h.shown_eq hall
  obtain ⟨-, before, after, rfl, hbefore⟩ := List.find?_eq_some_iff_append.mp hfirst
  have hkind : (containerIdentity name).kind = if (Naming.classify name).kind = "code"
      then "workspace" else (Naming.classify name).kind := by
    unfold containerIdentity
    simp only
    split <;> rfl
  have hne : (containerIdentity name).kind ≠ "" := by
    rw [hkind]
    split
    · decide
    · exact Naming.kind_classify_ne_empty name
  -- The record opens with the first contribution for its identifier.
  have hopened := @Registry.exists_get?_of_first (Registry.empty declared) before after
    (contributionOf (containerIdentity name) path)
  have hid : (contributionOf (containerIdentity name) path).id
      = ((Naming.classify name).id : CodeText) :=
    congrArg CodeText.ofString (id_containerIdentity name)
  rw [hid] at hopened
  obtain ⟨record, hrecord, -, hopenedKind⟩ := hopened
    (mt CodeText.ofString_inj.mp (Naming.id_classify_ne_empty hname)) rfl
    fun other hother => by simpa using hbefore other hother
  refine ⟨record, hshown ▸ hrecord, ?_⟩
  rw [hopenedKind, ← hkind]
  exact if_neg (mt CodeText.ofString_inj.mp hne)

end Stages.Of

/-- Which containers become modules, at every depth. A container that is reached through containers
is a root exactly when it holds source files or stands in a container itself; if its own
contribution is the first for its identifier, a kind that says no more than `code` is replaced; and
every directory in it that is not passed over is a root. -/
theorem survey_container_roots {s s' : Session} (hnamed : s.tree.WellNamed)
    {given : Option Settings} {root : String} {graph : Graph}
    (h : Work.survey given root s = .ok graph s') :
    ∃ stages : Stages, stages.Of s given root graph ∧ ∀ front name,
      ContainerAt stages.registering.tree stages.settings stages.path front name →
        (IsRoot stages.shown (descend stages.path (front ++ [name])) ↔
          HoldsSource stages.registering.tree stages.settings
            (descend stages.path (front ++ [name])) ∨ front ≠ []) ∧
        (∀ contributions, stages.Contributes contributions →
          contributions.find? (·.id = ((Naming.classify name).id : CodeText)) = some (contributionOf
            (containerIdentity name) (descend stages.path (front ++ [name]))) →
          ∃ record, stages.shown.get? (Naming.classify name).id = some record ∧
            record.kind = ((if (Naming.classify name).kind = "code" then "workspace"
              else (Naming.classify name).kind : String) : CodeText)) ∧
        ∀ child, IsChild stages.registering.tree stages.settings
            (descend stages.path (front ++ [name])) child →
          stages.shown.Claims (Naming.classify child).id
            (descend stages.path (front ++ [name] ++ [child])) := by
  obtain ⟨stages, hstages⟩ := exists_stages h
  refine ⟨stages, hstages, fun front name reached => ⟨?_, ?_, ?_⟩⟩
  · exact hstages.isRoot_container_iff hnamed reached
  · intro contributions hall hfirst
    have way := reached.way (hstages.wellNamed_registering hnamed) hstages.isNormal_path
    have hname : IsName name := way.names name (by simp)
    exact hstages.kind_of_first hname.ne_empty hall hfirst
  · intro child hchild
    exact hstages.claims_of_brings hnamed (.inner reached hchild)

/-- A repository with a container at its root that holds a source file, and with one that holds
another container. Neither of these two holds a source file. -/
def containerSession : Session where
  tree := {
    entries :=
      [(["r"], .directory), (["r", "Services"], .directory),
        (["r", "Services", "own.js"], .file []), (["r", "packages"], .directory),
        (["r", "packages", "apps"], .directory), (["r", "packages", "apps", "web"], .directory),
        (["r", "packages", "apps", "web", "a.js"], .file [])]
    distinct := by decide }
  directory := "/"
  now := ⟨2024, 1, 1, 0, 0, 0, 0⟩

/-- The first container stands in the root. -/
theorem containerAt_packages : ContainerAt containerSession.tree {} "/r" [] "packages" :=
  .top ⟨⟨[("Services", .directory), ("packages", .directory)], .directory, by decide +kernel,
    by decide, rfl⟩, by decide +kernel⟩ (by decide +kernel)

/-- The second one stands in the first. -/
theorem containerAt_apps : ContainerAt containerSession.tree {} "/r" ["packages"] "apps" :=
  containerAt_packages.inside ⟨⟨[("apps", .directory)], .directory, by decide +kernel,
    by decide, rfl⟩, by decide +kernel⟩ (by decide +kernel)

/-- A container with a source is a module and one without is not, while the container in it is one
in any case. -/
theorem survey_containerSession_roots :
    containerSession.tree.WellNamed ∧
    ∃ graph s', Work.survey (some {}) "/r" containerSession = .ok graph s' ∧
      ∃ stages : Stages, stages.Of containerSession (some {}) "/r" graph ∧ ∀ front name,
        ContainerAt stages.registering.tree stages.settings stages.path front name →
          (IsRoot stages.shown (descend stages.path (front ++ [name])) ↔
            HoldsSource stages.registering.tree stages.settings
              (descend stages.path (front ++ [name])) ∨ front ≠ []) ∧
          (∀ contributions, stages.Contributes contributions →
            contributions.find? (·.id = ((Naming.classify name).id : CodeText))
              = some (contributionOf
              (containerIdentity name) (descend stages.path (front ++ [name]))) →
            ∃ record, stages.shown.get? (Naming.classify name).id = some record ∧
              record.kind = ((if (Naming.classify name).kind = "code" then "workspace"
                else (Naming.classify name).kind : String) : CodeText)) ∧
          ∀ child, IsChild stages.registering.tree stages.settings
              (descend stages.path (front ++ [name])) child →
            stages.shown.Claims (Naming.classify child).id
              (descend stages.path (front ++ [name] ++ [child])) := by
  have hnamed : containerSession.tree.WellNamed := by decide +kernel
  obtain ⟨graph, s', h⟩ := Work.exists_of_isSome_answer?
    (show (Work.answer? (Work.survey (some {}) "/r") containerSession).isSome = true by
      decide +kernel)
  exact ⟨hnamed, graph, s', h, survey_container_roots hnamed h⟩

/-- A container in a container is a root although no source file stands in it. -/
theorem nested_container_is_root :
    ∃ graph s', Work.survey (some {}) "/r" containerSession = .ok graph s' ∧
      ∃ stages : Stages, stages.Of containerSession (some {}) "/r" graph ∧
        ContainerAt stages.registering.tree stages.settings stages.path ["packages"] "apps" ∧
        ¬HoldsSource stages.registering.tree stages.settings "/r/packages/apps" ∧
        IsRoot stages.shown "/r/packages/apps" := by
  have quiet : containerSession.IsQuiet := fun _ h => nomatch h
  have hnamed : containerSession.tree.WellNamed := by decide +kernel
  obtain ⟨graph, s', h⟩ := Work.exists_of_isSome_answer?
    (show (Work.answer? (Work.survey (some {}) "/r") containerSession).isSome = true by
      decide +kernel)
  obtain ⟨stages, hstages⟩ := exists_stages h
  have hpath := hstages.path_eq
    (show Work.answer? (Work.openRoot "/r") containerSession = some "/r" by decide +kernel)
  have reached : ContainerAt stages.registering.tree stages.settings stages.path
      ["packages"] "apps" := by
    rw [(hstages.trees_eq quiet).1, hstages.settings_eq, hpath]
    exact containerAt_apps
  have hroot := (hstages.isRoot_container_iff hnamed reached).mpr (Or.inr (List.cons_ne_nil _ _))
  have hplace : descend stages.path (["packages"] ++ ["apps"]) = "/r/packages/apps" := by
    rw [hpath]
    decide +kernel
  refine ⟨graph, s', h, stages, hstages, reached, ?_, hplace ▸ hroot⟩
  rw [(hstages.trees_eq quiet).1, hstages.settings_eq]
  rintro ⟨name, content, ⟨entries, entry, hlist, hmem, hseen⟩, -⟩
  -- The only entry of the inner container is a directory.
  have honly : containerSession.tree.list "/r/packages/apps" = .ok [("web", .directory)] := by
    decide +kernel
  obtain rfl := Except.ok.inj (honly.symm.trans hlist)
  cases List.mem_singleton.mp hmem
  cases hseen

end RepoAtlas.Survey
