import RepoAtlas.Proofs.Path.Containment
import RepoAtlas.Proofs.Survey.Attribution

/-!
# `RepoAtlas.Proofs.Module.Owners`: the owner of a path goes by names

A path belongs to the first registered module with a root around it. Contributions put the normal
forms of their roots into the registry, so as long as they and the path have one slash in front,
whether a root lies around the path is up to names alone: `/r/app2` is not under `/r/app`.

* `findOwner_eq_some_iff_names`, `findOwner_eq_none_iff_names`: the owner of a path, among rooted
  modules.
* `ownership_goes_by_names`: what this says of registries that contributions have made.
-/

set_option autoImplicit false

namespace RepoAtlas.Module

open RepoAtlas.Path (FromTop IsRooted names normalize isWithin)
open RepoAtlas.Survey (Surrounds IsFirstAround findOwner_eq_some_iff)

/-- A module with a root whose names come first among the given ones. -/
def Record.Covers (record : Record) (path : List String) : Prop :=
  ∃ root ∈ record.roots, names root <+: path

namespace Registry

/-- The first registered module with a root whose names come first among the given ones. -/
def IsFirstOver (registry : Registry) (path : List String) (owner : Record) : Prop :=
  ∃ before after, registry.records = before ++ owner :: after ∧ owner.Covers path ∧
    ∀ earlier ∈ before, ¬earlier.Covers path

/-- All roots are in normal form, with one slash in front. -/
def Rooted (registry : Registry) : Prop :=
  ∀ record ∈ registry.records, ∀ root ∈ record.roots, IsRooted root

section

variable {registry : Registry} {path : String}

/-- The owner of a path does not depend on how it is written. -/
theorem findOwner_normalize (registry : Registry) (path : String) :
    registry.findOwner (normalize path) = registry.findOwner path := by
  unfold findOwner
  rw [Path.normalize_normalize]

/-- To lie around a rooted path is to have the first of its names. -/
theorem surrounds_iff_covers (h : registry.Rooted) (hpath : IsRooted path) {record : Record}
    (hrecord : record ∈ registry.records) :
    Surrounds record path ↔ record.Covers (names path) :=
  exists_congr fun root => and_congr_right fun hroot =>
    hpath.isWithin_iff_names (h record hrecord root hroot)

/-- The owner of a path is the first record whose roots begin its names. -/
theorem findOwner_eq_some_iff_names (h : registry.Rooted) (hpath : FromTop path)
    {record : Record} :
    registry.findOwner path = some record ↔
      registry.IsFirstOver (names (normalize path)) record := by
  have hnormal := hpath.normalize
  -- `findOwner_eq_some_iff` is about normal paths, and an owner is looked up by the normal form.
  rw [← findOwner_normalize, findOwner_eq_some_iff hnormal.normal]
  refine exists_congr fun before => exists_congr fun after => and_congr_right fun hsplit => ?_
  have hmem : ∀ other ∈ before ++ record :: after, other ∈ registry.records := fun _ hother =>
    hsplit ▸ hother
  refine and_congr (surrounds_iff_covers h hnormal (hmem record (by simp))) ?_
  exact forall₂_congr fun other hother =>
    not_congr (surrounds_iff_covers h hnormal (hmem other (List.mem_append_left _ hother)))

/-- A path without an owner is covered by no record. -/
theorem findOwner_eq_none_iff_names (h : registry.Rooted) (hpath : FromTop path) :
    registry.findOwner path = none ↔
      ∀ record ∈ registry.records, ¬record.Covers (names (normalize path)) := by
  unfold findOwner
  rw [List.find?_eq_none]
  refine forall₂_congr fun record hrecord => ?_
  rw [← surrounds_iff_covers h hpath.normalize hrecord, List.any_eq_true]
  rfl

end

/-- Contributions put the normal forms of their roots into a registry. -/
theorem rooted_ensureAll (declared : List CodeText) {contributions : List Contribution}
    (h : ∀ c ∈ contributions, ∀ root ∈ c.roots, FromTop root) :
    ((empty declared).ensureAll contributions).Rooted := by
  intro record hrecord root hroot
  have hclaims := (claims_ensureAll contributions).mp ((claims_of_mem hrecord).mpr hroot)
  rcases hclaims with ⟨_, hnone, -⟩ | ⟨-, c, hc, -, hroot⟩
  · exact nomatch hnone
  · obtain ⟨given, hgiven, rfl⟩ := List.mem_map.mp hroot
    exact (h c hc given hgiven).normalize

/-- Containment is a partial order that goes by names, with the top directory around everything. So
in a registry made by contributions the owner of a path is the first module with a root whose names
come first among those of the path, and there is none only if no module has such a root. -/
theorem ownership_goes_by_names :
    (∀ path root, IsRooted path → IsRooted root →
      (isWithin path root = true ↔ names root <+: names path)) ∧
    (IsPartialOrder {path // IsRooted path} fun root path => isWithin path.1 root.1 = true) ∧
    (∀ path, IsRooted path → isWithin path "/" = true) ∧
    ∀ (declared : List CodeText) (contributions : List Contribution),
      (∀ c ∈ contributions, ∀ root ∈ c.roots, FromTop root) → ∀ path, FromTop path →
        let registry := (empty declared).ensureAll contributions
        (∀ record, registry.findOwner path = some record ↔
          registry.IsFirstOver (names (normalize path)) record) ∧
        (registry.findOwner path = none ↔
          ∀ record ∈ registry.records, ¬record.Covers (names (normalize path))) := by
  refine ⟨fun path root hpath hroot => hpath.isWithin_iff_names hroot,
    Path.isPartialOrder_isWithin, fun path hpath => hpath.isWithin_top,
    fun declared contributions hroots path hpath => ?_⟩
  intro registry
  have hrooted := rooted_ensureAll declared hroots
  exact ⟨fun record => findOwner_eq_some_iff_names hrooted hpath,
    findOwner_eq_none_iff_names hrooted hpath⟩

/-- Roots in one another, some of them not in normal form. -/
def nestedRoots : List Contribution :=
  [{ id := "app", roots := ["/r/app"] },
    { id := "core", roots := ["/r/app/core", "/r//./lib/"] },
    { id := "all", roots := ["/r/.."] }]

/-- A module is not around its neighbour, whose text starts like its own, and of two modules around
a path the first one owns it. -/
theorem ownership_goes_by_names_nestedRoots :
    let registry := (empty []).ensureAll nestedRoots
    IsRooted "/r/app2" ∧ IsRooted "/r/app" ∧ isWithin "/r/app2" "/r/app" = false ∧
      (∀ c ∈ nestedRoots, ∀ root ∈ c.roots, FromTop root) ∧
      FromTop "/r/x/../app2/a.js" ∧ FromTop "/r/app/core/b.js" ∧
      (∃ owner, registry.IsFirstOver ["r", "app2", "a.js"] owner ∧ owner.id = "all") ∧
      ∃ owner, registry.IsFirstOver ["r", "app", "core", "b.js"] owner ∧ owner.id = "app" := by
  intro registry
  have hrooted : IsRooted "/r/app2" := by decide
  have hrooted' : IsRooted "/r/app" := by decide
  -- The names differ in the second place, though one begins like the other.
  have hapart : isWithin "/r/app2" "/r/app" = false :=
    Bool.eq_false_iff.mpr
      (mt (ownership_goes_by_names.1 "/r/app2" "/r/app" hrooted hrooted').mp (by decide))
  have hroots : ∀ c ∈ nestedRoots, ∀ root ∈ c.roots, FromTop root := by decide
  have howner := ownership_goes_by_names.2.2.2 [] nestedRoots hroots
  have hfirst : ∀ path, FromTop path → ∀ id, (registry.findOwner path).map Record.id = some id →
      ∃ owner, registry.IsFirstOver (names (normalize path)) owner ∧ owner.id = id := by
    intro path hpath id hid
    obtain ⟨owner, hfound, rfl⟩ := Option.map_eq_some_iff.mp hid
    exact ⟨owner, ((howner path hpath).1 owner).mp hfound, rfl⟩
  exact ⟨hrooted, hrooted', hapart, hroots, by decide, by decide,
    hfirst "/r/x/../app2/a.js" (by decide) "all" (by decide +kernel),
    hfirst "/r/app/core/b.js" (by decide) "app" (by decide +kernel)⟩

end Registry

end RepoAtlas.Module
