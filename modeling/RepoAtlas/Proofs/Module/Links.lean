import Mathlib.Data.List.Forall2
import RepoAtlas.Proofs.Module.History

/-!
# `RepoAtlas.Proofs.Module.Links`: links added to a registry

Users may add any links: the same one twice, from a module to itself, from or to a module that is
not registered, or along a dependency that a file has shown already. Each record takes in the
targets of its own links that are other registered modules (`linkTargets`), all at once
(`Record.withLinks`), and nothing else changes.

* `records_applyLink`, `records_applyLinks`: the records after one link, and after all of them.
* `applyLinks_adds_targets`: what this says of registries. The order of the links only shows in the
  order of the dependencies, and links that were added need not be added again.
-/

set_option autoImplicit false

namespace RepoAtlas.Module

/-- The targets of the links from a module that are other registered modules, in link order. -/
def linkTargets (known : List CodeText) (links : List Link) (id : CodeText) : List CodeText :=
  ((links.filter (·.source = id)).map Link.target).filter fun target =>
    target ∈ known ∧ target ≠ id

/-- More links add their targets behind. -/
theorem linkTargets_append (known : List CodeText) (front back : List Link) (id : CodeText) :
    linkTargets known (front ++ back) id
      = linkTargets known front id ++ linkTargets known back id := by
  unfold linkTargets
  rw [List.filter_append, List.map_append, List.filter_append]

/-- A link has its target for its source, if that is another module that is known. -/
theorem linkTargets_singleton (known : List CodeText) (link : Link) (id : CodeText) :
    linkTargets known [link] id
      = if link.source = id ∧ link.target ∈ known ∧ link.target ≠ id then [link.target]
        else [] := by
  unfold linkTargets
  by_cases hsource : link.source = id
  · rw [List.filter_cons_of_pos (by simpa using hsource), List.filter_nil, List.map_singleton]
    by_cases htarget : link.target ∈ known ∧ link.target ≠ id
    · rw [List.filter_cons_of_pos (by simpa using htarget), if_pos ⟨hsource, htarget⟩]
      rfl
    · rw [List.filter_cons_of_neg (by simpa using htarget), if_neg fun h => htarget h.2]
      rfl
  · rw [List.filter_cons_of_neg (by simpa using hsource), if_neg fun h => hsource h.1]
    rfl

/-- What a module is linked to: other modules that are known. -/
theorem mem_linkTargets {known : List CodeText} {links : List Link} {id target : CodeText} :
    target ∈ linkTargets known links id ↔
      (∃ link ∈ links, link.source = id ∧ link.target = target) ∧ target ∈ known ∧ target ≠ id := by
  unfold linkTargets
  rw [List.mem_filter, decide_eq_true_eq, List.mem_map]
  simp only [List.mem_filter, decide_eq_true_eq, and_assoc]

namespace Record

/-- What a record becomes when links are added, all at once. -/
def withLinks (known : List CodeText) (links : List Link) (record : Record) : Record :=
  { record with
    dependencies := record.dependencies.insertMany (linkTargets known links record.id) }

/-- Links may be applied in two parts. -/
theorem withLinks_append (known : List CodeText) (front back : List Link) (record : Record) :
    (record.withLinks known front).withLinks known back
      = record.withLinks known (front ++ back) := by
  unfold withLinks
  rw [linkTargets_append, OrderedSet.insertMany_append]

/-- The same links a second time add nothing. -/
theorem withLinks_withLinks (known : List CodeText) (links : List Link) (record : Record) :
    (record.withLinks known links).withLinks known links = record.withLinks known links := by
  unfold withLinks
  rw [OrderedSet.insertMany_insertMany]

/-- A record before and after links are added: behind its earlier dependencies come the new targets
of its links, each where it is first named, and the rest is as it was. -/
structure GainsLinks (known : List CodeText) (links : List Link) (before after : Record) :
    Prop where
  rest : after = { before with dependencies := after.dependencies }
  dependencies : after.dependencies.toList
    = before.dependencies.toList
        ++ (linkTargets known links before.id).eraseDups.filter (· ∉ before.dependencies)

/-- A record gains new targets, each where it comes first. -/
theorem gainsLinks_withLinks (known : List CodeText) (links : List Link) (record : Record) :
    record.GainsLinks known links (record.withLinks known links) where
  rest := rfl
  dependencies := by
    rw [← OrderedSet.toList_ofList]
    exact record.dependencies.toList_insertMany _

/-- Records that differ in the order of their dependencies at most. -/
structure SameUpToOrder (record other : Record) : Prop where
  rest : other = { record with dependencies := other.dependencies }
  dependencies : ∀ target, target ∈ record.dependencies ↔ target ∈ other.dependencies

/-- Links in another order give the same dependencies in another order. -/
theorem sameUpToOrder_withLinks (known : List CodeText) {links other : List Link}
    (h : other.Perm links) (record : Record) :
    (record.withLinks known other).SameUpToOrder (record.withLinks known links) where
  rest := rfl
  dependencies target := by
    unfold withLinks
    rw [OrderedSet.mem_insertMany, OrderedSet.mem_insertMany, mem_linkTargets, mem_linkTargets]
    simp only [h.mem_iff]

end Record

namespace Registry

variable (registry : Registry)

/-- Links leave the declared frameworks. -/
theorem declared_applyLinks (links : List Link) :
    (registry.applyLinks links).declared = registry.declared := by
  induction links generalizing registry with
  | nil => rfl
  | cons link rest ih =>
    refine (ih (registry.applyLink link)).trans ?_
    unfold applyLink
    split <;> rfl

/-- A link is taken in by the record of its source, if it is valid. -/
theorem records_applyLink_eq_map (link : Link) :
    (registry.applyLink link).records
      = registry.records.map (Record.withLinks registry.ids [link]) := by
  -- The registry asks whether both ends are registered. At a record of the registry only the target
  -- is in question: the source is the record itself.
  have hvalid : ∀ record ∈ registry.records,
      (link.source = record.id ∧ link.target ∈ registry.ids ∧ link.target ≠ record.id) ↔
        record.id = link.source ∧ link.source ≠ link.target ∧
          registry.contains link.source = true ∧ registry.contains link.target = true := by
    intro record hrecord
    rw [contains_iff, contains_iff]
    constructor
    · rintro ⟨hsource, htarget, hne⟩
      exact ⟨hsource.symm, fun h => hne (h.symm.trans hsource),
        hsource ▸ List.mem_map_of_mem hrecord, htarget⟩
    · rintro ⟨hsource, hne, -, htarget⟩
      exact ⟨hsource.symm, htarget, fun h => hne (hsource.symm.trans h.symm)⟩
  by_cases h : link.source ≠ link.target ∧ registry.contains link.source = true ∧
      registry.contains link.target = true
  · rw [registry.records_applyLink h]
    refine List.map_congr_left fun record hrecord => ?_
    unfold Record.withLinks
    rw [linkTargets_singleton, if_congr (hvalid record hrecord) rfl rfl]
    by_cases hsource : record.id = link.source
    · rw [if_pos hsource, if_pos ⟨hsource, h⟩]
      rfl
    · rw [if_neg hsource, if_neg fun hand => hsource hand.1]
      rfl
  · rw [applyLink, if_neg h]
    refine ((List.map_congr_left fun record hrecord => ?_).trans (List.map_id _)).symm
    unfold Record.withLinks
    rw [linkTargets_singleton, if_neg fun hand => h ((hvalid record hrecord).mp hand).2]
    rfl

/-- Links are taken in by each record all at once. -/
theorem records_applyLinks (links : List Link) :
    (registry.applyLinks links).records
      = registry.records.map (Record.withLinks registry.ids links) := by
  induction links generalizing registry with
  | nil => exact (List.map_id _).symm
  | cons link rest ih =>
    -- A link registers nothing, so the rest of the links find the same modules.
    show ((registry.applyLink link).applyLinks rest).records = _
    rw [ih, ids_applyLink, records_applyLink_eq_map, List.map_map]
    exact List.map_congr_left fun record _ => record.withLinks_append registry.ids [link] rest

/-- Links add the targets that are other registered modules to the records of their sources. They
change nothing else, they may be added any number of times, and in another order they lead to the
same dependencies. -/
theorem applyLinks_adds_targets (registry : Registry) (links : List Link) :
    let linked := registry.applyLinks links
    linked.declared = registry.declared ∧
      List.Forall₂ (Record.GainsLinks registry.ids links) registry.records linked.records ∧
      linked.applyLinks links = linked ∧
      ∀ other, other.Perm links →
        List.Forall₂ Record.SameUpToOrder (registry.applyLinks other).records linked.records := by
  intro linked
  have hdeclared := registry.declared_applyLinks links
  -- All links together change each record by itself.
  have hrecords := registry.records_applyLinks links
  refine ⟨hdeclared, ?_, ?_, fun other hother => ?_⟩
  · rw [hrecords, List.forall₂_map_right_iff, List.forall₂_same]
    exact fun record _ => record.gainsLinks_withLinks registry.ids links
  · refine eq_of_records (linked.declared_applyLinks links) ?_
    rw [linked.records_applyLinks links, registry.ids_applyLinks links, hrecords, List.map_map]
    exact List.map_congr_left fun record _ => record.withLinks_withLinks registry.ids links
  · rw [hrecords, records_applyLinks, List.forall₂_map_left_iff, List.forall₂_map_right_iff,
      List.forall₂_same]
    exact fun record _ => record.sameUpToOrder_withLinks registry.ids hother

/-- Links of which some come twice, lead nowhere or come from nowhere. -/
def untidyLinks : List Link :=
  [⟨"web", "core", ""⟩, ⟨"web", "web", ""⟩, ⟨"web", "docs", "2024"⟩, ⟨"docs", "gone", ""⟩,
    ⟨"gone", "web", ""⟩, ⟨"web", "core", "2025"⟩, ⟨"docs", "web", ""⟩, ⟨"docs", "core", ""⟩]

/-- A dependency that was there stays in front, and the rest goes by the order of the links. -/
theorem applyLinks_untidyLinks_adds_targets :
    let registry := (empty []).replay
      [.ensure { id := "core" }, .ensure { id := "web" }, .addDependency "web" "docs",
        .ensure { id := "docs" }]
    let linked := registry.applyLinks untidyLinks
    let turned := registry.applyLinks untidyLinks.reverse
    untidyLinks.reverse.Perm untidyLinks ∧
      List.Forall₂ (Record.GainsLinks registry.ids untidyLinks) registry.records linked.records ∧
      linked.applyLinks untidyLinks = linked ∧
      List.Forall₂ Record.SameUpToOrder turned.records linked.records ∧
      linked.records.map (·.dependencies.toList)
        = ([[], ["docs", "core"], ["web", "core"]] : List (List CodeText)) ∧
      turned.records.map (·.dependencies.toList)
        = ([[], ["docs", "core"], ["core", "web"]] : List (List CodeText)) := by
  intro registry linked turned
  obtain ⟨-, hgains, htwice, hturned⟩ := applyLinks_adds_targets registry untidyLinks
  exact ⟨List.reverse_perm _, hgains, htwice, hturned _ (List.reverse_perm _), by decide +kernel,
    by decide +kernel⟩

end Registry

end RepoAtlas.Module
