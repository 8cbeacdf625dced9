import RepoAtlas.Proofs.Module.History

/-!
# `RepoAtlas.Proofs.Module.Dependencies`: where dependencies come from

A dependency of one module on another enters a registry in three ways only: a manual module lists
it, a file that is read refers to it, or a link joins the two. Contributions never bring any. For
each operation one lemma says which dependencies there are after it (`DependsOn`).
-/

set_option autoImplicit false

namespace RepoAtlas.Module.Registry

/-- One registered module depends on another, registered or not. -/
def DependsOn (registry : Registry) (source target : CodeText) : Prop :=
  ∃ record, registry.get? source = some record ∧ target ∈ record.dependencies

variable {registry : Registry} {source target : CodeText}

/-- In an empty registry, nothing depends on anything. -/
theorem not_dependsOn_empty (declared : List CodeText) :
    ¬(empty declared).DependsOn source target :=
  fun ⟨_, h, _⟩ => nomatch h

/-- The dependencies of an id are those of its record. -/
theorem dependsOn_of_mem {record : Record} (h : record ∈ registry.records) :
    registry.DependsOn record.id target ↔ target ∈ record.dependencies :=
  registry.exists_get?_iff h

/-- A contribution brings no dependency. -/
theorem dependsOn_ensure (c : Contribution) :
    (registry.ensure c).DependsOn source target ↔ registry.DependsOn source target := by
  unfold DependsOn
  rw [get?_ensure]
  split
  · -- A new record has no dependencies, and an old one keeps its own.
    cases hget : registry.get? source with
    | none =>
      refine ⟨fun ⟨record, hrecord, htarget⟩ => ?_, fun ⟨_, h, _⟩ => nomatch h⟩
      cases hrecord
      rw [Record.absorb_eq] at htarget
      exact absurd htarget List.not_mem_nil
    | some record =>
      simp only [Option.getD_some, Option.some.injEq, exists_eq_left', Record.absorb_eq]
  · rfl

/-- Contributions bring no dependencies. -/
theorem dependsOn_ensureAll (contributions : List Contribution) :
    (registry.ensureAll contributions).DependsOn source target ↔
      registry.DependsOn source target := by
  induction contributions generalizing registry with
  | nil => rfl
  | cons c rest ih => exact ih.trans (dependsOn_ensure c)

/-- A manual module brings the dependencies that it lists. -/
theorem dependsOn_mergeOne (m : ManualModule) :
    (registry.mergeOne m).DependsOn source target ↔
      registry.DependsOn source target ∨
        (source ≠ "" ∧ m.id = source ∧ target ∈ m.dependencies) := by
  have hensure := @dependsOn_ensure registry source target m.contribution
  unfold DependsOn at hensure ⊢
  rw [get?_ensure] at hensure
  rw [get?_mergeOne]
  -- The module goes to the source, or to another id.
  by_cases hid : m.id ≠ "" ∧ source = m.id
  · obtain ⟨hne, rfl⟩ := hid
    rw [if_pos ⟨hne, rfl⟩] at hensure ⊢
    rw [← hensure]
    simp only [Option.some.injEq, exists_eq_left', Record.merge_eq, OrderedSet.mem_insertMany]
    exact or_congr_right ⟨fun h => ⟨hne, trivial, h⟩, fun h => h.2.2⟩
  · rw [if_neg hid]
    refine ⟨Or.inl, fun hor => hor.resolve_right fun ⟨hne, hsource, _⟩ => hid ?_⟩
    exact ⟨hsource ▸ hne, hsource.symm⟩

/-- Manual modules bring those that they list. -/
theorem dependsOn_mergeManual (modules : List ManualModule) :
    (registry.mergeManual modules).DependsOn source target ↔
      registry.DependsOn source target ∨
        (source ≠ "" ∧ ∃ m ∈ modules, m.id = source ∧ target ∈ m.dependencies) := by
  induction modules generalizing registry with
  | nil =>
    exact ⟨Or.inl, fun hor => hor.resolve_right fun ⟨_, _, h, _⟩ => absurd h List.not_mem_nil⟩
  | cons m rest ih =>
    -- Unfolding a fold from the left shows the rest of it on the merged registry.
    show ((registry.mergeOne m).mergeManual rest).DependsOn source target ↔ _
    rw [ih, dependsOn_mergeOne, or_assoc, ← and_or_left]
    simp only [List.mem_cons, exists_eq_or_imp]

/-- A link between different registered modules brings itself as a dependency. -/
theorem dependsOn_applyLink (link : Link) :
    (registry.applyLink link).DependsOn source target ↔
      registry.DependsOn source target ∨
        (source ≠ target ∧ source ∈ registry.ids ∧ target ∈ registry.ids ∧
          link.source = source ∧ link.target = target) := by
  unfold DependsOn
  rw [get?_applyLink]
  split
  · next h =>
    -- The link counts for its source only, whose record gets the target.
    obtain ⟨rfl, hne, htarget⟩ := h
    rw [mem_ids_iff]
    simp only [Option.map_eq_some_iff]
    constructor
    · rintro ⟨_, ⟨record, hget, rfl⟩, hmem⟩
      rcases OrderedSet.mem_insert.mp hmem with hold | rfl
      · exact Or.inl ⟨record, hget, hold⟩
      · exact Or.inr ⟨hne, ⟨record, hget⟩, htarget, trivial, rfl⟩
    · rintro (⟨record, hget, hold⟩ | ⟨-, ⟨record, hget⟩, -, -, rfl⟩)
      · exact ⟨_, ⟨record, hget, rfl⟩, OrderedSet.mem_insert.mpr (Or.inl hold)⟩
      · exact ⟨_, ⟨record, hget, rfl⟩, OrderedSet.mem_insert.mpr (Or.inr rfl)⟩
  · next h =>
    refine ⟨Or.inl, fun hor => hor.resolve_right ?_⟩
    rintro ⟨hne, -, htarget, rfl, rfl⟩
    exact h ⟨rfl, hne, htarget⟩

/-- Links bring those between two modules that are known. -/
theorem dependsOn_applyLinks (links : List Link) :
    (registry.applyLinks links).DependsOn source target ↔
      registry.DependsOn source target ∨
        (source ≠ target ∧ source ∈ registry.ids ∧ target ∈ registry.ids ∧
          ∃ link ∈ links, link.source = source ∧ link.target = target) := by
  -- By induction on the links; the ids, which decide whether a link counts, stay the same.
  induction links generalizing registry with
  | nil =>
    exact ⟨Or.inl,
      fun hor => hor.resolve_right fun ⟨_, _, _, _, h, _⟩ => absurd h List.not_mem_nil⟩
  | cons link rest ih =>
    show ((registry.applyLink link).applyLinks rest).DependsOn source target ↔ _
    rw [ih, dependsOn_applyLink, ids_applyLink, or_assoc]
    simp only [← and_or_left, List.mem_cons, exists_eq_or_imp]

end RepoAtlas.Module.Registry
