import RepoAtlas.Proofs.Arrival
import RepoAtlas.Proofs.Module.Registry

/-!
# `RepoAtlas.Proofs.Module.Claims`: which modules claim which roots

A module claims the roots of all its contributions. Several modules may claim one root; then the
last one owns it. As long as only one does, ownership and claims are the same.
-/

set_option autoImplicit false

namespace RepoAtlas.Module.Registry

/-- A registered module has a root. -/
def Claims (registry : Registry) (id : CodeText) (root : String) : Prop :=
  ∃ record, registry.get? id = some record ∧ root ∈ record.roots

variable {registry : Registry} {id : CodeText} {root : String}

/-- An id claims the roots of its record. -/
theorem claims_of_mem {record : Record} (h : record ∈ registry.records) :
    registry.Claims record.id root ↔ root ∈ record.roots :=
  registry.exists_get?_iff h

/-- A contribution claims its roots for its module, in normal form. -/
theorem claims_ensure (c : Contribution) :
    (registry.ensure c).Claims id root ↔
      registry.Claims id root ∨
        (id ≠ "" ∧ c.id = id ∧ root ∈ c.roots.map Path.normalize) := by
  unfold Claims
  rw [get?_ensure]
  -- The contribution goes to this id, or to another one, or to none.
  by_cases hid : c.id ≠ "" ∧ id = c.id
  · obtain ⟨hne, rfl⟩ := hid
    rw [if_pos ⟨hne, rfl⟩]
    simp only [Option.some.injEq, exists_eq_left', Record.absorb_eq, OrderedSet.mem_insertMany]
    refine or_congr ?_ ⟨fun h => ⟨hne, trivial, h⟩, fun h => h.2.2⟩
    cases registry.get? c.id with
    | none => exact ⟨fun h => absurd h List.not_mem_nil, fun ⟨_, h, _⟩ => nomatch h⟩
    | some record => simp only [Option.getD_some, Option.some.injEq, exists_eq_left']
  · rw [if_neg hid]
    refine ⟨Or.inl, fun hor => hor.resolve_right fun ⟨hne, hsame, _⟩ => hid ?_⟩
    exact ⟨hsame ▸ hne, hsame.symm⟩

/-- Contributions add the roots that they bring, in normal form. -/
theorem claims_ensureAll (contributions : List Contribution) :
    (registry.ensureAll contributions).Claims id root ↔
      registry.Claims id root ∨
        (id ≠ "" ∧ ∃ c ∈ contributions, c.id = id ∧ root ∈ c.roots.map Path.normalize) := by
  induction contributions generalizing registry with
  | nil =>
    exact ⟨Or.inl, fun hor => hor.resolve_right fun ⟨_, _, h, _⟩ => absurd h List.not_mem_nil⟩
  | cons c rest ih =>
    show ((registry.ensure c).ensureAll rest).Claims id root ↔ _
    rw [ih, claims_ensure, or_assoc, ← and_or_left]
    simp only [List.mem_cons, exists_eq_or_imp]

/-- The pairs that ownership is settled from are the claims. -/
theorem mem_pairs_iff :
    (root, id) ∈ (registry.records.flatMap fun record =>
        record.roots.toList.map fun root => (root, record.id)) ↔
      registry.Claims id root := by
  rw [List.mem_flatMap]
  constructor
  · rintro ⟨record, hrecord, hpair⟩
    obtain ⟨root', hroot, heq⟩ := List.mem_map.mp hpair
    cases heq
    exact (claims_of_mem hrecord).mpr hroot
  · rintro ⟨record, hget, hroot⟩
    obtain ⟨hrecord, rfl⟩ := (registry.get?_eq_some_iff).mp hget
    exact ⟨record, hrecord, List.mem_map_of_mem hroot⟩

/-- An owner is one of the modules that claim the root. -/
theorem claims_of_lookup (h : registry.rootOwners.lookup root = some id) :
    registry.Claims id root :=
  mem_pairs_iff.mp (Keyed.mem_of_lookup_setMany h)

/-- The only module that claims a root owns it. -/
theorem lookup_rootOwners (h : registry.Claims id root)
    (only : ∀ other, registry.Claims other root → other = id) :
    registry.rootOwners.lookup root = some id :=
  Keyed.lookup_setMany_of_unique (mem_pairs_iff.mpr h) fun other hother =>
    only other (mem_pairs_iff.mp hother)

end RepoAtlas.Module.Registry
