import RepoAtlas.Keyed
import RepoAtlas.Module.Manual

/-!
# `RepoAtlas.Module.Registry`: the modules of one scan

A registry holds one record for each identifier, in order of registration; that identifiers are
distinct and not empty is part of its type. All changes go through `ensure`, `update` and
`transform`, which keep both. `findOwner` gives the first module with a root around a path,
`rootOwners` the last module that claims a root.
-/

set_option autoImplicit false

namespace RepoAtlas.Module

/-- The modules of one scan. -/
structure Registry where
  /-- Names of the packages that the manifest declares. -/
  declared : List CodeText
  /-- The records in order of registration. -/
  records : List Record
  distinct : (records.map Record.id).Nodup
  named : ∀ record ∈ records, record.id ≠ ""

namespace Registry

/-- The registry without modules. -/
def empty (declared : List CodeText) : Registry where
  declared := declared
  records := []
  distinct := .nil
  named := by simp

/-- The identifiers in order of registration. -/
def ids (registry : Registry) : List CodeText :=
  registry.records.map Record.id

/-- The record of an identifier. -/
def get? (registry : Registry) (id : CodeText) : Option Record :=
  registry.records.find? (·.id = id)

/-- Whether an identifier is registered. -/
def contains (registry : Registry) (id : CodeText) : Bool :=
  registry.ids.contains id

/-- Changes every record, identifiers apart. -/
def transform (registry : Registry) (change : Record → Record) : Registry where
  declared := registry.declared
  records := registry.records.map fun record => { change record with id := record.id }
  distinct := by
    have h := registry.distinct
    rw [List.map_map]
    exact h
  named := by
    intro record h
    obtain ⟨old, hold, rfl⟩ := List.mem_map.1 h
    exact registry.named old hold

/-- Changes every record, identifiers apart, and gathers what else comes of it, in order. -/
def transformWith {α : Type} (registry : Registry) (change : Record → Record × α) :
    Registry × List α :=
  let changed := registry.records.map fun record =>
    let (next, gathered) := change record
    ({ next with id := record.id }, gathered)
  have ids : (changed.map Prod.fst).map Record.id = registry.records.map Record.id := by
    simp [changed]
  ({ declared := registry.declared
     records := changed.map Prod.fst
     distinct := ids ▸ registry.distinct
     named := by
      intro record h
      have : record.id ∈ registry.records.map Record.id := ids ▸ List.mem_map_of_mem h
      obtain ⟨old, hold, e⟩ := List.mem_map.1 this
      exact e ▸ registry.named old hold },
    changed.map Prod.snd)

/-- Changes the record of an identifier, if it is registered. -/
def update (registry : Registry) (id : CodeText) (change : Record → Record) : Registry :=
  registry.transform fun record => if record.id = id then change record else record

/-- Registers a record whose identifier is new and not empty. -/
def append (registry : Registry) (record : Record) (fresh : record.id ∉ registry.ids)
    (nonempty : record.id ≠ "") : Registry where
  declared := registry.declared
  records := registry.records ++ [record]
  distinct := by
    rw [List.map_append, List.nodup_append]
    refine ⟨registry.distinct, by simp, ?_⟩
    intro a ha b hb
    rw [List.map_cons, List.map_nil, List.mem_singleton] at hb
    subst hb
    exact fun e => fresh (e ▸ ha)
  named := by
    intro other h
    rcases List.mem_append.1 h with h | h
    · exact registry.named other h
    · rw [List.mem_singleton] at h
      exact h ▸ nonempty

/-- Takes in a contribution: opens a record for a new identifier, then adds what every
contribution may add. A contribution without an identifier changes nothing. -/
def ensure (registry : Registry) (c : Contribution) : Registry :=
  if nonempty : c.id = "" then registry
  else
    let opened :=
      if fresh : c.id ∈ registry.ids then registry
      else registry.append (Record.opened c registry.declared) fresh nonempty
    opened.update c.id (·.absorb c)

/-- Takes in contributions one after the other. -/
def ensureAll (registry : Registry) (contributions : List Contribution) : Registry :=
  contributions.foldl ensure registry

/-- Takes in one manual module. -/
def mergeOne (registry : Registry) (m : ManualModule) : Registry :=
  (registry.ensure m.contribution).update m.id (·.merge m)

/-- Takes in manual modules one after the other. -/
def mergeManual (registry : Registry) (modules : List ManualModule) : Registry :=
  modules.foldl mergeOne registry

/-- Adds the dependency of one link, if both ends are registered and differ. -/
def applyLink (registry : Registry) (link : Link) : Registry :=
  if link.source ≠ link.target ∧ registry.contains link.source ∧ registry.contains link.target then
    registry.update link.source (·.addDependency link.target)
  else registry

/-- Adds the dependencies of links one after the other. -/
def applyLinks (registry : Registry) (links : List Link) : Registry :=
  links.foldl applyLink registry

/-- The first module with a root that is the path or lies around it. -/
def findOwner (registry : Registry) (path : String) : Option Record :=
  let path := Path.normalize path
  registry.records.find? fun record => record.roots.toList.any (Path.isWithin path)

/-- Every root with the identifier of the last module that claims it, in order of first claim. -/
def rootOwners (registry : Registry) : List (String × CodeText) :=
  Keyed.setMany <| registry.records.flatMap fun record =>
    record.roots.toList.map fun root => (root, record.id)

end Registry

end RepoAtlas.Module
