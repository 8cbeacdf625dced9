import RepoAtlas.Module.Registry

/-!
# `RepoAtlas.Proofs.Module.Registry`: what each change does to the records

A registry is its identifiers in order (`ids`) and the record of each (`get?`). The lemmas below
say what every operation does to this view, so nothing after this module unfolds an operation:

* `get?_ensure`, `ids_ensure`: a contribution opens the record of a new identifier at the end, and
  adds to the record of its identifier only.
* `exists_get?_of_first`: the first contribution for an identifier settles name and kind.
* `get?_mergeOne`, `get?_applyLink`: the same for a manual module and for a link.
* `absorb_eq`, `merge_eq`: what a record gains, field by field.
-/

set_option autoImplicit false

namespace RepoAtlas.Module

/-! ### Records -/

namespace Record

/-- Roots that are added one by one are added to the roots and to the hints at once. -/
theorem foldl_addRoot (record : Record) (paths : List String) :
    paths.foldl addRoot record
      = { record with
          roots := record.roots.insertMany paths
          hints := record.hints.insertMany paths } := by
  induction paths generalizing record with
  | nil => rfl
  | cons path rest ih => rw [List.foldl_cons, ih]; rfl

/-- Dependencies that are added one by one are added at once. -/
theorem foldl_addDependency (record : Record) (ids : List CodeText) :
    ids.foldl addDependency record
      = { record with dependencies := record.dependencies.insertMany ids } := by
  induction ids generalizing record with
  | nil => rfl
  | cons id rest ih => rw [List.foldl_cons, ih]; rfl

/-- So are packages. -/
theorem foldl_addPackage (record : Record) (names : List CodeText) :
    names.foldl addPackage record
      = { record with packages := record.packages.insertMany names } := by
  induction names generalizing record with
  | nil => rfl
  | cons name rest ih => rw [List.foldl_cons, ih]; rfl

/-- So are frameworks. -/
theorem foldl_addFramework (record : Record) (names : List CodeText) :
    names.foldl addFramework record
      = { record with frameworks := record.frameworks.insertMany names } := by
  induction names generalizing record with
  | nil => rfl
  | cons name rest ih => rw [List.foldl_cons, ih]; rfl

/-- What a record gains from a contribution. -/
theorem absorb_eq (record : Record) (c : Contribution) :
    record.absorb c
      = { record with
          roots := record.roots.insertMany (c.roots.map Path.normalize)
          hints := record.hints.insertMany (c.roots.map Path.normalize)
          source := if c.source = "" then record.source else c.source
          manual := record.manual || c.manual } := by
  unfold absorb
  rw [foldl_addRoot]

/-- What a record gains from a manual module, its contribution apart. -/
theorem merge_eq (record : Record) (m : ManualModule) :
    record.merge m
      = { record with
          dependencies := record.dependencies.insertMany m.dependencies
          packages := record.packages.insertMany m.packages
          frameworks := record.frameworks.insertMany m.frameworks
          metrics := m.metrics.override record.metrics } := by
  simp only [merge, foldl_addDependency, foldl_addPackage, foldl_addFramework]

/-- Where identifiers are distinct, a record is the first one with its identifier. -/
theorem find?_of_mem {records : List Record} (distinct : (records.map Record.id).Nodup)
    {record : Record} (h : record ∈ records) : records.find? (·.id = record.id) = some record := by
  induction records with
  | nil => exact absurd h List.not_mem_nil
  | cons first rest ih =>
    rw [List.map_cons, List.nodup_cons] at distinct
    -- The first record is found at once; it does not stand in the way of another one.
    rcases List.mem_cons.mp h with rfl | hrest
    · exact List.find?_cons_of_pos (by simp)
    · have hne : first.id ≠ record.id := fun heq =>
        distinct.1 (heq ▸ List.mem_map_of_mem hrest)
      rw [List.find?_cons_of_neg (by simpa using hne)]
      exact ih distinct.2 hrest

end Record

/-! ### Registries -/

namespace Registry

variable (registry : Registry)

/-- The record of an identifier is the one that carries it. -/
theorem get?_eq_some_iff {id : CodeText} {record : Record} :
    registry.get? id = some record ↔ record ∈ registry.records ∧ record.id = id := by
  constructor
  · intro h
    exact ⟨List.mem_of_find?_eq_some h, by simpa using List.find?_some h⟩
  · rintro ⟨hmem, rfl⟩
    exact Record.find?_of_mem registry.distinct hmem

/-- Every record is found under its identifier. -/
theorem get?_of_mem {record : Record} (h : record ∈ registry.records) :
    registry.get? record.id = some record :=
  registry.get?_eq_some_iff.mpr ⟨h, rfl⟩

/-- To speak of the record that is found under a record's identifier is to speak of the record. -/
theorem exists_get?_iff {record : Record} (h : record ∈ registry.records) {p : Record → Prop} :
    (∃ found, registry.get? record.id = some found ∧ p found) ↔ p record := by
  rw [registry.get?_of_mem h]
  exact ⟨fun ⟨_, heq, hp⟩ => Option.some.inj heq ▸ hp, fun hp => ⟨record, rfl, hp⟩⟩

/-- The identifiers are those that have a record. -/
theorem mem_ids_iff {id : CodeText} :
    id ∈ registry.ids ↔ ∃ record, registry.get? id = some record := by
  constructor
  · intro h
    obtain ⟨record, hmem, rfl⟩ := List.mem_map.mp h
    exact ⟨record, registry.get?_of_mem hmem⟩
  · rintro ⟨record, h⟩
    obtain ⟨hmem, rfl⟩ := registry.get?_eq_some_iff.mp h
    exact List.mem_map_of_mem hmem

/-- All others have none. -/
theorem get?_eq_none_iff {id : CodeText} : registry.get? id = none ↔ id ∉ registry.ids := by
  rw [mem_ids_iff, ← Option.isSome_iff_exists, Option.not_isSome_iff_eq_none]

/-- The records are those of the identifiers, in order. -/
theorem filterMap_get? : registry.ids.filterMap registry.get? = registry.records := by
  have hget : registry.records.map (registry.get? ∘ Record.id) = registry.records.map some :=
    List.map_congr_left fun _ hmem => registry.get?_of_mem hmem
  unfold ids
  rw [List.filterMap_map, ← Function.id_comp (registry.get? ∘ Record.id), ← List.filterMap_map,
    hget, List.filterMap_map]
  exact List.filterMap_some

/-- Registries with the same records are the same. -/
theorem eq_of_records {registry other : Registry} (hdeclared : registry.declared = other.declared)
    (hrecords : registry.records = other.records) : registry = other := by
  cases registry
  cases other
  cases hdeclared
  cases hrecords
  rfl

/-- A registry is settled by its identifiers and the record of each. -/
theorem eq_of_get? {registry other : Registry} (hdeclared : registry.declared = other.declared)
    (hids : registry.ids = other.ids) (hget : ∀ id, registry.get? id = other.get? id) :
    registry = other := by
  refine eq_of_records hdeclared ?_
  rw [← registry.filterMap_get?, ← other.filterMap_get?, hids, funext hget]

/-- No module has an empty identifier. -/
theorem ne_empty_of_mem_ids {id : CodeText} (h : id ∈ registry.ids) : id ≠ "" := by
  obtain ⟨record, hmem, rfl⟩ := List.mem_map.mp h
  exact registry.named record hmem

/-- A registry contains the modules whose identifiers it has. -/
theorem contains_iff {id : CodeText} : registry.contains id = true ↔ id ∈ registry.ids := by
  unfold contains
  rw [List.contains_iff_mem]

/-- Changing all records keeps the identifiers, whatever the change does to them. -/
@[simp] theorem ids_transform (change : Record → Record) :
    (registry.transform change).ids = registry.ids := by
  unfold ids transform
  rw [List.map_map]
  rfl

/-- So does changing one record. -/
@[simp] theorem ids_update (id : CodeText) (change : Record → Record) :
    (registry.update id change).ids = registry.ids :=
  registry.ids_transform _

/-- A change of all records changes the record of each identifier. -/
theorem get?_transform {change : Record → Record} (keeps : ∀ record, (change record).id = record.id)
    (id : CodeText) : (registry.transform change).get? id = (registry.get? id).map change := by
  have hsame : (fun record : Record => { change record with id := record.id }) = change :=
    funext fun record => by rw [← keeps record]
  simp only [get?, transform, hsame, List.find?_map, Function.comp_def, keeps]

/-- A change of one record, seen from all records. -/
theorem records_update {change : Record → Record}
    (keeps : ∀ record, (change record).id = record.id) (id : CodeText) :
    (registry.update id change).records
      = registry.records.map fun record => if record.id = id then change record else record := by
  refine List.map_congr_left fun record _ => ?_
  show { (if record.id = id then change record else record) with id := record.id } = _
  split
  · rw [← keeps record]
  · rfl

/-- A change of one record leaves the others alone. -/
theorem get?_update {change : Record → Record} (keeps : ∀ record, (change record).id = record.id)
    (id k : CodeText) :
    (registry.update id change).get? k
      = if k = id then (registry.get? k).map change else registry.get? k := by
  unfold update
  rw [get?_transform _ fun record => by split <;> simp [keeps]]
  -- The record is asked for its own identifier, which is the one that it was found by.
  cases h : registry.get? k with
  | none => simp
  | some record =>
    obtain ⟨-, rfl⟩ := registry.get?_eq_some_iff.mp h
    simp only [Option.map_some]
    split <;> rfl

section

variable {α : Type} (change : Record → Record × α)

/-- A change that also gives something back changes the records one by one. -/
theorem records_transformWith :
    (registry.transformWith change).1.records
      = registry.records.map fun record => { (change record).1 with id := record.id } := by
  show (registry.records.map _).map Prod.fst = _
  rw [List.map_map]
  rfl

/-- What it gives back comes in the order of the records. -/
theorem snd_transformWith :
    (registry.transformWith change).2 = registry.records.map fun record => (change record).2 := by
  show (registry.records.map _).map Prod.snd = _
  rw [List.map_map]
  rfl

end

/-- A record that is added is found under its identifier; it hides no other. -/
theorem get?_append (record : Record) (fresh : record.id ∉ registry.ids)
    (nonempty : record.id ≠ "") (k : CodeText) :
    (registry.append record fresh nonempty).get? k
      = if k = record.id then some record else registry.get? k := by
  unfold get? append
  rw [List.find?_append]
  -- The identifier is new, so the search comes to the end of the records that were there.
  by_cases hk : k = record.id
  · have hnone := registry.get?_eq_none_iff.mpr fresh
    unfold get? at hnone
    rw [if_pos hk, hk, hnone, Option.none_or]
    simp
  · rw [if_neg hk, List.find?_singleton, if_neg (by simpa using Ne.symm hk), Option.or_none]

/-- After a contribution, the record of its identifier, opened if need be, has taken it in, and
the others are as before. -/
theorem get?_ensure (c : Contribution) (k : CodeText) :
    (registry.ensure c).get? k
      = if c.id ≠ "" ∧ k = c.id then
          some (((registry.get? k).getD (Record.opened c registry.declared)).absorb c)
        else registry.get? k := by
  have keeps : ∀ record : Record, (record.absorb c).id = record.id := fun record => by
    rw [Record.absorb_eq]
  unfold ensure
  by_cases hid : c.id = ""
  · rw [dif_pos hid, if_neg fun h => h.1 hid]
  · rw [dif_neg hid]
    simp only
    rw [get?_update _ keeps]
    by_cases hk : k = c.id
    · rw [if_pos hk, if_pos ⟨hid, hk⟩, hk]
      -- The identifier may be known already, or its record is opened first.
      split
      · next known =>
        obtain ⟨record, hrecord⟩ := registry.mem_ids_iff.mp known
        rw [hrecord]
        rfl
      · next fresh =>
        rw [registry.get?_eq_none_iff.mpr fresh]
        have hopened :=
          (registry.get?_append (Record.opened c registry.declared) fresh hid c.id).trans
            (if_pos rfl)
        exact congrArg (Option.map _) hopened
    · rw [if_neg hk, if_neg fun h => hk h.2]
      split
      · rfl
      · next fresh => exact (registry.get?_append _ fresh hid k).trans (if_neg hk)

/-- A contribution registers its identifier at the end, unless it is empty or known. -/
theorem ids_ensure (c : Contribution) :
    (registry.ensure c).ids
      = if c.id = "" ∨ c.id ∈ registry.ids then registry.ids else registry.ids ++ [c.id] := by
  unfold ensure
  by_cases hid : c.id = ""
  · rw [dif_pos hid, if_pos (Or.inl hid)]
  · rw [dif_neg hid]
    simp only [ids_update]
    split
    · next known => rw [if_pos (Or.inr known)]
    · next fresh =>
      rw [if_neg (not_or.mpr ⟨hid, fresh⟩)]
      exact List.map_append

/-- Contributions leave a module alone whose identifier none of them has. -/
theorem get?_ensureAll_of_ne {registry : Registry} {contributions : List Contribution}
    {id : CodeText} (h : ∀ c ∈ contributions, c.id ≠ id) :
    (registry.ensureAll contributions).get? id = registry.get? id := by
  induction contributions generalizing registry with
  | nil => rfl
  | cons c rest ih =>
    show ((registry.ensure c).ensureAll rest).get? id = _
    rw [ih fun other hother => h other (List.mem_cons_of_mem _ hother), get?_ensure,
      if_neg fun hsame => h c List.mem_cons_self hsame.2.symm]

/-- Contributions never change the name and the kind of a known module. -/
theorem exists_get?_ensureAll {registry : Registry} (contributions : List Contribution)
    {id : CodeText} {record : Record} (h : registry.get? id = some record) :
    ∃ later, (registry.ensureAll contributions).get? id = some later ∧
      later.name = record.name ∧ later.kind = record.kind := by
  induction contributions generalizing registry record with
  | nil => exact ⟨record, h, rfl, rfl⟩
  | cons c rest ih =>
    have hensure := registry.get?_ensure c id
    rw [h, Option.getD_some, Record.absorb_eq] at hensure
    split at hensure
    · obtain ⟨later, hlater, hname, hkind⟩ := ih hensure
      exact ⟨later, hlater, hname, hkind⟩
    · exact ih hensure

/-- The first contribution for an identifier settles the name and the kind of its module. -/
theorem exists_get?_of_first {registry : Registry} {before after : List Contribution}
    {c : Contribution} (hid : c.id ≠ "") (hnone : registry.get? c.id = none)
    (hfirst : ∀ other ∈ before, other.id ≠ c.id) :
    ∃ record, (registry.ensureAll (before ++ c :: after)).get? c.id = some record ∧
      record.name = (if c.name = "" then c.id else c.name) ∧
      record.kind = if c.kind = "" then ("code" : CodeText) else c.kind := by
  have hopened := (registry.ensureAll before).get?_ensure c c.id
  rw [if_pos ⟨hid, rfl⟩, get?_ensureAll_of_ne hfirst, hnone, Option.getD_none, Record.absorb_eq]
    at hopened
  obtain ⟨record, hrecord, hname, hkind⟩ := exists_get?_ensureAll after hopened
  refine ⟨record, ?_, hname, hkind⟩
  show (List.foldl ensure registry (before ++ c :: after)).get? c.id = _
  -- Before the first contribution nothing is registered for the module, and after it name and kind
  -- stay.
  rw [List.foldl_append]
  exact hrecord

/-- After a manual module, the record of its identifier has taken in its contribution and then
what only a manual module brings. -/
theorem get?_mergeOne (m : ManualModule) (k : CodeText) :
    (registry.mergeOne m).get? k
      = if m.id ≠ "" ∧ k = m.id then
          some ((((registry.get? k).getD (Record.opened m.contribution registry.declared)).absorb
            m.contribution).merge m)
        else registry.get? k := by
  have keeps : ∀ record : Record, (record.merge m).id = record.id := fun record => by
    rw [Record.merge_eq]
  have hensure := registry.get?_ensure m.contribution k
  change _ = if m.id ≠ "" ∧ k = m.id then _ else _ at hensure
  unfold mergeOne
  rw [get?_update _ keeps, hensure]
  by_cases hk : k = m.id
  · by_cases hid : m.id = ""
    · -- Nothing is registered under the empty identifier.
      have hnone : registry.get? k = none :=
        registry.get?_eq_none_iff.mpr fun h => registry.ne_empty_of_mem_ids h (hk.trans hid)
      rw [if_pos hk, if_neg fun h => h.1 hid, if_neg fun h => h.1 hid, hnone]
      rfl
    · rw [if_pos hk, if_pos ⟨hid, hk⟩, if_pos ⟨hid, hk⟩]
      rfl
  · rw [if_neg hk, if_neg fun h => hk h.2, if_neg fun h => hk h.2]

/-- A manual module registers its identifier as its contribution does. -/
theorem ids_mergeOne (m : ManualModule) :
    (registry.mergeOne m).ids
      = if m.id = "" ∨ m.id ∈ registry.ids then registry.ids else registry.ids ++ [m.id] := by
  unfold mergeOne
  rw [ids_update]
  exact registry.ids_ensure m.contribution

/-- A link between different registered modules adds to the record of its source only. -/
theorem records_applyLink {link : Link} (h : link.source ≠ link.target ∧
    registry.contains link.source = true ∧ registry.contains link.target = true) :
    (registry.applyLink link).records = registry.records.map fun record =>
      if record.id = link.source then record.addDependency link.target else record := by
  have keeps : ∀ record : Record, (record.addDependency link.target).id = record.id := fun _ => rfl
  rw [applyLink, if_pos h, registry.records_update keeps]

/-- After a link, the record of its source has its target as a dependency if the link is valid, and
all else is as before. -/
theorem get?_applyLink (link : Link) (k : CodeText) :
    (registry.applyLink link).get? k
      = if k = link.source ∧ link.source ≠ link.target ∧ link.target ∈ registry.ids then
          (registry.get? k).map (·.addDependency link.target)
        else registry.get? k := by
  unfold applyLink
  simp only [contains_iff]
  split
  · next h =>
    have keeps : ∀ record : Record, (record.addDependency link.target).id = record.id :=
      fun _ => rfl
    rw [get?_update registry keeps]
    by_cases hk : k = link.source
    · rw [if_pos hk, if_pos ⟨hk, h.1, h.2.2⟩]
    · rw [if_neg hk, if_neg fun h => hk h.1]
  · next h =>
    split
    · next h' =>
      -- The only way for the link to be refused is that its source is not registered.
      have hsource : registry.get? k = none := registry.get?_eq_none_iff.mpr fun hmem =>
        h ⟨h'.2.1, h'.1 ▸ hmem, h'.2.2⟩
      rw [hsource]
      rfl
    · rfl

/-- A link registers nothing. -/
@[simp] theorem ids_applyLink (link : Link) : (registry.applyLink link).ids = registry.ids := by
  unfold applyLink
  split
  · exact registry.ids_update _ _
  · rfl

end Registry

end RepoAtlas.Module
