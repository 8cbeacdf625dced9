import RepoAtlas.Proofs.Arrival
import RepoAtlas.Proofs.Module.Registry
import RepoAtlas.Proofs.Path.Normal
import RepoAtlas.Survey.Walk

/-!
# `RepoAtlas.Proofs.Module.History`: registries as the outcome of their history

A registry starts empty and changes by operations (`Operation`): contributions, manual modules,
links, and what a walk finds in files. `Registry.replay` folds a whole history of them. Whatever
the history, two things hold:

* `idSet_replay`: the identifiers are the distinct ones that the history names, empty ones left
  out, in order of first appearance.
* `sound_replay`: every record is sound (`Record.Sound`). Its roots are in normal form, they are
  also its hints, and its counters are never negative unless a user overrode them.

The second is proved record by record: a new record is sound, and each change of a record keeps
it sound.
-/

set_option autoImplicit false

namespace RepoAtlas.Module

open RepoAtlas.Survey (FileReport addReport)

/-- One thing that happens to a registry. Identifiers and targets may be empty, unknown or the
same. -/
inductive Operation where
  /-- A module is contributed. -/
  | ensure (c : Contribution)
  /-- Users add modules. -/
  | mergeManual (modules : List ManualModule)
  /-- Users add links. -/
  | applyLinks (links : List Link)
  /-- A dependency is found for a module. -/
  | addDependency (id target : CodeText)
  /-- An external package is found for a module. -/
  | addPackage (id name : CodeText)
  /-- A whole file of a module is read. -/
  | readFile (id : CodeText) (file : FileReport)

/-- The registry after an operation. -/
def Operation.apply (registry : Registry) : Operation → Registry
  | .ensure c => registry.ensure c
  | .mergeManual modules => registry.mergeManual modules
  | .applyLinks links => registry.applyLinks links
  | .addDependency id target => registry.update id (·.addDependency target)
  | .addPackage id name => registry.update id (·.addPackage name)
  | .readFile id file => registry.update id (addReport · file)

/-- The identifiers that an operation names for registration. -/
def Operation.names : Operation → List CodeText
  | .ensure c => [c.id]
  | .mergeManual modules => modules.map ManualModule.id
  | _ => []

/-- The registry after a history of operations. -/
def Registry.replay (registry : Registry) (history : List Operation) : Registry :=
  history.foldl Operation.apply registry

/-- The identifiers that a history registers: those it names, empty ones left out. -/
def registeredBy (history : List Operation) : List CodeText :=
  (history.flatMap Operation.names).filter (· ≠ "")

/-! ### Identifiers -/

namespace Registry

/-- The identifiers of a registry as a set. -/
def idSet (registry : Registry) : OrderedSet CodeText :=
  ⟨registry.ids, registry.distinct⟩

/-- Registering one identifier at the end inserts it, unless it is empty. -/
theorem idSet_of_ids_eq {registry after : Registry} {id : CodeText}
    (h : after.ids = if id = "" ∨ id ∈ registry.ids then registry.ids else registry.ids ++ [id]) :
    after.idSet = registry.idSet.insertMany ([id].filter (· ≠ "")) := by
  refine OrderedSet.ext_toList ?_
  show after.ids = _
  rw [h]
  by_cases hid : id = ""
  · rw [if_pos (Or.inl hid), hid]
    rfl
  · rw [List.filter_cons_of_pos (by simpa using hid)]
    show _ = (registry.idSet.insert id).toList
    rw [OrderedSet.toList_insert]
    exact if_congr (or_iff_right hid) rfl rfl

/-- Manual modules register their identifiers, empty ones apart, one after the other. -/
theorem idSet_mergeManual (registry : Registry) (modules : List ManualModule) :
    (registry.mergeManual modules).idSet
      = registry.idSet.insertMany ((modules.map ManualModule.id).filter (· ≠ "")) := by
  induction modules generalizing registry with
  | nil => rfl
  | cons m rest ih =>
    show ((registry.mergeOne m).mergeManual rest).idSet = _
    rw [ih, idSet_of_ids_eq (registry.ids_mergeOne m), ← OrderedSet.insertMany_append,
      ← List.filter_append]
    rfl

/-- Links register nothing. -/
theorem ids_applyLinks (registry : Registry) (links : List Link) :
    (registry.applyLinks links).ids = registry.ids := by
  induction links generalizing registry with
  | nil => rfl
  | cons link rest ih => exact (ih _).trans (registry.ids_applyLink link)

/-- An operation inserts the identifiers it names. -/
theorem idSet_apply (registry : Registry) (operation : Operation) :
    (operation.apply registry).idSet
      = registry.idSet.insertMany (operation.names.filter (· ≠ "")) := by
  have hsame : ∀ {after : Registry}, after.ids = registry.ids →
      after.idSet = registry.idSet.insertMany [] := fun h => OrderedSet.ext_toList h
  cases operation with
  | ensure c => exact idSet_of_ids_eq (registry.ids_ensure c)
  | mergeManual modules => exact registry.idSet_mergeManual modules
  | applyLinks links => exact hsame (registry.ids_applyLinks links)
  | addDependency id target => exact hsame (registry.ids_update _ _)
  | addPackage id name => exact hsame (registry.ids_update _ _)
  | readFile id file => exact hsame (registry.ids_update _ _)

/-- A history registers what its operations name, after what was registered before. By induction on
the history. -/
theorem idSet_replay_from (registry : Registry) (history : List Operation) :
    (registry.replay history).idSet = registry.idSet.insertMany (registeredBy history) := by
  induction history generalizing registry with
  | nil => rfl
  | cons operation rest ih =>
    show ((operation.apply registry).replay rest).idSet = _
    rw [ih, idSet_apply, ← OrderedSet.insertMany_append, registeredBy, ← List.filter_append]
    rfl

/-- The identifiers after a history are those that it registers, in order of first appearance. -/
theorem idSet_replay (declared : List CodeText) (history : List Operation) :
    ((empty declared).replay history).idSet = .ofList (registeredBy history) :=
  idSet_replay_from (empty declared) history

end Registry

/-! ### Soundness of records -/

/-- What every record has, whatever its history. -/
structure Record.Sound (record : Record) : Prop where
  /-- A record is shown by its roots. -/
  hints_eq : record.hints = record.roots
  normal : ∀ root ∈ record.roots, Path.IsNormal root
  /-- Only users can set a counter below zero. -/
  counted : record.manual = false →
    0 ≤ record.metrics.files ∧ 0 ≤ record.metrics.lines ∧ 0 ≤ record.metrics.debt ∧
      0 ≤ record.metrics.tests

namespace Record

/-- A record that is just opened is sound: it has no paths, and nothing is counted. -/
theorem sound_opened (c : Contribution) (declared : List CodeText) :
    (Record.opened c declared).Sound where
  hints_eq := rfl
  normal _ h := absurd h List.not_mem_nil
  counted _ := ⟨Int.le_refl 0, Int.le_refl 0, Int.le_refl 0, Int.le_refl 0⟩

/-- Roots are put into normal form as they are taken in, and they are hints as well. -/
theorem Sound.absorb {record : Record} (h : record.Sound) (c : Contribution) :
    (record.absorb c).Sound := by
  rw [absorb_eq]
  refine ⟨by simp only [h.hints_eq], fun root hroot => ?_, fun hmanual => ?_⟩
  · rcases OrderedSet.mem_insertMany.mp hroot with hold | hnew
    · exact h.normal root hold
    · obtain ⟨path, -, rfl⟩ := List.mem_map.mp hnew
      exact Path.normalize_normalize path
  · exact h.counted (Bool.or_eq_false_iff.mp hmanual).1

/-- Manual counters may be anything, but they are only given to records that are manual. -/
theorem Sound.merge {record : Record} (h : record.Sound) (manual : record.manual = true)
    (m : ManualModule) : (record.merge m).Sound := by
  rw [merge_eq]
  exact ⟨h.hints_eq, h.normal, fun hnot => absurd (manual.symm.trans hnot) (by decide)⟩

/-- Dependencies are no matter of soundness. -/
theorem Sound.addDependency {record : Record} (h : record.Sound) (id : CodeText) :
    (record.addDependency id).Sound :=
  ⟨h.hints_eq, h.normal, h.counted⟩

/-- Neither are packages. -/
theorem Sound.addPackage {record : Record} (h : record.Sound) (name : CodeText) :
    (record.addPackage name).Sound :=
  ⟨h.hints_eq, h.normal, h.counted⟩

/-- What a record gains from a file. -/
theorem addReport_eq (record : Record) (file : FileReport) :
    addReport record file
      = { record with
          metrics := {
            files := record.metrics.files + 1
            lines := record.metrics.lines + file.lines
            debt := record.metrics.debt + file.debt
            tests := record.metrics.tests + if file.isTest then 1 else 0 }
          dependencies := record.dependencies.insertMany file.targets
          packages := record.packages.insertMany file.packages } := by
  simp only [addReport, foldl_addDependency, foldl_addPackage]

/-- A file that is read raises the counters, so those that were not negative stay so. -/
theorem Sound.addReport {record : Record} (h : record.Sound) (file : FileReport) :
    (addReport record file).Sound := by
  rw [addReport_eq]
  refine ⟨h.hints_eq, h.normal, fun hmanual => ?_⟩
  obtain ⟨hfiles, hlines, hdebt, htests⟩ := h.counted hmanual
  refine ⟨?_, ?_, ?_, ?_⟩
  · show 0 ≤ record.metrics.files + 1
    omega
  · show 0 ≤ record.metrics.lines + (file.lines : Int)
    omega
  · show 0 ≤ record.metrics.debt + (file.debt : Int)
    omega
  · show 0 ≤ record.metrics.tests + if file.isTest then 1 else 0
    split <;> omega

end Record

namespace Registry

/-- A registry whose records are all sound. -/
def Sound (registry : Registry) : Prop :=
  ∀ id record, registry.get? id = some record → record.Sound

/-- Without records there is nothing to be sound. -/
theorem sound_empty (declared : List CodeText) : (empty declared).Sound :=
  fun _ _ h => nomatch h

/-- Every record of a sound registry is sound. -/
theorem Sound.of_mem {registry : Registry} (h : registry.Sound) {record : Record}
    (hmem : record ∈ registry.records) : record.Sound :=
  h _ _ (registry.get?_of_mem hmem)

/-- The record that a contribution finds or opens is sound. -/
theorem Sound.getD_opened {registry : Registry} (h : registry.Sound) (id : CodeText)
    (c : Contribution) :
    ((registry.get? id).getD (Record.opened c registry.declared)).Sound := by
  cases hget : registry.get? id with
  | none => exact Record.sound_opened c registry.declared
  | some record => exact h id record hget

/-- A contribution opens a sound record or adds to one. -/
theorem Sound.ensure {registry : Registry} (h : registry.Sound) (c : Contribution) :
    (registry.ensure c).Sound := by
  intro id record hget
  rw [get?_ensure] at hget
  split at hget
  · cases hget
    exact (h.getD_opened id c).absorb c
  · exact h id record hget

/-- So do contributions one after the other. -/
theorem Sound.ensureAll {registry : Registry} (h : registry.Sound)
    (contributions : List Contribution) : (registry.ensureAll contributions).Sound := by
  induction contributions generalizing registry with
  | nil => exact h
  | cons c rest ih => exact ih (h.ensure c)

/-- A manual module may set counters below zero, but then the record is marked as manual. -/
theorem Sound.mergeOne {registry : Registry} (h : registry.Sound) (m : ManualModule) :
    (registry.mergeOne m).Sound := by
  intro id record hget
  rw [get?_mergeOne] at hget
  split at hget
  · cases hget
    refine ((h.getD_opened id m.contribution).absorb m.contribution).merge ?_ m
    rw [Record.absorb_eq]
    exact Bool.or_true _
  · exact h id record hget

/-- A change that keeps a record sound keeps the registry sound. -/
theorem Sound.update {registry : Registry} (h : registry.Sound) (change : Record → Record)
    (keeps : ∀ record, (change record).id = record.id)
    (sound : ∀ record : Record, record.Sound → (change record).Sound) (id : CodeText) :
    (registry.update id change).Sound := by
  intro k record hget
  rw [get?_update _ keeps] at hget
  split at hget
  · obtain ⟨old, hold, rfl⟩ := Option.map_eq_some_iff.mp hget
    exact sound old (h k old hold)
  · exact h k record hget

/-- A link adds a dependency to one record at most. -/
theorem Sound.applyLink {registry : Registry} (h : registry.Sound) (link : Link) :
    (registry.applyLink link).Sound := by
  unfold Registry.applyLink
  split
  · exact h.update (·.addDependency link.target) (fun _ => rfl)
      (fun _ hr => hr.addDependency link.target) link.source
  · exact h

/-- An operation keeps a registry sound. -/
theorem Sound.apply {registry : Registry} (h : registry.Sound) (operation : Operation) :
    (operation.apply registry).Sound := by
  cases operation with
  | ensure c => exact h.ensure c
  | mergeManual modules =>
    show (modules.foldl Registry.mergeOne registry).Sound
    -- Modules are merged one by one, and so are links applied.
    induction modules generalizing registry with
    | nil => exact h
    | cons m rest ih => exact ih (h.mergeOne m)
  | applyLinks links =>
    show (links.foldl Registry.applyLink registry).Sound
    induction links generalizing registry with
    | nil => exact h
    | cons link rest ih => exact ih (h.applyLink link)
  | addDependency id target =>
    exact h.update (·.addDependency target) (fun _ => rfl)
      (fun _ hr => hr.addDependency target) id
  | addPackage id name =>
    exact h.update (·.addPackage name) (fun _ => rfl)
      (fun _ hr => hr.addPackage name) id
  | readFile id file =>
    refine h.update (Survey.addReport · file) (fun record => ?_)
      (fun _ hr => hr.addReport file) id
    rw [Record.addReport_eq]

/-- Histories keep registries sound, step by step. -/
theorem Sound.replay {registry : Registry} (h : registry.Sound) (history : List Operation) :
    (registry.replay history).Sound := by
  induction history generalizing registry with
  | nil => exact h
  | cons operation rest ih => exact ih (h.apply operation)

/-- Every registry that a history can lead to is sound. -/
theorem sound_replay (declared : List CodeText) (history : List Operation) :
    ((empty declared).replay history).Sound :=
  (sound_empty declared).replay history

end Registry

end RepoAtlas.Module
