import RepoAtlas.Proofs.Module.Contributions
import RepoAtlas.Proofs.Module.Counters

/-!
# `RepoAtlas.Proofs.Module.Merging`: manual modules merged into a registry

Several manual modules may share an identifier, and disagree. They are taken in one after the other,
and a record is opened on the way where none is. For each identifier this comes to one step
(`Record.mergedWith`): sets take in all that is given, a counter takes the value that it is given
last, and the name and the kind stay.

* `get?_mergeManual`: the record of an identifier after all manual modules.
* `mergedWith_mergedWith`: the step changes nothing the second time.
* `mergeManual_idempotent_conservative`: what this says of registries.
-/

set_option autoImplicit false

namespace RepoAtlas.Module

/-! ### Records -/

/-- The counters that a series of manual modules gives, each as given last. -/
def lastCounters (given : List ManualModule) : Metrics (Option Int) where
  files := (given.filterMap (·.metrics.files)).getLast?
  lines := (given.filterMap (·.metrics.lines)).getLast?
  debt := (given.filterMap (·.metrics.debt)).getLast?
  tests := (given.filterMap (·.metrics.tests)).getLast?

/-- Each counter is the last one given. -/
theorem get_lastCounters (given : List ManualModule) (counter : Counter) :
    (lastCounters given).get counter
      = (given.filterMap (·.metrics.get counter)).getLast? := by
  cases counter <;> rfl

/-- Metrics are equal if all counters are. -/
theorem Metrics.ext_get {α : Type} {metrics other : Metrics α}
    (h : ∀ counter, metrics.get counter = other.get counter) : metrics = other := by
  cases metrics
  cases other
  rw [Metrics.mk.injEq]
  exact ⟨h .files, h .lines, h .debt, h .tests⟩

namespace Record

/-- What a record becomes when manual modules are merged into it, all at once. -/
def mergedWith (record : Record) (given : List ManualModule) : Record :=
  { record with
    roots := record.roots.insertMany (given.flatMap fun m => m.roots.map Path.normalize)
    hints := record.hints.insertMany (given.flatMap fun m => m.roots.map Path.normalize)
    dependencies := record.dependencies.insertMany (given.flatMap ManualModule.dependencies)
    packages := record.packages.insertMany (given.flatMap ManualModule.packages)
    frameworks := record.frameworks.insertMany (given.flatMap ManualModule.frameworks)
    metrics := (lastCounters given).override record.metrics
    source := if given.isEmpty then record.source else "manual"
    manual := record.manual || !given.isEmpty }

/-- A record that nothing is merged into stays as it is. -/
theorem mergedWith_nil (record : Record) : record.mergedWith [] = record := by
  simp only [mergedWith, List.flatMap_nil, OrderedSet.insertMany, List.foldl_nil]
  simp [lastCounters, Metrics.override]

/-- The first manual module may be taken in by itself. -/
theorem mergedWith_cons (record : Record) (m : ManualModule) (rest : List ManualModule) :
    record.mergedWith (m :: rest)
      = ((record.absorb m.contribution).merge m).mergedWith rest := by
  -- The last counter given is one of the rest, or this one if the rest gives none.
  have hmetrics : (lastCounters (m :: rest)).override record.metrics
      = (lastCounters rest).override (m.metrics.override record.metrics) := by
    refine Metrics.ext_get fun counter => ?_
    rw [Metrics.get_override, Metrics.get_override, Metrics.get_override, get_lastCounters,
      get_lastCounters]
    cases hget : m.metrics.get counter with
    | none => simp [hget]
    | some value => simp [hget, List.getLast?_cons]
  rw [absorb_eq, merge_eq]
  simp only [mergedWith, hmetrics, List.flatMap_cons, OrderedSet.insertMany_append,
    ManualModule.contribution]
  simp

/-- Merging the same manual modules once more changes nothing. -/
theorem mergedWith_mergedWith (record : Record) (given : List ManualModule) :
    (record.mergedWith given).mergedWith given = record.mergedWith given := by
  have hmetrics : (lastCounters given).override ((lastCounters given).override record.metrics)
      = (lastCounters given).override record.metrics := by
    refine Metrics.ext_get fun counter => ?_
    simp only [Metrics.get_override]
    cases (lastCounters given).get counter <;> rfl
  simp only [mergedWith, OrderedSet.insertMany_insertMany, hmetrics]
  cases given <;> simp

end Record

/-- What manual modules keep of a record that they are merged into. -/
structure Record.KeptIn (before after : Record) : Prop where
  id : after.id = before.id
  name : after.name = before.name
  kind : after.kind = before.kind
  roots : before.roots.toList <+: after.roots.toList
  hints : before.hints.toList <+: after.hints.toList
  dependencies : before.dependencies.toList <+: after.dependencies.toList
  packages : before.packages.toList <+: after.packages.toList
  frameworks : before.frameworks.toList <+: after.frameworks.toList

/-- What is merged into a record is added behind what it has. -/
theorem Record.keptIn_mergedWith (record : Record) (given : List ManualModule) :
    record.KeptIn (record.mergedWith given) where
  id := rfl
  name := rfl
  kind := rfl
  roots := record.roots.prefix_insertMany _
  hints := record.hints.prefix_insertMany _
  dependencies := record.dependencies.prefix_insertMany _
  packages := record.packages.prefix_insertMany _
  frameworks := record.frameworks.prefix_insertMany _

/-! ### Registries -/

namespace Registry

variable (registry : Registry) (modules : List ManualModule)

/-- No record has the empty id. -/
theorem get?_empty_id : registry.get? "" = none :=
  registry.get?_eq_none_iff.mpr fun hmem => registry.ne_empty_of_mem_ids hmem rfl

/-- Merging a module leaves the declared frameworks. -/
theorem declared_mergeOne (m : ManualModule) :
    (registry.mergeOne m).declared = registry.declared :=
  registry.declared_ensure m.contribution

/-- So does merging many. -/
theorem declared_mergeManual : (registry.mergeManual modules).declared = registry.declared := by
  induction modules generalizing registry with
  | nil => rfl
  | cons m rest ih => exact (ih (registry.mergeOne m)).trans (registry.declared_mergeOne m)

/-- The record into which manual modules for an identifier are merged: the one that is there, or one
that the first of them opens. -/
def mergeBase (id : CodeText) : Option Record :=
  (registry.get? id).or
    ((modules.find? (·.id = id)).map fun m => .opened m.contribution registry.declared)

/-- Manual modules are merged into a record all at once, those with its identifier. -/
theorem get?_mergeManual {id : CodeText} (hid : id ≠ "") :
    (registry.mergeManual modules).get? id
      = (registry.mergeBase modules id).map (·.mergedWith (modules.filter (·.id = id))) := by
  induction modules generalizing registry with
  | nil =>
    unfold mergeBase mergeManual
    simp [Record.mergedWith_nil]
  | cons m rest ih =>
    show ((registry.mergeOne m).mergeManual rest).get? id = _
    rw [ih]
    unfold mergeBase
    rw [get?_mergeOne, declared_mergeOne]
    by_cases hsame : m.id = id
    · rw [if_pos ⟨hsame ▸ hid, hsame.symm⟩, List.find?_cons_of_pos (by simpa using hsame),
        List.filter_cons_of_pos (by simpa using hsame), Option.some_or, Option.map_some]
      -- The record was there, or this manual module has just opened it.
      cases registry.get? id <;> exact congrArg some (Record.mergedWith_cons _ _ _).symm
    · rw [if_neg fun h => hsame h.2.symm, List.find?_cons_of_neg (by simpa using hsame),
        List.filter_cons_of_neg (by simpa using hsame)]

/-- What was merged is what would be merged into. -/
theorem mergeBase_mergeManual {id : CodeText} (hid : id ≠ "") :
    (registry.mergeManual modules).mergeBase modules id
      = (registry.mergeManual modules).get? id := by
  have hget := registry.get?_mergeManual modules hid
  unfold mergeBase at *
  rw [declared_mergeManual]
  cases hmerged : (registry.mergeManual modules).get? id with
  | some record => rfl
  | none =>
    -- No record was merged into, so no manual module has opened one.
    rw [hmerged, eq_comm, Option.map_eq_none_iff, Option.or_eq_none_iff] at hget
    rw [Option.none_or]
    exact hget.2

/-- Merging the same modules a second time changes nothing. -/
theorem mergeManual_mergeManual :
    (registry.mergeManual modules).mergeManual modules = registry.mergeManual modules := by
  refine eq_of_get? (declared_mergeManual _ _) ?_ fun id => ?_
  · have hids : ((registry.mergeManual modules).mergeManual modules).idSet
        = (registry.mergeManual modules).idSet := by
      rw [idSet_mergeManual, idSet_mergeManual, OrderedSet.insertMany_insertMany]
    exact congrArg OrderedSet.toList hids
  · by_cases hid : id = ""
    · rw [hid, get?_empty_id, get?_empty_id]
    · rw [get?_mergeManual _ _ hid, mergeBase_mergeManual _ _ hid, get?_mergeManual _ _ hid,
        Option.map_map]
      exact congrArg (Option.map · _) (funext fun record => record.mergedWith_mergedWith _)

/-- New ids come behind those that are there. -/
theorem ids_prefix_mergeManual : registry.ids <+: (registry.mergeManual modules).ids := by
  have hprefix := registry.idSet.prefix_insertMany
    ((modules.map ManualModule.id).filter (· ≠ ""))
  rw [← idSet_mergeManual] at hprefix
  exact hprefix

/-- A record stays registered under its identifier, and keeps what it says. -/
theorem exists_get?_mergeManual {id : CodeText} {before : Record}
    (h : registry.get? id = some before) :
    ∃ after, (registry.mergeManual modules).get? id = some after ∧ before.KeptIn after := by
  have hid : id ≠ "" := registry.ne_empty_of_mem_ids (registry.mem_ids_iff.mpr ⟨before, h⟩)
  have hbase : registry.mergeBase modules id = some before := by
    rw [mergeBase, h, Option.some_or]
  have hafter := registry.get?_mergeManual modules hid
  rw [hbase, Option.map_some] at hafter
  exact ⟨_, hafter, before.keptIn_mergedWith _⟩

/-- A record that no manual module names stays as it is, and none is opened. -/
theorem get?_mergeManual_of_not_mem {id : CodeText} (h : id ∉ modules.map ManualModule.id) :
    (registry.mergeManual modules).get? id = registry.get? id := by
  have hnone : ∀ m ∈ modules, ¬m.id = id := fun m hm heq => h (heq ▸ List.mem_map_of_mem hm)
  by_cases hid : id = ""
  · rw [hid, get?_empty_id, get?_empty_id]
  · have hfind : modules.find? (·.id = id) = none :=
      List.find?_eq_none.mpr fun m hm => by simpa using hnone m hm
    have hfilter : modules.filter (·.id = id) = [] :=
      List.filter_eq_nil_iff.mpr fun m hm => by simpa using hnone m hm
    rw [get?_mergeManual _ _ hid, mergeBase, hfind, hfilter, Option.map_none, Option.or_none]
    simp only [Record.mergedWith_nil, Option.map_id']

/-- Manual modules may be merged any number of times. Identifiers stay in place, records keep their
names, kinds and sets, with what is new at the end, and a counter is what a manual module with the
identifier gives it last, or else what it was. Other records are left alone. -/
theorem mergeManual_idempotent_conservative (registry : Registry) (modules : List ManualModule) :
    let merged := registry.mergeManual modules
    merged.mergeManual modules = merged ∧
      registry.ids <+: merged.ids ∧
      (∀ id before, registry.get? id = some before →
        ∃ after, merged.get? id = some after ∧ before.KeptIn after) ∧
      (∀ id after, merged.get? id = some after → ∀ counter,
        after.metrics.get counter
          = (lastGiven modules id counter).getD ((registry.metricsOf id).get counter)) ∧
      ∀ id, id ∉ modules.map ManualModule.id → merged.get? id = registry.get? id := by
  intro merged
  refine ⟨registry.mergeManual_mergeManual modules, registry.ids_prefix_mergeManual modules,
    fun id before => registry.exists_get?_mergeManual modules, fun id after hafter counter => ?_,
    fun id => registry.get?_mergeManual_of_not_mem modules⟩
  have hid : id ≠ "" := merged.ne_empty_of_mem_ids (merged.mem_ids_iff.mpr ⟨after, hafter⟩)
  rw [← registry.get_metricsOf_mergeManual modules hid, metricsOf, hafter]
  rfl

/-- Manual modules of which two have the same identifier and disagree. -/
def disagreeingModules : List ManualModule :=
  [{ id := "web", name := "Shop", kind := "docs", roots := ["/r/shop", "/r/web"],
     dependencies := ["core", "web"], metrics := ⟨some 7, some 2, none, none⟩ },
   { id := "new", name := "", metrics := ⟨none, none, some 0, none⟩ },
   { id := "web", name := "Front", frameworks := ["vue", "react"],
     metrics := ⟨some 3, none, none, none⟩ }]

/-- The last number of files counts, and the number of lines that only the first of them gives. -/
theorem mergeManual_disagreeingModules :
    let registry := (empty ["react"]).replay
      [.ensure { id := "web", name := "Web", kind := "frontend", roots := ["/r/web"] },
        .ensure { id := "core", roots := ["/r/core"] }]
    let merged := registry.mergeManual disagreeingModules
    merged.mergeManual disagreeingModules = merged ∧
      merged.get? "core" = registry.get? "core" ∧
      ∃ before after, registry.get? "web" = some before ∧ merged.get? "web" = some after ∧
        before.KeptIn after ∧ after.metrics.get .files = 3 ∧ after.metrics.get .lines = 2 ∧
        after.metrics.get .tests = 0 := by
  intro registry merged
  obtain ⟨htwice, -, hkept, hmetrics, hothers⟩ :=
    mergeManual_idempotent_conservative registry disagreeingModules
  have hknown : (registry.get? "web").isSome = true := by decide +kernel
  obtain ⟨before, hbefore⟩ := Option.isSome_iff_exists.mp hknown
  obtain ⟨after, hafter, hkeeps⟩ := hkept "web" before hbefore
  have hcounters := hmetrics "web" after hafter
  exact ⟨htwice, hothers "core" (by decide), before, after, hbefore, hafter, hkeeps,
    (hcounters .files).trans (by decide +kernel), (hcounters .lines).trans (by decide +kernel),
    (hcounters .tests).trans (by decide +kernel)⟩

end Registry

end RepoAtlas.Module
