import Mathlib.Algebra.BigOperators.Group.List.Basic
import RepoAtlas.Proofs.Survey.Attribution

/-!
# `RepoAtlas.Proofs.Survey.Turns`: modules may be walked in any order

`walk` looks everything up in the registry as it was before the walk. One may also walk the modules
in turn and write whatever is found into the registry at once, so that each reference is looked up
in a registry that other references, files and modules have changed. `Walking` is such a walk. It
comes to the same, in any order: owners are found by identifiers and roots (`Registry.holdings`),
and these no walk writes.

* `walkModule_eq`: the walk of one module in place is its walk by itself, put back.
* `writesOnly_walkModule`: it changes counters, dependencies and packages of that module only.
* `hasTurned_walkModules`: modules walked in turn are walked as if each were the first.
* `walk_in_any_order`: every order leads to the same records and the same number of files.
-/

set_option autoImplicit false

namespace RepoAtlas

namespace Module

/-- The second record differs from the first one at most in what walks write. -/
def Record.IsWalked (record walked : Record) : Prop :=
  walked = { record with
    metrics := walked.metrics
    dependencies := walked.dependencies
    packages := walked.packages }

namespace Record.IsWalked

variable {record walked later : Record}

/-- Not walking writes nothing. -/
theorem refl (record : Record) : record.IsWalked record :=
  rfl

/-- Walks one after the other write no more than one does. -/
theorem trans (h : record.IsWalked walked) (h' : walked.IsWalked later) :
    record.IsWalked later := by
  unfold IsWalked at *
  rw [h', h]

/-- Walks keep the identifier of a record. -/
theorem id_eq (h : record.IsWalked walked) : walked.id = record.id := by
  rw [h]

/-- Walks keep the roots of a record. -/
theorem roots_eq (h : record.IsWalked walked) : walked.roots = record.roots := by
  rw [h]

/-- Taking in dependencies is among what walks write. -/
theorem foldl_addDependency (record : Record) (targets : List CodeText) :
    record.IsWalked (targets.foldl addDependency record) := by
  rw [Record.foldl_addDependency]
  rfl

/-- Taking in a report is among what walks write. -/
theorem addReport (record : Record) (file : Survey.FileReport) :
    record.IsWalked (Survey.addReport record file) := by
  rw [Record.addReport_eq]
  rfl

end Record.IsWalked

namespace Registry

/-! ### A record put back -/

/-- Puts a record in the place of the one with its identifier. -/
def put (registry : Registry) (record : Record) : Registry :=
  registry.update record.id fun _ => record

variable (registry : Registry)

/-- A record that is put back stands where the one with its identifier stood. -/
@[simp] theorem ids_put (record : Record) : (registry.put record).ids = registry.ids :=
  registry.ids_update _ _

/-- Putting a record back declares no package. -/
@[simp] theorem declared_put (record : Record) :
    (registry.put record).declared = registry.declared :=
  rfl

/-- All other records stay. -/
theorem records_put (record : Record) :
    (registry.put record).records
      = registry.records.map fun old => if old.id = record.id then record else old := by
  refine List.map_congr_left fun old _ => ?_
  dsimp only
  split
  · next hid => rw [hid]
  · rfl

/-- After a record is put back, its identifier leads to it if it led to a record before, and every
other identifier leads where it led. -/
theorem get?_put (record : Record) (id : CodeText) :
    (registry.put record).get? id
      = if id = record.id then (registry.get? id).map fun _ => record else registry.get? id := by
  have hid : ∀ old : Record, (if old.id = record.id then record else old).id = old.id := by
    intro old
    split
    · next hid => exact hid.symm
    · rfl
  -- Replacing records keeps their identifiers, so the search stops at the same place.
  unfold get?
  rw [records_put, List.find?_map]
  simp only [Function.comp_def, hid]
  cases hget : registry.records.find? (·.id = id) with
  | none => simp
  | some old =>
    have hold : old.id = id := by simpa using List.find?_some hget
    simp only [Option.map_some, hold]
    split <;> rfl

/-- A record in its own place changes nothing. -/
theorem put_of_get? {record : Record} (h : registry.get? record.id = some record) :
    registry.put record = registry := by
  refine eq_of_get? rfl (registry.ids_put record) fun id => ?_
  rw [get?_put]
  split
  · next hid => rw [hid, h, Option.map_some]
  · rfl

/-- A record that is put back and changed in its place may be changed first. -/
theorem update_put {record : Record} {change : Record → Record}
    (keeps : (change record).id = record.id) :
    (registry.put record).update record.id change = registry.put (change record) := by
  refine eq_of_records rfl ?_
  rw [records_put, keeps]
  show List.map _ (registry.put record).records = _
  rw [records_put, List.map_map]
  refine List.map_congr_left fun old _ => ?_
  dsimp only [Function.comp_apply]
  by_cases hid : old.id = record.id
  · simp only [hid, if_true]
    rw [← keeps]
  · simp only [hid, if_false]

/-! ### What owners are found by -/

/-- The modules and their roots, in order of registration. -/
def holdings : List (CodeText × OrderedSet String) :=
  registry.records.map fun record => (record.id, record.roots)

/-- Owners go by the holdings alone. -/
theorem map_id_findOwner (path : String) :
    (registry.findOwner path).map Record.id
      = (registry.holdings.find? fun holding =>
          holding.2.toList.any (Path.isWithin (Path.normalize path))).map Prod.fst := by
  unfold findOwner holdings
  rw [List.find?_map, Option.map_map]
  rfl

/-- A record that walks may have led to from the one that a module has. -/
def HasWalked (id : CodeText) (walked : Record) : Prop :=
  ∃ record, registry.get? id = some record ∧ record.IsWalked walked

namespace HasWalked

variable {registry} {id : CodeText} {walked later : Record}

/-- The record that a module has, before any walk. -/
theorem of_get? {record : Record} (h : registry.get? id = some record) :
    registry.HasWalked id record :=
  ⟨record, h, .refl record⟩

/-- What was walked may be walked on. -/
theorem trans (h : registry.HasWalked id walked) (h' : walked.IsWalked later) :
    registry.HasWalked id later := by
  obtain ⟨record, hget, hwalked⟩ := h
  exact ⟨record, hget, hwalked.trans h'⟩

/-- A walked record has the identifier that it was found by. -/
theorem id_eq (h : registry.HasWalked id walked) : walked.id = id := by
  obtain ⟨record, hget, hwalked⟩ := h
  exact hwalked.id_eq.trans (registry.get?_eq_some_iff.mp hget).2

/-- No walk writes to the holdings. -/
theorem holdings_put (h : registry.HasWalked id walked) :
    (registry.put walked).holdings = registry.holdings := by
  have hid := h.id_eq
  obtain ⟨record, hget, hwalked⟩ := h
  unfold holdings
  rw [records_put, List.map_map]
  refine List.map_congr_left fun old hold => ?_
  dsimp only [Function.comp_apply]
  split
  · next hsame =>
    -- The record that is replaced is the one that was walked: identifiers are distinct.
    have hold' := registry.get?_of_mem hold
    rw [hsame, hid, hget] at hold'
    rw [← Option.some.inj hold', hwalked.id_eq, hwalked.roots_eq]
  · rfl

end HasWalked

end Registry

end Module

namespace Survey

open RepoAtlas.Module

/-- To which module a path belongs for a module that is being walked depends on the holdings alone.
-/
theorem targetOf_eq_of_holdings {registry other : Registry}
    (h : other.holdings = registry.holdings) : targetOf other = targetOf registry := by
  funext id path
  unfold targetOf
  rw [Registry.map_id_findOwner, Registry.map_id_findOwner, h]

/-- The dependency that a module gains from a reference in one of its files. -/
def target? (tree : Tree) (registry : Registry) (id : CodeText) (path reference : String) :
    Option CodeText :=
  (Source.resolve? tree path reference).bind (targetOf registry id)

/-- So does the dependency that comes from a reference. -/
theorem target?_eq_of_holdings {registry other : Registry}
    (h : other.holdings = registry.holdings) (tree : Tree) (id : CodeText) (path : String) :
    target? tree other id path = target? tree registry id path := by
  funext reference
  unfold target?
  rw [targetOf_eq_of_holdings h]

/-- The targets of a report, reference by reference. -/
theorem targets_report_eq (tree : Tree) (scope : Scope) (registry : Registry) (id : CodeText)
    (path : String) (text : List Char) :
    (report tree scope registry id path text).targets
      = (Source.references text).relative.toList.filterMap (target? tree registry id path) := by
  rw [targets_report, leadsTo, List.filterMap_filterMap]
  rfl

/-- What is looked up in a registry depends on its holdings alone. -/
theorem report_eq_of_holdings {registry other : Registry}
    (h : other.holdings = registry.holdings) (tree : Tree) (scope : Scope) (id : CodeText)
    (path : String) (text : List Char) :
    report tree scope other id path text = report tree scope registry id path text := by
  have htargets : (report tree scope other id path text).targets
      = (report tree scope registry id path text).targets := by
    rw [targets_report, targets_report, targetOf_eq_of_holdings h]
  unfold report at *
  rw [FileReport.mk.injEq]
  exact ⟨rfl, rfl, rfl, htargets, rfl⟩

/-- Taking in a sighting looks only the holdings up. -/
theorem visit_eq_of_holdings {registry other : Registry}
    (h : other.holdings = registry.holdings) (tree : Tree) (scope : Scope) :
    visit tree scope other = visit tree scope registry := by
  funext progress sighting
  unfold visit
  simp only [report_eq_of_holdings h]

/-- A walk only writes counters, dependencies and packages. -/
theorem isWalked_visit (tree : Tree) (scope : Scope) (registry : Registry) (progress : Progress)
    (sighting : Sighting) :
    progress.record.IsWalked (visit tree scope registry progress sighting).record := by
  cases sighting with
  | missing path => exact .refl _
  | unlistable path fault => exact .refl _
  | file path =>
    cases hread : tree.readSource path with
    | error fault =>
      rw [visit_file_of_error hread]
      exact .refl _
    | ok text =>
      rw [visit_file_of_ok hread]
      exact .addReport _ _

/-- The walk of a record writes no more than walks do. -/
theorem isWalked_walkRecord (tree : Tree) (scope : Scope) (registry : Registry) (owners : Owners)
    (record : Record) : record.IsWalked (walkRecord tree scope registry owners record).record := by
  rw [(walkRecord_eq owners record).1]
  rfl

/-- The walk of a record gives the same in every registry with the same holdings. -/
theorem walkRecord_eq_of_holdings {registry other : Registry}
    (h : other.holdings = registry.holdings) (tree : Tree) (scope : Scope) (owners : Owners)
    (record : Record) :
    walkRecord tree scope other owners record = walkRecord tree scope registry owners record := by
  unfold walkRecord
  rw [visit_eq_of_holdings h]

/-- Changes the record of a module that is being walked. -/
def Progress.change (progress : Progress) (change : Record → Record) : Progress :=
  { progress with record := change progress.record }

/-- Counts a file. -/
def count (scope : Scope) (path : String) (text : List Char) (record : Record) : Record :=
  { record with metrics := {
    files := record.metrics.files + 1
    lines := record.metrics.lines + Source.countLines text
    debt := record.metrics.debt + Source.countDebtMarkers text
    tests := record.metrics.tests +
      if Source.looksLikeTest ((Path.relative? path scope.root).getD "") then 1 else 0 } }

/-- What a record gains from a file, in the order in which it is written. -/
theorem addReport_report (tree : Tree) (scope : Scope) (registry : Registry) (id : CodeText)
    (path : String) (text : List Char) (record : Record) :
    addReport record (report tree scope registry id path text)
      = ((Source.references text).packages.toList.map .ofString).foldl .addPackage
          (((Source.references text).relative.toList.filterMap
            (target? tree registry id path)).foldl .addDependency
              (count scope path text record)) := by
  unfold addReport
  rw [targets_report_eq]
  rfl

/-! ### A walk in place -/

/-- A walk that writes into the registry at once. -/
structure Walking where
  registry : Registry
  visited : Nat := 0
  notices : List Notice := []

namespace Walking

/-- Gives a notice in detail. -/
def note (walking : Walking) (text : String) : Walking :=
  { walking with notices := walking.notices ++ [⟨.debug, .walker, text⟩] }

/-- Changes the record of a module. -/
def write (walking : Walking) (id : CodeText) (change : Record → Record) : Walking :=
  { walking with registry := walking.registry.update id change }

/-- Looks up one reference in a file of a module, in the registry as it stands. -/
def follow (tree : Tree) (id : CodeText) (path : String) (walking : Walking) (reference : String) :
    Walking :=
  match target? tree walking.registry id path reference with
  | some target => walking.write id (·.addDependency target)
  | none => walking

/-- Takes in a file of a module: its counters, then its references, then its packages. -/
def read (tree : Tree) (scope : Scope) (id : CodeText) (path : String) (text : List Char)
    (walking : Walking) : Walking :=
  let references := Source.references text
  let opened := { walking with visited := walking.visited + 1 }
  let counted := opened.write id (count scope path text)
  let followed := references.relative.toList.foldl (follow tree id path) counted
  (references.packages.toList.map .ofString).foldl
    (fun walking name => walking.write id (·.addPackage name)) followed

/-- Takes in one sighting of a module. -/
def visit (tree : Tree) (scope : Scope) (id : CodeText) (walking : Walking) : Sighting → Walking
  | .missing path =>
    walking.note s!"Module {id} root {CodeText.ofPath path} does not exist; skipping"
  | .unlistable path fault => walking.note s!"Cannot list {path}: {fault.message path}"
  | .file path =>
    match tree.readSource path with
    | .error fault => walking.note s!"Skipping unreadable file {path}: {fault.message path}"
    | .ok text => walking.read tree scope id path text

end Walking

/-- Walks one module in place, with the roots that its record has. -/
def walkModule (tree : Tree) (scope : Scope) (owners : Owners) (walking : Walking)
    (id : CodeText) : Walking :=
  match walking.registry.get? id with
  | none => walking
  | some record =>
    (sightingsOf tree scope owners record).foldl (Walking.visit tree scope id) walking

/-- Walks modules in place, one after the other. -/
def walkModules (tree : Tree) (scope : Scope) (owners : Owners) (walking : Walking)
    (order : List CodeText) : Walking :=
  order.foldl (walkModule tree scope owners) walking

namespace Walking

variable (tree : Tree) (scope : Scope) {walking : Walking} {progress : Progress}

/-- What becomes of a walk when the walk of one module by itself is put back. -/
def take (walking : Walking) (progress : Progress) : Walking where
  registry := walking.registry.put progress.record
  visited := walking.visited + progress.visited
  notices := walking.notices ++ progress.notices

/-- A notice of a walk by itself is a notice of the walk in place. -/
theorem note_take (text : String) :
    (walking.take progress).note text = walking.take (progress.note text) := by
  unfold note take Progress.note
  rw [List.append_assoc]

/-- A change to the record that a walk by itself is about may be made before or after it is put
back. -/
theorem write_take {id : CodeText} (hid : progress.record.id = id) {change : Record → Record}
    (keeps : (change progress.record).id = progress.record.id) :
    (walking.take progress).write id change = walking.take (progress.change change) := by
  subst hid
  unfold write take
  rw [Registry.update_put _ keeps]
  rfl

variable {id : CodeText} (h : walking.registry.HasWalked id progress.record)

include h

/-- References lead to the same modules, whatever walks have written. -/
theorem foldl_follow_take (path : String) (references : List String) :
    references.foldl (follow tree id path) (walking.take progress)
      = walking.take (progress.change fun record =>
          (references.filterMap (target? tree walking.registry id path)).foldl .addDependency
            record) := by
  induction references generalizing progress with
  | nil => rfl
  | cons reference rest ih =>
    have hlooked : target? tree (walking.take progress).registry id path reference
        = target? tree walking.registry id path reference :=
      congrFun (target?_eq_of_holdings h.holdings_put tree id path) reference
    -- The registry has changed since the walk began, but not its holdings.
    rw [List.foldl_cons]
    unfold follow
    rw [hlooked]
    cases htarget : target? tree walking.registry id path reference with
    | none => exact (ih h).trans (by rw [List.filterMap_cons_none htarget])
    | some target =>
      let next := progress.change (·.addDependency target)
      have hnext : walking.registry.HasWalked id next.record := h.trans rfl
      dsimp only
      rw [write_take h.id_eq rfl, List.filterMap_cons_some htarget]
      exact ih hnext

/-- Packages are written one by one, and looked up nowhere. -/
theorem foldl_addPackage_take (names : List CodeText) :
    names.foldl (fun walking name => walking.write id (·.addPackage name)) (walking.take progress)
      = walking.take (progress.change fun record => names.foldl .addPackage record) := by
  induction names generalizing progress with
  | nil => rfl
  | cons name rest ih =>
    have hnext : walking.registry.HasWalked id (progress.change (·.addPackage name)).record :=
      h.trans rfl
    rw [List.foldl_cons, write_take h.id_eq rfl, ih hnext]
    rfl

/-- Taking in a file in place is taking in its report, made before anything was written. -/
theorem read_take (path : String) (text : List Char) :
    (walking.take progress).read tree scope id path text
      = walking.take { progress with
          record := addReport progress.record (report tree scope walking.registry id path text)
          visited := progress.visited + 1 } := by
  -- Reading counts the file first, and then follows its references with the record counted.
  let counted : Progress := { progress with
    record := count scope path text progress.record
    visited := progress.visited + 1 }
  have hcounted : { walking.take progress with
      visited := (walking.take progress).visited + 1 }.write id (count scope path text)
        = walking.take counted :=
    @write_take walking { progress with visited := progress.visited + 1 } id h.id_eq _ rfl
  have hwalked : walking.registry.HasWalked id counted.record := h.trans rfl
  have hfollowed := hwalked.trans (.foldl_addDependency counted.record
    ((Source.references text).relative.toList.filterMap (target? tree walking.registry id path)))
  unfold read
  dsimp only
  rw [hcounted, foldl_follow_take tree hwalked, foldl_addPackage_take hfollowed, addReport_report]
  rfl

/-- A sighting taken in in place is the sighting taken in by itself, put back. -/
theorem visit_take (sighting : Sighting) :
    (walking.take progress).visit tree scope id sighting
      = walking.take (Survey.visit tree scope walking.registry progress sighting) := by
  have hid := h.id_eq
  -- Sightings that are no files are told only.
  cases sighting with
  | missing path =>
    simp only [visit, Survey.visit, note_take, hid]
  | unlistable path fault =>
    exact note_take _
  | file path =>
    simp only [visit, Survey.visit, hid]
    cases tree.readSource path with
    | error fault => exact note_take _
    | ok text => exact read_take tree scope h path text

/-- So are any number of sightings. The induction keeps that the record came from the one in the
registry by walks, so the holdings are those at the start throughout. -/
theorem foldl_visit_take (found : List Sighting) :
    found.foldl (visit tree scope id) (walking.take progress)
      = walking.take (found.foldl (Survey.visit tree scope walking.registry) progress) := by
  induction found generalizing progress with
  | nil => rfl
  | cons sighting rest ih =>
    rw [List.foldl_cons, visit_take tree scope h, ih (h.trans (isWalked_visit _ _ _ _ _)),
      List.foldl_cons]

end Walking

/-! ### One module -/

section

variable (tree : Tree) (scope : Scope) (owners : Owners) {walking : Walking} {id : CodeText}

/-- The walk of one module by itself. -/
def walkOf (registry : Registry) (id : CodeText) : Option Progress :=
  (registry.get? id).map (walkRecord tree scope registry owners)

/-- The walk of one module in place is its walk by itself, put back. -/
theorem walkModule_eq {record : Record} (hget : walking.registry.get? id = some record) :
    walkModule tree scope owners walking id
      = walking.take (walkRecord tree scope walking.registry owners record) := by
  have hid : record.id = id := (walking.registry.get?_eq_some_iff.mp hget).2
  have hstart : walking.take { record := record } = walking := by
    unfold Walking.take
    rw [Registry.put_of_get? _ (hid ▸ hget), Nat.add_zero, List.append_nil]
  have hrun := @Walking.foldl_visit_take tree scope walking { record := record } id
    (.of_get? hget) (sightingsOf tree scope owners record)
  rw [hstart] at hrun
  unfold walkModule
  rw [hget]
  exact hrun

/-- An identifier without a module is passed over. -/
theorem walkModule_of_none (hget : walking.registry.get? id = none) :
    walkModule tree scope owners walking id = walking := by
  unfold walkModule
  rw [hget]

/-- After a module was walked, its record is what the walk made of it, and other records are what
they were. -/
theorem get?_walkModule (walking : Walking) (id other : CodeText) :
    (walkModule tree scope owners walking id).registry.get? other
      = if other = id then (walkOf tree scope owners walking.registry other).map Progress.record
        else walking.registry.get? other := by
  cases hget : walking.registry.get? id with
  | none =>
    rw [walkModule_of_none tree scope owners hget]
    split
    · next hsame => rw [hsame, walkOf, hget, Option.map_none, Option.map_none]
    · rfl
  | some record =>
    have hid := ((Registry.HasWalked.of_get? hget).trans
      (isWalked_walkRecord tree scope walking.registry owners record)).id_eq
    -- Walking puts a single record back, under the id it was taken from.
    rw [walkModule_eq tree scope owners hget]
    show (walking.registry.put _).get? other = _
    rw [Registry.get?_put, hid]
    split
    · next hsame =>
      rw [hsame, walkOf, hget]
      rfl
    · rfl

/-- The registry differs from another one at most in what walks write for one module. -/
structure WritesOnly (id : CodeText) (before after : Registry) : Prop where
  declared : after.declared = before.declared
  ids : after.ids = before.ids
  others : ∀ other, other ≠ id → after.get? other = before.get? other
  own : ∀ record, before.get? id = some record →
    ∃ walked, after.get? id = some walked ∧ record.IsWalked walked

/-- The walk of one module writes to that module only, and there only what walks write. -/
theorem writesOnly_walkModule (walking : Walking) (id : CodeText) :
    WritesOnly id walking.registry (walkModule tree scope owners walking id).registry where
  declared := by
    cases hget : walking.registry.get? id with
    | none => rw [walkModule_of_none tree scope owners hget]
    | some record =>
      rw [walkModule_eq tree scope owners hget]
      exact Registry.declared_put _ _
  ids := by
    cases hget : walking.registry.get? id with
    | none => rw [walkModule_of_none tree scope owners hget]
    | some record =>
      rw [walkModule_eq tree scope owners hget]
      exact Registry.ids_put _ _
  -- Records of other ids are not touched, and its own is one that was walked.
  others other hother := by
    rw [get?_walkModule, if_neg hother]
  own record hget := by
    rw [get?_walkModule, if_pos rfl, walkOf, hget]
    exact ⟨_, rfl, isWalked_walkRecord tree scope walking.registry owners record⟩

/-- The walk of a module in place leaves the holdings alone. -/
theorem holdings_walkModule (walking : Walking) (id : CodeText) :
    (walkModule tree scope owners walking id).registry.holdings = walking.registry.holdings := by
  cases hget : walking.registry.get? id with
  | none => rw [walkModule_of_none tree scope owners hget]
  | some record =>
    rw [walkModule_eq tree scope owners hget]
    exact ((Registry.HasWalked.of_get? hget).trans
      (isWalked_walkRecord tree scope walking.registry owners record)).holdings_put

/-- So does the walk of any number of modules, by induction on their order. -/
theorem holdings_walkModules (walking : Walking) (order : List CodeText) :
    (walkModules tree scope owners walking order).registry.holdings
      = walking.registry.holdings := by
  induction order generalizing walking with
  | nil => rfl
  | cons id rest ih => exact (ih _).trans (holdings_walkModule tree scope owners walking id)

end

/-! ### All modules -/

section

variable (tree : Tree) (scope : Scope) (owners : Owners)

/-- A walk in place has come from one walking to another by walking some modules once each, as if
each had been walked by itself at the start. -/
structure HasTurned (before : Walking) (order : List CodeText) (after : Walking) : Prop where
  declared : after.registry.declared = before.registry.declared
  ids : after.registry.ids = before.registry.ids
  get? : ∀ id, after.registry.get? id
    = if id ∈ order then (walkOf tree scope owners before.registry id).map Progress.record
      else before.registry.get? id
  visited : after.visited = before.visited +
    ((order.filterMap (walkOf tree scope owners before.registry)).map Progress.visited).sum
  notices : after.notices = before.notices ++
    (order.filterMap (walkOf tree scope owners before.registry)).flatMap Progress.notices

/-- One module more does not change how another one is walked. -/
theorem walkOf_walkModule {walking : Walking} {id other : CodeText} (h : other ≠ id) :
    walkOf tree scope owners (walkModule tree scope owners walking id).registry other
      = walkOf tree scope owners walking.registry other := by
  have hrecord : walkRecord tree scope (walkModule tree scope owners walking id).registry owners
      = walkRecord tree scope walking.registry owners :=
    funext fun record =>
      walkRecord_eq_of_holdings (holdings_walkModule tree scope owners walking id) ..
  unfold walkOf
  rw [hrecord, (writesOnly_walkModule tree scope owners walking id).others other h]

/-- One module walked in place has had its turn. -/
theorem hasTurned_walkModule (walking : Walking) (id : CodeText) :
    HasTurned tree scope owners walking [id] (walkModule tree scope owners walking id) := by
  have hwrites := writesOnly_walkModule tree scope owners walking id
  refine ⟨hwrites.declared, hwrites.ids, fun other => ?_, ?_, ?_⟩
  · simp only [get?_walkModule, List.mem_singleton]
  all_goals
    rw [List.filterMap_cons, walkOf]
    cases hget : walking.registry.get? id with
    | none => simp [walkModule_of_none tree scope owners hget]
    | some record => simp [walkModule_eq tree scope owners hget, Walking.take]

/-- Modules that are walked one after the other, each once, have each had a turn as if it were the
first. By induction on the order: the first module changes how no other one is walked. -/
theorem hasTurned_walkModules {order : List CodeText} (hnodup : order.Nodup) (walking : Walking) :
    HasTurned tree scope owners walking order (walkModules tree scope owners walking order) := by
  induction order generalizing walking with
  | nil => exact ⟨rfl, rfl, fun _ => rfl, rfl, (List.append_nil _).symm⟩
  | cons id rest ih =>
    rw [List.nodup_cons] at hnodup
    have hone := hasTurned_walkModule tree scope owners walking id
    have hrest := ih hnodup.2 (walkModule tree scope owners walking id)
    have hsame : ∀ other ∈ rest,
        walkOf tree scope owners (walkModule tree scope owners walking id).registry other
          = walkOf tree scope owners walking.registry other := fun other hother =>
      walkOf_walkModule tree scope owners fun heq => hnodup.1 (heq ▸ hother)
    have hfound := List.filterMap_congr hsame
    -- The first module, then the rest: lookups, counts and notices are put together from the two.
    refine ⟨hrest.declared.trans hone.declared, hrest.ids.trans hone.ids, fun other => ?_, ?_, ?_⟩
    · refine (hrest.get? other).trans ?_
      by_cases hother : other ∈ rest
      · rw [if_pos hother, if_pos (List.mem_cons_of_mem _ hother), hsame other hother]
      · rw [if_neg hother, hone.get? other]
        simp only [List.mem_cons, List.not_mem_nil, or_false, hother]
    · refine hrest.visited.trans ?_
      rw [hfound, hone.visited, Nat.add_assoc, ← List.sum_append, ← List.map_append,
        ← List.filterMap_append, List.singleton_append]
    · refine hrest.notices.trans ?_
      rw [hfound, hone.notices, List.append_assoc, ← List.flatMap_append,
        ← List.filterMap_append, List.singleton_append]

variable {tree scope owners}

/-- Once each module has had its turn, every record is as its own walk leaves it. -/
theorem HasTurned.registry_eq {before after : Walking} {order : List CodeText}
    (h : HasTurned tree scope owners before order after)
    (horder : order.Perm before.registry.ids) :
    after.registry = before.registry.transform fun record =>
      (walkRecord tree scope before.registry owners record).record := by
  have hkeeps : ∀ record,
      (walkRecord tree scope before.registry owners record).record.id = record.id :=
    fun record => (isWalked_walkRecord tree scope before.registry owners record).id_eq
  -- Every id of the registry has had its turn, and no other has.
  refine Registry.eq_of_get? h.declared (h.ids.trans (before.registry.ids_transform _).symm)
    fun id => ?_
  rw [h.get? id, before.registry.get?_transform hkeeps]
  split
  · rw [walkOf, Option.map_map]
    rfl
  · next hid =>
    rw [before.registry.get?_eq_none_iff.mpr fun hmem => hid (horder.mem_iff.mpr hmem)]
    rfl

end

/-- The walk of a registry, module by module. -/
theorem walk_eq (tree : Tree) (scope : Scope) (registry : Registry) :
    walk tree scope registry =
      let progress := registry.ids.filterMap (walkOf tree scope registry.rootOwners registry)
      ⟨progress.flatMap Progress.notices,
        .ok (registry.transform fun record =>
            (walkRecord tree scope registry registry.rootOwners record).record,
          (progress.map Progress.visited).sum)⟩ := by
  -- What the walk gathers in one pass, by the records in their order.
  have hprogress : registry.ids.filterMap (walkOf tree scope registry.rootOwners registry)
      = registry.records.map (walkRecord tree scope registry registry.rootOwners) := by
    unfold walkOf
    rw [← List.map_filterMap, registry.filterMap_get?]
  let change := fun record =>
    ((walkRecord tree scope registry registry.rootOwners record).record,
      walkRecord tree scope registry registry.rootOwners record)
  have hregistry : (registry.transformWith change).1
      = registry.transform fun record => (change record).1 :=
    Registry.eq_of_records rfl (registry.records_transformWith change)
  show Traced.mk ((registry.transformWith change).2.flatMap Progress.notices)
    (.ok ((registry.transformWith change).1,
      (registry.transformWith change).2.foldl (fun total p => total + p.visited) 0)) = _
  have hsum : ∀ found : List Progress,
      found.foldl (fun total p => total + p.visited) 0 = (found.map Progress.visited).sum :=
    fun found => by rw [List.sum_eq_foldl, List.foldl_map]
  rw [hsum, hprogress, hregistry, registry.snd_transformWith]

/-- Modules may be walked in any order, in place: the records and the number of files are those of
`walk`, and so are the notices, their order apart. No walk of a module writes anything but the
counters, dependencies and packages of that module, and none changes to which module a path
belongs. -/
theorem walk_in_any_order (tree : Tree) (scope : Scope) (registry : Registry) :
    (∀ order : List CodeText, order.Perm registry.ids →
      let walked := walkModules tree scope registry.rootOwners { registry := registry } order
      (walk tree scope registry).outcome = .ok (walked.registry, walked.visited) ∧
        walked.notices.Perm (walk tree scope registry).notices) ∧
    (∀ owners walking id,
      WritesOnly id walking.registry (walkModule tree scope owners walking id).registry) ∧
    ∀ owners walking order path,
      ((walkModules tree scope owners walking order).registry.findOwner path).map Record.id
        = (walking.registry.findOwner path).map Record.id := by
  refine ⟨fun order horder => ?_, fun owners walking id =>
    writesOnly_walkModule tree scope owners walking id, fun owners walking order path => ?_⟩
  · -- Each record is walked from the registry as it was before all turns, so the order shows in the
    -- notices only.
    have hturned := hasTurned_walkModules tree scope registry.rootOwners
      (horder.nodup_iff.mpr registry.distinct) { registry := registry }
    have hprogress := horder.filterMap (walkOf tree scope registry.rootOwners registry)
    rw [walk_eq, ← hturned.registry_eq horder]
    refine ⟨congrArg (fun visited => Except.ok (_, visited)) ?_, ?_⟩
    · rw [hturned.visited, Nat.zero_add]
      exact (hprogress.map Progress.visited).sum_eq.symm
    · rw [hturned.notices]
      exact hprogress.flatMap_right _
  · rw [Registry.map_id_findOwner, Registry.map_id_findOwner, holdings_walkModules]

/-- In `sampleTree` the module that is registered last may be walked first. -/
theorem walk_sampleTree_in_any_order :
    let registry := (Registry.empty []).replay
      [.ensure { id := "web", roots := ["/r/web", "/r/web/a.js", "/r/gone"] },
        .ensure { id := "core", roots := ["/r/web/core"] }]
    let scope : Scope := { root := "/r" }
    let walked := walkModules sampleTree scope registry.rootOwners { registry := registry }
      ["core", "web"]
    registry.ids = ["web", "core"] ∧
      (walk sampleTree scope registry).outcome = .ok (walked.registry, walked.visited) ∧
      walked.notices.Perm (walk sampleTree scope registry).notices := by
  intro registry scope walked
  have hids : registry.ids = ["web", "core"] := by decide +kernel
  have horder : List.Perm (["core", "web"] : List CodeText) registry.ids := hids ▸ .swap _ _ _
  exact ⟨hids, (walk_in_any_order sampleTree scope registry).1 _ horder⟩

end Survey

end RepoAtlas
