import Mathlib.Algebra.Order.Ring.Int
import RepoAtlas.Proofs.Module.History
import RepoAtlas.Proofs.Survey.Ways

/-!
# `RepoAtlas.Proofs.Survey.Reading`: the files that a walk reads

A walk reads each source file that a root of a module leads to once, and only changes what the
module's record counts and refers to. The definitions come across sightings, drop repeated ones and
fold the rest into the record one by one; here the files are a list (`readings`) of which everything
that the record gains is a sum or a concatenation.

* `readings_exact`: which files are read, that each is read once, and in which order.
* `walkRecord_eq`: what a record gains from them.
* `walk_replay_reads`: both, for every module of every registry.
-/

set_option autoImplicit false

namespace RepoAtlas.Survey

open RepoAtlas.Module
open RepoAtlas.Path (IsName IsNormal)

/-- A file with its text. -/
abbrev Reading := String × List Char

/-- The file at a path with its text, if it can be read. -/
def reading? (tree : Tree) (path : String) : Option Reading :=
  (tree.readSource path).toOption.map (path, ·)

/-- The files that the walk of a module reads, with their texts, in order. -/
def readings (tree : Tree) (scope : Scope) (owners : Owners) (record : Record) : List Reading :=
  (files (sightingsOf tree scope owners record)).filterMap (reading? tree)

section

variable {tree : Tree} {scope : Scope} {owners : Owners}

/-! ### Which files are read -/

/-- What can be read is a file. -/
theorem isFile_of_readSource {path : String} {text : List Char}
    (h : tree.readSource path = .ok text) : tree.isFile path = true := by
  unfold Tree.readSource at h
  cases hoctets : tree.readOctets path with
  | error fault => rw [hoctets] at h; cases h
  | ok octets =>
    obtain ⟨entry, hfind, hentry⟩ := bind_eq_ok_iff.mp hoctets
    cases entry with
    | file content => exact Tree.isFile_iff.mpr ⟨content, hfind⟩
    | directory => cases hentry
    | link target => cases hentry

/-- Every file can be read as a source, since what is no UTF-8 is replaced. -/
theorem exists_readSource {path : String} (h : tree.isFile path = true) :
    ∃ text, tree.readSource path = .ok text := by
  obtain ⟨content, hfind⟩ := Tree.isFile_iff.mp h
  refine ⟨Text.Utf8.decodeLossy content, ?_⟩
  rw [Tree.readSource, Tree.readOctets, hfind]
  rfl

/-- A path has a reading if it can be read, and that is the path with its text. -/
theorem reading?_eq_some_iff {path : String} {reading : Reading} :
    reading? tree path = some reading ↔
      reading.1 = path ∧ tree.readSource path = .ok reading.2 := by
  obtain ⟨path', text⟩ := reading
  unfold reading?
  cases tree.readSource path with
  | error fault => exact ⟨fun h => (nomatch h), fun h => (nomatch h.2)⟩
  | ok found =>
    constructor
    · intro h
      cases h
      exact ⟨rfl, rfl⟩
    · rintro ⟨rfl, h⟩
      cases h
      rfl

/-- The readings of some paths are those of the paths that can be read. -/
theorem mem_filterMap_reading? {paths : List String} {reading : Reading} :
    reading ∈ paths.filterMap (reading? tree) ↔
      reading.1 ∈ paths ∧ tree.readSource reading.1 = .ok reading.2 := by
  rw [List.mem_filterMap]
  simp only [reading?_eq_some_iff]
  constructor
  · rintro ⟨path, hmem, rfl, hread⟩
    exact ⟨hmem, hread⟩
  · rintro ⟨hmem, hread⟩
    exact ⟨reading.1, hmem, rfl, hread⟩

/-- The paths that are read are those of files. -/
theorem map_fst_filterMap_reading? (paths : List String) :
    (paths.filterMap (reading? tree)).map Prod.fst = paths.filter tree.isFile := by
  induction paths with
  | nil => rfl
  | cons path rest ih =>
    -- A file has a reading, and nothing else has.
    by_cases hfile : tree.isFile path = true
    · obtain ⟨text, htext⟩ := exists_readSource hfile
      have hhead : reading? tree path = some (path, text) := reading?_eq_some_iff.mpr ⟨rfl, htext⟩
      rw [List.filter_cons_of_pos hfile, ← ih, List.filterMap_cons_some hhead, List.map_cons]
    · have hhead : reading? tree path = none := by
        refine Option.eq_none_iff_forall_ne_some.mpr fun reading h => hfile ?_
        exact isFile_of_readSource (reading?_eq_some_iff.mp h).2
      rw [List.filter_cons_of_neg hfile, ← ih, List.filterMap_cons_none hhead]

/-- Of the sightings of a file only the first one is kept. -/
theorem files_distinctFiles (before : List String) (found : List Sighting) :
    files (distinctFiles before found)
      = (OrderedSet.ofList (files found)).toList.filter (fun path => decide (path ∉ before)) := by
  induction found generalizing before with
  | nil => rfl
  | cons sighting rest ih =>
    cases sighting with
    | missing path => exact ih before
    | unlistable path fault => exact ih before
    | file path =>
      have hunfold : distinctFiles before (.file path :: rest)
          = if before.contains path then distinctFiles before rest
            else .file path :: distinctFiles (path :: before) rest := rfl
      have hfiles : files (.file path :: rest) = path :: files rest := rfl
      rw [hunfold, hfiles, OrderedSet.toList_ofList_cons]
      -- A path that has been seen drops out on both sides; a new one is kept in front, and the rest
      -- is compared without it.
      by_cases hseen : path ∈ before
      · rw [if_pos (List.contains_iff_mem.mpr hseen), ih,
          List.filter_cons_of_neg (by simpa using hseen), List.filter_filter]
        refine List.filter_congr fun other _ => ?_
        rw [← Bool.decide_and, decide_eq_decide]
        exact ⟨fun h => ⟨h, fun heq => h (heq ▸ hseen)⟩, fun h => h.1⟩
      · have hkept : files (.file path :: distinctFiles (path :: before) rest)
            = path :: files (distinctFiles (path :: before) rest) := rfl
        rw [if_neg (mt List.contains_iff_mem.mp hseen), hkept, ih,
          List.filter_cons_of_pos (by simpa using hseen), List.filter_filter]
        congr 1
        refine List.filter_congr fun other _ => ?_
        rw [← Bool.decide_and, decide_eq_decide, List.mem_cons, not_or, and_comm]

/-- Sightings of interest that are files are source files. -/
theorem files_filter_isOfInterest (found : List Sighting) :
    files (found.filter (isOfInterest scope))
      = (files found).filter (Path.isSource · scope.extensions) := by
  induction found with
  | nil => rfl
  | cons sighting rest ih =>
    cases sighting with
    | missing path => exact ih
    | unlistable path fault => exact ih
    | file path =>
      have hfiles : ∀ others, files (.file path :: others) = path :: files others := fun _ => rfl
      have hinterest : isOfInterest scope (.file path) = Path.isSource path scope.extensions := rfl
      rw [hfiles, List.filter_cons, List.filter_cons, hinterest]
      split
      · rw [hfiles, ih]
      · exact ih

/-- The files that one root leads to. -/
theorem files_sightings (hnamed : tree.WellNamed) {root : String} (hnormal : IsNormal root)
    (id : CodeText) :
    files (sightings tree scope owners id root) =
      if tree.isDirectory root then
        (ways tree scope owners id (tree.entries.length + 1) root).map (Path.descend root)
      else if tree.isFile root then [root]
      else [] := by
  unfold sightings
  split
  · exact files_below hnamed hnormal _
  · split <;> rfl

/-- The source files of a module: those that its roots lead to, each where it comes first. -/
theorem files_sightingsOf (record : Record) :
    files (sightingsOf tree scope owners record)
      = (OrderedSet.ofList (record.roots.toList.flatMap fun root =>
          files (sightings tree scope owners record.id root))).toList.filter
            (Path.isSource · scope.extensions) := by
  unfold sightingsOf
  rw [files_filter_isOfInterest, files_distinctFiles]
  congr 1
  rw [List.filter_eq_self.mpr fun path _ => decide_eq_true List.not_mem_nil]
  exact congrArg (fun paths => (OrderedSet.ofList paths).toList) List.filterMap_flatMap

end

/-- A path that lies under a directory, on a clear way. -/
def LiesUnder (tree : Tree) (may : (name path : String) → Prop) (root path : String) : Prop :=
  ∃ names, names ≠ [] ∧ (∀ n ∈ names, IsName n) ∧ path = Path.descend root names ∧
    Clear tree may root names

/-- The ways from a directory to files that may be read, in the order in which a walk takes them. -/
structure WaysFrom (tree : Tree) (may : (name path : String) → Prop) (root : String)
    (taken : List (List String)) : Prop where
  sorted : taken.Pairwise (· < ·)
  mem_iff : ∀ names, tree.isFile (Path.descend root names) = true →
    (names ∈ taken ↔ names ≠ [] ∧ (∀ n ∈ names, IsName n) ∧ Clear tree may root names)

/-- What a root leads to, given the ways from directories. -/
def filesFrom (tree : Tree) (taken : String → List (List String)) (root : String) : List String :=
  if tree.isDirectory root then (taken root).map (Path.descend root)
  else if tree.isFile root then [root]
  else []

/-- The files that the walk of a module must read: all of them, each once, and in order. -/
structure ReadsExactly (tree : Tree) (scope : Scope) (owners : Owners) (record : Record)
    (reads : List Reading) : Prop where
  /-- A file is read if it is a root, or lies under one, and can be read at all. -/
  mem_iff : ∀ path text, (path, text) ∈ reads ↔
    tree.readSource path = .ok text ∧ Path.isSource path scope.extensions = true ∧
      (path ∈ record.roots ∨ ∃ root ∈ record.roots, tree.isDirectory root = true ∧
        LiesUnder tree (MayEnter scope owners record.id) root path)
  nodup : (reads.map Prod.fst).Nodup
  /-- Files come in the order in which roots, one after the other, first lead to them. -/
  order : ∃ taken : String → List (List String),
    (∀ root ∈ record.roots, tree.isDirectory root = true →
      WaysFrom tree (MayEnter scope owners record.id) root (taken root)) ∧
    reads.map Prod.fst =
      (OrderedSet.ofList (record.roots.toList.flatMap (filesFrom tree taken))).toList.filter
        fun path => tree.isFile path && Path.isSource path scope.extensions

section

variable {tree : Tree} {scope : Scope} {owners : Owners}

/-- From a directory a walk takes all clear ways: it may go as deep as they are long. -/
theorem waysFrom_ways (hnamed : tree.WellNamed) {root : String} (hnormal : IsNormal root)
    (hdir : tree.isDirectory root = true) (id : CodeText) :
    WaysFrom tree (MayEnter scope owners id) root
      (ways tree scope owners id (tree.entries.length + 1) root) where
  sorted := pairwise_ways _
  mem_iff := by
    intro names hfile
    obtain ⟨place, hplace, hentry⟩ := Tree.isDirectory_iff.mp hdir
    rw [mem_ways hnamed hnormal hplace hentry hfile]
    constructor
    · rintro ⟨hne, hnames, -, hclear⟩
      exact ⟨hne, hnames, hclear⟩
    · rintro ⟨hne, hnames, hclear⟩
      exact ⟨hne, hnames, hclear.length_le hnormal hplace hentry hnames, hclear⟩

/-- A file is no directory. -/
theorem isDirectory_eq_false_of_isFile {path : String} (h : tree.isFile path = true) :
    tree.isDirectory path = false := by
  obtain ⟨content, hfind⟩ := Tree.isFile_iff.mp h
  unfold Tree.isDirectory
  rw [hfind]

/-- A root leads to a file that can be read if it is that file, or the file lies under it. -/
theorem mem_files_sightings (hnamed : tree.WellNamed) {root path : String}
    (hnormal : IsNormal root) (hfile : tree.isFile path = true) (id : CodeText) :
    path ∈ files (sightings tree scope owners id root) ↔
      path = root ∨ (tree.isDirectory root = true ∧
        LiesUnder tree (MayEnter scope owners id) root path) := by
  rw [files_sightings hnamed hnormal]
  by_cases hdir : tree.isDirectory root = true
  · rw [if_pos hdir, List.mem_map]
    have hways := @waysFrom_ways tree scope owners hnamed root hnormal hdir id
    -- A directory leads to the files on its ways, and is no file itself.
    constructor
    · rintro ⟨names, hmem, rfl⟩
      obtain ⟨hne, hnames, hclear⟩ := (hways.mem_iff names hfile).mp hmem
      exact Or.inr ⟨hdir, names, hne, hnames, rfl, hclear⟩
    · rintro (rfl | ⟨-, names, hne, hnames, rfl, hclear⟩)
      · exact absurd hdir (by rw [isDirectory_eq_false_of_isFile hfile]; decide)
      · exact ⟨names, (hways.mem_iff names hfile).mpr ⟨hne, hnames, hclear⟩, rfl⟩
  · rw [if_neg hdir]
    constructor
    · intro hmem
      split at hmem
      · exact Or.inl (List.mem_singleton.mp hmem)
      · exact absurd hmem List.not_mem_nil
    · rintro (rfl | ⟨h, -⟩)
      · rw [if_pos hfile]
        exact List.mem_singleton_self path
      · exact absurd h hdir

/-- The files that can be read and that the walk of a module comes across. -/
theorem mem_files_sightingsOf (hnamed : tree.WellNamed) {record : Record}
    (hnormal : ∀ root ∈ record.roots, IsNormal root) {path : String}
    (hfile : tree.isFile path = true) :
    path ∈ files (sightingsOf tree scope owners record) ↔
      Path.isSource path scope.extensions = true ∧
        (path ∈ record.roots ∨ ∃ root ∈ record.roots, tree.isDirectory root = true ∧
          LiesUnder tree (MayEnter scope owners record.id) root path) := by
  rw [files_sightingsOf, List.mem_filter, and_comm]
  refine and_congr_right fun _ => ?_
  show path ∈ OrderedSet.ofList _ ↔ _
  rw [OrderedSet.mem_ofList, List.mem_flatMap]
  constructor
  · rintro ⟨root, hroot, hmem⟩
    -- A file is a root itself, or is met below one on a clear way.
    rcases (mem_files_sightings hnamed (hnormal root hroot) hfile record.id).mp hmem with
      rfl | hunder
    · exact Or.inl hroot
    · exact Or.inr ⟨root, hroot, hunder⟩
  · rintro (hroot | ⟨root, hroot, hunder⟩)
    · exact ⟨path, hroot,
        (mem_files_sightings hnamed (hnormal path hroot) hfile record.id).mpr (Or.inl rfl)⟩
    · exact ⟨root, hroot,
        (mem_files_sightings hnamed (hnormal root hroot) hfile record.id).mpr (Or.inr hunder)⟩

/-- No file is come across twice. -/
theorem nodup_files_sightingsOf (record : Record) :
    (files (sightingsOf tree scope owners record)).Nodup := by
  rw [files_sightingsOf]
  exact (OrderedSet.nodup _).filter _

/-- The walk of a module with roots in normal form reads the files it must read. -/
theorem readings_exact (hnamed : tree.WellNamed) {record : Record}
    (hnormal : ∀ root ∈ record.roots, IsNormal root) :
    ReadsExactly tree scope owners record (readings tree scope owners record) where
  mem_iff := by
    intro path text
    unfold readings
    rw [mem_filterMap_reading?, and_comm]
    exact and_congr_right fun hread =>
      mem_files_sightingsOf hnamed hnormal (isFile_of_readSource hread)
  nodup := by
    unfold readings
    rw [map_fst_filterMap_reading?]
    exact (nodup_files_sightingsOf record).filter _
  order := by
    -- The order is that of the ways, at a depth beyond what the tree has.
    refine ⟨ways tree scope owners record.id (tree.entries.length + 1),
      fun root hroot hdir => waysFrom_ways hnamed (hnormal root hroot) hdir record.id, ?_⟩
    unfold readings
    rw [map_fst_filterMap_reading?, files_sightingsOf, List.filter_filter]
    congr 3
    exact List.flatMap_congr fun root hroot => files_sightings hnamed (hnormal root hroot) _

end

/-! ### What a record gains -/

/-- What a record becomes when files are read for it, all at once. -/
def gainAll (record : Record) (reports : List FileReport) : Record :=
  { record with
    metrics := {
      files := record.metrics.files + reports.length
      lines := record.metrics.lines + (reports.map FileReport.lines).sum
      debt := record.metrics.debt + (reports.map FileReport.debt).sum
      tests := record.metrics.tests + reports.countP FileReport.isTest }
    dependencies := record.dependencies.insertMany (reports.flatMap FileReport.targets)
    packages := record.packages.insertMany (reports.flatMap FileReport.packages) }

/-- Reports that are taken in one by one are taken in at once. -/
theorem foldl_addReport (record : Record) (reports : List FileReport) :
    reports.foldl addReport record = gainAll record reports := by
  induction reports generalizing record with
  | nil => simp [gainAll, OrderedSet.insertMany]
  | cons file rest ih =>
    rw [List.foldl_cons, ih, Record.addReport_eq]
    unfold gainAll
    simp only [List.length_cons, List.map_cons, List.sum_cons, List.flatMap_cons,
      List.countP_cons, OrderedSet.insertMany_append, Record.mk.injEq, Metrics.mk.injEq, true_and,
      and_true]
    refine ⟨by omega, by omega, by omega, ?_⟩
    split <;> omega

/-- Reports keep a record sound. -/
theorem sound_gainAll {record : Record} (h : record.Sound) (reports : List FileReport) :
    (gainAll record reports).Sound := by
  rw [← foldl_addReport]
  induction reports generalizing record with
  | nil => exact h
  | cons file rest ih => exact ih (h.addReport file)

section

variable {tree : Tree} {scope : Scope} {registry : Registry}

/-- What the readings of a module say. -/
def reportsOf (tree : Tree) (scope : Scope) (registry : Registry) (id : CodeText)
    (reads : List Reading) : List FileReport :=
  reads.map fun reading => report tree scope registry id reading.1 reading.2

/-- A file that cannot be read only leaves a notice. -/
theorem visit_file_of_error {progress : Progress} {path : String} {fault : Tree.Fault}
    (h : tree.readSource path = .error fault) :
    visit tree scope registry progress (.file path)
      = progress.note s!"Skipping unreadable file {path}: {fault.message path}" := by
  simp only [visit, h]

/-- A file that can be read is taken in and counted. -/
theorem visit_file_of_ok {progress : Progress} {path : String} {text : List Char}
    (h : tree.readSource path = .ok text) :
    visit tree scope registry progress (.file path) = { progress with
      record := addReport progress.record
        (report tree scope registry progress.record.id path text)
      visited := progress.visited + 1 } := by
  simp only [visit, h]

/-- Taking in sightings one after the other takes in what can be read of their files. -/
theorem foldl_visit (found : List Sighting) (progress : Progress) :
    (found.foldl (visit tree scope registry) progress).record
        = gainAll progress.record (reportsOf tree scope registry progress.record.id
            ((files found).filterMap (reading? tree))) ∧
      (found.foldl (visit tree scope registry) progress).visited
        = progress.visited + ((files found).filterMap (reading? tree)).length := by
  induction found generalizing progress with
  | nil =>
    have hnone : reportsOf tree scope registry progress.record.id
        ((files []).filterMap (reading? tree)) = [] := rfl
    rw [hnone, ← foldl_addReport]
    exact ⟨rfl, rfl⟩
  | cons sighting rest ih =>
    rw [List.foldl_cons]
    cases sighting with
    | missing path => exact ih _
    | unlistable path fault => exact ih _
    | file path =>
      have hfiles : files (.file path :: rest) = path :: files rest := rfl
      rw [hfiles]
      cases hread : tree.readSource path with
      | error fault =>
        have hnone : reading? tree path = none := by rw [reading?, hread]; rfl
        rw [List.filterMap_cons_none hnone, visit_file_of_error hread]
        exact ih _
      | ok text =>
        have hsome : reading? tree path = some (path, text) :=
          reading?_eq_some_iff.mpr ⟨rfl, hread⟩
        rw [List.filterMap_cons_some hsome, visit_file_of_ok hread]
        obtain ⟨hrecord, hvisited⟩ := ih { progress with
          record := addReport progress.record
            (report tree scope registry progress.record.id path text)
          visited := progress.visited + 1 }
        -- Taking in a file leaves the identifier alone: later files are read for the same module.
        have hid : ∀ file, (addReport progress.record file).id = progress.record.id :=
          fun file => by rw [Record.addReport_eq]
        constructor
        · rw [hrecord, ← foldl_addReport, ← foldl_addReport, hid]
          rfl
        · rw [hvisited, List.length_cons]
          exact Nat.add_right_comm _ _ _

/-- The walk of one module takes in its readings. -/
theorem walkRecord_eq (owners : Owners) (record : Record) :
    (walkRecord tree scope registry owners record).record
        = gainAll record
            (reportsOf tree scope registry record.id (readings tree scope owners record)) ∧
      (walkRecord tree scope registry owners record).visited
        = (readings tree scope owners record).length := by
  obtain ⟨hrecord, hvisited⟩ := @foldl_visit tree scope registry
    (sightingsOf tree scope owners record) { record := record }
  exact ⟨hrecord, hvisited.trans (Nat.zero_add _)⟩

/-- The walk of a registry walks its modules, each by itself. -/
theorem walk_eq_ok (tree : Tree) (scope : Scope) (registry : Registry) :
    ∃ walked, (walk tree scope registry).outcome
        = .ok (walked, (registry.records.map fun record =>
            (readings tree scope registry.rootOwners record).length).sum) ∧
      walked.declared = registry.declared ∧
      walked.records = registry.records.map fun record => gainAll record
        (reportsOf tree scope registry record.id
          (readings tree scope registry.rootOwners record)) := by
  -- The owners are read once, before any module is walked, so the modules are walked independently.
  let change := fun record =>
    ((walkRecord tree scope registry registry.rootOwners record).record,
      walkRecord tree scope registry registry.rootOwners record)
  refine ⟨(registry.transformWith change).1, ?_, rfl, ?_⟩
  · show Except.ok ((registry.transformWith change).1,
      (registry.transformWith change).2.foldl (fun total p => total + p.visited) 0) = _
    rw [registry.snd_transformWith, List.sum_eq_foldl, List.foldl_map, List.foldl_map]
    have hvisited : ∀ record, (change record).2.visited
        = (readings tree scope registry.rootOwners record).length :=
      fun record => (walkRecord_eq _ record).2
    simp only [hvisited]
  · rw [registry.records_transformWith]
    refine List.map_congr_left fun record _ => ?_
    show { (walkRecord tree scope registry registry.rootOwners record).record with
      id := record.id } = _
    rw [(walkRecord_eq _ record).1]
    rfl

end

/-- What a record must gain from its readings: sums over them, and what they refer to. New names of
packages come after the known ones, in the order in which readings first refer to them. -/
structure Gained (tree : Tree) (scope : Scope) (registry : Registry) (before after : Record)
    (reads : List Reading) : Prop where
  files : after.metrics.files = before.metrics.files + reads.length
  lines : after.metrics.lines
    = before.metrics.lines + (reads.map fun reading => Source.countLines reading.2).sum
  debt : after.metrics.debt
    = before.metrics.debt + (reads.map fun reading => Source.countDebtMarkers reading.2).sum
  tests : after.metrics.tests
    = before.metrics.tests + reads.countP fun reading =>
        Source.looksLikeTest ((Path.relative? reading.1 scope.root).getD "")
  packages : after.packages.toList
    = before.packages.toList ++
        (OrderedSet.ofList (reads.flatMap fun reading =>
          (Source.references reading.2).packages.toList.map CodeText.ofString)).toList.filter
            fun name => decide (name ∉ before.packages)
  dependencies : after.dependencies
    = before.dependencies.insertMany ((reportsOf tree scope registry before.id reads).flatMap
        FileReport.targets)
  /-- Nothing else changes. -/
  rest : after = { before with
    metrics := after.metrics
    packages := after.packages
    dependencies := after.dependencies }

/-- What a record gains from the reports of some files, in numbers and in lists. -/
theorem gained_gainAll (tree : Tree) (scope : Scope) (registry : Registry) (record : Record)
    (reads : List Reading) :
    Gained tree scope registry record
      (gainAll record (reportsOf tree scope registry record.id reads)) reads := by
  -- What a record gains is told by the reports, field by field, and a report by its reading.
  have hmap : ∀ {α : Type} (field : FileReport → α),
      (reportsOf tree scope registry record.id reads).map field
        = reads.map fun reading =>
            field (report tree scope registry record.id reading.1 reading.2) :=
    fun field => List.map_map
  refine { files := ?_, lines := ?_, debt := ?_, tests := ?_, packages := ?_,
           dependencies := rfl, rest := rfl }
  · show _ + ((reportsOf tree scope registry record.id reads).length : Int) = _
    rw [reportsOf, List.length_map]
  · exact congrArg (fun values => record.metrics.lines + ((List.sum values : Nat) : Int))
      (hmap FileReport.lines)
  · exact congrArg (fun values => record.metrics.debt + ((List.sum values : Nat) : Int))
      (hmap FileReport.debt)
  · show _ + ((reportsOf tree scope registry record.id reads).countP _ : Int) = _
    rw [reportsOf, List.countP_map]
    rfl
  · show (record.packages.insertMany _).toList = _
    rw [OrderedSet.toList_insertMany, reportsOf, List.flatMap_map]
    rfl

/-- The walk of any registry, whatever its history: every module reads exactly its files and gains
exactly what they say. -/
theorem walk_replay_reads (tree : Tree) (hnamed : tree.WellNamed) (scope : Scope)
    (declared : List CodeText) (history : List Operation) :
    let registry := (Registry.empty declared).replay history
    ∃ (walked : Registry) (after : Record → Record) (reads : Record → List Reading),
      (walk tree scope registry).outcome
        = .ok (walked, (registry.records.map fun record => (reads record).length).sum) ∧
      walked.declared = registry.declared ∧
      walked.records = registry.records.map after ∧
      ∀ record ∈ registry.records,
        ReadsExactly tree scope registry.rootOwners record (reads record) ∧
        Gained tree scope registry record (after record) (reads record) := by
  intro registry
  obtain ⟨walked, hwalk, hdeclared, hrecords⟩ := walk_eq_ok tree scope registry
  refine ⟨walked, _, readings tree scope registry.rootOwners, hwalk, hdeclared, hrecords, ?_⟩
  intro record hrecord
  have hsound : record.Sound := (Registry.sound_replay declared history).of_mem hrecord
  exact ⟨readings_exact hnamed hsound.normal, gained_gainAll _ _ _ _ _⟩

/-- A repository with a directory that two modules claim in part, a link that leads up, a file that
is a root of its own, and a directory that is passed over. -/
def sampleTree : Tree where
  entries :=
    [(["r"], .directory), (["r", "web"], .directory),
      (["r", "web", "b.js"], .file "import './a.js'".toUTF8.toList),
      (["r", "web", "a.js"], .file "// todo".toUTF8.toList),
      (["r", "web", "up"], .link ".."),
      (["r", "web", "core"], .directory),
      (["r", "web", "core", "c.js"], .file []),
      (["r", "web", ".cache"], .directory),
      (["r", "web", ".cache", "d.js"], .file [])]
  distinct := by decide

/-- In a tree with a link upwards, a directory that is passed over and a module inside another, the
files that are read are the ones they should be. -/
theorem walk_sampleTree_reads :
    sampleTree.WellNamed ∧
    let registry := (Registry.empty []).replay
      [.ensure { id := "web", roots := ["/r/web", "/r/web/a.js", "/r/gone"] },
        .ensure { id := "core", roots := ["/r/web/core"] }]
    ∃ (walked : Registry) (after : Record → Record) (reads : Record → List Reading),
      (walk sampleTree { root := "/r" } registry).outcome
        = .ok (walked, (registry.records.map fun record => (reads record).length).sum) ∧
      walked.declared = registry.declared ∧
      walked.records = registry.records.map after ∧
      ∀ record ∈ registry.records,
        ReadsExactly sampleTree { root := "/r" } registry.rootOwners record (reads record) ∧
        Gained sampleTree { root := "/r" } registry record (after record) (reads record) := by
  have hnamed : sampleTree.WellNamed := by decide +kernel
  exact ⟨hnamed, walk_replay_reads sampleTree hnamed { root := "/r" } [] _⟩

end RepoAtlas.Survey
