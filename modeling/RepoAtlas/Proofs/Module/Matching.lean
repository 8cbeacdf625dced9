import RepoAtlas.Graph
import RepoAtlas.Proofs.Agreement
import RepoAtlas.Proofs.Module.History

/-!
# `RepoAtlas.Proofs.Module.Matching`: the same modules under other paths

Records hold paths, but only ever compare them. So if paths are replaced by others, one for one,
everything that a registry goes through leads to the same records again, with the other paths in
them. `IsMatching` says what a relation between paths must be for that; `Record.Matches` and
`Registry.Matches` lift it to records and registries.

* `Registry.Matches.ensure`, `.mergeOne`, `.applyLink`: each change of a registry keeps them
  matched.
* `Registry.Matches.lookup_rootOwners`, `.map_id_findOwner`: matched registries have the same
  owners.
* `Registry.Matches.build_eq`: if matched paths are shown alike, the graph is the same.
-/

set_option autoImplicit false

namespace RepoAtlas

open RepoAtlas.Module

/-- A relation that matches paths one for one, also in their normal forms. -/
structure IsMatching (Same : String → String → Prop) : Prop where
  eq_iff : ∀ {a a' b b'}, Same a a' → Same b b' → (a = b ↔ a' = b')
  normalize : ∀ {a a'}, Same a a' → Same (Path.normalize a) (Path.normalize a')

/-- Every path may stand for itself. -/
theorem isMatching_eq : IsMatching Eq where
  eq_iff := by
    rintro a _ b _ rfl rfl
    rfl
  normalize := congrArg Path.normalize

variable {Same : String → String → Prop}

/-! ### Sets and tables -/

namespace IsMatching

variable (matching : IsMatching Same)

include matching

/-- A matched path is in a list if its partner is in the matched list. -/
theorem mem_iff {paths paths' : List String} (h : List.Forall₂ Same paths paths') {a a' : String}
    (ha : Same a a') : a ∈ paths ↔ a' ∈ paths' := by
  induction h with
  | nil => exact iff_of_false List.not_mem_nil List.not_mem_nil
  | cons hb _ ih => rw [List.mem_cons, List.mem_cons, ih, matching.eq_iff ha hb]

/-- So a set gains a path where the matched set gains its partner, and at the same place. -/
theorem insert {set set' : OrderedSet String} (h : List.Forall₂ Same set.toList set'.toList)
    {a a' : String} (ha : Same a a') :
    List.Forall₂ Same (set.insert a).toList (set'.insert a').toList := by
  rw [OrderedSet.toList_insert, OrderedSet.toList_insert]
  by_cases hmem : a ∈ set.toList
  · rw [if_pos hmem, if_pos ((matching.mem_iff h ha).mp hmem)]
    exact h
  · rw [if_neg hmem, if_neg (mt (matching.mem_iff h ha).mpr hmem)]
    exact List.rel_append h (.cons ha .nil)

/-- The same for paths one after the other. -/
theorem insertMany {set set' : OrderedSet String} (h : List.Forall₂ Same set.toList set'.toList)
    {paths paths' : List String} (hpaths : List.Forall₂ Same paths paths') :
    List.Forall₂ Same (set.insertMany paths).toList (set'.insertMany paths').toList := by
  induction hpaths generalizing set set' with
  | nil => exact h
  | cons ha _ ih => exact ih (matching.insert h ha)

/-- Normal forms of matched paths are matched. -/
theorem map_normalize {paths paths' : List String} (h : List.Forall₂ Same paths paths') :
    List.Forall₂ Same (paths.map Path.normalize) (paths'.map Path.normalize) :=
  List.rel_map (fun _ _ ha => matching.normalize ha) h

/-- Matched keys with the same values find the same value. -/
theorem lookup_eq {table table' : List (String × CodeText)}
    (h : List.Forall₂ (fun pair pair' => Same pair.1 pair'.1 ∧ pair.2 = pair'.2) table table')
    {a a' : String} (ha : Same a a') : table.lookup a = table'.lookup a' := by
  induction h with
  | nil => rfl
  | @cons pair pair' _ _ hpair _ ih =>
    obtain ⟨key, value⟩ := pair
    obtain ⟨key', value'⟩ := pair'
    obtain ⟨hkey, rfl⟩ := hpair
    rw [Keyed.lookup_cons_eq_ite, Keyed.lookup_cons_eq_ite, ih]
    exact if_congr (matching.eq_iff ha hkey) rfl rfl

end IsMatching

namespace Module

/-! ### Records -/

/-- Records that differ in their paths at most, and there in matched ones. -/
structure Record.Matches (Same : String → String → Prop) (record record' : Record) : Prop where
  rest : record' = { record with roots := record'.roots, hints := record'.hints }
  roots : List.Forall₂ Same record.roots.toList record'.roots.toList
  hints : List.Forall₂ Same record.hints.toList record'.hints.toList

/-- Contributions that differ in matched roots at most. -/
structure Contribution.Matches (Same : String → String → Prop) (c c' : Contribution) : Prop where
  rest : c' = { c with roots := c'.roots }
  roots : List.Forall₂ Same c.roots c'.roots

/-- Manual modules that differ in matched roots at most. -/
structure ManualModule.Matches (Same : String → String → Prop) (m m' : ManualModule) : Prop where
  rest : m' = { m with roots := m'.roots }
  roots : List.Forall₂ Same m.roots m'.roots

/-- Matched contributions are to one module. -/
theorem Contribution.Matches.id_eq {c c' : Contribution} (h : c.Matches Same c') :
    c'.id = c.id := by
  rw [h.rest]

/-- Matched manual modules have one identifier. -/
theorem ManualModule.Matches.id_eq {m m' : ManualModule} (h : m.Matches Same m') :
    m'.id = m.id := by
  rw [h.rest]

/-- What matched manual modules contribute is matched. -/
theorem ManualModule.Matches.contribution {m m' : ManualModule} (h : m.Matches Same m') :
    m.contribution.Matches Same m'.contribution where
  rest := by rw [h.rest]; rfl
  roots := h.roots

namespace Record.Matches

variable {record record' : Record}

/-- Matched records are of one module. -/
theorem id_eq (h : record.Matches Same record') : record'.id = record.id := by
  rw [h.rest]

/-- They have counted the same. -/
theorem metrics_eq (h : record.Matches Same record') : record'.metrics = record.metrics := by
  rw [h.rest]

/-- They refer to the same packages. -/
theorem packages_eq (h : record.Matches Same record') : record'.packages = record.packages := by
  rw [h.rest]

/-- A change that does not touch paths, and does not look at them. -/
theorem change (h : record.Matches Same record') {f : Record → Record}
    (keeps : ∀ r roots hints, f { r with roots := roots, hints := hints }
      = { f r with roots := roots, hints := hints })
    (hroots : ∀ r, (f r).roots = r.roots) (hhints : ∀ r, (f r).hints = r.hints) :
    (f record).Matches Same (f record') where
  rest := by
    conv => lhs; rw [h.rest, keeps]
    rw [hroots, hhints]
  roots := by
    rw [hroots, hroots]
    exact h.roots
  hints := by
    rw [hhints, hhints]
    exact h.hints

/-- Records that are opened for matched contributions have no paths yet. -/
theorem opened {c c' : Contribution} (h : c.Matches Same c') (declared : List CodeText) :
    (Record.opened c declared).Matches Same (Record.opened c' declared) where
  rest := by rw [h.rest]; rfl
  roots := .nil
  hints := .nil

/-- Taking in a contribution is the one change that looks at paths: roots and hints only gain what
they do not hold yet, which `mem_iff` decides alike. -/
theorem absorb (matching : IsMatching Same) (h : record.Matches Same record') {c c' : Contribution}
    (hc : c.Matches Same c') : (record.absorb c).Matches Same (record'.absorb c') := by
  have hpaths := matching.map_normalize hc.roots
  rw [Record.absorb_eq, Record.absorb_eq]
  refine ⟨?_, matching.insertMany h.roots hpaths, matching.insertMany h.hints hpaths⟩
  -- Beside the paths the record only gains what the contribution says of source and hand.
  rw [h.rest, hc.rest]

/-- Dependencies are identifiers, so they are gained alike. -/
theorem addDependency (h : record.Matches Same record') (id : CodeText) :
    (record.addDependency id).Matches Same (record'.addDependency id) :=
  h.change (f := (Record.addDependency · id)) (fun _ _ _ => rfl) (fun _ => rfl) fun _ => rfl

/-- A manual module is merged without a look at the paths of the record. -/
theorem merge (h : record.Matches Same record') {m m' : ManualModule} (hm : m.Matches Same m') :
    (record.merge m).Matches Same (record'.merge m') := by
  have hsame : record'.merge m' = record'.merge m := by
    rw [hm.rest]
    rfl
  rw [hsame]
  refine h.change (f := (Record.merge · m)) (fun r _ _ => ?_) (fun r => ?_) fun r => ?_
  · rw [Record.merge_eq, Record.merge_eq]
  · rw [Record.merge_eq]
  · rw [Record.merge_eq]

/-- Reading a file adds to a record without a look at its paths. -/
theorem addReport (h : record.Matches Same record') (file : Survey.FileReport) :
    (Survey.addReport record file).Matches Same (Survey.addReport record' file) := by
  refine h.change (f := (Survey.addReport · file)) (fun r _ _ => ?_) (fun r => ?_) fun r => ?_
  · rw [Record.addReport_eq, Record.addReport_eq]
  · rw [Record.addReport_eq]
  · rw [Record.addReport_eq]

end Record.Matches

/-! ### Registries -/

/-- Registries whose records match, one by one. -/
structure Registry.Matches (Same : String → String → Prop) (registry registry' : Registry) :
    Prop where
  declared : registry'.declared = registry.declared
  records : List.Forall₂ (Record.Matches Same) registry.records registry'.records

namespace Registry.Matches

variable {registry registry' : Registry}

/-- Empty registries are matched. -/
theorem empty (declared : List CodeText) :
    (Registry.empty declared).Matches Same (Registry.empty declared) :=
  ⟨rfl, .nil⟩

/-- Matched registries have the same modules in the same order. -/
theorem ids_eq (h : registry.Matches Same registry') : registry'.ids = registry.ids :=
  (map_eq_map_of_forall₂ (fun _ _ hr => hr.id_eq.symm) h.records).symm

/-- Matched changes of all records keep registries matched. -/
theorem transform (h : registry.Matches Same registry') {f f' : Record → Record}
    (hf : ∀ r r', r.Matches Same r' → (f r).Matches Same (f' r')) :
    (registry.transform f).Matches Same (registry'.transform f') where
  declared := h.declared
  records := by
    refine List.rel_map (fun r r' hr => ?_) h.records
    have hchanged := hf r r' hr
    -- Identifiers are put back after a change, on both sides the same.
    refine ⟨?_, hchanged.roots, hchanged.hints⟩
    show ({ f' r' with id := r'.id } : Record) = _
    conv => lhs; rw [hchanged.rest, hr.id_eq]

/-- So do matched changes of one record. -/
theorem update (h : registry.Matches Same registry') (id : CodeText) {f f' : Record → Record}
    (hf : ∀ r r', r.Matches Same r' → (f r).Matches Same (f' r')) :
    (registry.update id f).Matches Same (registry'.update id f') := by
  refine h.transform fun r r' hr => ?_
  rw [hr.id_eq]
  split
  · exact hf r r' hr
  · exact hr

/-- So do matched records that are added. -/
theorem append (h : registry.Matches Same registry') {r r' : Record} (hr : r.Matches Same r')
    (fresh : r.id ∉ registry.ids) (nonempty : r.id ≠ "") (fresh' : r'.id ∉ registry'.ids)
    (nonempty' : r'.id ≠ "") :
    (registry.append r fresh nonempty).Matches Same (registry'.append r' fresh' nonempty') :=
  ⟨h.declared, List.rel_append h.records (.cons hr .nil)⟩

/-- Registering matched contributions keeps registries matched: a module is new to both or to
neither. -/
theorem ensure (matching : IsMatching Same) (h : registry.Matches Same registry')
    {c c' : Contribution} (hc : c.Matches Same c') :
    (registry.ensure c).Matches Same (registry'.ensure c') := by
  unfold Registry.ensure
  by_cases hid : c.id = ""
  · rw [dif_pos hid, dif_pos (hc.id_eq.trans hid)]
    exact h
  · have hid' : c'.id ≠ "" := fun heq => hid (hc.id_eq.symm.trans heq)
    rw [dif_neg hid, dif_neg hid']
    simp only [hc.id_eq]
    refine update ?_ c.id fun r r' hr => hr.absorb matching hc
    -- The module that is opened, if there is none yet, is matched itself.
    by_cases hknown : c.id ∈ registry.ids
    · have hknown' : c.id ∈ registry'.ids := h.ids_eq ▸ hknown
      simp only [hknown, hknown', dif_pos]
      exact h
    · have hfresh' : c.id ∉ registry'.ids := h.ids_eq ▸ hknown
      simp only [hknown, hfresh', dif_neg, not_false_eq_true]
      exact h.append (h.declared ▸ Record.Matches.opened hc registry.declared) _ _ _ _

/-- The same for contributions one after the other. -/
theorem ensureAll (matching : IsMatching Same) (h : registry.Matches Same registry')
    {contributions contributions' : List Contribution}
    (hall : List.Forall₂ (Contribution.Matches Same) contributions contributions') :
    (registry.ensureAll contributions).Matches Same (registry'.ensureAll contributions') := by
  induction hall generalizing registry registry' with
  | nil => exact h
  | cons hc _ ih => exact ih (h.ensure matching hc)

/-- Merging matched manual modules keeps registries matched. -/
theorem mergeOne (matching : IsMatching Same) (h : registry.Matches Same registry')
    {m m' : ManualModule} (hm : m.Matches Same m') :
    (registry.mergeOne m).Matches Same (registry'.mergeOne m') := by
  unfold Registry.mergeOne
  rw [hm.id_eq]
  exact (h.ensure matching hm.contribution).update m.id fun r r' hr => hr.merge hm

/-- The same for manual modules one after the other. -/
theorem mergeManual (matching : IsMatching Same) (h : registry.Matches Same registry')
    {modules modules' : List ManualModule}
    (hall : List.Forall₂ (ManualModule.Matches Same) modules modules') :
    (registry.mergeManual modules).Matches Same (registry'.mergeManual modules') := by
  induction hall generalizing registry registry' with
  | nil => exact h
  | cons hm _ ih => exact ih (h.mergeOne matching hm)

/-- A link asks for identifiers only. -/
theorem applyLink (h : registry.Matches Same registry') (link : Link) :
    (registry.applyLink link).Matches Same (registry'.applyLink link) := by
  have hcontains : ∀ id, registry'.contains id = registry.contains id := fun id =>
    congrArg (List.contains · id) h.ids_eq
  unfold Registry.applyLink
  rw [hcontains, hcontains]
  split
  · exact h.update link.source fun r r' hr => hr.addDependency link.target
  · exact h

/-- The same for links one after the other. -/
theorem applyLinks (h : registry.Matches Same registry') (links : List Link) :
    (registry.applyLinks links).Matches Same (registry'.applyLinks links) := by
  induction links generalizing registry registry' with
  | nil => exact h
  | cons link rest ih => exact ih (h.applyLink link)

/-- With every path its own partner, matched registries are the same. -/
theorem eq_of_eq (h : registry.Matches Eq registry') : registry = registry' := by
  -- A set is its list: that it has no repetitions is a proof.
  have hset : ∀ {set set' : OrderedSet String}, List.Forall₂ Eq set.toList set'.toList →
      set = set' := by
    rintro ⟨values, _⟩ ⟨values', _⟩ heq
    simp only [List.forall₂_eq_eq_eq] at heq
    subst heq
    rfl
  have hrecords : registry.records = registry'.records := by
    rw [← List.forall₂_eq_eq_eq]
    refine h.records.imp fun r r' hr => ?_
    rw [hr.rest, ← hset hr.roots, ← hset hr.hints]
  exact eq_of_records h.declared.symm hrecords

/-! ### Owners -/

/-- Matched roots have the same owner. -/
theorem lookup_rootOwners (matching : IsMatching Same) (h : registry.Matches Same registry')
    {path path' : String} (hpath : Same path path') :
    registry.rootOwners.lookup path = registry'.rootOwners.lookup path' := by
  unfold Registry.rootOwners
  rw [Keyed.lookup_setMany, Keyed.lookup_setMany]
  -- Later entries win, on both sides in the same order.
  refine matching.lookup_eq (List.rel_reverse (List.rel_flatMap h.records fun r r' hr => ?_)) hpath
  exact List.rel_map (fun root root' hroot => ⟨hroot, hr.id_eq.symm⟩) hr.roots

/-- Paths that lie under matched roots alike. -/
def LieAlike (Same : String → String → Prop) (path path' : String) : Prop :=
  ∀ root root', Same root root' →
    Path.isWithin (Path.normalize path) root = Path.isWithin (Path.normalize path') root'

/-- Paths that lie under matched roots alike have the same owner. -/
theorem map_id_findOwner (h : registry.Matches Same registry') {path path' : String}
    (halike : LieAlike Same path path') :
    (registry.findOwner path).map Record.id = (registry'.findOwner path').map Record.id := by
  unfold Registry.findOwner
  have hrecords := h.records
  -- The search stops at the same place of both lists, so the induction is on both at once.
  generalize registry.records = records at hrecords
  generalize registry'.records = records' at hrecords
  induction hrecords with
  | nil => rfl
  | @cons r r' rest rest' hr _ ih =>
    have hany := any_eq_any_of_forall₂ hr.roots halike
    rw [List.find?_cons, List.find?_cons, hany]
    split
    · exact congrArg some hr.id_eq.symm
    · exact ih

/-! ### The graph -/

/-- If matched paths are shown alike from their roots, matched records make the same graph. -/
theorem build_eq (h : registry.Matches Same registry') {root root' : String}
    (hshown : ∀ path path', Same path path' → Path.hint? path root = Path.hint? path' root') :
    Graph.build registry.records root = Graph.build registry'.records root' := by
  unfold Graph.build
  rw [mapM_eq_mapM_of_forall₂ h.records fun r r' hr => ?_]
  -- The roots of a record show nowhere, and its hints only as they are seen from the root.
  have hhints : Graph.shownHints r root = Graph.shownHints r' root' := by
    unfold Graph.shownHints
    rw [mapM_eq_mapM_of_forall₂ hr.hints fun path path' hpath => by rw [hshown path path' hpath]]
  unfold Graph.finish
  rw [hhints, hr.rest]

end Registry.Matches

end Module

end RepoAtlas
