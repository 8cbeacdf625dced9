import Mathlib.Tactic.Ring
import RepoAtlas.Proofs.Survey.Reading

/-!
# `RepoAtlas.Proofs.Module.Retelling`: what the text of one file adds to a module

Two walks that find the same files, one of them with another text, read the same records but for
what this text adds. How much that is depends on how often the walk of a module comes across the
file: links lead to a file by several paths. `Record.Retold` says so for a record, and is kept by
each report that is taken in and by each link, so it holds at the end of the walk and after it.

* `Record.Retold.addReport`, `Record.Retold.addReport_retold`: one lemma for each way a report is
  taken in.
* `Record.Retold.eq_of_same`: a file with the same text, and one that is not read, changes nothing.
* `Registry.Retold.applyLinks`: links are added to both alike.
-/

set_option autoImplicit false

namespace RepoAtlas

open RepoAtlas.Module
open RepoAtlas.Source (references countLines countDebtMarkers)
open RepoAtlas.Survey (FileReport addReport)

/-- What a text adds to a counter more than another one. -/
def Source.difference (count : List Char → Nat) (old new : List Char) : Int :=
  (count new : Int) - count old

/-- Reports about a file with one text and with another one. -/
structure Survey.FileReport.Retold (old new : List Char) (file file' : FileReport) : Prop where
  lines : file.lines = countLines old ∧ file'.lines = countLines new
  debt : file.debt = countDebtMarkers old ∧ file'.debt = countDebtMarkers new
  isTest : file'.isTest = file.isTest
  references : references old = references new → file'.targets = file.targets
  packages : file.packages = (Source.references old).packages.toList.map .ofString ∧
    file'.packages = (Source.references new).packages.toList.map .ofString

namespace Module

/-- Records of walks that a number of times found one text, or another one in its place. -/
structure Record.Retold (old new : List Char) (times : Nat) (record record' : Record) : Prop where
  /-- Nothing else differs. -/
  rest : record' = { record with
    metrics := { record.metrics with
      lines := record'.metrics.lines
      debt := record'.metrics.debt }
    dependencies := record'.dependencies
    packages := record'.packages }
  lines : record'.metrics.lines
    = record.metrics.lines + times * Source.difference countLines old new
  debt : record'.metrics.debt
    = record.metrics.debt + times * Source.difference countDebtMarkers old new
  /-- Texts that refer to the same things bring the same references. -/
  references : times = 0 ∨ references old = references new →
    record'.dependencies = record.dependencies ∧ record'.packages = record.packages
  packages : ∀ name ∈ record'.packages,
    name ∈ record.packages ∨ name ∈ (Source.references new).packages.toList.map .ofString

namespace Record.Retold

variable {old new : List Char} {times : Nat} {record record' : Record}

/-- A file that is not read tells a record nothing. -/
theorem refl (old new : List Char) (record : Record) : Retold old new 0 record record where
  rest := rfl
  lines := by simp
  debt := by simp
  references _ := ⟨rfl, rfl⟩
  packages _ h := Or.inl h

/-- A file that was not read leaves no trace, and neither does one that says the same. -/
theorem eq_of_same (h : Retold old new times record record') (hsame : times = 0 ∨ old = new) :
    record' = record := by
  -- No reading, or no difference between the texts.
  have hzero : ∀ count : List Char → Nat, (times : Int) * Source.difference count old new = 0 := by
    intro count
    rcases hsame with rfl | rfl
    · simp
    · simp [Source.difference]
  obtain ⟨hdependencies, hpackages⟩ :=
    h.references (hsame.imp_right fun heq => by rw [heq])
  have hlines := h.lines
  have hdebt := h.debt
  rw [hzero, add_zero] at hlines hdebt
  rw [h.rest, hlines, hdebt, hdependencies, hpackages]

/-- Another file is read in both walks. -/
theorem addReport (h : Retold old new times record record') (file : FileReport) :
    Retold old new times (Survey.addReport record file) (Survey.addReport record' file) := by
  rw [Record.addReport_eq, Record.addReport_eq]
  -- The same report on both sides, so each field differs as much as before.
  refine { rest := ?_, lines := ?_, debt := ?_, references := ?_, packages := ?_ }
  · conv => lhs; rw [h.rest]
  · show record'.metrics.lines + (file.lines : Int) = record.metrics.lines + file.lines + _
    rw [h.lines, add_right_comm]
  · show record'.metrics.debt + (file.debt : Int) = record.metrics.debt + file.debt + _
    rw [h.debt, add_right_comm]
  · intro hsame
    obtain ⟨hdependencies, hpackages⟩ := h.references hsame
    exact ⟨congrArg (OrderedSet.insertMany · file.targets) hdependencies,
      congrArg (OrderedSet.insertMany · file.packages) hpackages⟩
  · intro name hname
    rcases OrderedSet.mem_insertMany.mp hname with hname | hname
    · exact (h.packages name hname).imp_left fun hold => OrderedSet.mem_insertMany.mpr (Or.inl hold)
    · exact Or.inl (OrderedSet.mem_insertMany.mpr (Or.inr hname))

/-- The file is read once more. -/
theorem addReport_retold (h : Retold old new times record record') {file file' : FileReport}
    (hfile : file.Retold old new file') :
    Retold old new (times + 1) (Survey.addReport record file) (Survey.addReport record' file') := by
  -- One more reading adds the difference of the two texts once more.
  have hmore : ∀ (count : List Char → Nat) (before : Int),
      before + times * Source.difference count old new + count new
        = before + count old + (times + 1 : Nat) * Source.difference count old new := by
    intro count before
    unfold Source.difference
    push_cast
    ring
  rw [Record.addReport_eq, Record.addReport_eq]
  refine { rest := ?_, lines := ?_, debt := ?_, references := ?_, packages := ?_ }
  · conv => lhs; rw [h.rest, hfile.isTest]
  · show record'.metrics.lines + (file'.lines : Int) = record.metrics.lines + file.lines + _
    rw [h.lines, hfile.lines.1, hfile.lines.2, hmore]
  · show record'.metrics.debt + (file'.debt : Int) = record.metrics.debt + file.debt + _
    rw [h.debt, hfile.debt.1, hfile.debt.2, hmore]
  · intro hsame
    have hreferences := hsame.resolve_left (Nat.succ_ne_zero times)
    obtain ⟨hdependencies, hpackages⟩ := h.references (Or.inr hreferences)
    show record'.dependencies.insertMany file'.targets
        = record.dependencies.insertMany file.targets ∧
      record'.packages.insertMany file'.packages = record.packages.insertMany file.packages
    rw [hdependencies, hpackages, hfile.references hreferences, hfile.packages.1, hfile.packages.2,
      hreferences]
    exact ⟨rfl, rfl⟩
  · intro name hname
    rcases OrderedSet.mem_insertMany.mp hname with hname | hname
    · exact (h.packages name hname).imp_left fun hold => OrderedSet.mem_insertMany.mpr (Or.inl hold)
    · rw [hfile.packages.2] at hname
      exact Or.inr hname

/-- A record that is told something else has the same id. -/
theorem id_eq (h : Retold old new times record record') : record'.id = record.id := by
  rw [h.rest]

/-- A dependency is added to both records. -/
theorem addDependency (h : Retold old new times record record') (id : CodeText) :
    Retold old new times (record.addDependency id) (record'.addDependency id) where
  rest := by
    conv => lhs; rw [h.rest]
    rfl
  lines := h.lines
  debt := h.debt
  references hsame := by
    obtain ⟨hdependencies, hpackages⟩ := h.references hsame
    exact ⟨congrArg (OrderedSet.insert · id) hdependencies, hpackages⟩
  packages := h.packages

end Record.Retold

/-- Registries whose records were read with one text or another one, each as often as `times` says.
-/
def Registry.Retold (old new : List Char) (times : CodeText → Nat) (registry registry' : Registry) :
    Prop :=
  List.Forall₂ (fun record record' => record.Retold old new (times record.id) record')
    registry.records registry'.records

namespace Registry.Retold

variable {old new : List Char} {times : CodeText → Nat} {registry registry' : Registry}

/-- Registries that are told differently have the same ids. -/
theorem ids_eq (h : registry.Retold old new times registry') : registry'.ids = registry.ids :=
  (map_eq_map_of_forall₂ (fun _ _ hr => hr.id_eq.symm) h).symm

/-- A link is applied to both registries. -/
theorem applyLink (h : registry.Retold old new times registry') (link : Link) :
    (registry.applyLink link).Retold old new times (registry'.applyLink link) := by
  have hcontains : ∀ id, registry'.contains id = registry.contains id := fun id =>
    congrArg (List.contains · id) h.ids_eq
  -- A link counts by the ids only, which are the same on both sides.
  by_cases hvalid : link.source ≠ link.target ∧ registry.contains link.source = true ∧
      registry.contains link.target = true
  · have hvalid' := hvalid
    rw [← hcontains, ← hcontains] at hvalid'
    unfold Retold
    rw [registry.records_applyLink hvalid, registry'.records_applyLink hvalid']
    refine List.rel_map (fun record record' hr => ?_) h
    rw [hr.id_eq]
    split
    · exact hr.addDependency link.target
    · exact hr
  · unfold Registry.applyLink
    rw [hcontains, hcontains, if_neg hvalid, if_neg hvalid]
    exact h

/-- Links are added to both alike. -/
theorem applyLinks (h : registry.Retold old new times registry') (links : List Link) :
    (registry.applyLinks links).Retold old new times (registry'.applyLinks links) := by
  induction links generalizing registry registry' with
  | nil => exact h
  | cons link rest ih => exact ih (h.applyLink link)

end Registry.Retold

end Module

end RepoAtlas
