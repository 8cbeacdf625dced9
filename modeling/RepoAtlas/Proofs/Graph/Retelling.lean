import RepoAtlas.Proofs.Graph.WellFormed
import RepoAtlas.Proofs.Module.Retelling
import RepoAtlas.Proofs.Score

/-!
# `RepoAtlas.Proofs.Graph.Retelling`: what the text of one file adds to a graph

The graphs of two walks that find the same files, one of them with another text, list the same
modules in the same order. A module differs only if it was read for it, and then in its lines, its
markers of debt and its health, and in what the texts refer to. With texts that refer to the same
things, the edges are the same, and of the totals only that of lines differs.

* `exists_finish_of_retold`: the records of the one walk are finished like those of the other.
* `build_retold`: hence there is a graph for the one if there is one for the other.
* `Retold.eq_of_same`: with the same text it is the same graph.
-/

set_option autoImplicit false

namespace RepoAtlas

open RepoAtlas.Module
open RepoAtlas.Source (references countLines countDebtMarkers difference)

/-- Modules of walks that a number of times found one text, or another one in its place. -/
structure FinishedModule.Retold (old new : List Char) (times : Nat) (m m' : FinishedModule) :
    Prop where
  /-- Nothing else differs. -/
  rest : m' = { m with
    metrics := { m.metrics with
      lines := m'.metrics.lines
      debt := m'.metrics.debt }
    health := m'.health
    dependencies := m'.dependencies
    packages := m'.packages }
  lines : m'.metrics.lines = m.metrics.lines + times * difference countLines old new
  debt : m'.metrics.debt = m.metrics.debt + times * difference countDebtMarkers old new
  health : Score.health m'.metrics.debt m'.packages.length m'.coverage = .ok m'.health
  /-- Texts that refer to the same things bring the same references. -/
  references : times = 0 ∨ references old = references new →
    m'.dependencies = m.dependencies ∧ m'.packages = m.packages
  same : times = 0 ∨ old = new → m' = m

namespace Graph

/-- Graphs of walks that found one text, or another one in its place, for each module as often as
`times` says. -/
structure Retold (old new : List Char) (times : CodeText → Nat) (graph graph' : Graph) : Prop where
  modules : List.Forall₂ (fun m m' => m.Retold old new (times m.id) m') graph.modules graph'.modules
  /-- Unless the texts refer to other things, the edges are the same. -/
  edges : (∀ m ∈ graph.modules, times m.id = 0 ∨ references old = references new) →
    graph'.edges = graph.edges
  summary : (∀ m ∈ graph.modules, times m.id = 0 ∨ references old = references new) →
    graph'.summary = { graph.summary with
      lines := graph.summary.lines
        + ((graph.modules.map fun m => times m.id).sum : Nat) * difference countLines old new }

/-- Whether the modules of a graph have scores also with another text. -/
def Affords (graph : Graph) (old new : List Char) (times : CodeText → Nat) : Prop :=
  ∀ m ∈ graph.modules, times m.id ≠ 0 →
    |m.metrics.debt + times m.id * difference countDebtMarkers old new| ≤ 2 ^ 200 ∧
      m.packages.length + (references new).packages.size ≤ 2 ^ 200

instance (graph : Graph) (old new : List Char) (times : CodeText → Nat) :
    Decidable (graph.Affords old new times) :=
  inferInstanceAs (Decidable (∀ m ∈ graph.modules, _))

/-! ### One record -/

section

variable {old new : List Char} {times : Nat} {root : String} {record record' : Record}
  {m m' : FinishedModule}

/-- A file brings no more packages than it names. -/
theorem size_packages_le (h : record.Retold old new times record') :
    record'.packages.size ≤ record.packages.size + (references new).packages.size := by
  have hsize : (references new).packages.size
      = ((references new).packages.toList.map CodeText.ofString).length := List.length_map _ |>.symm
  rw [hsize]
  unfold OrderedSet.size
  rw [← List.length_append]
  refine (List.Nodup.subperm record'.packages.nodup fun name hname => ?_).length_le
  rw [List.mem_append]
  exact h.packages name hname

/-- The record of the other walk is finished like that of the one. -/
theorem exists_finish_of_retold (h : record.Retold old new times record')
    (hfinish : finish record root = .ok m)
    (haffords : times ≠ 0 →
      |m.metrics.debt + times * difference countDebtMarkers old new| ≤ 2 ^ 200 ∧
      m.packages.length + (references new).packages.size ≤ 2 ^ 200) :
    ∃ m', finish record' root = .ok m' ∧ m.Retold old new times m' := by
  have hsame : times = 0 ∨ old = new → record' = record := h.eq_of_same
  obtain ⟨coverage, hcoverage, hfinish⟩ := bind_eq_ok_iff.mp hfinish
  obtain ⟨health, hhealth, hfinish⟩ := bind_eq_ok_iff.mp hfinish
  obtain ⟨hints, hhints, hfinish⟩ := bind_eq_ok_iff.mp hfinish
  rw [ofScore_eq_ok_iff] at hcoverage hhealth
  cases hfinish
  -- Only the markers of debt and the packages have a part in the other health.
  obtain ⟨health', hhealth'⟩ : ∃ health',
      Score.health record'.metrics.debt record'.packages.size coverage = .ok health' := by
    by_cases hread : times = 0
    · rw [hsame (Or.inl hread)]
      exact ⟨health, hhealth⟩
    · obtain ⟨hdebt, hpackages⟩ := haffords hread
      rw [h.debt]
      refine Score.exists_health hdebt (Int.natCast_nonneg _) ?_ (Score.coverage_mem hcoverage).1
      exact_mod_cast (size_packages_le h).trans hpackages
  have hcoverage' : Score.coverage record'.metrics.files record'.metrics.tests = .ok coverage := by
    rw [h.rest]
    exact hcoverage
  have hhints' : shownHints record' root = .ok hints := by
    rw [h.rest]
    exact hhints
  refine ⟨_, bind_eq_ok_iff.mpr ⟨coverage, ofScore_eq_ok_iff.mpr hcoverage', bind_eq_ok_iff.mpr
    ⟨health', ofScore_eq_ok_iff.mpr hhealth', bind_eq_ok_iff.mpr ⟨hints, hhints', rfl⟩⟩⟩, ?_⟩
  exact {
    rest := by
      conv => lhs; rw [h.rest]
    lines := h.lines
    debt := h.debt
    health := hhealth'
    references := fun heq => by
      obtain ⟨hdependencies, hpackages⟩ := h.references heq
      exact ⟨congrArg OrderedSet.toList hdependencies, congrArg OrderedSet.toList hpackages⟩
    same := fun heq => by
      have hrecord := hsame heq
      subst hrecord
      cases hhealth.symm.trans hhealth'
      rfl }

end

/-! ### All records -/

section

variable {old new : List Char} {times : CodeText → Nat}

/-- A file that is read for a module makes it one that carries something. -/
theorem isReportable_of_counted {m : FinishedModule} (h : m.manual = true ∨ 0 < m.metrics.files) :
    isReportable m = true := by
  unfold isReportable
  rcases h with h | h <;> simp [h]

/-- What two modules differ in is no reason to list only one of them. -/
theorem isReportable_eq_of_retold {n : Nat} {m m' : FinishedModule} (h : m.Retold old new n m')
    (hread : n ≠ 0 → m.manual = true ∨ 0 < m.metrics.files) : isReportable m' = isReportable m := by
  by_cases hn : n = 0
  · rw [h.same (Or.inl hn)]
  · have hread' : m'.manual = true ∨ 0 < m'.metrics.files := by
      rw [h.rest]
      exact hread hn
    rw [isReportable_of_counted (hread hn), isReportable_of_counted hread']

/-- Dropping dependencies that are not listed keeps modules told alike. -/
theorem prune_retold {n : Nat} {m m' : FinishedModule} (h : m.Retold old new n m')
    (listed : List CodeText) : (prune listed m).Retold old new n (prune listed m') where
  rest := by
    conv => lhs; rw [h.rest]
    conv => rhs; rw [h.rest]
    rfl
  lines := h.lines
  debt := h.debt
  health := h.health
  references heq := by
    -- The dependency on the module itself is dropped on both sides, since the id is the same.
    have hid : m'.id = m.id := by rw [h.rest]
    obtain ⟨hdependencies, hpackages⟩ := h.references heq
    refine ⟨?_, hpackages⟩
    unfold prune
    rw [hdependencies, hid]
  same heq := by rw [h.same heq]

/-- A module that is told something else has the same id. -/
theorem id_eq_of_retold {n : Nat} {m m' : FinishedModule} (h : m.Retold old new n m') :
    m'.id = m.id := by
  rw [h.rest]

/-- The summary of modules that are told something else differs in the lines only. -/
theorem summarize_eq_of_retold {modules modules' : List FinishedModule}
    (h : List.Forall₂ (fun m m' => m.Retold old new (times m.id) m') modules modules')
    (hsame : ∀ m ∈ modules, times m.id = 0 ∨ references old = references new) :
    summarize modules' = { summarize modules with
      lines := (summarize modules).lines
        + ((modules.map fun m => times m.id).sum : Nat) * difference countLines old new } := by
  have hall := (List.forall₂_and_left _ _).mpr ⟨hsame, h⟩
  -- A field that goes by dependencies and packages is counted alike.
  have hcount : ∀ field : FinishedModule → Nat,
      (∀ m m', m'.dependencies = m.dependencies ∧ m'.packages = m.packages → field m = field m') →
      modules'.foldl (fun total m => total + field m) 0
        = modules.foldl (fun total m => total + field m) 0 := by
    intro field hfield
    rw [← @List.foldl_map _ _ _ field (· + ·) modules',
      ← map_eq_map_of_forall₂ (fun m m' hm => hfield m m' (hm.2.references hm.1)) hall,
      List.foldl_map]
  -- The lines differ by what each module reads more, times what one reading makes.
  have hlines : (summarize modules').lines = (summarize modules).lines
      + ((modules.map fun m => times m.id).sum : Nat) * difference countLines old new := by
    unfold summarize
    simp only
    rw [← @List.foldl_map _ _ _ (·.metrics.lines) (· + ·) modules',
      ← @List.foldl_map _ _ _ (·.metrics.lines) (· + ·) modules, ← List.sum_eq_foldl,
      ← List.sum_eq_foldl]
    clear hall hcount hsame
    induction h with
    | nil => simp
    | cons hm _ ih =>
      simp only [List.map_cons, List.sum_cons, ih, hm.lines]
      push_cast
      ring
  rw [← hlines]
  unfold summarize
  rw [hcount _ fun m m' hm => by rw [hm.1], hcount _ fun m m' hm => by rw [hm.2],
    ← List.Forall₂.length_eq h]

/-- Modules of two walks make graphs of two walks. -/
theorem ofModules_retold {finished finished' : List FinishedModule}
    (h : List.Forall₂ (fun m m' => m.Retold old new (times m.id) m') finished finished')
    (hread : ∀ m ∈ finished, times m.id ≠ 0 → m.manual = true ∨ 0 < m.metrics.files) :
    (ofModules finished).Retold old new times (ofModules finished') := by
  -- A module that reads the file has a file, so it is reported on both sides.
  have hreportable : List.Forall₂ (fun m m' => m.Retold old new (times m.id) m')
      (finished.filter isReportable) (finished'.filter isReportable) := by
    refine (List.rel_filter (fun m m' hm => ?_)
      ((List.forall₂_and_left _ _).mpr ⟨hread, h⟩)).imp fun _ _ hm => hm.2
    show isReportable m = true ↔ isReportable m' = true
    rw [isReportable_eq_of_retold hm.2 hm.1]
  have hids : (finished.filter isReportable).map FinishedModule.id
      = (finished'.filter isReportable).map FinishedModule.id := by
    refine map_eq_map_of_forall₂ (fun m m' hm => ?_) hreportable
    exact (id_eq_of_retold hm).symm
  have hmodules : List.Forall₂ (fun m m' => m.Retold old new (times m.id) m')
      (ofModules finished).modules (ofModules finished').modules := by
    unfold ofModules
    simp only [← hids]
    refine List.rel_map (fun m m' hm => ?_) hreportable
    exact prune_retold hm _
  refine { modules := hmodules, edges := fun hsame => ?_,
           summary := fun hsame => summarize_eq_of_retold hmodules hsame }
  show (ofModules finished').modules.flatMap edgesOf = (ofModules finished).modules.flatMap edgesOf
  rw [List.flatMap_def, List.flatMap_def]
  refine congrArg List.flatten (map_eq_map_of_forall₂ (fun m m' hm => ?_)
    ((List.forall₂_and_left _ _).mpr ⟨hsame, hmodules⟩)).symm
  unfold edgesOf
  rw [id_eq_of_retold hm.2, (hm.2.references hm.1).1]

/-- A walk that finds another text has a graph if the one that finds the first has one. -/
theorem build_retold {records records' : List Record} {root : String} {graph : Graph}
    (h : List.Forall₂ (fun record record' => record.Retold old new (times record.id) record')
      records records')
    (sound : ∀ record ∈ records, record.Sound)
    (hread : ∀ record ∈ records, times record.id ≠ 0 →
      record.manual = true ∨ 0 < record.metrics.files)
    (hbuild : build records root = .ok graph) (haffords : graph.Affords old new times) :
    ∃ graph', build records' root = .ok graph' ∧ graph.Retold old new times graph' := by
  obtain ⟨finished, hmap, hgraph⟩ := bind_eq_ok_iff.mp hbuild
  cases hgraph
  have hall := forall₂_finished sound hmap
  have hcounted : ∀ m ∈ finished, times m.id ≠ 0 → m.manual = true ∨ 0 < m.metrics.files := by
    intro m hm
    obtain ⟨record, -, hrecord, hfin⟩ := (exists_of_forall₂ hall).2 m hm
    rw [hfin.id_eq, hfin.manual_eq, hfin.metrics_eq]
    exact hread record hrecord
  -- What the graph affords is asked of the modules that are reported.
  have haffords' : ∀ m ∈ finished, times m.id ≠ 0 →
      |m.metrics.debt + times m.id * difference countDebtMarkers old new| ≤ 2 ^ 200 ∧
        m.packages.length + (references new).packages.size ≤ 2 ^ 200 := by
    intro m hm htimes
    have hlisted := isReportable_of_counted (hcounted m hm htimes)
    exact haffords (prune _ m) (mem_modules_ofModules.mpr ⟨m, hm, hlisted, rfl⟩) htimes
  obtain ⟨finished', hmap', hretold⟩ := exists_mapM_of_forall₂ h (mapM_eq_ok_iff.mp hmap)
    fun record record' m hm hr hfinish => by
      have hid := (finished_of_finish (sound record hm.1) hfinish).id_eq
      rw [← hid] at hr
      exact exists_finish_of_retold hr hfinish (haffords' m hm.2)
  exact ⟨ofModules finished', bind_eq_ok_iff.mpr ⟨finished', hmap', rfl⟩,
    ofModules_retold hretold hcounted⟩

/-- With the same text, or none that is read, it is the same graph. -/
theorem Retold.eq_of_same {graph graph' : Graph} (h : graph.Retold old new times graph')
    (hsame : ∀ m ∈ graph.modules, times m.id = 0 ∨ old = new) : graph' = graph := by
  have hmodules : graph'.modules = graph.modules := by
    have hequal := ((List.forall₂_and_left _ _).mpr ⟨hsame, h.modules⟩).imp
      fun m m' hm => (hm.2.same hm.1).symm
    rw [List.forall₂_eq_eq_eq] at hequal
    exact hequal.symm
  have hreferences : ∀ m ∈ graph.modules, times m.id = 0 ∨ references old = references new :=
    fun m hm => (hsame m hm).imp_right fun heq => by rw [heq]
  have hsummary : graph'.summary = graph.summary := by
    rw [h.summary hreferences]
    -- Either the texts are equal, or no module reads the file at all.
    by_cases heq : old = new
    · rw [heq, difference, sub_self, mul_zero, add_zero]
    · have hnone : graph.modules.map (fun m => times m.id) = graph.modules.map fun _ => 0 :=
        List.map_congr_left fun m hm => (hsame m hm).resolve_right heq
      rw [hnone]
      simp
  exact Graph.mk.injEq .. ▸ ⟨hmodules, h.edges hreferences, hsummary⟩

end

end Graph

end RepoAtlas
