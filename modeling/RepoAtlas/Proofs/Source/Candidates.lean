import RepoAtlas.Proofs.Path.Staying
import RepoAtlas.Proofs.Tree.Location
import RepoAtlas.Source.Resolution

/-!
# `RepoAtlas.Proofs.Source.Candidates`: what a reference may mean below a location

A relative reference that does not lead above a location means paths below it. Their names are
settled by the names of the file and the reference alone, wherever the location is.

* `base_textOf`: the path that a reference spells, below a location.
* `candidatePaths_textOf`: all paths that it may mean, in order.
-/

set_option autoImplicit false

namespace RepoAtlas.Source

open RepoAtlas.Path (IsName landing stays)
open RepoAtlas.Tree (textOf)

/-- A relative reference is not absolute. -/
theorem isAbsolute_of_isRelative {reference : String} (h : isRelative reference = true) :
    Path.isAbsolute reference = false := by
  unfold isRelative at h
  unfold Path.isAbsolute
  rw [of_decide_eq_true h]
  decide

/-- The names of the paths that a reference may mean, below a location. -/
def candidateNames (front : List String) (last : String) : List (List String) :=
  (front ++ [last]) :: omittedExtensions.map (fun extension => front ++ [last ++ extension]) ++
    indexFiles.map (fun index => front ++ [last, index])

/-- Candidates have proper names. -/
theorem isName_of_mem_candidateNames {front : List String} {last : String}
    (hfront : ∀ n ∈ front, IsName n) (hlast : IsName last) {names : List String}
    (h : names ∈ candidateNames front last) : ∀ n ∈ names, IsName n := by
  have hextensions : ∀ extension ∈ omittedExtensions,
      '/' ∉ extension.toList ∧ 2 ≤ extension.length := by decide
  have hindexes : ∀ index ∈ indexFiles, IsName index := by decide
  unfold candidateNames at h
  rw [List.cons_append, List.mem_cons, List.mem_append, List.mem_map, List.mem_map] at h
  -- The name itself, the name with an extension, or an index file in it.
  rcases h with rfl | ⟨extension, hmem, rfl⟩ | ⟨index, hmem, rfl⟩
  · exact List.forall_mem_append.mpr ⟨hfront, List.forall_mem_singleton.mpr hlast⟩
  · obtain ⟨hslash, hlength⟩ := hextensions extension hmem
    exact List.forall_mem_append.mpr
      ⟨hfront, List.forall_mem_singleton.mpr (hlast.append hslash hlength)⟩
  · refine List.forall_mem_append.mpr ⟨hfront, List.forall_mem_cons.mpr ⟨hlast, ?_⟩⟩
    exact List.forall_mem_singleton.mpr (hindexes index hmem)

/-- No candidate is the top itself. -/
theorem ne_nil_of_mem_candidateNames {front : List String} {last : String} {names : List String}
    (h : names ∈ candidateNames front last) : names ≠ [] := by
  unfold candidateNames at h
  rw [List.cons_append, List.mem_cons, List.mem_append, List.mem_map, List.mem_map] at h
  rcases h with rfl | ⟨extension, -, rfl⟩ | ⟨index, -, rfl⟩ <;>
    exact List.append_ne_nil_of_right_ne_nil _ (List.cons_ne_nil _ _)

section

variable {place directory : List String} {name reference : String}
  (hplace : ∀ n ∈ place, IsName n) (hdirectory : ∀ n ∈ directory, IsName n) (hname : IsName name)
  (hrelative : isRelative reference = true)
  (hstays : stays directory.length (Path.segments reference) = true)

include hplace hdirectory hname hrelative hstays

/-- The path that a reference in a file spells. -/
theorem base_textOf :
    Path.normalize (Path.join (Path.directoryName (textOf (place ++ (directory ++ [name]))))
        reference) = textOf (place ++ landing directory reference) := by
  have hall : ∀ n ∈ place ++ directory, IsName n := List.forall_mem_append.mpr ⟨hplace, hdirectory⟩
  rw [textOf, ← List.append_assoc, Path.directoryName_absolute (Or.inl rfl) hall hname,
    Path.normalize_join_absolute (Or.inl rfl) hall (isAbsolute_of_isRelative hrelative),
    Path.landing_append place directory hstays]
  rfl

/-- The paths that a reference in a file may mean, unless it spells the location itself. -/
theorem candidatePaths_textOf {front : List String} {last : String}
    (hlanding : landing directory reference = front ++ [last]) :
    candidatePaths (textOf (place ++ (directory ++ [name]))) reference
      = (candidateNames front last).map fun names => textOf (place ++ names) := by
  have hproper : ∀ n ∈ front ++ [last], IsName n := fun n hn =>
    Path.isName_of_mem_landing hdirectory (hlanding ▸ hn)
  have hall : ∀ n ∈ place ++ (front ++ [last]), IsName n :=
    List.forall_mem_append.mpr ⟨hplace, hproper⟩
  -- An extension goes to the last name, and an index file becomes a further name.
  have hextend : ∀ extension : String, textOf (place ++ (front ++ [last])) ++ extension
      = textOf (place ++ (front ++ [last ++ extension])) := by
    intro extension
    rw [textOf, textOf, ← List.append_assoc, ← List.append_assoc, Path.absolute_concat,
      Path.absolute_concat, String.append_assoc]
  have hindex : ∀ index ∈ indexFiles, Path.join (textOf (place ++ (front ++ [last]))) index
      = textOf (place ++ (front ++ [last, index])) := by
    have hindexes : ∀ index ∈ indexFiles, IsName index := by decide
    intro index hmem
    rw [Tree.join_textOf hall (hindexes index hmem)]
    simp
  unfold candidatePaths candidateNames
  rw [base_textOf hplace hdirectory hname hrelative hstays, hlanding]
  simp only [List.cons_append, List.map_cons, List.map_append, List.map_map, List.cons.injEq,
    true_and]
  refine congrArg₂ (· ++ ·) (List.map_congr_left fun extension _ => hextend extension)
    (List.map_congr_left fun index hmem => hindex index hmem)

end

end RepoAtlas.Source
