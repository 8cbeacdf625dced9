import RepoAtlas.Source.Metrics
import RepoAtlas.Source.Reference

/-!
# `RepoAtlas.Proofs.Source.Amount`: what a text of a given length can hold

A marker of debt starts at some character, and so does a reference of each form. So neither can be
more frequent than characters are.

* `countDebtMarkers_le`: no more markers of debt than characters.
* `size_packages_le`: at most three packages for each character, one for each form.
-/

set_option autoImplicit false

namespace RepoAtlas.Source

/-- There are no more matches than places in the text. -/
theorem addMatches_le (matchFront : List Char → Option Nat) (total skip : Nat) (text : List Char) :
    addMatches matchFront total skip text ≤ total + text.length := by
  -- Each place counts one match at most.
  induction text generalizing total skip with
  | nil => exact Nat.le_refl _
  | cons c rest ih =>
    rw [List.length_cons]
    cases skip with
    | succ skip =>
      have hrest := ih total skip
      show addMatches matchFront total skip rest ≤ _
      omega
    | zero =>
      unfold addMatches
      split
      · next length _ =>
        have hrest := ih (total + 1) (length - 1)
        omega
      · have hrest := ih total 0
        omega

/-- There are no more markers of debt than characters. -/
theorem countDebtMarkers_le (text : List Char) : countDebtMarkers text ≤ text.length := by
  have h := addMatches_le (matchWord debtWords) 0 0 text
  rwa [Nat.zero_add] at h

/-- A form has no more matches than there are characters to start at. -/
theorem length_scanAfter_le (form : Form) (found : List (List Char)) (skip : Nat)
    (text : List Char) : (form.scanAfter found skip text).length ≤ found.length + text.length := by
  -- Each place adds one match at most.
  induction text generalizing found skip with
  | nil =>
    unfold Form.scanAfter
    exact Nat.le_add_right _ _
  | cons c rest ih =>
    rw [List.length_cons]
    cases skip with
    | succ skip =>
      have hrest := ih found skip
      unfold Form.scanAfter
      omega
    | zero =>
      unfold Form.scanAfter
      split
      · next specifier length _ =>
        have hrest := ih (specifier :: found) (length - 1)
        rw [List.length_cons] at hrest
        omega
      · have hrest := ih found 0
        omega

/-- There are three forms, so no more than three specifiers for each place. -/
theorem length_specifiers_le (text : List Char) : (specifiers text).length ≤ 3 * text.length := by
  have hscan : ∀ form : Form, ((form.scan text).map String.ofList).length ≤ text.length := by
    intro form
    have h := length_scanAfter_le form [] 0 text
    unfold Form.scan
    rw [List.length_map, List.length_reverse]
    simpa using h
  have hfirst := hscan importStatement
  have hsecond := hscan requireCall
  have hthird := hscan dynamicImport
  unfold specifiers forms
  simp only [List.flatMap_cons, List.flatMap_nil, List.append_nil, List.length_append]
  omega

/-- Inserting adds one at most. -/
theorem size_insert_le {α : Type} [DecidableEq α] (set : OrderedSet α) (a : α) :
    (set.insert a).size ≤ set.size + 1 := by
  unfold OrderedSet.size
  rw [OrderedSet.toList_insert]
  split
  · exact Nat.le_succ _
  · exact Nat.le_of_eq List.length_append

/-- A specifier adds one package at most. -/
theorem size_packages_add_le (refs : References) (specifier : String) :
    (refs.add specifier).packages.size ≤ refs.packages.size + 1 := by
  unfold References.add
  split
  · exact Nat.le_succ _
  · split
    · exact Nat.le_succ _
    · exact size_insert_le _ _

/-- A text refers to at most three packages for each character. -/
theorem size_packages_le (text : List Char) :
    (references text).packages.size ≤ 3 * text.length := by
  -- Each specifier adds one package at most.
  have hfold : ∀ (found : List String) (refs : References),
      (found.foldl References.add refs).packages.size ≤ refs.packages.size + found.length := by
    intro found
    induction found with
    | nil => exact fun refs => Nat.le_refl _
    | cons specifier rest ih =>
      intro refs
      have hrest := ih (refs.add specifier)
      have hstep := size_packages_add_le refs specifier
      rw [List.foldl_cons, List.length_cons]
      omega
  have hall := hfold (specifiers text) ⟨.empty, .empty⟩
  have hlength := length_specifiers_le text
  have hempty : (OrderedSet.empty : OrderedSet String).size = 0 := rfl
  unfold references
  dsimp only at hall
  omega

end RepoAtlas.Source
