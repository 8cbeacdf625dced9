import Mathlib.Data.List.Nodup
import RepoAtlas.Proofs.Agreement
import RepoAtlas.Proofs.Tree.Growth
import RepoAtlas.Tree.Canonical

/-!
# `RepoAtlas.Proofs.Tree.Alike`: trees with the same names, kinds and links

The outline of a tree is all of it but the contents of its files. Lookups only go by the outline: in
trees with the same one, in whatever order their entries come, every path leads to the same place or
fails in the same way, and every directory is listed alike, since listings are sorted and no
directory has a name twice.

* `Alike.locate_eq`, `Alike.canonical_eq`: paths lead to the same places, and have the same
  canonical forms.
* `Alike.find`, `Alike.list`: what is found and listed is of the same kind.
* `sortByName_eq_of_perm`: names that come in any order are sorted the same.
-/

set_option autoImplicit false

namespace RepoAtlas

/-- An entry without the content of a file. -/
def Entry.outline : Entry → Entry
  | .file _ => .file []
  | entry => entry

namespace Tree

/-- Two entries are of the same kind if their outlines are equal. -/
theorem sameKind_iff {entry entry' : Entry} :
    SameKind entry entry' ↔ entry.outline = entry'.outline := by
  constructor
  · intro h
    cases h <;> rfl
  · intro h
    cases entry <;> cases entry' <;> simp only [Entry.outline, reduceCtorEq, Entry.link.injEq] at h
    · exact .same _
    · exact .file _ _
    · rw [h]
      exact .same _

/-- The places of a tree, each with the outline of its entry. -/
def outline (tree : Tree) : List (Place × Entry) :=
  tree.entries.map fun pair => (pair.1, pair.2.outline)

/-- Trees that differ in the contents of files and the order of entries at most. -/
def Alike (tree other : Tree) : Prop :=
  tree.outline.Perm other.outline

instance (tree other : Tree) : Decidable (tree.Alike other) :=
  inferInstanceAs (Decidable (List.Perm _ _))

/-! ### Listings -/

/-- Sorting by name does not look at the entries. -/
theorem insertByName_map (f : Entry → Entry) (item : String × Entry) (items : List (String × Entry)) :
    insertByName (item.1, f item.2) (items.map fun pair => (pair.1, f pair.2))
      = (insertByName item items).map fun pair => (pair.1, f pair.2) := by
  induction items with
  | nil => rfl
  | cons next rest ih =>
    simp only [List.map_cons, insertByName]
    split
    · rfl
    · rw [List.map_cons, ih]

/-- Sorting by name leaves what stands at the names aside. -/
theorem sortByName_map (f : Entry → Entry) (items : List (String × Entry)) :
    sortByName (items.map fun pair => (pair.1, f pair.2))
      = (sortByName items).map fun pair => (pair.1, f pair.2) := by
  induction items with
  | nil => rfl
  | cons item rest ih =>
    show insertByName _ (sortByName (rest.map fun pair => (pair.1, f pair.2))) = _
    rw [ih]
    exact insertByName_map f item _

/-- Different names that come in any order are sorted the same. -/
theorem sortByName_eq_of_perm {items items' : List (String × Entry)} (h : items.Perm items')
    (hnodup : (items.map Prod.fst).Nodup) : sortByName items = sortByName items' := by
  have hperm : (sortByName items).Perm (sortByName items') :=
    ((perm_sortByName items).trans h).trans (perm_sortByName items').symm
  refine List.Perm.eq_of_pairwise ?_ (pairwise_sortByName items) (pairwise_sortByName items') hperm
  intro a b ha hb hle hle'
  -- Two entries with one name are the same entry.
  have ha' : a ∈ items := (perm_sortByName items).mem_iff.mp ha
  have hb' : b ∈ items := h.mem_iff.mpr ((perm_sortByName items').mem_iff.mp hb)
  exact List.inj_on_of_nodup_map hnodup ha' hb' (String.le_antisymm hle hle')

/-- The children of a place in the outline. -/
theorem map_children (tree : Tree) (place : Place) :
    (tree.children place).map (fun pair => (pair.1, pair.2.outline))
      = tree.outline.filterMap (childOf place) := by
  rw [children_eq, outline, List.filterMap_map, List.map_filterMap]
  refine List.filterMap_congr fun pair _ => ?_
  unfold childOf
  simp only [Function.comp_apply]
  cases pair.1.getLast? with
  | none => rfl
  | some name =>
    simp only
    split <;> rfl

namespace Alike

variable {tree other : Tree} (h : tree.Alike other)

include h

/-- Alike trees have the same number of entries. -/
theorem length_eq : other.entries.length = tree.entries.length := by
  have hlength := List.Perm.length_eq h
  simp only [outline, List.length_map] at hlength
  exact hlength.symm

/-! ### Lookups -/

/-- At every place there is the same kind of entry. -/
theorem entry? (place : Place) : Option.Rel SameKind (tree.entry? place) (other.entry? place) := by
  cases place with
  | nil => exact .some (.same _)
  | cons name rest =>
    -- An entry stands at a place if it is one of the entries, which the outlines have in common.
    have hmem : ∀ entry, (name :: rest, entry) ∈ tree.outline ↔
        (name :: rest, entry) ∈ other.outline := fun entry => h.mem_iff
    have hstands : ∀ (t : Tree) (entry : Entry), t.entry? (name :: rest) = some entry ↔
        (name :: rest, entry) ∈ t.entries := fun t => lookup_eq_some_iff t (name :: rest)
    have houtline : ∀ (t : Tree) (entry : Entry), (name :: rest, entry) ∈ t.outline ↔
        ∃ found, t.entry? (name :: rest) = some found ∧ found.outline = entry := by
      intro t entry
      simp only [outline, List.mem_map, Prod.mk.injEq, hstands]
      constructor
      · rintro ⟨⟨place, found⟩, hfound, rfl, rfl⟩
        exact ⟨found, hfound, rfl⟩
      · rintro ⟨found, hfound, rfl⟩
        exact ⟨(name :: rest, found), hfound, rfl, rfl⟩
    cases hleft : tree.entry? (name :: rest) with
    | some entry =>
      obtain ⟨found, hfound, hsame⟩ :=
        (houtline other entry.outline).mp ((hmem _).mp ((houtline tree _).mpr ⟨entry, hleft, rfl⟩))
      rw [hfound]
      exact .some (sameKind_iff.mpr hsame.symm)
    | none =>
      cases hright : other.entry? (name :: rest) with
      | none => exact .none
      | some entry =>
        obtain ⟨found, hfound, -⟩ :=
          (houtline tree entry.outline).mp
            ((hmem _).mpr ((houtline other _).mpr ⟨entry, hright, rfl⟩))
        rw [hleft] at hfound
        cases hfound

/-- A step of a lookup looks at names, links and kinds only. -/
theorem advance_eq (purpose : Purpose) (place : Place) (names : List String) :
    tree.advance purpose place names = other.advance purpose place names := by
  induction names generalizing place with
  | nil => rfl
  | cons name rest ih =>
    unfold advance
    have hhere := h.entry? place
    generalize tree.entry? place = here at hhere
    generalize other.entry? place = here' at hhere
    cases hhere with
    | none => rfl
    | some hkind =>
      cases hkind with
      | file content content' => rfl
      | same =>
        split
        · -- In a directory the next step goes by the entry with the name.
          have hnext := h.entry? (place ++ [name])
          generalize tree.entry? (place ++ [name]) = next at hnext
          generalize other.entry? (place ++ [name]) = next' at hnext
          rw [ih, ih, ih]
          cases hnext with
          | none => rfl
          | some hkind =>
            cases hkind with
            | file content content' => rfl
            | same => rfl
        · rfl

/-- So does a whole lookup. -/
theorem follow_eq (purpose : Purpose) (links : Nat) (place : Place) (names : List String) :
    tree.follow purpose links place names = other.follow purpose links place names := by
  -- By induction on the links that may still be crossed.
  induction links generalizing place names with
  | zero =>
    unfold follow
    rw [h.advance_eq]
  | succ links ih =>
    unfold follow
    rw [h.advance_eq]
    simp only [ih]

/-- A lookup leads to the same place in alike trees. -/
theorem trace_eq (purpose : Purpose) (path : String) :
    tree.trace purpose path = other.trace purpose path := by
  unfold trace
  rw [h.follow_eq]

/-- A path leads to the same place in alike trees. -/
theorem locate_eq (path : String) : tree.locate path = other.locate path := by
  unfold locate
  rw [h.trace_eq]

/-- Every path leads to the same kind of entry. -/
theorem find (path : String) : Agree Eq SameKind (tree.find path) (other.find path) := by
  unfold Tree.find
  rw [h.locate_eq]
  cases other.locate path with
  | error fault => exact .error rfl
  | ok place =>
    simp only [ok_bind]
    -- The path leads to one place in both trees, and the entries there are of one kind.
    have hhere := h.entry? place
    generalize tree.entry? place = here at hhere
    generalize other.entry? place = here' at hhere
    cases hhere with
    | none => exact .error rfl
    | some hkind => exact .ok hkind

/-- Directories of alike trees have the same names in them, with entries of the same kinds. -/
theorem forall₂_children (place : Place) :
    List.Forall₂ (fun pair pair' => pair'.1 = pair.1 ∧ SameKind pair.2 pair'.2)
      (sortByName (tree.children place)) (sortByName (other.children place)) := by
  -- The outlines of the children are the same up to order, so sorted they are the same.
  have hperm := List.Perm.filterMap (childOf place) h
  rw [← map_children, ← map_children] at hperm
  have hnodup : (((tree.children place).map fun pair => (pair.1, pair.2.outline)).map
      Prod.fst).Nodup := by
    rw [List.map_map]
    exact tree.nodup_children place
  have hsorted := sortByName_eq_of_perm hperm hnodup
  rw [sortByName_map, sortByName_map, ← List.forall₂_eq_eq_eq, List.forall₂_map_left_iff,
    List.forall₂_map_right_iff] at hsorted
  refine hsorted.imp fun pair pair' heq => ?_
  rw [Prod.mk.injEq] at heq
  exact ⟨heq.1.symm, sameKind_iff.mpr heq.2⟩

/-- Every directory lists the same names, with the same kinds of entries. -/
theorem list (path : String) :
    Agree Eq (List.Forall₂ fun pair pair' => pair'.1 = pair.1 ∧ SameKind pair.2 pair'.2)
      (tree.list path) (other.list path) := by
  unfold Tree.list
  rw [h.locate_eq]
  cases other.locate path with
  | error fault => exact .error rfl
  | ok place =>
    simp only [ok_bind]
    -- The same place in both trees; it holds a directory in both or in neither.
    have hhere := h.entry? place
    generalize tree.entry? place = here at hhere
    generalize other.entry? place = here' at hhere
    cases hhere with
    | none => exact .error rfl
    | some hkind =>
      cases hkind with
      | file content content' => exact .error rfl
      | same =>
        split
        · exact .ok (h.forall₂_children place)
        · exact .error rfl

/-! ### Canonical paths -/

/-- A path without links is found out in the same way, if links within it are. -/
theorem resolveWith_eq (directory : Place)
    {enter enter' : List Spot → Spot → List String → Resolution}
    (henter : ∀ active spot names, enter active spot names = enter' active spot names)
    (active : List Spot) (spot : Spot) (names : List String) :
    tree.resolveWith directory enter active spot names
      = other.resolveWith directory enter' active spot names := by
  induction names generalizing spot with
  | nil => rfl
  | cons name rest ih =>
    unfold resolveWith
    simp only [ih, henter]
    -- The next name stands for an entry of the same kind, and for a link with the same target.
    have hhere := h.entry? ((spot.down name).place directory)
    generalize tree.entry? ((spot.down name).place directory) = here at hhere
    generalize other.entry? ((spot.down name).place directory) = here' at hhere
    cases hhere with
    | none => rfl
    | some hkind =>
      cases hkind with
      | file content content' => rfl
      | same => rfl

/-- The same by induction on how deep links are nested. -/
theorem resolveNames_eq (directory : Place) (nested : Nat) (active : List Spot) (spot : Spot)
    (names : List String) :
    tree.resolveNames directory nested active spot names
      = other.resolveNames directory nested active spot names := by
  induction nested generalizing active spot names with
  | zero => exact h.resolveWith_eq directory (fun _ _ _ => rfl) active spot names
  | succ nested ih => exact h.resolveWith_eq directory ih active spot names

/-- The path without links is the same in alike trees. -/
theorem canonical_eq (directory : Place) (path : String) :
    tree.canonical directory path = other.canonical directory path := by
  unfold canonical
  rw [h.length_eq]
  simp only [h.resolveNames_eq]

end Alike

end Tree

end RepoAtlas
