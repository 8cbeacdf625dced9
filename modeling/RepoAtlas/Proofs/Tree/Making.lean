import RepoAtlas.Proofs.Tree.Growth

/-!
# `RepoAtlas.Proofs.Tree.Making`: directories are made beside what is there

A directory is made where nothing stands. So whether or not all the directories above a path can be
made, every entry is afterwards what it was, and every file that could be read reads the same.

* `Extends`: a later tree in which everything stands as it was.
* `extends_makeParents`: making the directories above a path leads to such a tree.
* `Extends.readOctets`: files in such a tree read as before.
-/

set_option autoImplicit false

namespace RepoAtlas.Tree

/-- A later tree in which everything stands as it was. -/
def Extends (tree later : Tree) : Prop :=
  ∀ place entry, tree.entry? place = some entry → later.entry? place = some entry

namespace Extends

variable {tree later : Tree}

/-- A tree extends itself. -/
theorem refl (tree : Tree) : tree.Extends tree :=
  fun _ _ h => h

/-- What extends an extension extends the tree. -/
theorem trans {last : Tree} (h : tree.Extends later) (h' : later.Extends last) :
    tree.Extends last :=
  fun place entry hentry => h' place entry (h place entry hentry)

/-- A tree that is extended has grown. -/
theorem grown (h : tree.Extends later) : tree.Grown later :=
  fun place entry hentry => ⟨entry, h place entry hentry, .same entry⟩

/-- What a path leads to stays where entries are only added. -/
theorem find (h : tree.Extends later) {path : String} {entry : Entry}
    (hfind : tree.find path = .ok entry) : later.find path = .ok entry := by
  obtain ⟨place, hplace, hentry⟩ := find_eq_ok_iff.mp hfind
  exact find_eq_ok_iff.mpr ⟨place, h.grown.locate hplace, h place entry hentry⟩

/-- A file reads as before. -/
theorem readOctets (h : tree.Extends later) {path : String} {content : List UInt8}
    (hread : tree.readOctets path = .ok content) : later.readOctets path = .ok content := by
  obtain ⟨place, hplace, hentry⟩ := readOctets_eq_ok_iff.mp hread
  exact readOctets_eq_ok_iff.mpr ⟨place, h.grown.locate hplace, h place _ hentry⟩

end Extends

variable {tree later : Tree} {path : String}

/-- An entry where nothing stands leaves everything else as it is. -/
theorem extends_insert {place : Place} (hvacant : tree.entry? place = none) (entry : Entry) :
    tree.Extends (tree.insert place entry) := by
  intro other old hold
  have hne : other ≠ place := by
    rintro rfl
    exact absurd (hold.symm.trans hvacant) (Option.some_ne_none old)
  exact (entry?_insert_of_ne hne entry).trans hold

/-- A new directory is added where nothing was. -/
theorem extends_makeDirectory (h : tree.makeDirectory path = .ok later) : tree.Extends later := by
  unfold makeDirectory at h
  split at h
  · next directory name htrace =>
    cases h
    exact extends_insert (stopsWell_trace htrace).missing .directory
  · cases h
  · cases h

/-- What has been made when a later directory cannot be is no harm either. -/
theorem extends_makeDirectoriesAt (names : List String) :
    tree.Extends (tree.makeDirectoriesAt names).1 := by
  induction names with
  | nil => exact .refl tree
  | cons name above ih =>
    rw [makeDirectoriesAt]
    simp only
    split
    · next hmade => exact extends_makeDirectory hmade
    · -- The directories above are made first, and they stay even if they are not all of them.
      split
      · next habove => exact habove ▸ ih
      · next habove =>
        rw [habove] at ih
        split
        · next hmade => exact ih.trans (extends_makeDirectory hmade)
        · exact ih
        · exact ih
    · exact .refl tree

/-- So are all that are missing above a path. -/
theorem extends_makeParents (tree : Tree) (path : String) :
    tree.Extends (tree.makeParents path).1 :=
  extends_makeDirectoriesAt _

end RepoAtlas.Tree
