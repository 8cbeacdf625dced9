import RepoAtlas.Proofs.Tree.Alike
import RepoAtlas.Tree.Text

/-!
# `RepoAtlas.Proofs.Tree.Order`: the same tree in another order

The order of the entries of a tree is the order in which a system happens to list them. Trees that
differ in nothing else (`Reordered`) cannot be told apart by lookups and listings, and stay so when a
file is written.

* `reordered_iff`: trees are reordered if every directory has the same children in some order.
* `Reordered.find_eq`, `Reordered.list_eq`: what is found and listed is the same.
* `Reordered.extendFile`: adding to a file leads to reordered trees again.
-/

set_option autoImplicit false

namespace RepoAtlas.Tree

/-- Trees with the same entries in some order. -/
def Reordered (tree other : Tree) : Prop :=
  tree.entries.Perm other.entries

instance (tree other : Tree) : Decidable (tree.Reordered other) :=
  inferInstanceAs (Decidable (List.Perm _ _))

/-- No entry is listed twice, since no place is. -/
theorem nodup_entries (tree : Tree) : tree.entries.Nodup :=
  tree.distinct.of_map

/-- Trees are reordered if each of their directories lists the same entries in some order. Nothing
lists the top directory itself. -/
theorem reordered_iff {tree other : Tree} :
    tree.Reordered other ↔ tree.entries.lookup [] = other.entries.lookup [] ∧
      ∀ place, (tree.children place).Perm (other.children place) := by
  constructor
  · intro h
    refine ⟨?_, fun place => h.filterMap (childOf place)⟩
    refine Option.ext fun entry => ?_
    rw [lookup_eq_some_iff, lookup_eq_some_iff]
    exact h.mem_iff
  · rintro ⟨htop, hchildren⟩
    refine (List.perm_ext_iff_of_nodup tree.nodup_entries other.nodup_entries).mpr fun pair => ?_
    obtain ⟨place, entry⟩ := pair
    -- Every place but the top is a name in a directory, where it is listed.
    rcases List.eq_nil_or_concat place with rfl | ⟨front, name, rfl⟩
    · rw [← lookup_eq_some_iff, ← lookup_eq_some_iff, htop]
    · have hmem := (hchildren front).mem_iff (a := (name, entry))
      rw [List.concat_eq_append]
      rw [mem_children, mem_children, entry?_concat_eq_some_iff, entry?_concat_eq_some_iff] at hmem
      exact hmem

namespace Reordered

variable {tree other : Tree} (h : tree.Reordered other)

include h

/-- Reordered trees are alike: even what stands in the files is the same. -/
theorem alike : tree.Alike other :=
  h.map _

/-- At a place stands the same entry. -/
theorem entry?_eq (place : Place) : tree.entry? place = other.entry? place := by
  cases place with
  | nil => rfl
  | cons name rest =>
    -- No place is listed twice, so an entry is looked up by being in the list.
    refine Option.ext fun entry => ?_
    show tree.entries.lookup _ = _ ↔ other.entries.lookup _ = _
    rw [lookup_eq_some_iff, lookup_eq_some_iff]
    exact h.mem_iff

/-- There are as many entries. -/
theorem length_eq : tree.entries.length = other.entries.length :=
  List.Perm.length_eq h

/-- A path leads to the same entry. -/
theorem find_eq : tree.find = other.find := by
  funext path
  unfold Tree.find
  simp only [h.alike.locate_eq, h.entry?_eq]

/-- A file is read with the same octets. -/
theorem readOctets_eq : tree.readOctets = other.readOctets := by
  funext path
  unfold Tree.readOctets
  rw [h.find_eq]

/-- A directory is listed in the same order, which is that of the names. -/
theorem list_eq : tree.list = other.list := by
  funext path
  have hchildren : ∀ place, sortByName (tree.children place) = sortByName (other.children place) :=
    fun place => sortByName_eq_of_perm (h.filterMap (childOf place)) (tree.nodup_children place)
  unfold Tree.list
  simp only [h.alike.locate_eq, h.entry?_eq, hchildren]

/-! ### Writing -/

/-- Inserting an entry keeps the trees the same up to order. -/
theorem insert (place : Place) (entry : Entry) :
    (tree.insert place entry).Reordered (other.insert place entry) :=
  (h.filter _).append_right _

/-- So does writing a file. -/
theorem putFile (path : String) (content : List UInt8) :
    Agree Eq Reordered (tree.putFile path content) (other.putFile path content) := by
  unfold Tree.putFile
  rw [h.alike.trace_eq]
  split
  · exact .ok (h.insert _ _)
  · rw [h.entry?_eq]
    split
    · exact .ok (h.insert _ _)
    · exact .error rfl
  · exact .error rfl
  · exact .error rfl

/-- So does writing at the end of one. -/
theorem extendFile (path : String) (content : List UInt8) :
    Agree Eq Reordered (tree.extendFile path content) (other.extendFile path content) := by
  unfold Tree.extendFile
  rw [h.readOctets_eq]
  split
  · exact h.putFile path _
  · exact h.putFile path content

end Reordered

end RepoAtlas.Tree
