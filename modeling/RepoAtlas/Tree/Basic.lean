import RepoAtlas.Path.Basic

/-!
# `RepoAtlas.Tree.Basic`: a tree of files as a value

What a scan reads is a snapshot of directories, files and symbolic links. A snapshot gives an entry
to each place, a place being the list of names that lead to it from the top directory; no place
has two entries. The top directory is always there. The order of the entries stands for the order
in which a system happens to list a directory, and nothing may depend on it.
-/

set_option autoImplicit false

namespace RepoAtlas

/-- The names that lead to an entry from the top directory. -/
abbrev Place := List String

/-- What stands at a place. -/
inductive Entry where
  | directory
  | file (content : List UInt8)
  | link (target : String)
  deriving DecidableEq, Repr

/-- A snapshot of directories, files and links. -/
structure Tree where
  entries : List (Place × Entry)
  distinct : (entries.map Prod.fst).Nodup

namespace Tree

/-- The tree that has nothing but its top directory. -/
def empty : Tree := ⟨[], .nil⟩

/-- The entry at a place; links are not followed. -/
def entry? (tree : Tree) : Place → Option Entry
  | [] => some .directory
  | place => tree.entries.lookup place

/-- The names and entries directly below a place. -/
def children (tree : Tree) (place : Place) : List (String × Entry) :=
  tree.entries.filterMap fun (at', entry) =>
    match at'.getLast? with
    | some name => if at'.dropLast = place then some (name, entry) else none
    | none => none

/-- Leaving entries out lists no place twice. -/
theorem nodup_filter_fst (entries : List (Place × Entry)) (keep : Place × Entry → Bool)
    (h : (entries.map Prod.fst).Nodup) : ((entries.filter keep).map Prod.fst).Nodup :=
  h.sublist (List.filter_sublist.map Prod.fst)

/-- Puts an entry at a place, in place of what was there. -/
def insert (tree : Tree) (place : Place) (entry : Entry) : Tree where
  entries := tree.entries.filter (·.1 ≠ place) ++ [(place, entry)]
  distinct := by
    rw [List.map_append, List.nodup_append]
    refine ⟨nodup_filter_fst _ _ tree.distinct, by simp, ?_⟩
    intro a ha b hb
    rw [List.map_cons, List.map_nil, List.mem_singleton] at hb
    subst hb
    obtain ⟨pair, hpair, rfl⟩ := List.mem_map.1 ha
    simpa using (List.mem_filter.1 hpair).2

/-- Takes away the entry at a place and everything below it. -/
def erase (tree : Tree) (place : Place) : Tree where
  entries := tree.entries.filter fun pair => !place.isPrefixOf pair.1
  distinct := nodup_filter_fst _ _ tree.distinct

end Tree

end RepoAtlas
