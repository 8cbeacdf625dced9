import Mathlib.Data.List.Nodup
import Mathlib.Data.List.Perm.Subperm
import RepoAtlas.Proofs.Tree.Descent
import RepoAtlas.Survey.Walk

/-!
# `RepoAtlas.Proofs.Survey.Ways`: the ways that a walk takes

A walk goes down from a root name by name. The names from the root to a file are its way; the file
is come across if every directory on the way, the root and the file apart, is real and may be
entered (`Clear`). Nothing else decides it: neither what else is in those directories nor the depth
to which the walk may go.

* `files_below`: below a directory a walk comes across the files of its ways (`ways`), in order.
* `pairwise_ways`: ways go up strictly in the order of lists of names.
* `mem_ways`: a way to a file is taken exactly when it is clear and short enough.
* `Clear.length_le`: every clear way is short enough, since the directories on it are different
  entries of the tree.
-/

set_option autoImplicit false

namespace RepoAtlas.Survey

open RepoAtlas.Path (IsName IsNormal)

/-- A name that no walk passes over. -/
structure IsPassable (excluded : List String) (name : String) : Prop where
  no_dot : name.toList.head? ≠ some '.'
  not_ignored : name ∉ Naming.ignoredDirectories
  not_excluded : name ∉ excluded

/-- A name that is not ignored may be passed. -/
theorem isIgnored_eq_false_iff {name : String} {excluded : List String} :
    Naming.isIgnored name excluded = false ↔ IsPassable excluded name := by
  unfold Naming.isIgnored
  rw [Bool.or_eq_false_iff, Bool.or_eq_false_iff, decide_eq_false_iff_not,
    List.contains_eq_mem, decide_eq_false_iff_not, List.contains_eq_mem, decide_eq_false_iff_not]
  exact ⟨fun h => ⟨h.1.1, h.1.2, h.2⟩, fun h => ⟨⟨h.1, h.2⟩, h.3⟩⟩

/-- A path that is not the root of another module. -/
def IsOwn (owners : Owners) (id : CodeText) (path : String) : Prop :=
  ∀ owner, owners.lookup path = some owner → owner = id

/-- What the walk of a module asks of a directory with a name and a path. -/
def MayEnter (scope : Scope) (owners : Owners) (id : CodeText) (name path : String) : Prop :=
  IsPassable scope.excluded name ∧ IsOwn owners id path

/-- A walk enters where it may. -/
theorem enters_iff {scope : Scope} {owners : Owners} {id : CodeText} {name path : String} :
    enters scope owners id name path = true ↔ MayEnter scope owners id name path := by
  unfold enters MayEnter IsOwn
  rw [Bool.and_eq_true, Bool.not_eq_true', isIgnored_eq_false_iff]
  refine and_congr_right fun _ => ?_
  cases owners.lookup path with
  | none => exact ⟨fun _ _ h => (nomatch h), fun _ => rfl⟩
  | some owner =>
    rw [Option.all_some, decide_eq_true_eq]
    exact ⟨fun h _ h' => Option.some.inj h' ▸ h, fun h => h owner rfl⟩

/-! ### Clear ways -/

/-- Every directory strictly between a directory and what names lead to from there is real, and may
be entered. -/
def Clear (tree : Tree) (may : (name path : String) → Prop) (directory : String)
    (names : List String) : Prop :=
  ∀ front name back, names = front ++ name :: back → back ≠ [] →
    tree.isRealDirectory (Path.descend directory (front ++ [name])) = true ∧
      may name (Path.descend directory (front ++ [name]))

variable {tree : Tree} {may : (name path : String) → Prop} {path : String} {place : Place}

/-- A way of one name passes through nothing. -/
theorem clear_singleton (name : String) : Clear tree may path [name] := by
  intro front name' back hsplit hback
  rcases front with _ | ⟨first, front⟩
  · exact absurd (List.cons.inj hsplit).2.symm hback
  · exact absurd (List.cons.inj hsplit).2.symm (List.append_ne_nil_of_right_ne_nil _ (by simp))

/-- A way of several names is clear exactly when its first directory may be entered and the rest of
it is clear from there. -/
theorem clear_cons_iff {name : String} {rest : List String} (hrest : rest ≠ []) :
    Clear tree may path (name :: rest) ↔
      tree.isRealDirectory (Path.join path name) = true ∧ may name (Path.join path name) ∧
        Clear tree may (Path.join path name) rest := by
  constructor
  · intro h
    obtain ⟨hreal, hmay⟩ := h [] name rest rfl hrest
    refine ⟨hreal, hmay, fun front name' back hsplit hback => ?_⟩
    exact h (name :: front) name' back (by rw [hsplit, List.cons_append]) hback
  · rintro ⟨hreal, hmay, h⟩ front name' back hsplit hback
    -- The first name is passed, or the name that is passed comes later.
    rcases front with _ | ⟨first, front⟩
    · obtain ⟨rfl, -⟩ := List.cons.inj hsplit
      exact ⟨hreal, hmay⟩
    · obtain ⟨rfl, hsplit'⟩ := List.cons.inj hsplit
      exact h front name' back hsplit' hback

/-- A clear way stays clear where more may be passed. -/
theorem Clear.mono {may' : (name path : String) → Prop}
    (hmay : ∀ name path, may name path → may' name path) {names : List String}
    (h : Clear tree may path names) : Clear tree may' path names :=
  fun front name back hsplit hback =>
    ⟨(h front name back hsplit hback).1, hmay _ _ (h front name back hsplit hback).2⟩

/-- From a directory on a clear way the rest of it is clear. -/
theorem Clear.drop {front back : List String} (h : Clear tree may path (front ++ back)) :
    Clear tree may (Path.descend path front) back := by
  intro before name after hsplit hafter
  have := h (front ++ before) name after (by rw [hsplit, List.append_assoc]) hafter
  rwa [List.append_assoc, Path.descend_append] at this

/-- The directories on a clear way are found where their names say. -/
theorem Clear.locate_descend (hnormal : IsNormal path) (hplace : tree.locate path = .ok place)
    (hdir : tree.entry? place = some .directory) {front back : List String}
    (hnames : ∀ n ∈ front, IsName n) (hback : back ≠ [])
    (h : Clear tree may path (front ++ back)) :
    tree.locate (Path.descend path front) = .ok (place ++ front) ∧
      tree.entry? (place ++ front) = some .directory := by
  -- By induction on the names: each is a directory of the tree, so the place grows by it.
  induction front generalizing path place with
  | nil => exact ⟨by rw [List.append_nil]; exact hplace, by rw [List.append_nil]; exact hdir⟩
  | cons name front ih =>
    have hname := hnames name List.mem_cons_self
    obtain ⟨hreal, -, h⟩ := (clear_cons_iff (List.append_ne_nil_of_right_ne_nil _ hback)).mp h
    obtain ⟨hshort, hentry⟩ := (Tree.isRealDirectory_join hnormal hplace hdir hname).mp hreal
    have hlocate := Tree.locate_join_of_directory hnormal hplace hdir hname hentry
    rw [if_neg hshort] at hlocate
    have hnext := ih (hnormal.join hname) hlocate hentry
      (fun n hn => hnames n (List.mem_cons_of_mem _ hn)) h
    rw [List.append_assoc] at hnext
    exact hnext

/-- A clear way has at most one name more than the tree has entries: the directories on it stand at
different places. -/
theorem Clear.length_le (hnormal : IsNormal path) (hplace : tree.locate path = .ok place)
    (hdir : tree.entry? place = some .directory) {names : List String}
    (hnames : ∀ n ∈ names, IsName n) (h : Clear tree may path names) :
    names.length ≤ tree.entries.length + 1 := by
  -- Every front part of the way but the last is the place of a directory, and so of an entry.
  have hsub : ((List.range (names.length - 1)).map fun i => place ++ names.take (i + 1)) ⊆
      tree.entries.map Prod.fst := by
    intro found hfound
    obtain ⟨i, hi, rfl⟩ := List.mem_map.mp hfound
    rw [List.mem_range] at hi
    have hback : names.drop (i + 1) ≠ [] := by
      rw [ne_eq, List.drop_eq_nil_iff]
      omega
    rw [← List.take_append_drop (i + 1) names] at h
    obtain ⟨-, hentry⟩ := h.locate_descend hnormal hplace hdir
      (fun n hn => hnames n (List.mem_of_mem_take hn)) hback
    rw [List.take_succ_eq_append_getElem (by omega), ← List.append_assoc] at hentry ⊢
    exact List.mem_map_of_mem (Tree.entry?_concat_eq_some_iff.mp hentry)
  -- These places differ in length.
  have hnodup : ((List.range (names.length - 1)).map fun i =>
      place ++ names.take (i + 1)).Nodup := by
    refine List.Nodup.map_on (fun i hi j hj heq => ?_) List.nodup_range
    rw [List.mem_range] at hi hj
    have hlength := congrArg List.length (List.append_cancel_left heq)
    rw [List.length_take, List.length_take] at hlength
    omega
  have hcount := (List.subperm_of_subset hnodup hsub).length_le
  rw [List.length_map, List.length_map, List.length_range] at hcount
  omega

/-! ### The ways of a walk -/

/-- The files among sightings, in order. -/
def files (sightings : List Sighting) : List String :=
  sightings.filterMap fun
    | .file path => some path
    | _ => none

/-- The ways that start with one entry of a directory, given those that lead on from a directory
in it. -/
def waysBy (onward : String → List (List String)) (enter : String → Bool) :
    String × Entry → List (List String)
  | (name, .directory) => if enter name then (onward name).map (name :: ·) else []
  | (name, _) => [[name]]

/-- The ways from a directory to what a walk takes for files, of at most the given length. -/
def ways (tree : Tree) (scope : Scope) (owners : Owners) (id : CodeText) :
    (depth : Nat) → (path : String) → List (List String)
  | 0, _ => []
  | depth + 1, path =>
    match tree.list path with
    | .error _ => []
    | .ok entries => entries.flatMap <|
      waysBy (fun name => ways tree scope owners id depth (Path.join path name))
        fun name => enters scope owners id name (Path.join path name)

/-- Ways by an entry go on in a directory, and end at anything else. -/
theorem mem_waysBy {onward : String → List (List String)} {enter : String → Bool} {name : String}
    {entry : Entry} {way : List String} :
    way ∈ waysBy onward enter (name, entry) ↔
      (entry = .directory ∧ enter name = true ∧ ∃ rest ∈ onward name, name :: rest = way) ∨
        (entry ≠ .directory ∧ way = [name]) := by
  -- Only a directory is entered, so all other entries end a way.
  cases entry with
  | directory =>
    show way ∈ (if enter name = true then (onward name).map (name :: ·) else []) ↔ _
    split
    · next h =>
      rw [List.mem_map]
      exact ⟨fun hrest => Or.inl ⟨rfl, h, hrest⟩,
        fun hor => hor.elim (fun hor => hor.2.2) fun hor => absurd rfl hor.1⟩
    · next h =>
      exact ⟨fun hmem => absurd hmem List.not_mem_nil,
        fun hor => hor.elim (fun hor => absurd hor.2.1 h) fun hor => absurd rfl hor.1⟩
  | file content =>
    show way ∈ [[name]] ↔ _
    rw [List.mem_singleton]
    exact ⟨fun h => Or.inr ⟨Entry.noConfusion, h⟩,
      fun hor => hor.elim (fun hor => Entry.noConfusion hor.1) fun hor => hor.2⟩
  | link target =>
    show way ∈ [[name]] ↔ _
    rw [List.mem_singleton]
    exact ⟨fun h => Or.inr ⟨Entry.noConfusion, h⟩,
      fun hor => hor.elim (fun hor => Entry.noConfusion hor.1) fun hor => hor.2⟩

variable {scope : Scope} {owners : Owners} {id : CodeText}

/-- Below a directory a walk comes across the files of its ways, in order. -/
theorem files_below (hnamed : tree.WellNamed) (hnormal : IsNormal path) (depth : Nat) :
    files (below tree scope owners id depth path)
      = (ways tree scope owners id depth path).map (Path.descend path) := by
  induction depth generalizing path with
  | zero => rfl
  | succ depth ih =>
    unfold below ways
    cases hlist : tree.list path with
    | error fault => rfl
    | ok entries =>
      unfold files
      rw [List.filterMap_flatMap, List.map_flatMap]
      refine List.flatMap_congr fun pair hpair => ?_
      obtain ⟨name, entry⟩ := pair
      -- The walk normalizes each path that it makes, which changes nothing here.
      have hjoin := hnormal.join (hnamed.isName_of_mem_list hlist hpair)
      have hchild : Path.normalize (Path.join path name) = Path.join path name := hjoin
      cases entry with
      | directory =>
        simp only [hchild, waysBy]
        split
        · rw [List.map_map]
          exact ih hjoin
        · rfl
      | file content =>
        simp only [hchild]
        rfl
      | link target =>
        simp only [hchild]
        rfl

/-- Ways go up strictly: by their first names, and from there on by the rest. -/
theorem pairwise_ways (depth : Nat) :
    (ways tree scope owners id depth path).Pairwise (· < ·) := by
  induction depth generalizing path with
  | zero => exact .nil
  | succ depth ih =>
    unfold ways
    cases hlist : tree.list path with
    | error fault => exact .nil
    | ok entries =>
      refine List.pairwise_flatMap.mpr ⟨?_, ?_⟩
      · rintro ⟨name, entry⟩ -
        cases entry with
        | directory =>
          rw [waysBy]
          split
          · exact List.pairwise_map.mpr (ih.imp fun h => List.Lex.cons h)
          · exact .nil
        | file content => exact List.pairwise_singleton _ _
        | link target => exact List.pairwise_singleton _ _
      · refine (Tree.pairwise_list hlist).imp ?_
        rintro ⟨name, entry⟩ ⟨name', entry'⟩ hlt way hway way' hway'
        -- Ways by different entries differ in their first names already.
        have hstart : ∃ rest, way = name :: rest := (mem_waysBy.mp hway).elim
          (fun ⟨_, _, rest, _, h⟩ => ⟨rest, h.symm⟩) fun h => ⟨[], h.2⟩
        have hstart' : ∃ rest, way' = name' :: rest := (mem_waysBy.mp hway').elim
          (fun ⟨_, _, rest, _, h⟩ => ⟨rest, h.symm⟩) fun h => ⟨[], h.2⟩
        obtain ⟨rest, rfl⟩ := hstart
        obtain ⟨rest', rfl⟩ := hstart'
        exact List.Lex.rel hlt

/-- No way leads on from what cannot be listed. -/
theorem ways_of_locate_error {fault : Tree.Fault} (h : tree.locate path = .error fault)
    (depth : Nat) : ways tree scope owners id depth path = [] := by
  cases depth with
  | zero => rfl
  | succ depth =>
    unfold ways Tree.list
    rw [h]
    rfl

/-- A way to a file is taken exactly when it is clear and short enough. -/
theorem mem_ways (hnamed : tree.WellNamed) (hnormal : IsNormal path)
    (hplace : tree.locate path = .ok place) (hdir : tree.entry? place = some .directory)
    {names : List String} (hfile : tree.isFile (Path.descend path names) = true) (depth : Nat) :
    names ∈ ways tree scope owners id depth path ↔
      names ≠ [] ∧ (∀ n ∈ names, IsName n) ∧ names.length ≤ depth ∧
        Clear tree (MayEnter scope owners id) path names := by
  induction depth generalizing path place names with
  | zero =>
    refine ⟨fun h => absurd h List.not_mem_nil, fun ⟨hne, _, hlength, _⟩ => absurd ?_ hne⟩
    exact List.eq_nil_of_length_eq_zero (Nat.le_zero.mp hlength)
  | succ depth ih =>
    have hlist : tree.list path = .ok _ := Tree.list_eq_ok_iff.mpr ⟨place, hplace, hdir, rfl⟩
    unfold ways
    rw [hlist]
    simp only [List.mem_flatMap, Prod.exists, mem_waysBy]
    constructor
    · rintro ⟨name, entry, hmem, ⟨rfl, henters, rest, hrest, rfl⟩ | ⟨-, rfl⟩⟩
      · have hname := hnamed.isName_of_mem_list hlist hmem
        have hentry := (Tree.mem_list hlist hplace).mp hmem
        have hlocate := Tree.locate_join_of_directory hnormal hplace hdir hname hentry
        -- An entry may be listed and be out of reach; then nothing below it is come across.
        by_cases hlong : Tree.TooLong path name
        · rw [if_pos hlong] at hlocate
          rw [ways_of_locate_error hlocate] at hrest
          exact absurd hrest List.not_mem_nil
        · rw [if_neg hlong] at hlocate
          obtain ⟨hne, hnames, hlength, hclear⟩ :=
            (ih (hnormal.join hname) hlocate hentry hfile).mp hrest
          refine ⟨List.cons_ne_nil _ _, List.forall_mem_cons.mpr ⟨hname, hnames⟩,
            Nat.succ_le_succ hlength, (clear_cons_iff hne).mpr ⟨?_, enters_iff.mp henters, hclear⟩⟩
          exact (Tree.isRealDirectory_join hnormal hplace hdir hname).mpr ⟨hlong, hentry⟩
      · have hname := hnamed.isName_of_mem_list hlist hmem
        exact ⟨List.cons_ne_nil _ _, List.forall_mem_singleton.mpr hname,
          Nat.succ_le_succ (Nat.zero_le _), clear_singleton name⟩
    · rintro ⟨hne, hnames, hlength, hclear⟩
      obtain ⟨name, rest, rfl⟩ := List.exists_cons_of_ne_nil hne
      obtain ⟨hname, hnames⟩ := List.forall_mem_cons.mp hnames
      by_cases hrest : rest = []
      · -- The file itself, or a link to it, stands in this directory.
        subst hrest
        obtain ⟨content, hfound⟩ := Tree.isFile_iff.mp hfile
        obtain ⟨entry, hentry, hkind⟩ :=
          Tree.entry?_of_find_join hnormal hplace hdir hname hfound
        refine ⟨name, entry, (Tree.mem_list hlist hplace).mpr hentry, Or.inr ⟨?_, rfl⟩⟩
        rcases hkind with rfl | ⟨target, rfl⟩ <;> exact Entry.noConfusion
      · obtain ⟨hreal, hmay, hclear⟩ := (clear_cons_iff hrest).mp hclear
        obtain ⟨hshort, hentry⟩ := (Tree.isRealDirectory_join hnormal hplace hdir hname).mp hreal
        have hlocate := Tree.locate_join_of_directory hnormal hplace hdir hname hentry
        rw [if_neg hshort] at hlocate
        refine ⟨name, .directory, (Tree.mem_list hlist hplace).mpr hentry,
          Or.inl ⟨rfl, enters_iff.mpr hmay, rest, ?_, rfl⟩⟩
        exact (ih (hnormal.join hname) hlocate hentry hfile).mpr
          ⟨hrest, hnames, Nat.le_of_succ_le_succ hlength, hclear⟩

end RepoAtlas.Survey
