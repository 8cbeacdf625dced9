import RepoAtlas.Proofs.Tree.Descent

/-!
# `RepoAtlas.Proofs.Tree.Crossing`: why every descent ends

A descent continues the path of a directory by a name, again and again. Links may lead it back up, so
places alone do not bound it; but each path is looked up from the top, and no lookup crosses more
than a fixed number of links. A step to a directory that stands below leaves fewer entries below it;
a step over a link leaves fewer links. The two together (`reserve`) go down with every step.

* `leftAt_join`, `leftAt_join_lt`: the links that are left after one more name.
* `inner_lt`, `roomAt_join_lt`: the entries that are left below a directory.
* `reserve_join_lt`: every step of a descent takes from the reserve.
-/

set_option autoImplicit false

namespace RepoAtlas.Tree

open RepoAtlas.Path (IsName IsNormal)

variable {tree : Tree} {path : String} {place : Place}

/-! ### Links -/

/-- A lookup does not gain links to cross. -/
theorem linksLeft_le (tree : Tree) (links : Nat) (place : Place) (names : List String) :
    tree.linksLeft links place names ≤ links := by
  induction links generalizing place names with
  | zero =>
    unfold linksLeft
    split <;> exact Nat.le_refl _
  | succ links ih =>
    unfold linksLeft
    split
    · exact Nat.le_succ_of_le (ih _ _)
    · exact Nat.le_refl _

/-- No path leaves more links than a lookup may cross. -/
theorem leftAt_le (tree : Tree) (path : String) : tree.leftAt path ≤ maxLinks :=
  linksLeft_le tree maxLinks [] _

/-- A name that is joined to a path is its last. -/
theorem normalNames_join (hnormal : IsNormal path) {name : String} (hname : IsName name) :
    Path.normalNames (Path.join path name) = Path.normalNames path ++ [name] := by
  have hnames : ∀ n ∈ Path.normalNames path ++ [name], IsName n :=
    List.forall_mem_append.mpr ⟨fun _ => Path.isName_of_mem_normalNames, by simpa using hname⟩
  have hjoin : Path.descend path [name] = _ := hnormal.descend_eq (by simpa using hname)
  rw [Path.descend_singleton] at hjoin
  rw [hjoin, Path.normalNames_absolute (Path.isLead_leadingSlashes path) hnames]

section

variable (hnormal : IsNormal path) (hplace : tree.locate path = .ok place)
  (hdir : tree.entry? place = some .directory) {name : String} (hname : IsName name)

include hnormal hplace hdir hname

/-- A directory that stands below is reached without a link. -/
theorem leftAt_join (hentry : tree.entry? (place ++ [name]) = some .directory) :
    tree.leftAt (Path.join path name) = tree.leftAt path := by
  have hfollow := follow_normalNames hnormal hplace
  unfold leftAt
  rw [normalNames_join hnormal hname, linksLeft_append (List.cons_ne_nil _ _) hfollow]
  generalize tree.linksLeft maxLinks [] (Path.normalNames path) = links
  have hadvance := advance_name (by decide : Purpose.use ≠ .write) hname hdir
  rw [hentry] at hadvance
  rw [linksLeft, hadvance]
  by_cases hsize : maxName < name.utf8ByteSize
  · rw [if_pos hsize]
  · rw [if_neg hsize]

/-- A link that leads anywhere takes from the links that are left. -/
theorem leftAt_join_lt {target : String} (hentry : tree.entry? (place ++ [name]) = some (.link target))
    {found : Place} (hfound : tree.locate (Path.join path name) = .ok found) :
    tree.leftAt (Path.join path name) < tree.leftAt path := by
  have hfollow := follow_normalNames hnormal hplace
  have hnext := follow_normalNames (hnormal.join hname) hfound
  rw [normalNames_join hnormal hname,
    follow_append (by decide) (List.cons_ne_nil _ _) hfollow] at hnext
  unfold leftAt
  rw [normalNames_join hnormal hname, linksLeft_append (List.cons_ne_nil _ _) hfollow]
  generalize tree.linksLeft maxLinks [] (Path.normalNames path) = links at hnext ⊢
  have hadvance := advance_name (by decide : Purpose.use ≠ .write) hname hdir
  rw [hentry] at hadvance
  unfold follow at hnext
  unfold linksLeft
  rw [hadvance] at hnext ⊢
  by_cases hsize : maxName < name.utf8ByteSize
  · rw [if_pos hsize] at hnext
    cases hnext
  rw [if_neg hsize] at hnext ⊢
  -- The link is crossed, so there is one to spare.
  cases links with
  | zero => cases hnext
  | succ links => exact Nat.lt_succ_of_le (linksLeft_le tree links _ _)

end

/-! ### Entries -/

/-- How many entries a tree has below a place. -/
def inner (tree : Tree) (place : Place) : Nat :=
  tree.entries.countP fun pair => decide (place <+: pair.1 ∧ place ≠ pair.1)

/-- There are no more entries inside a place than in the tree. -/
theorem inner_le (tree : Tree) (place : Place) : tree.inner place ≤ tree.entries.length :=
  List.countP_le_length

/-- Below an entry of a directory there is less than below the directory. -/
theorem inner_lt {name : String} {entry : Entry}
    (hentry : tree.entry? (place ++ [name]) = some entry) :
    tree.inner (place ++ [name]) < tree.inner place := by
  have hmem := entry?_concat_eq_some_iff.mp hentry
  unfold inner
  obtain ⟨front, back, hsplit⟩ := List.append_of_mem hmem
  -- Everything below the entry is below the directory, and so is the entry itself.
  have hle : ∀ pairs : List (Place × Entry),
      pairs.countP (fun pair => decide (place ++ [name] <+: pair.1 ∧ place ++ [name] ≠ pair.1))
        ≤ pairs.countP fun pair => decide (place <+: pair.1 ∧ place ≠ pair.1) := by
    intro pairs
    refine List.countP_mono_left fun pair _ hbelow => ?_
    obtain ⟨hunder, -⟩ := of_decide_eq_true hbelow
    refine decide_eq_true ⟨(List.prefix_append _ _).trans hunder, ?_⟩
    rintro heq
    have hlength := hunder.length_le
    rw [← heq, List.length_append, List.length_singleton] at hlength
    omega
  have hfront := hle front
  have hback := hle back
  have hself : (decide (place <+: place ++ [name] ∧ place ≠ place ++ [name])) = true :=
    decide_eq_true ⟨List.prefix_append _ _, by simp⟩
  rw [hsplit, List.countP_append, List.countP_append, List.countP_cons, List.countP_cons]
  have hnot : (decide (place ++ [name] <+: place ++ [name] ∧ place ++ [name] ≠ place ++ [name]))
      = false := decide_eq_false fun h => h.2 rfl
  rw [hself, hnot, if_pos rfl, if_neg Bool.false_ne_true]
  omega

/-- What a walk may still take: the entries below the place of a path. -/
def roomAt (tree : Tree) (path : String) : Nat :=
  match tree.locate path with
  | .ok place => tree.inner place
  | .error _ => 0

/-- The room of a path is that of the place it leads to. -/
theorem roomAt_of_locate (hplace : tree.locate path = .ok place) :
    tree.roomAt path = tree.inner place := by
  unfold roomAt
  rw [hplace]

/-- No path has more room than there are entries. -/
theorem roomAt_le (tree : Tree) (path : String) : tree.roomAt path ≤ tree.entries.length := by
  unfold roomAt
  split
  · exact tree.inner_le _
  · exact Nat.zero_le _

/-- A step to a directory that stands below takes from the room. -/
theorem roomAt_join_lt (hnormal : IsNormal path) (hplace : tree.locate path = .ok place)
    (hdir : tree.entry? place = some .directory) {name : String} (hname : IsName name)
    (hentry : tree.entry? (place ++ [name]) = some .directory) :
    tree.roomAt (Path.join path name) < tree.roomAt path := by
  have hinner := inner_lt hentry
  have hstand := locate_join_of_directory hnormal hplace hdir hname hentry
  rw [roomAt_of_locate hplace]
  unfold roomAt
  rw [hstand]
  by_cases hlong : TooLong path name
  · rw [if_pos hlong]
    exact Nat.zero_lt_of_lt hinner
  · rw [if_neg hlong]
    exact hinner

/-! ### Reserves -/

/-- What a descent may still take: for every link that is left all the entries of the tree, and the
entries below the place of the path. -/
def reserve (tree : Tree) (path : String) : Nat :=
  match tree.locate path with
  | .ok place => tree.leftAt path * (tree.entries.length + 1) + tree.inner place
  | .error _ => 0

/-- The reserve of a path that leads to a place. -/
theorem reserve_of_locate (hplace : tree.locate path = .ok place) :
    tree.reserve path = tree.leftAt path * (tree.entries.length + 1) + tree.inner place := by
  unfold reserve
  rw [hplace]

/-- The reserve is less than what a lookup through all links and entries would take. -/
theorem reserve_lt (tree : Tree) (path : String) :
    tree.reserve path < (maxLinks + 1) * (tree.entries.length + 1) := by
  unfold reserve
  split
  · next place _ =>
    have hlinks := Nat.mul_le_mul_right (tree.entries.length + 1) (tree.leftAt_le path)
    have hinner := tree.inner_le place
    rw [Nat.succ_mul]
    omega
  · exact Nat.mul_pos (Nat.succ_pos _) (Nat.succ_pos _)

/-- A step of a descent, to an entry that is a directory or a link, takes from the reserve. -/
theorem reserve_join_lt (hnormal : IsNormal path) (hplace : tree.locate path = .ok place)
    (hdir : tree.entry? place = some .directory) {name : String} (hname : IsName name)
    {entry : Entry} (hentry : tree.entry? (place ++ [name]) = some entry)
    (hkind : ∀ content, entry ≠ .file content) :
    tree.reserve (Path.join path name) < tree.reserve path := by
  have hinner := inner_lt hentry
  rw [reserve_of_locate hplace]
  cases hfound : tree.locate (Path.join path name) with
  | error fault =>
    unfold reserve
    rw [hfound]
    dsimp only
    omega
  | ok found =>
    rw [reserve_of_locate hfound]
    -- A directory has fewer entries inside and crosses no link; a link costs one, which counts for
    -- more than all entries.
    cases entry with
    | file content => exact absurd rfl (hkind content)
    | directory =>
      have hstand := locate_join_of_directory hnormal hplace hdir hname hentry
      rw [hfound] at hstand
      split at hstand
      · cases hstand
      · cases hstand
        rw [leftAt_join hnormal hplace hdir hname hentry]
        omega
    | link target =>
      have hlinks := leftAt_join_lt hnormal hplace hdir hname hentry hfound
      have hmul := Nat.mul_le_mul_right (tree.entries.length + 1) hlinks
      have hbound := tree.inner_le found
      rw [Nat.succ_mul] at hmul
      omega

end RepoAtlas.Tree
