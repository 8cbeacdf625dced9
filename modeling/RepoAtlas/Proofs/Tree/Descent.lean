import RepoAtlas.Proofs.Outcome
import RepoAtlas.Proofs.Path.Normal
import RepoAtlas.Tree.Lookup

/-!
# `RepoAtlas.Proofs.Tree.Descent`: one name further down

A scan never looks a place up directly: it continues the path of a directory by a name and lets the
tree look the longer path up from the top. The lookup may cross links on the way to the directory,
but what it finds behind the directory is decided by the directory alone.

* `follow_append`: a lookup that reaches a place goes on from there.
* `isRealDirectory_join`: whether a directory stands at the longer path, link or not.
* `locate_join`, `find_join`: where the longer path leads, and what can be found there.
* `mem_list`: what a directory lists is what stands below its place.

Lookups answer to the limits on names and paths as well, so an entry may be listed and still be out
of reach.
-/

set_option autoImplicit false

namespace RepoAtlas.Tree

open RepoAtlas.Path (IsName IsStep IsNormal IsLead)

/-- A tree whose entries have proper names. No file system has others. -/
def WellNamed (tree : Tree) : Prop :=
  ∀ pair ∈ tree.entries, ∀ name ∈ pair.1, IsName name

instance (tree : Tree) : Decidable tree.WellNamed :=
  inferInstanceAs (Decidable (∀ pair ∈ tree.entries, ∀ name ∈ pair.1, IsName name))

/-- What stands at a path itself; a final link is not crossed. -/
def standing (tree : Tree) (path : String) : Option Entry :=
  match tree.trace .handle path with
  | .ok (.reached place) => tree.entry? place
  | _ => none

/-- Whether a directory stands at a path, rather than a link to one. -/
def isRealDirectory (tree : Tree) (path : String) : Bool :=
  tree.standing path = some .directory

/-- How many of the given links are left when a lookup ends. -/
def linksLeft (tree : Tree) : Nat → Place → List String → Nat
  | links, place, names =>
    match advance tree .use place names with
    | .ok (.atLink directory target rest) =>
      match links with
      | 0 => 0
      | links + 1 =>
        tree.linksLeft links (if Path.isAbsolute target then [] else directory)
          (lookupNames target ++ rest)
    | _ => links

/-- How many links the lookup of a path in normal form leaves. -/
def leftAt (tree : Tree) (path : String) : Nat :=
  tree.linksLeft maxLinks [] (Path.normalNames path)

/-! ### Entries and children -/

/-- Below the top, entries are looked up in the list. -/
theorem entry?_concat (tree : Tree) (place : Place) (name : String) :
    tree.entry? (place ++ [name]) = tree.entries.lookup (place ++ [name]) := by
  unfold entry?
  split
  · next h => exact absurd h (List.append_ne_nil_of_right_ne_nil _ (List.cons_ne_nil _ _))
  · rfl

/-- Since no place has two entries, its entry is the one that lookup finds. -/
theorem lookup_eq_some_iff (tree : Tree) (place : Place) (entry : Entry) :
    tree.entries.lookup place = some entry ↔ (place, entry) ∈ tree.entries := by
  -- By induction on the entries: if the place is that of the first, no other entry has it.
  have hdistinct := tree.distinct
  generalize tree.entries = entries at hdistinct
  induction entries with
  | nil => exact ⟨fun h => (nomatch h), fun h => absurd h List.not_mem_nil⟩
  | cons pair rest ih =>
    obtain ⟨other, old⟩ := pair
    rw [List.map_cons, List.nodup_cons] at hdistinct
    rw [List.mem_cons, Prod.mk.injEq, List.lookup_cons]
    by_cases h : place = other
    · subst h
      rw [beq_self_eq_true]
      constructor
      · intro heq
        exact Or.inl ⟨rfl, (Option.some.inj heq).symm⟩
      · rintro (⟨-, rfl⟩ | hmem)
        · rfl
        · exact absurd (List.mem_map_of_mem (f := Prod.fst) hmem) hdistinct.1
    · rw [beq_false_of_ne h]
      exact (ih hdistinct.2).trans ⟨Or.inr, fun hor => hor.resolve_left fun heq => h heq.1⟩

/-- What stands below a place is what the list says of it: no place is listed twice. -/
theorem entry?_concat_eq_some_iff {tree : Tree} {place : Place} {name : String} {entry : Entry} :
    tree.entry? (place ++ [name]) = some entry ↔ (place ++ [name], entry) ∈ tree.entries := by
  rw [entry?_concat, lookup_eq_some_iff]

/-- What an entry of a tree is for a directory: a child with its name, or nothing. -/
def childOf (place : Place) (pair : Place × Entry) : Option (String × Entry) :=
  match pair.1.getLast? with
  | some name => if pair.1.dropLast = place then some (name, pair.2) else none
  | none => none

/-- An entry is a child of a place under a name if its own place ends in the name. -/
theorem childOf_eq_some_iff {place : Place} {pair : Place × Entry} {name : String}
    {entry : Entry} :
    childOf place pair = some (name, entry) ↔ pair = (place ++ [name], entry) := by
  unfold childOf
  constructor
  · intro h
    -- The top is no child, since it has no name.
    cases hlast : pair.1.getLast? with
    | none => simp only [hlast, reduceCtorEq] at h
    | some last =>
      simp only [hlast, Option.ite_none_right_eq_some, Option.some.injEq, Prod.mk.injEq] at h
      obtain ⟨hplace, rfl, rfl⟩ := h
      obtain ⟨front, hfront⟩ := List.getLast?_eq_some_iff.mp hlast
      rw [hfront, List.dropLast_concat] at hplace
      exact Prod.ext (hplace ▸ hfront) rfl
  · rintro rfl
    simp only [List.getLast?_concat, List.dropLast_concat, if_true]

/-- The children of a place, entry by entry. -/
theorem children_eq (tree : Tree) (place : Place) :
    tree.children place = tree.entries.filterMap (childOf place) := by
  rfl

/-- The children of a place are the entries one name further down. -/
theorem mem_children {tree : Tree} {place : Place} {name : String} {entry : Entry} :
    (name, entry) ∈ tree.children place ↔ tree.entry? (place ++ [name]) = some entry := by
  rw [entry?_concat_eq_some_iff, children_eq, List.mem_filterMap]
  constructor
  · rintro ⟨pair, hmem, hchild⟩
    exact childOf_eq_some_iff.mp hchild ▸ hmem
  · exact fun hmem => ⟨_, hmem, childOf_eq_some_iff.mpr rfl⟩

/-- No name is listed twice in one directory. -/
theorem nodup_children (tree : Tree) (place : Place) :
    ((tree.children place).map Prod.fst).Nodup := by
  rw [List.nodup_iff_pairwise_ne, List.pairwise_map, children_eq, List.pairwise_filterMap]
  refine (List.pairwise_map.mp tree.distinct).imp ?_
  rintro pair pair' hne ⟨name, entry⟩ hchild ⟨name', entry'⟩ hchild' heq
  obtain rfl : name = name' := heq
  rw [childOf_eq_some_iff.mp hchild, childOf_eq_some_iff.mp hchild'] at hne
  exact hne rfl

/-! ### Lookups that go on -/

section

variable {tree : Tree} {purpose : Purpose}

/-- One step of a lookup that is not for writing. -/
theorem advance_cons (hpurpose : purpose ≠ .write) (place : Place) (name : String)
    (rest : List String) :
    advance tree purpose place (name :: rest) =
      match tree.entry? place with
      | some .directory =>
        if name = "" || name = "." then advance tree purpose place rest
        else if name = ".." then advance tree purpose place.dropLast rest
        else if maxName < name.utf8ByteSize then .error .nameTooLong
        else
          match tree.entry? (place ++ [name]) with
          | none =>
            if rest.all (· = "") then .ok (.vacant place name) else .error .notFound
          | some (.link target) =>
            if rest.isEmpty && purpose = .handle then .ok (.reached (place ++ [name]))
            else .ok (.atLink place target rest)
          | some _ => advance tree purpose (place ++ [name]) rest
      | _ => .error .notDirectory := by
  have hwrite : decide (purpose = .write) = false := decide_eq_false hpurpose
  rw [advance, hwrite]
  rfl

/-- Names that lead to a place or to a link lead there whatever comes after them. Purposes differ
only at a final link, and a link before further names is not final. -/
theorem advance_append (hpurpose : purpose ≠ .write) {tail : List String} (htail : tail ≠ [])
    (place : Place) (names : List String) :
    (∀ target, advance tree .use place names = .ok (.reached target) →
      advance tree purpose place (names ++ tail) = advance tree purpose target tail) ∧
    (∀ directory link rest, advance tree .use place names = .ok (.atLink directory link rest) →
      advance tree purpose place (names ++ tail)
        = .ok (.atLink directory link (rest ++ tail))) := by
  -- By induction on the names. What stops a use before its last name stops it with a tail as well,
  -- since a tail has names left.
  induction names generalizing place with
  | nil => exact ⟨fun _ h => by cases h; rfl, fun _ _ _ h => (nomatch h)⟩
  | cons name rest ih =>
    have htail' : (rest ++ tail).isEmpty = false :=
      List.isEmpty_eq_false_iff.mpr (List.append_ne_nil_of_right_ne_nil _ htail)
    rw [List.cons_append, advance_cons hpurpose, advance_cons (by decide : Purpose.use ≠ .write)]
    simp only [htail', Bool.false_and, Bool.false_eq_true, if_false, reduceCtorEq, decide_false,
      Bool.and_false]
    split
    · split
      · exact ih place
      · split
        · exact ih place.dropLast
        · split
          · exact ⟨fun _ h => (nomatch h), fun _ _ _ h => (nomatch h)⟩
          · split
            · refine ⟨fun _ h => ?_, fun _ _ _ h => ?_⟩ <;> split at h <;> cases h
            · exact ⟨fun _ h => (nomatch h), fun _ _ _ h => by cases h; rfl⟩
            · exact ih _
    · exact ⟨fun _ h => (nomatch h), fun _ _ _ h => (nomatch h)⟩

/-- A lookup that reaches a place goes on from there, with the links that are left. -/
theorem follow_append (hpurpose : purpose ≠ .write) {tail : List String} (htail : tail ≠ [])
    {links : Nat} {place target : Place} {names : List String}
    (h : tree.follow .use links place names = .ok (.reached target)) :
    tree.follow purpose links place (names ++ tail)
      = tree.follow purpose (tree.linksLeft links place names) target tail := by
  -- The induction is on the links that are left: each one that is crossed starts a new lookup.
  have hstep := @advance_append tree purpose hpurpose tail htail place names
  induction links generalizing place names with
  | zero =>
    unfold follow at h
    split at h
    · cases h
    · next hstop =>
      have hadvance := hstep.1 target h
      unfold linksLeft
      rw [h]
      unfold follow
      rw [hadvance]
  | succ links ih =>
    unfold follow at h
    split at h
    · next directory link rest hlink =>
      have hnext := ih h (advance_append hpurpose htail _ _)
      rw [linksLeft, hlink, follow, hstep.2 _ _ _ hlink]
      dsimp only
      rw [← hnext, List.append_assoc]
    · next hstop =>
      have hadvance := hstep.1 target h
      unfold linksLeft
      rw [h]
      unfold follow
      rw [hadvance]

/-- Going on from a place leaves as many links as the lookup from there. -/
theorem linksLeft_append {tail : List String} (htail : tail ≠ []) {links : Nat}
    {place target : Place} {names : List String}
    (h : tree.follow .use links place names = .ok (.reached target)) :
    tree.linksLeft links place (names ++ tail)
      = tree.linksLeft (tree.linksLeft links place names) target tail := by
  have hstep := @advance_append tree .use (by decide) tail htail place names
  -- Each link that the front crosses is crossed by the whole way, too, with the tail behind what is
  -- left.
  induction links generalizing place names with
  | zero =>
    unfold follow at h
    split at h
    · cases h
    · next hstop =>
      have hadvance := hstep.1 target h
      rw [linksLeft, linksLeft, linksLeft, hadvance, h]
  | succ links ih =>
    unfold follow at h
    split at h
    · next directory link rest hlink =>
      have hnext := ih h (advance_append (by decide) htail _ _)
      rw [linksLeft, hstep.2 _ _ _ hlink]
      conv => rhs; arg 2; rw [linksLeft, hlink]
      dsimp only
      rw [← hnext, List.append_assoc]
    · next hstop =>
      have hadvance := hstep.1 target h
      rw [linksLeft, linksLeft, linksLeft, hadvance, h]

/-- A lookup of one name in a directory. -/
theorem advance_name (hpurpose : purpose ≠ .write) {place : Place} {name : String}
    (hname : IsName name) (hdir : tree.entry? place = some .directory) :
    advance tree purpose place [name] =
      if maxName < name.utf8ByteSize then .error .nameTooLong
      else
        match tree.entry? (place ++ [name]) with
        | none => .ok (.vacant place name)
        | some (.link target) =>
          if purpose = .handle then .ok (.reached (place ++ [name]))
          else .ok (.atLink place target [])
        | some _ => .ok (.reached (place ++ [name])) := by
  rw [advance_cons hpurpose, hdir]
  simp only [hname.ne_empty, hname.ne_here, hname.ne_up, decide_false, Bool.or_false,
    Bool.false_eq_true, if_false, List.all_nil, if_true, List.isEmpty_nil, Bool.true_and,
    decide_eq_true_eq, advance]

end

/-! ### Longer paths -/

section

variable {tree : Tree} {path : String} {place : Place}

/-- What a lookup makes of an absolute path: it goes through the names. -/
theorem lookupNames_absolute {lead : String} (hlead : IsLead lead) {names : List String}
    (h : ∀ n ∈ names, IsStep n) :
    lookupNames (Path.absolute lead names) = if names = [] then [""] else names := by
  have hfilter : (Path.segments (Path.absolute lead names)).filter (· ≠ "") = names :=
    Path.filter_segments_absolute hlead h rfl fun n hn => decide_eq_true (h n hn).ne_empty
  unfold lookupNames
  rw [hfilter]
  by_cases hnil : names = []
  · rw [if_pos ((Path.getLast?_absolute hlead h).mpr hnil), if_pos hnil, hnil, List.nil_append]
  · rw [if_neg (mt (Path.getLast?_absolute hlead h).mp hnil), if_neg hnil, List.append_nil]

/-- A path in normal form that leads to a place, with how its names lead there. -/
theorem follow_normalNames (hnormal : IsNormal path) (hplace : tree.locate path = .ok place) :
    tree.follow .use maxLinks [] (Path.normalNames path) = .ok (.reached place) := by
  unfold locate trace at hplace
  have hlookup := lookupNames_absolute (Path.isLead_leadingSlashes path)
    (fun n (hn : n ∈ Path.normalNames path) => (Path.isName_of_mem_normalNames hn).isStep)
  rw [← hnormal.eq_absolute] at hlookup
  rw [hlookup] at hplace
  split at hplace
  · next hreached =>
    cases hplace
    split at hreached
    · cases hreached
    · split at hreached
      · next hnil =>
        -- A path without names asks for the top directory by an empty name.
        rw [hnil, ← hreached]
        rfl
      · exact hreached
  · cases hplace
  · cases hplace

/-- A lookup of a longer path goes on from the place of the shorter one. -/
theorem trace_join {purpose : Purpose} (hpurpose : purpose ≠ .write) (hnormal : IsNormal path)
    (hplace : tree.locate path = .ok place) {name : String} (hname : IsName name) :
    tree.trace purpose (Path.join path name) =
      if maxPath < (Path.join path name).utf8ByteSize then .error .nameTooLong
      else tree.follow purpose (tree.leftAt path) place [name] := by
  have hnames : ∀ n ∈ Path.normalNames path ++ [name], IsName n := fun n hn =>
    (List.mem_append.mp hn).elim Path.isName_of_mem_normalNames
      fun h => List.mem_singleton.mp h ▸ hname
  have hjoin : Path.join path name
      = Path.absolute (Path.leadingSlashes path) (Path.normalNames path ++ [name]) := by
    conv => lhs; rw [hnormal.eq_absolute]
    exact Path.join_absolute (Path.isLead_leadingSlashes path)
      (fun n => Path.isName_of_mem_normalNames) hname
  -- A path in normal form is looked up by its own names, and the joined name goes behind them.
  have hleft := follow_append hpurpose (List.cons_ne_nil name [])
    (follow_normalNames hnormal hplace)
  unfold leftAt
  rw [trace, ← hleft]
  congr 2
  rw [hjoin, lookupNames_absolute (Path.isLead_leadingSlashes path) fun n hn => (hnames n hn).isStep,
    if_neg (List.append_ne_nil_of_right_ne_nil _ (List.cons_ne_nil _ _))]

/-- Whether a name or the path that it completes is longer than lookups allow. -/
def TooLong (path name : String) : Prop :=
  maxPath < (Path.join path name).utf8ByteSize ∨ maxName < name.utf8ByteSize

instance (path name : String) : Decidable (TooLong path name) :=
  inferInstanceAs (Decidable (_ ∨ _))

/-- Links apart, a longer path leads to what is behind the directory. -/
theorem trace_join_of_not_link {purpose : Purpose} (hpurpose : purpose ≠ .write)
    (hnormal : IsNormal path) (hplace : tree.locate path = .ok place)
    (hdir : tree.entry? place = some .directory) {name : String} (hname : IsName name)
    (hlink : purpose = .handle ∨ ∀ target, tree.entry? (place ++ [name]) ≠ some (.link target)) :
    tree.trace purpose (Path.join path name) =
      if TooLong path name then .error .nameTooLong
      else if tree.entry? (place ++ [name]) = none then .ok (.vacant place name)
      else .ok (.reached (place ++ [name])) := by
  rw [trace_join hpurpose hnormal hplace hname]
  have hadvance := advance_name hpurpose hname hdir
  -- The limit on paths is checked before the lookup, the limit on names in its last step.
  by_cases hpath : maxPath < (Path.join path name).utf8ByteSize
  · rw [if_pos hpath, if_pos (show TooLong path name from Or.inl hpath)]
  rw [if_neg hpath]
  by_cases hsize : maxName < name.utf8ByteSize
  · rw [if_pos hsize] at hadvance
    rw [if_pos (show TooLong path name from Or.inr hsize), follow, hadvance]
  rw [if_neg hsize] at hadvance
  rw [if_neg (show ¬TooLong path name from not_or.mpr ⟨hpath, hsize⟩), follow]
  cases hentry : tree.entry? (place ++ [name]) with
  | none =>
    simp only [hentry] at hadvance
    rw [hadvance, if_pos rfl]
  | some entry =>
    rw [if_neg (Option.some_ne_none entry)]
    cases entry with
    | link target =>
      have hhandle := hlink.resolve_right fun h => h target hentry
      simp only [hentry, if_pos hhandle] at hadvance
      rw [hadvance]
    | directory =>
      simp only [hentry] at hadvance
      rw [hadvance]
    | file content =>
      simp only [hentry] at hadvance
      rw [hadvance]

/-- What stands one name further down is the entry there, unless it is out of reach. -/
theorem standing_join (hnormal : IsNormal path) (hplace : tree.locate path = .ok place)
    (hdir : tree.entry? place = some .directory) {name : String} (hname : IsName name) :
    tree.standing (Path.join path name) =
      if TooLong path name then none else tree.entry? (place ++ [name]) := by
  unfold standing
  rw [trace_join_of_not_link (by decide) hnormal hplace hdir hname (Or.inl rfl)]
  by_cases hlong : TooLong path name
  · rw [if_pos hlong, if_pos hlong]
  rw [if_neg hlong, if_neg hlong]
  by_cases hnone : tree.entry? (place ++ [name]) = none
  · rw [if_pos hnone, hnone]
  · rw [if_neg hnone]

/-- A name in a directory stands for a directory, and not for a link to one, if the tree has a
directory there and the path is not too long. -/
theorem isRealDirectory_join (hnormal : IsNormal path) (hplace : tree.locate path = .ok place)
    (hdir : tree.entry? place = some .directory) {name : String} (hname : IsName name) :
    tree.isRealDirectory (Path.join path name) = true ↔
      ¬TooLong path name ∧ tree.entry? (place ++ [name]) = some .directory := by
  rw [isRealDirectory, standing_join hnormal hplace hdir hname, decide_eq_true_eq]
  split
  · next h => exact ⟨fun h => (nomatch h), fun h' => absurd h h'.1⟩
  · next h => exact ⟨fun h' => ⟨h, h'⟩, fun h' => h'.2⟩

/-- A real directory is found where it stands. -/
theorem locate_join_of_directory (hnormal : IsNormal path) (hplace : tree.locate path = .ok place)
    (hdir : tree.entry? place = some .directory) {name : String} (hname : IsName name)
    (hentry : tree.entry? (place ++ [name]) = some .directory) :
    tree.locate (Path.join path name) =
      if TooLong path name then .error .nameTooLong else .ok (place ++ [name]) := by
  unfold locate
  rw [trace_join_of_not_link (by decide) hnormal hplace hdir hname
    (Or.inr fun target h => by rw [hentry] at h; cases h), hentry,
    if_neg (Option.some_ne_none Entry.directory)]
  by_cases hlong : TooLong path name
  · rw [if_pos hlong, if_pos hlong]
  · rw [if_neg hlong, if_neg hlong]

/-- Whatever a longer path leads to, something stands there: that, or a link. -/
theorem entry?_of_find_join (hnormal : IsNormal path) (hplace : tree.locate path = .ok place)
    (hdir : tree.entry? place = some .directory) {name : String} (hname : IsName name)
    {found : Entry} (h : tree.find (Path.join path name) = .ok found) :
    ∃ entry, tree.entry? (place ++ [name]) = some entry ∧
      (entry = found ∨ ∃ target, entry = .link target) := by
  by_cases hlink : ∃ target, tree.entry? (place ++ [name]) = some (.link target)
  · obtain ⟨target, hentry⟩ := hlink
    exact ⟨_, hentry, Or.inr ⟨target, rfl⟩⟩
  -- Without a link the lookup ends at the entry itself.
  have htrace := trace_join_of_not_link (by decide : Purpose.use ≠ .write) hnormal hplace hdir hname
    (Or.inr fun target h => hlink ⟨target, h⟩)
  obtain ⟨target, hlocate, hfound⟩ := bind_eq_ok_iff.mp h
  unfold locate at hlocate
  rw [htrace] at hlocate
  by_cases hlong : TooLong path name
  · rw [if_pos hlong] at hlocate
    cases hlocate
  by_cases hnone : tree.entry? (place ++ [name]) = none
  · rw [if_neg hlong, if_pos hnone] at hlocate
    cases hlocate
  · rw [if_neg hlong, if_neg hnone] at hlocate
    cases hlocate
    obtain ⟨entry, hentry⟩ := Option.ne_none_iff_exists'.mp hnone
    rw [hentry] at hfound
    cases hfound
    exact ⟨_, hentry, Or.inl rfl⟩

/-! ### Listings -/

/-- Inserting by name drops nothing and repeats nothing. -/
theorem perm_insertByName (item : String × Entry) (sorted : List (String × Entry)) :
    (insertByName item sorted).Perm (item :: sorted) := by
  induction sorted with
  | nil => exact .refl _
  | cons next rest ih =>
    unfold insertByName
    split
    · exact .refl _
    · exact (ih.cons next).trans (.swap item next rest)

/-- It keeps a sorted list sorted. -/
theorem pairwise_insertByName (item : String × Entry) {sorted : List (String × Entry)}
    (h : sorted.Pairwise fun a b => a.1 ≤ b.1) :
    (insertByName item sorted).Pairwise fun a b => a.1 ≤ b.1 := by
  induction sorted with
  | nil => exact List.pairwise_singleton _ _
  | cons next rest ih =>
    obtain ⟨hnext, hrest⟩ := List.pairwise_cons.mp h
    -- The item goes before the first name that is not smaller; all later ones are not smaller than
    -- that.
    unfold insertByName
    split
    · next hle =>
      refine List.pairwise_cons.mpr ⟨fun other hother => ?_, h⟩
      rcases List.mem_cons.mp hother with rfl | hother
      · exact hle
      · exact String.le_trans hle (hnext other hother)
    · next hnot =>
      refine List.pairwise_cons.mpr ⟨fun other hother => ?_, ih hrest⟩
      rcases List.mem_cons.mp ((perm_insertByName item rest).mem_iff.mp hother) with rfl | hother
      · exact (String.le_total _ _).resolve_left hnot
      · exact hnext other hother

/-- Sorting only changes the order. -/
theorem perm_sortByName (items : List (String × Entry)) : (sortByName items).Perm items := by
  induction items with
  | nil => exact .nil
  | cons item rest ih => exact (perm_insertByName item _).trans (ih.cons item)

/-- What is sorted by name is sorted. -/
theorem pairwise_sortByName (items : List (String × Entry)) :
    (sortByName items).Pairwise fun a b => a.1 ≤ b.1 := by
  induction items with
  | nil => exact .nil
  | cons item rest ih => exact pairwise_insertByName item ih

/-- A directory can be listed exactly when its path leads to it. -/
theorem list_eq_ok_iff {entries : List (String × Entry)} :
    tree.list path = .ok entries ↔ ∃ place, tree.locate path = .ok place ∧
      tree.entry? place = some .directory ∧
      entries = sortByName (tree.children place) := by
  unfold list
  rw [bind_eq_ok_iff]
  refine exists_congr fun place => and_congr_right fun _ => ?_
  split
  · next h => exact ⟨fun heq => ⟨h, by cases heq; rfl⟩, fun heq => by rw [heq.2]; rfl⟩
  · next h => exact ⟨fun heq => (nomatch heq), fun heq => absurd heq.1 h⟩

/-- A path leads to an entry if it leads to a place where that stands. -/
theorem find_eq_ok_iff {entry : Entry} :
    tree.find path = .ok entry ↔
      ∃ place, tree.locate path = .ok place ∧ tree.entry? place = some entry := by
  unfold find
  rw [bind_eq_ok_iff]
  refine exists_congr fun place => and_congr_right fun _ => ?_
  cases tree.entry? place with
  | none => exact ⟨fun h => (nomatch h), fun h => (nomatch h)⟩
  | some found => exact ⟨fun h => congrArg some (Except.ok.inj h), fun h => by cases h; rfl⟩

/-- A file is read where a path leads to it. -/
theorem readOctets_eq_ok_iff {content : List UInt8} :
    tree.readOctets path = .ok content ↔
      ∃ place, tree.locate path = .ok place ∧ tree.entry? place = some (.file content) := by
  rw [← find_eq_ok_iff]
  unfold readOctets
  rw [bind_eq_ok_iff]
  constructor
  · rintro ⟨entry, hfind, hentry⟩
    cases entry with
    | file found =>
      cases hentry
      exact hfind
    | directory => cases hentry
    | link target => cases hentry
  · exact fun hfind => ⟨_, hfind, rfl⟩

/-- A path leads to a directory if there is one at its place. -/
theorem isDirectory_iff :
    tree.isDirectory path = true ↔
      ∃ place, tree.locate path = .ok place ∧ tree.entry? place = some .directory := by
  rw [← find_eq_ok_iff]
  unfold isDirectory
  split
  · next h => exact ⟨fun _ => h, fun _ => rfl⟩
  · next h => exact ⟨fun heq => (nomatch heq), fun heq => absurd heq h⟩

/-- A path leads to a file if that is what is found. -/
theorem isFile_iff :
    tree.isFile path = true ↔ ∃ content, tree.find path = .ok (.file content) := by
  unfold isFile
  split
  · next content h => exact ⟨fun _ => ⟨content, h⟩, fun _ => rfl⟩
  · next h => exact ⟨fun heq => (nomatch heq), fun ⟨content, heq⟩ => absurd heq (h content)⟩

/-- What a directory lists is what stands below its place. -/
theorem mem_list {entries : List (String × Entry)} (h : tree.list path = .ok entries)
    (hplace : tree.locate path = .ok place) {name : String} {entry : Entry} :
    (name, entry) ∈ entries ↔ tree.entry? (place ++ [name]) = some entry := by
  obtain ⟨place', hplace', -, rfl⟩ := list_eq_ok_iff.mp h
  cases hplace.symm.trans hplace'
  rw [(perm_sortByName _).mem_iff, mem_children]

/-- A listing goes up strictly, name by name. -/
theorem pairwise_list {entries : List (String × Entry)} (h : tree.list path = .ok entries) :
    entries.Pairwise fun a b => a.1 < b.1 := by
  obtain ⟨place, -, -, rfl⟩ := list_eq_ok_iff.mp h
  have hdistinct : (sortByName (tree.children place)).Pairwise fun a b => a.1 ≠ b.1 := by
    refine List.pairwise_map.mp (List.nodup_iff_pairwise_ne.mp ?_)
    exact ((perm_sortByName _).map Prod.fst).nodup_iff.mpr (tree.nodup_children place)
  refine ((pairwise_sortByName _).and hdistinct).imp fun h => ?_
  exact Std.lt_of_le_of_ne h.1 h.2

/-- Whatever a directory of a well-named tree lists has a proper name. -/
theorem WellNamed.isName_of_mem_list (hnamed : tree.WellNamed) {entries : List (String × Entry)}
    (h : tree.list path = .ok entries) {name : String} {entry : Entry}
    (hmem : (name, entry) ∈ entries) : IsName name := by
  obtain ⟨place, hplace, -, -⟩ := list_eq_ok_iff.mp h
  have hentry := (mem_list h hplace).mp hmem
  exact hnamed _ (entry?_concat_eq_some_iff.mp hentry) name (by simp)

end

end RepoAtlas.Tree
