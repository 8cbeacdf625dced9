import RepoAtlas.Proofs.Tree.Order
import RepoAtlas.Proofs.Tree.Writing

/-!
# `RepoAtlas.Proofs.Tree.Rewriting`: a file that is written again

A file that is there already is written in its place: no directory is made, no name comes or goes,
and every other file keeps its content. `Rewritten` says so, and it is a relation between trees that
can be read both ways, so that what is written and written back leads to where it started.

* `makeParents_of_find`: the directories above what is there are there.
* `putFile_of_locate`: a file is written where it is read.
* `rewritten_insert`: writing it changes its content only.
* `Rewritten.readOctets_eq`: a path that leads elsewhere reads as before.
-/

set_option autoImplicit false

namespace RepoAtlas.Tree

open RepoAtlas.Path (IsName IsLead absolute)

variable {tree : Tree} {place spot : Place} {names : List String}

/-! ### Slashes at the end -/

/-- A blank name at the end asks for a directory, also after links. -/
theorem advance_blank_end (hlast : names.getLast? = some "") {stop : Stop}
    (h : advance tree .use place names = .ok stop) :
    (∀ target, stop = .reached target → tree.entry? target = some .directory) ∧
      ∀ directory link rest, stop = .atLink directory link rest → rest.getLast? = some "" := by
  induction names generalizing place with
  | nil => cases hlast
  | cons name rest ih =>
    rw [advance_cons (by decide)] at h
    -- The empty name is the last one, so it is looked up as soon as the rest is empty; before that
    -- it stays the last of the rest.
    by_cases hrest : rest = []
    · subst hrest
      obtain rfl : name = "" := Option.some.inj hlast
      split at h
      · next hdir =>
        cases h
        exact ⟨fun _ heq => Stop.reached.inj heq ▸ hdir, fun _ _ _ heq => (nomatch heq)⟩
      · cases h
    · have hlast' : rest.getLast? = some "" := by
        rw [← hlast, List.getLast?_cons_of_ne_nil hrest]
      split at h
      · split at h
        · exact ih hlast' h
        split at h
        · exact ih hlast' h
        split at h
        · cases h
        split at h
        · split at h
          · cases h
            exact ⟨fun _ heq => (nomatch heq), fun _ _ _ heq => (nomatch heq)⟩
          · cases h
        · split at h
          · -- Only a handle stops at a link, and this is a use.
            next hhandle => simp at hhandle
          · cases h
            refine ⟨fun _ heq => (nomatch heq), fun _ _ _ heq => ?_⟩
            rw [← (Stop.atLink.inj heq).2.2]
            exact hlast'
        · exact ih hlast' h
      · cases h

/-- A lookup that ends in an empty name ends at a directory. -/
theorem follow_blank_end (hlast : names.getLast? = some "") {links : Nat}
    (h : tree.follow .use links place names = .ok (.reached spot)) :
    tree.entry? spot = some .directory := by
  induction links generalizing place names with
  | zero =>
    unfold follow at h
    split at h
    · cases h
    · exact (advance_blank_end hlast h).1 spot rfl
  | succ links ih =>
    unfold follow at h
    split at h
    · next hlink =>
      -- What is left behind a link still ends in the empty name.
      have hrest := (advance_blank_end hlast hlink).2 _ _ _ rfl
      refine ih ?_ h
      rw [List.getLast?_append, hrest, Option.some_or]
    · exact (advance_blank_end hlast h).1 spot rfl

/-- Names that do not end with a blank one are looked up for writing as for use. -/
theorem advance_write_eq (hlast : names.getLast? ≠ some "") :
    advance tree .write place names = advance tree .use place names := by
  induction names generalizing place with
  | nil => rfl
  | cons name rest ih =>
    have hrest : rest.getLast? ≠ some "" := by
      cases rest with
      | nil => simp
      | cons next others => rwa [List.getLast?_cons_cons] at hlast
    -- Writing differs from using only where nothing but slashes is left, and then the last name
    -- would be empty.
    have hslash : (!rest.isEmpty && rest.all (· = "")) = false := by
      rw [Bool.eq_false_iff]
      intro hblank
      rw [Bool.and_eq_true, Bool.not_eq_true', List.isEmpty_eq_false_iff] at hblank
      refine hrest (List.getLast?_eq_some_getLast hblank.1 ▸ congrArg some ?_)
      exact of_decide_eq_true (List.all_eq_true.mp hblank.2 _ (List.getLast_mem hblank.1))
    unfold advance
    simp only [ih hrest, Bool.and_assoc, hslash, Bool.and_false, Bool.false_eq_true, if_false,
      reduceCtorEq, decide_false]

/-- A file is found for writing where it is found for use. -/
theorem follow_write_of_file {content : List UInt8}
    (hfile : tree.entry? spot = some (.file content)) {links : Nat}
    (h : tree.follow .use links place names = .ok (.reached spot)) :
    tree.follow .write links place names = .ok (.reached spot) := by
  -- A file is no directory, so the names do not end in a slash, and writing goes the same way.
  have hend : ∀ {links place names}, tree.follow .use links place names = .ok (.reached spot) →
      advance tree .write place names = advance tree .use place names := by
    intro links place names h
    refine advance_write_eq fun hlast => ?_
    cases (follow_blank_end hlast h).symm.trans hfile
  induction links generalizing place names with
  | zero =>
    have hsame := hend h
    unfold follow at h ⊢
    rw [hsame]
    exact h
  | succ links ih =>
    have hsame := hend h
    unfold follow at h ⊢
    rw [hsame]
    split at h
    · exact ih h
    · exact h

/-! ### Directories on the way -/

/-- What leads to an entry leads through directories. -/
theorem advance_front {last : String} (hlast : last ≠ "") {stop : Stop}
    (h : advance tree .use place (names ++ [last]) = .ok stop) :
    (∃ directory, advance tree .use place names = .ok (.reached directory)) ∨
      ∃ directory link rest, advance tree .use place names = .ok (.atLink directory link rest) := by
  induction names generalizing place with
  | nil => exact Or.inl ⟨place, rfl⟩
  | cons name rest ih =>
    rw [List.cons_append, advance_cons (by decide)] at h
    rw [advance_cons (by decide)]
    split at h
    · split at h
      · next hhere => simp only [if_pos hhere]; exact ih h
      next hhere =>
      simp only [if_neg hhere]
      split at h
      · next hup => simp only [if_pos hup]; exact ih h
      next hup =>
      simp only [if_neg hup]
      split at h
      · cases h
      next hsize =>
      simp only [if_neg hsize]
      split at h
      · -- A missing name is not followed by another one.
        split at h
        · next hblank => simp [hlast] at hblank
        · cases h
      · next link _ => exact Or.inr ⟨place, link, rest, by simp⟩
      · exact ih h
    · cases h

/-- A lookup that succeeds takes its first step. -/
theorem exists_advance_of_follow {links : Nat} {stop : Stop}
    (h : tree.follow .use links place names = .ok stop) :
    ∃ found, advance tree .use place names = .ok found := by
  cases hadvance : advance tree .use place names with
  | ok found => exact ⟨found, rfl⟩
  | error fault =>
    unfold follow at h
    rw [hadvance] at h
    cases h

/-- The way to the directory that an entry is in ends there, or it is left at a link, and the way to
the entry is left at that link too. -/
theorem advance_front_of_follow {last : String} (hlast : last ≠ "") {links : Nat} {stop : Stop}
    (h : tree.follow .use links place (names ++ [last]) = .ok stop) :
    (∃ directory, advance tree .use place names = .ok (.reached directory)) ∨
      ∃ directory link rest, advance tree .use place names = .ok (.atLink directory link rest) ∧
        advance tree .use place (names ++ [last])
          = .ok (.atLink directory link (rest ++ [last])) := by
  obtain ⟨found, hfound⟩ := exists_advance_of_follow h
  refine (advance_front hlast hfound).imp_right ?_
  rintro ⟨directory, link, rest, hfront⟩
  exact ⟨directory, link, rest, hfront, (advance_append (by decide : Purpose.use ≠ .write)
    (List.cons_ne_nil last []) place names).2 _ _ _ hfront⟩

/-- The directory that an entry is in is found, if the entry is. -/
theorem follow_front {last : String} (hlast : last ≠ "") {links : Nat} {stop : Stop}
    (h : tree.follow .use links place (names ++ [last]) = .ok stop) :
    ∃ directory, tree.follow .use links place names = .ok (.reached directory) := by
  -- At a link, both go on with one link less.
  induction links generalizing place names with
  | zero =>
    obtain ⟨directory, hfront⟩ | ⟨_, _, _, -, hlink⟩ := advance_front_of_follow hlast h
    · exact ⟨directory, by rw [follow, hfront]⟩
    · rw [follow, hlink] at h
      cases h
  | succ links ih =>
    obtain ⟨directory, hfront⟩ | ⟨_, _, _, hfront, hlink⟩ := advance_front_of_follow hlast h
    · exact ⟨directory, by rw [follow, hfront]⟩
    · rw [follow, hlink] at h
      dsimp only at h
      rw [← List.append_assoc] at h
      rw [follow, hfront]
      exact ih h

/-- What is found in it shows that it is a directory. -/
theorem entry?_of_follow_name {last : String} {links : Nat} {stop : Stop}
    (h : tree.follow .use links place [last] = .ok stop) :
    tree.entry? place = some .directory := by
  obtain ⟨found, hfound⟩ := exists_advance_of_follow h
  rw [advance_cons (by decide)] at hfound
  split at hfound
  · assumption
  · cases hfound

/-- Handling an entry is the same as using it, but that a final link is not crossed. -/
theorem advance_handle_of_use {stop : Stop} (h : advance tree .use place names = .ok stop) :
    advance tree .handle place names = .ok stop ∨
      ∃ found, advance tree .handle place names = .ok (.reached found) := by
  induction names generalizing place with
  | nil => exact Or.inl h
  | cons name rest ih =>
    rw [advance_cons (by decide)] at h ⊢
    split at h
    · split at h
      · next hhere => simp only [if_pos hhere]; exact ih h
      next hhere =>
      simp only [if_neg hhere]
      split at h
      · next hup => simp only [if_pos hup]; exact ih h
      next hup =>
      simp only [if_neg hup]
      split at h
      · cases h
      next hsize =>
      simp only [if_neg hsize]
      split at h
      · exact Or.inl h
      · split
        · -- The last name is a link: a handle ends here, where a use would go on.
          exact Or.inr ⟨_, rfl⟩
        · simpa using h
      · exact ih h
    · cases h

/-- What is found can be handled, as it is or as a link to it. -/
theorem follow_handle_of_use {links : Nat}
    (h : tree.follow .use links place names = .ok (.reached spot)) :
    ∃ found, tree.follow .handle links place names = .ok (.reached found) := by
  have hreached : ∀ {links place names found},
      advance tree .handle place names = .ok (.reached found) →
      tree.follow .handle links place names = .ok (.reached found) := by
    intro links place names found hhandle
    rw [follow, hhandle]
  -- Either a handle takes the same step, or it has arrived at the link that a use would cross.
  induction links generalizing place names with
  | zero =>
    unfold follow at h
    split at h
    · cases h
    · rcases advance_handle_of_use h with hhandle | ⟨found, hhandle⟩
      · exact ⟨spot, hreached hhandle⟩
      · exact ⟨found, hreached hhandle⟩
  | succ links ih =>
    unfold follow at h
    split at h
    · next directory link rest hlink =>
      rcases advance_handle_of_use hlink with hhandle | ⟨found, hhandle⟩
      · obtain ⟨found, hfound⟩ := ih h
        refine ⟨found, ?_⟩
        rw [follow, hhandle]
        exact hfound
      · exact ⟨found, hreached hhandle⟩
    · rcases advance_handle_of_use h with hhandle | ⟨found, hhandle⟩
      · exact ⟨spot, hreached hhandle⟩
      · exact ⟨found, hreached hhandle⟩

/-! ### Saving where a file is -/

section

variable {lead : String} (hlead : IsLead lead) {above : Place} {name : String}
  (hnames : ∀ n ∈ above ++ [name], IsName n)

include hlead hnames

/-- The names that are looked up for an absolute path. -/
theorem lookupNames_concat : lookupNames (absolute lead (above ++ [name])) = above ++ [name] := by
  rw [lookupNames_absolute hlead fun n hn => (hnames n hn).isStep, if_neg (by simp)]

/-- A path that leads to a place is not too long, and its names lead there. -/
theorem follow_of_locate (hlocate : tree.locate (absolute lead (above ++ [name])) = .ok spot) :
    (absolute lead (above ++ [name])).utf8ByteSize ≤ maxPath ∧
      tree.follow .use maxLinks [] (above ++ [name]) = .ok (.reached spot) := by
  unfold locate trace at hlocate
  rw [lookupNames_concat hlead hnames] at hlocate
  split at hlocate
  · next hreached =>
    cases hlocate
    split at hreached
    · cases hreached
    · next hshort => exact ⟨Nat.not_lt.mp hshort, hreached⟩
  · cases hlocate
  · cases hlocate

omit hlead hnames in
/-- The path of a directory is shorter than the one of an entry in it. -/
theorem utf8ByteSize_above_le (hlead : IsLead lead) (habove : above ≠ []) (name : String) :
    (Path.ofNames above).utf8ByteSize ≤ (absolute lead (above ++ [name])).utf8ByteSize := by
  have hslash : "/".utf8ByteSize ≤ lead.utf8ByteSize := by
    rcases hlead with rfl | rfl <;> decide
  show (absolute "/" above).utf8ByteSize ≤ _
  rw [Path.absolute_concat, if_neg habove]
  unfold absolute
  simp only [String.utf8ByteSize_append]
  omega

/-- The directories above an entry are there already. -/
theorem makeParents_of_locate (hlocate : tree.locate (absolute lead (above ++ [name])) = .ok spot) :
    tree.makeParents (absolute lead (above ++ [name])) = (tree, .ok ()) := by
  have hpath : Path.names (absolute lead (above ++ [name])) = above ++ [name] :=
    Path.filter_segments_absolute hlead (fun n hn => (hnames n hn).isStep) rfl
      fun n hn => by simp [(hnames n hn).ne_empty, (hnames n hn).ne_here]
  have habove := (List.forall_mem_append.mp hnames).1
  have hname := (List.forall_mem_append.mp hnames).2 name (List.mem_singleton_self name)
  obtain ⟨hshort, hfollow⟩ := follow_of_locate hlead hnames hlocate
  unfold makeParents
  rw [hpath, List.reverse_append, List.reverse_singleton, List.singleton_append, List.tail_cons]
  rcases List.eq_nil_or_concat above with rfl | ⟨front, directory, rfl⟩
  · rfl
  rw [List.concat_eq_append] at *
  have hne : front ++ [directory] ≠ [] := by simp
  -- The directory is found, so it cannot be made once more, and that will do.
  obtain ⟨spot', hfront⟩ := follow_front hname.ne_empty hfollow
  have hdir : tree.entry? spot' = some .directory := by
    rw [follow_append (by decide) (by simp) hfront] at hfollow
    exact entry?_of_follow_name hfollow
  have hsize : ¬maxPath < (Path.ofNames (front ++ [directory])).utf8ByteSize :=
    Nat.not_lt.mpr (Nat.le_trans (utf8ByteSize_above_le hlead hne name) hshort)
  have hlookup : lookupNames (Path.ofNames (front ++ [directory])) = front ++ [directory] :=
    lookupNames_concat (Or.inl rfl) habove
  have hmake :
      tree.makeDirectory (Path.ofNames (front ++ [directory])) = .error .alreadyExists := by
    obtain ⟨found, hhandle⟩ := follow_handle_of_use hfront
    rw [makeDirectory, trace, if_neg hsize, hlookup, hhandle]
  have hprobe : tree.probe (Path.ofNames (front ++ [directory])) = .ok (some .directory) := by
    have hfind : tree.find (Path.ofNames (front ++ [directory])) = .ok .directory := by
      refine find_eq_ok_iff.mpr ⟨spot', ?_, hdir⟩
      rw [locate, trace, if_neg hsize, hlookup, hfront]
    rw [probe, hfind]
  rw [List.reverse_append, List.reverse_singleton, List.singleton_append, makeDirectoriesAt]
  simp only [List.reverse_cons, List.reverse_reverse, hmake, hprobe]

/-- A file is written where it is found. -/
theorem putFile_of_locate {old : List UInt8}
    (hlocate : tree.locate (absolute lead (above ++ [name])) = .ok spot)
    (hold : tree.entry? spot = some (.file old)) (content : List UInt8) :
    tree.putFile (absolute lead (above ++ [name])) content
      = .ok (tree.insert spot (.file content)) := by
  obtain ⟨hshort, hfollow⟩ := follow_of_locate hlead hnames hlocate
  rw [putFile, trace, if_neg (Nat.not_lt.mpr hshort), lookupNames_concat hlead hnames,
    follow_write_of_file hold hfollow]
  simp only [hold]

end

/-! ### What is written and what is not -/

/-- Trees that differ in the content of one file at most. -/
structure Rewritten (tree other : Tree) (spot : Place) (old new : List UInt8) : Prop where
  alike : tree.Alike other
  before : tree.entry? spot = some (.file old)
  after : other.entry? spot = some (.file new)
  elsewhere : ∀ place, place ≠ spot → other.entry? place = tree.entry? place

namespace Rewritten

variable {other : Tree} {old new : List UInt8} (h : tree.Rewritten other spot old new)

include h

/-- Rewriting can be undone. -/
theorem symm : other.Rewritten tree spot new old where
  alike := List.Perm.symm h.alike
  before := h.after
  after := h.before
  elsewhere place hne := (h.elsewhere place hne).symm

/-- Rewriting twice is rewriting once. -/
theorem trans {last : Tree} {newest : List UInt8} (h' : other.Rewritten last spot new newest) :
    tree.Rewritten last spot old newest where
  alike := List.Perm.trans h.alike h'.alike
  before := h.before
  after := h'.after
  elsewhere place hne := (h'.elsewhere place hne).trans (h.elsewhere place hne)

/-- The file reads as it was written. -/
theorem readOctets_eq {path : String} (hlocate : tree.locate path = .ok spot) :
    tree.readOctets path = .ok old ∧ other.readOctets path = .ok new := by
  have hlocate' : other.locate path = .ok spot := h.alike.locate_eq path ▸ hlocate
  exact ⟨readOctets_eq_ok_iff.mpr ⟨spot, hlocate, h.before⟩,
    readOctets_eq_ok_iff.mpr ⟨spot, hlocate', h.after⟩⟩

/-- A path that leads elsewhere reads the same. -/
theorem readOctets_eq_of_ne {path : String} (hlocate : tree.locate path ≠ .ok spot) :
    tree.readOctets path = other.readOctets path := by
  have hfind : tree.find path = other.find path := by
    unfold find
    rw [← h.alike.locate_eq]
    cases hplace : tree.locate path with
    | error fault => rfl
    | ok place =>
      rw [ok_bind, ok_bind, h.elsewhere place fun heq => hlocate (heq ▸ hplace)]
  unfold readOctets
  rw [hfind]

end Rewritten

/-- An entry that is put where it stands changes nothing but the order. -/
theorem reordered_insert {entry : Entry} (hspot : spot ≠ []) (h : tree.entry? spot = some entry) :
    tree.Reordered (tree.insert spot entry) := by
  obtain ⟨name, rest, rfl⟩ := List.exists_cons_of_ne_nil hspot
  -- The entry at the place is there already, and no place is listed twice.
  have hmem : ∀ found, (name :: rest, found) ∈ tree.entries ↔ found = entry := by
    intro found
    rw [← lookup_eq_some_iff]
    show tree.entry? (name :: rest) = some found ↔ _
    rw [h, Option.some.injEq, eq_comm]
  refine (List.perm_ext_iff_of_nodup tree.nodup_entries (nodup_entries _)).mpr fun pair => ?_
  obtain ⟨place, found⟩ := pair
  rw [mem_entries_insert, Prod.mk.injEq]
  by_cases hplace : place = name :: rest
  · subst hplace
    rw [hmem]
    simp
  · simp [hplace]

/-- Writing a file where one is changes its content only. -/
theorem rewritten_insert {old : List UInt8} (hold : tree.entry? spot = some (.file old))
    (new : List UInt8) : tree.Rewritten (tree.insert spot (.file new)) spot old new := by
  have hspot := ne_nil_of_file hold
  have houtline :
      (tree.insert spot (.file old)).outline = (tree.insert spot (.file new)).outline := by
    simp only [outline, insert, List.map_append, List.map_cons, List.map_nil, Entry.outline]
  exact {
    alike := (reordered_insert hspot hold).alike.trans (.of_eq houtline)
    before := hold
    after := entry?_insert_self hspot _
    elsewhere := fun _ hne => entry?_insert_of_ne hne _ }

end RepoAtlas.Tree
