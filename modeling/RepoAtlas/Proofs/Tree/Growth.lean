import RepoAtlas.Proofs.Tree.Descent
import RepoAtlas.Tree.Edit

/-!
# `RepoAtlas.Proofs.Tree.Growth`: what a log file leaves as it is

A run whose notices go to a file changes the tree that it scans. It only ever adds to the end of
that file, so a later tree has everything that an earlier one has: directories and links as they
are, files perhaps with other contents, and perhaps a new file. `Grown` says so place by place.

* `Grown.isDirectory`, `Grown.isFile`: what a path leads to stays a directory, or a file.
* `grown_extendFile`, `wellNamed_extendFile`: adding to a file is such a change, and a file that is
  made for it has a proper name.
-/

set_option autoImplicit false

namespace RepoAtlas.Tree

open RepoAtlas.Path (IsName)

/-- Two entries that are the same, or both files. -/
inductive SameKind : Entry → Entry → Prop
  | same (entry : Entry) : SameKind entry entry
  | file (content content' : List UInt8) : SameKind (.file content) (.file content')

/-- A later tree, in which everything still stands, files perhaps with other contents. -/
def Grown (tree later : Tree) : Prop :=
  ∀ place entry, tree.entry? place = some entry →
    ∃ entry', later.entry? place = some entry' ∧ SameKind entry entry'

namespace Grown

variable {tree later : Tree}

/-- A tree has everything that it has. -/
theorem refl (tree : Tree) : tree.Grown tree :=
  fun _ entry h => ⟨entry, h, .same entry⟩

/-- Trees that grow go on growing. A file may become another file more than once. -/
theorem trans {last : Tree} (h : tree.Grown later) (h' : later.Grown last) : tree.Grown last := by
  intro place entry hentry
  obtain ⟨entry', hentry', hkind⟩ := h place entry hentry
  obtain ⟨entry'', hentry'', hkind'⟩ := h' place entry' hentry'
  refine ⟨entry'', hentry'', ?_⟩
  cases hkind with
  | same entry => exact hkind'
  | file content content' =>
    cases hkind' with
    | same entry => exact .file content content'
    | file _ content'' => exact .file content content''

/-- Directories stay. -/
theorem entry?_directory (h : tree.Grown later) {place : Place}
    (hentry : tree.entry? place = some .directory) : later.entry? place = some .directory := by
  obtain ⟨entry, hlater, hkind⟩ := h place _ hentry
  cases hkind
  exact hlater

/-- Links stay, with their targets. -/
theorem entry?_link (h : tree.Grown later) {place : Place} {target : String}
    (hentry : tree.entry? place = some (.link target)) :
    later.entry? place = some (.link target) := by
  obtain ⟨entry, hlater, hkind⟩ := h place _ hentry
  cases hkind
  exact hlater

/-- Files stay files, perhaps with another content. -/
theorem entry?_file (h : tree.Grown later) {place : Place} {content : List UInt8}
    (hentry : tree.entry? place = some (.file content)) :
    ∃ content', later.entry? place = some (.file content') := by
  obtain ⟨entry, hlater, hkind⟩ := h place _ hentry
  cases hkind with
  | same entry => exact ⟨content, hlater⟩
  | file _ content' => exact ⟨content', hlater⟩

/-- A lookup that stops at something that is there stops there in a later tree. -/
theorem advance (h : tree.Grown later) {purpose : Purpose} (hpurpose : purpose ≠ .write)
    {place : Place} {names : List String} {stop : Stop}
    (hadvance : tree.advance purpose place names = .ok stop)
    (hthere : ∀ directory name, stop ≠ .vacant directory name) :
    later.advance purpose place names = .ok stop := by
  induction names generalizing place with
  | nil => exact hadvance
  | cons name rest ih =>
    rw [advance_cons hpurpose] at hadvance ⊢
    cases hentry : tree.entry? place with
    | none => simp only [hentry, reduceCtorEq] at hadvance
    | some entry =>
      cases entry with
      | file content => simp only [hentry, reduceCtorEq] at hadvance
      | link target => simp only [hentry, reduceCtorEq] at hadvance
      | directory =>
        simp only [hentry] at hadvance
        simp only [h.entry?_directory hentry]
        split
        · next hhere =>
          rw [if_pos hhere] at hadvance
          exact ih hadvance
        next hhere =>
        rw [if_neg hhere] at hadvance
        split
        · next hup =>
          rw [if_pos hup] at hadvance
          exact ih hadvance
        next hup =>
        rw [if_neg hup] at hadvance
        split
        · next hsize =>
          rw [if_pos hsize] at hadvance
          cases hadvance
        next hsize =>
        rw [if_neg hsize] at hadvance
        -- A name that is missing may be there later, but then the lookup ended with a vacancy.
        cases hnext : tree.entry? (place ++ [name]) with
        | none =>
          simp only [hnext] at hadvance
          split at hadvance
          · cases hadvance
            exact absurd rfl (hthere place name)
          · cases hadvance
        | some found =>
          cases found with
          | link target =>
            simp only [hnext] at hadvance
            simp only [h.entry?_link hnext]
            exact hadvance
          | directory =>
            simp only [hnext] at hadvance
            simp only [h.entry?_directory hnext]
            exact ih hadvance
          | file content =>
            obtain ⟨content', hnext'⟩ := h.entry?_file hnext
            simp only [hnext] at hadvance
            simp only [hnext']
            exact ih hadvance

/-- A path that is followed through links to something that is there leads to the same place later.
A lookup that may make its last name stands out: what was vacant need not be later. -/
theorem follow (h : tree.Grown later) {purpose : Purpose} (hpurpose : purpose ≠ .write)
    {links : Nat} {place target : Place} {names : List String}
    (hfollow : tree.follow purpose links place names = .ok (.reached target)) :
    later.follow purpose links place names = .ok (.reached target) := by
  -- Each link that is crossed stands with the same target later.
  induction links generalizing place names with
  | zero =>
    unfold Tree.follow at hfollow ⊢
    split at hfollow
    · cases hfollow
    · rw [h.advance hpurpose hfollow fun _ _ => Stop.noConfusion]
  | succ links ih =>
    unfold Tree.follow at hfollow ⊢
    split at hfollow
    · next directory link rest hlink =>
      rw [h.advance hpurpose hlink fun _ _ => Stop.noConfusion]
      exact ih hfollow
    · rw [h.advance hpurpose hfollow fun _ _ => Stop.noConfusion]

/-- So a path that was found is found at the same place. -/
theorem locate (h : tree.Grown later) {path : String} {place : Place}
    (hlocate : tree.locate path = .ok place) : later.locate path = .ok place := by
  unfold Tree.locate Tree.trace at hlocate ⊢
  split at hlocate
  · next hreached =>
    cases hlocate
    split at hreached
    · cases hreached
    · next hsize =>
      rw [if_neg hsize, h.follow (by decide) hreached]
  · cases hlocate
  · cases hlocate

/-- What a path leads to stays a directory. -/
theorem isDirectory (h : tree.Grown later) {path : String} (hdir : tree.isDirectory path = true) :
    later.isDirectory path = true := by
  obtain ⟨place, hplace, hentry⟩ := isDirectory_iff.mp hdir
  exact isDirectory_iff.mpr ⟨place, h.locate hplace, h.entry?_directory hentry⟩

/-- What a path leads to stays a file. -/
theorem isFile (h : tree.Grown later) {path : String} (hfile : tree.isFile path = true) :
    later.isFile path = true := by
  obtain ⟨content, hfind⟩ := isFile_iff.mp hfile
  obtain ⟨place, hplace, hentry⟩ := find_eq_ok_iff.mp hfind
  obtain ⟨content', hentry'⟩ := h.entry?_file hentry
  exact isFile_iff.mpr ⟨content', find_eq_ok_iff.mpr ⟨place, h.locate hplace, hentry'⟩⟩

end Grown

/-! ### Adding to a file -/

section

variable {tree : Tree} {place : Place} {content : List UInt8}

/-- Inserting takes out what stood at the place, and adds the new entry at the end. -/
theorem mem_entries_insert {entry : Entry} {pair : Place × Entry} :
    pair ∈ (tree.insert place entry).entries ↔
      (pair ∈ tree.entries ∧ pair.1 ≠ place) ∨ pair = (place, entry) := by
  show pair ∈ tree.entries.filter _ ++ [(place, entry)] ↔ _
  rw [List.mem_append, List.mem_filter, List.mem_singleton, decide_eq_true_eq]

/-- The new entry is at its place. The top is no place for one. -/
theorem entry?_insert_self (hplace : place ≠ []) (entry : Entry) :
    Tree.entry? (tree.insert place entry) place = some entry := by
  obtain ⟨name, rest, rfl⟩ := List.exists_cons_of_ne_nil hplace
  exact (lookup_eq_some_iff _ _ _).mpr (mem_entries_insert.mpr (Or.inr rfl))

/-- Other places keep their entries. -/
theorem entry?_insert_of_ne {other : Place} (hne : other ≠ place) (entry : Entry) :
    Tree.entry? (tree.insert place entry) other = tree.entry? other := by
  cases other with
  | nil => rfl
  | cons name rest =>
    refine Option.ext fun found => ?_
    show (tree.insert place entry).entries.lookup (name :: rest) = some found ↔
      tree.entries.lookup (name :: rest) = some found
    rw [lookup_eq_some_iff, mem_entries_insert, ← lookup_eq_some_iff, Prod.mk.injEq]
    exact ⟨fun h => (h.resolve_right fun heq => hne heq.1).1, fun h => Or.inl ⟨h, hne⟩⟩

/-- The top is a directory, so a file is never there. -/
theorem ne_nil_of_file (hentry : tree.entry? place = some (.file content)) : place ≠ [] := by
  rintro rfl
  cases hentry

/-- A file in place of nothing, or of a file, takes nothing away. -/
theorem grown_insert (hplace : ∀ entry, tree.entry? place = some entry → ∃ old, entry = .file old)
    (content : List UInt8) : tree.Grown (tree.insert place (.file content)) := by
  intro other entry hentry
  -- Only the place itself changes, and there a file gives way to a file.
  by_cases hsame : other = place
  · subst hsame
    obtain ⟨old, rfl⟩ := hplace entry hentry
    exact ⟨.file content, entry?_insert_self (ne_nil_of_file hentry) _, .file old content⟩
  · exact ⟨entry, (entry?_insert_of_ne hsame _).trans hentry, .same entry⟩

/-- A place of proper names may be filled. -/
theorem wellNamed_insert (h : tree.WellNamed) {entry : Entry} (hplace : ∀ n ∈ place, IsName n) :
    (tree.insert place entry).WellNamed := by
  intro pair hpair
  rcases mem_entries_insert.mp hpair with ⟨hold, -⟩ | rfl
  · exact h pair hold
  · exact hplace

/-- What stands in a well-named tree has a place of proper names, the top included. -/
theorem WellNamed.isName_of_stands (h : tree.WellNamed) {entry : Entry}
    (hentry : tree.entry? place = some entry) : ∀ n ∈ place, IsName n := by
  cases place with
  | nil => exact fun n hn => absurd hn List.not_mem_nil
  | cons name rest => exact h _ ((lookup_eq_some_iff tree _ _).mp hentry)

/-- A lookup only ever says that a proper name is missing from a directory. -/
structure IsVacancy (tree : Tree) (directory : Place) (name : String) : Prop where
  stands : tree.entry? directory = some .directory
  isName : IsName name
  missing : tree.entry? (directory ++ [name]) = none

/-- The names that a lookup goes through are pieces between slashes, and perhaps a blank one at the
end. -/
theorem no_slash_of_mem_lookupNames {path name : String} (h : name ∈ lookupNames path) :
    '/' ∉ name.toList := by
  unfold lookupNames at h
  rcases List.mem_append.mp h with hsegment | hblank
  · exact Path.no_slash_of_mem_segments (List.mem_filter.mp hsegment).1
  · split at hblank
    · rw [List.mem_singleton.mp hblank]
      exact List.not_mem_nil
    · exact absurd hblank List.not_mem_nil

/-- What a lookup of names without slashes says where it stops: what is missing has a proper name,
and no slash is left. -/
def StopsWell (tree : Tree) : Stop → Prop
  | .reached _ => True
  | .vacant directory name => IsVacancy tree directory name
  | .atLink _ _ rest => ∀ n ∈ rest, '/' ∉ n.toList

/-- A lookup along names without slashes stops well, by induction on the names. -/
theorem stopsWell_advance {purpose : Purpose} {names : List String}
    (hnames : ∀ n ∈ names, '/' ∉ n.toList) {stop : Stop}
    (h : tree.advance purpose place names = .ok stop) : StopsWell tree stop := by
  induction names generalizing place with
  | nil =>
    cases h
    exact trivial
  | cons name rest ih =>
    obtain ⟨hname, hrest⟩ := List.forall_mem_cons.mp hnames
    unfold advance at h
    split at h
    · next hdir =>
      split at h
      · exact ih hrest h
      next hhere =>
      split at h
      · exact ih hrest h
      next hup =>
      split at h
      · cases h
      split at h
      · cases h
      split at h
      · next hmissing =>
        split at h
        · cases h
          -- Every test that the name came through is one part of its being proper.
          rw [Bool.or_eq_true, decide_eq_true_eq, decide_eq_true_eq, not_or] at hhere
          exact ⟨hdir, ⟨hhere.1, hhere.2, hup, hname⟩, hmissing⟩
        · cases h
      · split at h
        · cases h
          exact trivial
        · cases h
          exact hrest
      · exact ih hrest h
    · cases h

/-- So does one that follows links, by induction on how many it may follow. -/
theorem stopsWell_follow {purpose : Purpose} {links : Nat} {names : List String}
    (hnames : ∀ n ∈ names, '/' ∉ n.toList) {stop : Stop}
    (h : tree.follow purpose links place names = .ok stop) : StopsWell tree stop := by
  induction links generalizing place names with
  | zero =>
    unfold follow at h
    split at h
    · cases h
    · exact stopsWell_advance hnames h
  | succ links ih =>
    unfold follow at h
    split at h
    -- The lookup starts again with the names of the target, which have no slashes either.
    · next hlink =>
      refine ih (fun n hn => ?_) h
      rcases List.mem_append.mp hn with htarget | hleft
      · exact no_slash_of_mem_lookupNames htarget
      · exact stopsWell_advance hnames hlink n hleft
    · exact stopsWell_advance hnames h

/-- So does every lookup of a path. -/
theorem stopsWell_trace {purpose : Purpose} {path : String} {stop : Stop}
    (h : tree.trace purpose path = .ok stop) : StopsWell tree stop := by
  unfold trace at h
  split at h
  · cases h
  · exact stopsWell_follow (fun _ => no_slash_of_mem_lookupNames) h

/-- Writing a file puts it in place of a file, or where nothing is under a proper name. -/
theorem putFile_eq_ok {path : String} {later : Tree} (h : tree.putFile path content = .ok later) :
    ∃ place, later = tree.insert place (.file content) ∧
      ((∃ old, tree.entry? place = some (.file old)) ∨
        ∃ directory name, IsVacancy tree directory name ∧ place = directory ++ [name]) := by
  unfold putFile at h
  split at h
  · next directory name htrace =>
    cases h
    exact ⟨_, rfl, Or.inr ⟨directory, name, stopsWell_trace htrace, rfl⟩⟩
  · next place htrace =>
    split at h
    · next old hentry =>
      cases h
      exact ⟨place, rfl, Or.inl ⟨old, hentry⟩⟩
    · cases h
  · cases h
  · cases h

/-- Writing a file takes nothing away. -/
theorem grown_putFile {path : String} {later : Tree} (h : tree.putFile path content = .ok later) :
    tree.Grown later := by
  obtain ⟨place, rfl, hplace⟩ := putFile_eq_ok h
  refine grown_insert (fun entry hentry => ?_) content
  rcases hplace with ⟨old, hold⟩ | ⟨directory, name, hvacant, rfl⟩
  · exact ⟨old, Option.some.inj (hentry.symm.trans hold)⟩
  · exact absurd (hentry.symm.trans hvacant.missing) (Option.some_ne_none entry)

/-- Writing a file keeps a tree well named: the place was taken by a file, or its last name is
proper. -/
theorem wellNamed_putFile (hnamed : tree.WellNamed) {path : String} {later : Tree}
    (h : tree.putFile path content = .ok later) : later.WellNamed := by
  obtain ⟨place, rfl, hplace⟩ := putFile_eq_ok h
  refine wellNamed_insert hnamed ?_
  rcases hplace with ⟨old, hold⟩ | ⟨directory, name, hvacant, rfl⟩
  · exact hnamed.isName_of_stands hold
  · exact List.forall_mem_append.mpr
      ⟨hnamed.isName_of_stands hvacant.stands, List.forall_mem_singleton.mpr hvacant.isName⟩

/-- Adding to a file writes it, with one content or another. -/
theorem extendFile_eq_ok {path : String} {later : Tree}
    (h : tree.extendFile path content = .ok later) :
    ∃ whole, tree.putFile path whole = .ok later := by
  unfold extendFile at h
  split at h
  · exact ⟨_, h⟩
  · exact ⟨_, h⟩

/-- Adding to a file takes nothing away. -/
theorem grown_extendFile {path : String} {later : Tree}
    (h : tree.extendFile path content = .ok later) : tree.Grown later :=
  (extendFile_eq_ok h).elim fun _ h => grown_putFile h

/-- Adding to a file keeps a tree well named. -/
theorem wellNamed_extendFile (hnamed : tree.WellNamed) {path : String} {later : Tree}
    (h : tree.extendFile path content = .ok later) : later.WellNamed :=
  (extendFile_eq_ok h).elim fun _ h => wellNamed_putFile hnamed h

end

end RepoAtlas.Tree
