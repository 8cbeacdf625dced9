import RepoAtlas.Proofs.Path.Staying
import RepoAtlas.Proofs.Tree.Alike
import RepoAtlas.Proofs.Tree.Location

/-!
# `RepoAtlas.Proofs.Tree.Copy`: copies of a directory at two locations

A directory of directories and files can be copied to another location, in the same tree or in
another one (`CopiedAt`). Lookups that stay below the two locations then go through the same entries,
step by step, and only places differ in front. Since paths get longer and shorter by the copy, what
is said of paths asks for room for them (`HasRoom`).

* `CopiedAt.advance_agree`: the steps of a lookup, `..` included.
* `CopiedAt.find_eq`, `CopiedAt.list_eq`: lookups of paths for which there is room.
* `CopiedAt.find_agree`, `CopiedAt.list_agree`: lookups of names, room or not.
-/

set_option autoImplicit false

namespace RepoAtlas.Tree

open RepoAtlas.Path (IsName IsStep stays)

/-- Two places with the same directories and files below them. -/
structure CopiedAt (tree other : Tree) (place place' : Place) : Prop where
  entry?_eq : ∀ names, tree.entry? (place ++ names) = other.entry? (place' ++ names)
  no_link : ∀ names target, tree.entry? (place ++ names) ≠ some (.link target)

/-- Everything below a place has a path that systems take. -/
def HasRoom (tree : Tree) (place : Place) : Prop :=
  ∀ names entry, tree.entry? (place ++ names) = some entry →
    (textOf (place ++ names)).utf8ByteSize ≤ maxPath

/-! ### Copies, entry by entry -/

/-- The entries below a place, with their names from there. -/
def entriesBelow (tree : Tree) (place : Place) : List (Place × Entry) :=
  tree.entries.filterMap fun pair =>
    if place <+: pair.1 ∧ pair.1 ≠ place then some (pair.1.drop place.length, pair.2) else none

/-- The entries below a place, by the names that lead to them from there. -/
theorem mem_entriesBelow {tree : Tree} {place names : Place} {entry : Entry} :
    (names, entry) ∈ tree.entriesBelow place ↔
      names ≠ [] ∧ tree.entry? (place ++ names) = some entry := by
  -- Only the top has an entry that is not listed.
  have hstands : names ≠ [] → (tree.entry? (place ++ names) = some entry ↔
      (place ++ names, entry) ∈ tree.entries) := by
    intro hne
    rw [← lookup_eq_some_iff]
    unfold entry?
    split
    · next h => exact absurd (List.append_eq_nil_iff.mp h).2 hne
    · rfl
  unfold entriesBelow
  rw [List.mem_filterMap]
  constructor
  · rintro ⟨⟨there, found⟩, hmem, hpair⟩
    split at hpair
    · next hbelow =>
      obtain ⟨⟨rest, hrest⟩, hne⟩ := hbelow
      simp only at hrest hne hpair
      subst hrest
      rw [List.drop_left] at hpair
      cases hpair
      have hnil : names ≠ [] := fun hnil => hne (by rw [hnil, List.append_nil])
      exact ⟨hnil, (hstands hnil).mpr hmem⟩
    · cases hpair
  · rintro ⟨hnil, hentry⟩
    refine ⟨(place ++ names, entry), (hstands hnil).mp hentry, ?_⟩
    rw [if_pos ⟨List.prefix_append _ _, by simpa using hnil⟩, List.drop_left]

/-- Directories with the same entries below them are copies, if there are no links. -/
theorem copiedAt_of_perm {tree other : Tree} {place place' : Place}
    (hplace : tree.entry? place = some .directory) (hplace' : other.entry? place' = some .directory)
    (h : (tree.entriesBelow place).Perm (other.entriesBelow place'))
    (hkinds : ∀ pair ∈ tree.entriesBelow place, pair.2.outline ∈ [.directory, .file []]) :
    tree.CopiedAt other place place' where
  entry?_eq := by
    intro names
    by_cases hnil : names = []
    · rw [hnil, List.append_nil, List.append_nil, hplace, hplace']
    · -- Below the place, the entries of both trees are the same by what is listed.
      have hmem : ∀ entry, tree.entry? (place ++ names) = some entry ↔
          other.entry? (place' ++ names) = some entry := by
        intro entry
        have hperm := h.mem_iff (a := (names, entry))
        rw [mem_entriesBelow, mem_entriesBelow] at hperm
        simpa [hnil] using hperm
      exact Option.ext hmem
  no_link := by
    intro names target hlink
    by_cases hnil : names = []
    · rw [hnil, List.append_nil, hplace] at hlink
      cases hlink
    · have hkind := hkinds _ (mem_entriesBelow.mpr ⟨hnil, hlink⟩)
      simp [Entry.outline] at hkind

/-- A tree has room at a place if no entry has too long a path. -/
theorem hasRoom_of_entries {tree : Tree}
    (h : ∀ pair ∈ tree.entries, (textOf pair.1).utf8ByteSize ≤ maxPath) (place : Place) :
    tree.HasRoom place := by
  intro names entry hentry
  generalize place ++ names = there at hentry
  cases there with
  | nil => decide
  | cons name rest => exact h _ ((lookup_eq_some_iff tree _ _).mp hentry)

/-! ### Lookups of proper names -/

/-- Where no link stands, names lead to the place that they spell. -/
theorem eq_append_of_advance {tree : Tree} {place found : Place} {names : List String}
    (hnames : ∀ n ∈ names, IsName n) (h : advance tree .use place names = .ok (.reached found)) :
    found = place ++ names := by
  -- By induction on the names, each of which is put behind the place: none goes up, and a link ends
  -- the step.
  induction names generalizing place with
  | nil =>
    cases h
    rw [List.append_nil]
  | cons name rest ih =>
    obtain ⟨hname, hrest⟩ := List.forall_mem_cons.mp hnames
    rw [advance_cons (by decide)] at h
    simp only [hname.ne_empty, hname.ne_here, hname.ne_up, decide_false, Bool.or_false,
      Bool.false_eq_true, if_false] at h
    split at h
    · split at h
      · cases h
      · split at h
        · split at h <;> cases h
        · split at h
          · next hhandle => simp at hhandle
          · cases h
        · have hfound := ih hrest h
          rwa [List.append_assoc, List.singleton_append] at hfound
    · cases h

namespace IsLocation

variable {tree : Tree} {place : Place} (h : tree.IsLocation place)

include h

/-- A lookup below a location goes by what is below, if no link stands there. -/
theorem locate_append {steps : List String} (hsteps : ∀ n ∈ steps, IsStep n)
    (hlink : ∀ directory target rest,
      advance tree .use place steps ≠ .ok (.atLink directory target rest)) :
    tree.locate (textOf (place ++ steps)) =
      if maxPath < (textOf (place ++ steps)).utf8ByteSize then .error .nameTooLong
      else
        match advance tree .use place steps with
        | .ok (.reached found) => .ok found
        | .ok _ => .error .notFound
        | .error fault => .error fault := by
  have hall : ∀ n ∈ place ++ steps, IsStep n :=
    List.forall_mem_append.mpr ⟨fun n hn => (h.names n hn).isStep, hsteps⟩
  -- The names of the place itself are passed first, and none of them is a link.
  have hadvance : advance tree .use [] (lookupNames (textOf (place ++ steps)))
      = advance tree .use place steps := by
    rw [textOf, lookupNames_absolute (Or.inl rfl) hall]
    split
    · next hnil =>
      obtain ⟨rfl, rfl⟩ := List.append_eq_nil_iff.mp hnil
      rfl
    · exact h.advance_append steps
  have hlocate := @locate_of_no_link tree (textOf (place ++ steps)) (by rw [hadvance]; exact hlink)
  rw [hadvance] at hlocate
  exact hlocate

end IsLocation

/-! ### Lookups in copies -/

/-- Stops of two lookups at the same names below two places. -/
inductive StopsAlike (place place' : Place) : Stop → Stop → Prop
  | reached (names : List String) :
      StopsAlike place place' (.reached (place ++ names)) (.reached (place' ++ names))
  | vacant (names : List String) (name : String) :
      StopsAlike place place' (.vacant (place ++ names) name) (.vacant (place' ++ names) name)

namespace CopiedAt

variable {tree other : Tree} {place place' : Place} (h : tree.CopiedAt other place place')

include h

/-- Steps that stay below lead to the same names. -/
theorem advance_agree (front : List String) {steps : List String} (hstays : stays front.length steps = true) :
    Agree Eq (StopsAlike place place') (advance tree .use (place ++ front) steps)
      (advance other .use (place' ++ front) steps) := by
  induction steps generalizing front with
  | nil => exact .ok (.reached front)
  | cons step rest ih =>
    rw [advance_cons (by decide), advance_cons (by decide), ← h.entry?_eq front]
    by_cases hdirectory : tree.entry? (place ++ front) = some .directory
    · rw [hdirectory]
      dsimp only
      simp only [Bool.or_eq_true, decide_eq_true_eq]
      unfold stays at hstays
      by_cases hblank : step = "" ∨ step = "."
      · rw [if_pos hblank] at hstays
        rw [if_pos hblank, if_pos hblank]
        exact ih front hstays
      rw [if_neg hblank] at hstays
      rw [if_neg hblank, if_neg hblank]
      by_cases hup : step = ".."
      · rw [if_pos hup] at hstays
        rw [if_pos hup, if_pos hup]
        -- The way up stays below, so there is a name to drop.
        rcases List.eq_nil_or_concat' front with rfl | ⟨front, last, rfl⟩
        · cases hstays
        · rw [List.length_append] at hstays
          rw [← List.append_assoc, ← List.append_assoc, List.dropLast_concat, List.dropLast_concat]
          exact ih front hstays
      · rw [if_neg hup] at hstays
        rw [if_neg hup, if_neg hup, List.append_assoc, List.append_assoc,
          ← h.entry?_eq (front ++ [step])]
        have hnext := ih (front ++ [step]) (by simpa using hstays)
        by_cases hlong : maxName < step.utf8ByteSize
        · rw [if_pos hlong, if_pos hlong]
          exact .error rfl
        rw [if_neg hlong, if_neg hlong]
        cases hentry : tree.entry? (place ++ (front ++ [step])) with
        | none =>
          dsimp only
          by_cases hblanks : rest.all (· = "") = true
          · rw [if_pos hblanks, if_pos hblanks]
            exact .ok (.vacant front step)
          · rw [if_neg hblanks, if_neg hblanks]
            exact .error rfl
        | some entry =>
          cases entry with
          | link target => exact absurd hentry (h.no_link _ target)
          | directory => exact hnext
          | file content => exact hnext
    · cases hentry : tree.entry? (place ++ front) with
      | none => exact .error rfl
      | some entry =>
        cases entry with
        | directory => exact absurd hentry hdirectory
        | file content => exact .error rfl
        | link target => exact .error rfl

/-- No link is met below a copied place. -/
theorem advance_ne_atLink {steps : List String} (hstays : stays 0 steps = true)
    (directory : Place) (target : String) (rest : List String) :
    advance tree .use place steps ≠ .ok (.atLink directory target rest) := by
  have hagree := h.advance_agree [] hstays
  rw [List.append_nil] at hagree
  intro hlink
  rw [hlink] at hagree
  generalize advance other .use (place' ++ []) steps = stop at hagree
  cases hagree with
  | ok halike => cases halike

/-- A copy is copied by what it copies. -/
theorem symm : other.CopiedAt tree place' place where
  entry?_eq names := (h.entry?_eq names).symm
  no_link names target := by
    rw [← h.entry?_eq]
    exact h.no_link names target

/-- Copied directories list the same. -/
theorem sorted_children_eq (names : List String) :
    sortByName (tree.children (place ++ names)) = sortByName (other.children (place' ++ names)) := by
  refine sortByName_eq_of_perm ?_ (tree.nodup_children _)
  refine (List.perm_ext_iff_of_nodup (tree.nodup_children _).of_map
    (other.nodup_children _).of_map).mpr ?_
  rintro ⟨name, entry⟩
  rw [mem_children, mem_children, List.append_assoc, List.append_assoc, h.entry?_eq]

section

variable (hlocation : tree.IsLocation place) (hlocation' : other.IsLocation place')

include hlocation hlocation'

/-- Steps that stay below a place lead to the same names below its copy. -/
theorem locate_agree {steps : List String} (hsteps : ∀ n ∈ steps, IsStep n)
    (hstays : stays 0 steps = true)
    (hroom : (textOf (place ++ steps)).utf8ByteSize ≤ maxPath)
    (hroom' : (textOf (place' ++ steps)).utf8ByteSize ≤ maxPath) :
    Agree Eq (fun found found' => ∃ names, found = place ++ names ∧ found' = place' ++ names)
      (tree.locate (textOf (place ++ steps))) (other.locate (textOf (place' ++ steps))) := by
  have hagree := h.advance_agree [] hstays
  rw [List.append_nil, List.append_nil] at hagree
  rw [hlocation.locate_append hsteps (h.advance_ne_atLink hstays),
    hlocation'.locate_append hsteps (h.symm.advance_ne_atLink hstays),
    if_neg (Nat.not_lt.mpr hroom), if_neg (Nat.not_lt.mpr hroom')]
  generalize advance tree .use place steps = stop at hagree
  generalize advance other .use place' steps = stop' at hagree
  -- No link is met, so a single step of both lookups decides.
  cases hagree with
  | ok halike =>
    cases halike with
    | reached names => exact .ok ⟨names, rfl, rfl⟩
    | vacant names name => exact .error rfl
  | error heq => exact .error heq

/-- Paths below copied places lead to the same entries. -/
theorem find_eq {steps : List String} (hsteps : ∀ n ∈ steps, IsStep n)
    (hstays : stays 0 steps = true)
    (hroom : (textOf (place ++ steps)).utf8ByteSize ≤ maxPath)
    (hroom' : (textOf (place' ++ steps)).utf8ByteSize ≤ maxPath) :
    tree.find (textOf (place ++ steps)) = other.find (textOf (place' ++ steps)) := by
  have hagree := h.locate_agree hlocation hlocation' hsteps hstays hroom hroom'
  unfold find
  refine agree_eq_iff.mp (hagree.bind ?_)
  rintro _ _ ⟨names, rfl, rfl⟩
  rw [h.entry?_eq]
  exact .refl (fun _ => rfl) _

/-- Paths below copied places list the same. -/
theorem list_eq {steps : List String} (hsteps : ∀ n ∈ steps, IsStep n)
    (hstays : stays 0 steps = true)
    (hroom : (textOf (place ++ steps)).utf8ByteSize ≤ maxPath)
    (hroom' : (textOf (place' ++ steps)).utf8ByteSize ≤ maxPath) :
    tree.list (textOf (place ++ steps)) = other.list (textOf (place' ++ steps)) := by
  have hagree := h.locate_agree hlocation hlocation' hsteps hstays hroom hroom'
  unfold list
  refine agree_eq_iff.mp (hagree.bind ?_)
  rintro _ _ ⟨names, rfl, rfl⟩
  rw [h.entry?_eq, h.sorted_children_eq]
  exact .refl (fun _ => rfl) _

omit hlocation' in
/-- A path below a copied place that leads somewhere leads to the place that it spells. -/
theorem eq_append_of_locate {names : List String} (hnames : ∀ n ∈ names, IsName n) {found : Place}
    (hfound : tree.locate (textOf (place ++ names)) = .ok found) : found = place ++ names := by
  have hlink := h.advance_ne_atLink (Path.stays_of_names hnames 0)
  rw [hlocation.locate_append (fun n hn => (hnames n hn).isStep) hlink] at hfound
  split at hfound
  · cases hfound
  · split at hfound
    · next hadvance =>
      cases hfound
      exact eq_append_of_advance hnames hadvance
    · cases hfound
    · cases hfound

section

variable (hroom : tree.HasRoom place) (hroom' : other.HasRoom place') {names : List String}
  (hnames : ∀ n ∈ names, IsName n)

include hroom hroom' hnames

omit hlocation' in
/-- What is found below a copied place has room at both places. -/
theorem room_of_find {entry : Entry} (hfind : tree.find (textOf (place ++ names)) = .ok entry) :
    (textOf (place ++ names)).utf8ByteSize ≤ maxPath ∧
      (textOf (place' ++ names)).utf8ByteSize ≤ maxPath := by
  obtain ⟨found, hfound, hentry⟩ := find_eq_ok_iff.mp hfind
  rw [h.eq_append_of_locate hlocation hnames hfound] at hentry
  exact ⟨hroom names entry hentry, hroom' names entry ((h.entry?_eq names).symm.trans hentry)⟩

/-- Names below copied places lead to the same entries, or to none. -/
theorem find_agree : Agree (fun _ _ => True) Eq (tree.find (textOf (place ++ names)))
    (other.find (textOf (place' ++ names))) := by
  by_cases hfits : (textOf (place ++ names)).utf8ByteSize ≤ maxPath ∧
      (textOf (place' ++ names)).utf8ByteSize ≤ maxPath
  · rw [h.find_eq hlocation hlocation' (fun n hn => (hnames n hn).isStep)
      (Path.stays_of_names hnames 0) hfits.1 hfits.2]
    exact .refl (fun _ => trivial) _
  · -- What is there has room at both places, so nothing is.
    exact .of_ne_ok
      (fun entry hfind => hfits (h.room_of_find hlocation hroom hroom' hnames hfind))
      fun entry hfind => hfits (h.symm.room_of_find hlocation' hroom' hroom hnames hfind).symm

/-- Names below copied places list the same, or nothing. -/
theorem list_agree : Agree (fun _ _ => True) Eq (tree.list (textOf (place ++ names)))
    (other.list (textOf (place' ++ names))) := by
  -- Where a path is too long in one of the trees, neither lists anything: there is no room for such
  -- a directory in the other.
  by_cases hfits : (textOf (place ++ names)).utf8ByteSize ≤ maxPath ∧
      (textOf (place' ++ names)).utf8ByteSize ≤ maxPath
  · rw [h.list_eq hlocation hlocation' (fun n hn => (hnames n hn).isStep)
      (Path.stays_of_names hnames 0) hfits.1 hfits.2]
    exact .refl (fun _ => trivial) _
  · refine .of_ne_ok (fun entries hlist => ?_) fun entries hlist => ?_
    · obtain ⟨found, hfound, hdir, -⟩ := list_eq_ok_iff.mp hlist
      exact hfits (h.room_of_find hlocation hroom hroom' hnames
        (find_eq_ok_iff.mpr ⟨found, hfound, hdir⟩))
    · obtain ⟨found, hfound, hdir, -⟩ := list_eq_ok_iff.mp hlist
      exact hfits (h.symm.room_of_find hlocation' hroom' hroom hnames
        (find_eq_ok_iff.mpr ⟨found, hfound, hdir⟩)).symm

end

end

end CopiedAt

end RepoAtlas.Tree
