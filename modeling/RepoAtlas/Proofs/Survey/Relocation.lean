import RepoAtlas.Proofs.Session.Opening
import RepoAtlas.Proofs.SideFile.Agreement
import RepoAtlas.Proofs.Source.Candidates
import RepoAtlas.Proofs.Survey.Correspondence
import RepoAtlas.Proofs.Survey.Depth
import RepoAtlas.Proofs.Tree.Copy

/-!
# `RepoAtlas.Proofs.Survey.Relocation`: surveys of copies

A repository without links can be copied to another location. The survey of the copy comes across
the same names below another root, so it leads to the same graph, as long as nothing in the
repository points out of it.

* `corresponds_of_copies`: the copies correspond to each other, name by name.
* `resolve?_agrees`, `first_agrees_of_copies`, `rootsOf_relocated`: so do references, side files and
  the roots of manual modules that stay inside.
* `survey_relocates`: the surveys of both lead to the same graph, or both fail.
-/

set_option autoImplicit false

namespace RepoAtlas.Survey

open RepoAtlas.Module
open RepoAtlas.Path (IsName IsStep IsNormal StaysBelow)
open RepoAtlas.Tree (textOf SameKind)
open RepoAtlas.Work (outcome)

/-- Paths with the same names below two places, of which there are some. -/
def Relocated (place place' : Place) (path path' : String) : Prop :=
  ∃ names, names ≠ [] ∧ (∀ n ∈ names, IsName n) ∧
    path = textOf (place ++ names) ∧ path' = textOf (place' ++ names)

/-- A repository at two locations, with room for its paths at both. -/
structure AreCopies (tree other : Tree) (place place' : Place) : Prop where
  named : tree.WellNamed
  named' : other.WellNamed
  location : tree.IsLocation place
  location' : other.IsLocation place'
  copied : tree.CopiedAt other place place'
  room : tree.HasRoom place
  room' : other.HasRoom place'
  settingsRoom : (Work.settingsText place).utf8ByteSize ≤ Tree.maxPath
  settingsRoom' : (Work.settingsText place').utf8ByteSize ≤ Tree.maxPath

/-- Copies are copies of each other. -/
theorem AreCopies.symm {tree other : Tree} {place place' : Place}
    (copies : AreCopies tree other place place') : AreCopies other tree place' place :=
  ⟨copies.named', copies.named, copies.location', copies.location, copies.copied.symm,
    copies.room', copies.room, copies.settingsRoom', copies.settingsRoom⟩

/-- The location itself is there. -/
theorem AreCopies.pathExists {tree other : Tree} {place place' : Place}
    (copies : AreCopies tree other place place') : tree.pathExists (textOf place) = true := by
  have hentry := copies.location.entry?_eq
  have hroom : (textOf place).utf8ByteSize ≤ Tree.maxPath := by
    have h := copies.room [] .directory (by rwa [List.append_nil])
    rwa [List.append_nil] at h
  have hplace : tree.locate (textOf place) = .ok place := by
    rw [copies.location.locate_eq, if_neg (Nat.not_lt.mpr hroom)]
  unfold Tree.pathExists
  rw [Tree.find_eq_ok_iff.mpr ⟨place, hplace, hentry⟩]
  rfl

/-! ### Paths below two places -/

section

variable {place place' : Place} (hplace : ∀ n ∈ place, IsName n) (hplace' : ∀ n ∈ place', IsName n)

include hplace hplace'

/-- Paths are moved one to one, with what they are under. -/
theorem isMatching_relocated : IsMatching (Relocated place place') where
  eq_iff := by
    rintro a a' b b' ⟨names, -, hnames, rfl, rfl⟩ ⟨others, -, hothers, rfl, rfl⟩
    -- Names follow from the path, since none of them has a slash.
    have hinj : ∀ {front : Place}, (∀ n ∈ front, IsName n) →
        (textOf (front ++ names) = textOf (front ++ others) ↔ names = others) := by
      intro front hfront
      refine ⟨fun heq => ?_, fun heq => by rw [heq]⟩
      exact List.append_cancel_left (Tree.textOf_inj (List.forall_mem_append.mpr ⟨hfront, hnames⟩)
        (List.forall_mem_append.mpr ⟨hfront, hothers⟩) heq)
    rw [hinj hplace, hinj hplace']
  normalize := by
    rintro a a' ⟨names, hne, hnames, rfl, rfl⟩
    rw [(Tree.isNormal_textOf (List.forall_mem_append.mpr ⟨hplace, hnames⟩)).normalize_eq,
      (Tree.isNormal_textOf (List.forall_mem_append.mpr ⟨hplace', hnames⟩)).normalize_eq]
    exact ⟨names, hne, hnames, rfl, rfl⟩

/-- A name joined to a moved path is moved along. -/
theorem relocated_join {names : List String} (hnames : ∀ n ∈ names, IsName n) {name : String}
    (hname : IsName name) : Relocated place place' (Path.join (textOf (place ++ names)) name)
      (Path.join (textOf (place' ++ names)) name) := by
  rw [Tree.join_textOf (List.forall_mem_append.mpr ⟨hplace, hnames⟩) hname,
    Tree.join_textOf (List.forall_mem_append.mpr ⟨hplace', hnames⟩) hname]
  refine ⟨names ++ [name], List.append_ne_nil_of_right_ne_nil _ (List.cons_ne_nil _ _),
    List.forall_mem_append.mpr ⟨hnames, List.forall_mem_singleton.mpr hname⟩, ?_, ?_⟩ <;>
    rw [List.append_assoc]

/-- Being a source goes by the extension, which is not moved. -/
theorem isSource_relocated {path path' : String} (h : Relocated place place' path path')
    (extensions : List String) : Path.isSource path extensions = Path.isSource path' extensions := by
  obtain ⟨names, hne, hnames, rfl, rfl⟩ := h
  obtain ⟨front, last, rfl⟩ := (List.eq_nil_or_concat' names).resolve_left hne
  obtain ⟨hfront, hlast⟩ := List.forall_mem_append.mp hnames
  have hname := List.forall_mem_singleton.mp hlast
  unfold Path.isSource Path.extensionOf
  rw [← List.append_assoc, ← List.append_assoc,
    Tree.lastName_textOf (List.forall_mem_append.mpr ⟨hplace, hfront⟩) hname,
    Tree.lastName_textOf (List.forall_mem_append.mpr ⟨hplace', hfront⟩) hname]

/-- Paths below two places lie under matched roots alike, also if they are the places themselves. -/
theorem lieAlike_textOf (names : List String) (hnames : ∀ n ∈ names, IsName n) :
    Registry.Matches.LieAlike (Relocated place place') (textOf (place ++ names))
      (textOf (place' ++ names)) := by
  rintro root root' ⟨under, hne, hunder, rfl, rfl⟩
  have hwithin : ∀ {front : Place}, (∀ n ∈ front, IsName n) →
      (Path.isWithin (Path.normalize (textOf (front ++ names))) (textOf (front ++ under)) = true
        ↔ under <+: names) := by
    intro front hfront
    have hall : ∀ n ∈ front ++ names, IsName n := List.forall_mem_append.mpr ⟨hfront, hnames⟩
    rw [(Tree.isNormal_textOf hall).normalize_eq, textOf, textOf,
      Path.isWithin_absolute (Or.inl rfl) (List.append_ne_nil_of_right_ne_nil _ hne)
        (List.forall_mem_append.mpr ⟨hfront, hunder⟩) hall, List.prefix_append_right_inj]
  rw [Bool.eq_iff_iff, hwithin hplace, hwithin hplace']

end

/-! ### The copies correspond -/

section

variable {tree other : Tree} {place place' : Place} (copies : AreCopies tree other place place')

include copies

/-- A moved path leads to a copy of the entry. -/
theorem find_relocated {path path' : String} (h : Relocated place place' path path') :
    Agree (fun _ _ => True) Eq (tree.find path) (other.find path') := by
  obtain ⟨names, -, hnames, rfl, rfl⟩ := h
  exact copies.copied.find_agree copies.location copies.location' copies.room copies.room' hnames

/-- A directory and its copy list partners. -/
theorem partners_of_list (names : List String) (hnames : ∀ n ∈ names, IsName n) :
    Agree (fun _ _ => True)
      (List.Forall₂ (Partners (fun _ _ => True) (Relocated place place') tree other
        (textOf (place ++ names)) (textOf (place' ++ names))))
      (tree.list (textOf (place ++ names))) (other.list (textOf (place' ++ names))) := by
  have hagree := copies.copied.list_agree copies.location copies.location' copies.room
    copies.room' hnames
  -- A copied directory lists the same entries. None of them is a link, so what is seen of an entry
  -- is the entry.
  cases hlist : tree.list (textOf (place ++ names)) with
  | error fault =>
    rw [hlist] at hagree
    generalize other.list (textOf (place' ++ names)) = listing at hagree
    cases hagree with
    | error _ => exact .error trivial
  | ok entries =>
    rw [hlist] at hagree
    generalize other.list (textOf (place' ++ names)) = listing at hagree
    cases hagree with
    | ok heq =>
      subst heq
      refine .ok (List.forall₂_same.mpr fun pair hpair => ?_)
      obtain ⟨found, hfound, -, -⟩ := Tree.list_eq_ok_iff.mp hlist
      have hentry := (Tree.mem_list hlist hfound).mp hpair
      rw [copies.copied.eq_append_of_locate copies.location hnames hfound, List.append_assoc]
        at hentry
      have hname := copies.named.isName_of_mem_list hlist hpair
      refine ⟨rfl, .same _, relocated_join copies.location.names copies.location'.names hnames hname,
        ?_⟩
      obtain ⟨name, entry⟩ := pair
      cases entry with
      | directory => exact .ok (.some (.same _))
      | file content => exact .ok (.some (.same _))
      | link target => exact absurd hentry (copies.copied.no_link _ target)

variable (hnull : Path.hasNull (textOf place) = false) (hnull' : Path.hasNull (textOf place') = false)

include hnull hnull'

/-- The entry files of a server are moved, and are files on both sides or on neither. -/
theorem serverEntry_relocated {name : String} (hname : name ∈ serverEntries) :
    Relocated place place' (Path.below (textOf place) name) (Path.below (textOf place') name) ∧
      Agree (fun _ _ => True) Eq (isFileAt tree (Path.below (textOf place) name))
        (isFileAt other (Path.below (textOf place') name)) := by
  -- The names of entry files are shorter than that of the settings file, so there is room for them.
  have hnames : ∀ name ∈ serverEntries, IsName name ∧ Path.hasNull name = false ∧
      name.utf8ByteSize ≤ Settings.fileName.utf8ByteSize := by decide
  obtain ⟨hproper, hplain, hshort⟩ := hnames name hname
  have hall : ∀ n ∈ [name], IsName n := List.forall_mem_singleton.mpr hproper
  have hbelow := Tree.below_textOf copies.location.names hproper
  have hbelow' := Tree.below_textOf copies.location'.names hproper
  have hfind := copies.copied.find_eq copies.location copies.location'
    (fun n hn => (hall n hn).isStep) (Path.stays_of_names hall 0)
    (Work.room_of_shorter copies.location.names copies.settingsRoom hproper hshort)
    (Work.room_of_shorter copies.location'.names copies.settingsRoom' hproper hshort)
  have hempty := Path.hasNull_below hnull hplain
  have hempty' := Path.hasNull_below hnull' hplain
  rw [hbelow] at hempty ⊢
  rw [hbelow'] at hempty' ⊢
  refine ⟨⟨[name], List.cons_ne_nil _ _, hall, rfl, rfl⟩, ?_⟩
  unfold isFileAt Tree.probe
  rw [hempty, hempty', hfind]
  -- Both trees find the same; a path that is too long is a failure in both.
  generalize other.find (textOf (place' ++ [name])) = found
  cases found with
  | ok entry =>
    cases entry with
    | directory => exact .ok rfl
    | file content => exact .ok rfl
    | link target => exact .ok rfl
  | error fault =>
    cases fault with
    | nameTooLong => exact .error trivial
    | _ => exact .ok rfl

/-- Copies correspond to each other, name by name. -/
theorem corresponds_of_copies : Corresponds (fun _ _ => True) (Relocated place place') tree other
    (textOf place) (textOf place') where
  matching := isMatching_relocated copies.location.names copies.location'.names
  failure _ := trivial
  list_root := by
    have h := partners_of_list copies [] (List.forall_mem_nil _)
    rwa [List.append_nil, List.append_nil] at h
  list := by
    rintro path path' ⟨names, -, hnames, rfl, rfl⟩
    exact partners_of_list copies names hnames
  find h := (find_relocated copies h).imp (fun _ _ h => h) fun _ _ heq => heq ▸ .same _
  isSource := isSource_relocated copies.location.names copies.location'.names
  -- What is shown of a path are its names below the root, which are the same on both sides.
  shown := by
    rintro path path' ⟨names, hne, hnames, rfl, rfl⟩
    rw [textOf, textOf, textOf, textOf,
      Path.hint?_absolute (Or.inl rfl) copies.location.names hnames hne,
      Path.hint?_absolute (Or.inl rfl) copies.location'.names hnames hne]
  relative := by
    rintro path path' ⟨names, hne, hnames, rfl, rfl⟩
    rw [(Tree.isNormal_textOf copies.location.names).normalize_eq,
      (Tree.isNormal_textOf copies.location'.names).normalize_eq, textOf, textOf, textOf, textOf,
      Path.relative?_absolute (Or.inl rfl) copies.location.names hnames hne,
      Path.relative?_absolute (Or.inl rfl) copies.location'.names hnames hne]
  serverEntry _ hname := serverEntry_relocated copies hnull hnull' hname
  -- Beyond its own bound, a depth leads to the same result, so the greater of both bounds serves
  -- both trees.
  containers := by
    refine ⟨max (containerDepth tree) (containerDepth other), ?_⟩
    rintro settings name path path' ⟨names, -, hnames, rfl, rfl⟩
    have hnormal := Tree.isNormal_textOf (List.forall_mem_append.mpr ⟨copies.location.names, hnames⟩)
    have hnormal' :=
      Tree.isNormal_textOf (List.forall_mem_append.mpr ⟨copies.location'.names, hnames⟩)
    exact ⟨container_start copies.named hnormal name (le_max_left _ _),
      container_start copies.named' hnormal' name (le_max_right _ _)⟩
  nesting := by
    refine ⟨max tree.entries.length other.entries.length + 1, ?_⟩
    rintro scope scope' owners owners' id path path' ⟨names, -, hnames, rfl, rfl⟩
    have hnormal := Tree.isNormal_textOf (List.forall_mem_append.mpr ⟨copies.location.names, hnames⟩)
    have hnormal' :=
      Tree.isNormal_textOf (List.forall_mem_append.mpr ⟨copies.location'.names, hnames⟩)
    exact ⟨below_start copies.named hnormal (Nat.lt_succ_of_le (le_max_left _ _)),
      below_start copies.named' hnormal' (Nat.lt_succ_of_le (le_max_right _ _))⟩

/-! ### Side files -/

omit hnull hnull' in
/-- What stands below the locations, with room for its path at both, reads the same. -/
theorem readText_relocated {steps : List String} (hsteps : ∀ n ∈ steps, IsStep n)
    (hstays : Path.stays 0 steps = true)
    (hroom : (textOf (place ++ steps)).utf8ByteSize ≤ Tree.maxPath)
    (hroom' : (textOf (place' ++ steps)).utf8ByteSize ≤ Tree.maxPath) :
    tree.readText (textOf (place ++ steps)) = other.readText (textOf (place' ++ steps)) := by
  have hfind := copies.copied.find_eq copies.location copies.location' hsteps hstays hroom hroom'
  unfold Tree.readText Tree.readOctets
  rw [hfind]

/-- A side file inside says the same, and so does its copy. -/
theorem read_relocated {side : String} (hside : StaysBelow side)
    (hroom : (Path.below (textOf place) side).utf8ByteSize ≤ Tree.maxPath)
    (hroom' : (Path.below (textOf place') side).utf8ByteSize ≤ Tree.maxPath) :
    Agree (fun _ _ => True) SideFile.Reading.Matches
      (SideFile.read tree (Path.below (textOf place) side))
      (SideFile.read other (Path.below (textOf place') side)) := by
  have hbelow : Path.below (textOf place) side = textOf (place ++ Path.names side) :=
    Path.below_absolute (Or.inl rfl) copies.location.names hside.relative
  have hbelow' : Path.below (textOf place') side = textOf (place' ++ Path.names side) :=
    Path.below_absolute (Or.inl rfl) copies.location'.names hside.relative
  have hempty : Path.hasNull (Path.below (textOf place') side)
      = Path.hasNull (Path.below (textOf place) side) := by
    rw [Path.hasNull_below_eq hnull, Path.hasNull_below_eq hnull']
  -- The place stays below the root, so the lookup never leaves what is copied.
  have hstays : Path.stays 0 (Path.names side) = true :=
    (Path.stays_filter 0 _).trans hside.stays
  rw [hbelow] at hroom hempty ⊢
  rw [hbelow'] at hroom' hempty ⊢
  have htext := readText_relocated copies (fun n hn => Path.isStep_of_mem_names hn) hstays hroom
    hroom'
  unfold SideFile.read
  rw [hempty, htext]
  split
  · exact .error trivial
  · split
    · exact .ok .missing
    · exact .ok (.unreadable _ _)
    · split
      · exact .ok (.content _)
      · exact .error trivial
      · exact .error trivial
      · exact .ok (.unreadable _ _)

/-- Side files inside say the same. -/
theorem first_relocated {sides : List String} (hsides : ∀ side ∈ sides, StaysBelow side)
    (hroom : ∀ side ∈ sides, (Path.below (textOf place) side).utf8ByteSize ≤ Tree.maxPath)
    (hroom' : ∀ side ∈ sides, (Path.below (textOf place') side).utf8ByteSize ≤ Tree.maxPath) :
    Traced.Agrees (fun _ _ => True) Eq (SideFile.first tree (textOf place) sides)
      (SideFile.first other (textOf place') sides) :=
  SideFile.first_agrees fun side hside =>
    read_relocated copies hnull hnull' (hsides side hside) (hroom side hside) (hroom' side hside)

omit hnull hnull' in
/-- The roots of a manual module inside have the same names. -/
theorem rootsOf_relocated {entry : Json}
    (hpaths : ∀ path ∈ SideFile.pathsOf entry, StaysBelow path ∧ Path.normalNames path ≠ []) :
    List.Forall₂ (Relocated place place') (SideFile.rootsOf (textOf place) entry)
      (SideFile.rootsOf (textOf place') entry) := by
  rw [SideFile.rootsOf_eq, SideFile.rootsOf_eq, List.forall₂_map_left_iff,
    List.forall₂_map_right_iff, List.forall₂_same]
  intro path hpath
  obtain ⟨hstays, hne⟩ := hpaths path hpath
  -- A path that stays below the root is resolved to its names under the root.
  have hresolve : ∀ {front : Place}, (∀ n ∈ front, IsName n) →
      Path.resolveUnder (textOf front) path = textOf (front ++ Path.normalNames path) := by
    intro front hfront
    have hlanding := Path.landing_append front [] hstays.stays
    rw [List.append_nil] at hlanding
    unfold Path.resolveUnder
    rw [hstays.relative, if_neg Bool.false_ne_true, textOf,
      Path.normalize_join_absolute (Or.inl rfl) hfront hstays.relative, hlanding]
    rfl
  exact ⟨Path.normalNames path, hne, fun n hn => Path.isName_of_mem_normalNames hn,
    hresolve copies.location.names, hresolve copies.location'.names⟩

/-! ### References -/

omit hnull hnull' in
/-- A reference that does not lead out means the same. -/
theorem resolve?_relocated {directory : List String} (hdirectory : ∀ n ∈ directory, IsName n)
    {name : String} (hname : IsName name) {reference : String}
    (hstays : Path.stays directory.length (Path.segments reference) = true) :
    Option.Rel (Registry.Matches.LieAlike (Relocated place place'))
      (Source.resolve? tree (textOf (place ++ (directory ++ [name]))) reference)
      (Source.resolve? other (textOf (place' ++ (directory ++ [name]))) reference) := by
  have hplace := copies.location.names
  have hplace' := copies.location'.names
  unfold Source.resolve?
  by_cases hrelative : Source.isRelative reference = true
  · rw [if_pos hrelative, if_pos hrelative]
    rcases List.eq_nil_or_concat' (Path.landing directory reference) with hnil | ⟨front, last, heq⟩
    · -- The reference spells the location itself, which is there.
      have hfirst : ∀ {t : Tree} {front : Place}, (∀ n ∈ front, IsName n) →
          t.pathExists (textOf front) = true →
          (Source.candidatePaths (textOf (front ++ (directory ++ [name]))) reference).find?
            t.pathExists = some (textOf front) := by
        intro t front hfront hexists
        have hbase := Source.base_textOf hfront hdirectory hname hrelative hstays
        rw [hnil, List.append_nil] at hbase
        unfold Source.candidatePaths
        rw [hbase]
        exact List.find?_cons_of_pos hexists
      rw [hfirst hplace copies.pathExists, hfirst hplace' copies.symm.pathExists, Option.map_some,
        Option.map_some, (Tree.isNormal_textOf hplace).normalize_eq,
        (Tree.isNormal_textOf hplace').normalize_eq]
      have halike := lieAlike_textOf hplace hplace' [] (List.forall_mem_nil _)
      rw [List.append_nil, List.append_nil] at halike
      exact .some halike
    · have hproper : ∀ n ∈ front ++ [last], IsName n := fun n hn =>
        Path.isName_of_mem_landing hdirectory (heq ▸ hn)
      obtain ⟨hfront, hlast⟩ := List.forall_mem_append.mp hproper
      rw [Source.candidatePaths_textOf hplace hdirectory hname hrelative hstays heq,
        Source.candidatePaths_textOf hplace' hdirectory hname hrelative hstays heq]
      have hcandidates : List.Forall₂ (Relocated place place')
          ((Source.candidateNames front last).map fun names => textOf (place ++ names))
          ((Source.candidateNames front last).map fun names => textOf (place' ++ names)) := by
        rw [List.forall₂_map_left_iff, List.forall₂_map_right_iff, List.forall₂_same]
        exact fun names hmem => ⟨names, Source.ne_nil_of_mem_candidateNames hmem,
          Source.isName_of_mem_candidateNames hfront (List.forall_mem_singleton.mp hlast) hmem,
          rfl, rfl⟩
      have hexists : ∀ path path', Relocated place place' path path' →
          tree.pathExists path = other.pathExists path' := fun path path' h =>
        congrArg Option.isSome (find_relocated copies h).toOption_eq
      have hfound := rel_find?_of_forall₂ hcandidates hexists
      generalize List.find? tree.pathExists _ = led at hfound
      generalize List.find? other.pathExists _ = led' at hfound
      cases hfound with
      | none => exact .none
      | some hled =>
        obtain ⟨names, -, hnames, heq, heq'⟩ :=
          (isMatching_relocated hplace hplace').normalize hled
        rw [Option.map_some, Option.map_some, heq, heq']
        exact .some (lieAlike_textOf hplace hplace' names hnames)
  · rw [if_neg hrelative, if_neg hrelative]
    exact .none

omit hnull hnull' in
/-- A file whose references do not lead out says the same as its copy. -/
theorem filesAgree_relocated {path path' : String} (h : Relocated place place' path path')
    (hstays : ∀ text, tree.readSource path = .ok text →
      ∀ reference ∈ (Source.references text).relative.toList,
        Path.stays ((Path.normalNames (Path.directoryName path)).length - place.length)
          (Path.segments reference) = true) :
    FilesAgree (Relocated place place') tree other path path' where
  text := by
    have hoctets : Agree (fun _ _ => True) Eq (tree.readOctets path) (other.readOctets path') := by
      refine (find_relocated copies h).bind fun entry entry' heq => ?_
      subst heq
      exact .refl (fun _ => trivial) _
    exact hoctets.map fun _ _ heq => congrArg Text.Utf8.decodeLossy heq
  references := by
    intro text htext reference hmem
    have hdepth := hstays text htext reference hmem
    obtain ⟨names, hne, hnames, rfl, rfl⟩ := h
    obtain ⟨directory, name, rfl⟩ := (List.eq_nil_or_concat' names).resolve_left hne
    obtain ⟨hdirectory, hlast⟩ := List.forall_mem_append.mp hnames
    have hname := List.forall_mem_singleton.mp hlast
    have hall : ∀ n ∈ place ++ directory, IsName n :=
      List.forall_mem_append.mpr ⟨copies.location.names, hdirectory⟩
    -- The depth of the directory below the root, which is what a reference may go up.
    have hlength : (Path.normalNames (Path.directoryName
        (textOf (place ++ (directory ++ [name]))))).length - place.length = directory.length := by
      rw [textOf, ← List.append_assoc, Path.directoryName_absolute (Or.inl rfl) hall hname,
        Path.normalNames_absolute (Or.inl rfl) hall, List.length_append, Nat.add_sub_cancel_left]
    rw [hlength] at hdepth
    exact resolve?_relocated copies hdirectory hname hdepth

end

/-! ### Whole surveys -/

/-- A repository in which nothing points out of it: side files and manual modules are inside, the
latter not at its root, and no reference in a file that is read leads above the root. -/
structure IsSelfContained (tree : Tree) (settings : Settings) (place : Place) : Prop where
  sideFiles : ∀ side ∈ settings.modulesFiles ++ settings.linksFiles, StaysBelow side
  manualRoots : ∀ found ∈ (SideFile.first tree (textOf place) settings.modulesFiles).outcome.toOption,
    ∀ content ∈ found, ∀ entry ∈ (SideFile.entriesOf content).filter SideFile.isObject,
      ∀ path ∈ SideFile.pathsOf entry, StaysBelow path ∧ Path.normalNames path ≠ []
  references : ∀ merged ∈ (mergedOf tree settings (textOf place)).outcome.toOption,
    ∀ record ∈ merged.records,
      ∀ reading ∈ readings tree (scopeAt settings (textOf place)) merged.rootOwners record,
        ∀ reference ∈ (Source.references reading.2).relative.toList,
          Path.stays ((Path.normalNames (Path.directoryName reading.1)).length - place.length)
            (Path.segments reference) = true

instance (tree : Tree) (settings : Settings) (place : Place) :
    Decidable (IsSelfContained tree settings place) :=
  decidable_of_iff
    ((∀ side ∈ settings.modulesFiles ++ settings.linksFiles, StaysBelow side) ∧
      (∀ found ∈ (SideFile.first tree (textOf place) settings.modulesFiles).outcome.toOption,
        ∀ content ∈ found, ∀ entry ∈ (SideFile.entriesOf content).filter SideFile.isObject,
          ∀ path ∈ SideFile.pathsOf entry, StaysBelow path ∧ Path.normalNames path ≠ []) ∧
      ∀ merged ∈ (mergedOf tree settings (textOf place)).outcome.toOption,
        ∀ record ∈ merged.records,
          ∀ reading ∈ readings tree (scopeAt settings (textOf place)) merged.rootOwners record,
            ∀ reference ∈ (Source.references reading.2).relative.toList,
              Path.stays ((Path.normalNames (Path.directoryName reading.1)).length - place.length)
                (Path.segments reference) = true)
    ⟨fun ⟨h₁, h₂, h₃⟩ => ⟨h₁, h₂, h₃⟩, fun h => ⟨h.sideFiles, h.manualRoots, h.references⟩⟩

/-- Whether there is room for the side files of a repository at a place. -/
def SideFilesFit (settings : Settings) (place : Place) : Prop :=
  ∀ side ∈ "package.json" :: (settings.modulesFiles ++ settings.linksFiles),
    (Path.below (textOf place) side).utf8ByteSize ≤ Tree.maxPath

instance (settings : Settings) (place : Place) : Decidable (SideFilesFit settings place) :=
  inferInstanceAs (Decidable (∀ side ∈ _, _))

/-- The stages of the surveys of two copies agree. -/
theorem ofTree_relocated {tree other : Tree} {place place' : Place}
    (copies : AreCopies tree other place place') (hnull : Path.hasNull (textOf place) = false)
    (hnull' : Path.hasNull (textOf place') = false) {settings : Settings}
    (contained : IsSelfContained tree settings place) (hfit : SideFilesFit settings place)
    (hfit' : SideFilesFit settings place') :
    Traced.Agrees (fun _ _ => True) Eq (ofTree tree settings (textOf place))
      (ofTree other settings (textOf place')) := by
  -- The side files are those of the settings, and the manifest.
  have hsides : ∀ side ∈ "package.json" :: (settings.modulesFiles ++ settings.linksFiles),
      StaysBelow side := List.forall_mem_cons.mpr ⟨by decide, contained.sideFiles⟩
  have hfirst : ∀ sides : List String,
      sides ⊆ "package.json" :: (settings.modulesFiles ++ settings.linksFiles) →
      Traced.Agrees (fun _ _ => True) Eq (SideFile.first tree (textOf place) sides)
        (SideFile.first other (textOf place') sides) := fun sides hsubset =>
    first_relocated copies hnull hnull' (fun side hside => hsides side (hsubset hside))
      (fun side hside => hfit side (hsubset hside)) fun side hside => hfit' side (hsubset hside)
  have hmodules : Traced.Agrees (fun _ _ => True)
      (List.Forall₂ (ManualModule.Matches (Relocated place place')))
      (SideFile.modules tree (textOf place) settings.modulesFiles)
      (SideFile.modules other (textOf place') settings.modulesFiles) := by
    refine SideFile.modules_agrees (hfirst settings.modulesFiles (by simp)) ?_
    intro content hcontent entry hentry
    exact rootsOf_relocated copies
      (contained.manualRoots _ (by rw [hcontent]; rfl) content rfl entry hentry)
  refine (corresponds_of_copies copies hnull hnull').ofTree_agrees settings
    (SideFile.packages_agrees (hfirst ["package.json"] (by simp))) hmodules
    (SideFile.links_agrees (hfirst settings.linksFiles (by simp))) ?_
  -- A file that is read belongs to a record, so its references stay below the root by assumption.
  intro merged hmerged record hrecord path hpath path' hsame
  refine filesAgree_relocated copies hsame fun text htext reference hreference => ?_
  have hreading : (path, text) ∈
      readings tree (scopeAt settings (textOf place)) merged.rootOwners record :=
    mem_filterMap_reading?.mpr ⟨hpath, htext⟩
  exact contained.references merged (by rw [hmerged]; rfl) record hrecord _ hreading reference
    hreference

section

variable {s s' : Session} {place place' : Place} (copies : AreCopies s.tree s'.tree place place')

include copies

/-- The files with the settings of two copies hold the same. -/
theorem settingsAt_relocated :
    Agree (fun fault fault' => fault.isFileFault = fault'.isFileFault) Eq
      (Work.settingsAt s.tree place) (Work.settingsAt s'.tree place') := by
  have hname := Work.isName_fileName
  have hsteps : ∀ n ∈ [Settings.fileName], IsName n := List.forall_mem_singleton.mpr hname
  have hstays := Path.stays_of_names hsteps 0
  have hfind := copies.copied.find_eq copies.location copies.location'
    (fun n hn => (hsteps n hn).isStep) hstays copies.settingsRoom copies.settingsRoom'
  have htext := readText_relocated copies (fun n hn => (hsteps n hn).isStep) hstays
    copies.settingsRoom copies.settingsRoom'
  unfold Work.settingsAt Tree.pathExists Work.settingsText
  -- The settings file is there in both trees or in neither, and is read as the same text.
  rw [hfind]
  split
  · unfold Settings.ofFile
    rw [htext, Tree.lastName_textOf copies.location.names hname,
      Tree.lastName_textOf copies.location'.names hname]
    cases s'.tree.readText (textOf (place' ++ [Settings.fileName])) with
    | error fault => exact .error (by simp only [Settings.Fault.isFileFault])
    | ok text => exact (agree_eq_iff.mpr rfl).imp (fun _ _ heq => by rw [heq]) fun _ _ heq => heq
  · exact .ok rfl

variable {root root' : String} (hopen : outcome (Work.openRoot root) s = .ok (textOf place))
  (hopen' : outcome (Work.openRoot root') s' = .ok (textOf place'))

include hopen hopen'

/-- Two copies have the same settings. -/
theorem settingsFor_relocated (given : Option Settings) :
    Agree (fun _ _ => True) Eq (outcome (settingsFor given (textOf place)) s)
      (outcome (settingsFor given (textOf place')) s') := by
  cases given with
  | some settings => exact .ok rfl
  | none =>
    have hsettings := settingsAt_relocated copies
    -- Settings that are not given are taken from the settings file; a fault of that file is put
    -- aside on both sides.
    rw [outcome_settingsFor_none, outcome_settingsFor_none,
      Work.outcome_loadSettings_textOf hopen copies.location (copies.copied.no_link _)
        copies.settingsRoom,
      Work.outcome_loadSettings_textOf hopen' copies.location' (copies.copied.symm.no_link _)
        copies.settingsRoom']
    generalize Work.settingsAt s.tree place = loaded at hsettings
    generalize Work.settingsAt s'.tree place' = loaded' at hsettings
    cases hsettings with
    | ok heq => exact .ok heq
    | error hfault =>
      unfold putAside
      dsimp only
      rw [hfault]
      split
      · exact .ok rfl
      · exact .error trivial

end

/-- A survey does not depend on where the repository is. If two locations hold the same directories
and files, and nothing in them points out of the repository, the surveys lead to the same graph, or
neither leads to one. -/
theorem survey_relocates {s s' : Session} (quiet : s.IsQuiet) (quiet' : s'.IsQuiet)
    {root root' : String} {place place' : Place}
    (hopen : outcome (Work.openRoot root) s = .ok (textOf place))
    (hopen' : outcome (Work.openRoot root') s' = .ok (textOf place'))
    (copies : AreCopies s.tree s'.tree place place') (given : Option Settings)
    (contained : ∀ settings, outcome (settingsFor given (textOf place)) s = .ok settings →
      IsSelfContained s.tree settings place ∧ SideFilesFit settings place ∧
        SideFilesFit settings place') :
    Work.answer? (Work.survey given root) s = Work.answer? (Work.survey given root') s' := by
  obtain ⟨hnull, -⟩ := Work.find_of_openRoot hopen
  obtain ⟨hnull', -⟩ := Work.find_of_openRoot hopen'
  rw [← Work.toOption_outcome, ← Work.toOption_outcome, outcome_survey quiet,
    outcome_survey quiet', hopen, hopen', ok_bind, ok_bind]
  refine Agree.toOption_eq ((settingsFor_relocated copies hopen hopen' given).bind_of_eq_ok ?_)
  rintro settings _ hsettings rfl
  obtain ⟨inside, hfit, hfit'⟩ := contained settings hsettings
  exact ofTree_relocated copies hnull hnull' inside hfit hfit'

/-- A repository with a manual module, references across its modules and one test, at the top of its
tree. -/
def topSession : Session where
  tree := {
    entries :=
      [(["package.json"], .file "\x7b\"dependencies\": \x7b\"react\": \"1\"\x7d\x7d".toUTF8.toList),
        (["atlas"], .directory),
        (["modules.json"],
          .file "[\x7b\"id\": \"core\", \"path\": \"lib/../src/core\"\x7d]".toUTF8.toList),
        (["src"], .directory), (["src", "a.test.js"], .file "import '../lib/b'".toUTF8.toList),
        (["src", "core"], .directory),
        (["src", "core", "c.js"], .file "import '../../lib'; import '../..'".toUTF8.toList),
        (["lib"], .directory), (["lib", "b.js"], .file []), (["lib", "index.js"], .file [])]
    distinct := by decide }
  directory := "/"
  now := ⟨2024, 1, 1, 0, 0, 0, 0⟩

/-- The same repository below directories whose names are those of tests. -/
def movedSession : Session where
  tree := {
    entries :=
      (["tests"], .directory) :: (["tests", "spec"], .directory) ::
        topSession.tree.entries.map fun pair => (["tests", "spec"] ++ pair.1, pair.2)
    distinct := by decide }
  directory := "/tests"
  now := ⟨2024, 1, 1, 0, 0, 0, 0⟩

/-- Settings with a place of manual modules that goes up on its way. -/
def insideSettings : Settings where
  modulesFile := some "atlas/../modules.json"

/-- A repository that is moved from the top into a directory named like tests gives the same graph.
-/
theorem survey_topSession_relocates :
    AreCopies topSession.tree movedSession.tree [] ["tests", "spec"] ∧
    IsSelfContained topSession.tree insideSettings [] ∧
    ∃ graph, Work.answer? (Work.survey (some insideSettings) (textOf [])) topSession = some graph ∧
      Work.answer? (Work.survey (some insideSettings) (textOf ["tests", "spec"])) movedSession
        = some graph := by
  have quiet : topSession.IsQuiet := fun _ h => nomatch h
  have quiet' : movedSession.IsQuiet := fun _ h => nomatch h
  have hopen : outcome (Work.openRoot (textOf [])) topSession = .ok (textOf []) :=
    Work.outcome_openRoot_textOf (by decide +kernel) (by decide) (by decide)
  have hopen' : outcome (Work.openRoot (textOf ["tests", "spec"])) movedSession
      = .ok (textOf ["tests", "spec"]) :=
    Work.outcome_openRoot_textOf (by decide +kernel) (by decide) (by decide)
  -- What the theorem asks for is decided, entry by entry.
  have copies : AreCopies topSession.tree movedSession.tree [] ["tests", "spec"] := {
    named := by decide +kernel
    named' := by decide +kernel
    location := by decide +kernel
    location' := by decide +kernel
    copied := Tree.copiedAt_of_perm (by decide) (by decide +kernel) (by decide +kernel)
      (by decide +kernel)
    room := Tree.hasRoom_of_entries (by decide +kernel) _
    room' := Tree.hasRoom_of_entries (by decide +kernel) _
    settingsRoom := by decide
    settingsRoom' := by decide }
  have contained : IsSelfContained topSession.tree insideSettings [] := by decide +kernel
  have hrelocates := survey_relocates quiet quiet' hopen hopen' copies (some insideSettings)
    fun settings hsettings => by
      cases hsettings
      exact ⟨contained, by decide +kernel, by decide +kernel⟩
  obtain ⟨graph, hgraph⟩ := Option.isSome_iff_exists.mp
    (show (Work.answer? (Work.survey (some insideSettings) (textOf [])) topSession).isSome = true by
      decide +kernel)
  exact ⟨copies, contained, graph, hgraph, hrelocates ▸ hgraph⟩

end RepoAtlas.Survey
