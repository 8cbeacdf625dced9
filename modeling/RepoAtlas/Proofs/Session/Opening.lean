import RepoAtlas.Proofs.Path.Spelling
import RepoAtlas.Proofs.Session.Reading
import RepoAtlas.Proofs.Tree.Location

/-!
# `RepoAtlas.Proofs.Session.Opening`: requests about a root that has been opened

An opened root is an absolute path that leads to a directory. If it is the path of a location, its
settings stand in a file directly below it, and finding them takes no detours.

* `outcome_openRoot_textOf`, `find_of_openRoot`: opening a location, and what an opened root leads
  to.
* `outcome_resolve_textOf`, `outcome_probe_textOf`: paths below a location.
* `outcome_loadSettings`, `outcome_loadSettings_textOf`: the settings of a repository at a location,
  by any path and by its own.
-/

set_option autoImplicit false

namespace RepoAtlas.Work

open RepoAtlas.Path (IsName)
open RepoAtlas.Tree (textOf isAbsolute_textOf IsPlain IsLocation)

variable {s : Session} {place : Place}

/-- No link stands on the way to a location. -/
theorem isPlain_location (hlocation : s.tree.IsLocation place) : s.tree.IsPlain [] place := by
  intro front hfront target
  rw [List.nil_append, hlocation.directories front hfront]
  exact fun h => nomatch h

/-- A path without a null is not refused. -/
theorem outcome_refuseNull {path : String} (hnull : Path.hasNull path = false) :
    outcome (refuseNull path) s = .ok () := by
  unfold refuseNull
  rw [hnull]
  rfl

/-- Probing an absolute path. -/
theorem outcome_probe_textOf (hnull : Path.hasNull (textOf place) = false) :
    outcome (probe (textOf place)) s =
      match s.tree.find (textOf place) with
      | .ok entry => .ok (some entry)
      | .error .nameTooLong => .error (.system .nameTooLong (textOf place))
      | .error _ => .ok none := by
  have htree : outcome tree s = .ok s.tree := rfl
  have habsolute : outcome (absolute (textOf place)) s = .ok (textOf place) :=
    congrArg Except.ok (Path.join_of_isAbsolute (isAbsolute_textOf place) s.directory)
  unfold probe
  rw [hnull, if_neg Bool.false_ne_true, outcome_bind .tree, htree, ok_bind,
    outcome_bind (.absolute _), habsolute, ok_bind]
  unfold Tree.probe
  cases s.tree.find (textOf place) with
  | ok entry => rfl
  | error fault => cases fault <;> rfl

/-- A path on which no link stands resolves to itself. -/
theorem outcome_resolve_textOf (hnames : ∀ n ∈ place, IsName n) (hplain : s.tree.IsPlain [] place)
    (hnull : Path.hasNull (textOf place) = false) :
    outcome (resolve (textOf place)) s = .ok (textOf place) := by
  have hcanonical := Tree.canonical_textOf (Path.names s.directory) hnames hplain
  have hlinks := Tree.find_textOf_ne_tooManyLinks hnames hplain
  have hget : outcome get s = .ok s := rfl
  unfold resolve
  rw [outcome_bind (.refuseNull _), outcome_refuseNull hnull, ok_bind, outcome_bind .get, hget,
    ok_bind, hcanonical]
  simp only
  -- Links without end are the only fault that resolving passes on, and there is no link on the way.
  cases hfind : s.tree.find (textOf place) with
  | ok entry => rfl
  | error fault =>
    cases fault with
    | tooManyLinks => exact absurd hfind hlinks
    | _ => rfl

/-- An absolute path names no home directory. -/
theorem outcome_expandHome_textOf (hnames : ∀ n ∈ place, IsName n) :
    outcome (expandHome (textOf place)) s = .ok (textOf place) := by
  unfold expandHome
  rw [Tree.names_textOf hnames, isAbsolute_textOf]
  cases place <;> rfl

/-- A location is opened under its own path. -/
theorem outcome_openRoot_textOf (hlocation : s.tree.IsLocation place)
    (hroom : (textOf place).utf8ByteSize ≤ Tree.maxPath)
    (hnull : Path.hasNull (textOf place) = false) :
    outcome (openRoot (textOf place)) s = .ok (textOf place) := by
  have hplace : s.tree.locate (textOf place) = .ok place := by
    rw [hlocation.locate_eq, if_neg (Nat.not_lt.mpr hroom)]
  have hfind : s.tree.find (textOf place) = .ok .directory :=
    Tree.find_eq_ok_iff.mpr ⟨place, hplace, hlocation.entry?_eq⟩
  unfold openRoot
  rw [outcome_bind (.expandHome _), outcome_expandHome_textOf hlocation.names, ok_bind,
    outcome_bind (.resolve _), outcome_resolve_textOf hlocation.names (isPlain_location hlocation)
      hnull, ok_bind, outcome_bind (.probe _), outcome_probe_textOf hnull, hfind]
  rfl

/-- An opened root is a path without U+0000 that leads to a directory. -/
theorem find_of_openRoot {root : String} (h : outcome (openRoot root) s = .ok (textOf place)) :
    Path.hasNull (textOf place) = false ∧ s.tree.find (textOf place) = .ok .directory := by
  obtain ⟨-, -, -, hfound⟩ := outcome_openRoot_eq_ok h
  have hnull : Path.hasNull (textOf place) = false := by
    rw [Bool.eq_false_iff]
    intro hnull
    unfold probe at hfound
    rw [if_pos hnull] at hfound
    cases hfound
  refine ⟨hnull, ?_⟩
  rw [outcome_probe_textOf hnull] at hfound
  split at hfound
  · next hfind =>
    rw [hfind]
    exact congrArg Except.ok (Option.some.inj (Except.ok.inj hfound))
  · cases hfound
  · cases hfound

/-! ### Settings -/

/-- The settings file has a proper name. -/
theorem isName_fileName : IsName Settings.fileName := by
  decide

/-- The path of the file with the settings of a repository at a place. -/
def settingsText (place : Place) : String :=
  textOf (place ++ [Settings.fileName])

/-- What the file with settings holds, if there is one. -/
def settingsAt (tree : Tree) (place : Place) : Except Settings.Fault Settings :=
  if tree.pathExists (settingsText place) then Settings.ofFile tree (settingsText place) else .ok {}

/-- Where there is room for the name of the file with settings, there is room for shorter names. -/
theorem room_of_shorter (hnames : ∀ n ∈ place, IsName n)
    (hroom : (settingsText place).utf8ByteSize ≤ Tree.maxPath) {name : String} (hname : IsName name)
    (hshort : name.utf8ByteSize ≤ Settings.fileName.utf8ByteSize) :
    (textOf (place ++ [name])).utf8ByteSize ≤ Tree.maxPath := by
  unfold settingsText at hroom
  rw [← Tree.join_textOf hnames isName_fileName] at hroom
  rw [← Tree.join_textOf hnames hname]
  exact (Path.utf8ByteSize_join_le hname isName_fileName hshort).trans hroom

/-- The file with settings is found where it stands. -/
theorem find_settingsText {tree : Tree} (hlocation : tree.IsLocation place)
    (hfind : tree.find (textOf place) = .ok .directory)
    (hlink : ∀ target, tree.entry? (place ++ [Settings.fileName]) ≠ some (.link target))
    (hroom : (settingsText place).utf8ByteSize ≤ Tree.maxPath) :
    tree.find (settingsText place) =
      match tree.entry? (place ++ [Settings.fileName]) with
      | some entry => .ok entry
      | none => .error .notFound := by
  have hshort : ¬Tree.TooLong (textOf place) Settings.fileName := by
    rw [Tree.TooLong, Tree.join_textOf hlocation.names isName_fileName, not_or, Nat.not_lt,
      Nat.not_lt]
    exact ⟨hroom, by decide⟩
  exact hlocation.find_child (hlocation.room_of_find hfind) isName_fileName hshort hlink

/-- Without a file nothing is set. -/
theorem settingsAt_of_vacant {tree : Tree} (hlocation : tree.IsLocation place)
    (hfind : tree.find (textOf place) = .ok .directory)
    (hnone : tree.entry? (place ++ [Settings.fileName]) = none)
    (hroom : (settingsText place).utf8ByteSize ≤ Tree.maxPath) :
    settingsAt tree place = .ok {} := by
  have hfound := find_settingsText hlocation hfind
    (fun target h => nomatch hnone.symm.trans h) hroom
  rw [hnone] at hfound
  unfold settingsAt Tree.pathExists
  rw [hfound]
  rfl

/-- Neither has the path of the settings file a null. -/
theorem hasNull_settingsText (hlocation : s.tree.IsLocation place)
    (hnull : Path.hasNull (textOf place) = false) :
    Path.hasNull (settingsText place) = false := by
  unfold settingsText
  rw [← Tree.join_textOf hlocation.names isName_fileName]
  exact Path.hasNull_join hnull (by decide)

/-- Loading the settings whose file stands at a location. -/
theorem outcome_loadSettings {path : String}
    (hfile : outcome (settingsFile path) s = .ok (settingsText place))
    (hlocation : s.tree.IsLocation place) (hnull : Path.hasNull (textOf place) = false)
    (hlink : ∀ target, s.tree.entry? (place ++ [Settings.fileName]) ≠ some (.link target))
    (hfind : s.tree.find (textOf place) = .ok .directory)
    (hroom : (settingsText place).utf8ByteSize ≤ Tree.maxPath) :
    outcome (loadSettings path) s =
      match settingsAt s.tree place with
      | .ok settings => .ok (textOf place, settings)
      | .error fault => .error (.settings fault) := by
  have hresolve := outcome_resolve_textOf hlocation.names (isPlain_location hlocation) hnull
  have hfound := find_settingsText hlocation hfind hlink hroom
  unfold settingsText at hfound
  unfold loadSettings
  -- The settings file is found at its path, whose directory is the root again.
  rw [outcome_bind (.settingsFile _), hfile, ok_bind]
  show outcome (resolve (Path.parent (textOf (place ++ [Settings.fileName]))) >>= _) s = _
  rw [Tree.parent_textOf hlocation.names isName_fileName, outcome_bind (.resolve _), hresolve,
    ok_bind, outcome_bind (.probe _)]
  show (outcome (probe (textOf (place ++ [Settings.fileName]))) s >>= _) = _
  rw [outcome_probe_textOf (hasNull_settingsText hlocation hnull)]
  unfold settingsAt Tree.pathExists settingsText
  rw [hfound]
  cases s.tree.entry? (place ++ [Settings.fileName]) with
  | none => rfl
  | some entry =>
    show outcome (match Settings.ofFile s.tree (textOf (place ++ [Settings.fileName])) with
        | .ok settings => pure (textOf place, settings)
        | .error fault => throw (.settings fault)) s
      = match Settings.ofFile s.tree (textOf (place ++ [Settings.fileName])) with
        | .ok settings => .ok (textOf place, settings)
        | .error fault => .error (.settings fault)
    cases Settings.ofFile s.tree (textOf (place ++ [Settings.fileName])) <;> rfl

section

variable {root : String} (hopen : outcome (openRoot root) s = .ok (textOf place))
  (hlocation : s.tree.IsLocation place)
  (hlink : ∀ target, s.tree.entry? (place ++ [Settings.fileName]) ≠ some (.link target))

include hlocation

include hlink

/-- No link stands on the way to the settings file, if it is none itself. -/
theorem isPlain_settings : s.tree.IsPlain [] (place ++ [Settings.fileName]) := by
  intro front hfront target
  rcases List.prefix_concat_iff.mp hfront with rfl | hfront
  · exact hlink target
  · exact isPlain_location hlocation front hfront target

include hopen

/-- The settings file is where its path says. -/
theorem outcome_settingsFile_textOf :
    outcome (settingsFile (textOf place)) s = .ok (settingsText place) := by
  obtain ⟨hnull, hfind⟩ := find_of_openRoot hopen
  have hfile : ∀ n ∈ place ++ [Settings.fileName], IsName n :=
    List.forall_mem_append.mpr ⟨hlocation.names, List.forall_mem_singleton.mpr isName_fileName⟩
  have hresolve := outcome_resolve_textOf hfile (isPlain_settings hlocation hlink)
    (hasNull_settingsText hlocation hnull)
  unfold settingsFile
  rw [outcome_bind (.expandHome _), outcome_expandHome_textOf hlocation.names, ok_bind,
    (Tree.isNormal_textOf hlocation.names).tidy_eq, outcome_bind (.probe _),
    outcome_probe_textOf hnull, hfind]
  show outcome (resolve (Path.below (textOf place) Settings.fileName)) s = _
  -- The root is a directory, so the file stands in it under its usual name.
  rw [Tree.below_textOf hlocation.names isName_fileName]
  exact hresolve

/-- Loading the settings of a repository at a location. -/
theorem outcome_loadSettings_textOf (hroom : (settingsText place).utf8ByteSize ≤ Tree.maxPath) :
    outcome (loadSettings (textOf place)) s =
      match settingsAt s.tree place with
      | .ok settings => .ok (textOf place, settings)
      | .error fault => .error (.settings fault) := by
  obtain ⟨hnull, hfind⟩ := find_of_openRoot hopen
  exact outcome_loadSettings (outcome_settingsFile_textOf hopen hlocation hlink) hlocation hnull
    hlink hfind hroom

end

end RepoAtlas.Work
