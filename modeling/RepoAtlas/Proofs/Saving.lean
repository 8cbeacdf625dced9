import RepoAtlas.Proofs.Path.Spelling
import RepoAtlas.Proofs.Session
import RepoAtlas.Proofs.Tree.Making
import RepoAtlas.Proofs.Tree.Rewriting

/-!
# `RepoAtlas.Proofs.Saving`: saved texts

Saving a text makes the missing directories above a path and writes the file. Either step fails only
for what the tree is like, provided that the system takes the path, and then directories are all
that may have been made; and when both succeed the file holds the text.

* `BlocksSaving`: what keeps a text from being saved at a path.
* `IsBlocked`: a request that fails for such a reason and leaves all files as they were.
* `save_cases`: saving is blocked, or the text can be read at the path.
* `save_cases_of_absolute`: an absolute path that the system takes is blocked by the system only.
* `save_of_locate`: where a file is already, nothing is in the way.
-/

set_option autoImplicit false

namespace RepoAtlas.Work

open RepoAtlas.Text

variable {path : String}

/-- What keeps a text from being saved at a path: an operation of the system fails, or the system
does not take the path. -/
def BlocksSaving (path : String) (failure : Failure) : Prop :=
  failure.isSystem = true ∨ (failure = .nullInPath ∧ Path.hasNull path = true)

/-- Unless the path has a null, only the system blocks saving. -/
theorem BlocksSaving.isSystem {failure : Failure} (h : BlocksSaving path failure)
    (hnull : Path.hasNull path = false) : failure.isSystem = true := by
  rcases h with hsystem | ⟨-, htrue⟩
  · exact hsystem
  · rw [hnull] at htrue
    cases htrue

/-- A path without a null is let through. -/
theorem refuseNull_eq_ok (hnull : Path.hasNull path = false) (s : Session) :
    refuseNull path s = .ok () s := by
  rw [refuseNull, hnull]
  rfl

/-- A path with a null is refused. -/
theorem refuseNull_eq_error (hnull : Path.hasNull path = true) (s : Session) :
    refuseNull path s = .error .nullInPath s := by
  rw [refuseNull, hnull]
  rfl

/-- Looking at the tree gives it. -/
theorem tree_eq (s : Session) : tree s = .ok s.tree s := rfl

/-- A path is taken from the working directory. -/
theorem absolute_eq (path : String) (s : Session) :
    absolute path s = .ok (Path.join s.directory path) s := rfl

/-- A request that is blocked from saving at a path, and leaves everything standing as it was. -/
def IsBlocked {α : Type} (path : String) (s : Session)
    (result : EStateM.Result Failure Session α) : Prop :=
  ∃ failure tree, result = .error failure { s with tree } ∧ BlocksSaving path failure ∧
    s.tree.Extends tree

/-- Making directories changes the tree, also if it fails. -/
theorem makeParents_eq (hnull : Path.hasNull (Path.parent path) = false) (s : Session) :
    makeParents path s =
      match s.tree.makeParents (Path.join s.directory path) with
      | (tree, .ok ()) => .ok () { s with tree }
      | (tree, .error fault) => .error (.system fault (Path.parent path)) { s with tree } := by
  rw [makeParents, bind_of_ok (refuseNull_eq_ok hnull s)]
  rw [bind_of_ok (tree_eq s), bind_of_ok (absolute_eq path s)]
  obtain ⟨made, outcome⟩ := s.tree.makeParents (Path.join s.directory path)
  cases outcome <;> rfl

/-- Writing a file changes the tree if it succeeds. -/
theorem writeText_eq (hnull : Path.hasNull path = false) (text : String) (s : Session) :
    writeText path text s =
      match s.tree.putFile (Path.join s.directory path) (Utf8.encode text) with
      | .ok tree => .ok () { s with tree }
      | .error fault => .error (.system fault path) s := by
  rw [writeText, bind_of_ok (refuseNull_eq_ok hnull s), bind_of_ok (tree_eq s),
    bind_of_ok (absolute_eq path s)]
  cases s.tree.putFile (Path.join s.directory path) (Utf8.encode text) <;> rfl

/-- Making directories either is blocked, or changes the tree only. -/
theorem makeParents_cases (path : String) (s : Session) :
    IsBlocked path s (makeParents path s) ∨
      makeParents path s = .ok ()
        { s with tree := (s.tree.makeParents (Path.join s.directory path)).1 } := by
  cases hnull : Path.hasNull (Path.parent path) with
  | true =>
    -- A null in the parent is one in the path.
    have hpath : Path.hasNull path = true := by
      by_contra hfalse
      rw [Path.hasNull_parent (Bool.eq_false_iff.mpr hfalse)] at hnull
      cases hnull
    exact Or.inl ⟨_, s.tree, bind_of_error (refuseNull_eq_error hnull s) _, Or.inr ⟨rfl, hpath⟩,
      .refl s.tree⟩
  | false =>
    have hextends := Tree.extends_makeParents s.tree (Path.join s.directory path)
    rw [makeParents_eq hnull]
    generalize s.tree.makeParents (Path.join s.directory path) = made at hextends
    obtain ⟨tree, fault | _⟩ := made
    · exact Or.inl ⟨_, tree, rfl, Or.inl rfl, hextends⟩
    · exact Or.inr rfl

/-- Writing a file either is blocked, or changes the tree only. -/
theorem writeText_cases (path text : String) (s : Session) :
    IsBlocked path s (writeText path text s) ∨
      ∃ tree, writeText path text s = .ok () { s with tree } ∧
        s.tree.putFile (Path.join s.directory path) (Utf8.encode text) = .ok tree := by
  cases hnull : Path.hasNull path with
  | true =>
    exact Or.inl ⟨_, s.tree, bind_of_error (refuseNull_eq_error hnull s) _, Or.inr ⟨rfl, hnull⟩,
      .refl s.tree⟩
  | false =>
    rw [writeText_eq hnull]
    cases s.tree.putFile (Path.join s.directory path) (Utf8.encode text) with
    | ok tree => exact Or.inr ⟨tree, rfl, rfl⟩
    | error fault => exact Or.inl ⟨_, s.tree, rfl, Or.inl rfl, .refl s.tree⟩

/-- Saving either is blocked, or makes directories and then puts the file. -/
theorem save_steps (path text : String) (s : Session) :
    IsBlocked path s (save path text s) ∨
      ∃ tree, save path text s = .ok () { s with tree } ∧
        (s.tree.makeParents (Path.join s.directory path)).1.putFile (Path.join s.directory path)
          (Utf8.encode text) = .ok tree := by
  rcases makeParents_cases path s with ⟨failure, made, hmake, hblocks, hextends⟩ | hmake
  · exact Or.inl ⟨failure, made, bind_of_error hmake _, hblocks, hextends⟩
  · rw [save, bind_of_ok hmake]
    rcases writeText_cases path text
        { s with tree := (s.tree.makeParents (Path.join s.directory path)).1 } with
      ⟨failure, tree, hwrite, hblocks, hextends⟩ | ⟨tree, hwrite, hput⟩
    · exact Or.inl
        ⟨failure, tree, hwrite, hblocks, (Tree.extends_makeParents s.tree _).trans hextends⟩
    · exact Or.inr ⟨tree, hwrite, hput⟩

/-- Saving either is blocked, or the text can be read at the path. -/
theorem save_cases (path text : String) (s : Session) :
    IsBlocked path s (save path text s) ∨
      ∃ tree, save path text s = .ok () { s with tree } ∧
        tree.readOctets (Path.join s.directory path) = .ok (Utf8.encode text) := by
  rcases save_steps path text s with hblocked | ⟨tree, hsave, hput⟩
  · exact Or.inl hblocked
  · exact Or.inr ⟨tree, hsave, Tree.readOctets_of_putFile hput⟩

/-- At an absolute path that the system takes, saving fails on an operation of the system, or the
text can be read at the path. -/
theorem save_cases_of_absolute (hnull : Path.hasNull path = false)
    (habsolute : Path.isAbsolute path = true) (text : String) (s : Session) :
    (∃ failure s', save path text s = .error failure s' ∧ failure.isSystem = true) ∨
      ∃ tree, save path text s = .ok () { s with tree } ∧
        tree.readOctets path = .ok (Utf8.encode text) := by
  rcases save_cases path text s with ⟨failure, _, hsave, hblocks, -⟩ | ⟨tree, hsave, hwritten⟩
  · exact Or.inl ⟨failure, _, hsave, hblocks.isSystem hnull⟩
  · rw [Path.join_of_isAbsolute habsolute] at hwritten
    exact Or.inr ⟨tree, hsave, hwritten⟩

/-- Where a file is found, a text can be saved, and takes the place of its content. -/
theorem save_of_locate {lead : String} (hlead : Path.IsLead lead) {above spot : Place}
    {name : String} (hnames : ∀ n ∈ above ++ [name], Path.IsName n) {old : List UInt8} {s : Session}
    (hnull : Path.hasNull (Path.absolute lead (above ++ [name])) = false)
    (hlocate : s.tree.locate (Path.absolute lead (above ++ [name])) = .ok spot)
    (hold : s.tree.entry? spot = some (.file old)) (text : String) :
    save (Path.absolute lead (above ++ [name])) text s
      = .ok () { s with tree := s.tree.insert spot (.file (Utf8.encode text)) } := by
  have hjoin : ∀ directory, Path.join directory (Path.absolute lead (above ++ [name]))
      = Path.absolute lead (above ++ [name]) :=
    Path.join_of_isAbsolute (Path.isAbsolute_absolute hlead _)
  have hmake : makeParents (Path.absolute lead (above ++ [name])) s = .ok () s := by
    rw [makeParents_eq (Path.hasNull_parent hnull), hjoin,
      Tree.makeParents_of_locate hlead hnames hlocate]
  rw [save, bind_of_ok hmake, writeText_eq hnull, hjoin,
    Tree.putFile_of_locate hlead hnames hlocate hold]

end RepoAtlas.Work
