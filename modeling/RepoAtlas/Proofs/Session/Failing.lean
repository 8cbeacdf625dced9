import RepoAtlas.Proofs.Saving
import RepoAtlas.Proofs.Session.Reading

/-!
# `RepoAtlas.Proofs.Session.Failing`: failures that lie in the files

A request may fail for what the files are like (`Failure.isOfFiles`): an operation on a path fails,
or there is no repository. Most steps of a request can only fail for other reasons
(`FailsElsewhere`), so where the files are at fault, one of the few other steps is. Among these is
saving a text: a directory above the file cannot be made, or the file cannot be written.

* `outcome_bind_eq_error`: of two requests one fails.
* `FailsElsewhere.bind`: requests that never fail for what the files are like.
* `SideFile.isOfFiles_of_links`: reading links is one of them.
* `savingFails_iff`: why a text cannot be saved (`SavingFails`).
-/

set_option autoImplicit false

namespace RepoAtlas

/-- Whether a failure lies in the files: an operation on a path fails, or there is no repository. -/
def Failure.isOfFiles : Failure → Bool
  | .system _ _ | .rootMissing _ | .rootNotDirectory _ => true
  | _ => false

namespace Work

variable {α β : Type} {s : Session} {failure : Failure}

/-! ### Requests that do not fail for what the files are like -/

/-- A request that never fails for what the files are like. -/
def FailsElsewhere (x : Work α) : Prop :=
  ∀ s failure, outcome x s = .error failure → failure.isOfFiles = false

/-- The first of two requests fails, or the second one, in the session that the first leads to. -/
theorem outcome_bind_eq_error {x : Work α} {next : α → Work β} :
    outcome (x >>= next) s = .error failure ↔
      outcome x s = .error failure ∨
        ∃ a s', x s = .ok a s' ∧ outcome (next a) s' = .error failure := by
  -- The first part fails, or the second fails in what the first leaves.
  cases hx : x s with
  | ok a s' =>
    have hfirst := outcome_of_ok hx
    rw [outcome_congr (bind_of_ok hx next), hfirst]
    constructor
    · exact fun h => Or.inr ⟨a, s', rfl, h⟩
    · rintro (h | ⟨_, _, h, hnext⟩)
      · cases h
      · cases h
        exact hnext
  | error other s' =>
    have hfirst := outcome_of_error hx
    rw [outcome_of_error (bind_of_error hx next), hfirst]
    constructor
    · intro h
      cases h
      exact Or.inl rfl
    · rintro (h | ⟨_, _, h, -⟩) <;> cases h
      rfl

namespace FailsElsewhere

/-- Answering at once does not fail. -/
theorem pure (a : α) : FailsElsewhere (Pure.pure a : Work α) :=
  fun _ _ h => nomatch h

/-- A failure that is no matter of the files. -/
theorem throw (h : failure.isOfFiles = false) :
    FailsElsewhere (MonadExcept.throw failure : Work α) := by
  intro s other hother
  cases hother
  exact h

/-- Two requests fail elsewhere one after the other, since a failure comes from one of them. -/
theorem bind {x : Work α} {next : α → Work β} (hx : FailsElsewhere x)
    (hnext : ∀ a, FailsElsewhere (next a)) : FailsElsewhere (x >>= next) := by
  intro s failure h
  rcases outcome_bind_eq_error.mp h with h | ⟨a, s', -, h⟩
  · exact hx s failure h
  · exact hnext a s' failure h

/-- Looking at the session does not fail. -/
theorem get : FailsElsewhere (MonadState.get : Work Session) :=
  fun _ _ h => nomatch h

/-- Printing does not fail. -/
theorem print (text : String) : FailsElsewhere (Work.print text) :=
  fun _ _ h => nomatch h

/-- Telling a notice does not fail, even if the log file cannot be written to. -/
theorem note (level : Level) (topic : Topic) (text : String) :
    FailsElsewhere (Work.note level topic text) := by
  intro s failure h
  obtain ⟨_, hpass, -⟩ := pass_eq_ok ⟨level, topic, text⟩ s
  rw [outcome_of_ok (show Work.note level topic text s = _ from hpass)] at h
  cases h

/-- A home that is not known is no matter of the files. -/
theorem expandHome (path : String) : FailsElsewhere (Work.expandHome path) := by
  unfold Work.expandHome
  split
  · exact pure path
  · split
    · refine get.bind fun s => ?_
      split
      · exact pure _
      · refine throw ?_
        split <;> rfl
    · exact pure path

/-- Neither is a path with a null in it, nor a loop of links: a path is resolved without a failure
of the system. -/
theorem resolve (path : String) : FailsElsewhere (Work.resolve path) := by
  unfold Work.resolve Work.refuseNull
  refine bind ?_ fun _ => get.bind fun s => ?_
  · split
    · exact throw rfl
    · exact pure ()
  · simp only
    split
    · exact throw rfl
    · exact pure _

end FailsElsewhere

/-- Only the first of two requests can fail for what the files are like. -/
theorem outcome_bind_eq_error_left {x : Work α} {next : α → Work β}
    (hnext : ∀ a, FailsElsewhere (next a)) (hfiles : failure.isOfFiles = true) :
    outcome (x >>= next) s = .error failure ↔ outcome x s = .error failure := by
  rw [outcome_bind_eq_error]
  refine or_iff_left ?_
  rintro ⟨a, s', -, h⟩
  rw [hnext a s' failure h] at hfiles
  cases hfiles

end Work

/-- A side file is never at fault for what the files are like. -/
theorem SideFile.isOfFiles_of_read {tree : Tree} {path : String} {failure : Failure}
    (h : read tree path = .error failure) : failure.isOfFiles = false := by
  unfold read at h
  split at h
  · cases h
    rfl
  · split at h
    · cases h
    · cases h
    · split at h <;> cases h <;> rfl

/-- A search through side files passes over all that the system refuses. -/
theorem SideFile.isOfFiles_of_first {tree : Tree} {root : String} {places : List String}
    {failure : Failure} (h : (first tree root places).outcome = .error failure) :
    failure.isOfFiles = false := by
  -- A file that cannot be read is passed over, so only its contents can make the search fail.
  induction places with
  | nil => cases h
  | cons place places ih =>
    unfold first at h
    rcases Traced.outcome_bind_eq_error_iff.mp h with hread | ⟨reading, -, h⟩
    · exact isOfFiles_of_read hread
    · split at h
      · exact ih h
      · exact ih h
      · cases h
      · rcases Traced.outcome_bind_eq_error_iff.mp h with hnote | ⟨_, -, h⟩
        · cases hnote
        · exact ih h

/-- Reading links never fails for what the files are like. -/
theorem SideFile.isOfFiles_of_links {tree : Tree} {root : String} {places : List String}
    {failure : Failure} (h : (links tree root places).outcome = .error failure) :
    failure.isOfFiles = false := by
  rcases Traced.outcome_bind_eq_error_iff.mp h with hfirst | ⟨_, -, h⟩
  · exact isOfFiles_of_first hfirst
  · cases h

namespace Work

variable {s : Session} {failure : Failure} {path : String}

/-! ### Saving -/

/-- Why a text cannot be saved at a path, taken from a directory. The directories above it cannot be
made, or the file cannot be written after that, if there is a text to write. -/
inductive SavingFails (tree : Tree) (directory path : String) (text : Option String) :
    Failure → Prop
  | above {fault : Tree.Fault} (hnull : Path.hasNull (Path.parent path) = false)
      (hmake : (tree.makeParents (Path.join directory path)).2 = .error fault) :
      SavingFails tree directory path text (.system fault (Path.parent path))
  | file {made : Tree} {content : String} {fault : Tree.Fault}
      (hnull : Path.hasNull path = false)
      (hmake : tree.makeParents (Path.join directory path) = (made, .ok ()))
      (htext : text = some content)
      (hput : made.putFile (Path.join directory path) (Text.Utf8.encode content) = .error fault) :
      SavingFails tree directory path text (.system fault path)

/-- The directories above a path with a null in it are not made. -/
theorem makeParents_of_hasNull (hnull : Path.hasNull (Path.parent path) = true) (s : Session) :
    makeParents path s = .error .nullInPath s :=
  bind_of_error (refuseNull_eq_error hnull s) _

/-- A path with a null in it is not written to. -/
theorem writeText_of_hasNull (hnull : Path.hasNull path = true) (content : String) (s : Session) :
    writeText path content s = .error .nullInPath s :=
  bind_of_error (refuseNull_eq_error hnull s) _

/-- The directories above a path cannot be made. -/
theorem outcome_makeParents_iff (hfiles : failure.isOfFiles = true) :
    outcome (makeParents path) s = .error failure ↔ Path.hasNull (Path.parent path) = false ∧
      ∃ fault, (s.tree.makeParents (Path.join s.directory path)).2 = .error fault ∧
        failure = .system fault (Path.parent path) := by
  -- A path with a null is refused, which is no fault of files.
  cases hnull : Path.hasNull (Path.parent path) with
  | true =>
    rw [outcome_of_error (makeParents_of_hasNull hnull s)]
    refine iff_of_false ?_ (fun h => by cases h.1)
    rintro ⟨⟩
    cases hfiles
  | false =>
    have hrun := makeParents_eq hnull s
    rcases hmade : s.tree.makeParents (Path.join s.directory path) with ⟨made, fault | ⟨⟨⟩⟩⟩
    · rw [hmade] at hrun
      rw [outcome_of_error hrun]
      constructor
      · rintro ⟨⟩
        exact ⟨rfl, fault, rfl, rfl⟩
      · rintro ⟨-, _, ⟨⟩, rfl⟩
        rfl
    · rw [hmade] at hrun
      rw [outcome_of_ok hrun]
      refine iff_of_false (fun h => by cases h) ?_
      rintro ⟨-, _, ⟨⟩, -⟩

/-- The directories above a path are there, or are made. -/
theorem makeParents_eq_ok_iff {later : Session} :
    makeParents path s = .ok () later ↔ Path.hasNull (Path.parent path) = false ∧
      ∃ made, s.tree.makeParents (Path.join s.directory path) = (made, .ok ()) ∧
        later = { s with tree := made } := by
  -- A path with a null is refused; otherwise the tree decides.
  cases hnull : Path.hasNull (Path.parent path) with
  | true =>
    rw [makeParents_of_hasNull hnull s]
    exact iff_of_false (fun h => by cases h) (fun h => by cases h.1)
  | false =>
    have hrun := makeParents_eq hnull s
    rcases hmade : s.tree.makeParents (Path.join s.directory path) with ⟨made, fault | ⟨⟨⟩⟩⟩
    · rw [hmade] at hrun
      rw [hrun]
      refine iff_of_false (fun h => by cases h) ?_
      rintro ⟨-, _, ⟨⟩, -⟩
    · rw [hmade] at hrun
      rw [hrun]
      constructor
      · rintro ⟨⟩
        exact ⟨rfl, made, rfl, rfl⟩
      · rintro ⟨-, _, ⟨⟩, rfl⟩
        rfl

/-- A file cannot be written. -/
theorem outcome_writeText_iff {content : String} (hfiles : failure.isOfFiles = true) :
    outcome (writeText path content) s = .error failure ↔ Path.hasNull path = false ∧
      ∃ fault, s.tree.putFile (Path.join s.directory path) (Text.Utf8.encode content)
        = .error fault ∧ failure = .system fault path := by
  -- A path with a null is refused, which is no fault of files.
  cases hnull : Path.hasNull path with
  | true =>
    rw [outcome_of_error (writeText_of_hasNull hnull content s)]
    refine iff_of_false ?_ (fun h => by cases h.1)
    rintro ⟨⟩
    cases hfiles
  | false =>
    have hrun := writeText_eq hnull content s
    cases hput : s.tree.putFile (Path.join s.directory path) (Text.Utf8.encode content) with
    | ok tree =>
      rw [hput] at hrun
      rw [outcome_of_ok hrun]
      refine iff_of_false (fun h => by cases h) ?_
      rintro ⟨-, _, ⟨⟩, -⟩
    | error fault =>
      rw [hput] at hrun
      rw [outcome_of_error hrun]
      constructor
      · rintro ⟨⟩
        exact ⟨rfl, fault, rfl, rfl⟩
      · rintro ⟨-, _, ⟨⟩, rfl⟩
        rfl

/-- A text that there may be is written. -/
def writeIfAny (path : String) : Option String → Work Unit
  | some text => writeText path text
  | none => throw .integerUnwritable

/-- Writing a text, if there is one, fails for the files where the system refuses it. -/
theorem outcome_writeIfAny_iff {text : Option String} (hfiles : failure.isOfFiles = true) :
    outcome (writeIfAny path text) s = .error failure ↔ Path.hasNull path = false ∧
      ∃ content fault, text = some content ∧ s.tree.putFile (Path.join s.directory path)
        (Text.Utf8.encode content) = .error fault ∧ failure = .system fault path := by
  cases text with
  | none =>
    refine iff_of_false ?_ ?_
    · rintro ⟨⟩
      cases hfiles
    · rintro ⟨-, _, _, ⟨⟩, -⟩
  | some content =>
    refine (outcome_writeText_iff hfiles).trans ?_
    simp only [Option.some.injEq, exists_and_left, exists_eq_left']

/-- A text is not saved exactly if one of the two steps fails. -/
theorem savingFails_iff {text : Option String} (hfiles : failure.isOfFiles = true) :
    outcome (makeParents path >>= fun _ => writeIfAny path text) s = .error failure ↔
      SavingFails s.tree s.directory path text failure := by
  -- The file is written to the tree that making the directories leads to.
  rw [outcome_bind_eq_error, outcome_makeParents_iff hfiles]
  constructor
  · rintro (⟨hnull, fault, hmake, rfl⟩ | ⟨⟨⟩, later, hmake, hwrite⟩)
    · exact .above hnull hmake
    · obtain ⟨-, made, hmade, rfl⟩ := makeParents_eq_ok_iff.mp hmake
      obtain ⟨hnull, content, fault, htext, hput, rfl⟩ := (outcome_writeIfAny_iff hfiles).mp hwrite
      exact .file hnull hmade htext hput
  · rintro (⟨hnull, hmake⟩ | ⟨hnull, hmake, htext, hput⟩)
    · exact Or.inl ⟨hnull, _, hmake, rfl⟩
    · exact Or.inr ⟨(), _, makeParents_eq_ok_iff.mpr ⟨Path.hasNull_parent hnull, _, hmake, rfl⟩,
        (outcome_writeIfAny_iff hfiles).mpr ⟨hnull, _, _, htext, hput, rfl⟩⟩

/-- Saving a text is making the directories above it and writing it. -/
theorem save_eq (path text : String) :
    save path text = (makeParents path >>= fun _ => writeIfAny path (some text)) := rfl

end Work

end RepoAtlas
