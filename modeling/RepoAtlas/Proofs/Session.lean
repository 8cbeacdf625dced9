import RepoAtlas.Proofs.Tree.Growth
import RepoAtlas.Survey

/-!
# `RepoAtlas.Proofs.Session`: requests that take nothing away

A scan tells notices. If they go to no file, every step of the scan sees the tree as it was at the
start; otherwise a later step sees a tree in which the log file has grown. `Later` says what stays
in either case, and `Keeps` that a request, whether it succeeds or fails, leads to a later session.

* `traced_eq`: a computation on the tree leads where it leads on the tree as it is.
-/

set_option autoImplicit false

namespace RepoAtlas

/-- A session whose notices go to no file. -/
def Session.IsQuiet (s : Session) : Prop :=
  ∀ journal, s.journal = some journal → journal.file = none

/-- A session after requests that only tell notices. -/
structure Session.Later (s s' : Session) : Prop where
  grown : s.tree.Grown s'.tree
  wellNamed : s.tree.WellNamed → s'.tree.WellNamed
  journal_eq : s'.journal = s.journal
  now_eq : s'.now = s.now
  tree_eq : s.IsQuiet → s'.tree = s.tree

namespace Session.Later

variable {s s' s'' : Session}

/-- A session is later than itself. -/
theorem refl (s : Session) : s.Later s :=
  ⟨.refl s.tree, fun h => h, rfl, rfl, fun _ => rfl⟩

/-- No notice goes to a file later if none did at first. -/
theorem isQuiet (h : s.Later s') (quiet : s.IsQuiet) : s'.IsQuiet :=
  fun journal hjournal => quiet journal (h.journal_eq ▸ hjournal)

/-- What is later than a later session is later. -/
theorem trans (h : s.Later s') (h' : s'.Later s'') : s.Later s'' where
  grown := h.grown.trans h'.grown
  wellNamed hnamed := h'.wellNamed (h.wellNamed hnamed)
  journal_eq := h'.journal_eq.trans h.journal_eq
  now_eq := h'.now_eq.trans h.now_eq
  tree_eq quiet := (h'.tree_eq (h.isQuiet quiet)).trans (h.tree_eq quiet)

/-- Telling a text on the console leaves everything else alone. -/
theorem of_console (s : Session) (console : String) : s.Later { s with console := console } :=
  ⟨.refl s.tree, fun h => h, rfl, rfl, fun _ => rfl⟩

end Session.Later

namespace Work

variable {α β : Type}

/-- Two requests one after the other succeed if both do. This is how runs are taken apart below, one
request at a time. -/
theorem bind_eq_ok_iff {x : Work α} {next : α → Work β} {s s'' : Session} {b : β} :
    (x >>= next) s = .ok b s'' ↔ ∃ a s', x s = .ok a s' ∧ next a s' = .ok b s'' := by
  show EStateM.bind x next s = _ ↔ _
  unfold EStateM.bind
  cases x s with
  | ok a s' =>
    exact ⟨fun h => ⟨a, s', rfl, h⟩, fun ⟨_, _, h, hnext⟩ => by cases h; exact hnext⟩
  | error failure s' => exact ⟨fun h => (nomatch h), fun ⟨_, _, h, _⟩ => (nomatch h)⟩

/-- They fail as the first one does, or as the second one does after it. -/
theorem bind_eq_error {x : Work α} {next : α → Work β} {s s'' : Session} {failure : Failure}
    (h : (x >>= next) s = .error failure s'') :
    x s = .error failure s'' ∨ ∃ a s', x s = .ok a s' ∧ next a s' = .error failure s'' := by
  change EStateM.bind x next s = _ at h
  unfold EStateM.bind at h
  cases hx : x s with
  | ok a s' => exact Or.inr ⟨a, s', rfl, by rw [hx] at h; exact h⟩
  | error fault s' => exact Or.inl (by rw [hx] at h; cases h; rfl)

/-- After a request that succeeded, the next one runs in the session that is left. -/
theorem bind_of_ok {x : Work α} {s s' : Session} {a : α} (h : x s = .ok a s')
    (next : α → Work β) : (x >>= next) s = next a s' := by
  show EStateM.bind x next s = _
  unfold EStateM.bind
  rw [h]

/-- After a request that failed, nothing runs. -/
theorem bind_of_error {x : Work α} {s s' : Session} {failure : Failure}
    (h : x s = .error failure s') (next : α → Work β) : (x >>= next) s = .error failure s' := by
  show EStateM.bind x next s = _
  unfold EStateM.bind
  rw [h]

/-- What a request that succeeds answers. -/
def answer? (x : Work α) (s : Session) : Option α :=
  match x s with
  | .ok a _ => some a
  | .error _ _ => none

/-- A run that ends has its answer. -/
theorem answer?_of_ok {x : Work α} {s s' : Session} {a : α} (h : x s = .ok a s') :
    answer? x s = some a := by
  unfold answer?
  rw [h]

/-- A run with an answer has ended: what is evaluated in examples is the answer, without the session
that is left. -/
theorem exists_of_isSome_answer? {x : Work α} {s : Session} (h : (answer? x s).isSome = true) :
    ∃ a s', x s = .ok a s' := by
  unfold answer? at h
  cases hx : x s with
  | ok a s' => exact ⟨a, s', rfl⟩
  | error failure s' =>
    rw [hx] at h
    cases h

/-- Passing a notice on never fails: a log file that cannot be written to is left alone. -/
theorem pass_eq_ok (notice : Notice) (s : Session) :
    ∃ s', pass notice s = .ok () s' ∧ s.Later s' := by
  have hget : ∀ next : Session → Work Unit, (MonadState.get >>= next) s = next s s :=
    fun _ => rfl
  unfold pass
  rw [hget]
  cases hjournal : s.journal with
  | none => exact ⟨s, rfl, .refl s⟩
  | some journal =>
    simp only
    -- Told or not, by its level.
    split
    · have htold := Session.Later.of_console s (s.console ++ notice.consoleLine)
      cases hfile : journal.file with
      | none => exact ⟨_, rfl, htold⟩
      | some file =>
        simp only
        split
        · next later hextend =>
          exact ⟨_, rfl, {
            grown := Tree.grown_extendFile hextend
            wellNamed := fun hnamed => Tree.wellNamed_extendFile hnamed hextend
            journal_eq := rfl
            now_eq := rfl
            tree_eq := fun quiet => absurd (hfile.symm.trans (quiet journal hjournal))
              (Option.some_ne_none file) }⟩
        · exact ⟨_, rfl, htold⟩
    · exact ⟨s, rfl, .refl s⟩

/-- Nor does passing any number of notices on. -/
theorem forM_pass_eq_ok (notices : List Notice) (s : Session) :
    ∃ s', notices.forM pass s = .ok () s' ∧ s.Later s' := by
  induction notices generalizing s with
  | nil => exact ⟨s, rfl, .refl s⟩
  | cons notice rest ih =>
    obtain ⟨s₁, hpass, hlater⟩ := pass_eq_ok notice s
    obtain ⟨s₂, hrest, hlater'⟩ := ih s₁
    exact ⟨s₂, bind_eq_ok_iff.mpr ⟨(), s₁, hpass, hrest⟩, hlater.trans hlater'⟩

/-- A request that takes nothing away, whether it succeeds or fails. -/
structure Keeps (x : Work α) : Prop where
  of_ok : ∀ s a s', x s = .ok a s' → s.Later s'
  of_error : ∀ s failure s', x s = .error failure s' → s.Later s'

namespace Keeps

/-- Answering at once keeps the session. -/
theorem pure (a : α) : Keeps (Pure.pure a) where
  of_ok s _ _ h := by cases h; exact .refl s
  of_error _ _ _ h := nomatch h

/-- So does failing at once. -/
theorem throw (failure : Failure) : Keeps (MonadExcept.throw failure : Work α) where
  of_ok _ _ _ h := nomatch h
  of_error s _ _ h := by cases h; exact .refl s

/-- So does looking at the session. -/
theorem get : Keeps (MonadState.get : Work Session) where
  of_ok s _ _ h := by cases h; exact .refl s
  of_error _ _ _ h := nomatch h

/-- Two requests that take nothing away take nothing away one after the other, wherever the run
stops. -/
theorem bind {x : Work α} {next : α → Work β} (hx : Keeps x) (hnext : ∀ a, Keeps (next a)) :
    Keeps (x >>= next) where
  of_ok s b s'' h := by
    obtain ⟨a, s', ha, hb⟩ := bind_eq_ok_iff.mp h
    exact (hx.of_ok s a s' ha).trans ((hnext a).of_ok s' b s'' hb)
  of_error s failure s'' h := by
    rcases bind_eq_error h with h | ⟨a, s', ha, h⟩
    · exact hx.of_error s failure s'' h
    · exact (hx.of_ok s a s' ha).trans ((hnext a).of_error s' failure s'' h)

/-- A notice is told on the console, and added to the log file if there is one. -/
theorem pass (notice : Notice) : Keeps (Work.pass notice) where
  of_ok s a s' h := by
    obtain ⟨s₁, hrun, hlater⟩ := pass_eq_ok notice s
    rw [hrun] at h
    cases h
    exact hlater
  of_error s failure s' h := by
    obtain ⟨s₁, hrun, -⟩ := pass_eq_ok notice s
    rw [hrun] at h
    cases h

/-- A notice that is made on the spot. -/
theorem note (level : Level) (topic : Topic) (text : String) : Keeps (Work.note level topic text) :=
  pass _

/-- Notices one after the other. -/
theorem forM_pass (notices : List Notice) : Keeps (notices.forM Work.pass) := by
  induction notices with
  | nil => exact pure ()
  | cons notice rest ih => exact (pass notice).bind fun _ => ih

/-- Looking at the tree. -/
theorem tree : Keeps Work.tree :=
  get.bind fun s => pure s.tree

/-- A computation on the tree, whose notices are told first. -/
theorem traced (computation : Tree → Traced α) : Keeps (Work.traced computation) := by
  refine tree.bind fun tree => (forM_pass _).bind fun _ => ?_
  cases (computation tree).outcome with
  | ok value => exact pure value
  | error failure => exact throw failure

end Keeps

/-- A computation on the tree runs on the tree as it is and leads where it leads there; its notices
are told after it. -/
theorem traced_eq (computation : Tree → Traced α) (s : Session) :
    ∃ s', s.Later s' ∧ traced computation s = match (computation s.tree).outcome with
      | .ok a => .ok a s'
      | .error failure => .error failure s' := by
  -- The outcome is that on `s.tree`: notices are told after the computation is done.
  obtain ⟨s', hpassed, hlater⟩ := forM_pass_eq_ok (computation s.tree).notices s
  refine ⟨s', hlater, ?_⟩
  show ((computation s.tree).notices.forM pass >>= _) s = _
  rw [bind_of_ok hpassed]
  cases (computation s.tree).outcome <;> rfl

/-- If such a computation succeeds in a session, it does on the tree as it was before its notices
were told. -/
theorem traced_eq_ok {computation : Tree → Traced α} {s s' : Session} {a : α}
    (h : traced computation s = .ok a s') :
    (computation s.tree).outcome = .ok a ∧ s.Later s' := by
  obtain ⟨s₁, hlater, hrun⟩ := traced_eq computation s
  rw [hrun] at h
  cases houtcome : (computation s.tree).outcome with
  | ok value =>
    rw [houtcome] at h
    cases h
    exact ⟨rfl, hlater⟩
  | error failure =>
    rw [houtcome] at h
    cases h

end Work

end RepoAtlas
