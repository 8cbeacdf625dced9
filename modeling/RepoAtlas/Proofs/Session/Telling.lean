import RepoAtlas.Proofs.Session.Reading
import RepoAtlas.Proofs.Survey.Stages

/-!
# `RepoAtlas.Proofs.Session.Telling`: requests that only tell

If notices go to no file, all that giving them changes is the console. A request that reads and
gives notices then leaves the session as it is, apart from what has been told (`Tells`). A survey is
such a request.

* `Tells.bind`, `Tells.traced`, `Tells.settingsOr`: how such requests are put together.
* `outcome_bind_of_tells`: the next request runs in the same session, except for the console.
* `Tells.survey`: a survey only tells.
-/

set_option autoImplicit false

namespace RepoAtlas.Work

variable {α β : Type}

/-- A request that leaves a quiet session as it is, apart from what has been told. -/
def Tells (x : Work α) : Prop :=
  ∀ s : Session, s.IsQuiet → ∃ console, x s = match outcome x s with
    | .ok a => .ok a { s with console }
    | .error failure => .error failure { s with console }

/-- The next request runs in the same session, except for the console. -/
theorem outcome_bind_of_tells {x : Work α} (hx : Tells x) {s : Session} (quiet : s.IsQuiet) :
    ∃ console, ∀ {β : Type} (next : α → Work β),
      outcome (x >>= next) s = outcome x s >>= fun a => outcome (next a) { s with console } := by
  obtain ⟨console, hrun⟩ := hx s quiet
  refine ⟨console, fun next => ?_⟩
  cases houtcome : outcome x s with
  | ok a =>
    rw [houtcome] at hrun
    unfold outcome
    rw [bind_of_ok hrun]
    rfl
  | error failure =>
    rw [houtcome] at hrun
    exact outcome_of_error (bind_of_error hrun next)

/-- A request that only reads tells nothing. -/
theorem Reads.tells {x : Work α} (hx : Reads x) : Tells x :=
  fun s _ => ⟨s.console, hx s⟩

namespace Tells

/-- Requests that only tell do so one after the other. -/
theorem bind {x : Work α} {next : α → Work β} (hx : Tells x) (hnext : ∀ a, Tells (next a)) :
    Tells (x >>= next) := by
  intro s quiet
  obtain ⟨console, hrun⟩ := hx s quiet
  -- The second part starts from the console that the first one leaves.
  cases houtcome : outcome x s with
  | ok a =>
    rw [houtcome] at hrun
    obtain ⟨console', hrun'⟩ := hnext a { s with console } quiet
    have hboth : (x >>= next) s = next a { s with console } := bind_of_ok hrun next
    refine ⟨console', ?_⟩
    unfold outcome
    rw [hboth]
    exact hrun'
  | error failure =>
    rw [houtcome] at hrun
    have hboth : (x >>= next) s = .error failure { s with console } := bind_of_error hrun next
    refine ⟨console, ?_⟩
    rw [outcome_of_error hboth]
    exact hboth

/-- A notice is told on the console, if at all. -/
theorem pass (notice : Notice) : Tells (Work.pass notice) := by
  intro s quiet
  suffices h : ∃ console, Work.pass notice s = .ok () { s with console } by
    obtain ⟨console, hrun⟩ := h
    exact ⟨console, by rw [outcome_of_ok hrun]; exact hrun⟩
  obtain ⟨tree, directory, homes, now, journal, output, console⟩ := s
  -- The session is taken apart to see that nothing but the console is written.
  cases journal with
  | none => exact ⟨console, rfl⟩
  | some journal =>
    have hfile : journal.file = none := quiet journal rfl
    have hget : ∀ (s : Session) (next : Session → Work Unit),
        (MonadState.get >>= next) s = next s s := fun _ _ => rfl
    unfold Work.pass
    rw [hget]
    simp only
    split
    · rw [hfile]
      exact ⟨console ++ notice.consoleLine, rfl⟩
    · exact ⟨console, rfl⟩

/-- A notice is told. -/
theorem note (level : Level) (topic : Topic) (text : String) : Tells (Work.note level topic text) :=
  pass _

/-- So are many. -/
theorem forM_pass (notices : List Notice) : Tells (notices.forM Work.pass) := by
  -- The notices are passed one by one.
  induction notices with
  | nil => exact (Reads.pure ()).tells
  | cons notice rest ih => exact (pass notice).bind fun _ => ih

/-- A computation passes its notices on. -/
theorem traced (computation : Tree → Traced α) : Tells (Work.traced computation) := by
  refine Reads.tree.tells.bind fun tree => (forM_pass _).bind fun _ => ?_
  cases (computation tree).outcome with
  | ok value => exact (Reads.pure value).tells
  | error failure => exact (Reads.throw failure).tells

/-- Settings are found without a word, except about a file that is at fault. -/
theorem settingsOr (path : String) {putAside : Settings.Fault → Work Settings}
    (hputAside : ∀ fault, Tells (putAside fault)) : Tells (Work.settingsOr path putAside) := by
  intro s quiet
  unfold outcome
  rw [settingsOr_eq]
  split
  · exact ⟨s.console, rfl⟩
  · split
    · exact hputAside _ s quiet
    · exact ⟨s.console, rfl⟩
  · exact ⟨s.console, rfl⟩

/-- Looking for settings tells that there are none, at most. -/
theorem settingsFor (given : Option Settings) (path : String) :
    Tells (Survey.settingsFor given path) := by
  cases given with
  | some settings => exact (Reads.pure settings).tells
  | none => exact settingsOr path fun _ => (note _ _ _).bind fun _ => (Reads.pure _).tells

/-- A survey only tells. -/
theorem survey (given : Option Settings) (root : String) : Tells (Work.survey given root) := by
  rw [Survey.survey_eq]
  exact (Reads.openRoot root).tells.bind fun path => (settingsFor given path).bind fun settings =>
    (note _ _ _).bind fun _ => (traced _).bind fun _ => (traced _).bind fun _ =>
      (traced _).bind fun _ => (traced _).bind fun _ => traced _

end Tells

end RepoAtlas.Work
