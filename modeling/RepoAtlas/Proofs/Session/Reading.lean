import RepoAtlas.Proofs.Session

/-!
# `RepoAtlas.Proofs.Session.Reading`: requests that only read

Finding the root of a repository and the file with its settings only reads the session. What such a
request leads to (`outcome`) is all there is to it (`Reads`), and outcomes chain like any other
computation that may fail.

* `outcome_bind`: after a request that only reads, the next one runs in the same session.
* `Reads.keeps`: such a request takes nothing away.
* `Reads.openRoot`, `Reads.loadSettings`: requests that only read.
* `openRoot_eq_ok`: an opened root has a path in normal form.
* `settingsOr_eq`: what becomes of the settings that are loaded.
-/

set_option autoImplicit false

namespace RepoAtlas.Work

variable {α β : Type}

/-- What a request leads to. -/
def outcome (x : Work α) (s : Session) : Except Failure α :=
  match x s with
  | .ok a _ => .ok a
  | .error failure _ => .error failure

/-- A run that ends leads to its answer. -/
theorem outcome_of_ok {x : Work α} {s s' : Session} {a : α} (h : x s = .ok a s') :
    outcome x s = .ok a := by
  unfold outcome
  rw [h]

/-- A run that fails leads to its failure. -/
theorem outcome_of_error {x : Work α} {s s' : Session} {failure : Failure}
    (h : x s = .error failure s') : outcome x s = .error failure := by
  unfold outcome
  rw [h]

/-- What a request leads to is seen from its run. -/
theorem outcome_congr {x y : Work α} {s s' : Session} (h : x s = y s') :
    outcome x s = outcome y s' := by
  unfold outcome
  rw [h]

/-- A request leads to an answer if it ends with it, in whatever session. -/
theorem outcome_eq_ok_iff {x : Work α} {s : Session} {a : α} :
    outcome x s = .ok a ↔ ∃ s', x s = .ok a s' := by
  constructor
  · intro h
    unfold outcome at h
    cases hx : x s with
    | ok b s' =>
      rw [hx] at h
      cases h
      exact ⟨s', rfl⟩
    | error failure s' =>
      rw [hx] at h
      cases h
  · rintro ⟨s', h⟩
    exact outcome_of_ok h

/-- An outcome without its failure is an answer. -/
theorem toOption_outcome (x : Work α) (s : Session) : (outcome x s).toOption = answer? x s := by
  unfold outcome answer?
  cases x s <;> rfl

/-- A request that leaves the session as it is. -/
def Reads (x : Work α) : Prop :=
  ∀ s, x s = match outcome x s with
    | .ok a => .ok a s
    | .error failure => .error failure s

/-- Where a request that only reads succeeds, it has left the session as it was. -/
theorem Reads.eq_ok {x : Work α} (hx : Reads x) {s : Session} {a : α} (h : outcome x s = .ok a) :
    x s = .ok a s := by
  have hrun := hx s
  rw [h] at hrun
  exact hrun

/-- Where it fails, it has left it as it was too. -/
theorem Reads.eq_error {x : Work α} (hx : Reads x) {s : Session} {failure : Failure}
    (h : outcome x s = .error failure) : x s = .error failure s := by
  have hrun := hx s
  rw [h] at hrun
  exact hrun

/-- A request that only reads leads on to the next one, in the same session. -/
theorem outcome_bind {x : Work α} (hx : Reads x) (next : α → Work β) (s : Session) :
    outcome (x >>= next) s = outcome x s >>= fun a => outcome (next a) s := by
  cases houtcome : outcome x s with
  | ok a =>
    -- The next request starts in the session in which the first one started.
    unfold outcome
    rw [bind_of_ok (hx.eq_ok houtcome)]
    rfl
  | error failure => exact outcome_of_error (bind_of_error (hx.eq_error houtcome) next)

namespace Reads

/-- A request that only reads takes nothing away. -/
theorem keeps {x : Work α} (hx : Reads x) : Keeps x where
  of_ok s a s' h := by
    cases h.symm.trans (hx.eq_ok (outcome_of_ok h))
    exact .refl s
  of_error s failure s' h := by
    cases h.symm.trans (hx.eq_error (outcome_of_error h))
    exact .refl s

/-- Answering at once reads nothing. -/
theorem pure (a : α) : Reads (Pure.pure a) :=
  fun _ => rfl

/-- Failing at once reads nothing. -/
theorem throw (failure : Failure) : Reads (MonadExcept.throw failure : Work α) :=
  fun _ => rfl

/-- Looking at the session leaves it as it is. -/
theorem get : Reads (MonadState.get : Work Session) :=
  fun _ => rfl

/-- Requests that only read only read one after the other. -/
theorem bind {x : Work α} {next : α → Work β} (hx : Reads x) (hnext : ∀ a, Reads (next a)) :
    Reads (x >>= next) := by
  intro s
  rw [outcome_bind hx]
  cases houtcome : outcome x s with
  | ok a =>
    rw [bind_of_ok (hx.eq_ok houtcome), hnext a s]
    rfl
  | error failure => exact bind_of_error (hx.eq_error houtcome) next

/-- Looking at the tree only reads. -/
theorem tree : Reads Work.tree :=
  get.bind fun s => pure s.tree

/-- Making a path absolute looks up the directory of the session. -/
theorem absolute (path : String) : Reads (Work.absolute path) :=
  get.bind fun _ => pure _

/-- Putting a home directory in the place of a tilde looks up the homes. -/
theorem expandHome (path : String) : Reads (Work.expandHome path) := by
  unfold Work.expandHome
  split
  · exact pure path
  · split
    · refine get.bind fun s => ?_
      split
      · exact pure _
      · exact throw _
    · exact pure path

/-- Refusing a path does not even look at the session. -/
theorem refuseNull (path : String) : Reads (Work.refuseNull path) := by
  unfold Work.refuseNull
  split
  · exact throw _
  · exact pure ()

/-- Resolving a path looks up the tree and the directory of the session. -/
theorem resolve (path : String) : Reads (Work.resolve path) := by
  refine (refuseNull path).bind fun _ => get.bind fun s => ?_
  simp only
  split
  · exact throw _
  · exact pure _

/-- Looking what is at a path looks up the tree. -/
theorem probe (path : String) : Reads (Work.probe path) := by
  unfold Work.probe
  split
  · exact pure none
  · refine tree.bind fun tree => (absolute path).bind fun path' => ?_
    split
    · exact pure _
    · exact throw _

/-- Opening a root is resolving it and looking what is there. -/
theorem openRoot (root : String) : Reads (Work.openRoot root) := by
  refine (expandHome root).bind fun expanded => (resolve expanded).bind fun path =>
    (probe path).bind fun found => ?_
  split
  · exact throw _
  · exact pure _
  · exact throw _

/-- Searching for the settings file is looking at a few paths. -/
theorem settingsFile (path : String) : Reads (Work.settingsFile path) := by
  refine (expandHome path).bind fun expanded => (probe _).bind fun found => ?_
  split
  · exact resolve _
  · split <;> exact resolve _

/-- Reading the settings is searching for their file and reading it. -/
theorem loadSettings (path : String) : Reads (Work.loadSettings path) := by
  refine (settingsFile path).bind fun file => (resolve _).bind fun root =>
    (probe file).bind fun found => ?_
  split
  · exact pure _
  · refine tree.bind fun tree => ?_
    split
    · exact pure _
    · exact throw _

end Reads

/-! ### Opening a root -/

/-- What resolving a path has for a result is a canonical form, so it is in normal form. -/
theorem isNormal_of_resolve {path canonical : String} {s s' : Session}
    (h : resolve path s = .ok canonical s') : Path.IsNormal canonical := by
  obtain ⟨_, s₁, -, h⟩ := bind_eq_ok_iff.mp h
  obtain ⟨s₂, s₃, -, h⟩ := bind_eq_ok_iff.mp h
  -- Whatever is found there, short of a loop of links, the answer is the canonical form.
  generalize s₂.tree.find (s₂.tree.canonical (Path.names s₂.directory) path) = found at h
  cases found with
  | ok entry =>
    cases h
    exact Path.normalize_normalize _
  | error fault =>
    cases fault <;> cases h <;> exact Path.normalize_normalize _

/-- A root is opened by naming a path for it and resolving that path, if a directory is there. -/
theorem outcome_openRoot_eq_ok {root path : String} {s : Session}
    (h : outcome (openRoot root) s = .ok path) :
    ∃ expanded, outcome (expandHome root) s = .ok expanded ∧
      outcome (resolve expanded) s = .ok path ∧
      outcome (probe path) s = .ok (some .directory) := by
  unfold openRoot at h
  rw [outcome_bind (.expandHome root)] at h
  obtain ⟨expanded, hexpand, h⟩ := RepoAtlas.bind_eq_ok_iff.mp h
  rw [outcome_bind (.resolve expanded)] at h
  obtain ⟨canonical, hresolve, h⟩ := RepoAtlas.bind_eq_ok_iff.mp h
  rw [outcome_bind (.probe canonical)] at h
  obtain ⟨found, hprobe, h⟩ := RepoAtlas.bind_eq_ok_iff.mp h
  -- Only a directory is opened, and under the path that was resolved.
  obtain ⟨rfl, rfl⟩ : found = some .directory ∧ canonical = path := by
    rcases found with _ | (_ | content | target)
    · cases h
    · exact ⟨rfl, Except.ok.inj h⟩
    · cases h
    · cases h
  exact ⟨expanded, hexpand, hresolve, hprobe⟩

/-- The path of an opened root is in normal form. -/
theorem openRoot_eq_ok {root path : String} {s s' : Session}
    (h : openRoot root s = .ok path s') : Path.IsNormal path ∧ s.Later s' := by
  obtain ⟨expanded, -, hresolve, -⟩ := outcome_openRoot_eq_ok (outcome_of_ok h)
  exact ⟨isNormal_of_resolve ((Reads.resolve expanded).eq_ok hresolve),
    (Reads.openRoot root).keeps.of_ok s path s' h⟩

/-! ### Settings -/

/-- Settings that can be read are taken, a fault of their file is put aside, and every other failure
is passed on. -/
theorem settingsOr_eq (path : String) (putAside : Settings.Fault → Work Settings) (s : Session) :
    settingsOr path putAside s = match outcome (loadSettings path) s with
      | .ok (_, settings) => .ok settings s
      | .error (.settings fault) =>
        if fault.isFileFault then putAside fault s else .error (.settings fault) s
      | .error failure => .error failure s := by
  unfold settingsOr
  -- The return inside the `try` leaves it at once: the second step only hands the settings on.
  show EStateM.bind (EStateM.tryCatch (EStateM.bind (loadSettings path) _) _) _ s = _
  cases houtcome : outcome (loadSettings path) s with
  | ok loaded =>
    have hload := (Reads.loadSettings path).eq_ok houtcome
    simp only [EStateM.bind, EStateM.tryCatch, hload]
    rfl
  | error failure =>
    have hload := (Reads.loadSettings path).eq_error houtcome
    cases failure with
    | settings fault =>
      simp only [EStateM.bind, EStateM.tryCatch, hload]
      cases fault.isFileFault with
      | false => rfl
      | true =>
        show EStateM.bind (EStateM.bind (putAside fault) _) _ s = _
        unfold EStateM.bind
        cases putAside fault s <;> rfl
    | _ =>
      simp only [EStateM.bind, EStateM.tryCatch, hload]
      rfl

section

variable (path : String) {putAside : Settings.Fault → Work Settings}

/-- Looking for settings only reads if putting a fault aside does. -/
theorem Reads.settingsOr (hputAside : ∀ fault, Reads (putAside fault)) :
    Reads (Work.settingsOr path putAside) := by
  intro s
  unfold outcome
  rw [settingsOr_eq]
  split
  · rfl
  · split
    · exact hputAside _ s
    · rfl
  · rfl

/-- It takes nothing away if putting aside does not. -/
theorem Keeps.settingsOr (hputAside : ∀ fault, Keeps (putAside fault)) :
    Keeps (Work.settingsOr path putAside) := by
  constructor
  · intro s a s' h
    rw [settingsOr_eq] at h
    split at h
    · cases h
      exact .refl s
    · split at h
      · exact (hputAside _).of_ok s a s' h
      · cases h
    · cases h
  · intro s failure s' h
    rw [settingsOr_eq] at h
    split at h
    · cases h
    · split at h
      · exact (hputAside _).of_error s failure s' h
      · cases h
        exact .refl s
    · cases h
      exact .refl s

end

end RepoAtlas.Work
