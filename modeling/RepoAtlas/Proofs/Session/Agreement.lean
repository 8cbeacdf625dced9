import RepoAtlas.Proofs.Session.Reading
import RepoAtlas.Proofs.Tree.Alike

/-!
# `RepoAtlas.Proofs.Session.Agreement`: one request in two sessions

Two sessions may differ in their trees. `Agrees S V` says that two requests, made in sessions that
are in the relation `S`, both succeed with answers in the relation `V` or fail for the same reason,
and lead to sessions that are in the relation `S` again. Requests are put together in few ways, and
each way keeps agreement.

* `Agrees.bind`, `Agrees.settingsOr`: requests one after the other.
* `Agrees.openRoot`, `Agrees.loadSettings`: in sessions with trees of the same outline, roots open
  alike, and settings are loaded alike if the file that holds them is the same.
-/

set_option autoImplicit false

namespace RepoAtlas.Work

open RepoAtlas.Tree (SameKind)

variable {α α' β β' : Type}

/-- Two runs with answers in one relation, or the same failure, in sessions in another relation. -/
inductive Leads (S : Session → Session → Prop) (V : α → α' → Prop) :
    EStateM.Result Failure Session α → EStateM.Result Failure Session α' → Prop
  | ok {a : α} {a' : α'} {s s' : Session} (ha : V a a') (hs : S s s') :
    Leads S V (.ok a s) (.ok a' s')
  | error {failure : Failure} {s s' : Session} (hs : S s s') :
    Leads S V (.error failure s) (.error failure s')

/-- Two requests that lead to the same in sessions that are in a relation. -/
def Agrees (S : Session → Session → Prop) (V : α → α' → Prop) (x : Work α) (y : Work α') : Prop :=
  ∀ s s', S s s' → Leads S V (x s) (y s')

/-- Sessions that differ in the contents of files and the order of entries at most, as far as
requests that only read can tell. -/
structure AreAlike (S : Session → Session → Prop) : Prop where
  tree : ∀ {s s'}, S s s' → s.tree.Alike s'.tree
  directory_eq : ∀ {s s'}, S s s' → s'.directory = s.directory
  homes_eq : ∀ {s s'}, S s s' → s'.homes = s.homes

namespace Agrees

variable {S : Session → Session → Prop} {V : α → α' → Prop} {W : β → β' → Prop}

/-- Requests that agree lead to outcomes that agree. -/
theorem outcome_agree {x : Work α} {y : Work α'} (h : Agrees S V x y) {s s' : Session}
    (hs : S s s') : Agree Eq V (outcome x s) (outcome y s') := by
  have hrun := h s s' hs
  unfold outcome
  generalize x s = result at hrun
  generalize y s' = result' at hrun
  cases hrun with
  | ok ha _ => exact .ok ha
  | error _ => exact .error rfl

/-- Where answers are the same, outcomes are the same. -/
theorem outcome_eq {x y : Work α} (h : Agrees S Eq x y) {s s' : Session} (hs : S s s') :
    outcome x s = outcome y s' :=
  agree_eq_iff.mp (h.outcome_agree hs)

/-- Matched answers agree. -/
theorem pure {a : α} {a' : α'} (ha : V a a') : Agrees S V (Pure.pure a) (Pure.pure a') :=
  fun _ _ hs => .ok ha hs

/-- A failure agrees with itself. -/
theorem throw (failure : Failure) :
    Agrees S V (MonadExcept.throw failure : Work α) (MonadExcept.throw failure : Work α') :=
  fun _ _ hs => .error hs

/-- Matched sessions are looked at. -/
theorem get : Agrees S S (MonadState.get : Work Session) (MonadState.get : Work Session) :=
  fun _ _ hs => .ok hs hs

/-- And their trees. -/
theorem tree : Agrees S (fun tree tree' => ∃ s s', S s s' ∧ tree = s.tree ∧ tree' = s'.tree)
    Work.tree Work.tree :=
  fun s s' hs => .ok ⟨s, s', hs, rfl, rfl⟩ hs

/-- What is known of the first answer may be used for what follows. -/
theorem bind_of_eq_ok {x : Work α} {x' : Work α'} {next : α → Work β} {next' : α' → Work β'}
    (h : Agrees S V x x')
    (hnext : ∀ a a', V a a' → (∃ s s' t, S s s' ∧ x s = .ok a t) →
      Agrees S W (next a) (next' a')) :
    Agrees S W (x >>= next) (x' >>= next') := by
  intro s s' hs
  have hrun := h s s' hs
  show Leads S W (EStateM.bind x next s) (EStateM.bind x' next' s')
  unfold EStateM.bind
  -- The second part runs in what the first leaves, which is related again.
  cases hx : x s with
  | ok a t =>
    rw [hx] at hrun
    generalize x' s' = result' at hrun
    cases hrun with
    | ok ha ht => exact hnext _ _ ha ⟨s, s', t, hs, hx⟩ _ _ ht
  | error failure t =>
    rw [hx] at hrun
    generalize x' s' = result' at hrun
    cases hrun with
    | error ht => exact .error ht

/-- Requests that agree go on agreeing one after the other. -/
theorem bind {x : Work α} {x' : Work α'} {next : α → Work β} {next' : α' → Work β'}
    (h : Agrees S V x x') (hnext : ∀ a a', V a a' → Agrees S W (next a) (next' a')) :
    Agrees S W (x >>= next) (x' >>= next') :=
  h.bind_of_eq_ok fun a a' ha _ => hnext a a' ha

/-- Settings that are at fault are put aside alike. -/
theorem settingsOr {path : String} {putAside : Settings.Fault → Work Settings}
    (hload : Agrees S Eq (Work.loadSettings path) (Work.loadSettings path))
    (haside : ∀ fault, Agrees S Eq (putAside fault) (putAside fault)) :
    Agrees S Eq (Work.settingsOr path putAside) (Work.settingsOr path putAside) := by
  intro s s' hs
  rw [settingsOr_eq, settingsOr_eq, hload.outcome_eq hs]
  split
  · exact .ok rfl hs
  · split
    · exact haside _ s s' hs
    · exact .error hs
  · exact .error hs

/-! ### Requests that only read -/

section

variable (alike : AreAlike S)

include alike

/-- The homes are the same, so a tilde stands for the same path. -/
theorem expandHome (path : String) : Agrees S Eq (Work.expandHome path) (Work.expandHome path) := by
  unfold Work.expandHome
  split
  · exact .pure rfl
  · split
    · refine get.bind fun s s' hs => ?_
      rw [alike.homes_eq hs]
      split
      · exact .pure rfl
      · exact .throw _
    · exact .pure rfl

omit alike in
/-- A path is refused for what it is. -/
theorem refuseNull (path : String) : Agrees S Eq (Work.refuseNull path) (Work.refuseNull path) := by
  unfold Work.refuseNull
  split
  · exact .throw _
  · exact .pure rfl

/-- Alike trees resolve a path to the same one. -/
theorem resolve (path : String) : Agrees S Eq (Work.resolve path) (Work.resolve path) := by
  refine (refuseNull path).bind fun _ _ _ => get.bind fun s s' hs => ?_
  simp only [alike.directory_eq hs, ← (alike.tree hs).canonical_eq]
  -- The canonical path is the same, and so is the fault that it may end in.
  have hfind := (alike.tree hs).find (s.tree.canonical (Path.names s.directory) path)
  generalize s.tree.find (s.tree.canonical (Path.names s.directory) path) = found at hfind
  generalize s'.tree.find (s.tree.canonical (Path.names s.directory) path) = found' at hfind
  cases hfind with
  | ok _ => exact .pure rfl
  | error heq =>
    subst heq
    split
    · exact .throw _
    · exact .pure rfl

/-- They have the same kind of thing at a path, if they have anything. -/
theorem probe (path : String) :
    Agrees S (Option.Rel SameKind) (Work.probe path) (Work.probe path) := by
  unfold Work.probe
  split
  · exact .pure .none
  · refine tree.bind fun tree tree' htrees => ?_
    obtain ⟨s, s', hs, rfl, rfl⟩ := htrees
    -- Both sessions have the same working directory.
    have habsolute : Agrees S Eq (Work.absolute path) (Work.absolute path) :=
      get.bind fun t t' ht => .pure (by rw [alike.directory_eq ht])
    refine habsolute.bind fun whole whole' hwhole => ?_
    subst hwhole
    have hfind := (alike.tree hs).find whole
    unfold Tree.probe
    generalize s.tree.find whole = found at hfind
    generalize s'.tree.find whole = found' at hfind
    cases hfind with
    | ok hkind => exact .pure (.some hkind)
    | @error fault _ heq =>
      subst heq
      cases fault with
      | nameTooLong => exact .throw _
      | _ => exact .pure .none

/-- They open the same root. -/
theorem openRoot (root : String) : Agrees S Eq (Work.openRoot root) (Work.openRoot root) := by
  refine (expandHome alike root).bind fun expanded _ heq => ?_
  subst heq
  refine (resolve alike expanded).bind fun path _ heq => ?_
  subst heq
  refine (probe alike path).bind fun found found' hfound => ?_
  -- Only a directory is opened, and both sessions find one or neither does.
  cases hfound with
  | none => exact .throw _
  | @some entry entry' hkind =>
    cases hkind with
    | file content content' => exact .throw _
    | same =>
      cases entry with
      | directory => exact .pure rfl
      | _ => exact .throw _

/-- They have the file with the settings at the same path. -/
theorem settingsFile (path : String) :
    Agrees S Eq (Work.settingsFile path) (Work.settingsFile path) := by
  refine (expandHome alike path).bind fun expanded _ heq => ?_
  subst heq
  refine (probe alike _).bind fun found found' hfound => ?_
  -- A given directory holds the settings file; whether it is one is the same in both.
  have hdirectory : found = some .directory ↔ found' = some .directory := by
    cases hfound with
    | none => exact Iff.rfl
    | some hkind =>
      cases hkind with
      | same entry => exact Iff.rfl
      | file content content' => simp
  simp only [hdirectory]
  split
  · exact resolve alike _
  · split <;> exact resolve alike _

/-- Settings are loaded alike if the file that holds them says the same. -/
theorem loadSettings (path : String)
    (hfile : ∀ s s' file t, S s s' → Work.settingsFile path s = .ok file t → ∀ u u', S u u' →
      Settings.ofFile u.tree file = Settings.ofFile u'.tree file) :
    Agrees S Eq (Work.loadSettings path) (Work.loadSettings path) := by
  refine (settingsFile alike path).bind_of_eq_ok fun file _ heq hknown => ?_
  subst heq
  refine (resolve alike _).bind fun root _ heq => ?_
  subst heq
  refine (probe alike file).bind fun found found' hfound => ?_
  -- Where there is no file, both take the usual settings.
  have hnone : found.isNone = found'.isNone := by
    cases hfound <;> rfl
  rw [hnone]
  split
  · exact .pure rfl
  · refine tree.bind fun tree tree' htrees => ?_
    obtain ⟨u, u', hu, rfl, rfl⟩ := htrees
    obtain ⟨s, s', t, hs, hrun⟩ := hknown
    rw [hfile s s' file t hs hrun u u' hu]
    split
    · exact .pure rfl
    · exact .throw _

end

end Agrees

end RepoAtlas.Work
