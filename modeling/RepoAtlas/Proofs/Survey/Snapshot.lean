import RepoAtlas.Proofs.Session.Reading
import RepoAtlas.Proofs.Survey.Stages

/-!
# `RepoAtlas.Proofs.Survey.Snapshot`: a survey as a function of the tree

If notices go to no file, a survey leaves the tree as it is. What it leads to is then a function of
the tree, the settings and the path of the root (`ofTree`), once these have been found.

* `outcome_survey`: the outcome of a survey, from the outcomes of finding root and settings.
* `outcome_settingsFor_none`: the settings of a repository; a file that is at fault is put aside.
-/

set_option autoImplicit false

namespace RepoAtlas.Survey

open RepoAtlas.Module
open RepoAtlas.Work (outcome)

/-- What the walk of a survey is about. -/
def scopeAt (settings : Settings) (path : String) : Scope where
  root := Path.normalize path
  excluded := settings.excluded
  extensions := settings.sourceExtensions

/-- The modules that a survey walks. -/
def mergedOf (tree : Tree) (settings : Settings) (path : String) : Traced Registry := do
  let registry ← registered tree settings path
  withManual tree settings path registry

/-- What a survey makes of the modules that it walks. -/
def graphOf (tree : Tree) (settings : Settings) (path : String) (registry : Registry) :
    Traced Graph := do
  let registry ← walked tree settings path registry
  let registry ← linked tree settings path registry
  finished path registry

/-- The stages of a survey, on a tree that stays as it is. -/
def ofTree (tree : Tree) (settings : Settings) (path : String) : Traced Graph := do
  let registry ← mergedOf tree settings path
  graphOf tree settings path registry

/-- The modules that a survey walks are sound. -/
theorem sound_mergedOf {tree : Tree} {settings : Settings} {path : String} {merged : Registry}
    (h : (mergedOf tree settings path).outcome = .ok merged) : merged.Sound := by
  obtain ⟨shown, hshown, h⟩ := Traced.outcome_bind_eq_ok_iff.mp h
  obtain ⟨declared, entry, found, -, -, rfl⟩ := registered_eq_ok hshown
  obtain ⟨manual, -, rfl⟩ := withManual_eq_ok h
  exact ((Registry.sound_empty declared).ensureAll _).apply (.mergeManual manual)

/-- A computation on the tree comes before the rest of a survey. -/
theorem outcome_traced_bind {α β : Type} {s : Session}
    (computation : Tree → Traced α) {next : α → Work β} {rest : α → Except Failure β}
    (hnext : ∀ a s', s.Later s' → outcome (next a) s' = rest a) :
    outcome (Work.traced computation >>= next) s
      = (computation s.tree).outcome >>= rest := by
  obtain ⟨s', hlater, hrun⟩ := Work.traced_eq computation s
  cases houtcome : (computation s.tree).outcome with
  | ok a =>
    rw [houtcome] at hrun
    unfold outcome
    rw [Work.bind_of_ok hrun]
    exact hnext a s' hlater
  | error failure =>
    rw [houtcome] at hrun
    exact Work.outcome_of_error (Work.bind_of_error hrun next)

/-- A notice has no say in what comes after it. -/
theorem outcome_note_bind {β : Type} (level : Level) (topic : Topic) (text : String) (s : Session)
    {next : Unit → Work β} {result : Except Failure β}
    (hnext : ∀ s', s.Later s' → outcome (next ()) s' = result) :
    outcome (Work.note level topic text >>= next) s = result := by
  obtain ⟨s', hpass, hlater⟩ := Work.pass_eq_ok ⟨level, topic, text⟩ s
  unfold outcome
  rw [Work.bind_of_ok (show Work.note level topic text s = .ok () s' from hpass)]
  exact hnext s' hlater

/-- The stages of a survey lead where they lead on the tree at the start. -/
theorem outcome_stages {s : Session} (quiet : s.IsQuiet) (settings : Settings) (path : String) :
    outcome (do
      Work.note .info .detector s!"Detecting modules in {path}"
      let registry ← Work.traced fun tree => registered tree settings path
      let registry ← Work.traced fun tree => withManual tree settings path registry
      let registry ← Work.traced fun tree => walked tree settings path registry
      let registry ← Work.traced fun tree => linked tree settings path registry
      Work.traced fun _ => finished path registry) s
      = (ofTree s.tree settings path).outcome := by
  -- Every stage runs in a later session, whose tree is still the one at the start.
  have hstage : ∀ {α : Type} (computation : Tree → Traced α) (next : α → Work Graph)
      (rest : α → Traced Graph) (s₁ : Session), s.Later s₁ →
      (∀ a s₂, s.Later s₂ → outcome (next a) s₂ = (rest a).outcome) →
      outcome (Work.traced computation >>= next) s₁
        = (computation s.tree >>= rest).outcome := by
    intro α computation next rest s₁ hlater hnext
    rw [Traced.outcome_bind, ← hlater.tree_eq quiet]
    exact outcome_traced_bind computation
      fun a s₂ hlater' => hnext a s₂ (hlater.trans hlater')
  unfold ofTree mergedOf
  rw [bind_assoc]
  refine outcome_note_bind _ _ _ s fun s₁ h₁ => ?_
  refine hstage _ _ _ s₁ h₁ fun shown s₂ h₂ => ?_
  refine hstage _ _ _ s₂ h₂ fun merged s₃ h₃ => ?_
  refine hstage _ _ _ s₃ h₃ fun walked s₄ h₄ => ?_
  refine hstage _ _ _ s₄ h₄ fun linked s₅ h₅ => ?_
  obtain ⟨s₆, -, hrun⟩ := Work.traced_eq (fun _ => finished path linked) s₅
  unfold outcome
  rw [hrun]
  cases (finished path linked).outcome <;> rfl

/-- What a survey leads to: root and settings are found, and all else is settled by the tree. -/
theorem outcome_survey {s : Session} (quiet : s.IsQuiet) (given : Option Settings) (root : String) :
    outcome (Work.survey given root) s = (do
      let path ← outcome (Work.openRoot root) s
      let settings ← outcome (settingsFor given path) s
      (ofTree s.tree settings path).outcome) := by
  rw [survey_eq, Work.outcome_bind (Work.Reads.openRoot root)]
  refine congrArg _ (funext fun path => ?_)
  -- Looking for settings leaves the tree, whatever it tells.
  have hlater := keeps_settingsFor given path
  cases hsettings : settingsFor given path s with
  | ok settings s' =>
    have hs := hlater.of_ok s settings s' hsettings
    rw [Work.outcome_of_ok hsettings, ok_bind, ← hs.tree_eq quiet,
      ← outcome_stages (hs.isQuiet quiet)]
    unfold outcome
    rw [Work.bind_of_ok hsettings]
  | error failure s' =>
    rw [Work.outcome_of_error hsettings]
    exact Work.outcome_of_error (Work.bind_of_error hsettings _)

/-- What loading the settings of a repository comes to, with a faulty file put aside. -/
def putAside : Except Failure (String × Settings) → Except Failure Settings
  | .ok (_, settings) => .ok settings
  | .error (.settings fault) => if fault.isFileFault then .ok {} else .error (.settings fault)
  | .error failure => .error failure

/-- Finding settings comes to this, if putting a fault aside leads to the usual ones. -/
theorem outcome_settingsOr {aside : Settings.Fault → Work Settings}
    (haside : ∀ fault s, outcome (aside fault) s = .ok {}) (path : String) (s : Session) :
    outcome (Work.settingsOr path aside) s = putAside (outcome (Work.loadSettings path) s) := by
  have hrun := Work.settingsOr_eq path aside s
  generalize outcome (Work.loadSettings path) s = loading at hrun ⊢
  cases loading with
  | ok loaded => exact Work.outcome_of_ok hrun
  | error failure =>
    cases failure with
    | settings fault =>
      rw [putAside]
      simp only at hrun
      split at hrun
      · next hfault =>
        rw [if_pos hfault, Work.outcome_congr hrun]
        exact haside fault s
      · next hfault =>
        rw [if_neg hfault]
        exact Work.outcome_of_error hrun
    | _ => exact Work.outcome_of_error hrun

/-- Without settings given, those of the repository are taken, and the usual ones if it has none
that can be read. -/
theorem outcome_settingsFor_none (path : String) (s : Session) :
    outcome (settingsFor none path) s = putAside (outcome (Work.loadSettings path) s) :=
  outcome_settingsOr (fun _ s => outcome_note_bind _ _ _ s fun _ _ => rfl) path s

end RepoAtlas.Survey
