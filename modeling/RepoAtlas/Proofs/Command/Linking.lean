import RepoAtlas.Command.Run
import RepoAtlas.Proofs.Linking
import RepoAtlas.Proofs.Survey.Snapshot

/-!
# `RepoAtlas.Proofs.Command.Linking`: the commands that add and remove links

A command about links opens the repository, finds its settings and then works on the links files; to
add a link it surveys the repository first, for the modules that there are. Finding all this leaves
the tree as it is, so what a command does to the tree is the one text that it saves.

* `withLinks_eq`: what is done with the links of a repository, root and settings found.
* `runAddLink_eq_ok`: a link that was added, and was not there before, has been saved after the
  others.
* `runRemoveLink_of_save`: a link that is there is removed, if the others can be saved.
-/

set_option autoImplicit false

namespace RepoAtlas.Work

open RepoAtlas.Module
open RepoAtlas.Survey (settingsFor outcome_settingsFor_none survey_eq keeps_settingsFor)

variable {s : Session} {root path : String}

/-! ### Finding the links files -/

/-- A command about links puts a faulty settings file aside without a word, and so it only reads. -/
theorem reads_settingsOr (path : String) : Reads (settingsOr path fun _ => pure {}) :=
  .settingsOr path fun _ => .pure _

/-- It finds the settings that a survey finds. -/
theorem outcome_settingsOr_eq (path : String) (s : Session) :
    outcome (settingsOr path fun _ => pure {}) s = outcome (settingsFor none path) s := by
  rw [Survey.outcome_settingsOr (fun _ _ => rfl), outcome_settingsFor_none]

/-- Root and settings are found as a survey finds them. -/
theorem withLinks_eq {settings : Settings} (hopen : outcome (openRoot root) s = .ok path)
    (hsettings : outcome (settingsFor none path) s = .ok settings)
    (act : String → List String → Work Nat) :
    withLinks root act s = act path settings.linksFiles s := by
  -- Opening the root goes through the steps that the command begins with.
  obtain ⟨expanded, hexpand, hresolve, hprobe⟩ := outcome_openRoot_eq_ok hopen
  unfold withLinks
  rw [bind_of_ok ((Reads.expandHome root).eq_ok hexpand),
    bind_of_ok ((Reads.resolve expanded).eq_ok hresolve),
    bind_of_ok ((Reads.probe path).eq_ok hprobe), if_pos rfl,
    bind_of_ok ((reads_settingsOr path).eq_ok ((outcome_settingsOr_eq path s).trans hsettings))]

/-- A survey takes nothing away. -/
theorem Keeps.survey (given : Option Settings) (root : String) :
    Keeps (Work.survey given root) := by
  rw [survey_eq]
  exact (Reads.openRoot root).keeps.bind fun path =>
    (keeps_settingsFor given path).bind fun settings => (note _ _ _).bind fun _ =>
      (traced _).bind fun _ => (traced _).bind fun _ => (traced _).bind fun _ =>
        (traced _).bind fun _ => traced _

/-! ### Adding -/

variable {source target : CodeText} {links : List Link} {place : String} {places : List String}

/-- A link that was added is new if there was none, and has been saved after the others. -/
theorem addLink_eq_ok {known : List CodeText} {link : Link} {isNew : Bool} {later : Session}
    (quiet : s.IsQuiet) (hholds : Holds root (place :: places) s links)
    (hfind : links.find? (·.joins source target) = none)
    (h : addLink root (place :: places) known source target s = .ok (link, isNew) later) :
    (link.source = source ∧ link.target = target ∧ ∃ now : Instant, link.createdAt = now.text) ∧
      ∃ before after, before.tree = s.tree ∧
      save (Path.below root place) (SideFile.linksText (links ++ [link])) before = .ok () after ∧
      later.tree = after.tree := by
  by_cases hmissing : source = "" ∨ target = ""
  · rw [addLink_of_missingEnd hmissing] at h
    cases h
  by_cases hsame : source = target
  · rw [addLink_of_selfLink hmissing hsame] at h
    cases h
  by_cases hunknown : source ∉ known ∨ target ∉ known
  · rw [addLink_of_unknown hmissing hsame hunknown] at h
    cases h
  obtain ⟨loaded, hload, hlater⟩ := loadLinks_of_holds hholds
  rw [addLink_of_known hmissing hsame hunknown, bind_of_ok hload] at h
  simp only [hfind] at h
  obtain ⟨_, _, hget, h⟩ := bind_eq_ok_iff.mp h
  cases hget
  obtain ⟨stored, s₁, hstore, h⟩ := bind_eq_ok_iff.mp h
  obtain ⟨_, s₂, hnote, h⟩ := bind_eq_ok_iff.mp h
  cases h
  obtain ⟨_, s₃, hsave, hpath⟩ := bind_eq_ok_iff.mp hstore
  cases hpath
  -- Saving changes nothing but the tree, so the notice after it goes to no file either.
  have hquiet : s₁.IsQuiet := by
    rcases save_cases (Path.below root place) (SideFile.linksText (links ++
        [{ source, target, createdAt := loaded.now.text }])) loaded with
      ⟨_, _, hblocked, -⟩ | ⟨_, hsaved, -⟩
    · cases hsave.symm.trans hblocked
    · cases hsave.symm.trans hsaved
      exact hlater.isQuiet quiet
  exact ⟨⟨rfl, rfl, loaded.now, rfl⟩, loaded, s₁, hlater.tree_eq quiet, hsave,
    ((Keeps.note _ _ _).of_ok _ _ _ hnote).tree_eq hquiet⟩

/-- A failure of a request is told, and then gives status 1, or is passed on. -/
theorem refuseBadRequest_cases (failure : Failure) (s : Session) :
    (∃ later, refuseBadRequest failure s = .ok 1 later) ∨
      ∃ failure' later, refuseBadRequest failure s = .error failure' later := by
  unfold refuseBadRequest
  split
  · exact Or.inl ⟨_, rfl⟩
  · split
    · exact Or.inl ⟨_, rfl⟩
    · exact Or.inr ⟨_, _, rfl⟩

/-- The command that adds a link succeeds if the link is added, or is there already. -/
theorem runAddLink_eq_ok {source target : String} {settings : Settings} {later : Session}
    (quiet : s.IsQuiet)
    (hopen : outcome (openRoot root) s = .ok path)
    (hsettings : outcome (settingsFor none path) s = .ok settings)
    (h : runAddLink root source target s = .ok 0 later) :
    ∃ known link isNew before after, before.tree = s.tree ∧ before.IsQuiet ∧
      addLink path settings.linksFiles known source target before = .ok (link, isNew) after ∧
      later.tree = after.tree := by
  unfold runAddLink at h
  rw [withLinks_eq hopen hsettings] at h
  obtain ⟨graph, before, hsurvey, h⟩ := bind_eq_ok_iff.mp h
  have hlater := (Keeps.survey none path).of_ok s graph before hsurvey
  refine ⟨graph.modules.map FinishedModule.id, ?_⟩
  generalize graph.modules.map FinishedModule.id = known at h
  change EStateM.bind (EStateM.tryCatch (EStateM.bind (addLink path settings.linksFiles known source
    target) _) _) _ before = _ at h
  cases hadd : addLink path settings.linksFiles known source target before with
  | ok answer after =>
    obtain ⟨link, isNew⟩ := answer
    refine ⟨link, isNew, before, after, hlater.tree_eq quiet, hlater.isQuiet quiet, hadd, ?_⟩
    simp only [EStateM.bind, EStateM.tryCatch, hadd] at h
    cases isNew <;> cases h <;> rfl
  | error failure after =>
    simp only [EStateM.bind, EStateM.tryCatch, hadd] at h
    -- A failure that is told gives another status.
    generalize EStateM.Backtrackable.restore after (EStateM.Backtrackable.save before) = told at h
    rcases refuseBadRequest_cases failure told with ⟨_, hrefuse⟩ | ⟨_, _, hpassed⟩
    · rw [bind_of_ok hrefuse] at h
      cases h
    · rw [bind_of_error hpassed] at h
      cases h

/-! ### Removing -/

/-- A link that is there is removed if the other links can be saved. -/
theorem removeLink_of_save (quiet : s.IsQuiet) (hfilled : ¬ (source = "" ∨ target = ""))
    (hholds : Holds root (place :: places) s links)
    (hpresent : ∃ link ∈ links, link.joins source target = true) {after : Tree}
    (hsave : ∀ before : Session, before.tree = s.tree →
      save (Path.below root place) (SideFile.linksText (links.filter fun link =>
        !link.joins source target)) before = .ok () { before with tree := after }) :
    ∃ later, removeLink root (place :: places) source target s = .ok true later ∧
      later.tree = after := by
  obtain ⟨loaded, hload, hlater⟩ := loadLinks_of_holds hholds
  have hstore : storeLinks root (place :: places) (links.filter fun link =>
      !link.joins source target) loaded
        = .ok (Path.below root place) { loaded with tree := after } := by
    rw [storeLinks, bind_of_ok (hsave loaded (hlater.tree_eq quiet))]
    rfl
  -- The notice comes after saving and leaves the tree.
  obtain ⟨later, hnote, hlater'⟩ := pass_eq_ok ⟨.info, .overrides,
    s!"Removed manual link {source} -> {target} from {Path.below root place}"⟩
    { loaded with tree := after }
  refine ⟨later, ?_, hlater'.tree_eq (hlater.isQuiet quiet)⟩
  rw [removeLink_of_filled hfilled, bind_of_ok hload, if_neg (length_filter_ne_of_present hpresent),
    bind_of_ok hstore, note, bind_of_ok hnote]
  rfl

/-- The command that removes a link succeeds if the link is removed. -/
theorem runRemoveLink_of_ok {source target : String} {settings : Settings} {later : Session}
    (hopen : outcome (openRoot root) s = .ok path)
    (hsettings : outcome (settingsFor none path) s = .ok settings)
    (h : removeLink path settings.linksFiles source target s = .ok true later) :
    ∃ last, runRemoveLink root source target s = .ok 0 last ∧ last.tree = later.tree := by
  refine ⟨{ later with output := later.output ++ s!"Removed link {source} -> {target}\n" }, ?_, rfl⟩
  unfold runRemoveLink
  rw [withLinks_eq hopen hsettings]
  change EStateM.bind (EStateM.tryCatch (EStateM.bind (removeLink path settings.linksFiles source
    target) _) _) _ s = _
  simp only [EStateM.bind, EStateM.tryCatch, h]
  rfl

end RepoAtlas.Work
