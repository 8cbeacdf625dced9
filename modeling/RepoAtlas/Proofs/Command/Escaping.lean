import RepoAtlas.Command.Reach
import RepoAtlas.Proofs.Command.Stages
import RepoAtlas.Proofs.Survey.Completion

/-!
# `RepoAtlas.Proofs.Command.Escaping`: failures that are not told

A command that cannot be carried out should say so and end with status 1. A command that does not
fail does (`EndsProperly`). But some failures are passed on instead (`Escapes`), although nothing
but the files is at fault: a graph or links that cannot be saved, and for commands about links a
root, settings or a repository that cannot be looked at.

* `EndsProperly.runRequest`: a command that does not fail ends with status 0, or with status 1 and a
  message.
* `outcome_runRequest_iff`: it fails for what the files are like with the failures that are passed
  on.
* `runInvocation_escapes_iff`: both, for whole invocations.
* `stuck_link_escapes`: the failure that `detect` tells of, `links add` passes on.
-/

set_option autoImplicit false

namespace RepoAtlas

open RepoAtlas.Command
open RepoAtlas.Module
open RepoAtlas.Survey (selfLinkSession settingsFor)

/-! ### Messages -/

/-- A text with something in front is not empty. -/
theorem append_ne_empty {front : String} (h : front ≠ "") {back : String} : front ++ back ≠ "" :=
  fun hboth => h (String.append_eq_empty_iff.mp hboth).1

/-- What is told of a failure that is told is not empty. -/
theorem Failure.message_ne_empty {failure : Failure}
    (h : failure.isOfFiles = true ∨ failure.isBadValue = true) : failure.message ≠ "" := by
  have hlimit : ∀ details, Number.digitLimitText details ≠ "" :=
    fun details hempty => absurd (String.append_eq_empty_iff.mp hempty).2 (by decide)
  -- Each message has a fixed part, whatever is put into it.
  cases failure with
  | system fault path =>
    exact append_ne_empty (append_ne_empty (append_ne_empty (append_ne_empty
      (append_ne_empty (by decide)))))
  | rootMissing root => exact append_ne_empty (by decide : "Repository path not found: " ≠ "")
  | rootNotDirectory root =>
    exact append_ne_empty (by decide : "Repository path is not a directory: " ≠ "")
  | nullInPath => exact (by decide : "embedded null byte" ≠ "")
  | integerTooLong digits => exact hlimit _
  | integerUnwritable => exact hlimit _
  | missingEnd => exact (by decide : "Source and target modules are required" ≠ "")
  | selfLink => exact (by decide : "Cannot create self-dependency" ≠ "")
  | _ => rcases h with h | h <;> cases h

namespace Work

variable {α : Type}

/-- A command that, unless it fails, ends with status 0, or with status 1 and a message. -/
def EndsProperly (x : Work Nat) : Prop :=
  ∀ s status later, x s = .ok status later → status = 0 ∨
    status = 1 ∧ ∃ before text, later.console = before ++ (text ++ "\n") ∧ text ≠ ""

namespace EndsProperly

/-- A run that answers zero ends properly. -/
theorem success : EndsProperly (pure 0) := by
  intro s status later h
  cases h
  exact Or.inl rfl

/-- So does one that is refused with a text. -/
theorem refuse {text : String} (h : text ≠ "") : EndsProperly (Work.refuse text) := by
  intro s status later hrun
  cases hrun
  exact Or.inr ⟨rfl, s.console, text, rfl, h⟩

/-- A run that fails does not end, so there is nothing to show. -/
theorem throw (failure : Failure) : EndsProperly (MonadExcept.throw failure) :=
  fun _ _ _ h => nomatch h

/-- A run ends properly if its last part does. -/
theorem bind {x : Work α} {next : α → Work Nat} (hnext : ∀ a, EndsProperly (next a)) :
    EndsProperly (x >>= next) := by
  intro s status later h
  obtain ⟨a, s', -, h⟩ := bind_eq_ok_iff.mp h
  exact hnext a s' status later h

/-- A bad request is told, or its failure is passed on. -/
theorem refuseBadRequest (failure : Failure) : EndsProperly (Work.refuseBadRequest failure) := by
  unfold Work.refuseBadRequest
  split
  · refine refuse ?_
    exact append_ne_empty (append_ne_empty (append_ne_empty (by decide)))
  · split
    · next hbad => exact refuse (Failure.message_ne_empty (Or.inr hbad))
    · exact throw failure

/-- A survey that fails is told, or its failure is passed on. -/
theorem surveyFailed (failure : Failure) : EndsProperly (Work.surveyFailed failure) := by
  unfold Work.surveyFailed
  split
  · next hroot =>
    exact refuse (Failure.message_ne_empty (Or.inl (isOfFiles_of_isMissingRoot hroot)))
  · split
    · refine refuse fun hempty => ?_
      exact absurd (String.append_eq_empty_iff.mp hempty).2 (by decide)
    · exact throw failure

/-- The command `detect` ends properly. -/
theorem runDetect (root : String) (output : Option String) (compact : Bool) :
    EndsProperly (Work.runDetect root output compact) := by
  intro s status later h
  rw [runDetect_eq] at h
  cases hsurvey : survey none root s with
  | ok graph s' =>
    rw [hsurvey] at h
    -- Printing and saving both end with the answer zero.
    have hdeliver : EndsProperly (deliver graph output compact) := by
      cases output with
      | none => exact bind fun _ => bind fun _ => success
      | some path => exact bind fun _ => bind fun _ => bind fun _ => success
    exact hdeliver s' status later h
  | error failure s' =>
    rw [hsurvey] at h
    exact surveyFailed failure s' status later h

/-- A command about links ends properly if what it does with them does. -/
theorem withLinks (root : String) {act : String → List String → Work Nat}
    (hact : ∀ path places, EndsProperly (act path places)) :
    EndsProperly (Work.withLinks root act) := by
  refine bind fun _ => bind fun path => bind fun found => ?_
  split
  · exact bind fun settings => hact path settings.linksFiles
  · exact refuse (append_ne_empty (by decide : "Repository path not found: " ≠ ""))

/-- So does a request whose bad values are told. -/
theorem orRefuse {x : Work α} {next : α → Work Nat} (hnext : ∀ a, EndsProperly (next a)) :
    EndsProperly (Work.orRefuse x next) := by
  intro s status later h
  unfold Work.orRefuse at h
  split at h
  · exact hnext _ _ status later h
  · exact refuseBadRequest _ _ status later h

/-- Every command ends properly, unless it fails. -/
theorem runRequest (request : Request) : EndsProperly (Work.runRequest request) := by
  -- Each command ends by printing or by refusing with a text.
  cases request with
  | detect root output compact => exact runDetect root output compact
  | listLinks root =>
    change EndsProperly (runListLinks root)
    unfold runListLinks
    exact withLinks root fun _ _ => bind fun _ => bind fun _ => success
  | addLink root source target =>
    change EndsProperly (runAddLink root source target)
    rw [runAddLink_eq]
    refine withLinks root fun _ _ => bind fun _ => orRefuse fun answer => ?_
    split <;> exact bind fun _ => success
  | removeLink root source target =>
    change EndsProperly (runRemoveLink root source target)
    rw [runRemoveLink_eq]
    refine withLinks root fun _ _ => orRefuse fun removed => ?_
    split
    · exact bind fun _ => success
    · exact refuse (append_ne_empty (append_ne_empty (append_ne_empty (by decide))))

end EndsProperly

/-! ### What is passed on -/

/-- What a request about links edits, in the session and for the repository that it finds. -/
inductive Edits (s : Session) (path : String) : Request → LinkRequest → Prop
  | add {root source target : String} {graph : Graph}
      (hsurvey : outcome (survey none path) s = .ok graph) :
      Edits s path (.addLink root source target)
        (.add s.now (graph.modules.map FinishedModule.id) source target)
  | remove {root source target : String} :
      Edits s path (.removeLink root source target) (.remove source target)

/-- Whether a request is about links. -/
def isAboutLinks : Request → Bool
  | .detect _ _ _ => false
  | _ => true

/-- The failures of the files that a request passes on. -/
inductive Escapes (s : Session) : Request → Failure → Prop
  /-- The graph cannot be saved. -/
  | graph {root path : String} {compact : Bool} {graph : Graph} {failure : Failure}
      (hsurvey : outcome (survey none root) s = .ok graph)
      (hsave : SavingFails s.tree s.directory (Path.tidy path) (fileText? graph) failure) :
      Escapes s (.detect root (some path) compact) failure
  /-- The root cannot be looked at. -/
  | root {request : Request} {failure : Failure} (hlinks : isAboutLinks request = true)
      (hsystem : failure.isSystem = true)
      (hopen : outcome (openRoot request.root) s = .error failure) : Escapes s request failure
  /-- The file with the settings cannot be looked at. -/
  | settings {request : Request} {path : String} {failure : Failure}
      (hlinks : isAboutLinks request = true) (hopen : outcome (openRoot request.root) s = .ok path)
      (hsettings : outcome (settingsFor none path) s = .error failure) : Escapes s request failure
  /-- The modules that may be linked cannot be found out. -/
  | survey {root source target path : String} {settings : Settings} {failure : Failure}
      (hopen : outcome (openRoot root) s = .ok path)
      (hsettings : outcome (settingsFor none path) s = .ok settings)
      (hsurvey : outcome (survey none path) s = .error failure) :
      Escapes s (.addLink root source target) failure
  /-- The links cannot be saved. -/
  | links {request : Request} {path : String} {settings : Settings} {edit : LinkRequest}
      {failure : Failure} (hopen : outcome (openRoot request.root) s = .ok path)
      (hsettings : outcome (settingsFor none path) s = .ok settings)
      (hedits : Edits s path request edit)
      (hfails : EditFails s path settings.linksFiles edit failure) : Escapes s request failure

variable {s : Session} {failure : Failure}

/-- A request fails for what the files are like exactly with the failures that it passes on. -/
theorem outcome_runRequest_iff (quiet : s.IsQuiet) (hfiles : failure.isOfFiles = true)
    (request : Request) :
    outcome (runRequest request) s = .error failure ↔ Escapes s request failure := by
  -- By request; the ways of `Escapes` that belong to other requests are ruled out.
  cases request with
  | detect root output compact =>
    refine (outcome_detect_iff quiet hfiles).trans ?_
    constructor
    · rintro ⟨graph, path, hsurvey, rfl, hsave⟩
      exact .graph hsurvey hsave
    · rintro (⟨hsurvey, hsave⟩ | ⟨hlinks, -, -⟩ | ⟨hlinks, -, -⟩ | _ | ⟨-, -, hedits, -⟩)
      · exact ⟨_, _, hsurvey, rfl, hsave⟩
      · cases hlinks
      · cases hlinks
      · cases hedits
  | listLinks root =>
    refine (outcome_runListLinks_iff hfiles).trans ?_
    constructor
    · rintro (⟨hsystem, hopen⟩ | ⟨path, hopen, hsettings⟩)
      · exact .root rfl hsystem hopen
      · exact .settings rfl hopen hsettings
    · rintro (_ | ⟨-, hsystem, hopen⟩ | ⟨-, hopen, hsettings⟩ | _ | ⟨-, -, hedits, -⟩)
      · exact Or.inl ⟨hsystem, hopen⟩
      · exact Or.inr ⟨_, hopen, hsettings⟩
      · cases hedits
  | addLink root source target =>
    refine (outcome_runAddLink_iff quiet hfiles).trans ?_
    constructor
    · rintro (⟨hsystem, hopen⟩ | ⟨path, hopen, hsettings | ⟨settings, hsettings, hsurvey |
        ⟨graph, hsurvey, hfails⟩⟩⟩)
      · exact .root rfl hsystem hopen
      · exact .settings rfl hopen hsettings
      · exact .survey hopen hsettings hsurvey
      · exact .links hopen hsettings (.add hsurvey) hfails
    · rintro (_ | ⟨-, hsystem, hopen⟩ | ⟨-, hopen, hsettings⟩ | ⟨hopen, hsettings, hsurvey⟩ |
        ⟨hopen, hsettings, hedits, hfails⟩)
      · exact Or.inl ⟨hsystem, hopen⟩
      · exact Or.inr ⟨_, hopen, Or.inl hsettings⟩
      · exact Or.inr ⟨_, hopen, Or.inr ⟨_, hsettings, Or.inl hsurvey⟩⟩
      · cases hedits with
        | add hsurvey =>
          exact Or.inr ⟨_, hopen, Or.inr ⟨_, hsettings, Or.inr ⟨_, hsurvey, hfails⟩⟩⟩
  | removeLink root source target =>
    refine (outcome_runRemoveLink_iff quiet hfiles).trans ?_
    constructor
    · rintro (⟨hsystem, hopen⟩ | ⟨path, hopen, hsettings | ⟨settings, hsettings, hfails⟩⟩)
      · exact .root rfl hsystem hopen
      · exact .settings rfl hopen hsettings
      · exact .links hopen hsettings .remove hfails
    · rintro (_ | ⟨-, hsystem, hopen⟩ | ⟨-, hopen, hsettings⟩ | _ |
        ⟨hopen, hsettings, hedits, hfails⟩)
      · exact Or.inl ⟨hsystem, hopen⟩
      · exact Or.inr ⟨_, hopen, Or.inl hsettings⟩
      · cases hedits
        exact Or.inr ⟨_, hopen, Or.inr ⟨_, hsettings, hfails⟩⟩

end Work

/-- A session that tells notices on the console only. -/
def Session.telling (s : Session) (verbose : Bool) : Session :=
  { s with journal := some { verbose := verbose } }

/-- Telling notices on the console writes to no file. -/
theorem Session.isQuiet_telling (s : Session) (verbose : Bool) : (s.telling verbose).IsQuiet := by
  rintro _ ⟨⟩
  rfl

open Work (outcome)

/-- An invocation without a log file ends with status 0, or with status 1 and a message, unless it
fails; and it fails for what the files are like exactly with the failures that are passed on. -/
theorem runInvocation_escapes_iff (s : Session) {invocation : Invocation}
    (hlog : invocation.logFile = none) :
    (∀ status later, Work.runInvocation invocation s = .ok status later → status = 0 ∨
      status = 1 ∧ ∃ before text, later.console = before ++ (text ++ "\n") ∧ text ≠ "") ∧
    ∀ failure, failure.isOfFiles = true →
      (outcome (Work.runInvocation invocation) s = .error failure ↔
        Work.Escapes (s.telling invocation.verbose) invocation.request failure) := by
  have hrun : Work.runInvocation invocation s
      = Work.runRequest invocation.request (s.telling invocation.verbose) := by
    have hopen : Work.openJournal invocation.verbose none s
        = .ok () (s.telling invocation.verbose) := rfl
    unfold Work.runInvocation
    rw [hlog, Work.bind_of_ok hopen]
  constructor
  · intro status later h
    rw [hrun] at h
    exact Work.EndsProperly.runRequest invocation.request _ status later h
  · intro failure hfiles
    rw [Work.outcome_congr hrun]
    exact Work.outcome_runRequest_iff (s.isQuiet_telling _) hfiles _

/-- In a repository with a link to itself, the command that adds a link fails for the survey. -/
theorem runInvocation_escapes_addLink :
    Invocation.read ["links", "add", "a", "b", "--path", "/r"]
        = .ok ⟨false, none, .addLink "/r" "a" "b"⟩ ∧
      outcome (Work.runInvocation ⟨false, none, .addLink "/r" "a" "b"⟩) selfLinkSession
        = .error (.system .tooManyLinks "/r/loop") := by
  have hopen : outcome (Work.openRoot "/r") (selfLinkSession.telling false) = .ok "/r" := by
    decide +kernel
  obtain ⟨settings, hsettings⟩ : ∃ settings,
      outcome (settingsFor none "/r") (selfLinkSession.telling false) = .ok settings := ⟨_, rfl⟩
  have hsurvey : outcome (Work.survey none "/r") (selfLinkSession.telling false)
      = .error (.system .tooManyLinks "/r/loop") := by
    decide +kernel
  exact ⟨by decide +kernel, ((runInvocation_escapes_iff selfLinkSession rfl).2 _ rfl).mpr
    (.survey hopen hsettings hsurvey)⟩

/-- A link to itself in a repository keeps `links add` from finding out the modules. It passes the
failure on, while `detect` tells it. -/
theorem stuck_link_escapes :
    Invocation.read ["detect", "/r"] = .ok ⟨false, none, .detect "/r" none false⟩ ∧
      outcome (Work.runInvocation ⟨false, none, .detect "/r" none false⟩) selfLinkSession = .ok 1 ∧
      Invocation.read ["links", "add", "a", "b", "--path", "/r"]
        = .ok ⟨false, none, .addLink "/r" "a" "b"⟩ ∧
      outcome (Work.runInvocation ⟨false, none, .addLink "/r" "a" "b"⟩) selfLinkSession
        = .error (.system .tooManyLinks "/r/loop") := by
  decide +kernel

end RepoAtlas
