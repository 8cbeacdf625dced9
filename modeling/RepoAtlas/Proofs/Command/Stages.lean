import RepoAtlas.Proofs.Command.Linking
import RepoAtlas.Proofs.Session.Failing
import RepoAtlas.Proofs.Session.Telling

/-!
# `RepoAtlas.Proofs.Command.Stages`: where commands fail for what the files are like

The surveys of `detect` are guarded: whatever is wrong with the files of a repository, it is told.
All else that looks at files or changes them is not. So `detect` fails for what the files are like
if the graph cannot be saved, and a command about links if root or settings cannot be looked at, if
the repository cannot be surveyed for a link that is to be added, or if the links cannot be saved.

* `outcome_detect_iff`: the failures of `detect`.
* `outcome_withLinks_iff`: the failures before anything is done with links.
* `outcome_addLink_iff`, `outcome_removeLink_iff`: the failures of editing links (`EditFails`).
* `outcome_runListLinks_iff`, `outcome_runAddLink_iff`, `outcome_runRemoveLink_iff`: the failures of
  the commands about links.
-/

set_option autoImplicit false

namespace RepoAtlas.Work

open RepoAtlas.Module
open RepoAtlas.Survey (settingsFor)

variable {s : Session} {failure : Failure} {path : String}

/-! ### Delivering a graph -/

namespace FailsElsewhere

/-- Telling why a command is refused looks at no file. -/
theorem refuse (text : String) : FailsElsewhere (Work.refuse text) :=
  fun _ _ h => nomatch h

/-- Showing a path resolves it at most, and a path that cannot be resolved is no matter of the
files. -/
theorem shown (path : String) : FailsElsewhere (Work.shown path) := by
  refine (resolve path).bind fun _ => get.bind fun _ => ?_
  simp only
  split <;> exact pure _

/-- The text of a graph fails only for an integer with too many digits. -/
theorem graphText (style : Json.Style) (graph : Graph) :
    FailsElsewhere (Work.graphText style graph) := by
  unfold Work.graphText
  by_cases h : graph.toJson.isWritable = true
  · simp only [h]
    exact pure _
  · simp only [h]
    exact throw rfl

end FailsElsewhere

variable {graph : Graph} {root source target : String}

/-- The text of a graph in a file, unless a number in it has too many digits. -/
def fileText? (graph : Graph) : Option String :=
  if graph.toJson.isWritable then some (Json.write .indented graph.toJson ++ "\n") else none

/-- Saving a graph makes the directories above it and then writes its text, if it has one. -/
theorem saveGraph_eq (graph : Graph) (path : String) : saveGraph graph path =
    (makeParents (Path.tidy path) >>= fun _ => writeIfAny (Path.tidy path) (fileText? graph)) := by
  have htext : (graphText .indented graph >>= fun text => writeText (Path.tidy path) text)
      = writeIfAny (Path.tidy path) (fileText? graph) := by
    unfold graphText fileText?
    by_cases h : graph.toJson.isWritable = true
    · simp only [h]
      rfl
    · simp only [h]
      rfl
  unfold saveGraph
  rw [htext]

/-- A graph is not delivered, for what the files are like, if it cannot be saved. -/
theorem outcome_deliver_iff {output : Option String} {compact : Bool}
    (hfiles : failure.isOfFiles = true) :
    outcome (deliver graph output compact) s = .error failure ↔
      ∃ path, output = some path ∧
        SavingFails s.tree s.directory (Path.tidy path) (fileText? graph) failure := by
  -- Without a file to write to, the graph is printed, which touches no file.
  cases output with
  | none =>
    have hprints : FailsElsewhere (deliver graph none compact) :=
      (FailsElsewhere.graphText _ graph).bind fun text =>
        (FailsElsewhere.print text).bind fun _ => .pure 0
    constructor
    · intro h
      rw [hprints s failure h] at hfiles
      cases hfiles
    · rintro ⟨_, h, -⟩
      cases h
  | some path =>
    have hsave : outcome (deliver graph (some path) compact) s = .error failure ↔
        outcome (saveGraph graph path) s = .error failure :=
      outcome_bind_eq_error_left (fun _ => (FailsElsewhere.shown path).bind fun _ =>
        (FailsElsewhere.print _).bind fun _ => .pure 0) hfiles
    rw [hsave, saveGraph_eq, savingFails_iff hfiles]
    simp only [Option.some.injEq, exists_eq_left']

/-- What becomes of a survey that fails. -/
def surveyFailed (failure : Failure) : Work Nat :=
  if isMissingRoot failure then refuse failure.message
  else if failure.isSystem then
    refuse (s!"modgraph detect failed: {failure.message}\n" ++
      "Run with --verbose for more details.")
  else throw failure

/-- The command `detect` delivers the graph of its survey, or does with the failure what becomes of
it. -/
theorem runDetect_eq (root : String) (output : Option String) (compact : Bool) (s : Session) :
    runDetect root output compact s = match survey none root s with
      | .ok graph s' => deliver graph output compact s'
      | .error failure s' => surveyFailed failure s' := by
  unfold runDetect
  -- The `return` inside the `try` passes by what stands after it.
  change EStateM.bind (EStateM.tryCatch (EStateM.bind (survey none root) _) _) _ s = _
  simp only [EStateM.bind, EStateM.tryCatch]
  cases survey none root s <;> rfl

/-- A failure for what the files are like is one of the system, or says that there is no root. -/
theorem isMissingRoot_or_isSystem (hfiles : failure.isOfFiles = true) :
    isMissingRoot failure = true ∨ failure.isSystem = true := by
  cases failure with
  | system => exact Or.inr rfl
  | rootMissing => exact Or.inl rfl
  | rootNotDirectory => exact Or.inl rfl
  | _ => cases hfiles

/-- That there is no root is a matter of the files. -/
theorem isOfFiles_of_isMissingRoot (h : isMissingRoot failure = true) :
    failure.isOfFiles = true := by
  cases failure with
  | system => rfl
  | rootMissing => rfl
  | rootNotDirectory => rfl
  | _ => cases h

/-- Whatever is wrong with the files, a survey that fails for it is told. -/
theorem failsElsewhere_surveyFailed (other : Failure) : FailsElsewhere (surveyFailed other) := by
  unfold surveyFailed
  split
  · exact .refuse _
  next hroot =>
  split
  · exact .refuse _
  next hsystem =>
  refine .throw (Bool.eq_false_iff.mpr fun hfiles => ?_)
  exact not_or.mpr ⟨hroot, hsystem⟩ (isMissingRoot_or_isSystem hfiles)

/-- The command `detect` tells whatever is wrong with the files of a repository. Only the failure to
save the graph is passed on. -/
theorem outcome_detect_iff {output : Option String} {compact : Bool} (quiet : s.IsQuiet)
    (hfiles : failure.isOfFiles = true) :
    outcome (runDetect root output compact) s = .error failure ↔
      ∃ graph path, outcome (survey none root) s = .ok graph ∧ output = some path ∧
        SavingFails s.tree s.directory (Path.tidy path) (fileText? graph) failure := by
  have hrun := runDetect_eq root output compact s
  obtain ⟨console, hsurvey⟩ := Tells.survey none root s quiet
  cases houtcome : outcome (survey none root) s with
  | ok graph =>
    rw [houtcome] at hsurvey
    rw [hsurvey] at hrun
    -- The survey changes nothing but the console, so saving starts from the same tree.
    have hdeliver : runDetect root output compact s
        = deliver graph output compact { s with console } := hrun
    rw [outcome_congr hdeliver, outcome_deliver_iff hfiles]
    constructor
    · rintro ⟨path, rfl, hsave⟩
      exact ⟨graph, path, rfl, rfl, hsave⟩
    · rintro ⟨_, path, heq, rfl, hsave⟩
      cases heq
      exact ⟨path, rfl, hsave⟩
  | error other =>
    rw [houtcome] at hsurvey
    rw [hsurvey] at hrun
    constructor
    · intro h
      have hlast : runDetect root output compact s = surveyFailed other { s with console } := hrun
      rw [outcome_congr hlast] at h
      rw [failsElsewhere_surveyFailed other _ failure h] at hfiles
      cases hfiles
    · rintro ⟨_, _, h, -⟩
      cases h

/-! ### Finding the links files -/

/-- Settings are found, or the same failure is passed on, without a word. -/
theorem outcome_settingsOr_bind (next : Settings → Work Nat) :
    outcome (settingsOr path (fun _ => pure {}) >>= next) s
      = outcome (settingsFor none path) s >>= fun settings => outcome (next settings) s := by
  rw [outcome_bind (reads_settingsOr path), outcome_settingsOr_eq]

/-- Looking at a path fails for the system alone. -/
theorem isSystem_of_probe (h : outcome (probe path) s = .error failure) :
    failure.isSystem = true := by
  unfold probe at h
  split at h
  · cases h
  · have htree : outcome tree s = .ok s.tree := rfl
    have habsolute : outcome (absolute path) s = .ok (Path.join s.directory path) := rfl
    rw [outcome_bind .tree, htree, ok_bind, outcome_bind (.absolute path), habsolute, ok_bind] at h
    split at h
    · cases h
    · cases h
      rfl

/-- What a repository is asked for before its links files are found. -/
theorem outcome_withLinks_iff {act : String → List String → Work Nat}
    (hfiles : failure.isOfFiles = true) :
    outcome (withLinks root act) s = .error failure ↔
      (failure.isSystem = true ∧ outcome (openRoot root) s = .error failure) ∨
      ∃ path, outcome (openRoot root) s = .ok path ∧
        (outcome (settingsFor none path) s = .error failure ∨ ∃ settings,
          outcome (settingsFor none path) s = .ok settings ∧
            outcome (act path settings.linksFiles) s = .error failure) := by
  have helse : ∀ {α : Type} {x : Work α} {other : Failure}, FailsElsewhere x →
      outcome x s = .error other → other ≠ failure := by
    rintro α x other hx h rfl
    rw [hx s other h] at hfiles
    cases hfiles
  -- Both take the same steps at first: the root is expanded and resolved, which does not fail for
  -- the files, and then looked at, which may.
  unfold withLinks openRoot
  rw [outcome_bind (.expandHome root), outcome_bind (.expandHome root)]
  cases hexpand : outcome (expandHome root) s with
  | error other =>
    simp only [error_bind, Except.error.injEq, helse (.expandHome root) hexpand, reduceCtorEq,
      false_and, and_false, exists_false, or_self]
  | ok expanded =>
    rw [ok_bind, ok_bind, outcome_bind (.resolve expanded), outcome_bind (.resolve expanded)]
    cases hresolve : outcome (resolve expanded) s with
    | error other =>
      simp only [error_bind, Except.error.injEq, helse (.resolve expanded) hresolve, reduceCtorEq,
        false_and, and_false, exists_false, or_self]
    | ok canonical =>
      rw [ok_bind, ok_bind, outcome_bind (.probe canonical), outcome_bind (.probe canonical)]
      cases hprobe : outcome (probe canonical) s with
      | error other =>
        simp only [error_bind, Except.error.injEq, reduceCtorEq, false_and, exists_false, or_false]
        constructor
        · rintro rfl
          exact ⟨isSystem_of_probe hprobe, rfl⟩
        · exact And.right
      | ok found =>
        rw [ok_bind, ok_bind]
        rcases found with _ | (_ | content | target)
        case ok.some.directory =>
          change outcome (settingsOr canonical (fun _ => pure {}) >>= _) s = _ ↔ _
          rw [outcome_settingsOr_bind, bind_eq_error_iff]
          constructor
          · exact fun h => Or.inr ⟨canonical, rfl, h⟩
          · rintro (⟨-, h⟩ | ⟨_, h, hact⟩) <;> cases h
            exact hact
        -- Where there is no directory, that is told.
        all_goals
          refine iff_of_false (fun h => by cases h) ?_
          rintro (⟨hsystem, h⟩ | ⟨_, h, -⟩) <;> cases h
          cases hsystem

/-! ### Editing links -/

variable {place : String} {places : List String} {known : List CodeText}

/-- Why the links that a request leads to are not on file afterwards: it changes the links that are
held, and the changed ones cannot be saved. -/
def EditFails (s : Session) (root : String) (places : List String) (request : LinkRequest)
    (failure : Failure) : Prop :=
  ∃ place links, places.head? = some place ∧ Holds root places s links ∧
    (request.onList links).1.isChange = true ∧
      SavingFails s.tree s.directory (Path.below root place)
        (some (SideFile.linksText (request.onList links).2)) failure

/-- A request that changes no links is not kept from it by the files. -/
theorem not_editFails_of_refused {request : LinkRequest} {other : Failure}
    (h : ∀ links, (request.onList links).1 = .refused other) :
    ¬EditFails s root places request failure := by
  rintro ⟨_, links, -, -, hchange, -⟩
  rw [h links] at hchange
  cases hchange

/-- The links are read on the tree as it is, and what comes after finds the session as it was, but
for the console. -/
theorem outcome_loadLinks_bind {α : Type} (quiet : s.IsQuiet) (next : List Link → Work α) :
    ∃ console, outcome (loadLinks root places >>= next) s
      = (SideFile.links s.tree root places).outcome >>= fun links =>
        outcome (next links) { s with console } := by
  obtain ⟨console, hbind⟩ :=
    outcome_bind_of_tells (Tells.traced fun tree => SideFile.links tree root places) quiet
  refine ⟨console, ?_⟩
  have hload : outcome (loadLinks root places) s = (SideFile.links s.tree root places).outcome := by
    obtain ⟨_, -, hrun⟩ := traced_eq (fun tree => SideFile.links tree root places) s
    unfold outcome loadLinks
    rw [hrun]
    cases (SideFile.links s.tree root places).outcome <;> rfl
  rw [← hload]
  exact hbind next

/-- Links are stored and told of unless they cannot be saved. -/
theorem outcome_storeLinks_iff {α : Type} {links : List Link} {text : String → String} {answer : α}
    (hfiles : failure.isOfFiles = true) :
    outcome (storeLinks root (place :: places) links >>= fun path =>
        note .info .overrides (text path) >>= fun _ => pure answer) s = .error failure ↔
      SavingFails s.tree s.directory (Path.below root place) (some (SideFile.linksText links))
        failure := by
  rw [outcome_bind_eq_error_left (fun path => (FailsElsewhere.note _ _ _).bind fun _ => .pure _)
    hfiles]
  -- Storing is saving the text of the links at the first place.
  change outcome (save (Path.below root place) (SideFile.linksText links) >>= fun _ =>
    pure (Path.below root place)) s = _ ↔ _
  rw [outcome_bind_eq_error_left (fun _ => .pure _) hfiles, save_eq, savingFails_iff hfiles]

/-- A request that reads the links and then saves others, or none, can only be kept from the
latter. -/
theorem edits_iff {α : Type} (quiet : s.IsQuiet) (hfiles : failure.isOfFiles = true)
    (request : LinkRequest) (next : List Link → Work α)
    (hnext : ∀ links console, outcome (next links) { s with console } = .error failure ↔
      (request.onList links).1.isChange = true ∧ SavingFails s.tree s.directory
        (Path.below root place) (some (SideFile.linksText (request.onList links).2)) failure) :
    outcome (loadLinks root (place :: places) >>= next) s = .error failure ↔
      EditFails s root (place :: places) request failure := by
  obtain ⟨console, hload⟩ := outcome_loadLinks_bind quiet next
  rw [hload]
  unfold EditFails Holds
  -- Links that cannot be read fail for another reason than a file that cannot be written.
  cases hheld : (SideFile.links s.tree root (place :: places)).outcome with
  | error other =>
    refine iff_of_false ?_ fun ⟨_, _, _, h, _⟩ => nomatch h
    intro h
    cases h
    rw [SideFile.isOfFiles_of_links hheld] at hfiles
    cases hfiles
  | ok links =>
    rw [ok_bind, hnext]
    simp only [List.head?_cons, Option.some.injEq, Except.ok.injEq, exists_and_left,
      exists_eq_left']

/-- Of adding a link, the files can only keep the new links from being saved. -/
theorem outcome_addLink_iff {source target : CodeText} (quiet : s.IsQuiet)
    (hfiles : failure.isOfFiles = true) :
    outcome (addLink root (place :: places) known source target) s = .error failure ↔
      EditFails s root (place :: places) (.add s.now known source target) failure := by
  -- A request that is refused is refused whatever the files are like.
  have hrefused : ∀ other : Failure, other.isOfFiles = false →
      (∀ links, ((LinkRequest.add s.now known source target).onList links).1 = .refused other) →
      addLink root (place :: places) known source target s = .error other s →
      (outcome (addLink root (place :: places) known source target) s = .error failure ↔
        EditFails s root (place :: places) (.add s.now known source target) failure) := by
    intro other hother hlist hadd
    rw [outcome_of_error hadd]
    refine iff_of_false ?_ (not_editFails_of_refused hlist)
    intro h
    cases h
    rw [hother] at hfiles
    cases hfiles
  by_cases hmissing : source = "" ∨ target = ""
  · exact hrefused .missingEnd rfl (fun links => by rw [LinkRequest.onList, if_pos hmissing])
      (addLink_of_missingEnd hmissing)
  by_cases hsame : source = target
  · exact hrefused .selfLink rfl
      (fun links => by rw [LinkRequest.onList, if_neg hmissing, if_pos hsame])
      (addLink_of_selfLink hmissing hsame)
  by_cases hunknown : source ∉ known ∨ target ∉ known
  · exact hrefused (.unknownModule source target) rfl
      (fun links => by
        rw [LinkRequest.onList, if_neg hmissing, if_neg hsame, if_pos hunknown])
      (addLink_of_unknown hmissing hsame hunknown)
  rw [outcome_congr (addLink_of_known hmissing hsame hunknown)]
  refine (edits_iff quiet hfiles _ _ fun links console => ?_)
  rw [LinkRequest.onList, if_neg hmissing, if_neg hsame, if_neg hunknown]
  cases links.find? (·.joins source target) with
  | some link => exact iff_of_false (fun h => by cases h) (fun h => by cases h.1)
  | none =>
    have hget : ∀ (next : Session → Work (Link × Bool)) (t : Session),
        outcome (get >>= next) t = outcome (next t) t := fun _ _ => rfl
    change outcome (get >>= _) { s with console } = _ ↔ _
    rw [hget, outcome_storeLinks_iff hfiles]
    exact (and_iff_right rfl).symm

/-- Of removing a link, the files can only keep the links that are left from being saved. -/
theorem outcome_removeLink_iff {source target : CodeText} (quiet : s.IsQuiet)
    (hfiles : failure.isOfFiles = true) :
    outcome (removeLink root (place :: places) source target) s = .error failure ↔
      EditFails s root (place :: places) (.remove source target) failure := by
  -- Without both ends, the request is refused; otherwise the file is rewritten if a link is there
  -- to be removed.
  by_cases hmissing : source = "" ∨ target = ""
  · rw [outcome_of_error (removeLink_of_missingEnd hmissing)]
    refine iff_of_false ?_ (not_editFails_of_refused
      fun links => by rw [LinkRequest.onList, if_pos hmissing])
    intro h
    cases h
    cases hfiles
  rw [outcome_congr (removeLink_of_filled hmissing)]
  refine edits_iff quiet hfiles _ _ fun links console => ?_
  have hlist : (LinkRequest.remove source target).onList links =
      (.removed (links.any (·.joins source target)),
        links.filter fun link => !link.joins source target) := by
    rw [LinkRequest.onList, if_neg hmissing]
  rw [hlist]
  by_cases hpresent : ∃ link ∈ links, link.joins source target = true
  · rw [if_neg (length_filter_ne_of_present hpresent)]
    have hany : links.any (·.joins source target) = true := List.any_eq_true.mpr hpresent
    refine Iff.trans ?_ (and_iff_right hany).symm
    exact outcome_storeLinks_iff (s := { s with console }) hfiles
  · have habsent : ∀ link ∈ links, link.joins source target = false :=
      fun link hlink => Bool.eq_false_iff.mpr fun htrue => hpresent ⟨link, hlink, htrue⟩
    rw [if_pos (congrArg List.length (filter_of_absent habsent))]
    refine iff_of_false (fun h => by cases h) fun h => ?_
    exact hpresent (List.any_eq_true.mp h.1)

/-! ### Commands about links -/

/-- No failure for what the files are like is a bad value. -/
theorem isBadValue_eq_false (hfiles : failure.isOfFiles = true) : failure.isBadValue = false := by
  cases failure <;> first | rfl | cases hfiles

/-- A failure of the files is passed on. -/
theorem outcome_refuseBadRequest_iff {other : Failure} (hfiles : failure.isOfFiles = true) :
    outcome (refuseBadRequest other) s = .error failure ↔ other = failure := by
  unfold refuseBadRequest
  split
  · refine iff_of_false nofun ?_
    rintro rfl
    cases hfiles
  · split
    · next hbad =>
      refine iff_of_false nofun ?_
      rintro rfl
      rw [isBadValue_eq_false hfiles] at hbad
      cases hbad
    · exact ⟨fun h => by cases h; rfl, fun h => by rw [h]; rfl⟩

/-- Does something, and refuses a request that it fails for. -/
def orRefuse {α : Type} (x : Work α) (next : α → Work Nat) : Work Nat := fun s =>
  match x s with
  | .ok a s' => next a s'
  | .error other s' => refuseBadRequest other s'

/-- A request whose bad values are told fails for what the files are like as the request itself
does. -/
theorem outcome_orRefuse_iff {α : Type} {x : Work α} {next : α → Work Nat}
    (hnext : ∀ a, FailsElsewhere (next a)) (hfiles : failure.isOfFiles = true) :
    outcome (orRefuse x next) s = .error failure ↔ outcome x s = .error failure := by
  -- A result goes on with what cannot fail for files, and a failure is told or passed on.
  cases hx : x s with
  | ok a s' =>
    have hlast : orRefuse x next s = next a s' := by
      unfold orRefuse
      rw [hx]
    rw [outcome_congr hlast, outcome_of_ok hx]
    refine iff_of_false (fun h => ?_) nofun
    rw [hnext a s' failure h] at hfiles
    cases hfiles
  | error other s' =>
    have hlast : orRefuse x next s = refuseBadRequest other s' := by
      unfold orRefuse
      rw [hx]
    rw [outcome_congr hlast, outcome_of_error hx, outcome_refuseBadRequest_iff hfiles,
      Except.error.injEq]

/-- The command that removes a link, step by step. -/
theorem runRemoveLink_eq (root source target : String) : runRemoveLink root source target =
    withLinks root fun path places => orRefuse (removeLink path places source target) fun removed =>
      if removed then print s!"Removed link {source} -> {target}\n" >>= fun _ => pure 0
      else refuse s!"Link not found: {source} -> {target}" := by
  unfold runRemoveLink
  refine congrArg _ (funext fun path => funext fun places => funext fun s => ?_)
  change EStateM.bind (EStateM.tryCatch (EStateM.bind (removeLink path places source target) _) _) _
    s = _
  -- The program catches failures of the request only; what is printed after it cannot fail.
  unfold orRefuse
  simp only [EStateM.bind, EStateM.tryCatch]
  cases removeLink path places source target s with
  | ok removed s' => cases removed <;> rfl
  | error other s' =>
    change EStateM.bind (EStateM.bind (refuseBadRequest other) _) _ s' = refuseBadRequest other s'
    unfold EStateM.bind
    cases refuseBadRequest other s' <;> rfl

/-- The command that adds a link, step by step: it surveys the repository first, for the modules
that are known. -/
theorem runAddLink_eq (root source target : String) : runAddLink root source target =
    withLinks root fun path places => survey none path >>= fun graph =>
      orRefuse (addLink path places (graph.modules.map FinishedModule.id) source target)
        fun answer =>
          if answer.2 then print s!"Linked {source} -> {target}\n" >>= fun _ => pure 0
          else print s!"Link {source} -> {target} already exists\n" >>= fun _ => pure 0 := by
  unfold runAddLink
  refine congrArg _ (funext fun path => funext fun places => congrArg _ (funext fun graph =>
    funext fun s => ?_))
  generalize graph.modules.map FinishedModule.id = known
  change EStateM.bind (EStateM.tryCatch (EStateM.bind (addLink path places known source target) _)
    _) _ s = _
  -- The program catches failures of the request only; what is printed after it cannot fail.
  unfold orRefuse
  simp only [EStateM.bind, EStateM.tryCatch]
  cases addLink path places known source target s with
  | ok answer s' =>
    obtain ⟨link, created⟩ := answer
    cases created <;> rfl
  | error other s' =>
    change EStateM.bind (EStateM.bind (refuseBadRequest other) _) _ s' = refuseBadRequest other s'
    unfold EStateM.bind
    cases refuseBadRequest other s' <;> rfl

/-- There is a place for links in all settings. -/
theorem exists_linksFiles (settings : Settings) :
    ∃ place places, settings.linksFiles = place :: places := by
  unfold Settings.linksFiles Settings.placesOr
  split <;> exact ⟨_, _, rfl⟩

/-- The command `links list` passes nothing on, once root and settings have been found. -/
theorem outcome_runListLinks_iff (hfiles : failure.isOfFiles = true) :
    outcome (runListLinks root) s = .error failure ↔
      (failure.isSystem = true ∧ outcome (openRoot root) s = .error failure) ∨
      ∃ path, outcome (openRoot root) s = .ok path ∧
        outcome (settingsFor none path) s = .error failure := by
  -- Reading the links and printing them fails for no file.
  have hlists : ∀ path places, FailsElsewhere (loadLinks path places >>= fun links =>
      print (Json.write .indented (Link.listToJson links) ++ "\n") >>= fun _ => pure 0) := by
    intro path places
    refine FailsElsewhere.bind ?_ fun links => (FailsElsewhere.print _).bind fun _ => .pure 0
    intro s other h
    obtain ⟨_, -, hrun⟩ := traced_eq (fun tree => SideFile.links tree path places) s
    cases hlinks : (SideFile.links s.tree path places).outcome with
    | ok links =>
      rw [hlinks] at hrun
      cases (outcome_of_ok hrun).symm.trans h
    | error fault =>
      rw [hlinks] at hrun
      cases (outcome_of_error hrun).symm.trans h
      exact SideFile.isOfFiles_of_links hlinks
  unfold runListLinks
  rw [outcome_withLinks_iff hfiles]
  refine or_congr_right (exists_congr fun path => and_congr_right fun _ => or_iff_left ?_)
  rintro ⟨settings, -, h⟩
  rw [hlists path settings.linksFiles s failure h] at hfiles
  cases hfiles

/-- The command `links remove` passes on that the links cannot be saved. -/
theorem outcome_runRemoveLink_iff (quiet : s.IsQuiet) (hfiles : failure.isOfFiles = true) :
    outcome (runRemoveLink root source target) s = .error failure ↔
      (failure.isSystem = true ∧ outcome (openRoot root) s = .error failure) ∨
      ∃ path, outcome (openRoot root) s = .ok path ∧
        (outcome (settingsFor none path) s = .error failure ∨ ∃ settings,
          outcome (settingsFor none path) s = .ok settings ∧
            EditFails s path settings.linksFiles (.remove source target) failure) := by
  rw [runRemoveLink_eq, outcome_withLinks_iff hfiles]
  refine or_congr_right (exists_congr fun path => and_congr_right fun _ => or_congr_right
    (exists_congr fun settings => and_congr_right fun _ => ?_))
  obtain ⟨place, places, hplaces⟩ := exists_linksFiles settings
  rw [hplaces, ← outcome_removeLink_iff quiet hfiles]
  refine outcome_orRefuse_iff (fun removed => ?_) hfiles
  split
  · exact (FailsElsewhere.print _).bind fun _ => .pure 0
  · exact .refuse _

/-- The command `links add` passes on that the survey fails, or that the links cannot be saved. -/
theorem outcome_runAddLink_iff (quiet : s.IsQuiet) (hfiles : failure.isOfFiles = true) :
    outcome (runAddLink root source target) s = .error failure ↔
      (failure.isSystem = true ∧ outcome (openRoot root) s = .error failure) ∨
      ∃ path, outcome (openRoot root) s = .ok path ∧
        (outcome (settingsFor none path) s = .error failure ∨ ∃ settings,
          outcome (settingsFor none path) s = .ok settings ∧
            (outcome (survey none path) s = .error failure ∨ ∃ graph,
              outcome (survey none path) s = .ok graph ∧ EditFails s path settings.linksFiles
                (.add s.now (graph.modules.map FinishedModule.id) source target) failure)) := by
  rw [runAddLink_eq, outcome_withLinks_iff hfiles]
  refine or_congr_right (exists_congr fun path => and_congr_right fun _ => or_congr_right
    (exists_congr fun settings => and_congr_right fun _ => ?_))
  -- The survey writes to the console only, so the request starts from the same tree.
  obtain ⟨console, hbind⟩ := outcome_bind_of_tells (Tells.survey none path) quiet
  rw [hbind, bind_eq_error_iff]
  refine or_congr_right (exists_congr fun graph => and_congr_right fun _ => ?_)
  obtain ⟨place, places, hplaces⟩ := exists_linksFiles settings
  rw [hplaces]
  refine Iff.trans ?_ (outcome_addLink_iff (s := { s with console }) quiet hfiles)
  refine outcome_orRefuse_iff (fun answer => ?_) hfiles
  split <;> exact (FailsElsewhere.print _).bind fun _ => .pure 0

end RepoAtlas.Work
