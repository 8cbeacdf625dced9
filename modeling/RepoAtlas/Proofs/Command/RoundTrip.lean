import RepoAtlas.Proofs.Command.Linking
import RepoAtlas.Proofs.Path.Staying
import RepoAtlas.Proofs.Survey.Retelling

/-!
# `RepoAtlas.Proofs.Command.RoundTrip`: adding a link and removing it again

The links of a repository are kept in a file of the repository, and the next survey comes across
this file like across any other. So of a link that is added it shows two things: the edge, and
whatever the text of the file is counted for. When the link is removed, the edge goes, and the file
says again what it is written with for the other links.

* `KeepsLinksAt`: the file and its place, where nothing else stands that a survey looks for.
* `exists_runAddLink`, `exists_runRemoveLink`: what the commands do to the file.
* `link_round_trip`: what surveys show before, between and after.
-/

set_option autoImplicit false

namespace RepoAtlas

open RepoAtlas.Module
open RepoAtlas.Survey
open RepoAtlas.Text.Utf8 (encode decodeLossy)
open RepoAtlas.Work (outcome)

/-- Another run of the program, on a tree: in the same directory, for the same users, and with
notices that go to no file. -/
structure Session.RunsOn (s : Session) (tree : Tree) (s' : Session) : Prop where
  tree_eq : s'.tree = tree
  directory_eq : s'.directory = s.directory
  homes_eq : s'.homes = s.homes
  quiet : s'.IsQuiet

/-- A session runs on its own tree. -/
theorem Session.RunsOn.on_own {s s' : Session} {tree : Tree} (h : s.RunsOn tree s') :
    s.RunsOn s'.tree s' :=
  ⟨rfl, h.directory_eq, h.homes_eq, h.quiet⟩

/-- Runs that are like a first one are like each other. -/
theorem Session.RunsOn.next {s s' s'' : Session} {tree later : Tree} (h : s.RunsOn tree s')
    (h' : s.RunsOn later s'') : s'.RunsOn later s'' :=
  ⟨h'.tree_eq, h'.directory_eq.trans h.directory_eq.symm, h'.homes_eq.trans h.homes_eq.symm,
    h'.quiet⟩

namespace Survey

/-- The path of the file that links are written to, without settings. -/
def linksPath (path : String) : String :=
  Path.below path "data/module-links.json"

/-- A repository without settings that keeps its links in a file at a place, where nothing else
stands that a survey looks for by its path. -/
structure KeepsLinksAt (s : Session) (root path : String) (spot : Place) : Prop where
  opens : outcome (Work.openRoot root) s = .ok path
  settings : outcome (settingsFor none path) s = .ok {}
  locate : s.tree.locate (linksPath path) = .ok spot
  notSettings : ∀ file, outcome (Work.settingsFile path) s = .ok file →
    s.tree.locate file ≠ .ok spot
  notSides : ∀ place ∈ "package.json" :: Settings.modulesFiles {},
    s.tree.locate (Path.below path place) ≠ .ok spot

variable {s s' : Session} {root path : String} {spot : Place} {tree : Tree} {old new : List UInt8}

/-- Requests that only read do not tell runs on trees of the same outline apart. -/
theorem areAlike_of_runsOn (alike : s.tree.Alike tree) :
    Work.AreAlike fun u u' => s.RunsOn s.tree u ∧ s.RunsOn tree u' where
  tree := by
    rintro u u' ⟨hu, hu'⟩
    rw [hu.tree_eq, hu'.tree_eq]
    exact alike
  directory_eq := fun ⟨hu, hu'⟩ => hu'.directory_eq.trans hu.directory_eq.symm
  homes_eq := fun ⟨hu, hu'⟩ => hu'.homes_eq.trans hu.homes_eq.symm

/-- A repository keeps its links where it did, whatever is written there. -/
theorem KeepsLinksAt.rewritten (quiet : s.IsQuiet) (h : KeepsLinksAt s root path spot)
    (hwritten : s.tree.Rewritten tree spot old new) (hruns : s.RunsOn tree s') :
    KeepsLinksAt s' root path spot := by
  have hself : s.RunsOn s.tree s := ⟨rfl, rfl, rfl, quiet⟩
  have alike := areAlike_of_runsOn hwritten.alike
  have hlocate : ∀ file, s'.tree.locate file = s.tree.locate file := fun file => by
    rw [hruns.tree_eq, hwritten.alike.locate_eq]
  have hfile : ∀ u u', s.RunsOn s.tree u ∧ s.RunsOn tree u' →
      outcome (Work.settingsFile path) u = outcome (Work.settingsFile path) u' :=
    fun u u' hu => (Work.Agrees.settingsFile alike path).outcome_eq hu
  have hload : outcome (Work.loadSettings path) s = outcome (Work.loadSettings path) s' := by
    refine (Work.Agrees.loadSettings alike path ?_).outcome_eq ⟨hself, hruns⟩
    rintro u u' file t ⟨hu, hu'⟩ hrun v v' ⟨hv, hv'⟩
    -- The file with the settings is the one that was found at the start, so it is another one.
    have hfound : outcome (Work.settingsFile path) s = .ok file := by
      rw [hfile s u' ⟨hself, hu'⟩, ← hfile u u' ⟨hu, hu'⟩, Work.outcome_of_ok hrun]
    have hsame := hwritten.readOctets_eq_of_ne (h.notSettings file hfound)
    unfold Settings.ofFile Tree.readText
    rw [hv.tree_eq, hv'.tree_eq, hsame]
  exact {
    opens := (Work.Agrees.openRoot alike root).outcome_eq ⟨hself, hruns⟩ ▸ h.opens
    settings := by
      rw [outcome_settingsFor_none, ← hload, ← outcome_settingsFor_none]
      exact h.settings
    locate := (hlocate _).trans h.locate
    notSettings := fun file hfound => by
      rw [hlocate]
      exact h.notSettings file ((hfile s s' ⟨hself, hruns⟩).trans hfound)
    notSides := fun place hplace => by
      rw [hlocate]
      exact h.notSides place hplace }

/-! ### What is written -/

section

variable {source target : String} {links : List Link} {link : Link}

/-- The file with the links is written where it is. -/
theorem KeepsLinksAt.save_eq (h : KeepsLinksAt s root path spot)
    (hold : s.tree.entry? spot = some (.file old)) (hnull : Path.hasNull (linksPath path) = false)
    (text : String) {before : Session} (htree : before.tree = s.tree) :
    Work.save (linksPath path) text before
      = .ok () { before with tree := s.tree.insert spot (.file (encode text)) } := by
  obtain ⟨later, hopened⟩ := Work.outcome_eq_ok_iff.mp h.opens
  have hnormal := (Work.openRoot_eq_ok hopened).1
  have hlead := Path.isLead_leadingSlashes path
  have hnames : ∀ n ∈ Path.normalNames path, Path.IsName n :=
    fun _ => Path.isName_of_mem_normalNames
  -- The path of the links file in normal form, name by name.
  have hpath : linksPath path = Path.absolute (Path.leadingSlashes path)
      ((Path.normalNames path ++ ["data"]) ++ ["module-links.json"]) := by
    have hbelow := Path.below_absolute hlead hnames
      (show Path.isAbsolute "data/module-links.json" = false by decide)
    rw [← hnormal.eq_absolute] at hbelow
    rw [linksPath, hbelow, List.append_assoc]
    rfl
  have hlocate := h.locate
  rw [hpath] at hnull hlocate ⊢
  rw [← htree] at hlocate hold ⊢
  refine Work.save_of_locate hlead (fun n hn => ?_) hnull hlocate hold text
  rw [List.append_assoc] at hn
  rcases List.mem_append.mp hn with hn | hn
  · exact hnames n hn
  · have hboth : ∀ name ∈ ["data", "module-links.json"], Path.IsName name := by decide
    exact hboth n hn

/-- The links can be read, so the system takes the path of the file. -/
theorem hasNull_linksPath (hholds : Work.Holds path (Settings.linksFiles {}) s links) :
    Path.hasNull (linksPath path) = false :=
  SideFile.hasNull_of_links hholds

/-- A link that the command has added, and that was not there, is written after the others. -/
theorem exists_runAddLink (quiet : s.IsQuiet) (hopen : outcome (Work.openRoot root) s = .ok path)
    (hsettings : outcome (settingsFor none path) s = .ok {})
    (hholds : Work.Holds path (Settings.linksFiles {}) s links)
    (hfind : links.find? (·.joins source target) = none)
    (hadd : Work.runAddLink root source target s = .ok 0 s') :
    ∃ link : Link, (link.source = source ∧ link.target = target) ∧ link.IsJoined ∧
      ∃ before after, before.tree = s.tree ∧
        Work.save (linksPath path) (SideFile.linksText (links ++ [link])) before = .ok () after ∧
        s'.tree = after.tree := by
  obtain ⟨known, link, isNew, before, after, htree, hquiet, hlink, hlater⟩ :=
    Work.runAddLink_eq_ok quiet hopen hsettings hadd
  obtain ⟨⟨hsource, htarget, now, hdate⟩, before', after', htree', hsave, hlater'⟩ :=
    Work.addLink_eq_ok hquiet (hholds.of_tree_eq htree) hfind hlink
  -- The words of a command and the time are texts of characters.
  have hjoined : link.IsJoined :=
    ⟨hsource ▸ CodeText.isJoined_ofString source, htarget ▸ CodeText.isJoined_ofString target,
      hdate ▸ CodeText.isJoined_ofString now.text⟩
  exact ⟨link, ⟨hsource, htarget⟩, hjoined, before', after', htree'.trans htree, hsave,
    hlater.trans hlater'⟩

/-- The link that was added last can be removed, and then the file holds the others. -/
theorem exists_runRemoveLink (quiet : s.IsQuiet) (h : KeepsLinksAt s root path spot)
    (hold : s.tree.entry? spot = some (.file old))
    (hpair : link.source = source ∧ link.target = target)
    (hholds : Work.Holds path (Settings.linksFiles {}) s (links ++ [link]))
    (hfind : links.find? (·.joins source target) = none) :
    ∃ later, Work.runRemoveLink root source target s = .ok 0 later ∧
      s.tree.Rewritten later.tree spot old (encode (SideFile.linksText links)) := by
  have hjoins : link.joins source target = true := by simp [Link.joins, hpair]
  -- The link that joins the pair is the last one, and no other does.
  have hrest :
      ((links ++ [link]).filter fun other => !other.joins source target) = links := by
    rw [List.filter_append, List.filter_singleton, hjoins, List.filter_eq_self.mpr]
    · simp
    · intro other hother
      have hnone := List.find?_eq_none.mp hfind other hother
      simpa using hnone
  have hfilled : ¬((source : CodeText) = "" ∨ (target : CodeText) = "") := by
    have hends := SideFile.ends_of_links hholds link (by simp)
    rw [SideFile.NamesEnds, hpair.1, hpair.2] at hends
    exact not_or.mpr hends
  obtain ⟨removed, hremove, htree⟩ := Work.removeLink_of_save quiet hfilled hholds
    ⟨link, by simp, hjoins⟩ fun before hbefore => by
      rw [hrest]
      exact h.save_eq hold (hasNull_linksPath hholds) (SideFile.linksText links) hbefore
  obtain ⟨later, hrun, hlater⟩ := Work.runRemoveLink_of_ok h.opens h.settings hremove
  refine ⟨later, hrun, ?_⟩
  rw [hlater, htree]
  exact Tree.rewritten_insert hold _

/-- What can be read of a file is its content. -/
theorem entry?_of_readOctets {file : String} {octets : List UInt8}
    (hlocate : tree.locate file = .ok spot) (h : tree.readOctets file = .ok octets) :
    tree.entry? spot = some (.file octets) := by
  obtain ⟨found, hfound, hstands⟩ := Tree.readOctets_eq_ok_iff.mp h
  cases hlocate.symm.trans hfound
  exact hstands

/-- The links that are read from the file are the ones that are written there. -/
theorem holds_of_written {octets : List UInt8} (hends : ∀ link ∈ links, SideFile.NamesEnds link)
    (hjoined : ∀ link ∈ links, link.IsJoined)
    (hnull : Path.hasNull (linksPath path) = false)
    (hlocate : s.tree.locate (linksPath path) = .ok spot)
    (hentry : s.tree.entry? spot = some (.file octets))
    (hoctets : octets = encode (SideFile.linksText links)) :
    Work.Holds path (Settings.linksFiles {}) s links := by
  rw [← map_joined_eq_self hjoined]
  refine SideFile.links_of_written hends hnull ?_
  show s.tree.readOctets (linksPath path) = _
  rw [Tree.readOctets_eq_ok_iff.mpr ⟨spot, hlocate, hentry⟩, hoctets]

/-- Where links were written, the next run finds them. -/
theorem KeepsLinksAt.holds_of_rewritten (quiet : s.IsQuiet) (h : KeepsLinksAt s root path spot)
    (hends : ∀ link ∈ links, SideFile.NamesEnds link) (hjoined : ∀ link ∈ links, link.IsJoined)
    (hnull : Path.hasNull (linksPath path) = false)
    (hwritten : s.tree.Rewritten s'.tree spot old (encode (SideFile.linksText links)))
    (hruns : s.RunsOn s'.tree s') :
    KeepsLinksAt s' root path spot ∧ Work.Holds path (Settings.linksFiles {}) s' links := by
  have hkeeps := h.rewritten quiet hwritten hruns
  exact ⟨hkeeps, holds_of_written hends hjoined hnull hkeeps.locate hwritten.after rfl⟩

/-- What was saved stands in the file. -/
theorem KeepsLinksAt.entry?_of_saved (h : KeepsLinksAt s root path spot) {text : String}
    {before after : Session} (hnull : Path.hasNull (linksPath path) = false)
    (hsave : Work.save (linksPath path) text before = .ok () after) (htree : s.tree = after.tree) :
    s.tree.entry? spot = some (.file (encode text)) := by
  obtain ⟨later, hopened⟩ := Work.outcome_eq_ok_iff.mp h.opens
  have habsolute : Path.isAbsolute (linksPath path) = true :=
    Path.isAbsolute_below (Work.openRoot_eq_ok hopened).1.isAbsolute _
  refine entry?_of_readOctets h.locate ?_
  rw [htree]
  rcases Work.save_cases_of_absolute hnull habsolute text before with
    ⟨_, _, hblocked, -⟩ | ⟨_, hsaved, hread⟩
  · cases hsave.symm.trans hblocked
  · cases hsave.symm.trans hsaved
    exact hread

/-- The text of the file with given links, as a walk reads it. -/
def fileText (links : List Link) : List Char :=
  (SideFile.linksText links).toList

/-- A file of links is read as it is written, since it has seven bits only. -/
theorem decodeLossy_linksText (links : List Link) :
    decodeLossy (encode (SideFile.linksText links)) = fileText links := by
  unfold fileText
  rw [← SideFile.linksText_joined]
  exact Text.Utf8.decodeLossy_encode fun c hc =>
    (Json.isPlain_line (SideFile.fits_listToJson_joined links) .indented c hc).isAscii

end

/-! ### What surveys show -/

/-- A survey shows a graph, apart from what a file is counted for that says another text. Modules
that do not read the file, and all of them if it says the same, are shown as they are. -/
def ShowsRetold (s : Session) (root : String) (graph : Graph) (old new : List Char)
    (times : CodeText → Nat) : Prop :=
  graph.Affords old new times → ∃ shown, outcome (Work.survey none root) s = .ok shown ∧
    graph.Retold old new times shown ∧
    ((∀ m ∈ graph.modules, times m.id = 0 ∨ old = new) → shown = graph)

/-- What a survey leads to, root and settings found. -/
theorem outcome_survey_eq_ok_iff {settings : Settings} {graph : Graph} (quiet : s.IsQuiet)
    (hopen : outcome (Work.openRoot root) s = .ok path)
    (hsettings : outcome (settingsFor none path) s = .ok settings) :
    outcome (Work.survey none root) s = .ok graph ↔
      ∃ links, Work.Holds path settings.linksFiles s links ∧
        Yields s.tree settings path links graph := by
  rw [outcome_survey quiet, hopen, ok_bind, hsettings, ok_bind, outcome_ofTree_eq_ok_iff]
  rfl

/-- A survey on a tree in which the file with the links was rewritten. -/
theorem shows_of_yields {links : List Link} {graph : Graph} (quiet : s.IsQuiet)
    (h : KeepsLinksAt s root path spot)
    (hholds : Work.Holds path (Settings.linksFiles {}) s links)
    (hwritten : tree.Rewritten s.tree spot old new) (hyields : Yields tree {} path links graph) :
    ShowsRetold s root graph (decodeLossy old) (decodeLossy new) (timesRead tree {} path spot) := by
  intro haffords
  have hspares : ∀ place ∈ "package.json" :: Settings.modulesFiles {},
      tree.locate (Path.below path place) ≠ .ok spot := fun place hplace => by
    rw [hwritten.alike.locate_eq]
    exact h.notSides place hplace
  obtain ⟨shown, hshown, hretold⟩ := hyields.retold hwritten hspares haffords
  exact ⟨shown, (outcome_survey_eq_ok_iff quiet h.opens h.settings).mpr ⟨links, hholds, hshown⟩,
    hretold, hretold.eq_of_same⟩

section

variable {source target : String} {links : List Link} {link : Link} {graph : Graph}

/-- When a link is written after the others, and then only the others again, surveys show what the
links lead to, apart from what the text of the file is counted for. -/
theorem KeepsLinksAt.shows_of_rewritten (quiet : s.IsQuiet) (h : KeepsLinksAt s root path spot)
    (hends : ∀ old ∈ links ++ [link], SideFile.NamesEnds old)
    (hjoined : ∀ old ∈ links ++ [link], old.IsJoined)
    (hpair : link.source = source ∧ link.target = target)
    (hnull : Path.hasNull (linksPath path) = false)
    (hfind : links.find? (·.joins source target) = none)
    (hadded : s.tree.Rewritten s'.tree spot old (encode (SideFile.linksText (links ++ [link]))))
    (hruns : s.RunsOn s'.tree s') (hyields : Yields s.tree {} path links graph) {graph' : Graph}
    (hyields' : Yields s.tree {} path (links ++ [link]) graph') :
    ShowsRetold s' root graph' (decodeLossy old) (fileText (links ++ [link]))
      (timesRead s.tree {} path spot) ∧
    ∃ s₃, Work.runRemoveLink root source target s' = .ok 0 s₃ ∧
      ∀ s'', s.RunsOn s₃.tree s'' →
        ShowsRetold s'' root graph (decodeLossy old) (fileText links)
          (timesRead s.tree {} path spot) := by
  obtain ⟨hkeeps', hholds'⟩ := h.holds_of_rewritten quiet hends hjoined hnull hadded hruns
  rw [← decodeLossy_linksText, ← decodeLossy_linksText]
  refine ⟨shows_of_yields hruns.quiet hkeeps' hholds' hadded hyields', ?_⟩
  obtain ⟨s₃, hremove, hremoved⟩ :=
    exists_runRemoveLink hruns.quiet hkeeps' hadded.after hpair hholds' hfind
  refine ⟨s₃, hremove, fun s'' hruns'' => ?_⟩
  -- After both edits the file holds the links that were there, though perhaps written in another
  -- way.
  have hback : s.tree.Rewritten s''.tree spot old (encode (SideFile.linksText links)) :=
    hruns''.tree_eq ▸ hadded.trans hremoved
  obtain ⟨hkeeps'', hholds''⟩ := h.holds_of_rewritten quiet
    (List.forall_mem_append.mp hends).1 (List.forall_mem_append.mp hjoined).1 hnull hback
    hruns''.on_own
  exact shows_of_yields hruns''.quiet hkeeps'' hholds'' hback hyields

/-- When a link that stands after the others is removed, what a survey shows then tells what one
shows before: what the links with that link lead to, apart from what the text of the file is
counted for. -/
theorem KeepsLinksAt.shows_of_removed (quiet : s.IsQuiet) (h : KeepsLinksAt s root path spot)
    (hends : ∀ old ∈ links ++ [link], SideFile.NamesEnds old)
    (hjoined : ∀ old ∈ links ++ [link], old.IsJoined)
    (hpair : link.source = source ∧ link.target = target)
    (hnull : Path.hasNull (linksPath path) = false)
    (hfind : links.find? (·.joins source target) = none)
    (hentry : s.tree.entry? spot
      = some (.file (encode (SideFile.linksText (links ++ [link]))))) :
    ∃ s₃, Work.runRemoveLink root source target s = .ok 0 s₃ ∧
      ∀ s' last, s.RunsOn s₃.tree s' → outcome (Work.survey none root) s' = .ok last →
        Yields s₃.tree {} path links last ∧
        ∀ graph, Yields s₃.tree {} path (links ++ [link]) graph →
          ShowsRetold s root graph (fileText links) (fileText (links ++ [link]))
            (timesRead s₃.tree {} path spot) := by
  have hholds := holds_of_written hends hjoined hnull h.locate hentry rfl
  obtain ⟨s₃, hremove, hremoved⟩ := exists_runRemoveLink quiet h hentry hpair hholds hfind
  refine ⟨s₃, hremove, fun s' last hruns hlast => ?_⟩
  have hback : s.tree.Rewritten s'.tree spot _ (encode (SideFile.linksText links)) :=
    hruns.tree_eq ▸ hremoved
  obtain ⟨hkeeps', hholds'⟩ := h.holds_of_rewritten quiet
    (List.forall_mem_append.mp hends).1 (List.forall_mem_append.mp hjoined).1 hnull hback
    hruns.on_own
  obtain ⟨found, hfound, hyields⟩ :=
    (outcome_survey_eq_ok_iff hruns.quiet hkeeps'.opens hkeeps'.settings).mp hlast
  -- The links that are read are those that were written.
  cases hfound.symm.trans hholds'
  rw [← hruns.tree_eq, ← decodeLossy_linksText, ← decodeLossy_linksText]
  exact ⟨hyields, fun graph hgraph => shows_of_yields quiet h hholds hback.symm hgraph⟩

end

/-- What becomes of a graph when a link is added to the links of a repository, and removed again.
The link is added in a session `s`, which it leaves as `s₂`. -/
structure RoundTrip (s s₂ : Session) (root path source target : String) (graph : Graph)
    (links : List Link) (link : Link) : Prop where
  holds : Work.Holds path (Settings.linksFiles {}) s links
  ends : link.source = source ∧ link.target = target
  /-- The new edge stands among the others, which stay in order. -/
  edge : ∃ before after, graph.edges = before ++ after ∧
    (graph.withEdge source target).edges = before ++ ⟨source, target⟩ :: after
  /-- If the file was there before, the next survey shows the graph with the edge, and the one after
  the link was removed shows the graph, each apart from what the text of the file is counted for. -/
  of_file : ∀ spot octets, KeepsLinksAt s root path spot →
    s.tree.entry? spot = some (.file octets) → ∀ s', s.RunsOn s₂.tree s' →
      ShowsRetold s' root (graph.withEdge source target) (decodeLossy octets)
        (fileText (links ++ [link])) (timesRead s.tree {} path spot) ∧
      ∃ s₃, Work.runRemoveLink root source target s' = .ok 0 s₃ ∧ ∀ s'', s.RunsOn s₃.tree s'' →
        ShowsRetold s'' root graph (decodeLossy octets) (fileText links)
          (timesRead s.tree {} path spot)
  /-- Whether or not it was there, the survey before the link is removed shows the graph of the one
  after it, with the edge, apart from what the text is counted for. -/
  of_removal : ∀ spot s', s.RunsOn s₂.tree s' → KeepsLinksAt s' root path spot →
    ∃ s₃, Work.runRemoveLink root source target s' = .ok 0 s₃ ∧
      ∀ s'' last, s.RunsOn s₃.tree s'' → outcome (Work.survey none root) s'' = .ok last →
        (source : CodeText) ∈ last.ids → (target : CodeText) ∈ last.ids →
        ⟨source, target⟩ ∉ last.edges →
          ShowsRetold s' root (last.withEdge source target) (fileText links)
            (fileText (links ++ [link])) (timesRead s₃.tree {} path spot)

/-- Take a repository without settings whose survey shows two modules and no edge from the one to
the other. If a link between them is added, it is a new one, and the graph makes a round trip: all
that surveys show of the link is the edge and the text of the file that it is written to. -/
theorem link_round_trip {s s₂ : Session} (quiet : s.IsQuiet) {root path source target : String}
    {graph : Graph} (hopen : outcome (Work.openRoot root) s = .ok path)
    (hsettings : outcome (settingsFor none path) s = .ok {})
    (hsurvey : outcome (Work.survey none root) s = .ok graph) (hne : source ≠ target)
    (hsource : (source : CodeText) ∈ graph.ids)
    (htarget : (target : CodeText) ∈ graph.ids)
    (hnew : ⟨source, target⟩ ∉ graph.edges)
    (hadd : Work.runAddLink root source target s = .ok 0 s₂) :
    ∃ links link, RoundTrip s s₂ root path source target graph links link := by
  obtain ⟨links, hholds, hyields⟩ := (outcome_survey_eq_ok_iff quiet hopen hsettings).mp hsurvey
  obtain ⟨hids, hnamed, hedges⟩ := hyields.wellFormed
  have hne' : (source : CodeText) ≠ target := mt CodeText.ofString_inj.mp hne
  have hfind := hyields.find?_eq_none hne' hsource htarget hnew
  have hnull := hasNull_linksPath hholds
  obtain ⟨link, hpair, hlink, before, after, hbefore, hsave, hafter⟩ :=
    exists_runAddLink quiet hopen hsettings hholds hfind hadd
  have hends : ∀ old ∈ links ++ [link], SideFile.NamesEnds old := by
    rw [List.forall_mem_append, List.forall_mem_singleton, SideFile.NamesEnds, hpair.1, hpair.2]
    exact ⟨SideFile.ends_of_links hholds, hnamed _ hsource, hnamed _ htarget⟩
  have hjoined : ∀ old ∈ links ++ [link], old.IsJoined := by
    rw [List.forall_mem_append, List.forall_mem_singleton]
    exact ⟨SideFile.isJoined_of_links hholds, hlink⟩
  refine ⟨links, link, hholds, hpair, Graph.edges_withEdge hedges hids hsource, ?_, ?_⟩
  · intro spot octets hkeeps hentry s' hruns
    -- The file is there, so adding the link only gives it another content.
    have hadded : s.tree.Rewritten s'.tree spot octets
        (encode (SideFile.linksText (links ++ [link]))) := by
      cases hsave.symm.trans (hkeeps.save_eq hentry hnull _ hbefore)
      rw [hruns.tree_eq, hafter]
      exact Tree.rewritten_insert hentry _
    exact hkeeps.shows_of_rewritten quiet hends hjoined hpair hnull hfind hadded hruns.on_own
      hyields (hyields.withEdge hpair hne' hsource htarget hnew)
  · intro spot s' hruns hkeeps
    -- Whether or not the file was there, it holds the links now.
    have hentry := hkeeps.entry?_of_saved hnull hsave (hruns.tree_eq.trans hafter)
    obtain ⟨s₃, hremove, hremoved⟩ :=
      hkeeps.shows_of_removed hruns.quiet hends hjoined hpair hnull hfind hentry
    refine ⟨s₃, hremove, fun s'' last hruns'' hlast hsource' htarget' hnew' => ?_⟩
    obtain ⟨hyields'', hshows⟩ := hremoved s'' last (hruns.next hruns'') hlast
    exact hshows _ (hyields''.withEdge hpair hne' hsource' htarget' hnew')

/-- A repository with two modules, and a file for links in which there are none. -/
def linklessSession : Session where
  tree := {
    entries := [(["r"], .directory), (["r", "api"], .directory), (["r", "api", "a.js"], .file []),
      (["r", "db"], .directory), (["r", "db", "b.js"], .file []), (["r", "data"], .directory),
      (["r", "data", "module-links.json"], .file "[]\n".toUTF8.toList)]
    distinct := by decide }
  directory := "/"
  now := ⟨2024, 1, 1, 0, 0, 0, 0⟩

/-- A repository without links keeps them in its first place for them. -/
theorem keepsLinksAt_linklessSession :
    KeepsLinksAt linklessSession "/r" "/r" ["r", "data", "module-links.json"] where
  opens := by decide +kernel
  settings := by decide +kernel
  locate := by decide +kernel
  notSettings := by
    have hfile : outcome (Work.settingsFile "/r") linklessSession = .ok "/r/.modgraph.yml" := by
      decide +kernel
    intro file hfound
    cases hfile.symm.trans hfound
    decide +kernel
  notSides := by decide +kernel

/-- The link that is added to it. -/
def firstLink : Link where
  source := "api"
  target := "db"
  createdAt := linklessSession.now.text

/-- The first link of a repository is made, surveyed and taken back. -/
theorem link_round_trip_linklessSession :
    ∃ graph s₂, outcome (Work.survey none "/r") linklessSession = .ok graph ∧
      ("api" : CodeText) ∈ graph.ids ∧ ("db" : CodeText) ∈ graph.ids ∧ ⟨"api", "db"⟩ ∉ graph.edges ∧
      Work.runAddLink "/r" "api" "db" linklessSession = .ok 0 s₂ ∧
      (graph.withEdge "api" "db").Affords (fileText []) (fileText [firstLink])
        (timesRead linklessSession.tree {} "/r" ["r", "data", "module-links.json"]) ∧
      ∃ links link, RoundTrip linklessSession s₂ "/r" "/r" "api" "db" graph links link := by
  -- What the theorem asks of the graph is decided in one evaluation of the survey.
  have hshown : (outcome (Work.survey none "/r") linklessSession).toOption.any (fun graph =>
      decide (("api" : CodeText) ∈ graph.ids ∧ ("db" : CodeText) ∈ graph.ids ∧
        ⟨"api", "db"⟩ ∉ graph.edges ∧
        (graph.withEdge "api" "db").Affords (fileText []) (fileText [firstLink])
          (timesRead linklessSession.tree {} "/r" ["r", "data", "module-links.json"]))) = true := by
    decide +kernel
  have hadded : outcome (Work.runAddLink "/r" "api" "db") linklessSession = .ok 0 := by
    decide +kernel
  obtain ⟨s₂, hadd⟩ := Work.outcome_eq_ok_iff.mp hadded
  cases hsurvey : outcome (Work.survey none "/r") linklessSession with
  | error failure =>
    rw [hsurvey] at hshown
    cases hshown
  | ok graph =>
    rw [hsurvey] at hshown
    obtain ⟨hapi, hdb, hnew, haffords⟩ := of_decide_eq_true hshown
    have quiet : linklessSession.IsQuiet := fun _ h => nomatch h
    exact ⟨graph, s₂, rfl, hapi, hdb, hnew, hadd, haffords, link_round_trip quiet
      keepsLinksAt_linklessSession.opens keepsLinksAt_linklessSession.settings hsurvey (by decide)
      hapi hdb hnew hadd⟩

/-! ### What the file is counted for -/

/-- Surveys before a link is added, before it is removed, and after that, and the statuses of the
commands between them. -/
def surveyRoundTrip (root source target : String) : Work (Graph × Nat × Graph × Nat × Graph) := do
  let first ← Work.survey none root
  let added ← Work.runAddLink root source target
  let next ← Work.survey none root
  let removed ← Work.runRemoveLink root source target
  let last ← Work.survey none root
  return (first, added, next, removed, last)

/-- A repository with two modules, and no file for links. -/
def unlinkedSession : Session where
  tree := {
    entries := [(["r"], .directory), (["r", "api"], .directory), (["r", "api", "a.js"], .file []),
      (["r", "db"], .directory), (["r", "db", "b.js"], .file [])]
    distinct := by decide }
  directory := "/"
  now := ⟨2024, 1, 1, 0, 0, 0, 0⟩

/-- Where the file is made, more than the edge is shown, and it stays after the link was removed:
the directory of the file is a module. -/
theorem round_trip_shows_file :
    outcome (Work.openRoot "/r") unlinkedSession = .ok "/r" ∧
      outcome (settingsFor none "/r") unlinkedSession = .ok {} ∧
      ∃ first next last,
        outcome (surveyRoundTrip "/r" "api" "db") unlinkedSession = .ok (first, 0, next, 0, last) ∧
        ("api" : CodeText) ∈ first.ids ∧ ("db" : CodeText) ∈ first.ids ∧
        ⟨"api", "db"⟩ ∉ first.edges ∧
        next ≠ first.withEdge "api" "db" ∧ last ≠ first ∧
        ("data" : CodeText) ∉ first.ids ∧ ("data" : CodeText) ∈ next.ids ∧
        ("data" : CodeText) ∈ last.ids := by
  -- The three surveys and two edits are run once, and all facts are decided of that run.
  have hshown : (outcome (surveyRoundTrip "/r" "api" "db") unlinkedSession).toOption.any
      (fun (first, added, next, removed, last) => decide (added = 0 ∧ removed = 0 ∧
        ("api" : CodeText) ∈ first.ids ∧ ("db" : CodeText) ∈ first.ids ∧
        ⟨"api", "db"⟩ ∉ first.edges ∧
        next ≠ first.withEdge "api" "db" ∧ last ≠ first ∧
        ("data" : CodeText) ∉ first.ids ∧ ("data" : CodeText) ∈ next.ids ∧
        ("data" : CodeText) ∈ last.ids)) = true := by
    decide +kernel
  refine ⟨by decide +kernel, by decide +kernel, ?_⟩
  cases hrun : outcome (surveyRoundTrip "/r" "api" "db") unlinkedSession with
  | error failure =>
    rw [hrun] at hshown
    cases hshown
  | ok found =>
    obtain ⟨first, added, next, removed, last⟩ := found
    rw [hrun] at hshown
    obtain ⟨rfl, rfl, hrest⟩ := of_decide_eq_true hshown
    exact ⟨first, next, last, rfl, hrest⟩

end Survey

end RepoAtlas
