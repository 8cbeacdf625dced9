import RepoAtlas.Proofs.Session.Agreement
import RepoAtlas.Proofs.Survey.Directories
import RepoAtlas.Proofs.Survey.Stages
import RepoAtlas.Proofs.Tree.Order

/-!
# `RepoAtlas.Proofs.Survey.Order`: no survey depends on the order of listings

A system lists the entries of a directory in any order. Surveys sort what is listed before they look
at it, and so nothing that they do shows the order: neither the graph nor the failure, and neither
the notices nor what they write to a log file on the way.

* `container_eq`, `below_eq`: entering directories, by induction on the depth.
* `registered_eq`, `withManual_eq`, `walked_eq`, `linked_eq`: the stages of a survey.
* `survey_ignores_order`: whole surveys of two trees that differ in the order of entries.
-/

set_option autoImplicit false

namespace RepoAtlas.Tree.Reordered

open RepoAtlas.Module
open RepoAtlas.Survey

variable {tree other : Tree} (h : tree.Reordered other)

include h

/-! ### What is looked up -/

/-- What a directory entry turns out to be is asked by its path, and paths lead to the same places
in both trees. -/
theorem seen_eq : seen tree = seen other := by
  funext path entry
  unfold seen
  rw [h.find_eq]

/-- Whether a path leads to a file is asked by the path as well. -/
theorem isFileAt_eq : isFileAt tree = isFileAt other := by
  funext path
  unfold isFileAt Tree.probe
  rw [h.find_eq]

/-- The first file among some candidates, in the order of the candidates, which no listing decides.
-/
theorem firstFile?_eq (root : String) (places : List String) :
    firstFile? tree root places = firstFile? other root places := by
  induction places with
  | nil => rfl
  | cons place places ih =>
    unfold firstFile?
    rw [h.isFileAt_eq, ih]

/-- The depth that is allowed for containers goes by the number of entries, which a permutation
keeps. -/
theorem containerDepth_eq : containerDepth tree = containerDepth other := by
  unfold containerDepth
  rw [h.length_eq]

/-- Paths lead to directories in both trees or in neither. -/
theorem isDirectory_eq : tree.isDirectory = other.isDirectory := by
  funext path
  unfold Tree.isDirectory
  rw [h.find_eq]

/-- Paths lead to files in both trees or in neither. -/
theorem isFile_eq : tree.isFile = other.isFile := by
  funext path
  unfold Tree.isFile
  rw [h.find_eq]

/-- References are resolved by asking for candidate paths, so they lead to the same files. -/
theorem resolve?_eq : Source.resolve? tree = Source.resolve? other := by
  have hexists : tree.pathExists = other.pathExists := by
    funext path
    unfold Tree.pathExists
    rw [h.find_eq]
  funext file reference
  unfold Source.resolve?
  rw [hexists]

/-- Source files have the same text, replacement characters included. -/
theorem readSource_eq : tree.readSource = other.readSource := by
  funext path
  unfold Tree.readSource
  rw [h.readOctets_eq]

/-- Files that are read strictly have the same text, or fail alike. -/
theorem readText_eq : tree.readText = other.readText := by
  funext path
  unfold Tree.readText
  rw [h.readOctets_eq]

/-! ### Side files -/

/-- The first side file that holds a value is the same one, with the same notices before it. -/
theorem first_eq (root : String) (places : List String) :
    SideFile.first tree root places = SideFile.first other root places := by
  have hread : SideFile.read tree = SideFile.read other := by
    funext path
    unfold SideFile.read
    rw [h.readText_eq]
  -- Reading is the same at every place, so the first place that holds a value is too.
  induction places with
  | nil => rfl
  | cons place places ih =>
    unfold SideFile.first
    rw [hread, ih]

/-- The manifest declares the same packages. -/
theorem packages_eq (root : String) : SideFile.packages tree root = SideFile.packages other root := by
  unfold SideFile.packages
  rw [h.first_eq]

/-- The file for manual modules gives the same modules. -/
theorem modules_eq (root : String) (places : List String) :
    SideFile.modules tree root places = SideFile.modules other root places := by
  unfold SideFile.modules
  rw [h.first_eq]

/-- The file for links gives the same links. -/
theorem links_eq (root : String) (places : List String) :
    SideFile.links tree root places = SideFile.links other root places := by
  unfold SideFile.links
  rw [h.first_eq]

/-! ### Directories -/

/-- A container brings the same contributions, to any depth: its entries are sorted before they are
entered, so `list_eq` is all that its body needs beside the hypothesis for the depth below. -/
theorem container_eq (settings : Settings) (depth : Nat) :
    container tree settings depth = container other settings depth := by
  induction depth with
  | zero =>
    funext name path
    rfl
  | succ depth ih =>
    funext name path
    unfold container
    rw [h.list_eq, h.seen_eq, ih]

/-- So does an entry of the root. -/
theorem topEntry_eq (settings : Settings) (root : String) :
    topEntry tree settings root = topEntry other settings root := by
  funext name entry
  unfold topEntry
  rw [h.seen_eq, h.containerDepth_eq, h.container_eq]

/-- All directories together bring the same contributions, in the same order. -/
theorem directories_eq (settings : Settings) (root : String) :
    directories tree settings root = directories other settings root := by
  unfold directories
  rw [h.list_eq, h.topEntry_eq]

/-- The first stage of a survey, which registers the directories and the server. -/
theorem registered_eq (settings : Settings) (root : String) :
    registered tree settings root = registered other settings root := by
  unfold registered
  rw [h.packages_eq, h.firstFile?_eq, h.directories_eq]

/-- The second stage, which takes in the manual modules. -/
theorem withManual_eq (settings : Settings) (root : String) (registry : Registry) :
    withManual tree settings root registry = withManual other settings root registry := by
  unfold withManual
  rw [h.modules_eq]

/-! ### The walk -/

/-- A walk comes across the same files below a directory, to any depth. -/
theorem below_eq (scope : Scope) (owners : Owners) (id : CodeText) (depth : Nat) :
    below tree scope owners id depth = below other scope owners id depth := by
  induction depth with
  | zero =>
    funext path
    rfl
  | succ depth ih =>
    funext path
    unfold below
    rw [h.list_eq, ih]

/-- A walk comes across the same files from a root, be it a directory, a file, or missing. -/
theorem sightings_eq (scope : Scope) (owners : Owners) (id : CodeText) :
    sightings tree scope owners id = sightings other scope owners id := by
  funext root
  unfold sightings
  rw [h.isDirectory_eq, h.isFile_eq, h.length_eq, h.below_eq]

/-- A file that is taken in is reported in the same way: its text and where its references lead are
the same. -/
theorem visit_eq (scope : Scope) (registry : Registry) :
    visit tree scope registry = visit other scope registry := by
  funext progress sighting
  unfold visit report
  rw [h.readSource_eq, h.resolve?_eq]

/-- One module is walked in the same way. -/
theorem walkRecord_eq : walkRecord tree = walkRecord other := by
  funext scope registry owners record
  unfold walkRecord sightingsOf
  rw [h.sightings_eq, h.visit_eq]

/-- All modules are walked in the same way. -/
theorem walk_eq : walk tree = walk other := by
  funext scope registry
  unfold walk
  rw [h.walkRecord_eq]

/-- The third stage of a survey, the walk. -/
theorem walked_eq (settings : Settings) (root : String) (registry : Registry) :
    walked tree settings root registry = walked other settings root registry := by
  unfold walked
  rw [h.walk_eq]

/-- The last stage that reads a file, which takes in the links. -/
theorem linked_eq (settings : Settings) (root : String) (registry : Registry) :
    linked tree settings root registry = linked other settings root registry := by
  unfold linked
  rw [h.links_eq]

end RepoAtlas.Tree.Reordered

/-- Sessions that differ in the order of the entries of their trees at most. -/
def RepoAtlas.Session.Reordered (s s' : Session) : Prop :=
  s.tree.Reordered s'.tree ∧ s' = { s with tree := s'.tree }

namespace RepoAtlas.Work.Agrees

open RepoAtlas.Survey
open RepoAtlas.Session (Reordered)

/-- Sessions that differ in the order of entries are alike in all that the search for a root and its
settings asks of them. -/
theorem areAlike_reordered : AreAlike Reordered where
  tree h := h.1.alike
  directory_eq h := by rw [h.2]
  homes_eq h := by rw [h.2]

/-! ### Requests that write to a log file -/

/-- A change that keeps sessions reordered agrees with itself. -/
theorem modify_reordered {change : Session → Session}
    (h : ∀ s s', Reordered s s' → Reordered (change s) (change s')) :
    Agrees Reordered Eq (modify change : Work Unit) (modify change) :=
  fun s s' hs => .ok rfl (h s s' hs)

/-- Passing a notice on agrees, also where it is written to a log file inside the tree: the file is
found by its path, and grows by the same line in both trees. -/
theorem pass_reordered (notice : Notice) :
    Agrees Reordered Eq (Work.pass notice) (Work.pass notice) := by
  refine get.bind fun s s' hs => ?_
  -- The sessions differ in their trees only, so they write to the same file at the same time.
  obtain ⟨htree, heq⟩ := hs
  have hjournal : s'.journal = s.journal := by rw [heq]
  have hnow : s'.now = s.now := by rw [heq]
  rw [hjournal, hnow]
  cases s.journal with
  | none => exact .pure rfl
  | some journal =>
    dsimp only
    split
    · refine bind (modify_reordered fun t t' ht => ⟨ht.1, by rw [ht.2]⟩) fun _ _ _ => ?_
      cases journal.file with
      | none => exact .pure rfl
      | some file =>
        have hextend := htree.extendFile file (Text.Utf8.encode (notice.logLine s.now.logText))
        dsimp only
        generalize s.tree.extendFile file _ = extended at hextend
        generalize s'.tree.extendFile file _ = extended' at hextend
        cases hextend with
        | ok hextended =>
          -- Both sessions take over trees that are reordered again.
          exact fun t t' ht => .ok rfl ⟨hextended, by rw [ht.2]⟩
        | error _ => exact .pure rfl
    · exact .pure rfl

/-- So do any number of notices, one after the other. -/
theorem forM_pass_reordered (notices : List Notice) :
    Agrees Reordered Eq (notices.forM Work.pass) (notices.forM Work.pass) := by
  induction notices with
  | nil => exact .pure rfl
  | cons notice notices ih =>
    show Agrees Reordered Eq (Work.pass notice >>= fun _ => notices.forM Work.pass) _
    exact (pass_reordered notice).bind fun _ _ _ => ih

/-- A computation that does not depend on the order of entries. -/
theorem traced_reordered {α : Type} {computation : Tree → Traced α}
    (h : ∀ tree other, tree.Reordered other → computation tree = computation other) :
    Agrees Reordered Eq (Work.traced computation) (Work.traced computation) := by
  refine tree.bind fun tree tree' htrees => ?_
  obtain ⟨s, s', hs, rfl, rfl⟩ := htrees
  -- Both sessions run one computation now: what is left is that its notices are passed on alike.
  rw [h _ _ hs.1]
  refine (forM_pass_reordered _).bind fun _ _ _ => ?_
  split
  · exact .pure rfl
  · exact .throw _

/-- The settings of a survey, given or looked up in the tree. -/
theorem settingsFor_reordered (given : Option Settings) (path : String) :
    Agrees Reordered Eq (settingsFor given path) (settingsFor given path) := by
  cases given with
  | some settings => exact .pure rfl
  | none =>
    -- Only settings that were found somewhere are read, and they are read by their path.
    refine settingsOr (loadSettings areAlike_reordered path fun _ _ file _ _ _ u u' hu => ?_)
      fun fault => (pass_reordered _).bind fun _ _ _ => .pure rfl
    unfold Settings.ofFile
    rw [hu.1.readText_eq]

/-- Whole surveys agree, one stage after the other: each stage starts from what the one before made
of both sessions, which is the same. -/
theorem survey_reordered (given : Option Settings) (root : String) :
    Agrees Reordered Eq (Work.survey given root) (Work.survey given root) := by
  rw [survey_eq]
  -- Stage by stage, each of which leads to the same result in both trees.
  refine (openRoot areAlike_reordered root).bind ?_
  rintro path _ rfl
  refine (settingsFor_reordered given path).bind ?_
  rintro settings _ rfl
  refine (pass_reordered _).bind fun _ _ _ => ?_
  refine (traced_reordered fun _ _ h => h.registered_eq settings path).bind ?_
  rintro shown _ rfl
  refine (traced_reordered fun _ _ h => h.withManual_eq settings path shown).bind ?_
  rintro merged _ rfl
  refine (traced_reordered fun _ _ h => h.walked_eq settings path merged).bind ?_
  rintro counted _ rfl
  refine (traced_reordered fun _ _ h => h.linked_eq settings path counted).bind ?_
  rintro final _ rfl
  exact traced_reordered fun _ _ _ => rfl

end RepoAtlas.Work.Agrees

namespace RepoAtlas.Survey

open RepoAtlas.Work (outcome)

/-- A survey leads to the same graph, or fails for the same reason, in whatever order a system lists
the entries of each directory. It may write to a log file inside the repository on the way. -/
theorem survey_ignores_order {s : Session} {other : Tree} (h : s.tree.Reordered other)
    (given : Option Settings) (root : String) :
    outcome (Work.survey given root) s
      = outcome (Work.survey given root) { s with tree := other } :=
  (Work.Agrees.survey_reordered given root).outcome_eq ⟨h, rfl⟩

/-- A repository with containers in containers and modules of one name, whose notices go to a file
in it. -/
def listedSession : Session where
  tree := {
    entries :=
      [(["r"], .directory), (["r", "packages"], .directory), (["r", "packages", "ui"], .directory),
        (["r", "packages", "ui", "a.js"], .file "import '../api'".toUTF8.toList),
        (["r", "packages", "libs"], .directory), (["r", "packages", "libs", "api"], .directory),
        (["r", "packages", "api"], .directory),
        (["r", "packages", "api", "index.js"], .file "import 'b'; import 'c'".toUTF8.toList),
        (["r", "api"], .link "packages/api")]
    distinct := by decide }
  directory := "/"
  now := ⟨2024, 1, 1, 0, 0, 0, 0⟩
  journal := some { verbose := true, file := some "/r/packages/log.js" }

/-- The same repository, listed the other way round. -/
def reversedTree : Tree where
  entries := listedSession.tree.entries.reverse
  distinct := by decide

/-- Turning every listing round changes nothing, though the modules of one name are listed the other
way round. -/
theorem survey_listedSession_ignores_order :
    listedSession.tree.Reordered reversedTree ∧
    outcome (Work.survey none "/r") listedSession
      = outcome (Work.survey none "/r") { listedSession with tree := reversedTree } := by
  have h : listedSession.tree.Reordered reversedTree := (List.reverse_perm _).symm
  exact ⟨h, survey_ignores_order h none "/r"⟩

end RepoAtlas.Survey
