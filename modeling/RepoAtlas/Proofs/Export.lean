import RepoAtlas.Command.Run
import RepoAtlas.Proofs.Json.RoundTrip
import RepoAtlas.Proofs.Saving

/-!
# `RepoAtlas.Proofs.Export`: exported graphs read back

A graph is exported as the text of its JSON value: to a file, or to the output in either layout. The
value nests four deep and its objects name every member once, so the only thing that can keep the
text from being written or read is an integer with too many digits. A text with a pair of halves
would be read with the character of the pair; no text of characters has one.

* `Graph.integers`, `Graph.texts`: every integer that the value of a graph holds, and every text
  that it takes from outside.
* `Graph.fits_toJson`: without long integers and pairs of halves, the value of a graph is one that
  the reader takes.
* `Renders`: an ASCII text that reads as a value.
* `exported_graphs_read_back`: what is saved, printed or printed on one line renders the graph.
-/

set_option autoImplicit false

namespace RepoAtlas

open RepoAtlas.Number RepoAtlas.Text

/-! ### The value of a graph -/

/-- The integers that a module shows. -/
def FinishedModule.integers (m : FinishedModule) : List Int :=
  [m.metrics.files, m.metrics.lines, m.metrics.debt, m.metrics.tests, m.coverage, m.health]

/-- The integers among the totals. -/
def Summary.integers (summary : Summary) : List Int :=
  [summary.modules, summary.dependencies, summary.packages, summary.lines]

/-- The integers of a graph. -/
def Graph.integers (graph : Graph) : List Int :=
  graph.modules.flatMap FinishedModule.integers ++ graph.summary.integers

/-- The texts that a module shows. -/
def FinishedModule.texts (m : FinishedModule) : List CodeText :=
  m.id :: m.name :: m.kind :: (m.hints ++ m.dependencies ++ m.packages ++ m.frameworks)

/-- The texts of a graph. -/
def Graph.texts (graph : Graph) : List CodeText :=
  graph.modules.flatMap FinishedModule.texts ++
    graph.edges.flatMap fun edge => [edge.source, edge.target]

/-- An integer that has no more digits than can be read or written. -/
def IsShort (value : Int) : Prop :=
  digitCount value.natAbs ≤ digitLimit

instance (value : Int) : Decidable (IsShort value) :=
  inferInstanceAs (Decidable (_ ≤ _))

section Fits

open Json (Fits)

variable {room : Nat}

/-- An array of texts without pairs. -/
theorem fits_ofTexts {values : List CodeText} (h : ∀ value ∈ values, value.IsJoined) :
    Fits (room + 1) (.ofTexts values) := by
  refine Fits.arr fun item hitem => ?_
  obtain ⟨value, hvalue, rfl⟩ := List.mem_map.mp hitem
  exact Fits.str room (h value hvalue)

/-- A module whose numbers are short and whose texts are joined can be written and read back. -/
theorem FinishedModule.fits_toJson {m : FinishedModule} (h : ∀ n ∈ m.integers, IsShort n)
    (hjoined : ∀ text ∈ m.texts, text.IsJoined) : Fits (room + 2) m.toJson := by
  simp only [FinishedModule.integers, List.forall_mem_cons] at h
  obtain ⟨hfiles, hlines, hdebt, htests, hcoverage, hhealth, -⟩ := h
  simp only [FinishedModule.texts, List.forall_mem_cons, List.forall_mem_append] at hjoined
  obtain ⟨hid, hname, hkind, ⟨⟨hhints, hdependencies⟩, hpackages⟩, hframeworks⟩ := hjoined
  refine Fits.obj (by simp) (by simp [CodeText.isJoined_ofString]) ?_
  simp only [List.forall_mem_cons]
  exact ⟨.str _ hid, .str _ hname, .str _ hkind, fits_ofTexts hhints, fits_ofTexts hdependencies,
    fits_ofTexts hpackages, .int _ hfiles, .int _ hlines, .int _ hdebt, .int _ htests,
    .int _ hcoverage, .int _ hhealth, fits_ofTexts hframeworks,
    .str _ (CodeText.isJoined_ofString _), .bool _ _, List.forall_mem_nil _⟩

/-- Two texts make no pair with the arrow between them. -/
theorem Edge.isJoined_id {edge : Edge} (hsource : edge.source.IsJoined)
    (htarget : edge.target.IsJoined) : edge.id.IsJoined := by
  rw [Edge.id, CodeText.isJoined_append_iff, CodeText.isJoined_append_iff]
  refine ⟨⟨hsource, CodeText.isJoined_ofString "->", fun last _ first hfirst => ?_⟩, htarget,
    fun last hlast first _ => ?_⟩
  · obtain rfl : CodePoint.char '-' = first := Option.some.inj hfirst
    cases last <;> rfl
  · obtain rfl : CodePoint.char '>' = last := by
      simpa [List.getLast?_append] using hlast
    rfl

/-- So can an edge between joined ids. -/
theorem Edge.fits_toJson {edge : Edge} (hsource : edge.source.IsJoined)
    (htarget : edge.target.IsJoined) : Fits (room + 1) edge.toJson := by
  refine Fits.obj (by simp) (by simp [CodeText.isJoined_ofString]) ?_
  simp only [List.forall_mem_cons]
  exact ⟨.str _ (Edge.isJoined_id hsource htarget), .str _ hsource, .str _ htarget,
    .str _ (CodeText.isJoined_ofString _), List.forall_mem_nil _⟩

/-- So can a summary of short numbers. -/
theorem Summary.fits_toJson {summary : Summary} (h : ∀ n ∈ summary.integers, IsShort n) :
    Fits (room + 1) summary.toJson := by
  simp only [Summary.integers, List.forall_mem_cons] at h
  obtain ⟨hmodules, hdependencies, hpackages, hlines, -⟩ := h
  refine Fits.obj (by simp) (by simp [CodeText.isJoined_ofString]) ?_
  simp only [List.forall_mem_cons]
  exact ⟨.int _ hmodules, .int _ hdependencies, .int _ hpackages, .int _ hlines,
    List.forall_mem_nil _⟩

/-- Without long integers and pairs of halves, the value of a graph is one that the reader takes. -/
theorem Graph.fits_toJson {graph : Graph} (h : ∀ n ∈ graph.integers, IsShort n)
    (hjoined : ∀ text ∈ graph.texts, text.IsJoined) : Fits (room + 4) graph.toJson := by
  rw [Graph.integers, List.forall_mem_append] at h
  obtain ⟨hmodules, hsummary⟩ := h
  rw [Graph.texts, List.forall_mem_append] at hjoined
  obtain ⟨htexts, hends⟩ := hjoined
  refine Fits.obj (by simp) (by simp [CodeText.isJoined_ofString]) ?_
  simp only [List.forall_mem_cons]
  -- Modules and edges are arrays of what fits, and the summary fits.
  refine ⟨Fits.arr fun item hitem => ?_, Fits.arr fun item hitem => ?_,
    Summary.fits_toJson hsummary, List.forall_mem_nil _⟩
  · obtain ⟨m, hm, rfl⟩ := List.mem_map.mp hitem
    exact FinishedModule.fits_toJson
      (fun n hn => hmodules n (List.mem_flatMap.mpr ⟨m, hm, hn⟩))
      fun text htext => htexts text (List.mem_flatMap.mpr ⟨m, hm, htext⟩)
  · obtain ⟨edge, hedge, rfl⟩ := List.mem_map.mp hitem
    have hboth : ∀ text ∈ [edge.source, edge.target], text.IsJoined := fun text htext =>
      hends text (List.mem_flatMap.mpr ⟨edge, hedge, htext⟩)
    exact Edge.fits_toJson (hboth _ List.mem_cons_self)
      (hboth _ (List.mem_cons_of_mem _ List.mem_cons_self))

end Fits

/-! ### Its text -/

namespace Json

variable {room : Nat} {value : Json}

/-- The items of an array can be written if each can. -/
theorem areWritable_eq_all (items : List Json) : areWritable items = items.all isWritable := by
  induction items with
  | nil => rfl
  | cons item rest ih => rw [areWritable, ih, List.all_cons]

/-- So can the members of an object. -/
theorem membersWritable_eq_all (members : List (CodeText × Json)) :
    membersWritable members = members.all fun member => isWritable member.2 := by
  induction members with
  | nil => rfl
  | cons member rest ih => rw [membersWritable, ih, List.all_cons]

/-- What the reader takes can be written. -/
theorem isWritable_of_fits (h : Fits room value) : value.isWritable = true := by
  -- By induction on the value; only an integer could be too long to be written.
  induction h with
  | null | bool | str => rw [isWritable] <;> exact fun _ => Json.noConfusion
  | int _ hsize =>
    rw [isWritable]
    exact decide_eq_true hsize
  | arr _ ih =>
    rw [isWritable, areWritable_eq_all]
    exact List.all_eq_true.mpr ih
  | obj _ _ _ ih =>
    rw [isWritable, membersWritable_eq_all]
    exact List.all_eq_true.mpr ih

/-- An ASCII text that reads as a value. -/
structure Renders (text : List Char) (value : Json) : Prop where
  isAscii : ∀ c ∈ text, c.toNat < 0x80
  reads : read text = .ok value

/-- The text of a value, with the line feed that ends it. -/
theorem renders_line (h : Fits maxDepth value) (style : Style) :
    Renders (write style value ++ "\n").toList value :=
  ⟨fun c hc => (isPlain_line h style c hc).isAscii, read_line h style⟩

end Json

/-! ### Exports -/

namespace Work

variable {graph : Graph}

/-- A graph that fits is written without a failure. -/
theorem graphText_eq_ok (h : ∀ n ∈ graph.integers, IsShort n)
    (hjoined : ∀ text ∈ graph.texts, text.IsJoined) (style : Json.Style) (s : Session) :
    graphText style graph s = .ok (Json.write style graph.toJson ++ "\n") s := by
  have hfits : Json.Fits Json.maxDepth graph.toJson := Graph.fits_toJson h hjoined
  rw [graphText, Json.isWritable_of_fits hfits]
  rfl

/-- A graph without long integers is saved like any other text. -/
theorem saveGraph_eq_save (h : ∀ n ∈ graph.integers, IsShort n)
    (hjoined : ∀ text ∈ graph.texts, text.IsJoined) (path : String) :
    saveGraph graph path = save (Path.tidy path) (Json.write .indented graph.toJson ++ "\n") := by
  funext s
  unfold saveGraph save
  show EStateM.bind _ _ s = EStateM.bind _ _ s
  unfold EStateM.bind
  cases makeParents (Path.tidy path) s with
  | error failure s' => rfl
  | ok _ s' =>
    show (graphText .indented graph >>= writeText (Path.tidy path)) s' = _
    rw [bind_of_ok (graphText_eq_ok h hjoined .indented s')]

/-- A request that prints a text that renders a graph, and changes nothing else. -/
def Prints (graph : Graph) (s : Session) (result : EStateM.Result Failure Session Nat) : Prop :=
  ∃ text, result = .ok 0 { s with output := s.output ++ text } ∧
    Json.Renders text.toList graph.toJson

/-- A request that leaves a text that renders a graph in the file at a path, and changes nothing but
the tree. -/
def Saves (graph : Graph) (path : String) (s : Session)
    (result : EStateM.Result Failure Session Unit) : Prop :=
  ∃ text tree, result = .ok () { s with tree } ∧
    tree.readOctets (Path.join s.directory path) = .ok (Utf8.encode text) ∧
    tree.readText (Path.join s.directory path) = .ok text.toList ∧
    Json.Renders text.toList graph.toJson

/-- Saving a graph is blocked by the file system, or leaves a file from which the graph is read
back. -/
theorem saveGraph_saves (h : ∀ n ∈ graph.integers, IsShort n)
    (hjoined : ∀ text ∈ graph.texts, text.IsJoined) (path : String) (s : Session) :
    IsBlocked (Path.tidy path) s (saveGraph graph path s) ∨
      Saves graph (Path.tidy path) s (saveGraph graph path s) := by
  have hfits : Json.Fits Json.maxDepth graph.toJson := Graph.fits_toJson h hjoined
  rw [saveGraph_eq_save h hjoined]
  rcases save_cases (Path.tidy path) (Json.write .indented graph.toJson ++ "\n") s with
    hblocked | ⟨tree, hsave, hwritten⟩
  · exact Or.inl hblocked
  · exact Or.inr ⟨_, tree, hsave, hwritten,
      Tree.readText_of_plain (Json.isPlain_line hfits .indented) hwritten,
      Json.renders_line hfits .indented⟩

/-- Printing a graph writes a line from which the graph is read back. -/
theorem deliver_prints (h : ∀ n ∈ graph.integers, IsShort n)
    (hjoined : ∀ text ∈ graph.texts, text.IsJoined) (compact : Bool) (s : Session) :
    Prints graph s (deliver graph none compact s) := by
  let style : Json.Style := if compact then .compact else .indented
  refine ⟨Json.write style graph.toJson ++ "\n", ?_,
    Json.renders_line (Graph.fits_toJson h hjoined) style⟩
  show (graphText style graph >>= fun text => print text >>= fun _ => pure 0) s = _
  rw [bind_of_ok (graphText_eq_ok h hjoined style s)]
  rfl

/-- A request for the graph of a repository delivers the graph that the survey ends with. -/
theorem runDetect_of_surveyed {root : String} {s s' : Session}
    (hsurvey : survey none root s = .ok graph s') (output : Option String) (compact : Bool) :
    runDetect root output compact s = deliver graph output compact s' := by
  have htry : (tryCatch (survey none root >>= fun graph => pure (.ok graph))
      fun failure => pure (.error failure) : Work (Except Failure Graph)) s
        = .ok (.ok graph) s' := by
    show EStateM.tryCatch _ _ s = _
    unfold EStateM.tryCatch
    rw [bind_of_ok hsurvey]
    rfl
  rw [runDetect, bind_of_ok htry]

/-- Every graph without long integers and pairs of halves, such as any graph with texts of
characters, reads back from what is saved and from what is printed in either layout, also when it
has just been surveyed; and all these texts are ASCII. -/
theorem exported_graphs_read_back (h : ∀ n ∈ graph.integers, IsShort n)
    (hjoined : ∀ text ∈ graph.texts, text.IsJoined) (s : Session) :
    (∀ path, IsBlocked (Path.tidy path) s (saveGraph graph path s) ∨
      Saves graph (Path.tidy path) s (saveGraph graph path s)) ∧
    (∀ compact, Prints graph s (deliver graph none compact s)) ∧
    ∀ root compact s', survey none root s = .ok graph s' →
      Prints graph s' (runDetect root none compact s) := by
  refine ⟨fun path => saveGraph_saves h hjoined path s,
    fun compact => deliver_prints h hjoined compact s, ?_⟩
  intro root compact s' hsurvey
  rw [runDetect_of_surveyed hsurvey]
  exact deliver_prints h hjoined compact s'

/-- A graph with names of all kinds, one of them a first half by itself, and an integer beyond any
machine word. -/
def unusualGraph : Graph where
  modules := [{
    id := "a\"b\\c", name := "tab\t bell\x07 delete\x7f", kind := "",
    hints := [], packages := [""],
    dependencies := ["\u2028", String.singleton (Char.ofNat 0x1F600), ⟨[CodePoint.ofCode 0xD83D]⟩],
    metrics := ⟨10000000000000000000000000000000000000000, -1, 0, 0⟩, coverage := 100, health := -7,
    frameworks := [], source := "\u0000", manual := true }]
  edges := [⟨"a\"b\\c", "\u2028"⟩]
  summary := ⟨1, 2, 1, -1⟩

/-- A session in an empty tree. -/
def blankSession : Session where
  tree := .empty
  directory := "/"
  now := ⟨2024, 1, 2, 3, 4, 5, 0⟩

/-- The graph is saved, and it is printed on one line and on many. -/
theorem unusualGraph_reads_back :
    (∀ n ∈ unusualGraph.integers, IsShort n) ∧
      (∀ text ∈ unusualGraph.texts, text.IsJoined) ∧
      Saves unusualGraph "out/graph.json" blankSession
        (saveGraph unusualGraph "out//graph.json" blankSession) ∧
      Prints unusualGraph blankSession (deliver unusualGraph none false blankSession) ∧
      Prints unusualGraph blankSession (deliver unusualGraph none true blankSession) := by
  have hshort : ∀ n ∈ unusualGraph.integers, IsShort n := by decide +kernel
  have hjoined : ∀ text ∈ unusualGraph.texts, text.IsJoined := by decide +kernel
  obtain ⟨hsaved, hprinted, -⟩ := exported_graphs_read_back hshort hjoined blankSession
  refine ⟨hshort, hjoined, ?_, hprinted false, hprinted true⟩
  have hpath : Path.tidy "out//graph.json" = "out/graph.json" := by decide +kernel
  rcases hpath ▸ hsaved "out//graph.json" with ⟨failure, tree, herror, -⟩ | hsaves
  · -- Saving is not blocked in an empty tree.
    have hok : (answer? (saveGraph unusualGraph "out//graph.json") blankSession).isSome = true := by
      decide +kernel
    rw [answer?, herror] at hok
    cases hok
  · exact hsaves

end Work

end RepoAtlas
