import RepoAtlas.Proofs.Path.Spelling
import RepoAtlas.Proofs.Session.Opening
import RepoAtlas.Settings.File

/-!
# `RepoAtlas.Proofs.Settings.Reading`: what settings of any content lead to

A file with settings makes settings, is at fault itself, or has a value in it that is at fault. Only
a fault of the file is one that a survey puts aside. Which of the three it is depends on the content
alone: on its being UTF-8 and YAML, on the root of the document, and on the values in it.

* `IsAccepted`, `IsRefused`, `Escapes`: the three kinds of contents. Every content is of one of them
  (`accepted_or_refused_or_escapes`).
* `ofDocument_failsUnless`: a mapping makes settings unless an integer in it has too many digits. Each
  step that asks for a text is a `FailsUnless`, and these compose.
* `loadSettings_spec`: loading settings comes to what the kind of the content says.
-/

set_option autoImplicit false

namespace RepoAtlas.Settings

open RepoAtlas.Text RepoAtlas.Yaml
open RepoAtlas.Work (outcome)
open RepoAtlas.Number (digitLimit digitCount)

/-! ### Texts -/

/-- The text that a content is, if it is UTF-8 throughout. -/
def textOfContent? (content : List UInt8) : Option (List Char) :=
  (Utf8.decode? content).map Tree.settleLines

/-- There is a first broken piece unless every piece is a character. -/
theorem firstBroken?_eq_none_iff {pieces : List Utf8.Piece} {offset : Nat} :
    Utf8.firstBroken? pieces offset = none ↔ pieces.all (·.char?.isSome) = true := by
  induction pieces generalizing offset with
  | nil => exact ⟨fun _ => rfl, fun _ => rfl⟩
  | cons piece rest ih =>
    cases piece with
    | char c => simpa [Utf8.firstBroken?, Utf8.Piece.char?] using ih
    | broken octets fault => simp [Utf8.firstBroken?, Utf8.Piece.char?]

/-- Where every piece is a character, nothing is replaced. -/
theorem map_char?_getD {pieces : List Utf8.Piece} (h : pieces.all (·.char?.isSome) = true) (c : Char) :
    pieces.map (fun piece => piece.char?.getD c) = pieces.filterMap Utf8.Piece.char? := by
  induction pieces with
  | nil => rfl
  | cons piece rest ih =>
    rw [List.all_cons, Bool.and_eq_true] at h
    obtain ⟨d, hd⟩ := Option.isSome_iff_exists.mp h.1
    rw [List.map_cons, List.filterMap_cons_some hd, ih h.2, hd]
    rfl

/-- A file is read as the text that its content is. -/
theorem readText_eq {tree : Tree} {path : String} {content : List UInt8}
    (hread : tree.readOctets path = .ok content) :
    (∃ text, textOfContent? content = some text ∧ tree.readText path = .ok text) ∨
    textOfContent? content = none ∧ ∃ fault, tree.readText path = .error fault := by
  unfold textOfContent? Utf8.decode? Tree.readText
  rw [hread]
  dsimp only
  by_cases hall : (Utf8.pieces content).all (·.char?.isSome) = true
  · -- With nothing to replace, decoding with replacements is decoding.
    rw [if_pos hall, firstBroken?_eq_none_iff.mpr hall, Utf8.decodeLossy, map_char?_getD hall]
    exact .inl ⟨_, rfl, rfl⟩
  · rw [if_neg hall]
    cases hbroken : Utf8.firstBroken? (Utf8.pieces content) 0 with
    | none => exact absurd (firstBroken?_eq_none_iff.mp hbroken) hall
    | some broken => exact .inr ⟨rfl, _, rfl⟩

/-! ### Documents -/

/-- An integer with too many digits to be written as a text. -/
def IsUnwritable (value : Value) : Prop :=
  ∃ n, value = .int n ∧ digitLimit < digitCount n.natAbs

/-- The values of a document that are asked for their texts. -/
def asked (document : Document) : List Value :=
  let scan := document.member "scan" document.root
  let places := document.member "overrides" document.root
  document.items (document.member "exclude_dirs" scan) ++
    document.items (document.member "composite_dirs" scan) ++
    document.items (document.member "extensions" scan) ++
    [document.member "modules_file" places, document.member "links_file" places]

/-- A computation that fails for an unwritable integer exactly if a condition is not met. -/
structure FailsUnless {α : Type} (p : Prop) (x : Except Settings.Fault α) : Prop where
  ok : p → ∃ a, x = .ok a
  error : ¬p → x = .error .integerTooLong

namespace FailsUnless

variable {α β : Type} {p q : Prop}

/-- A computation that has a result does not fail, where the condition is met. -/
theorem of_ok (h : p) (a : α) : FailsUnless p (Except.ok a) where
  ok _ := ⟨a, rfl⟩
  error hnot := absurd h hnot

/-- The condition may be put in other words. -/
theorem congr {x : Except Settings.Fault α} (hx : FailsUnless p x) (h : p ↔ q) :
    FailsUnless q x where
  ok hq := hx.ok (h.mpr hq)
  error hnot := hx.error (mt h.mp hnot)

/-- What is done with a result makes no difference. -/
theorem map {x : Except Settings.Fault α} (hx : FailsUnless p x) (f : α → β) :
    FailsUnless p (x >>= fun a => pure (f a)) where
  ok h := by
    obtain ⟨a, ha⟩ := hx.ok h
    exact ⟨f a, by rw [ha]; rfl⟩
  error h := by
    rw [hx.error h]
    rfl

/-- Two computations one after the other fail unless both conditions are met. The first to fail is
the one that is seen, but both fail alike. -/
theorem bind {x : Except Settings.Fault α} {next : α → Except Settings.Fault β}
    (hx : FailsUnless p x) (hnext : ∀ a, FailsUnless q (next a)) :
    FailsUnless (p ∧ q) (x >>= next) where
  ok h := by
    obtain ⟨a, ha⟩ := hx.ok h.1
    rw [ha]
    exact (hnext a).ok h.2
  error h := by
    -- Either the first one fails, or the first one succeeds and the second one fails.
    by_cases hp : p
    · obtain ⟨a, ha⟩ := hx.ok hp
      rw [ha]
      exact (hnext a).error fun hq => h ⟨hp, hq⟩
    · rw [hx.error hp]
      rfl

/-- A list of computations fails unless all conditions are met, by induction on the list. -/
theorem mapM {xs : List α} {f : α → Except Settings.Fault β} {p : α → Prop}
    (h : ∀ x, FailsUnless (p x) (f x)) : FailsUnless (∀ x ∈ xs, p x) (xs.mapM f) := by
  induction xs with
  | nil => exact of_ok (List.forall_mem_nil p) []
  | cons x rest ih =>
    rw [List.mapM_cons, List.forall_mem_cons]
    exact (h x).bind fun a => ih.map (a :: ·)

end FailsUnless

/-- A value that is asked for its text has one unless it is unwritable. -/
theorem textOf_failsUnless (value : Value) : FailsUnless (¬IsUnwritable value) (textOf value) := by
  -- Only integers have a limit; every other value has a text, or counts as none.
  cases value with
  | int n =>
    have hunwritable : IsUnwritable (.int n) ↔ digitLimit < digitCount n.natAbs := by
      unfold IsUnwritable
      simp
    rw [hunwritable]
    show FailsUnless _ ((integerText n).map some)
    unfold integerText
    by_cases hlong : digitLimit < digitCount n.natAbs
    · rw [if_pos hlong]
      exact ⟨fun h => absurd hlong h, fun _ => rfl⟩
    · rw [if_neg hlong]
      exact FailsUnless.of_ok hlong _
  | _ => exact FailsUnless.of_ok (fun ⟨_, heq, _⟩ => nomatch heq) _

/-- So has an item of a list; a truth value has a text of its own there. -/
theorem itemText_failsUnless (value : Value) : FailsUnless (¬IsUnwritable value) (itemText value) := by
  cases value with
  | bool value => exact FailsUnless.of_ok (fun ⟨_, heq, _⟩ => nomatch heq) _
  | _ => exact textOf_failsUnless _

/-- So has a list of the document, item by item. -/
theorem textsOf_failsUnless (document : Document) (value : Value) :
    FailsUnless (∀ item ∈ document.items value, ¬IsUnwritable item) (textsOf document value) := by
  -- A text and octets are no lists of the document, and none of their parts is asked.
  cases value with
  | str text => exact FailsUnless.of_ok (List.forall_mem_nil _) _
  | octets octets => exact FailsUnless.of_ok (List.forall_mem_nil _) _
  | _ => exact (FailsUnless.mapM itemText_failsUnless).map _

/-- The settings of a mapping are there unless a value that is asked for its text has none. -/
theorem ofDocument_failsUnless {document : Document} {members : List (NodeId × NodeId)}
    (hroot : document.root = .map members) :
    FailsUnless (∀ value ∈ asked document, ¬IsUnwritable value) (ofDocument document) := by
  have hlist := fun name => textsOf_failsUnless document
    (document.member name (document.member "scan" document.root))
  have hplace := fun name => textOf_failsUnless
    (document.member name (document.member "overrides" document.root))
  -- The steps are those of `ofDocument`, and so is their order.
  have hsteps := (hlist "exclude_dirs").bind fun excluded =>
    (hlist "composite_dirs").bind fun containers => (hlist "extensions").bind fun extensions =>
    (hplace "modules_file").bind fun modulesFile => (hplace "links_file").map fun linksFile =>
    ({ excluded, containers, extensions, modulesFile, linksFile } : Settings)
  have hall := hsteps.congr (q := ∀ value ∈ asked document, ¬IsUnwritable value) (by
    unfold asked
    simp only [List.forall_mem_append, List.forall_mem_cons, List.not_mem_nil, IsEmpty.forall_iff,
      implies_true, and_true, and_assoc])
  unfold ofDocument
  rw [hroot] at hall ⊢
  exact hall

/-- Without a mapping nothing is set, or the document is refused. -/
theorem ofDocument_of_no_mapping {document : Document}
    (hroot : ∀ members, document.root ≠ .map members) :
    ofDocument document = if document.root.isBlank then .ok {} else .error .noMapping := by
  unfold ofDocument
  dsimp only
  split
  · next members hmap => exact absurd hmap (hroot members)
  · rfl

/-! ### Contents -/

/-- A content is a text with something in it. -/
structure Contains (content : List UInt8) (text : List Char) : Prop where
  decodes : textOfContent? content = some text
  filled : text.all Text.isBlank = false

/-- Contents that make settings. -/
inductive IsAccepted (content : List UInt8) : Prop
  /-- There are only blanks. -/
  | blank {text : List Char} (decodes : textOfContent? content = some text)
    (blank : text.all Text.isBlank = true)
  /-- There is a mapping, and every value that is asked for its text has one. -/
  | mapping {text : List Char} {document : Document} {members : List (NodeId × NodeId)}
    (contains : Contains content text) (read : Document.read text = .ok document)
    (root : document.root = .map members) (writable : ∀ value ∈ asked document, ¬IsUnwritable value)
  /-- There is null or something else that counts as nothing, like zero or an empty list. -/
  | nothing {text : List Char} {document : Document} (contains : Contains content text)
    (read : Document.read text = .ok document) (root : ∀ members, document.root ≠ .map members)
    (blank : document.root.isBlank = true)

/-- Contents for which the file is at fault. -/
inductive IsRefused (content : List UInt8) : Prop
  /-- The octets are no UTF-8. -/
  | undecodable (undecodable : textOfContent? content = none)
  /-- The text is not YAML. -/
  | malformed {text : List Char} (contains : Contains content text)
    (read : Document.read text = .error .malformed)
  /-- There is something that is no mapping. -/
  | noMapping {text : List Char} {document : Document} (contains : Contains content text)
    (read : Document.read text = .ok document) (root : ∀ members, document.root ≠ .map members)
    (filled : document.root.isBlank = false)

/-- Contents for which a value in the file is at fault. -/
inductive Escapes (content : List UInt8) : Settings.Fault → Prop
  /-- A scalar has no value, a date that does not exist for one. -/
  | badValue {text : List Char} {fault : Yaml.Fault} (contains : Contains content text)
    (read : Document.read text = .error fault) (wellFormed : fault ≠ .malformed) :
    Escapes content (.badValue fault)
  /-- A value that is asked for its text is an integer with too many digits. -/
  | integerTooLong {text : List Char} {document : Document} {members : List (NodeId × NodeId)}
    (contains : Contains content text) (read : Document.read text = .ok document)
    (root : document.root = .map members)
    (unwritable : ¬∀ value ∈ asked document, ¬IsUnwritable value) :
    Escapes content .integerTooLong

/-- Every content is of one of the three kinds. -/
theorem accepted_or_refused_or_escapes (content : List UInt8) :
    IsAccepted content ∨ IsRefused content ∨ ∃ fault, Escapes content fault := by
  cases htext : textOfContent? content with
  | none => exact .inr (.inl (.undecodable htext))
  | some text =>
    cases hblank : text.all Text.isBlank with
    | true => exact .inl (.blank htext hblank)
    | false =>
      have hcontains : Contains content text := ⟨htext, hblank⟩
      cases hread : Document.read text with
      | error fault =>
        by_cases hmalformed : fault = .malformed
        · exact .inr (.inl (.malformed hcontains (hread.trans (congrArg _ hmalformed))))
        · exact .inr (.inr ⟨_, .badValue hcontains hread hmalformed⟩)
      | ok document =>
        -- A mapping is looked into; of all other documents only those count that are nothing.
        by_cases hmap : ∃ members, document.root = .map members
        · obtain ⟨members, hroot⟩ := hmap
          by_cases hwritable : ∀ value ∈ asked document, ¬IsUnwritable value
          · exact .inl (.mapping hcontains hread hroot hwritable)
          · exact .inr (.inr ⟨_, .integerTooLong hcontains hread hroot hwritable⟩)
        · have hroot : ∀ members, document.root ≠ .map members := not_exists.mp hmap
          cases hnothing : document.root.isBlank with
          | true => exact .inl (.nothing hcontains hread hroot hnothing)
          | false => exact .inr (.inl (.noMapping hcontains hread hroot hnothing))

section

variable {tree : Tree} {file : String} {content : List UInt8}
  (hoctets : tree.readOctets file = .ok content)

include hoctets

/-- The settings of a file are those of its text. -/
theorem ofFile_of_decodes {text : List Char} (h : textOfContent? content = some text) :
    ofFile tree file = ofText (Path.lastName file) text := by
  unfold ofFile
  rcases readText_eq hoctets with ⟨text', htext, hread⟩ | ⟨hnone, -⟩
  · rw [hread]
    -- Reading the file and decoding its content give the same text.
    cases h.symm.trans htext
    rfl
  · cases h.symm.trans hnone

/-- The settings of a file with something in it are those of its document. -/
theorem ofFile_of_contains {text : List Char} (h : Contains content text) :
    ofFile tree file =
      match Document.read text with
      | .ok document => ofDocument document
      | .error .malformed => .error (.unparsable (Path.lastName file))
      | .error fault => .error (.badValue fault) := by
  rw [ofFile_of_decodes hoctets h.decodes, ofText, h.filled]
  rfl

/-- Contents that are accepted make settings. -/
theorem ofFile_of_accepted (h : IsAccepted content) : ∃ settings, ofFile tree file = .ok settings := by
  cases h with
  | blank hdecodes hblank =>
    rw [ofFile_of_decodes hoctets hdecodes, ofText, if_pos hblank]
    exact ⟨_, rfl⟩
  | mapping hcontains hread hroot hwritable =>
    rw [ofFile_of_contains hoctets hcontains, hread]
    exact (ofDocument_failsUnless hroot).ok hwritable
  | nothing hcontains hread hroot hblank =>
    rw [ofFile_of_contains hoctets hcontains, hread]
    exact ⟨_, (ofDocument_of_no_mapping hroot).trans (if_pos hblank)⟩

/-- Contents that are refused put the file at fault. -/
theorem ofFile_of_refused (h : IsRefused content) :
    ∃ fault, fault.isFileFault = true ∧ ofFile tree file = .error fault := by
  -- Each way of being refused is a fault of the file: no text, no document, or no mapping.
  cases h with
  | undecodable hundecodable =>
    rcases readText_eq hoctets with ⟨text, htext, -⟩ | ⟨-, fault, hread⟩
    · cases htext.symm.trans hundecodable
    · unfold ofFile
      rw [hread]
      exact ⟨_, rfl, rfl⟩
  | malformed hcontains hread =>
    rw [ofFile_of_contains hoctets hcontains, hread]
    exact ⟨_, rfl, rfl⟩
  | noMapping hcontains hread hroot hfilled =>
    rw [ofFile_of_contains hoctets hcontains, hread]
    have hroot' := (ofDocument_of_no_mapping hroot).trans (if_neg (Bool.eq_false_iff.mp hfilled))
    exact ⟨_, rfl, hroot'⟩

/-- In all other contents a value is at fault, and not the file. -/
theorem ofFile_of_escapes {fault : Settings.Fault} (h : Escapes content fault) :
    fault.isFileFault = false ∧ ofFile tree file = .error fault := by
  cases h with
  | @badValue text fault hcontains hread hwellFormed =>
    rw [ofFile_of_contains hoctets hcontains, hread]
    cases fault with
    | malformed => exact absurd rfl hwellFormed
    | _ => exact ⟨rfl, rfl⟩
  | integerTooLong hcontains hread hroot hunwritable =>
    rw [ofFile_of_contains hoctets hcontains, hread]
    exact ⟨rfl, (ofDocument_failsUnless hroot).error hunwritable⟩

-- Every content is of some kind, so what is made of it also tells the kind.

/-- Only contents that are accepted make settings. -/
theorem exists_ofFile_eq_ok_iff :
    (∃ settings, ofFile tree file = .ok settings) ↔ IsAccepted content := by
  refine ⟨?_, ofFile_of_accepted hoctets⟩
  rintro ⟨settings, hmade⟩
  -- The content is of one of three kinds, and the other two make no settings.
  rcases accepted_or_refused_or_escapes content with haccepted | hrefused | ⟨fault, hfault⟩
  · exact haccepted
  · obtain ⟨fault, -, heq⟩ := ofFile_of_refused hoctets hrefused
    cases hmade.symm.trans heq
  · cases hmade.symm.trans (ofFile_of_escapes hoctets hfault).2

/-- Only contents that are refused put the file at fault. -/
theorem exists_fileFault_iff :
    (∃ fault, fault.isFileFault = true ∧ ofFile tree file = .error fault) ↔ IsRefused content := by
  refine ⟨?_, ofFile_of_refused hoctets⟩
  rintro ⟨fault, hfile, hmade⟩
  rcases accepted_or_refused_or_escapes content with haccepted | hrefused | ⟨other, hother⟩
  · obtain ⟨settings, heq⟩ := ofFile_of_accepted hoctets haccepted
    cases hmade.symm.trans heq
  · exact hrefused
  · obtain ⟨hvalue, heq⟩ := ofFile_of_escapes hoctets hother
    cases hmade.symm.trans heq
    exact absurd hfile (Bool.eq_false_iff.mp hvalue)

/-- A value is at fault only where the content says so, and with the failure that it says. -/
theorem valueFault_iff {fault : Settings.Fault} :
    fault.isFileFault = false ∧ ofFile tree file = .error fault ↔ Escapes content fault := by
  refine ⟨?_, ofFile_of_escapes hoctets⟩
  rintro ⟨hvalue, hmade⟩
  rcases accepted_or_refused_or_escapes content with haccepted | hrefused | ⟨other, hother⟩
  · obtain ⟨settings, heq⟩ := ofFile_of_accepted hoctets haccepted
    cases hmade.symm.trans heq
  · obtain ⟨other, hfile, heq⟩ := ofFile_of_refused hoctets hrefused
    cases hmade.symm.trans heq
    exact absurd hfile (Bool.eq_false_iff.mp hvalue)
  · cases hmade.symm.trans (ofFile_of_escapes hoctets hother).2
    exact hother

end

/-! ### Loading -/

/-- The file with settings that a path stands for is a regular file below a location, with a path
that the system takes. -/
structure Stands (s : Session) (path : String) (place : Place) (content : List UInt8) : Prop where
  file : outcome (Work.settingsFile path) s = .ok (Work.settingsText place)
  location : s.tree.IsLocation place
  entry : s.tree.entry? (place ++ [fileName]) = some (.file content)
  room : (Work.settingsText place).utf8ByteSize ≤ Tree.maxPath
  no_null : Path.hasNull (Tree.textOf place) = false

variable {s : Session} {path : String} {place : Place} {content : List UInt8}

/-- The directory of the file can be looked up by its path, which is shorter than that of the file.
-/
theorem Stands.find_place (h : Stands s path place content) :
    s.tree.find (Tree.textOf place) = .ok .directory := by
  -- The path of the file is the longer one, and the system takes it.
  have hroom : (Tree.textOf place).utf8ByteSize ≤ Tree.maxPath := by
    refine (Path.utf8ByteSize_le_join Work.isName_fileName).trans ?_
    rw [Tree.join_textOf h.location.names Work.isName_fileName]
    exact h.room
  refine Tree.find_eq_ok_iff.mpr ⟨place, ?_, h.location.entry?_eq⟩
  rw [h.location.locate_eq, if_neg (Nat.not_lt.mpr hroom)]

/-- Loading comes to what the file makes. -/
theorem Stands.outcome_eq (h : Stands s path place content) :
    ∃ file, s.tree.readOctets file = .ok content ∧
      outcome (Work.loadSettings path) s =
        match ofFile s.tree file with
        | .ok settings => .ok (Tree.textOf place, settings)
        | .error fault => .error (.settings fault) := by
  -- No link stands there that could lead to settings for another directory.
  have hlink : ∀ target, s.tree.entry? (place ++ [fileName]) ≠ some (.link target) :=
    fun target hentry => nomatch h.entry.symm.trans hentry
  have hfound := Work.find_settingsText h.location h.find_place hlink h.room
  rw [h.entry] at hfound
  refine ⟨Work.settingsText place, ?_, ?_⟩
  · unfold Tree.readOctets
    rw [hfound]
    rfl
  · rw [Work.outcome_loadSettings h.file h.location h.no_null hlink h.find_place h.room]
    unfold Work.settingsAt Tree.pathExists
    rw [hfound]
    rfl

/-- A file makes settings, is at fault itself, or has a value at fault, and its content tells
which. -/
theorem loadSettings_spec (h : Stands s path place content) :
    ((∃ settings, outcome (Work.loadSettings path) s = .ok (Tree.textOf place, settings)) ↔
      IsAccepted content) ∧
    ((∃ fault, fault.isFileFault = true ∧
      outcome (Work.loadSettings path) s = .error (.settings fault)) ↔ IsRefused content) ∧
    (∀ failure, (∀ fault, fault.isFileFault = true → failure ≠ .settings fault) →
      (outcome (Work.loadSettings path) s = .error failure ↔
        ∃ fault, failure = .settings fault ∧ Escapes content fault)) := by
  obtain ⟨file, hoctets, houtcome⟩ := h.outcome_eq
  -- All three statements are about what the file makes.
  rw [houtcome, ← exists_ofFile_eq_ok_iff hoctets, ← exists_fileFault_iff hoctets]
  simp only [← valueFault_iff hoctets]
  cases ofFile s.tree file with
  | ok settings => simp
  | error fault =>
    refine ⟨by simp, by simp, fun failure hfailure => ⟨fun heq => ?_, ?_⟩⟩
    · cases heq
      -- A failure that is no fault of the file is one of a value.
      exact ⟨fault, rfl, Bool.eq_false_iff.mpr fun hfile => hfailure fault hfile rfl, rfl⟩
    · rintro ⟨other, rfl, -, heq⟩
      cases heq
      rfl

/-- A repository with a file of settings. -/
def settingsSession (content : List UInt8) : Session where
  tree := {
    entries := [(["r"], .directory), (["r", fileName], .file content)]
    distinct := by simp [fileName] }
  directory := "/"
  now := ⟨2024, 1, 1, 0, 0, 0, 0⟩

/-- Two contents that are not taken as a fault of the file: a date that does not exist fails with an
error of its own, and an empty list is taken for no settings at all. -/
theorem loadSettings_of_stray_contents :
    outcome (Work.loadSettings "/r") (settingsSession (Utf8.encode "since: 2024-13-01\n"))
      = .error (.settings (.badValue (.dateRange "month must be in 1..12"))) ∧
    outcome (Work.loadSettings "/r") (settingsSession (Utf8.encode "[]\n")) = .ok ("/r", {}) := by
  constructor <;> decide +kernel

/-- A mapping, a list with something in it and a mapping with a date that does not exist are of the
three kinds. -/
theorem loadSettings_spec_of_kinds :
    IsAccepted (Utf8.encode "scan:\n  extensions: [rb]\n") ∧ IsRefused (Utf8.encode "- a\n") ∧
    Escapes (Utf8.encode "a: 2024-02-30\n")
      (.badValue (.dateRange "day is out of range for month")) := by
  -- The file is where the settings are looked for, with each of the three contents.
  have hmapping : Stands (settingsSession (Utf8.encode "scan:\n  extensions: [rb]\n")) "/r" ["r"]
      (Utf8.encode "scan:\n  extensions: [rb]\n") := by constructor <;> decide +kernel
  have hlist : Stands (settingsSession (Utf8.encode "- a\n")) "/r" ["r"] (Utf8.encode "- a\n") := by
    constructor <;> decide +kernel
  have hdate : Stands (settingsSession (Utf8.encode "a: 2024-02-30\n")) "/r" ["r"]
      (Utf8.encode "a: 2024-02-30\n") := by constructor <;> decide +kernel
  refine ⟨(loadSettings_spec hmapping).1.mp ⟨{ extensions := ["rb"] }, by decide +kernel⟩,
    (loadSettings_spec hlist).2.1.mp ⟨.noMapping, rfl, by decide +kernel⟩, ?_⟩
  obtain ⟨fault, heq, hfault⟩ := ((loadSettings_spec hdate).2.2 (.settings (.badValue (.dateRange
    "day is out of range for month"))) (by rintro fault hfile ⟨⟩; cases hfile)).mp (by decide +kernel)
  cases heq
  exact hfault

end RepoAtlas.Settings
