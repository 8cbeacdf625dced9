import RepoAtlas.Proofs.Module.Counters
import RepoAtlas.Proofs.Naming.Identifier
import RepoAtlas.Proofs.Number.Arithmetic
import RepoAtlas.Proofs.Path.Normal
import RepoAtlas.Proofs.SideFile.Links
import RepoAtlas.SideFile.Modules

/-!
# `RepoAtlas.Proofs.SideFile.Modules`: every object makes a valid manual module

Nothing in a file with manual modules is refused. A value that lists no entries makes no modules, an
entry that is no object makes none, and every other entry makes one, whatever its members are. What
a member must be to count is said about the JSON value (`AreTextsOf`, `IsWhole`), and what a module
takes over from its entry about both (`IsModuleOf`).

* `counter?_eq_some_iff`: which numbers are counters.
* `areTextsOf_texts`: which texts a list takes over.
* `isModuleOf_moduleOf`: every entry makes a module that fits it.
* `modules_fit_entries`: what this says of the file that is read.
-/

set_option autoImplicit false

namespace RepoAtlas.SideFile

open RepoAtlas.Module
open RepoAtlas.Path (IsNormal resolveUnder)

/-! ### Values of members -/

/-- A JSON value that is a whole number. -/
inductive IsWhole : Json → Int → Prop
  | int (n : Int) : IsWhole (.int n) n
  | float {x : Number.Binary64} {n : Int} (h : x.toRat? = some (n : Rat)) : IsWhole (.float x) n

/-- A counter is a whole number that is not negative, however it is written. -/
theorem counter?_eq_some_iff {value : Json} {n : Int} :
    counter? value = some n ↔ 0 ≤ n ∧ IsWhole value n := by
  cases value with
  | int m =>
    show (if 0 ≤ m then some m else none) = some n ↔ _
    constructor
    · intro h
      split at h
      · next hm =>
        cases h
        exact ⟨hm, .int n⟩
      · cases h
    · rintro ⟨hn, ⟨⟩⟩
      rw [if_pos hn]
  | float x =>
    show x.toInt?.filter _ = some n ↔ _
    -- That a double is whole is asked before its sign: both zeros are the same whole number.
    rw [Option.filter_eq_some_iff, decide_eq_true_eq, Number.Binary64.toInt?_eq_some_iff, and_comm]
    exact and_congr_right fun _ => ⟨.float, fun | .float h => h⟩
  | _ => exact iff_of_false (fun h => nomatch h) fun h => nomatch h.2

/-- A text with something in it. -/
def isFilled : Json → Bool
  | .str text => text ≠ ""
  | _ => false

/-- The texts with something in them of what may be an array, in order. -/
structure AreTextsOf (value : Option Json) (texts : List CodeText) : Prop where
  ne_empty : ∀ text ∈ texts, text ≠ ""
  items : texts.map Json.str = ((value.bind Json.arr?).getD []).filter isFilled

/-- The strings of a list that are not empty, taken out before or after. -/
theorem map_str_filled (items : List Json) :
    ((items.filterMap Json.str?).filter (· ≠ ("" : CodeText))).map Json.str
      = items.filter isFilled := by
  induction items with
  | nil => rfl
  | cons item rest ih =>
    cases item with
    | str text =>
      by_cases hempty : text = ("" : CodeText)
      · simpa [isFilled, Json.str?, hempty] using ih
      · simpa [isFilled, Json.str?, hempty] using ih
    | _ => rw [List.filterMap_cons_none rfl, ih, List.filter_cons_of_neg Bool.false_ne_true]

/-- The texts of a field are its strings with something in them. -/
theorem areTextsOf_texts (value : Option Json) : AreTextsOf value (texts value) := by
  cases value with
  | none => exact ⟨List.forall_mem_nil _, rfl⟩
  | some value =>
    cases value with
    | arr items =>
      refine ⟨fun text htext => ?_, map_str_filled items⟩
      simpa using (List.mem_filter.mp htext).2
    | _ => exact ⟨List.forall_mem_nil _, rfl⟩

/-! ### Modules of entries -/

/-- A member is a text with something in it. -/
def HasText (entry : Json) (name text : CodeText) : Prop :=
  entry.member? name = some (.str text) ∧ text ≠ ""

/-- The member that gives a counter. -/
def counterName : Counter → String
  | .files => "fileCount"
  | .lines => "lineCount"
  | .debt => "todoCount"
  | .tests => "testFileCount"

/-- A valid module, as an entry makes it in a repository. -/
structure IsModuleOf (root : String) (entry : Json) (m : ManualModule) : Prop where
  id_ne_empty : m.id ≠ ""
  name_ne_empty : m.name ≠ ""
  kind_ne_empty : m.kind ≠ ""
  id_given : ∀ id, HasText entry "id" id → m.id = id
  name_given : ∀ name, HasText entry "name" name → m.name = name
  kind_given : ∀ kind, HasText entry "type" kind → m.kind = kind
  roots_normal : ∀ path ∈ m.roots, Path.isAbsolute path = true ∧ IsNormal path
  /-- One path is the only root. -/
  root_given : ∀ path, HasText entry "path" path → m.roots = [resolveUnder root path.toPath]
  /-- Several paths only count without the one. -/
  roots_given : (∀ path, ¬HasText entry "path" path) →
    ∃ paths, AreTextsOf (entry.member? "rootPaths") paths ∧
      m.roots = paths.map fun path => resolveUnder root path.toPath
  dependencies : AreTextsOf (entry.member? "dependencies") m.dependencies
  packages : AreTextsOf (entry.member? "externalDependencies") m.packages
  frameworks : AreTextsOf (entry.member? "frameworks") m.frameworks
  counters : ∀ counter n, m.metrics.get counter = some n ↔
    0 ≤ n ∧ ∃ value, entry.member? (counterName counter) = some value ∧ IsWhole value n

/-- A text that is given, or else one that is not empty, is not empty. -/
theorem filledText?_getD_ne_empty (entry : Json) (name : CodeText) {other : CodeText}
    (h : other ≠ "") : (filledText? entry name).getD other ≠ "" := by
  cases htext : filledText? entry name with
  | none => exact h
  | some text => exact (filledText?_eq_some_iff.mp htext).2

/-- A text in a field is found there. -/
theorem filledText?_of_hasText {entry : Json} {name text : CodeText} (h : HasText entry name text) :
    filledText? entry name = some text :=
  filledText?_eq_some_iff.mpr h

/-- A module has an id: one that is given, or one made of its name. -/
theorem idOf_ne_empty (entry : Json) : idOf entry ≠ "" :=
  filledText?_getD_ne_empty entry "id"
    -- Without an id, the name is made into one, and what is made of a name is never empty.
    (mt CodeText.ofString_inj.mp (Naming.sanitize_ne_empty
      (CodeText.nulled_ne_empty (filledText?_getD_ne_empty entry "name" (by decide)))))

/-- What is resolved is in normal form. -/
theorem isNormal_resolveUnder (root path : String) : IsNormal (resolveUnder root path) := by
  unfold resolveUnder
  split <;> exact Path.normalize_normalize _

/-- An entry is read as the module that it describes. -/
theorem isModuleOf_moduleOf (root : String) (entry : Json) :
    IsModuleOf root entry (moduleOf root entry) where
  id_ne_empty := idOf_ne_empty entry
  name_ne_empty := filledText?_getD_ne_empty entry "name" (idOf_ne_empty entry)
  kind_ne_empty := filledText?_getD_ne_empty entry "type" (by decide)
  id_given id h := by
    show idOf entry = id
    rw [idOf, filledText?_of_hasText h, Option.getD_some]
  name_given name h := by
    show (filledText? entry "name").getD _ = name
    rw [filledText?_of_hasText h, Option.getD_some]
  kind_given kind h := by
    show (filledText? entry "type").getD _ = kind
    rw [filledText?_of_hasText h, Option.getD_some]
  roots_normal path h := by
    obtain ⟨given, -, rfl⟩ := List.mem_map.mp h
    have hnormal := isNormal_resolveUnder root given.toPath
    exact ⟨hnormal.isAbsolute, hnormal⟩
  root_given path h := by
    show rootsOf root entry = _
    unfold rootsOf
    rw [filledText?_of_hasText h]
    rfl
  roots_given h := by
    refine ⟨_, areTextsOf_texts _, ?_⟩
    have hnone : filledText? entry "path" = none := by
      cases hpath : filledText? entry "path" with
      | none => rfl
      | some path => exact absurd (filledText?_eq_some_iff.mp hpath) (h path)
    show rootsOf root entry = _
    unfold rootsOf
    rw [hnone]
  dependencies := areTextsOf_texts _
  packages := areTextsOf_texts _
  frameworks := areTextsOf_texts _
  counters counter n := by
    -- The metrics of a module are a record, so each of the four is looked at by its name.
    have hget : (moduleOf root entry).metrics.get counter
        = counterOf entry (counterName counter) := by
      cases counter <;> rfl
    rw [hget, counterOf, Option.bind_eq_bind, Option.bind_eq_some_iff]
    simp only [counter?_eq_some_iff, ← exists_and_left, and_left_comm]

/-! ### Modules of a file -/

/-- What is read lists entries: as an array, or as an object with such a member. What does neither
lists none. -/
inductive Lists : Option Json → List Json → Prop
  | bare (entries : List Json) : Lists (some (.arr entries)) entries
  | wrapped {value : Json} {entries : List Json}
    (h : value.member? "modules" = some (.arr entries)) : Lists (some value) entries
  | neither {content : Option Json} (bare : ∀ entries, content ≠ some (.arr entries))
    (wrapped : ∀ entries, content.bind (Json.member? "modules") ≠ some (.arr entries)) :
    Lists content []

/-- What is read always lists entries, and every object among them makes a module. -/
theorem exists_lists (root : String) (content : Option Json) :
    ∃ entries, Lists content entries ∧
      (content.map (modulesOf root)).getD [] = (entries.filter isObject).map (moduleOf root) := by
  cases content with
  | none => exact ⟨[], .neither (by simp) (by simp), rfl⟩
  | some value =>
    cases value with
    | arr entries => exact ⟨entries, .bare entries, rfl⟩
    | obj members =>
      -- An object goes by one member, and lists nothing unless that is an array.
      cases hlookup : members.lookup ("modules" : CodeText) with
      | none =>
        exact ⟨[], .neither (by simp) (by simp [Json.member?, hlookup]),
          by simp [modulesOf, entriesOf, Json.member?, hlookup]⟩
      | some value =>
        cases value with
        | arr entries =>
          exact ⟨entries, .wrapped hlookup, by simp [modulesOf, entriesOf, Json.member?, hlookup]⟩
        | _ =>
          exact ⟨[], .neither (by simp) (by simp [Json.member?, hlookup]),
            by simp [modulesOf, entriesOf, Json.member?, hlookup]⟩
    | _ => exact ⟨[], .neither (by simp) (by simp [Json.member?]), rfl⟩

variable {tree : Tree} {root : String} {places : List String}

/-- The modules of a repository are what the entries of the file make that is read, one module for
each object, in order, and all of them are valid. -/
theorem modules_fit_entries {content : Option Json}
    (h : (first tree root places).outcome = .ok content) :
    ∃ entries made, Lists content entries ∧
      (SideFile.modules tree root places).outcome = .ok made ∧
      List.Forall₂ (IsModuleOf root) (entries.filter isObject) made := by
  obtain ⟨entries, hlists, hmade⟩ := exists_lists root content
  refine ⟨entries, _, hlists, ?_, List.forall₂_map_right_iff.mpr
    (List.forall₂_same.mpr fun entry _ => isModuleOf_moduleOf root entry)⟩
  rw [← hmade]
  exact Traced.outcome_bind_eq_ok_iff.mpr ⟨content, h, rfl⟩

/-- A repository with a file in which one entry is no object and most members are not what they
should be. -/
def unevenModulesTree : Tree where
  entries := [
    (["r"], .directory),
    (["r", "modules.json"], .file ("[\x7b\"id\": \"\", \"name\": \"My App\", \"path\": \"\", " ++
      "\"rootPaths\": [\"a/../b\", 3, \"\"], \"fileCount\": 12.0, \"todoCount\": -0.0, " ++
      "\"testFileCount\": 2.5\x7d, 7, \x7b\"path\": \"x\", \"fileCount\": NaN, " ++
      "\"lineCount\": 100000000000000000000\x7d]").toUTF8.toList)]
  distinct := by decide

/-- The modules that it makes: a double counts if it is whole, and a name makes an identifier. -/
def unevenModules : List ManualModule :=
  [{ id := "my-app", name := "My App", roots := ["/r/b"],
      metrics := ⟨some 12, none, some 0, none⟩ },
    { id := "custom-module", name := "custom-module", roots := ["/r/x"],
      metrics := ⟨none, some 100000000000000000000, none, none⟩ }]

/-- Entries with uneven fields, entries that are empty and entries that are no objects at all are
read as the modules that they describe. -/
theorem modules_unevenModulesTree_fit_entries :
    ∃ content, (first unevenModulesTree "/r" ["modules.json"]).outcome = .ok content ∧
      ∃ entries, Lists content entries ∧
        (SideFile.modules unevenModulesTree "/r" ["modules.json"]).outcome = .ok unevenModules ∧
        List.Forall₂ (IsModuleOf "/r") (entries.filter isObject) unevenModules := by
  have hmade : (SideFile.modules unevenModulesTree "/r" ["modules.json"]).outcome
      = .ok unevenModules := by
    have hsome : (SideFile.modules unevenModulesTree "/r" ["modules.json"]).outcome.toOption
        = some unevenModules := by decide +kernel
    cases houtcome : (SideFile.modules unevenModulesTree "/r" ["modules.json"]).outcome with
    | error failure => rw [houtcome] at hsome; cases hsome
    | ok made => rw [houtcome] at hsome; exact congrArg _ (Option.some.inj hsome)
  obtain ⟨content, hcontent, -⟩ := Traced.outcome_bind_eq_ok_iff.mp hmade
  obtain ⟨entries, made, hlists, hmade', hfit⟩ := modules_fit_entries hcontent
  cases hmade.symm.trans hmade'
  exact ⟨content, hcontent, entries, hlists, hmade, hfit⟩

end RepoAtlas.SideFile
