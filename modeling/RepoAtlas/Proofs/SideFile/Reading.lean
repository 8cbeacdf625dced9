import RepoAtlas.Proofs.Json.Integers
import RepoAtlas.Proofs.Outcome
import RepoAtlas.Proofs.Path.Spelling
import RepoAtlas.Proofs.SideFile.Links
import RepoAtlas.Proofs.Text.Ascii
import RepoAtlas.Proofs.Tree.Descent
import RepoAtlas.Settings
import RepoAtlas.SideFile.Modules
import RepoAtlas.SideFile.Packages

/-!
# `RepoAtlas.Proofs.SideFile.Reading`: what side files of any content lead to

Side files are looked for in several places. A file that cannot be read, that is malformed or that
holds null is passed over like one that is missing, and whatever other value is read first decides.
One content is not passed over: an integer with too many digits.

* `IsSilent`, `Tells`, `Overflows`: what a side file comes to, up to the limit on nesting.
* `exists_firstOf`: the places in order are all silent, or one of them ends the search.
* `readers_readFirst`: the packages, the modules and the links of a repository are made from the
  first side file that says anything, and reading fails exactly if an integer is too long before.

A step of the search is settled by what its place comes to. All results about the search go by
induction on the silent places in front (`first_append`).
-/

set_option autoImplicit false

namespace RepoAtlas.SideFile

open RepoAtlas.Path (below)

/-- The text of a file is read as JSON, with a value or an error. -/
def ReadsAs (tree : Tree) (path : String) (result : Except Json.ReadError Json) : Prop :=
  ∃ text, tree.readText path = .ok text ∧ Json.read text = result

/-- A side file that is passed over. -/
inductive IsSilent (tree : Tree) (path : String) : Prop
  /-- It is missing, cannot be read or is no UTF-8. -/
  | unreadable {fault : Tree.TextFault} (unread : tree.readText path = .error fault)
  /-- It is no JSON. -/
  | malformed {flaw : Json.Flaw} {offset : Nat}
    (reads : ReadsAs tree path (.error (.malformed flaw offset)))
  /-- It holds null. -/
  | null (reads : ReadsAs tree path (.ok .null))

/-- A side file that holds a value. -/
structure Tells (tree : Tree) (path : String) (value : Json) : Prop where
  reads : ReadsAs tree path (.ok value)
  ne_null : value ≠ .null

/-- A side file with an integer of too many digits. -/
def Overflows (tree : Tree) (path : String) (digits : Nat) : Prop :=
  ReadsAs tree path (.error (.integerTooLong digits))

/-- A side file that nests deeper than the reader goes. -/
def NestsTooDeep (tree : Tree) (path : String) : Prop :=
  ReadsAs tree path (.error .tooDeep)

instance (tree : Tree) (path : String) : Decidable (NestsTooDeep tree path) :=
  match htext : tree.readText path with
  | .error _ => isFalse fun ⟨_, hread, _⟩ => nomatch htext.symm.trans hread
  | .ok text =>
    match hvalue : Json.read text with
    | .error .tooDeep => isTrue ⟨text, htext, hvalue⟩
    | .error (.malformed _ _) | .error (.integerTooLong _) | .ok _ =>
      isFalse fun ⟨_, hread, hdeep⟩ => by
        cases htext.symm.trans hread
        cases hvalue.symm.trans hdeep

/-- Something holds of the first of several places that is not silent. -/
def FirstOf (tree : Tree) (root : String) (places : List String) (p : String → Prop) : Prop :=
  ∃ before place after, places = before ++ place :: after ∧
    (∀ earlier ∈ before, IsSilent tree (below root earlier)) ∧ p (below root place)

variable {tree : Tree} {root place path : String} {places : List String}

/-- What a side file comes to, if the reader goes deep enough. -/
theorem silent_or_tells_or_overflows (hdepth : ¬NestsTooDeep tree path) :
    IsSilent tree path ∨ (∃ value, Tells tree path value) ∨ ∃ digits, Overflows tree path digits := by
  cases htext : tree.readText path with
  | error fault => exact .inl (.unreadable htext)
  | ok text =>
    cases hread : Json.read text with
    | ok value =>
      by_cases hnull : value = .null
      · exact .inl (.null ⟨text, htext, hread.trans (congrArg _ hnull)⟩)
      · exact .inr (.inl ⟨value, ⟨text, htext, hread⟩, hnull⟩)
    | error fault =>
      -- What is no JSON counts as silent; a number too long or values too deep do not.
      cases fault with
      | malformed flaw offset => exact .inl (.malformed ⟨text, htext, hread⟩)
      | integerTooLong digits => exact .inr (.inr ⟨digits, text, htext, hread⟩)
      | tooDeep => exact absurd ⟨text, htext, hread⟩ hdepth

/-- Where no file is, there is nothing to read. -/
theorem isSilent_of_isFile_eq_false (h : tree.isFile path = false) : IsSilent tree path := by
  -- What is no file cannot be read: it is missing, or it is a directory.
  have hoctets : ∃ fault, tree.readOctets path = .error fault := by
    unfold Tree.isFile at h
    unfold Tree.readOctets
    cases hfind : tree.find path with
    | error fault => exact ⟨fault, rfl⟩
    | ok entry =>
      rw [hfind] at h
      cases entry with
      | file content => cases h
      | directory => exact ⟨.isDirectory, rfl⟩
      | link target => exact ⟨.isDirectory, rfl⟩
  obtain ⟨fault, hoctets⟩ := hoctets
  have hunread : tree.readText path = .error (.system fault) := by
    unfold Tree.readText
    rw [hoctets]
  exact .unreadable hunread

/-! ### One place -/

section

variable (hnull : Path.hasNull (below root place) = false)

include hnull

/-- A silent file is passed over. -/
theorem first_of_silent (h : IsSilent tree (below root place)) :
    (first tree root (place :: places)).outcome = (first tree root places).outcome := by
  have hnull' : ¬Path.hasNull (below root place) = true := by simp [hnull]
  rw [first, Traced.outcome_bind, Traced.ofExcept, read, if_neg hnull']
  cases h with
  | unreadable hunread =>
    rw [hunread]
    -- What is there and cannot be read is noted, unlike what is missing. Neither ends the search.
    cases ‹Tree.TextFault› with
    | malformed offset octets fault => rfl
    | system fault => cases fault <;> rfl
  | malformed hreads =>
    obtain ⟨text, htext, hread⟩ := hreads
    rw [htext]
    simp only [hread]
    rfl
  | null hreads =>
    obtain ⟨text, htext, hread⟩ := hreads
    rw [htext]
    simp only [hread]
    rfl

/-- A file that tells something ends the search. -/
theorem first_of_tells {value : Json} (h : Tells tree (below root place) value) :
    (first tree root (place :: places)).outcome = .ok (some value) := by
  have hnull' : ¬Path.hasNull (below root place) = true := by simp [hnull]
  obtain ⟨text, htext, hread⟩ := h.reads
  have hvalue := h.ne_null
  rw [first, Traced.outcome_bind, Traced.ofExcept, read, if_neg hnull', htext]
  simp only [hread]
  cases value with
  | null => exact absurd rfl hvalue
  | _ => rfl

/-- A number with too many digits makes the search fail. -/
theorem first_of_overflows {digits : Nat} (h : Overflows tree (below root place) digits) :
    (first tree root (place :: places)).outcome = .error (.integerTooLong digits) := by
  have hnull' : ¬Path.hasNull (below root place) = true := by simp [hnull]
  obtain ⟨text, htext, hread⟩ := h
  rw [first, Traced.outcome_bind, Traced.ofExcept, read, if_neg hnull', htext]
  simp only [hread]
  rfl

end

/-! ### Places in order -/

/-- Silent places in front make no difference. -/
theorem first_append {before after : List String}
    (hnulls : ∀ place ∈ before, Path.hasNull (below root place) = false)
    (hsilent : ∀ place ∈ before, IsSilent tree (below root place)) :
    (first tree root (before ++ after)).outcome = (first tree root after).outcome := by
  induction before with
  | nil => rfl
  | cons place rest ih =>
    obtain ⟨hnull, hnulls⟩ := List.forall_mem_cons.mp hnulls
    obtain ⟨hplace, hsilent⟩ := List.forall_mem_cons.mp hsilent
    rw [List.cons_append, first_of_silent hnull hplace]
    exact ih hnulls hsilent

/-- A search over silent places ends without a value. -/
theorem first_of_all_silent (hnulls : ∀ place ∈ places, Path.hasNull (below root place) = false)
    (hsilent : ∀ place ∈ places, IsSilent tree (below root place)) :
    (first tree root places).outcome = .ok none := by
  rw [← List.append_nil places, first_append hnulls hsilent]
  rfl

/-- A search ends at the first place that is not silent. -/
theorem first_of_firstOf {p : String → Prop}
    (hnulls : ∀ place ∈ places, Path.hasNull (below root place) = false)
    (h : FirstOf tree root places p) :
    ∃ place after, Path.hasNull (below root place) = false ∧ p (below root place) ∧
      (first tree root places).outcome = (first tree root (place :: after)).outcome := by
  obtain ⟨before, place, after, rfl, hsilent, hp⟩ := h
  exact ⟨place, after, hnulls place (by simp), hp,
    first_append (fun earlier hearlier => hnulls earlier (by simp [hearlier])) hsilent⟩

/-- The places are all silent, or the first one that is not ends the search. -/
theorem exists_firstOf (hdepth : ∀ place ∈ places, ¬NestsTooDeep tree (below root place)) :
    (∀ place ∈ places, IsSilent tree (below root place)) ∨
    (∃ value, FirstOf tree root places (Tells tree · value)) ∨
    ∃ digits, FirstOf tree root places (Overflows tree · digits) := by
  induction places with
  | nil => exact .inl (List.forall_mem_nil _)
  | cons place rest ih =>
    obtain ⟨hplace, hrest⟩ := List.forall_mem_cons.mp hdepth
    rcases silent_or_tells_or_overflows hplace with hsilent | ⟨value, htells⟩ | ⟨digits, hlong⟩
    · -- A silent place only comes in front of what the later ones lead to.
      have hfront : ∀ {p : String → Prop}, FirstOf tree root rest p →
          FirstOf tree root (place :: rest) p := by
        rintro p ⟨before, ending, after, rfl, hbefore, hp⟩
        exact ⟨place :: before, ending, after, rfl, List.forall_mem_cons.mpr ⟨hsilent, hbefore⟩, hp⟩
      rcases ih hrest with hall | ⟨value, h⟩ | ⟨digits, h⟩
      · exact .inl (List.forall_mem_cons.mpr ⟨hsilent, hall⟩)
      · exact .inr (.inl ⟨value, hfront h⟩)
      · exact .inr (.inr ⟨digits, hfront h⟩)
    · exact .inr (.inl ⟨value, [], place, rest, rfl, List.forall_mem_nil _, htells⟩)
    · exact .inr (.inr ⟨digits, [], place, rest, rfl, List.forall_mem_nil _, hlong⟩)

/-! ### Readers -/

/-- A reader makes its result from the first side file that says anything, or gives the result for
none, and fails only for an integer that is too long. -/
structure ReadsFirst {α : Type} (tree : Tree) (root : String) (places : List String)
    (reader : Traced α) (ofContent : Json → α) (nothing : α) : Prop where
  tells : ∀ value, FirstOf tree root places (Tells tree · value) →
    reader.outcome = .ok (ofContent value)
  silent : (∀ place ∈ places, IsSilent tree (below root place)) → reader.outcome = .ok nothing
  fails : ∀ failure, reader.outcome = .error failure ↔
    ∃ digits, failure = .integerTooLong digits ∧ FirstOf tree root places (Overflows tree · digits)

/-- A reader that goes by the first content reads the first file that is not silent. -/
theorem readsFirst {α : Type} (ofContent : Json → α) (nothing : α)
    (hnulls : ∀ place ∈ places, Path.hasNull (below root place) = false)
    (hdepth : ∀ place ∈ places, ¬NestsTooDeep tree (below root place)) :
    ReadsFirst tree root places (do
      let content ← first tree root places
      return (content.map ofContent).getD nothing) ofContent nothing := by
  have htells : ∀ value, FirstOf tree root places (Tells tree · value) →
      (first tree root places).outcome = .ok (some value) := by
    intro value h
    obtain ⟨place, after, hnull, hplace, hfirst⟩ := first_of_firstOf hnulls h
    rw [hfirst, first_of_tells hnull hplace]
  have hlong : ∀ digits, FirstOf tree root places (Overflows tree · digits) →
      (first tree root places).outcome = .error (.integerTooLong digits) := by
    intro digits h
    obtain ⟨place, after, hnull, hplace, hfirst⟩ := first_of_firstOf hnulls h
    rw [hfirst, first_of_overflows hnull hplace]
  have hsilent : (∀ place ∈ places, IsSilent tree (below root place)) →
      (first tree root places).outcome = .ok none := first_of_all_silent hnulls
  constructor
  case tells =>
    intro value h
    rw [Traced.outcome_bind, htells value h]
    rfl
  case silent =>
    intro h
    rw [Traced.outcome_bind, hsilent h]
    rfl
  case fails =>
    intro failure
    rw [Traced.outcome_bind]
    constructor
    · intro h
      -- Neither silent places nor one that says something make the search fail.
      rcases exists_firstOf hdepth with hall | ⟨value, hvalue⟩ | ⟨digits, hdigits⟩
      · rw [hsilent hall] at h
        cases h
      · rw [htells value hvalue] at h
        cases h
      · rw [hlong digits hdigits] at h
        cases h
        exact ⟨digits, rfl, hdigits⟩
    · rintro ⟨digits, rfl, hdigits⟩
      rw [hlong digits hdigits]
      rfl

/-- The side files of a repository are read by the same rule, whatever they hold: what can be read
first decides, what cannot be read is passed over, and an integer that is too long is the one thing
that makes a reader fail. -/
theorem readers_readFirst (hroot : Path.hasNull root = false)
    (hdepth : ∀ place ∈ "package.json" :: (Settings.usualModulesFiles ++ Settings.usualLinksFiles),
      ¬NestsTooDeep tree (below root place)) :
    ReadsFirst tree root ["package.json"] (packages tree root) packagesOf [] ∧
    ReadsFirst tree root Settings.usualModulesFiles
      (modules tree root Settings.usualModulesFiles) (modulesOf root) [] ∧
    ReadsFirst tree root Settings.usualLinksFiles
      (links tree root Settings.usualLinksFiles) linksOf [] := by
  have hnulls : ∀ place ∈ "package.json" :: (Settings.usualModulesFiles ++ Settings.usualLinksFiles),
      Path.hasNull (below root place) = false := by
    have hplaces : ∀ place ∈ "package.json" ::
        (Settings.usualModulesFiles ++ Settings.usualLinksFiles), Path.hasNull place = false := by
      decide
    exact fun place hplace => Path.hasNull_below hroot (hplaces place hplace)
  simp only [List.forall_mem_cons, List.forall_mem_append] at hnulls hdepth
  obtain ⟨hmanifest, hmodules, hlinks⟩ := hnulls
  obtain ⟨hmanifest', hmodules', hlinks'⟩ := hdepth
  exact ⟨readsFirst packagesOf [] (by simpa using hmanifest) (by simpa using hmanifest'),
    readsFirst (modulesOf root) [] hmodules hmodules', readsFirst linksOf [] hlinks hlinks'⟩

/-! ### Numbers that are too long -/

/-- More digits than an integer may have are an error of their own. -/
theorem read_ones {n : Nat} (hlong : Number.digitLimit < n) :
    Json.read (List.replicate n '1') = .error (.integerTooLong n) := by
  obtain ⟨m, rfl⟩ : ∃ m, n = m + 1 := ⟨n - 1, by omega⟩
  -- All digits belong to one number, and nothing follows them.
  have hends : Json.Ends [] := fun c hc => nomatch hc
  have hleading : Json.leadingDigits ('1' :: List.replicate m '1') = '1' :: List.replicate m '1' := by
    have hdigits : ∀ c ∈ List.replicate (m + 1) '1', c.isDigit = true := fun c hc => by
      rw [List.eq_of_mem_replicate hc]
      rfl
    rw [← List.replicate_succ]
    simpa using Json.leadingDigits_append hdigits hends
  have hnumber : Json.readNumber ⟨0, '1' :: List.replicate m '1'⟩
      = .error (.integerTooLong (m + 1)) := by
    have hafter : (List.replicate m '1').drop m = [] := by simp
    unfold Json.readNumber
    simp [hleading, hafter, Json.Place.drop, Json.fraction_of_ends hends,
      Json.exponent_of_ends hends, hlong]
  -- A reader of any depth comes to the number at once, with no mark or blank in front of it.
  have hblanks : Json.Place.skipBlanks ⟨0, '1' :: List.replicate m '1'⟩
      = ⟨0, '1' :: List.replicate m '1'⟩ := rfl
  have hvalue : ∀ fuel room, Json.readValue (fuel + 1) room ⟨0, '1' :: List.replicate m '1'⟩
      = .error (.integerTooLong (m + 1)) := by
    intro fuel room
    rw [← hnumber, ← Json.readAtom_of_number (.inl rfl)]
    rfl
  have hmark : ('1' :: List.replicate m '1').head? ≠ some (Char.ofNat 0xFEFF) := by
    simp
  rw [List.replicate_succ]
  unfold Json.read
  rw [if_neg hmark, hblanks, hvalue]
  rfl

/-- A repository whose manifest is one number, with more digits than an integer may have, and in
which such a number stands in front of a file with modules. -/
def longNumberTree : Tree where
  entries := [
    (["r"], .directory),
    (["r", "package.json"], .file (Text.Utf8.encode (String.ofList (List.replicate 4301 '1')))),
    (["r", "data"], .directory),
    (["r", "data", "modules.json"],
      .file (Text.Utf8.encode (String.ofList (List.replicate 4301 '1')))),
    (["r", "modules.json"], .file "[\x7b\"id\": \"a\"\x7d]".toUTF8.toList)]
  distinct := by decide

/-- A file of 4301 digits overflows. -/
theorem overflows_longNumberTree {place : Place} (hlocate : longNumberTree.locate path = .ok place)
    (hentry : longNumberTree.entry? place
      = some (.file (Text.Utf8.encode (String.ofList (List.replicate 4301 '1'))))) :
    Overflows longNumberTree path 4301 := by
  have hplain : ∀ c ∈ (String.ofList (List.replicate 4301 '1')).toList, Text.IsPlain c := by
    intro c hc
    rw [String.toList_ofList] at hc
    rw [List.eq_of_mem_replicate hc]
    decide
  refine ⟨List.replicate 4301 '1', ?_, read_ones (by decide)⟩
  rw [← String.toList_ofList (l := List.replicate 4301 '1')]
  exact Tree.readText_of_plain hplain (Tree.readOctets_eq_ok_iff.mpr ⟨place, hlocate, hentry⟩)

/-- Readers fail on numbers that are too long, also where another file would be next. -/
theorem readers_longNumberTree :
    (packages longNumberTree "/r").outcome = .error (.integerTooLong 4301) ∧
    (modules longNumberTree "/r" Settings.usualModulesFiles).outcome
      = .error (.integerTooLong 4301) := by
  have hlocate : longNumberTree.locate (below "/r" "package.json") = .ok ["r", "package.json"] := by
    decide +kernel
  have hlocate' : longNumberTree.locate (below "/r" "data/modules.json")
      = .ok ["r", "data", "modules.json"] := by decide +kernel
  -- Both files hold the number alone.
  have hmanifest := overflows_longNumberTree hlocate rfl
  have hmodules := overflows_longNumberTree hlocate' rfl
  constructor
  · unfold packages
    rw [Traced.outcome_bind, first_of_overflows (by decide +kernel) hmanifest]
    rfl
  · unfold modules Settings.usualModulesFiles
    rw [Traced.outcome_bind, first_of_overflows (by decide +kernel) hmodules]
    rfl

/-- A repository in which a file that is no UTF-8 stands in front of a file with a link. -/
def brokenFileTree : Tree where
  entries := [
    (["r"], .directory),
    (["r", "package.json"], .directory),
    (["r", "data"], .directory),
    (["r", "data", "module-links.json"], .file [0xFF]),
    (["r", "module-links.json"], .file (Text.Utf8.encode (linksText [⟨"a", "b", ""⟩])))]
  distinct := by decide

/-- A directory and a file that is no UTF-8 are passed over. -/
theorem readers_brokenFileTree :
    (packages brokenFileTree "/r").outcome = .ok [] ∧
    (modules brokenFileTree "/r" Settings.usualModulesFiles).outcome = .ok [] ∧
    (links brokenFileTree "/r" Settings.usualLinksFiles).outcome = .ok [⟨"a", "b", ""⟩] := by
  obtain ⟨hpackages, hmodules, hlinks⟩ := @readers_readFirst brokenFileTree "/r"
    (by decide +kernel) (by decide +kernel)
  have hmanifest : brokenFileTree.readText (below "/r" "package.json")
      = .error (.system .isDirectory) := by decide +kernel
  have hmissing : ∀ path ∈ Settings.usualModulesFiles,
      brokenFileTree.readText (below "/r" path) = .error (.system .notFound) := by decide +kernel
  have hbroken : brokenFileTree.readText (below "/r" "data/module-links.json")
      = .error (.malformed 0 [0xFF] .invalidStart) := by decide +kernel
  -- The links file in the second place is read as it was written.
  have hread : ReadsAs brokenFileTree (below "/r" "module-links.json")
      (.ok (Module.Link.listToJson [⟨"a", "b", ""⟩])) := by
    have hjoined : Module.Link.IsJoined ⟨"a", "b", ""⟩ :=
      ⟨CodeText.isJoined_ofString _, CodeText.isJoined_ofString _, CodeText.isJoined_ofString _⟩
    have hfits := fits_listToJson (List.forall_mem_singleton.mpr hjoined)
    have hoctets := Tree.readOctets_eq_ok_iff.mpr
      ⟨["r", "module-links.json"], (by decide +kernel :
        brokenFileTree.locate (below "/r" "module-links.json") = .ok _), rfl⟩
    exact ⟨_, Tree.readText_of_plain (Json.isPlain_line hfits .indented) hoctets,
      Json.read_line hfits .indented⟩
  refine ⟨hpackages.silent (List.forall_mem_singleton.mpr (.unreadable hmanifest)),
    hmodules.silent fun path hpath => .unreadable (hmissing path hpath), ?_⟩
  have hends : ∀ link ∈ [(⟨"a", "b", ""⟩ : Module.Link)], NamesEnds link := by
    rintro link hlink
    cases List.mem_singleton.mp hlink
    exact ⟨by decide, by decide⟩
  rw [hlinks.tells _ ⟨["data/module-links.json"], "module-links.json", [], rfl,
    List.forall_mem_singleton.mpr (.unreadable hbroken), hread, nofun⟩, linksOf_listToJson hends]

end RepoAtlas.SideFile
