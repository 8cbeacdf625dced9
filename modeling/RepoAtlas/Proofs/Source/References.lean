import RepoAtlas.Proofs.Arrival
import RepoAtlas.Proofs.Source.Scanning

/-!
# `RepoAtlas.Proofs.Source.References`: what becomes of the specifiers

The specifiers that the forms find in a text are sorted one after the other. A relative one is kept
as it is, one that names a module of the host is dropped, and of any other the part before the first
slash is kept, as the name of a package.

* `foldl_add`: what sorting a series of specifiers adds.
* `references_eq`: the references of a text, from the matches of the forms.
* `isPackageName_packageRoot_iff`: the part before the slash need not name a package. It may be
  empty, or name a module of the host that the whole specifier does not name.
* `forall_isPackageName_iff`: the texts whose packages all have the name of a package.
-/

set_option autoImplicit false

namespace RepoAtlas.Source

/-- Whether a specifier is neither relative nor names a module of the host. -/
def isForeign (specifier : String) : Bool :=
  !isRelative specifier && !isHostModule specifier

/-- What is foreign is neither relative nor a module of the host. -/
theorem isForeign_iff {specifier : String} :
    isForeign specifier = true ↔ isRelative specifier = false ∧ isHostModule specifier = false := by
  unfold isForeign
  rw [Bool.and_eq_true, Bool.not_eq_true', Bool.not_eq_true']

/-! ### Specifiers -/

/-- A specifier is found in a part of the text that is of one of the forms. -/
theorem exists_parts_of_mem_specifiers {text : List Char} {specifier : String}
    (h : specifier ∈ specifiers text) : ∃ form ∈ forms, ∃ parts before after,
      Parts.IsOf parts form ∧ text = before ++ (form.assemble parts ++ after) ∧
        specifier = String.ofList parts.specifier := by
  obtain ⟨form, hform, h⟩ := List.mem_flatMap.mp h
  obtain ⟨captured, hcaptured, rfl⟩ := List.mem_map.mp h
  have hplain := isPlain_of_mem_forms hform
  obtain ⟨occurrences, hfinds, hscan⟩ := exists_finds hplain text
  rw [hscan] at hcaptured
  obtain ⟨o, ho, rfl⟩ := List.mem_map.mp hcaptured
  obtain ⟨parts, before, after, hparts, htext, hspecifier⟩ := (hfinds.isOf o ho).exists_parts hplain
  exact ⟨form, hform, parts, before, after, hparts, htext, by rw [hspecifier]⟩

/-- In a text of one of the forms a specifier is found. -/
theorem exists_mem_specifiers {form : Form} (hform : form ∈ forms) {text : List Char}
    (h : form.Describes text) : ∃ specifier, specifier ∈ specifiers text := by
  obtain ⟨occurrences, hfinds, hscan⟩ := exists_finds (isPlain_of_mem_forms hform) text
  obtain ⟨o, ho, -⟩ := hfinds.complete 0 text (Nat.le_refl 0) h List.prefix_rfl
  exact ⟨_, List.mem_flatMap.mpr ⟨form, hform,
    List.mem_map_of_mem (hscan ▸ List.mem_map_of_mem ho)⟩⟩

/-! ### Sorting -/

/-- What sorting a series of specifiers adds. -/
theorem foldl_add (refs : References) (specifiers : List String) :
    specifiers.foldl References.add refs =
      ⟨refs.relative.insertMany (specifiers.filter isRelative),
        refs.packages.insertMany ((specifiers.filter isForeign).map packageRoot)⟩ := by
  induction specifiers generalizing refs with
  | nil => rfl
  | cons specifier rest ih =>
    rw [List.foldl_cons, ih, List.filter_cons, List.filter_cons]
    unfold References.add isForeign
    -- A specifier goes into the one set, or the other, or neither.
    by_cases hrelative : isRelative specifier = true
    · simp [hrelative, OrderedSet.insertMany]
    · by_cases hhost : isHostModule specifier = true
      · simp [hrelative, hhost]
      · simp [hrelative, hhost, OrderedSet.insertMany]

/-- The references of a text are those of its specifiers. -/
theorem references_eq_ofList (text : List Char) :
    references text = ⟨.ofList ((specifiers text).filter isRelative),
      .ofList (((specifiers text).filter isForeign).map packageRoot)⟩ :=
  foldl_add _ _

/-- The specifiers of a text are those of the matches of each form. Each is relative, and kept;
or else of the host, and dropped; or else it counts for the package before its first slash. What is
kept stays in the order in which it is found, without repetition. -/
theorem references_eq (text : List Char) :
    (∀ form ∈ forms, ∃ occurrences, form.Finds text 0 occurrences ∧
      form.scan text = occurrences.map Occurrence.specifier) ∧
    specifiers text = forms.flatMap (fun form => (form.scan text).map String.ofList) ∧
    (references text).relative.toList = ((specifiers text).filter isRelative).eraseDups ∧
    (references text).packages.toList =
      (((specifiers text).filter isForeign).map packageRoot).eraseDups := by
  refine ⟨fun form hform => exists_finds (isPlain_of_mem_forms hform) text, rfl, ?_, ?_⟩
  · rw [references_eq_ofList, OrderedSet.toList_ofList]
  · rw [references_eq_ofList, OrderedSet.toList_ofList]

/-! ### Names of packages -/

/-- A text that can name a package: it is not empty, leads nowhere below, and is neither relative
nor a module of the host. -/
structure IsPackageName (name : String) : Prop where
  filled : name ≠ ""
  flat : '/' ∉ name.toList
  foreign : isForeign name = true

/-- A specifier that starts at the root, or below a module of the host. -/
inductive Strays (specifier : String) : Prop
  | absolute {rest : List Char} (h : specifier.toList = '/' :: rest)
  | belowHost {host : String} {rest : List Char} (hhost : host ∈ hostModules)
      (h : specifier.toList = host.toList ++ '/' :: rest)

variable {specifier : String}

/-- The root of a package is what comes before the first slash. -/
theorem toList_packageRoot (specifier : String) :
    (packageRoot specifier).toList = specifier.toList.takeWhile (· ≠ '/') :=
  String.toList_ofList

/-- A specifier is the part before its first slash, or goes on after it. -/
theorem packageRoot_cases (specifier : String) :
    packageRoot specifier = specifier ∨
      ∃ rest, specifier.toList = (packageRoot specifier).toList ++ '/' :: rest := by
  rw [← String.toList_inj, toList_packageRoot]
  rcases exists_cut (· ≠ '/') specifier.toList with hall | ⟨front, c, back, htext, hfront, hc⟩
  · exact Or.inl (List.takeWhile_eq_self_iff.mpr hall)
  · obtain rfl : c = '/' := by simpa using hc
    rw [htext, takeWhile_append_cons hfront hc]
    exact Or.inr ⟨back, rfl⟩

/-- What follows a slash does not matter. -/
theorem packageRoot_eq_of_below {host : String} {rest : List Char}
    (h : specifier.toList = host.toList ++ '/' :: rest) :
    packageRoot specifier = packageRoot host := by
  have hslash : (decide ('/' ≠ '/')) = false := by decide
  rw [← String.toList_inj, toList_packageRoot, toList_packageRoot, h]
  rcases exists_cut (· ≠ '/') host.toList with hall | ⟨front, c, back, htext, hfront, hc⟩
  · rw [takeWhile_append_cons hall hslash, List.takeWhile_eq_self_iff.mpr hall]
  · rw [htext, List.append_assoc, List.cons_append, takeWhile_append_cons hfront hc,
      takeWhile_append_cons hfront hc]

/-- It has no slash in it. -/
theorem not_mem_packageRoot (specifier : String) : '/' ∉ (packageRoot specifier).toList := by
  rw [toList_packageRoot]
  intro h
  have hslash := List.mem_takeWhile_imp h
  simp at hslash

/-- It is relative if the specifier is: dots come before any slash. -/
theorem isRelative_packageRoot (specifier : String) :
    isRelative (packageRoot specifier) = isRelative specifier := by
  unfold isRelative
  rw [toList_packageRoot]
  cases specifier.toList with
  | nil => rfl
  | cons c rest =>
    by_cases hc : c = '/'
    · subst hc
      rfl
    · rw [List.takeWhile_cons_of_pos (by simpa using hc)]
      rfl

/-- The part before the first slash names a module of the host only if that module is in the list,
unless the whole specifier names one. -/
theorem isHostModule_packageRoot (h : isHostModule specifier = false) :
    isHostModule (packageRoot specifier) = true ↔ packageRoot specifier ∈ hostModules := by
  unfold isHostModule at h ⊢
  rw [Bool.or_eq_false_iff] at h
  rw [Bool.or_eq_true, List.contains_iff_mem]
  refine or_iff_right fun hnode => ?_
  rw [toList_packageRoot, List.isPrefixOf_iff_prefix] at hnode
  have hprefix := List.isPrefixOf_iff_prefix.mpr (hnode.trans (List.takeWhile_prefix _))
  rw [h.1] at hprefix
  cases hprefix

/-- A slash in the name of a module of the host stands behind the name of another one. -/
theorem packageRoot_mem_hostModules : ∀ host ∈ hostModules, packageRoot host ∈ hostModules := by
  decide +kernel

/-- The part of a specifier before the first slash names a package, unless the specifier strays. -/
theorem isPackageName_packageRoot_iff (hfilled : specifier ≠ "")
    (hforeign : isForeign specifier = true) :
    IsPackageName (packageRoot specifier) ↔ ¬Strays specifier := by
  obtain ⟨hrelative, hhost⟩ := isForeign_iff.mp hforeign
  constructor
  · rintro hname (⟨h⟩ | ⟨hmem, h⟩)
    · refine hname.filled (String.toList_inj.mp ?_)
      rw [toList_packageRoot, h]
      rfl
    -- The name of the host's module may itself hold a slash; its first part is in the list too.
    · have hroot := packageRoot_mem_hostModules _ hmem
      rw [← packageRoot_eq_of_below h] at hroot
      have := (isForeign_iff.mp hname.foreign).2
      rw [(isHostModule_packageRoot hhost).mpr hroot] at this
      cases this
  · intro hstays
    rcases packageRoot_cases specifier with hwhole | ⟨rest, hrest⟩
    · have hflat := not_mem_packageRoot specifier
      rw [hwhole] at hflat ⊢
      exact ⟨hfilled, hflat, hforeign⟩
    · refine ⟨fun hempty => ?_, not_mem_packageRoot specifier,
        isForeign_iff.mpr ⟨(isRelative_packageRoot specifier).trans hrelative, ?_⟩⟩
      · rw [hempty] at hrest
        exact hstays (.absolute hrest)
      · rw [Bool.eq_false_iff]
        exact fun h => hstays (.belowHost ((isHostModule_packageRoot hhost).mp h) hrest)

/-- No specifier is empty, since a match asks for a character between the quotes. -/
theorem specifier_ne_empty {text : List Char} (h : specifier ∈ specifiers text) :
    specifier ≠ "" := by
  obtain ⟨form, -, parts, _, _, hparts, -, rfl⟩ := exists_parts_of_mem_specifiers h
  intro hempty
  rw [← String.toList_inj, String.toList_ofList] at hempty
  exact hparts.filled hempty

/-- The relative references are the relative specifiers. -/
theorem mem_relative_iff {text : List Char} :
    specifier ∈ (references text).relative ↔
      specifier ∈ specifiers text ∧ isRelative specifier = true := by
  rw [references_eq_ofList, OrderedSet.mem_ofList, List.mem_filter]

/-- The packages are the roots of foreign specifiers. -/
theorem mem_packages_iff {text : List Char} {name : String} :
    name ∈ (references text).packages ↔
      ∃ specifier ∈ specifiers text, isForeign specifier = true ∧ packageRoot specifier = name := by
  rw [references_eq_ofList, OrderedSet.mem_ofList, List.mem_map]
  simp only [List.mem_filter, and_assoc]

/-- The packages of a text are never relative and never lead below. Each has the name of a package
exactly if no specifier of the text strays, the relative ones and those of the host apart. -/
theorem forall_isPackageName_iff (text : List Char) :
    (∀ name ∈ (references text).packages, '/' ∉ name.toList ∧ isRelative name = false) ∧
    ((∀ name ∈ (references text).packages, IsPackageName name) ↔
      ∀ specifier ∈ specifiers text, isForeign specifier = true → ¬Strays specifier) := by
  constructor
  · intro name hname
    obtain ⟨specifier, -, hforeign, rfl⟩ := mem_packages_iff.mp hname
    exact ⟨not_mem_packageRoot specifier,
      (isRelative_packageRoot specifier).trans (isForeign_iff.mp hforeign).1⟩
  · constructor
    · intro hnames specifier hmem hforeign
      exact (isPackageName_packageRoot_iff (specifier_ne_empty hmem) hforeign).mp
        (hnames _ (mem_packages_iff.mpr ⟨specifier, hmem, hforeign, rfl⟩))
    · intro hstays name hname
      obtain ⟨specifier, hmem, hforeign, rfl⟩ := mem_packages_iff.mp hname
      exact (isPackageName_packageRoot_iff (specifier_ne_empty hmem) hforeign).mpr
        (hstays specifier hmem hforeign)

/-- The part of an absolute specifier before the first slash is empty, and what a specifier below a
module of the host counts for is that module. -/
theorem packages_of_straying_specifiers :
    (references "import \"/a\"; import \"fs/x\"".toList).packages.toList = ["", "fs"] ∧
      ¬IsPackageName "" ∧ ¬IsPackageName "fs" := by
  refine ⟨by decide +kernel, fun h => h.filled rfl, fun h => ?_⟩
  exact absurd h.foreign (by decide)

end RepoAtlas.Source
