import RepoAtlas.Proofs.Path.Normal
import RepoAtlas.Proofs.Text.Lowering
import RepoAtlas.Settings

/-!
# `RepoAtlas.Proofs.Settings.Extensions`: which extensions in the settings take effect

The extension of a file is what stands from the last dot of its name on, in lower case. So of an
extension in the settings only the part from its last dot on can be met by a file, and a file that
ends in an extension of several parts, such as `.blade.php`, is a source file exactly if its last
part is an extension too.

* `exists_extensionText`: the form in which an extension is compared has its dot and, after it, the
  bare text in lower case.
* `suffix_of_cut`: the suffix of a name that is cut at its last dot.
* `isSource_extensionText_iff`: which files with an extension of the settings are source files.
-/

set_option autoImplicit false

namespace RepoAtlas.Text

variable {c : Char} {front back : List Char}

/-- A text cut at its first character of a kind: what comes before it. -/
theorem takeWhile_ne_cut (h : c ∉ front) : (front ++ c :: back).takeWhile (· ≠ c) = front := by
  have hall : ∀ d ∈ front, decide (d ≠ c) = true := fun d hd =>
    decide_eq_true (ne_of_mem_of_not_mem hd h)
  rw [List.takeWhile_append_of_pos hall, List.takeWhile_cons_of_neg (by simp), List.append_nil]

/-- A text cut at its first character of a kind: the rest. -/
theorem dropWhile_ne_cut (h : c ∉ front) :
    (front ++ c :: back).dropWhile (· ≠ c) = c :: back := by
  have hall : ∀ d ∈ front, decide (d ≠ c) = true := fun d hd =>
    decide_eq_true (ne_of_mem_of_not_mem hd h)
  rw [List.dropWhile_append_of_pos hall, List.dropWhile_cons_of_neg (by simp)]

end RepoAtlas.Text

namespace RepoAtlas.Path

open RepoAtlas.Text

/-- The suffix of a name starts at its last dot. -/
theorem suffix_of_cut {front back : List Char} (hfront : front ≠ []) (hback : back ≠ [])
    (hdot : '.' ∉ back) :
    suffix (String.ofList (front ++ '.' :: back)) = String.ofList ('.' :: back) := by
  have hreverse : (front ++ '.' :: back).reverse = back.reverse ++ '.' :: front.reverse := by simp
  have hdot' : '.' ∉ back.reverse := mt List.mem_reverse.mp hdot
  have hlength : 0 < front.length := List.length_pos_iff.mpr hfront
  have hback' : back.reverse.isEmpty = false := by simpa using hback
  unfold suffix
  simp only [String.toList_ofList, hreverse, dropWhile_ne_cut hdot', takeWhile_ne_cut hdot', hback',
    List.length_cons, List.length_reverse, List.reverse_reverse]
  rw [if_neg (by simp; omega)]

/-- A proper name is its own last name. -/
theorem lastName_of_isName {name : String} (h : IsName name) : lastName name = name := by
  rw [lastName, names, segments_of_no_slash h.no_slash,
    List.filter_cons_of_pos (by simp [h.ne_empty, h.ne_here])]
  rfl

end RepoAtlas.Path

namespace RepoAtlas.Settings

open RepoAtlas.Text

/-- An extension without blanks around it and without its leading dot. -/
def bareText (value : String) : List Char :=
  match strip value.toList with
  | '.' :: rest => rest
  | text => text

/-- A text that a name can end in as its extension. -/
structure IsExtension (value : String) : Prop where
  no_slash : '/' ∉ value.toList
  ne_nil : bareText value ≠ []
  no_final_dot : (bareText value).getLast? ≠ some '.'

instance (value : String) : Decidable (IsExtension value) :=
  decidable_of_iff ('/' ∉ value.toList ∧ bareText value ≠ [] ∧ (bareText value).getLast? ≠ some '.')
    ⟨fun ⟨h₁, h₂, h₃⟩ => ⟨h₁, h₂, h₃⟩, fun h => ⟨h.no_slash, h.ne_nil, h.no_final_dot⟩⟩

/-- The part of an extension from its last dot on. -/
def finalPart (extension : String) : String :=
  String.ofList ('.' :: (extension.toList.reverse.takeWhile (· ≠ '.')).reverse)

/-- A name of ASCII letters only. -/
def IsWord (stem : String) : Prop :=
  stem ≠ "" ∧ stem.toList.all Char.isAlpha = true

instance (stem : String) : Decidable (IsWord stem) :=
  inferInstanceAs (Decidable (_ ∧ _))

variable {value : String}

/-- Stripping adds no character. -/
theorem mem_of_mem_strip {text : List Char} {c : Char} (h : c ∈ strip text) : c ∈ text := by
  rw [strip, List.mem_reverse] at h
  have hfront := (List.dropWhile_sublist _).subset h
  exact (List.dropWhile_sublist _).subset (List.mem_reverse.mp hfront)

/-- What is cut off an extension is a dot or nothing. -/
theorem bareText_cases (value : String) :
    strip value.toList = '.' :: bareText value ∨
      (strip value.toList = bareText value ∧ (bareText value).head? ≠ some '.') := by
  unfold bareText
  split
  next rest hstrip => exact .inl hstrip
  next hdot =>
    refine .inr ⟨rfl, fun hhead => ?_⟩
    obtain ⟨rest, hrest⟩ := List.head?_eq_some_iff.mp hhead
    exact hdot rest hrest

/-- Neither does taking off the dot. -/
theorem mem_of_mem_bareText {c : Char} (h : c ∈ bareText value) : c ∈ value.toList := by
  rcases bareText_cases value with hstrip | ⟨hstrip, -⟩
  · exact mem_of_mem_strip (hstrip ▸ List.mem_cons_of_mem _ h)
  · exact mem_of_mem_strip (hstrip ▸ h)

/-- The text of an extension is lowered and gets a dot in front, if it has none. -/
theorem toList_extensionText (value : String) {text : List Char}
    (htext : text = lowerAfter [] (strip value.toList)) :
    (extensionText value).toList
      = if text = [] ∨ text.head? = some '.' then text else '.' :: text := by
  have hempty : String.ofList text = "" ↔ text = [] := by
    rw [← String.toList_inj, String.toList_ofList, String.toList_empty]
  simp only [extensionText, lower, String.toList_ofList, ← htext, hempty, Bool.or_eq_true,
    decide_eq_true_eq]
  split
  next => exact String.toList_ofList
  next => simp

/-- The form in which an extension is compared. -/
theorem exists_extensionText (hne : bareText value ≠ []) :
    ∃ before, (extensionText value).toList = '.' :: lowerAfter before (bareText value) := by
  -- The dot is there already and is lowered with the rest, or it is put in front afterwards.
  rcases bareText_cases value with hstrip | ⟨hstrip, hhead⟩
  · have hlower : '.' :: lowerAfter ['.'] (bareText value)
        = lowerAfter [] (strip value.toList) := by
      rw [hstrip, lowerAfter_cons]
      rfl
    refine ⟨['.'], ?_⟩
    rw [toList_extensionText value hlower, if_pos (.inr (List.head?_cons))]
  · have hlower : lowerAfter [] (bareText value) = lowerAfter [] (strip value.toList) := by
      rw [hstrip]
    refine ⟨[], ?_⟩
    rw [toList_extensionText value hlower, if_neg]
    rintro (hnil | hdot)
    · exact hne (lowerAfter_eq_nil_iff.mp hnil)
    · exact hhead (head?_of_lowerAfter (by decide) hdot)

/-- The last dot of an extension, as it is compared, has something after it. -/
theorem exists_cut (h : IsExtension value) :
    ∃ front back, (extensionText value).toList = front ++ '.' :: back ∧ '.' ∉ back ∧ back ≠ [] ∧
      finalPart (extensionText value) = String.ofList ('.' :: back) := by
  obtain ⟨before, htext⟩ := exists_extensionText h.ne_nil
  have hdot : '.' ∈ (extensionText value).toList.reverse := by
    rw [List.mem_reverse, htext]
    exact List.mem_cons_self
  obtain ⟨after, upto, hcut, hafter⟩ := List.eq_append_cons_of_mem hdot
  have hback : (extensionText value).toList = upto.reverse ++ '.' :: after.reverse := by
    rw [← List.reverse_reverse (extensionText value).toList, hcut]
    simp
  refine ⟨upto.reverse, after.reverse, hback, by simpa using hafter, ?_, ?_⟩
  · -- Nothing after the last dot would mean that the bare text ends in a dot.
    intro hnil
    rw [hnil, htext] at hback
    have hne : lowerAfter before (bareText value) ≠ [] := mt lowerAfter_eq_nil_iff.mp h.ne_nil
    have hlast : (lowerAfter before (bareText value)).getLast? = some '.' := by
      rw [← List.getLast?_cons_of_ne_nil hne, hback, List.getLast?_concat]
    exact h.no_final_dot (getLast?_of_lowerAfter (by decide) hlast)
  · rw [finalPart, hcut, takeWhile_ne_cut hafter]

/-- An extension of one part is its own final part. -/
theorem finalPart_extensionText (h : IsExtension value) (hdot : '.' ∉ bareText value) :
    finalPart (extensionText value) = extensionText value := by
  obtain ⟨before, htext⟩ := exists_extensionText h.ne_nil
  have hdot' : '.' ∉ (lowerAfter before (bareText value)).reverse := fun hmem =>
    hdot ((mem_lowerAfter_iff_of_low (by decide)).mp (List.mem_reverse.mp hmem))
  rw [finalPart, htext, List.reverse_cons, takeWhile_ne_cut hdot', List.reverse_reverse, ← htext,
    String.ofList_toList]

/-- All characters of an extension are lowered. -/
theorem isLowered_of_mem_extensionText (h : IsExtension value) {c : Char}
    (hc : c ∈ (extensionText value).toList) : IsLowered c := by
  obtain ⟨before, htext⟩ := exists_extensionText h.ne_nil
  rw [htext, List.mem_cons] at hc
  rcases hc with rfl | hc
  · exact isLowered_of_low (by decide)
  · exact isLowered_of_mem_lowerAfter hc

/-- An extension has no slash. -/
theorem no_slash_extensionText (h : IsExtension value) : '/' ∉ (extensionText value).toList := by
  obtain ⟨before, htext⟩ := exists_extensionText h.ne_nil
  rw [htext, List.mem_cons, not_or]
  refine ⟨by decide, fun hslash => h.no_slash (mem_of_mem_bareText ?_)⟩
  exact (mem_lowerAfter_iff_of_low (by decide)).mp hslash

/-- An extension of the settings is one of sources. -/
theorem extensionText_mem_sourceExtensions {settings : Settings}
    (hvalue : value ∈ settings.extensions) (h : IsExtension value) :
    extensionText value ∈ settings.sourceExtensions := by
  obtain ⟨before, htext⟩ := exists_extensionText h.ne_nil
  refine List.mem_append_right _ (List.mem_filter.mpr ⟨List.mem_map_of_mem hvalue, ?_⟩)
  rw [decide_eq_true_eq, ← String.toList_inj.ne, htext]
  exact List.cons_ne_nil _ _

section
variable {stem name : String}

/-- A file that ends in an extension of the settings has a proper name, and the extension of the
file is the final part of that extension. -/
theorem isName_and_extensionOf (hextension : IsExtension value) (hstem : IsWord stem)
    (hname : SameButCase name.toList (stem ++ extensionText value).toList) :
    Path.IsName name ∧ ∀ path, Path.lastName path = name →
      Path.extensionOf path = finalPart (extensionText value) := by
  obtain ⟨front, back, hcut, hdot, hback, hfinal⟩ := exists_cut hextension
  have htext : (stem ++ extensionText value).toList = (stem.toList ++ front) ++ '.' :: back := by
    rw [String.toList_append, hcut, List.append_assoc]
  have hcuts := hname
  rw [htext] at hcuts
  obtain ⟨front', back', hname', hfront, hsame⟩ := hcuts.exists_cut (by decide)
  have hfront' : front' ≠ [] := by
    rw [Ne, hfront.eq_nil_iff, List.append_eq_nil_iff, String.toList_eq_nil_iff]
    exact fun h => hstem.1 h.1
  have hback' : back' ≠ [] := mt hsame.eq_nil_iff.mp hback
  have hdot' : '.' ∉ back' := fun h => hdot (hsame.mem_of_mem (by decide) h)
  constructor
  · -- Neither a dot nor two dots has something on both sides of its last dot.
    have hlength : 3 ≤ name.toList.length := by
      have hpos := List.length_pos_iff.mpr hfront'
      have hpos' := List.length_pos_iff.mpr hback'
      rw [hname', List.length_append, List.length_cons]
      omega
    refine ⟨?_, ?_, ?_, fun hslash => ?_⟩
    · rintro rfl
      exact absurd hlength (by decide)
    · rintro rfl
      exact absurd hlength (by decide)
    · rintro rfl
      exact absurd hlength (by decide)
    · have hslash' := hname.mem_of_mem (by decide) hslash
      rw [String.toList_append, List.mem_append] at hslash'
      rcases hslash' with hslash' | hslash'
      · exact absurd (List.all_eq_true.mp hstem.2 _ hslash') (by decide)
      · exact no_slash_extensionText hextension hslash'
  · rintro path rfl
    have hlowered : ∀ c ∈ '.' :: back, IsLowered c := fun c hc =>
      isLowered_of_mem_extensionText hextension (hcut ▸ List.mem_append_right _ hc)
    have hsuffix : SameButCase ('.' :: back') ('.' :: back) := by
      rw [SameButCase, List.map_cons, List.map_cons, show back'.map Char.toLower = _ from hsame]
    rw [Path.extensionOf, ← String.ofList_toList (s := Path.lastName path), hname',
      Path.suffix_of_cut hfront' hback' hdot', lower, String.toList_ofList,
      lowerAfter_of_sameButCase hsuffix hlowered, hfinal]

/-- A file that ends in an extension of the settings, in any case of its ASCII letters, is a source
file exactly if the final part of that extension is an extension of source files. So it always is
one if the extension has no further dot. -/
theorem isSource_extensionText_iff {settings : Settings} (hvalue : value ∈ settings.extensions)
    (hextension : IsExtension value) (hstem : IsWord stem)
    (hname : SameButCase name.toList (stem ++ extensionText value).toList) :
    Path.lastName name = name ∧
      ∀ path, Path.lastName path = name →
        (Path.isSource path settings.sourceExtensions = true ↔
          finalPart (extensionText value) ∈ settings.sourceExtensions) ∧
        ('.' ∉ bareText value → Path.isSource path settings.sourceExtensions = true) := by
  obtain ⟨hproper, hextensionOf⟩ := isName_and_extensionOf hextension hstem hname
  refine ⟨Path.lastName_of_isName hproper, fun path hpath => ?_⟩
  have hsource : Path.isSource path settings.sourceExtensions = true ↔
      finalPart (extensionText value) ∈ settings.sourceExtensions := by
    rw [Path.isSource, List.contains_iff_mem, hextensionOf path hpath]
  refine ⟨hsource, fun hdot => hsource.mpr ?_⟩
  rw [finalPart_extensionText hextension hdot]
  exact extensionText_mem_sourceExtensions hvalue hextension

end

/-- Settings with an extension in capitals beyond ASCII and one of two parts. -/
def sampleSettings : Settings :=
  { extensions := [" .ÉTÉ ", "blade.php"] }

/-- An extension with accents is found in every mix of cases. -/
theorem isSource_extensionText_accented :
    " .ÉTÉ " ∈ sampleSettings.extensions ∧ IsExtension " .ÉTÉ " ∧ IsWord "page" ∧
      SameButCase "PAGE.éTé".toList ("page" ++ extensionText " .ÉTÉ ").toList ∧
      Path.lastName "ui/PAGE.éTé" = "PAGE.éTé" ∧
      Path.isSource "ui/PAGE.éTé" sampleSettings.sourceExtensions = true := by
  have hvalue : " .ÉTÉ " ∈ sampleSettings.extensions := by decide
  have hextension : IsExtension " .ÉTÉ " := by decide +kernel
  have hstem : IsWord "page" := by decide
  have hname : SameButCase "PAGE.éTé".toList ("page" ++ extensionText " .ÉTÉ ").toList := by
    decide +kernel
  have hpath : Path.lastName "ui/PAGE.éTé" = "PAGE.éTé" := by decide +kernel
  have hfile := (isSource_extensionText_iff hvalue hextension hstem hname).2 "ui/PAGE.éTé" hpath
  exact ⟨hvalue, hextension, hstem, hname, hpath, hfile.2 (by decide +kernel)⟩

/-- An extension of two parts need not take effect: the extension of a file has one part. -/
theorem exists_extension_without_effect :
    ¬ ∀ (settings : Settings) (value stem name : String), value ∈ settings.extensions →
      IsExtension value → IsWord stem →
      SameButCase name.toList (stem ++ extensionText value).toList →
      Path.isSource name settings.sourceExtensions = true := by
  intro h
  have hpage := h sampleSettings "blade.php" "page" "page.blade.php" (by decide)
    (by decide +kernel) (by decide) (by decide +kernel)
  exact absurd hpage (by decide +kernel)

end RepoAtlas.Settings
