import RepoAtlas.CodeText
import RepoAtlas.Path.Spelling
import RepoAtlas.Proofs.Path.Normal

/-!
# `RepoAtlas.Proofs.Path.Escapes`: nothing is lost of a text that is a path

A path is a text of characters. Side files and settings give paths as texts of code points, in which
there may be halves and U+0000; a path has escapes in their place (`CodeText.toPath`). An escape
starts with U+0000, so the system refuses it, and it holds no slash, so the names in a path are
those in the text that it was made of.

* `ofPath_toPath`: a path gives its text back.
* `toPath_ofString`: a text of other characters than U+0000 is its own path.
* `hasNull_toPath_iff`: a path is refused if a half or U+0000 is in its text.
* `segments_toPath`, `segments_toPath_append`: a path is cut where its text is.
-/

set_option autoImplicit false

namespace RepoAtlas.CodeText

open RepoAtlas.Path (segments hasNull)

/-- The code of a character below the halves. -/
theorem toNat_ofNat_of_low {code : Nat} (h : code < 0xD800) : (Char.ofNat code).toNat = code := by
  rw [Char.ofNat, dif_pos (Or.inl h)]
  rfl

/-- A code point other than U+0000 and the halves stands for itself. -/
theorem escapePoint_char {c : Char} (h : c ≠ null) : escapePoint (.char c) = [c] :=
  if_neg h

/-- All others are escaped. -/
theorem escapePoint_cases (point : CodePoint) :
    (∃ c, c ≠ null ∧ point = .char c ∧ escapePoint point = [c]) ∨
      ∃ c, c ≠ '/' ∧ unescape c = point ∧ escapePoint point = [null, c] := by
  cases point with
  | char c =>
    by_cases hnull : c = null
    · subst hnull
      exact Or.inr ⟨null, by decide, rfl, rfl⟩
    · exact Or.inl ⟨c, hnull, rfl, escapePoint_char hnull⟩
  | high half =>
    have hcode := toNat_ofNat_of_low (show 0x100 + half.val < 0xD800 by omega)
    refine Or.inr ⟨Char.ofNat (0x100 + half), ?_, ?_, rfl⟩
    · intro hslash
      rw [hslash] at hcode
      exact absurd hcode (by simp; omega)
    · rw [unescape, hcode, if_neg (by omega), if_pos (by omega), Nat.add_sub_cancel_left]
      exact congrArg CodePoint.high (Fin.ofNat_val_eq_self half)
  | low half =>
    have hcode := toNat_ofNat_of_low (show 0x500 + half.val < 0xD800 by omega)
    refine Or.inr ⟨Char.ofNat (0x500 + half), ?_, ?_, rfl⟩
    · intro hslash
      rw [hslash] at hcode
      exact absurd hcode (by simp; omega)
    · rw [unescape, hcode, if_neg (by omega), if_neg (by omega), Nat.add_sub_cancel_left]
      exact congrArg CodePoint.low (Fin.ofNat_val_eq_self half)

/-- A character that starts no escape is read as itself. -/
theorem pathPoints_cons {c : Char} (h : c ≠ null) (rest : List Char) :
    pathPoints (c :: rest) = .char c :: pathPoints rest := by
  cases rest with
  | nil => rfl
  | cons next rest => rw [pathPoints, if_neg h]

/-- What stands for a code point in a path is read as that code point. -/
theorem pathPoints_escapePoint (point : CodePoint) (rest : List Char) :
    pathPoints (escapePoint point ++ rest) = point :: pathPoints rest := by
  obtain ⟨c, hnull, hpoint, hescape⟩ | ⟨c, -, hpoint, hescape⟩ := escapePoint_cases point
  · rw [hescape, hpoint]
    exact pathPoints_cons hnull rest
  · rw [hescape, ← hpoint]
    exact if_pos rfl

/-- A path gives back the text that it was made of. -/
theorem ofPath_toPath (text : CodeText) : ofPath text.toPath = text := by
  apply ext
  show pathPoints (String.ofList (text.points.flatMap escapePoint)).toList = text.points
  rw [String.toList_ofList]
  induction text.points with
  | nil => rfl
  | cons point rest ih => rw [List.flatMap_cons, pathPoints_escapePoint, ih]

/-- A text of characters is its own path, unless U+0000 is in it. -/
theorem toPath_ofString {text : String} (h : hasNull text = false) :
    (ofString text).toPath = text := by
  have hplain : ∀ c ∈ text.toList, c ≠ null := by
    rintro c hc rfl
    exact absurd (List.contains_iff_mem.mpr hc) (Bool.eq_false_iff.mp h)
  rw [← String.toList_inj, toPath, String.toList_ofList, points_ofString, List.flatMap_map]
  generalize text.toList = chars at hplain ⊢
  induction chars with
  | nil => rfl
  | cons c rest ih =>
    obtain ⟨hc, hrest⟩ := List.forall_mem_cons.mp hplain
    rw [List.flatMap_cons, escapePoint_char hc, ih hrest, List.singleton_append]

/-- The system refuses a path if a half or U+0000 is in its text. -/
theorem hasNull_toPath_iff (text : CodeText) :
    hasNull text.toPath = true ↔ ∃ point ∈ text.points, ∀ c, point = .char c → c = null := by
  unfold hasNull toPath
  rw [String.toList_ofList, List.contains_iff_mem, List.mem_flatMap]
  refine exists_congr fun point => and_congr_right fun _ => ?_
  obtain ⟨c, hnull, rfl, hescape⟩ | ⟨c, -, hpoint, hescape⟩ := escapePoint_cases point
  · rw [hescape, List.mem_singleton]
    exact ⟨fun h => absurd h.symm hnull, fun h => absurd (h c rfl) hnull⟩
  · rw [hescape]
    refine iff_of_true List.mem_cons_self ?_
    rintro d rfl
    by_cases hd : d = null
    · exact hd
    · cases (escapePoint_char hd).symm.trans hescape

/-- An escape holds no slash. -/
theorem slash_mem_toPath_iff (text : CodeText) :
    '/' ∈ text.toPath.toList ↔ CodePoint.char '/' ∈ text.points := by
  rw [toPath, String.toList_ofList, List.mem_flatMap]
  constructor
  · rintro ⟨point, hpoint, hslash⟩
    obtain ⟨c, -, rfl, hescape⟩ | ⟨c, hc, -, hescape⟩ := escapePoint_cases point
    · rw [hescape, List.mem_singleton] at hslash
      exact hslash ▸ hpoint
    · rw [hescape] at hslash
      simp [Ne.symm hc, null] at hslash
  · exact fun h => ⟨_, h, by decide⟩

/-- Texts that follow each other are paths that do. -/
theorem toPath_append (front back : CodeText) :
    (front ++ back).toPath = front.toPath ++ back.toPath := by
  rw [← String.toList_inj, String.toList_append]
  simp only [toPath, String.toList_ofList, points_append, List.flatMap_append]

/-- A text without a slash is one name. -/
theorem segments_toPath {text : CodeText} (h : CodePoint.char '/' ∉ text.points) :
    segments text.toPath = [text.toPath] :=
  Path.segments_of_no_slash (mt (slash_mem_toPath_iff text).mp h)

/-- The names on both sides of a slash are cut apart there. -/
theorem segments_toPath_append (front back : CodeText) :
    segments (front ++ ("/" : CodeText) ++ back).toPath
      = segments front.toPath ++ segments back.toPath := by
  have hslash : ("/" : CodeText).toPath = "/" := toPath_ofString (by decide)
  rw [toPath_append, toPath_append, hslash]
  exact Path.segments_append_slash front.toPath back.toPath

end RepoAtlas.CodeText
