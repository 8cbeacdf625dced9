import RepoAtlas.Proofs.Path.Normal
import RepoAtlas.Proofs.Text.Ascii

/-!
# `RepoAtlas.Proofs.Path.Spelling`: paths keep their characters

A path is spelled anew from its names, with slashes between them. Nothing else comes in, so a path
that a system takes has a parent that the system takes; and what lies below an absolute path is
absolute.

* `hasNull_parent`: the parent of a path holds U+0000 only if the path does.
* `hasNull_below_eq`: whether a path below a root does is up to the part below it.
* `isAbsolute_below`: a path below an absolute root is absolute.
-/

set_option autoImplicit false

namespace RepoAtlas.Path

open RepoAtlas.Text

/-- What is in a piece is in the joined text. -/
theorem mem_joinWith {separator c : Char} {pieces : List (List Char)} {piece : List Char}
    (hpiece : piece ∈ pieces) (hc : c ∈ piece) : c ∈ joinWith separator pieces := by
  induction pieces with
  | nil => exact absurd hpiece List.not_mem_nil
  | cons first rest ih =>
    cases rest with
    | nil =>
      rw [List.mem_singleton] at hpiece
      rw [joinWith, ← hpiece]
      exact hc
    | cons next rest =>
      rw [joinWith, List.mem_append, List.mem_cons]
      rcases List.mem_cons.mp hpiece with rfl | hpiece
      · exact Or.inl hc
      · exact Or.inr (Or.inr (ih hpiece))

/-- What is in the joined text is the separator, or is in a piece. -/
theorem exists_of_mem_joinWith {separator c : Char} {pieces : List (List Char)}
    (h : c ∈ joinWith separator pieces) : c = separator ∨ ∃ piece ∈ pieces, c ∈ piece := by
  induction pieces with
  | nil => exact absurd h List.not_mem_nil
  | cons first rest ih =>
    cases rest with
    | nil => exact Or.inr ⟨first, List.mem_singleton_self first, h⟩
    | cons next rest =>
      rw [joinWith, List.mem_append, List.mem_cons] at h
      rcases h with h | h | h
      · exact Or.inr ⟨first, List.mem_cons_self, h⟩
      · exact Or.inl h
      · refine (ih h).imp_right ?_
        rintro ⟨piece, hpiece, hc⟩
        exact ⟨piece, List.mem_cons_of_mem _ hpiece, hc⟩

/-- The characters of a name stand in the path. -/
theorem mem_of_mem_names {path name : String} (hname : name ∈ names path) {c : Char}
    (hc : c ∈ name.toList) : c ∈ path.toList := by
  obtain ⟨piece, hpiece, rfl⟩ := List.mem_map.mp (List.mem_filter.mp hname).1
  rw [String.toList_ofList] at hc
  rw [← joinWith_splitAt '/' path.toList]
  exact mem_joinWith hpiece hc

/-- A path without a null has only other characters. -/
theorem hasNull_eq_false_iff {path : String} :
    hasNull path = false ↔ ∀ c ∈ path.toList, c ≠ Char.ofNat 0 := by
  rw [hasNull, Bool.eq_false_iff, ne_eq, List.contains_iff_mem]
  exact ⟨fun h c hc hnull => h (hnull ▸ hc), fun h hmem => h _ hmem rfl⟩

/-- Continuing a path by another one adds nothing but a slash. -/
theorem hasNull_join {path continuation : String} (h : hasNull path = false)
    (hcontinuation : hasNull continuation = false) : hasNull (join path continuation) = false := by
  rw [hasNull_eq_false_iff] at h hcontinuation ⊢
  unfold join
  split
  · exact hcontinuation
  · split
    · rw [String.toList_append, List.forall_mem_append]
      exact ⟨h, hcontinuation⟩
    · rw [String.toList_append, String.toList_append, List.forall_mem_append, List.forall_mem_append]
      exact ⟨⟨h, forall_mem_of_all (by decide)⟩, hcontinuation⟩

/-- The lead of a path consists of slashes. -/
theorem forall_leadingSlashes (path : String) : ∀ c ∈ (leadingSlashes path).toList, c = '/' := by
  rcases isLead_leadingSlashes path with h | h <;> rw [h] <;>
    exact forall_mem_of_all (by decide)

/-- A path that is spelled with names of another one holds U+0000 only if that one does. -/
theorem hasNull_spell {path : String} (h : hasNull path = false) {kept : List String}
    (hkept : kept ⊆ names path) : hasNull (spell path kept) = false := by
  rw [hasNull_eq_false_iff] at h ⊢
  have hnames : ∀ c ∈ ("/".intercalate kept).toList, c ≠ Char.ofNat 0 :=
    forall_mem_intercalate (forall_mem_of_all (by decide)) fun name hname c hc =>
      h c (mem_of_mem_names (hkept hname) hc)
  -- The lead has slashes only, and all other characters are in names of the path.
  unfold spell
  split
  · rw [String.toList_append, List.forall_mem_append]
    refine ⟨fun c hc => ?_, hnames⟩
    rw [forall_leadingSlashes path c hc]
    decide
  · split
    · exact forall_mem_of_all (by decide)
    · exact hnames

/-- A path without U+0000 has a parent without it. -/
theorem hasNull_parent {path : String} (h : hasNull path = false) :
    hasNull (parent path) = false :=
  hasNull_spell h (List.dropLast_subset _)

/-- Below a path without U+0000, a path without it leads to one. -/
theorem hasNull_below {root path : String} (h : hasNull root = false)
    (hpath : hasNull path = false) : hasNull (below root path) = false :=
  hasNull_spell (hasNull_join h hpath) fun _ hname => hname

/-- The characters of a path stand in its names, slashes and dots apart. -/
theorem exists_name_of_mem {path : String} {c : Char} (hc : c ∈ path.toList) (hslash : c ≠ '/')
    (hdot : c ≠ '.') : ∃ name ∈ names path, c ∈ name.toList := by
  -- The character is in a piece. A piece with a character other than a dot is neither blank nor a
  -- single dot.
  rw [← joinWith_splitAt '/' path.toList] at hc
  obtain ⟨piece, hpiece, hc⟩ := (exists_of_mem_joinWith hc).resolve_left hslash
  have hmem : c ∈ (String.ofList piece).toList := by rwa [String.toList_ofList]
  refine ⟨String.ofList piece, List.mem_filter.mpr ⟨List.mem_map_of_mem hpiece, ?_⟩, hmem⟩
  rw [Bool.and_eq_true, decide_eq_true_eq, decide_eq_true_eq]
  constructor
  · intro hempty
    rw [hempty] at hmem
    exact absurd hmem List.not_mem_nil
  · intro hhere
    rw [hhere] at hmem
    exact hdot (List.mem_singleton.mp hmem)

/-- What is in a part is in the parts put together. -/
theorem mem_intercalate {parts : List String} {part : String} (hpart : part ∈ parts) {c : Char}
    (hc : c ∈ part.toList) : c ∈ ("/".intercalate parts).toList := by
  induction parts with
  | nil => exact absurd hpart List.not_mem_nil
  | cons first rest ih =>
    cases rest with
    | nil =>
      rw [List.mem_singleton] at hpart
      rwa [String.intercalate_singleton, ← hpart]
    | cons next rest =>
      rw [toList_intercalate_cons, List.mem_append, List.mem_append]
      rcases List.mem_cons.mp hpart with rfl | hpart
      · exact Or.inl hc
      · exact Or.inr (Or.inr (ih hpart))

/-- Spelling a path anew does not hide U+0000. -/
theorem hasNull_of_hasNull_tidy {path : String} (h : hasNull (tidy path) = false) :
    hasNull path = false := by
  rw [hasNull_eq_false_iff] at h ⊢
  rintro c hc rfl
  -- A null is neither a slash nor a dot, so it is in a name, and names are kept.
  obtain ⟨name, hname, hc⟩ := exists_name_of_mem hc (by decide) (by decide)
  have hspelled := mem_intercalate hname hc
  refine h _ ?_ rfl
  unfold tidy spell
  split
  · rw [String.toList_append]
    exact List.mem_append_right _ hspelled
  · split
    · next hnone =>
      rw [List.isEmpty_iff.mp hnone] at hname
      exact absurd hname List.not_mem_nil
    · exact hspelled

/-- Below a path without U+0000, whether there is one is up to what is below. -/
theorem hasNull_below_eq {root : String} (h : hasNull root = false) (path : String) :
    hasNull (below root path) = hasNull path := by
  cases hnull : hasNull path with
  | false => exact hasNull_below h hnull
  | true =>
    by_contra hbelow
    -- Tidying drops no null, and neither does joining.
    have hjoin := hasNull_of_hasNull_tidy (Bool.eq_false_iff.mpr hbelow)
    rw [hasNull_eq_false_iff] at hjoin
    have hmem : Char.ofNat 0 ∈ path.toList := List.contains_iff_mem.mp hnull
    refine hjoin _ ?_ rfl
    unfold join
    split
    · exact hmem
    · split <;> simp only [String.toList_append] <;> exact List.mem_append_right _ hmem

/-- Tidying keeps a path absolute. -/
theorem isAbsolute_tidy {path : String} (h : isAbsolute path = true) :
    isAbsolute (tidy path) = true := by
  rw [tidy, spell, if_pos h]
  exact isAbsolute_absolute (isLead_leadingSlashes path) (names path)

/-- What is joined to an absolute path is absolute. -/
theorem isAbsolute_join {root : String} (hroot : isAbsolute root = true) (path : String) :
    isAbsolute (join root path) = true := by
  unfold join
  split
  · next habsolute => exact habsolute
  · -- Something behind the root leaves its first character.
    have happend : ∀ rest, isAbsolute (root ++ rest) = true := by
      intro rest
      rw [isAbsolute, decide_eq_true_eq] at hroot ⊢
      rw [String.toList_append, List.head?_append, hroot]
      rfl
    split
    · exact happend path
    · rw [String.append_assoc]
      exact happend _

/-- A path below an absolute root is absolute. -/
theorem isAbsolute_below {root : String} (hroot : isAbsolute root = true) (path : String) :
    isAbsolute (below root path) = true :=
  isAbsolute_tidy (isAbsolute_join hroot path)

/-- An absolute path stays the same wherever it is taken from. -/
theorem join_of_isAbsolute {path : String} (h : isAbsolute path = true) (directory : String) :
    join directory path = path := by
  rw [join, if_pos h]

/-- A continuation by a name is no shorter. -/
theorem utf8ByteSize_le_join {path name : String} (hname : IsName name) :
    path.utf8ByteSize ≤ (join path name).utf8ByteSize := by
  unfold join
  rw [isAbsolute_of_isName hname]
  simp only [Bool.false_eq_true, if_false]
  split
  · simp only [String.utf8ByteSize_append]
    omega
  · simp only [String.utf8ByteSize_append]
    omega

/-- Of two continuations by a name, the one by the shorter name is no longer. -/
theorem utf8ByteSize_join_le {path name other : String} (hname : IsName name) (hother : IsName other)
    (h : name.utf8ByteSize ≤ other.utf8ByteSize) :
    (join path name).utf8ByteSize ≤ (join path other).utf8ByteSize := by
  unfold join
  rw [isAbsolute_of_isName hname, isAbsolute_of_isName hother]
  simp only [Bool.false_eq_true, if_false]
  split
  · simp only [String.utf8ByteSize_append]
    omega
  · simp only [String.utf8ByteSize_append]
    omega

end RepoAtlas.Path
