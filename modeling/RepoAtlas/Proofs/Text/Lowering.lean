import Mathlib.Data.List.Basic
import RepoAtlas.Text.Case

/-!
# `RepoAtlas.Proofs.Text.Lowering`: lower-case texts stay as they are

Lowering a text gives characters that lowering leaves alone. Beyond ASCII this is a fact about the
table of rows: what a row leads to is not covered by any row (`isApart_lowerRows`), and it is a
character again (`lowerRows_lead_to_chars`). Both are checked row by row, not character by
character.

* `of_mem_lowerChar`, `isLowered_of_mem_lowerAfter`: what lowering gives is lower case.
* `mem_lowerAfter_iff_of_low`, `head?_of_lowerAfter`, `getLast?_of_lowerAfter`: the characters
  before the letters, which separate names from extensions, are nobody else's lower-case form.
* `lowerAfter_of_sameButCase`: a text that differs from a lower-case one in the case of ASCII
  letters only has that one as its lower-case form.
-/

set_option autoImplicit false

namespace RepoAtlas.Text

/-! ### Rows -/

/-- No image of the first row is covered by the second one. Rows that overlap may still differ in
every second code point. The test runs over all pairs of rows, so it is kept to bare comparisons. -/
def isApart : Nat × Nat × Nat × Nat → Nat × Nat × Nat × Nat → Bool
  | (first, last, step, image), (first', last', step', _) =>
    Nat.blt (image + (last - first)) first' || Nat.blt last' image ||
      ((step == 2 || first == last) && step' == 2 && (image + first') % 2 == 1)

/-- The images of the rows are not lowered again by any row. Checked row against row, not code by
code. -/
theorem isApart_lowerRows :
    lowerRows.all (fun row => lowerRows.all (isApart row)) = true := by
  decide +kernel

/-- All images of a row are characters, beyond ASCII but for a lone `k`, which the sign for kelvins
shares as its lower-case form. None is the dotted capital `İ`, which no row covers either. -/
def LeadsToChars : Nat × Nat × Nat × Nat → Prop
  | (first, last, _, image) =>
    (128 ≤ image ∨ (image = 0x6b ∧ first = last)) ∧
      (image + (last - first) < 0x130 ∨ 0x130 < image) ∧
      (image + (last - first) < 0xd800 ∨ (0xdfff < image ∧ image + (last - first) < 0x110000))

instance (row : Nat × Nat × Nat × Nat) : Decidable (LeadsToChars row) :=
  match row with
  | (_, _, _, _) => inferInstanceAs (Decidable (_ ∧ _))

/-- The images are characters, none of them ASCII but the one of the Kelvin sign. -/
theorem lowerRows_lead_to_chars : ∀ row ∈ lowerRows, LeadsToChars row := by
  decide +kernel

namespace CaseRows

variable {rows : CaseRows} {code image : Nat}

/-- What covers a code point is one of the rows. -/
theorem exists_of_image? (h : rows.image? code = some image) :
    ∃ first last step start, (first, last, step, start) ∈ rows ∧ first ≤ code ∧ code ≤ last ∧
      (code - first) % step = 0 ∧ image = start + (code - first) := by
  -- The first row that covers the code decides.
  induction rows with
  | nil => exact (nomatch h)
  | cons row rows ih =>
    obtain ⟨first, last, step, start⟩ := row
    rw [CaseRows.image?] at h
    split at h
    next hcovered =>
      simp only [Bool.and_eq_true, decide_eq_true_eq] at hcovered
      obtain ⟨⟨hfirst, hlast⟩, hstep⟩ := hcovered
      exact ⟨first, last, step, start, List.mem_cons_self, hfirst, hlast, hstep,
        (Option.some.inj h).symm⟩
    next =>
      obtain ⟨first', last', step', start', hmem, hrow⟩ := ih h
      exact ⟨first', last', step', start', List.mem_cons_of_mem _ hmem, hrow⟩

/-- Where all rows are apart, what a row leads to is covered by none. -/
theorem image?_of_image? (hapart : rows.all (fun row => rows.all (isApart row)) = true)
    (h : rows.image? code = some image) : rows.image? image = none := by
  obtain ⟨first, last, step, start, hmem, hfirst, hlast, hstep, rfl⟩ := exists_of_image? h
  refine Option.eq_none_iff_forall_ne_some.mpr fun image' himage' => ?_
  obtain ⟨first', last', step', start', hmem', hfirst', hlast', hstep', -⟩ :=
    exists_of_image? himage'
  have hrows := List.all_eq_true.mp (List.all_eq_true.mp hapart _ hmem) _ hmem'
  simp only [isApart, Bool.or_eq_true, Bool.and_eq_true, Nat.blt_eq, beq_iff_eq] at hrows
  rcases hrows with (hbefore | hafter) | ⟨⟨hevery, rfl⟩, hodd⟩
  · omega
  · omega
  · rcases hevery with rfl | rfl <;> omega

end CaseRows

/-- What the lower-case rows lead to. -/
theorem of_lowerRows_image? {code image : Nat} (h : lowerRows.image? code = some image) :
    lowerRows.image? image = none ∧ (128 ≤ image ∨ image = 0x6b) ∧ image ≠ 0x130 ∧
      image.isValidChar := by
  refine ⟨CaseRows.image?_of_image? isApart_lowerRows h, ?_⟩
  obtain ⟨first, last, step, start, hmem, hfirst, hlast, -, rfl⟩ := CaseRows.exists_of_image? h
  obtain ⟨hbeyond, hdotted, hvalid⟩ := lowerRows_lead_to_chars _ hmem
  refine ⟨by omega, by omega, ?_⟩
  rcases hvalid with hvalid | ⟨hlow, hhigh⟩
  · exact .inl (by omega)
  · exact .inr ⟨by omega, by omega⟩

/-! ### Characters -/

variable {c d : Char}

/-- What holds of the characters before a code point can be checked code point by code point. -/
theorem of_forall_code {p : Char → Prop} {bound : Nat} (h : ∀ code < bound, p (Char.ofNat code))
    (hc : c.toNat < bound) : p c := by
  have hcode := h c.toNat hc
  rwa [Char.ofNat_toNat] at hcode

/-- A lower-case character: one that lowering leaves alone. -/
def IsLowered (c : Char) : Prop :=
  lowerChar c = [c]

instance (c : Char) : Decidable (IsLowered c) :=
  inferInstanceAs (Decidable (_ = _))

/-- Beyond ASCII a character is lower case if no row covers it. -/
theorem isLowered_of_image?_eq_none (hascii : 128 ≤ c.toNat) (hdotted : c.toNat ≠ 0x130)
    (h : lowerRows.image? c.toNat = none) : IsLowered c := by
  rw [IsLowered, lowerChar, if_neg (by omega), if_neg hdotted, h, Option.getD_none, Char.ofNat_toNat]

/-- A row leads to a lower-case character that comes with the letters. -/
theorem isLowered_image {code image : Nat} (h : lowerRows.image? code = some image) :
    IsLowered (Char.ofNat image) ∧ 0x41 ≤ (Char.ofNat image).toNat := by
  obtain ⟨hnone, hbeyond | rfl, hdotted, hvalid⟩ := of_lowerRows_image? h
  · have hnat : (Char.ofNat image).toNat = image := by
      rw [Char.ofNat, dif_pos hvalid]
      rfl
    exact ⟨isLowered_of_image?_eq_none (by omega) (by omega) (by rw [hnat, hnone]), by omega⟩
  · exact ⟨by decide, by decide⟩

/-- What is in the lower-case form of a character is lower case, and comes with the letters unless
it is that character. -/
theorem of_mem_lowerChar (h : d ∈ lowerChar c) : IsLowered d ∧ (d = c ∨ 0x41 ≤ d.toNat) := by
  -- The characters of ASCII are checked one by one; all others go by the rows of the table, or by
  -- the one character with two images.
  by_cases hascii : c.toNat < 128
  · have hcodes : ∀ code < 128, (lowerChar (Char.ofNat code)).all (fun d =>
        decide (IsLowered d ∧ (d = Char.ofNat code ∨ 0x41 ≤ d.toNat))) = true := by decide +kernel
    have hall := of_forall_code (p := fun c => (lowerChar c).all (fun d =>
      decide (IsLowered d ∧ (d = c ∨ 0x41 ≤ d.toNat))) = true) hcodes hascii
    exact of_decide_eq_true (List.all_eq_true.mp hall d h)
  rw [lowerChar, if_neg hascii] at h
  split at h
  next =>
    have hdotted : ['i', Char.ofNat 0x307].all (fun d =>
        decide (IsLowered d ∧ 0x41 ≤ d.toNat)) = true := by decide +kernel
    obtain ⟨hlowered, hle⟩ := of_decide_eq_true (List.all_eq_true.mp hdotted d h)
    exact ⟨hlowered, .inr hle⟩
  next hdotted =>
    have hd := List.mem_singleton.mp h
    cases himage : lowerRows.image? c.toNat with
    | none =>
      rw [himage, Option.getD_none, Char.ofNat_toNat] at hd
      exact ⟨hd ▸ isLowered_of_image?_eq_none (by omega) hdotted himage, .inl hd⟩
    | some image =>
      rw [himage, Option.getD_some] at hd
      obtain ⟨hlowered, hle⟩ := isLowered_image himage
      exact ⟨hd ▸ hlowered, .inr (hd ▸ hle)⟩

/-- Lowering a character leaves something. -/
theorem lowerChar_ne_nil (c : Char) : lowerChar c ≠ [] := by
  unfold lowerChar
  split
  · exact List.cons_ne_nil _ _
  · split <;> exact List.cons_ne_nil _ _

/-- The characters before the letters are lower case. -/
theorem isLowered_of_low (hlow : c.toNat < 0x41) : IsLowered c := by
  have hcodes : ∀ code < 0x41, IsLowered (Char.ofNat code) := by decide +kernel
  exact of_forall_code hcodes hlow

/-- A character before the letters is nobody else's lower-case form. -/
theorem mem_lowerChar_iff_of_low (hlow : d.toNat < 0x41) : d ∈ lowerChar c ↔ c = d := by
  constructor
  · intro h
    rcases (of_mem_lowerChar h).2 with rfl | hle
    · rfl
    · omega
  · rintro rfl
    rw [isLowered_of_low hlow]
    exact List.mem_singleton_self c

/-- Beyond ASCII the case of ASCII letters says nothing. -/
theorem toLower_of_not_ascii (h : 128 ≤ c.toNat) : c.toLower = c := by
  have hle : ¬ c.val ≤ 90 := by
    rw [UInt32.le_iff_toNat_le]
    show ¬ c.toNat ≤ 90
    omega
  exact dif_neg fun hupper => hle hupper.2

/-- What is lower case in Unicode is so in ASCII. -/
theorem IsLowered.toLower_eq (h : IsLowered c) : c.toLower = c := by
  by_cases hascii : c.toNat < 128
  · rw [IsLowered, lowerChar, if_pos hascii] at h
    exact List.singleton_inj.mp h
  · exact toLower_of_not_ascii (by omega)

/-- A character that differs from a lower-case one in the case of ASCII letters only has that one as
its lower-case form. -/
theorem lowerChar_of_toLower_eq (hd : IsLowered d) (h : c.toLower = d.toLower) :
    lowerChar c = [d] := by
  rw [hd.toLower_eq] at h
  by_cases hascii : c.toNat < 128
  · rw [lowerChar, if_pos hascii, h]
  · rw [toLower_of_not_ascii (by omega)] at h
    rw [h, hd]

/-! ### Texts -/

/-- The part that a character has in the lower-case form of a text, given the text before it in
reverse and the text after it. -/
def lowerBetween (before : List Char) (c : Char) (rest : List Char) : List Char :=
  if c = 'Σ' then
    if meetsCased before && !meetsCased rest then ['ς'] else ['σ']
  else lowerChar c

variable {before text : List Char}

/-- A text is lowered character by character, each with what stands around it. -/
theorem lowerAfter_cons (before : List Char) (c : Char) (rest : List Char) :
    lowerAfter before (c :: rest) = lowerBetween before c rest ++ lowerAfter (c :: before) rest :=
  rfl

/-- A capital sigma has two lower-case forms; otherwise the text around does not matter. -/
theorem lowerBetween_cases (before : List Char) (c : Char) (rest : List Char) :
    lowerBetween before c rest = lowerChar c ∨ (c = 'Σ' ∧ lowerBetween before c rest = ['ς']) := by
  unfold lowerBetween
  split
  next hsigma =>
    subst hsigma
    split
    · exact .inr ⟨rfl, rfl⟩
    · exact .inl (by decide +kernel)
  next => exact .inl rfl

/-- Either form of a final sigma is lower case. -/
theorem isLowered_of_mem_lowerBetween {rest : List Char} (h : d ∈ lowerBetween before c rest) :
    IsLowered d := by
  rcases lowerBetween_cases before c rest with heq | ⟨-, heq⟩ <;> rw [heq] at h
  · exact (of_mem_lowerChar h).1
  · rw [List.mem_singleton.mp h]
    decide +kernel

/-- No character below the letters comes from another one by lowering it in its place. -/
theorem mem_lowerBetween_iff_of_low {rest : List Char} (hlow : d.toNat < 0x41) :
    d ∈ lowerBetween before c rest ↔ c = d := by
  rcases lowerBetween_cases before c rest with heq | ⟨rfl, heq⟩ <;> rw [heq]
  · exact mem_lowerChar_iff_of_low hlow
  · refine ⟨fun h => ?_, fun h => ?_⟩
    · rw [List.mem_singleton.mp h] at hlow
      exact absurd hlow (by decide)
    · rw [← h] at hlow
      exact absurd hlow (by decide)

/-- No character is dropped. -/
theorem lowerBetween_ne_nil (before : List Char) (c : Char) (rest : List Char) :
    lowerBetween before c rest ≠ [] := by
  rcases lowerBetween_cases before c rest with heq | ⟨-, heq⟩ <;> rw [heq]
  · exact lowerChar_ne_nil c
  · exact List.cons_ne_nil _ _

/-- What is in the lower-case form of a text is lower case. -/
theorem isLowered_of_mem_lowerAfter (h : d ∈ lowerAfter before text) : IsLowered d := by
  induction text generalizing before with
  | nil => exact absurd h List.not_mem_nil
  | cons c rest ih =>
    rw [lowerAfter_cons, List.mem_append] at h
    rcases h with h | h
    · exact isLowered_of_mem_lowerBetween h
    · exact ih h

/-- A text and its lower-case form have the same characters before the letters. -/
theorem mem_lowerAfter_iff_of_low (hlow : d.toNat < 0x41) :
    d ∈ lowerAfter before text ↔ d ∈ text := by
  induction text generalizing before with
  | nil => exact Iff.rfl
  | cons c rest ih =>
    rw [lowerAfter_cons, List.mem_append, List.mem_cons, mem_lowerBetween_iff_of_low hlow, ih,
      eq_comm]

/-- Only the empty text is lowered to the empty one. -/
theorem lowerAfter_eq_nil_iff : lowerAfter before text = [] ↔ text = [] := by
  cases text with
  | nil => exact Iff.rfl
  | cons c rest =>
    rw [lowerAfter_cons, List.append_eq_nil_iff]
    exact iff_of_false (fun h => lowerBetween_ne_nil _ _ _ h.1) (List.cons_ne_nil _ _)

/-- A text starts with a character before the letters if its lower-case form does. -/
theorem head?_of_lowerAfter (hlow : d.toNat < 0x41) (h : (lowerAfter before text).head? = some d) :
    text.head? = some d := by
  cases text with
  | nil => exact h
  | cons c rest =>
    rw [lowerAfter_cons, List.head?_append_of_ne_nil _ (lowerBetween_ne_nil _ _ _)] at h
    have hmem := List.mem_of_mem_head? (Option.mem_def.mpr h)
    rw [(mem_lowerBetween_iff_of_low hlow).mp hmem, List.head?_cons]

/-- A text ends in a character before the letters if its lower-case form does. -/
theorem getLast?_of_lowerAfter (hlow : d.toNat < 0x41)
    (h : (lowerAfter before text).getLast? = some d) : text.getLast? = some d := by
  induction text generalizing before with
  | nil => exact h
  | cons c rest ih =>
    rw [lowerAfter_cons] at h
    -- Lowering goes from the front, so the last character is looked at last.
    rcases List.eq_nil_or_concat rest with rfl | ⟨front, last, rfl⟩
    · have hmem := List.mem_of_mem_getLast? (Option.mem_def.mpr h)
      rw [lowerAfter, List.append_nil] at hmem
      rw [(mem_lowerBetween_iff_of_low hlow).mp hmem, List.getLast?_singleton]
    · have hne : lowerAfter (c :: before) (front.concat last) ≠ [] :=
        mt lowerAfter_eq_nil_iff.mp (by simp)
      rw [List.getLast?_append_of_ne_nil _ hne] at h
      rw [List.getLast?_cons_of_ne_nil (by simp)]
      exact ih h

/-- Two texts that differ in the case of ASCII letters only. -/
def SameButCase (text other : List Char) : Prop :=
  text.map Char.toLower = other.map Char.toLower

instance (text other : List Char) : Decidable (SameButCase text other) :=
  inferInstanceAs (Decidable (_ = _))

namespace SameButCase

variable {other : List Char}

/-- A character before the letters has no case. -/
theorem eq_of_low (hlow : d.toNat < 0x41) (h : c.toLower = d.toLower) : c = d := by
  rw [← mem_lowerChar_iff_of_low hlow, lowerChar_of_toLower_eq (isLowered_of_low hlow) h]
  exact List.mem_singleton_self d

/-- Texts that are the same but for case have the same characters below the letters. -/
theorem mem_of_mem (h : SameButCase text other) (hlow : d.toNat < 0x41) (hd : d ∈ text) :
    d ∈ other := by
  have hmap : d.toLower ∈ other.map Char.toLower := h ▸ List.mem_map_of_mem hd
  obtain ⟨c, hc, heq⟩ := List.mem_map.mp hmap
  rwa [eq_of_low hlow heq] at hc

/-- What differs in case only from a text cut at a character without case is cut there as well. -/
theorem exists_cut {front back : List Char} (hlow : d.toNat < 0x41)
    (h : SameButCase text (front ++ d :: back)) :
    ∃ front' back', text = front' ++ d :: back' ∧ SameButCase front' front ∧
      SameButCase back' back := by
  rw [SameButCase, List.map_append] at h
  obtain ⟨front', after, rfl, hfront, hafter⟩ := List.map_eq_append_iff.mp h
  obtain ⟨c, back', rfl, hc, hback⟩ := List.map_eq_cons_iff.mp hafter
  obtain rfl := eq_of_low hlow hc
  exact ⟨front', back', rfl, hfront, hback⟩

/-- They are empty together. -/
theorem eq_nil_iff (h : SameButCase text other) : text = [] ↔ other = [] := by
  rw [← List.map_eq_nil_iff (f := Char.toLower), show text.map Char.toLower = _ from h,
    List.map_eq_nil_iff]

end SameButCase

/-- Whatever the case of its ASCII letters, a lower-case text is lowered to itself. -/
theorem lowerAfter_of_sameButCase {other : List Char} (hsame : SameButCase other text)
    (htext : ∀ c ∈ text, IsLowered c) : lowerAfter before other = text := by
  induction text generalizing other before with
  | nil =>
    rw [SameButCase, List.map_nil, List.map_eq_nil_iff] at hsame
    rw [hsame]
    rfl
  | cons d rest ih =>
    obtain ⟨hd, hrest⟩ := List.forall_mem_cons.mp htext
    obtain ⟨c, others, rfl, hc, hothers⟩ := List.map_eq_cons_iff.mp hsame
    have hchar := lowerChar_of_toLower_eq hd hc
    have hbetween : lowerBetween before c others = [d] := by
      rcases lowerBetween_cases before c others with heq | ⟨rfl, -⟩
      · rw [heq, hchar]
      · -- A capital sigma is no ASCII letter, so it would have to be `d` itself.
        have hsigma : IsLowered 'Σ' := by
          rw [toLower_of_not_ascii (by decide), hd.toLower_eq] at hc
          rwa [hc]
        exact absurd hsigma (by decide +kernel)
    rw [lowerAfter_cons, hbetween, ih hothers hrest, List.singleton_append]

end RepoAtlas.Text
