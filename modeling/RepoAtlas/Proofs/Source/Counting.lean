import RepoAtlas.Proofs.Outcome
import RepoAtlas.Proofs.Text.Ascii
import RepoAtlas.Proofs.Text.Lowering
import RepoAtlas.Source.Metrics

/-!
# `RepoAtlas.Proofs.Source.Counting`: counts that add up

Matches are counted from left to right, and the search goes on behind each match, so a count could
depend on where it starts. It does not where each match stands for one place of the text and all
places that are meant lie in matches (`Marks`): a line break for its line feed, a marker of debt for
its first letter. Such a count is one of places, and the places of two texts side by side are those
of the one and of the other.

* `addMatches_eq`: a count of matches is one of places.
* `countLines_eq`: there is one line more than there are line feeds, whatever carriage returns
  stand before them.
* `countDebtMarkers_eq`: no marker of debt is hidden by an earlier one.
* `counts_add_up`: lines and markers of debt of texts that are put together.
-/

set_option autoImplicit false

namespace RepoAtlas.Source

open RepoAtlas.Text

variable {text : List Char} {begins : List Char → Bool} {matchFront : List Char → Option Nat}

/-! ### Matches and places -/

/-- The number of places of a text where something begins, which the text from there on tells. -/
def countPlaces (begins : List Char → Bool) (text : List Char) : Nat :=
  (List.range text.length).countP fun place => begins (text.drop place)

/-- Nothing begins in an empty text. -/
@[simp]
theorem countPlaces_nil (begins : List Char → Bool) : countPlaces begins [] = 0 := rfl

/-- Places are counted from the front. -/
theorem countPlaces_cons (begins : List Char → Bool) (c : Char) (rest : List Char) :
    countPlaces begins (c :: rest)
      = (if begins (c :: rest) then 1 else 0) + countPlaces begins rest := by
  show (List.range (rest.length + 1)).countP _ = _
  rw [List.range_succ_eq_map, List.countP_cons, List.countP_map, Nat.add_comm]
  rfl

/-- Places where nothing begins do not count. -/
theorem countPlaces_append_of_forall {inner : List Char}
    (h : ∀ c ∈ inner, ∀ back, begins (c :: back) = false) (rest : List Char) :
    countPlaces begins (inner ++ rest) = countPlaces begins rest := by
  induction inner with
  | nil => rfl
  | cons c inner ih =>
    have hc := h c List.mem_cons_self (inner ++ rest)
    have hinner := ih fun d hd => h d (List.mem_cons_of_mem _ hd)
    rw [List.cons_append, countPlaces_cons, hc, hinner]
    simp

/-- Each match stands for one place, and every place that counts is in a match. -/
structure Marks (matchFront : List Char → Option Nat) (begins : List Char → Bool) : Prop where
  begins_of_none : ∀ {text}, matchFront text = none → begins text = false
  positive : ∀ {text length}, matchFront text = some length → 0 < length
  countPlaces_of_some : ∀ {text length}, matchFront text = some length →
    countPlaces begins text = countPlaces begins (text.drop length) + 1

/-- Matches are counted by the places they stand for, whatever part of the text is passed over. -/
theorem addMatches_eq (h : Marks matchFront begins) (total skip : Nat) (text : List Char) :
    addMatches matchFront total skip text = total + countPlaces begins (text.drop skip) := by
  induction text generalizing total skip with
  | nil => simp [addMatches]
  | cons c rest ih =>
    cases skip with
    | succ skip => exact ih total skip
    | zero =>
      rw [List.drop_zero]
      unfold addMatches
      split
      · next length hmatch =>
        -- The search goes on behind the match, where the places that are left begin.
        have hpositive := h.positive hmatch
        have hplaces := h.countPlaces_of_some hmatch
        obtain ⟨skip, rfl⟩ : ∃ skip, length = skip + 1 := ⟨length - 1, by omega⟩
        rw [List.drop_succ_cons] at hplaces
        rw [ih, hplaces, Nat.add_sub_cancel]
        omega
      · next hmatch =>
        rw [ih, countPlaces_cons, h.begins_of_none hmatch, List.drop_zero]
        simp

/-- Matches are counted by the places where they begin, if no match hides the begin of another. -/
theorem countMatches_eq (h : Marks matchFront begins) (text : List Char) :
    countMatches matchFront text = countPlaces begins text := by
  have hadd := addMatches_eq h 0 0 text
  rwa [Nat.zero_add, List.drop_zero] at hadd

/-! ### Lines -/

/-- Whether a text begins with a line feed. -/
def startsWithFeed (text : List Char) : Bool :=
  text.head? = some '\n'

/-- Breaks are counted by the line feeds. -/
theorem countPlaces_startsWithFeed (text : List Char) :
    countPlaces startsWithFeed text = text.count '\n' := by
  induction text with
  | nil => rfl
  | cons c rest ih =>
    rw [countPlaces_cons, ih, List.count_cons, Nat.add_comm]
    simp [startsWithFeed]

/-- A line break stands for its line feed. A line feed may be a match of its own within a longer
one, so breaks are not counted by where they start. -/
theorem marks_matchBreak : Marks matchBreak startsWithFeed where
  begins_of_none {text} h := by
    unfold matchBreak at h
    split at h
    · cases h
    · cases h
    · -- No feed stands in front, and neither a return with a feed behind it.
      next hfeed _ =>
      cases text with
      | nil => rfl
      | cons c rest =>
        have hc : c ≠ '\n' := fun hc => hfeed rest (by rw [hc])
        simp [startsWithFeed, hc]
  positive {text length} h := by
    unfold matchBreak at h
    split at h
    · cases h; omega
    · cases h; omega
    · cases h
  countPlaces_of_some {text length} h := by
    simp only [countPlaces_startsWithFeed]
    unfold matchBreak at h
    split at h
    · cases h; simp
    · cases h; simp
    · cases h

/-- There is one line more than there are line feeds. -/
theorem countLines_eq (text : List Char) : countLines text = text.count '\n' + 1 := by
  rw [countLines, countMatches_eq marks_matchBreak, countPlaces_startsWithFeed]

/-- The last line of the front and the first of the back are one. -/
theorem countLines_append (front back : List Char) :
    countLines (front ++ back) = countLines front + countLines back - 1 := by
  simp only [countLines_eq, List.count_append]
  omega

/-! ### Markers of debt -/

/-- The characters that pass for a letter of a marker of debt when case does not matter. -/
def formsOf (letter : Char) : List Char :=
  if letter = 'i' then ['i', 'I', 'ı', 'İ'] else [letter, letter.toUpper]

/-- The letters of the markers of debt. -/
def markerLetters : List Char :=
  "todofixme".toList

/-- A marker of debt starts at a place of a text: its letters follow there, each in some form. -/
def MarkerAt (text : List Char) (place : Nat) : Prop :=
  ∃ word ∈ ["todo", "fixme"], ∃ written, written <+: text.drop place ∧
    List.Forall₂ (fun letter c => c ∈ formsOf letter) word.toList written

/-- The words of markers consist of their letters. -/
theorem mem_markerLetters {word : List Char} (h : word ∈ debtWords) :
    ∀ letter ∈ word, letter ∈ markerLetters := by
  have hall : debtWords.all (fun word => word.all fun letter => decide (letter ∈ markerLetters))
      = true := by decide
  exact forall_mem_of_all (List.all_eq_true.mp hall word h)

/-- A letter of a marker is written in its forms: two, or four for the letter i. -/
theorem isFormOf_iff {letter c : Char} (h : letter ∈ markerLetters) :
    isFormOf letter c = true ↔ c ∈ formsOf letter := by
  by_cases hascii : c.toNat < 128
  · have hcodes : ∀ code < 128, markerLetters.all (fun letter =>
        isFormOf letter (Char.ofNat code) = decide (Char.ofNat code ∈ formsOf letter)) = true := by
      decide +kernel
    have hall := of_forall_code (p := fun c => markerLetters.all (fun letter =>
      isFormOf letter c = decide (c ∈ formsOf letter)) = true) hcodes hascii
    have hforms := of_decide_eq_true (List.all_eq_true.mp hall letter h)
    rw [hforms, decide_eq_true_iff]
  · -- Beyond ASCII there are only the two further forms of an `i`.
    have hletters : markerLetters.all (fun letter =>
        letter.toNat < 128 ∧ letter.toUpper.toNat < 128 ∧ letter ≠ 's') = true := by decide
    obtain ⟨hlower, hupper, hs⟩ := of_decide_eq_true (List.all_eq_true.mp hletters letter h)
    have hne : ∀ d : Char, d.toNat < 128 → c ≠ d := by
      rintro d hd rfl
      exact hascii hd
    have hi := hne 'i' (by decide)
    have hI := hne 'I' (by decide)
    by_cases hletter : letter = 'i' <;>
      simp [isFormOf, formsOf, toLower_of_not_ascii (Nat.le_of_not_lt hascii), hletter, hs, hi, hI,
        hne letter hlower, hne letter.toUpper hupper]

/-- A text starts with a word if the letters of the word follow in it. -/
theorem startsWithWord_iff {word : List Char} (h : ∀ letter ∈ word, letter ∈ markerLetters) :
    startsWithWord word text = true ↔
      ∃ written, written <+: text ∧
        List.Forall₂ (fun letter c => c ∈ formsOf letter) word written := by
  -- Letter by letter: each is written in one of its forms.
  induction word generalizing text with
  | nil => simp [startsWithWord]
  | cons letter word ih =>
    obtain ⟨hletter, hword⟩ := List.forall_mem_cons.mp h
    cases text with
    | nil => simp [startsWithWord]
    | cons c rest =>
      rw [startsWithWord, Bool.and_eq_true, isFormOf_iff hletter, ih hword]
      constructor
      · rintro ⟨hc, written, hprefix, hwritten⟩
        exact ⟨c :: written, List.cons_prefix_cons.mpr ⟨rfl, hprefix⟩, .cons hc hwritten⟩
      · rintro ⟨written, hprefix, hwritten⟩
        obtain _ | ⟨hc, hwritten⟩ := hwritten
        obtain ⟨rfl, hrest⟩ := List.cons_prefix_cons.mp hprefix
        exact ⟨hc, _, hrest, hwritten⟩

/-- Whether a text starts with a marker of debt. -/
def startsWithMarker (text : List Char) : Bool :=
  debtWords.any (startsWithWord · text)

/-- A text begins with a marker if one stands at its first place. -/
theorem startsWithMarker_iff (text : List Char) (place : Nat) :
    startsWithMarker (text.drop place) = true ↔ MarkerAt text place := by
  have hwords : debtWords = ["todo", "fixme"].map String.toList := rfl
  rw [startsWithMarker, hwords, List.any_map, List.any_eq_true]
  refine exists_congr fun word => and_congr_right fun hword => startsWithWord_iff ?_
  exact mem_markerLetters (hwords ▸ List.mem_map_of_mem hword)

instance (text : List Char) : DecidablePred (MarkerAt text) :=
  fun place => decidable_of_iff _ (startsWithMarker_iff text place)

/-- No letter of a marker but its first one starts a marker. -/
theorem startsWithMarker_of_later {letter c : Char} (h : letter ∈ debtWords.flatMap List.tail)
    (hc : c ∈ formsOf letter) (rest : List Char) : startsWithMarker (c :: rest) = false := by
  have hapart : (debtWords.flatMap List.tail).all (fun letter => (formsOf letter).all fun c =>
      !isFormOf 't' c && !isFormOf 'f' c) = true := by decide
  have hboth := List.all_eq_true.mp (List.all_eq_true.mp hapart letter h) c hc
  rw [Bool.and_eq_true, Bool.not_eq_true', Bool.not_eq_true'] at hboth
  simp [startsWithMarker, debtWords, startsWithWord, hboth]

/-- Where a match of a marker is, its letters are. -/
theorem exists_of_matchWord {length : Nat} (h : matchWord debtWords text = some length) :
    ∃ word ∈ debtWords, word.length = length ∧ startsWithWord word text = true := by
  obtain ⟨word, hfind, hlength⟩ := Option.map_eq_some_iff.mp h
  have hstarts := List.find?_some hfind
  exact ⟨word, List.mem_of_find?_eq_some hfind, hlength, hstarts⟩

/-- A match of a marker stands for its first letter, since no other marker starts within it. -/
theorem marks_matchWord : Marks (matchWord debtWords) startsWithMarker where
  begins_of_none {text} h := by
    rw [matchWord, Option.map_eq_none_iff, List.find?_eq_none] at h
    exact List.any_eq_false.mpr h
  positive {text length} h := by
    obtain ⟨word, hword, rfl, -⟩ := exists_of_matchWord h
    have hfilled : ∀ word ∈ debtWords, 0 < word.length := by decide
    exact hfilled word hword
  countPlaces_of_some {text length} h := by
    obtain ⟨word, hword, rfl, hstarts⟩ := exists_of_matchWord h
    have hhere : startsWithMarker text = true := List.any_eq_true.mpr ⟨word, hword, hstarts⟩
    obtain ⟨written, ⟨rest, rfl⟩, hwritten⟩ :=
      (startsWithWord_iff (mem_markerLetters hword)).mp hstarts
    rw [hwritten.length_eq, List.drop_left]
    cases hwritten with
    | nil => exact absurd hword (by decide)
    | @cons letter c word inner _ hinner =>
      -- A marker has no other one beginning within it, so jumping over it hides none.
      have hlater : ∀ d ∈ inner, ∀ back, startsWithMarker (d :: back) = false := by
        intro d hd back
        obtain ⟨later, hmem, hform⟩ := (exists_of_forall₂ hinner).2 d hd
        exact startsWithMarker_of_later (List.mem_flatMap.mpr ⟨_, hword, hmem⟩) hform back
      rw [List.cons_append] at hhere ⊢
      rw [countPlaces_cons, hhere, countPlaces_append_of_forall hlater, if_pos rfl, Nat.add_comm]

/-- Markers are counted by the places where they stand. -/
theorem countDebtMarkers_eq (text : List Char) :
    countDebtMarkers text = (List.range text.length).countP (MarkerAt text ·) := by
  rw [countDebtMarkers, countWords, countMatches_eq marks_matchWord]
  refine List.countP_congr fun place _ => ?_
  rw [startsWithMarker_iff, decide_eq_true_iff]

/-! ### Texts that are put together -/

/-- What is no form of a letter of a word ends every text that starts with the word. -/
theorem startsWithWord_append_separator {word : List Char} {separator : Char}
    (h : ∀ letter ∈ word, isFormOf letter separator = false) (front back : List Char) :
    startsWithWord word (front ++ separator :: back) = startsWithWord word front := by
  induction word generalizing front with
  | nil => simp [startsWithWord]
  | cons letter word ih =>
    obtain ⟨hletter, hword⟩ := List.forall_mem_cons.mp h
    cases front with
    | nil => simp [startsWithWord, hletter]
    | cons c front => rw [List.cons_append, startsWithWord, startsWithWord, ih hword]

/-- Places in a text with a separator are those before it and those behind it, where the separator
ends everything that might begin before it. -/
theorem countPlaces_append_separator {separator : Char}
    (h : ∀ front back, begins (front ++ separator :: back) = begins front)
    (hnil : begins [] = false) (front back : List Char) :
    countPlaces begins (front ++ separator :: back)
      = countPlaces begins front + countPlaces begins back := by
  -- By induction on the front: each place in it sees the separator or what is before it.
  induction front with
  | nil =>
    have hseparator := h [] back
    rw [List.nil_append] at hseparator ⊢
    rw [countPlaces_cons, hseparator, hnil]
    simp
  | cons c front ih =>
    have hhere := h (c :: front) back
    rw [List.cons_append] at hhere ⊢
    rw [countPlaces_cons, countPlaces_cons, ih, hhere]
    omega

/-- Between two texts that a separator keeps apart no marker of debt comes about. -/
theorem countDebtMarkers_append {separator : Char}
    (h : ∀ letter ∈ markerLetters, separator ∉ formsOf letter) (front back : List Char) :
    countDebtMarkers (front ++ separator :: back)
      = countDebtMarkers front + countDebtMarkers back := by
  -- No marker goes on over the separator, since no form of its letters is one.
  have hbegins : ∀ front back,
      startsWithMarker (front ++ separator :: back) = startsWithMarker front := by
    intro front back
    have hwords : ∀ word ∈ debtWords, startsWithWord word (front ++ separator :: back)
        = startsWithWord word front := by
      intro word hword
      refine startsWithWord_append_separator (fun letter hletter => ?_) front back
      have hmem := mem_markerLetters hword letter hletter
      exact Bool.eq_false_iff.mpr fun hform => h letter hmem ((isFormOf_iff hmem).mp hform)
    rw [Bool.eq_iff_iff, startsWithMarker, startsWithMarker, List.any_eq_true, List.any_eq_true]
    exact exists_congr fun word => and_congr_right fun hword => by rw [hwords word hword]
  simp only [countDebtMarkers, countWords, countMatches_eq marks_matchWord]
  exact countPlaces_append_separator hbegins rfl front back

/-- Lines and markers of debt are counted without regard to how a text is put together. There is one
line more than there are line feeds, and every place where a marker of debt starts counts, so counts
add up: those of lines wherever the text is cut, also between a carriage return and its line feed;
those of markers where a separator stands that is no form of a letter of theirs. -/
theorem counts_add_up (text front back : List Char) :
    countLines text = text.count '\n' + 1 ∧
      countLines (front ++ back) = countLines front + countLines back - 1 ∧
      countDebtMarkers text = (List.range text.length).countP (MarkerAt text ·) ∧
      ∀ separator, (∀ letter ∈ markerLetters, separator ∉ formsOf letter) →
        countDebtMarkers (front ++ separator :: back)
          = countDebtMarkers front + countDebtMarkers back :=
  ⟨countLines_eq text, countLines_append front back, countDebtMarkers_eq text,
    fun _ hseparator => countDebtMarkers_append hseparator front back⟩

/-- A text that is cut within a line break, and two markers with a colon between them. -/
theorem counts_add_up_mixedCase :
    countLines ("fix\r".toList ++ "\nme".toList)
        = countLines "fix\r".toList + countLines "\nme".toList - 1 ∧
      (∀ letter ∈ markerLetters, ':' ∉ formsOf letter) ∧
      countDebtMarkers ("toDO".toList ++ ':' :: "fıxme".toList)
        = countDebtMarkers "toDO".toList + countDebtMarkers "fıxme".toList := by
  have hseparator : ∀ letter ∈ markerLetters, ':' ∉ formsOf letter :=
    forall_mem_of_all (by decide)
  obtain ⟨-, hlines, -, -⟩ := counts_add_up [] "fix\r".toList "\nme".toList
  obtain ⟨-, -, -, hmarkers⟩ := counts_add_up [] "toDO".toList "fıxme".toList
  exact ⟨hlines, hseparator, hmarkers ':' hseparator⟩

end RepoAtlas.Source
