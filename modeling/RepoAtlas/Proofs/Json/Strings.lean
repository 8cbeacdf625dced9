import RepoAtlas.Json.Reader
import RepoAtlas.Json.Writer
import RepoAtlas.Proofs.CodeText
import RepoAtlas.Proofs.Text.Ascii

/-!
# `RepoAtlas.Proofs.Json.Strings`: strings read back as they were written

The writer turns every character into one of four forms: the character itself, a letter after a
backslash, the escape of its code unit, or the escapes of a pair of halves. A half by itself is
written as the escape of its code unit. The reader takes each form as one code point, so a written
string reads as the string. The one exception is a first half that a second half follows: the two
are written like the character that they stand for, and read as that character.

* `readCharacters_writePoint`: the reader takes the form of a code point as that code point.
* `writeString_joined`: a string is written like the one with characters in place of its pairs.
* `readString_writeString`: a written string without pairs reads back.
* `isPlain_writeString`: a written string is plain.
-/

set_option autoImplicit false

namespace RepoAtlas.Json

open RepoAtlas.Text
open CodePoint (isHighHalf isLowHalf ofCode ofCodes)

/-- A reading that has a value and goes on at a text. Offsets are left open: they only show in
errors. -/
def Yields {α : Type} (reading : Reading α) (value : α) (tail : List Char) : Prop :=
  ∃ offset, reading = .ok (value, ⟨offset, tail⟩)

/-! ### Code units -/

/-- Four digits, each for four bits of the unit. -/
theorem hexPadded_four {unit : Nat} (h : unit < 0x10000) :
    (hexPadded 4 unit).toList = [(unit / 4096).digitChar, (unit / 256 % 16).digitChar,
      (unit / 16 % 16).digitChar, (unit % 16).digitChar] := by
  have hsplit : ∀ n, 16 ≤ n →
      Nat.toDigits 16 n = Nat.toDigits 16 (n / 16) ++ [(n % 16).digitChar] :=
    fun n => Nat.toDigits_of_base_le (by decide)
  have hone : ∀ n, n < 16 → Nat.toDigits 16 n = [n.digitChar] := fun n => Nat.toDigits_of_lt_base
  have hzero : ∀ n, n = 0 → n.digitChar = '0' := by rintro n rfl; rfl
  have hdiv : unit / 16 / 16 = unit / 256 := by omega
  have hdiv' : unit / 256 / 16 = unit / 4096 := by omega
  unfold hexPadded
  -- The number of digits without padding decides how many zeros are put in front.
  by_cases h1 : unit < 16
  · simp [hone unit h1, hzero (unit / 4096) (by omega), hzero (unit / 256 % 16) (by omega),
      hzero (unit / 16 % 16) (by omega), Nat.mod_eq_of_lt h1, List.replicate]
  by_cases h2 : unit < 256
  · simp [hsplit unit (by omega), hone (unit / 16) (by omega), hzero (unit / 4096) (by omega),
      hzero (unit / 256 % 16) (by omega), Nat.mod_eq_of_lt (show unit / 16 < 16 by omega),
      List.replicate]
  by_cases h3 : unit < 4096
  · simp [hsplit unit (by omega), hsplit (unit / 16) (by omega), hdiv,
      hone (unit / 256) (by omega), hzero (unit / 4096) (by omega),
      Nat.mod_eq_of_lt (show unit / 256 < 16 by omega)]
  · simp [hsplit unit (by omega), hsplit (unit / 16) (by omega), hdiv,
      hsplit (unit / 256) (by omega), hdiv', hone (unit / 4096) (by omega)]

/-- A digit is a decimal one or a small letter. -/
theorem digitChar_cases : ∀ d < 16,
    ((Nat.digitChar d).isDigit = true ∧ (Nat.digitChar d).toNat - '0'.toNat = d) ∨
    ((Nat.digitChar d).isDigit = false ∧ 'a' ≤ Nat.digitChar d ∧ Nat.digitChar d ≤ 'f' ∧
      (Nat.digitChar d).toNat - 'a'.toNat + 10 = d) := by
  decide

/-- A digit at the end counts once, and those before it sixteen times. -/
theorem hexValue?_append_digitChar (text : List Char) {d : Nat} (h : d < 16) :
    hexValue? (text ++ [d.digitChar]) = (hexValue? text).map (16 * · + d) := by
  rw [hexValue?, List.foldl_append]
  show Option.bind (hexValue? text) _ = _
  cases hexValue? text with
  | none => rfl
  | some value =>
    rcases digitChar_cases d h with ⟨hdigit, hvalue⟩ | ⟨hno, hge, hle, hvalue⟩
    · simpa [hdigit] using hvalue
    · simpa [hno, hge, hle] using hvalue

/-- The four digits of a code unit have its value. -/
theorem hexValue?_hexPadded {unit : Nat} (h : unit < 0x10000) :
    hexValue? (hexPadded 4 unit).toList = some unit := by
  have hnil : hexValue? [] = some 0 := rfl
  rw [hexPadded_four h]
  -- One digit after the other, from no digits on.
  show hexValue? ([] ++ [_] ++ [_] ++ [_] ++ [_]) = _
  rw [hexValue?_append_digitChar _ (by omega), hexValue?_append_digitChar _ (by omega),
    hexValue?_append_digitChar _ (by omega), hexValue?_append_digitChar _ (by omega), hnil]
  simp only [Option.map_some, Option.some.injEq]
  omega

/-- The escape of a code unit: a backslash, a letter and four digits. -/
theorem toList_unitEscape {unit : Nat} (h : unit < 0x10000) :
    ∃ digits, (unitEscape unit).toList = '\\' :: 'u' :: digits ∧ digits.length = 4 ∧
      hexValue? digits = some unit ∧ ∀ c ∈ digits, IsPlain c := by
  have hplain : ∀ d < 16, IsPlain (Nat.digitChar d) := by decide
  refine ⟨(hexPadded 4 unit).toList, ?_, ?_, hexValue?_hexPadded h, ?_⟩
  · rw [unitEscape, String.toList_append]
    rfl
  · rw [hexPadded_four h]
    rfl
  · rw [hexPadded_four h]
    simp only [List.forall_mem_cons]
    exact ⟨hplain _ (by omega), hplain _ (by omega), hplain _ (by omega), hplain _ (by omega),
      List.forall_mem_nil _⟩

/-- Something must follow the digits of a code unit. -/
theorem codeUnit?_take {digits tail : List Char} {unit : Nat} (hlength : digits.length = 4)
    (hvalue : hexValue? digits = some unit) (htail : tail ≠ []) :
    codeUnit? ((digits ++ tail).take 5) = some unit := by
  have hpos := List.length_pos_of_ne_nil htail
  have hsize : ¬ ((digits ++ tail).take 5).length < 5 := by
    simp only [List.length_take, List.length_append]
    omega
  rw [codeUnit?, if_neg hsize, List.take_take, List.take_append_of_le_length (by omega),
    List.take_of_length_le (by omega), hvalue]

/-! ### Characters -/

variable {opening offset : Nat} {done : List CodePoint} {tail : List Char}

/-- What an escape has used up is passed over. -/
theorem readCharacters_skip {skip : Nat} {skipped : List Char} (h : skipped.length = skip) :
    readCharacters opening done offset skip (skipped ++ tail)
      = readCharacters opening done (offset + skip) 0 tail := by
  subst h
  induction skipped generalizing offset with
  | nil => rfl
  | cons c rest ih =>
    show readCharacters opening done (offset + 1) rest.length (rest ++ tail) = _
    rw [ih, List.length_cons, Nat.add_assoc, Nat.add_comm 1]

/-- A character that needs no escape stands for itself. -/
theorem readCharacters_self {c : Char} (hquote : c ≠ '"') (hslash : c ≠ '\\')
    (hcontrol : ¬ c.toNat < 0x20) :
    readCharacters opening done offset 0 (c :: tail)
      = readCharacters opening (.char c :: done) (offset + 1) 0 tail := by
  rw [readCharacters.eq_def]
  simp only [if_neg hquote, if_neg hslash, if_neg hcontrol]

/-- A letter after a backslash stands for what it means. -/
theorem readCharacters_letter {letter meant : Char} (h : escaped? letter = some meant) :
    readCharacters opening done offset 0 ('\\' :: letter :: tail)
      = readCharacters opening (.char meant :: done) (offset + 2) 0 tail := by
  have hu : letter ≠ 'u' := by
    rintro rfl
    cases h
  rw [readCharacters, if_neg (by decide), if_pos rfl]
  · simp only [h]
    exact readCharacters_skip (show [letter].length = 1 from rfl)
  · exact hu

/-- A text that does not start with the escape of a second half. If it starts with an escape at all,
it is that of another code unit. -/
def StartsNoLowHalf (text : List Char) : Prop :=
  text.take 2 = ['\\', 'u'] →
    ∃ unit, codeUnit? ((text.drop 2).take 5) = some unit ∧ isLowHalf unit = false

/-- The escape of a code unit stands for its code point, unless it is a first half that a second one
follows. -/
theorem readCharacters_unitEscape {unit : Nat} (h : unit < 0x10000)
    (halone : isHighHalf unit = true → StartsNoLowHalf tail) (htail : tail ≠ []) :
    readCharacters opening done offset 0 ((unitEscape unit).toList ++ tail)
      = readCharacters opening (ofCode unit :: done) (offset + 6) 0 tail := by
  obtain ⟨digits, htext, hlength, hvalue, -⟩ := toList_unitEscape h
  have hskipped : ('u' :: digits).length = 5 := by
    rw [List.length_cons, hlength]
  have hskip : readCharacters opening (ofCode unit :: done) (offset + 1) 5
      ('u' :: digits ++ tail) = _ := readCharacters_skip hskipped
  have hafter : (digits ++ tail).drop 4 = tail := List.drop_left' hlength
  have hafter' : (digits ++ tail).drop 6 = tail.drop 2 := by
    rw [show 6 = 4 + 2 from rfl, ← List.drop_drop, hafter]
  rw [htext, List.cons_append, List.cons_append, readCharacters, if_neg (by decide), if_pos rfl]
  simp only [codeUnit?_take hlength hvalue htail, hafter, hafter']
  -- The reader looks for a second half only behind a first one.
  split
  · next hahead =>
    simp only [Bool.and_eq_true, decide_eq_true_eq] at hahead
    obtain ⟨other, hother, hno⟩ := halone hahead.1.1 hahead.1.2
    simp only [hother, hno, Bool.false_eq_true, if_false]
    exact hskip
  · exact hskip

/-- The escapes of a pair of halves stand for the character of the pair. -/
theorem readCharacters_pair {high low : Nat} (hhigh : isHighHalf high = true)
    (hlow : isLowHalf low = true) (htail : tail ≠ []) :
    readCharacters opening done offset 0
        ((unitEscape high).toList ++ ((unitEscape low).toList ++ tail))
      = readCharacters opening (ofCodes high low :: done) (offset + 12) 0 tail := by
  have hhigh' : high < 0x10000 := by simp [isHighHalf] at hhigh; omega
  have hlow' : low < 0x10000 := by simp [isLowHalf] at hlow; omega
  obtain ⟨digits, htext, hlength, hvalue, -⟩ := toList_unitEscape hhigh'
  obtain ⟨digits', htext', hlength', hvalue', -⟩ := toList_unitEscape hlow'
  -- All of both escapes is skipped at once, from the first backslash on.
  have hskipped : ('u' :: (digits ++ '\\' :: 'u' :: digits')).length = 11 := by
    simp only [List.length_cons, List.length_append, hlength, hlength']
  have hskip : readCharacters opening (ofCodes high low :: done) (offset + 1) 11
      ('u' :: (digits ++ '\\' :: 'u' :: digits') ++ tail) = _ := readCharacters_skip hskipped
  rw [List.cons_append, List.append_assoc] at hskip
  -- The reader looks ahead of the first four digits for the second escape.
  have hpos := List.length_pos_of_ne_nil htail
  have hafter : (digits ++ '\\' :: 'u' :: (digits' ++ tail)).drop 4
      = '\\' :: 'u' :: (digits' ++ tail) := List.drop_left' hlength
  have hafter' : (digits ++ '\\' :: 'u' :: (digits' ++ tail)).drop 6 = digits' ++ tail := by
    rw [show 6 = 4 + 2 from rfl, ← List.drop_drop, hafter]
    rfl
  have hnext : ('\\' :: 'u' :: (digits' ++ tail)).take 2 = ['\\', 'u'] := rfl
  have hroom : 6 < (('\\' :: 'u' :: (digits' ++ tail)).take 7).length := by
    simp only [List.length_take, List.length_cons, List.length_append]
    omega
  rw [htext, htext', List.cons_append, List.cons_append, readCharacters, if_neg (by decide),
    if_pos rfl]
  simp only [List.cons_append, codeUnit?_take hlength hvalue (List.cons_ne_nil _ _), hafter,
    hafter', hhigh, hnext, hroom, codeUnit?_take hlength' hvalue' htail, hlow, decide_true,
    Bool.and_self, if_true]
  exact hskip

/-! ### Written code points -/

/-- A character is no half of a pair, so its code unit stands for it. -/
theorem ofCode_toNat (c : Char) :
    isHighHalf c.toNat = false ∧ isLowHalf c.toNat = false ∧ ofCode c.toNat = .char c := by
  have hvalid : c.toNat < 0xD800 ∨ 0xDFFF < c.toNat ∧ c.toNat < 0x110000 := c.valid
  have hhigh : isHighHalf c.toNat = false := by
    simp only [isHighHalf, Bool.and_eq_false_iff, decide_eq_false_iff_not]
    omega
  have hlow : isLowHalf c.toNat = false := by
    simp only [isLowHalf, Bool.and_eq_false_iff, decide_eq_false_iff_not]
    omega
  refine ⟨hhigh, hlow, ?_⟩
  rw [ofCode, hhigh, hlow]
  exact congrArg CodePoint.char (Char.ofNat_toNat c)

/-- The code unit of a first half stands for it. -/
theorem ofCode_high (half : Fin 0x400) :
    isHighHalf (0xD800 + half) = true ∧ isLowHalf (0xD800 + half) = false ∧
      ofCode (0xD800 + half) = .high half := by
  have hhigh : isHighHalf (0xD800 + half) = true := by
    simp only [isHighHalf, Bool.and_eq_true, decide_eq_true_eq]
    omega
  have hlow : isLowHalf (0xD800 + half) = false := by
    simp only [isLowHalf, Bool.and_eq_false_iff, decide_eq_false_iff_not]
    omega
  refine ⟨hhigh, hlow, ?_⟩
  rw [ofCode, if_pos hhigh, Nat.add_sub_cancel_left]
  exact congrArg CodePoint.high (Fin.ofNat_val_eq_self half)

/-- The code unit of a second half stands for it. -/
theorem ofCode_low (half : Fin 0x400) :
    isHighHalf (0xDC00 + half) = false ∧ isLowHalf (0xDC00 + half) = true ∧
      ofCode (0xDC00 + half) = .low half := by
  have hhigh : isHighHalf (0xDC00 + half) = false := by
    simp only [isHighHalf, Bool.and_eq_false_iff, decide_eq_false_iff_not]
    omega
  have hlow : isLowHalf (0xDC00 + half) = true := by
    simp only [isLowHalf, Bool.and_eq_true, decide_eq_true_eq]
    omega
  refine ⟨hhigh, hlow, ?_⟩
  rw [ofCode, hhigh, hlow, if_neg Bool.false_ne_true, if_pos rfl, Nat.add_sub_cancel_left]
  exact congrArg CodePoint.low (Fin.ofNat_val_eq_self half)

/-- The halves of a character beyond the basic plane are a pair that stands for it. -/
theorem ofCodes_halves {c : Char} (h : 0x10000 ≤ c.toNat) :
    let code := c.toNat - 0x10000
    isHighHalf (0xD800 + code / 0x400) = true ∧ isLowHalf (0xDC00 + code % 0x400) = true ∧
      ofCodes (0xD800 + code / 0x400) (0xDC00 + code % 0x400) = .char c := by
  intro code
  have hvalid : c.toNat < 0xD800 ∨ 0xDFFF < c.toNat ∧ c.toNat < 0x110000 := c.valid
  refine ⟨?_, ?_, ?_⟩
  · simp only [isHighHalf, Bool.and_eq_true, decide_eq_true_eq]
    omega
  · simp only [isLowHalf, Bool.and_eq_true, decide_eq_true_eq]
    omega
  · -- The two halves hold the upper and the lower ten bits, which are put together again.
    have hcode : 0x10000 + (0xD800 + code / 0x400 - 0xD800) % 0x400 * 0x400
        + (0xDC00 + code % 0x400 - 0xDC00) % 0x400 = c.toNat := by
      omega
    rw [ofCodes, CodePoint.ofPair, Fin.val_ofNat, Fin.val_ofNat, hcode]
    exact congrArg CodePoint.char (Char.ofNat_toNat c)

/-- A pair of halves is written like the character that it stands for. -/
theorem writeChar_ofPair (high low : Fin 0x400) :
    writeChar (CodePoint.ofPair high low) = writePoint (.high high) ++ writePoint (.low low) := by
  have hvalid : (0x10000 + high * 0x400 + low : Nat).isValidChar := by
    refine Or.inr ⟨?_, ?_⟩ <;> omega
  have hcode : (CodePoint.ofPair high low).toNat = 0x10000 + high * 0x400 + low := by
    rw [CodePoint.ofPair, Char.ofNat, dif_pos hvalid]
    rfl
  have hsmall : ∀ c : Char, c.toNat < 0x10000 → CodePoint.ofPair high low ≠ c := by
    rintro c hc rfl
    omega
  have hhigh : (0x10000 + high * 0x400 + low - 0x10000 : Nat) / 0x400 = high := by omega
  have hlow : (0x10000 + high * 0x400 + low - 0x10000 : Nat) % 0x400 = low := by omega
  -- A pair is beyond every character with a form of its own, so it is written as two units.
  have hplain : ¬ (decide (0x20 ≤ (CodePoint.ofPair high low).toNat) &&
      decide ((CodePoint.ofPair high low).toNat < 0x7F)) = true := by
    simp only [Bool.and_eq_true, decide_eq_true_eq]
    omega
  rw [writeChar, if_neg (hsmall _ (by decide)), if_neg (hsmall _ (by decide)),
    if_neg (hsmall _ (by decide)), if_neg (hsmall _ (by decide)), if_neg (hsmall _ (by decide)),
    if_neg (hsmall _ (by decide)), if_neg (hsmall _ (by decide)), if_neg hplain,
    if_neg (by omega)]
  simp only [hcode, hhigh, hlow]
  rfl

/-- The four forms of a written character. -/
theorem writeChar_cases (c : Char) :
    (writeChar c = String.singleton c ∧ c ≠ '"' ∧ c ≠ '\\' ∧ 0x20 ≤ c.toNat ∧ c.toNat < 0x7F) ∨
    (∃ letter, (writeChar c).toList = ['\\', letter] ∧ escaped? letter = some c ∧
      IsPlain letter) ∨
    (writeChar c = unitEscape c.toNat ∧ c.toNat < 0x10000) ∨
    (writeChar c = unitEscape (0xD800 + (c.toNat - 0x10000) / 0x400) ++
      unitEscape (0xDC00 + (c.toNat - 0x10000) % 0x400) ∧ 0x10000 ≤ c.toNat) := by
  -- In the order of the writer: quote and backslash, the letters, plain characters, one unit, two
  -- units.
  unfold writeChar
  split
  · next h => exact Or.inr (Or.inl ⟨'"', rfl, by rw [h]; rfl, by decide⟩)
  next hquote =>
  split
  · next h => exact Or.inr (Or.inl ⟨'\\', rfl, by rw [h]; rfl, by decide⟩)
  next hslash =>
  split
  · next h => exact Or.inr (Or.inl ⟨'n', rfl, by rw [h]; rfl, by decide⟩)
  split
  · next h => exact Or.inr (Or.inl ⟨'r', rfl, by rw [h]; rfl, by decide⟩)
  split
  · next h => exact Or.inr (Or.inl ⟨'t', rfl, by rw [h]; rfl, by decide⟩)
  split
  · next h => exact Or.inr (Or.inl ⟨'b', rfl, by rw [h]; rfl, by decide⟩)
  split
  · next h => exact Or.inr (Or.inl ⟨'f', rfl, by rw [h]; rfl, by decide⟩)
  split
  · next h =>
    simp only [Bool.and_eq_true, decide_eq_true_eq] at h
    exact Or.inl ⟨rfl, hquote, hslash, h⟩
  split
  · next h => exact Or.inr (Or.inr (Or.inl ⟨rfl, h⟩))
  · next h => exact Or.inr (Or.inr (Or.inr ⟨rfl, Nat.le_of_not_lt h⟩))

/-- The reader takes the form of a character as that character. -/
theorem readCharacters_writeChar (c : Char) (htail : tail ≠ []) :
    ∃ after, readCharacters opening done offset 0 ((writeChar c).toList ++ tail)
      = readCharacters opening (.char c :: done) after 0 tail := by
  -- Each way of writing a character is read by its own branch.
  rcases writeChar_cases c with ⟨htext, hquote, hslash, hge, -⟩ | ⟨letter, htext, hmeant, -⟩ |
    ⟨htext, hsmall⟩ | ⟨htext, hlarge⟩
  · rw [htext, String.toList_singleton]
    exact ⟨_, readCharacters_self hquote hslash (Nat.not_lt.mpr hge)⟩
  · rw [htext]
    exact ⟨_, readCharacters_letter hmeant⟩
  · obtain ⟨hwhole, -, hunit⟩ := ofCode_toNat c
    have hnoHalf : isHighHalf c.toNat = true → StartsNoLowHalf tail := fun h =>
      absurd h (by simp [hwhole])
    rw [htext, readCharacters_unitEscape hsmall hnoHalf htail, hunit]
    exact ⟨_, rfl⟩
  · obtain ⟨hhigh, hlow, hpair⟩ := ofCodes_halves hlarge
    rw [htext, String.toList_append, List.append_assoc, readCharacters_pair hhigh hlow htail, hpair]
    exact ⟨_, rfl⟩

/-- The escape of a code unit that is no second half is no escape of a second half. -/
theorem startsNoLowHalf_unitEscape {unit : Nat} (h : unit < 0x10000)
    (hno : isLowHalf unit = false) (htail : tail ≠ []) :
    StartsNoLowHalf ((unitEscape unit).toList ++ tail) := by
  obtain ⟨digits, htext, hlength, hvalue, -⟩ := toList_unitEscape h
  intro _
  rw [htext]
  exact ⟨unit, codeUnit?_take hlength hvalue htail, hno⟩

/-- Only a second half is written as the escape of one. -/
theorem startsNoLowHalf_writePoint {point : CodePoint} (h : ∀ half, point ≠ .low half)
    (htail : tail ≠ []) : StartsNoLowHalf ((writePoint point).toList ++ tail) := by
  cases point with
  | low half => exact absurd rfl (h half)
  | high half =>
    exact startsNoLowHalf_unitEscape (by omega) (ofCode_high half).2.1 htail
  | char c =>
    rcases writeChar_cases c with ⟨htext, -, hslash, -, -⟩ | ⟨letter, htext, hmeant, -⟩ |
      ⟨htext, hsmall⟩ | ⟨htext, hlarge⟩
    · rw [writePoint, htext, String.toList_singleton]
      intro hstart
      exact absurd (List.cons.inj hstart).1 hslash
    · rw [writePoint, htext]
      intro hstart
      -- The letter of an escape is not the one that announces a code unit.
      obtain rfl : letter = 'u' := (List.cons.inj (List.cons.inj hstart).2).1
      cases hmeant
    · rw [writePoint, htext]
      exact startsNoLowHalf_unitEscape hsmall (ofCode_toNat c).2.1 htail
    · obtain ⟨hhigh, -, -⟩ := ofCodes_halves hlarge
      simp only [isHighHalf, Bool.and_eq_true, decide_eq_true_eq] at hhigh
      rw [writePoint, htext, String.toList_append, List.append_assoc]
      refine startsNoLowHalf_unitEscape (by omega) ?_ (by simp [htail])
      simp only [isLowHalf, Bool.and_eq_false_iff, decide_eq_false_iff_not]
      omega

/-- The reader takes the form of a code point as that code point, where it starts no pair. -/
theorem readCharacters_writePoint (point : CodePoint)
    (halone : ∀ half, point = .high half → StartsNoLowHalf tail) (htail : tail ≠ []) :
    ∃ after, readCharacters opening done offset 0 ((writePoint point).toList ++ tail)
      = readCharacters opening (point :: done) after 0 tail := by
  cases point with
  | char c => exact readCharacters_writeChar c htail
  | high half =>
    obtain ⟨-, -, hunit⟩ := ofCode_high half
    rw [writePoint, readCharacters_unitEscape (by omega) (fun _ => halone half rfl) htail, hunit]
    exact ⟨_, rfl⟩
  | low half =>
    obtain ⟨hwhole, -, hunit⟩ := ofCode_low half
    have hnoHalf : isHighHalf (0xDC00 + half) = true → StartsNoLowHalf tail := fun h =>
      absurd h (by simp [hwhole])
    rw [writePoint, readCharacters_unitEscape (by omega) hnoHalf htail, hunit]
    exact ⟨_, rfl⟩

/-- An escape is plain. -/
theorem isPlain_unitEscape {unit : Nat} (h : unit < 0x10000) :
    ∀ c ∈ (unitEscape unit).toList, IsPlain c := by
  obtain ⟨digits, htext, -, -, hdigits⟩ := toList_unitEscape h
  rw [htext, List.forall_mem_cons, List.forall_mem_cons]
  exact ⟨by decide, by decide, hdigits⟩

/-- The form of a character is plain. -/
theorem isPlain_writeChar (c : Char) : ∀ written ∈ (writeChar c).toList, IsPlain written := by
  -- Each way of writing uses plain characters only.
  rcases writeChar_cases c with ⟨htext, -, -, hplain⟩ | ⟨letter, htext, -, hplain⟩ |
    ⟨htext, hsmall⟩ | ⟨htext, hlarge⟩
  · rw [htext, String.toList_singleton, List.forall_mem_singleton]
    exact Or.inr hplain
  · rw [htext, List.forall_mem_cons, List.forall_mem_singleton]
    exact ⟨by decide, hplain⟩
  · rw [htext]
    exact isPlain_unitEscape hsmall
  · obtain ⟨hhigh, hlow, -⟩ := ofCodes_halves hlarge
    simp only [isHighHalf, isLowHalf, Bool.and_eq_true, decide_eq_true_eq] at hhigh hlow
    rw [htext, String.toList_append, List.forall_mem_append]
    exact ⟨isPlain_unitEscape (by omega), isPlain_unitEscape (by omega)⟩

/-- The form of a code point is plain. -/
theorem isPlain_writePoint (point : CodePoint) :
    ∀ written ∈ (writePoint point).toList, IsPlain written := by
  cases point with
  | char c => exact isPlain_writeChar c
  | high half => exact isPlain_unitEscape (by omega)
  | low half => exact isPlain_unitEscape (by omega)

/-! ### Written strings -/

/-- A written string: the forms of its code points between two quotes. -/
theorem toList_writeString (text : CodeText) :
    (writeString text).toList
      = '"' :: (text.points.flatMap fun point => (writePoint point).toList) ++ ['"'] := by
  rw [writeString, String.toList_append, String.toList_append, String.toList_join,
    List.flatMap_map]
  rfl

/-- A written string starts with its quote. -/
theorem head?_writeString (name : CodeText) (tail : List Char) :
    ((writeString name).toList ++ tail).head? = some '"' := by
  rw [toList_writeString]
  rfl

/-- A string is written like the string with characters in place of its pairs. -/
theorem writeString_joined (text : CodeText) : writeString text.joined = writeString text := by
  have hpoints : ∀ points : List CodePoint,
      (CodeText.joinPoints points).flatMap (fun point => (writePoint point).toList)
        = points.flatMap fun point => (writePoint point).toList := by
    intro points
    -- Two halves that are joined are written as the two units that they were.
    induction points using CodeText.joinPoints.induct with
    | case1 high low rest ih =>
      rw [CodeText.joinPoints, List.flatMap_cons, ih, writePoint, writeChar_ofPair,
        String.toList_append, List.append_assoc]
      rfl
    | case2 point rest hno ih =>
      rw [CodeText.joinPoints.eq_2 point rest hno, List.flatMap_cons, ih, List.flatMap_cons]
    | case3 => rfl
  rw [← String.toList_inj, toList_writeString, toList_writeString]
  exact congrArg (fun forms => '"' :: forms ++ ['"']) (hpoints text.points)

/-- The code points of a text without pairs are read one after the other up to its closing
quote. -/
theorem readCharacters_text {points : List CodePoint} (h : CodeText.IsJoined ⟨points⟩)
    (done : List CodePoint) (offset : Nat) :
    Yields (readCharacters opening done offset 0
      ((points.flatMap fun point => (writePoint point).toList) ++ '"' :: tail))
      ⟨done.reverse ++ points⟩ tail := by
  induction points generalizing done offset with
  | nil => exact ⟨offset + 1, by simp [readCharacters]⟩
  | cons point rest ih =>
    obtain ⟨hfirst, hjoined⟩ := List.isChain_cons.mp h
    have hne : (rest.flatMap fun point => (writePoint point).toList) ++ '"' :: tail ≠ [] := by simp
    -- Behind a first half comes the closing quote, or a code point that is no second half.
    have halone : ∀ half, point = .high half → StartsNoLowHalf
        ((rest.flatMap fun point => (writePoint point).toList) ++ '"' :: tail) := by
      rintro half rfl
      cases rest with
      | nil => exact fun hstart => absurd (List.cons.inj hstart).1 (by decide)
      | cons next rest =>
        rw [List.flatMap_cons, List.append_assoc]
        refine startsNoLowHalf_writePoint ?_ (by simp)
        rintro low rfl
        exact Bool.noConfusion (hfirst (.low low) rfl)
    obtain ⟨after, hread⟩ := readCharacters_writePoint point halone hne
    have hrest := ih hjoined (point :: done) after
    rw [List.flatMap_cons, List.append_assoc, hread]
    simpa using hrest

/-- A written string without pairs reads back. -/
theorem readString_writeString {text : CodeText} (h : text.IsJoined) (offset : Nat)
    (tail : List Char) :
    Yields (readString ⟨offset, (writeString text).toList ++ tail⟩) text tail := by
  rw [readString, toList_writeString]
  simpa using readCharacters_text h [] (offset + 1)

/-- A written string is plain. -/
theorem isPlain_writeString (text : CodeText) : ∀ c ∈ (writeString text).toList, IsPlain c := by
  rw [toList_writeString, List.forall_mem_append, List.forall_mem_cons]
  refine ⟨⟨by decide, fun c hc => ?_⟩, forall_mem_of_all (by decide)⟩
  obtain ⟨shown, -, hwritten⟩ := List.mem_flatMap.mp hc
  exact isPlain_writePoint shown c hwritten

end RepoAtlas.Json
