import RepoAtlas.Json.Writer
import RepoAtlas.Proofs.Json.Strings

/-!
# `RepoAtlas.Proofs.Json.Integers`: integers read back as they were written

An integer is written with the digits of its magnitude, most significant first and without zeros in
front. The reader takes as many digits as there are, so something must end the number: whatever
follows a value does, since no layout puts a digit, a point or an exponent there.

* `readNumber_toDigits`: the digits of a number read as that number.
* `readAtom_toString`: a written integer reads back.
-/

set_option autoImplicit false

namespace RepoAtlas.Json

open RepoAtlas.Number RepoAtlas.Text

/-- What can follow a value: nothing, a line feed, a comma or a closing bracket. -/
def Ends (tail : List Char) : Prop :=
  ∀ c, tail.head? = some c → c = '\n' ∨ c = ',' ∨ c = ']' ∨ c = '\x7d'

variable {tail : List Char}

/-- What follows a value ends a number. -/
theorem ends_cons {c : Char} (h : c = '\n' ∨ c = ',' ∨ c = ']' ∨ c = '\x7d') :
    Ends (c :: tail) := by
  intro d hd
  cases hd
  exact h

/-! ### Digits -/

/-- No zero stands in front of other digits. -/
theorem head?_toDigits {n : Nat} (h : 0 < n) : (Nat.toDigits 10 n).head? ≠ some '0' := by
  induction n using Nat.strongRecOn with
  | ind n ih =>
    by_cases hsmall : n < 10
    · have hdigit : ∀ d < 10, 0 < d → [Nat.digitChar d].head? ≠ some '0' := by decide
      rw [Nat.toDigits_of_lt_base hsmall]
      exact hdigit n hsmall h
    · rw [Nat.toDigits_of_base_le (by decide) (by omega),
        List.head?_append_of_ne_nil _ Nat.toDigits_ne_nil]
      exact ih (n / 10) (by omega) (by omega)

/-- The digits of a number end where they should. -/
theorem leadingDigits_append {digits : List Char} (hdigits : ∀ c ∈ digits, c.isDigit = true)
    (htail : Ends tail) : leadingDigits (digits ++ tail) = digits := by
  have hstop : tail.takeWhile Char.isDigit = [] := by
    cases tail with
    | nil => rfl
    | cons c rest =>
      have hc : c.isDigit = false := by
        rcases htail c rfl with rfl | rfl | rfl | rfl <;> rfl
      rw [List.takeWhile_cons_of_neg (by simp [hc])]
  rw [leadingDigits, List.takeWhile_append_of_pos hdigits, hstop, List.append_nil]

/-- No fraction follows. -/
theorem fraction_of_ends (h : Ends tail) : fraction tail = [] := by
  cases tail with
  | nil => rfl
  | cons c rest =>
    rcases h c rfl with rfl | rfl | rfl | rfl <;> rfl

/-- No exponent follows. -/
theorem exponent_of_ends (h : Ends tail) : exponent tail = (0, 0) := by
  cases tail with
  | nil => rfl
  | cons c rest =>
    rcases h c rfl with rfl | rfl | rfl | rfl <;> rfl

/-! ### Numbers -/

/-- A text that starts with a zero is the digits of zero. -/
theorem toDigits_of_zero_in_front {n : Nat} {rest : List Char}
    (h : Nat.toDigits 10 n ++ tail = '0' :: rest) : Nat.toDigits 10 n = ['0'] := by
  rcases Nat.eq_zero_or_pos n with rfl | hpos
  · rfl
  · have hhead := head?_toDigits hpos
    rw [← List.head?_append_of_ne_nil (Nat.toDigits 10 n) Nat.toDigits_ne_nil, h] at hhead
    exact absurd rfl hhead

/-- In front of digits, a minus shows that there is a sign. -/
theorem head?_signed {n : Nat} {sign : List Char} (hsign : sign = [] ∨ sign = ['-']) :
    (sign ++ (Nat.toDigits 10 n ++ tail)).head? = some '-' ↔ sign ≠ [] := by
  have hminus : (Nat.toDigits 10 n ++ tail).head? ≠ some '-' := by
    rw [List.head?_append_of_ne_nil _ Nat.toDigits_ne_nil]
    intro hhead
    have hdigit := Nat.isDigit_of_mem_toDigits (by decide) (by decide) (List.mem_of_head? hhead)
    exact absurd hdigit (by decide)
  rcases hsign with rfl | rfl
  · simpa using hminus
  · simp

/-- The digits of a number read as that number; a minus may stand in front. -/
theorem readNumber_toDigits {n : Nat} {sign : List Char} (hsign : sign = [] ∨ sign = ['-'])
    (offset : Nat) (hsize : digitCount n ≤ digitLimit) (htail : Ends tail) :
    Yields (readNumber ⟨offset, sign ++ (Nat.toDigits 10 n ++ tail)⟩)
      (.int (if sign = [] then n else -n)) tail := by
  have hdigits : ∀ c ∈ Nat.toDigits 10 n, c.isDigit = true :=
    fun c => Nat.isDigit_of_mem_toDigits (by decide) (by decide)
  have hvalue : ofDigits (Nat.toDigits 10 n) = n :=
    Nat.ofDigitChars_toDigits (by decide) (by decide)
  have hne : (Nat.toDigits 10 n).isEmpty = false := by
    simp [Nat.toDigits_ne_nil]
  have hafter : (Nat.toDigits 10 n ++ tail).drop (Nat.toDigits 10 n).length = tail :=
    List.drop_left
  have hfits : ¬ digitLimit < (Nat.toDigits 10 n).length := Nat.not_lt.mpr hsize
  have hnegative : (sign ++ (Nat.toDigits 10 n ++ tail)).head? = some '-' ↔ sign ≠ [] :=
    head?_signed hsign
  have hunsigned : (if (sign ++ (Nat.toDigits 10 n ++ tail)).head? = some '-'
      then Place.drop ⟨offset, sign ++ (Nat.toDigits 10 n ++ tail)⟩ 1
      else ⟨offset, sign ++ (Nat.toDigits 10 n ++ tail)⟩)
        = ⟨offset + sign.length, Nat.toDigits 10 n ++ tail⟩ := by
    rcases hsign with rfl | rfl
    · rw [if_neg (hnegative.not.mpr (not_not_intro rfl))]
      rfl
    · rw [if_pos (hnegative.mpr (List.cons_ne_nil _ _))]
      rfl
  refine ⟨offset + sign.length + (Nat.toDigits 10 n).length, ?_⟩
  unfold readNumber
  simp only [hunsigned]
  -- The reader takes a zero in front as the only digit.
  split
  case' h_1 rest hrest => rw [← toDigits_of_zero_in_front hrest]
  case' h_2 => rw [leadingDigits_append hdigits htail]
  all_goals
    simp only [hne, hafter, hfits, hvalue, hnegative, fraction_of_ends htail,
      exponent_of_ends htail, Place.drop, List.isEmpty_nil, Bool.and_self, Bool.false_eq_true,
      decide_true, if_true, if_false, ne_eq, ite_not]

/-- A word begins with a letter, or with a minus and a letter. -/
theorem head_of_mem_words : ∀ entry ∈ words, ∃ first rest, entry.1.toList = first :: rest ∧
    first.isDigit = false ∧ (first = '-' → rest.head? = some 'I') := by
  unfold words
  simp only [List.forall_mem_cons]
  exact ⟨⟨'n', _, rfl, rfl, by decide⟩, ⟨'t', _, rfl, rfl, by decide⟩,
    ⟨'f', _, rfl, rfl, by decide⟩, ⟨'N', _, rfl, rfl, by decide⟩, ⟨'I', _, rfl, rfl, by decide⟩,
    ⟨'-', _, rfl, rfl, fun _ => rfl⟩, List.forall_mem_nil _⟩

/-- What begins like a number is read as one. -/
theorem readAtom_of_number {offset : Nat} {c : Char} {rest : List Char}
    (h : c.isDigit = true ∨ c = '-' ∧ rest.head? ≠ some 'I') :
    readAtom ⟨offset, c :: rest⟩ = readNumber ⟨offset, c :: rest⟩ := by
  -- No word begins with a digit, and the one with a sign goes on with a letter.
  have hnone : ∀ entry ∈ words, entry.1.toList.isPrefixOf (c :: rest) = false := by
    intro entry hentry
    obtain ⟨first, more, htext, hletter, hminus⟩ := head_of_mem_words entry hentry
    rw [htext, Bool.eq_false_iff, ne_eq, List.isPrefixOf_iff_prefix, List.cons_prefix_cons]
    rintro ⟨rfl, after, rfl⟩
    rcases h with hdigit | ⟨hsign, hnext⟩
    · rw [hletter] at hdigit
      cases hdigit
    · refine hnext ?_
      rw [List.head?_append, hminus hsign]
      rfl
  rw [readAtom, List.find?_eq_none.mpr]
  exact fun entry hentry => Bool.eq_false_iff.mp (hnone entry hentry)

/-- An integer is written as a sign, if it is negative, and its digits. -/
theorem toList_toString (n : Int) :
    (toString n).toList = (if 0 ≤ n then [] else ['-']) ++ Nat.toDigits 10 n.natAbs := by
  cases n with
  | ofNat m => exact String.toList_ofList
  | negSucc m =>
    show ("-" ++ Nat.repr (m + 1)).toList = _
    rw [String.toList_append, if_neg (by omega)]
    exact congrArg ('-' :: ·) String.toList_ofList

/-- A written integer reads back. -/
theorem readAtom_toString {n : Int} (offset : Nat) (hsize : digitCount n.natAbs ≤ digitLimit)
    (htail : Ends tail) :
    Yields (readAtom ⟨offset, (toString n).toList ++ tail⟩) (.int n) tail := by
  obtain ⟨d, rest, hdigits⟩ :=
    List.exists_cons_of_ne_nil (Nat.toDigits_ne_nil (b := 10) (n := n.natAbs))
  have hd : d.isDigit = true :=
    Nat.isDigit_of_mem_toDigits (by decide) (by decide) (hdigits ▸ List.mem_cons_self)
  rw [toList_toString, List.append_assoc]
  by_cases hn : 0 ≤ n
  · have hread := readNumber_toDigits (Or.inl rfl) offset hsize htail
    rw [if_pos rfl, Int.natAbs_of_nonneg hn, List.nil_append, hdigits, List.cons_append] at hread
    rw [if_pos hn, List.nil_append, hdigits, List.cons_append, readAtom_of_number (Or.inl hd)]
    exact hread
  · have hread := readNumber_toDigits (Or.inr rfl) offset hsize htail
    have hvalue : -(n.natAbs : Int) = n := by omega
    rw [if_neg (by decide), hvalue, List.singleton_append] at hread
    -- The digits follow the sign, so it does not begin the word for a negative infinity.
    have hnext : (Nat.toDigits 10 n.natAbs ++ tail).head? ≠ some 'I' := by
      rw [hdigits, List.cons_append, List.head?_cons]
      rintro ⟨⟩
      cases hd
    rw [if_neg hn, List.singleton_append, readAtom_of_number (Or.inr ⟨rfl, hnext⟩)]
    exact hread

/-- Digits are plain. -/
theorem isPlain_of_isDigit {c : Char} (h : c.isDigit = true) : IsPlain c := by
  simp only [Char.isDigit, Bool.and_eq_true, decide_eq_true_eq, ge_iff_le,
    UInt32.le_iff_toNat_le] at h
  have hge : 48 ≤ c.toNat := h.1
  have hle : c.toNat ≤ 57 := h.2
  exact Or.inr ⟨by omega, by omega⟩

/-- A written integer is plain. -/
theorem isPlain_toString (n : Int) : ∀ c ∈ (toString n).toList, IsPlain c := by
  have hdigits : ∀ c ∈ Nat.toDigits 10 n.natAbs, IsPlain c := fun c hc =>
    isPlain_of_isDigit (Nat.isDigit_of_mem_toDigits (by decide) (by decide) hc)
  rw [toList_toString, List.forall_mem_append]
  refine ⟨?_, hdigits⟩
  split
  · exact List.forall_mem_nil _
  · rw [List.forall_mem_singleton]
    decide

/-- A written integer begins with a digit or a minus. -/
theorem head?_toString (n : Int) :
    ∃ c, (toString n).toList.head? = some c ∧ (c.isDigit = true ∨ c = '-') := by
  rw [toList_toString]
  split
  · obtain ⟨d, rest, hcons⟩ :=
      List.exists_cons_of_ne_nil (Nat.toDigits_ne_nil (b := 10) (n := n.natAbs))
    have hd : d.isDigit = true :=
      Nat.isDigit_of_mem_toDigits (by decide) (by decide) (hcons ▸ List.mem_cons_self)
    exact ⟨d, by rw [hcons]; rfl, Or.inl hd⟩
  · exact ⟨'-', rfl, Or.inr rfl⟩

end RepoAtlas.Json
