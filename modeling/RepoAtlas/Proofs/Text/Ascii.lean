import Mathlib.Data.List.Basic
import RepoAtlas.Tree.Text

/-!
# `RepoAtlas.Proofs.Text.Ascii`: plain text survives a file

Everything the atlas writes as data is plain: printable ASCII, and line feeds. Such a text has one
octet a character, has no carriage returns to settle, and so is the same after it was encoded and
read again.

* `forall_mem_intercalate`: a text that is joined from plain parts is plain.
* `pieces_encode`, `decodeLossy_encode`: an encoded ASCII text reads as its characters.
* `settleLines_of_plain`: settling lines leaves a plain text alone.
-/

set_option autoImplicit false

namespace RepoAtlas.Text

/-- A character of a plain text: printable ASCII or a line feed. -/
def IsPlain (c : Char) : Prop :=
  c = '\n' ∨ (0x20 ≤ c.toNat ∧ c.toNat < 0x7F)

instance (c : Char) : Decidable (IsPlain c) :=
  inferInstanceAs (Decidable (_ ∨ _))

/-- A plain character fits in seven bits. -/
theorem IsPlain.isAscii {c : Char} (h : IsPlain c) : c.toNat < 0x80 := by
  rcases h with rfl | ⟨-, h⟩
  · decide
  · omega

/-- A plain character is no carriage return. -/
theorem IsPlain.ne_return {c : Char} (h : IsPlain c) : c ≠ '\r' := by
  rintro rfl
  revert h
  decide

/-! ### Joined texts -/

/-- What holds of each character of a given text, checked one by one. Deciding it outright might go
through all the characters there are. -/
theorem forall_mem_of_all {p : Char → Prop} [DecidablePred p] {text : List Char}
    (h : text.all (fun c => decide (p c)) = true) : ∀ c ∈ text, p c := by
  simpa using h

/-- Putting a separator between texts, from the front. -/
theorem toList_intercalate_cons (separator first second : String) (rest : List String) :
    (separator.intercalate (first :: second :: rest)).toList
      = first.toList ++ (separator.toList ++ (separator.intercalate (second :: rest)).toList) := by
  rw [String.intercalate_cons_cons, String.toList_append, String.toList_append, List.append_assoc]

/-- What holds of the characters of a separator and of all parts holds of the joined text. -/
theorem forall_mem_intercalate {p : Char → Prop} {separator : String} {parts : List String}
    (hseparator : ∀ c ∈ separator.toList, p c) (hparts : ∀ part ∈ parts, ∀ c ∈ part.toList, p c) :
    ∀ c ∈ (separator.intercalate parts).toList, p c := by
  induction parts with
  | nil => exact List.forall_mem_nil _
  | cons part rest ih =>
    obtain ⟨hpart, hrest⟩ := List.forall_mem_cons.mp hparts
    cases rest with
    | nil =>
      rw [String.intercalate_singleton]
      exact hpart
    | cons next rest =>
      rw [toList_intercalate_cons, List.forall_mem_append, List.forall_mem_append]
      exact ⟨hpart, hseparator, ih hrest⟩

/-! ### Octets -/

namespace Utf8

/-- Listing octets from an index on, given those read before it, last first. -/
theorem toList_loop (octets : ByteArray) (i : Nat) (read : List UInt8) :
    ByteArray.toList.loop octets i read = read.reverse ++ octets.data.toList.drop i := by
  have hsize : octets.data.toList.length = octets.size := rfl
  -- The induction is on how many octets are left.
  induction hleft : octets.size - i generalizing i read with
  | zero =>
    rw [ByteArray.toList.loop, if_neg (by omega), List.drop_eq_nil_of_le (by omega),
      List.append_nil]
  | succ left ih =>
    have hi : i < octets.data.toList.length := by omega
    have hget : octets.get! i = octets.data.toList[i] := by
      rw [hsize] at hi
      simp [ByteArray.get!, hi]
    rw [ByteArray.toList.loop, if_pos (by omega), ih (i + 1) _ (by omega),
      List.drop_eq_getElem_cons hi, hget, List.reverse_cons, List.append_assoc]
    rfl

/-- The octet of an ASCII character. -/
def asciiOctet (c : Char) : UInt8 :=
  UInt8.ofNat c.toNat

/-- An ASCII text has one octet a character. -/
theorem encode_of_ascii {text : String} (h : ∀ c ∈ text.toList, c.toNat < 0x80) :
    encode text = text.toList.map asciiOctet := by
  have hchar : ∀ c ∈ text.toList, String.utf8EncodeChar c = [asciiOctet c] := by
    intro c hc
    have hlt := h c hc
    have hle : c.val.toNat ≤ 127 := by
      show c.toNat ≤ 127
      omega
    simp only [String.utf8EncodeChar, if_pos hle]
    rfl
  unfold encode ByteArray.toList
  rw [toList_loop]
  -- Encoding is defined on the octets of a text, but known of its list of characters.
  have htext : text.toUTF8 = text.toList.utf8Encode := by
    conv => lhs; rw [← String.ofList_toList (s := text)]
    exact String.toByteArray_ofList
  rw [htext, List.utf8Encode, List.toList_data_toByteArray, List.map_eq_flatMap]
  exact List.flatMap_congr hchar

/-- An octet of seven bits stands for its character. -/
theorem start_asciiOctet {c : Char} (h : c.toNat < 0x80) :
    start (asciiOctet c) = .inl (.char c) := by
  have hnat : (asciiOctet c).toNat = c.toNat := by
    rw [asciiOctet, UInt8.toNat_ofNat']
    omega
  have hlt : asciiOctet c < 0x80 := by
    rw [UInt8.lt_iff_toNat_lt, hnat]
    exact h
  rw [start, if_pos hlt, hnat, Char.ofNat_toNat]

/-- Octets of seven bits are read one by one. -/
theorem foldl_step_ascii {text : List Char} (h : ∀ c ∈ text, c.toNat < 0x80) (done : List Piece) :
    (text.map asciiOctet).foldl Reader.step ⟨done, none⟩
      = ⟨(text.map .char).reverse ++ done, none⟩ := by
  induction text generalizing done with
  | nil => rfl
  | cons c rest ih =>
    obtain ⟨hc, hrest⟩ := List.forall_mem_cons.mp h
    have hstep : Reader.step ⟨done, none⟩ (asciiOctet c) = ⟨.char c :: done, none⟩ := by
      simp only [Reader.step, start_asciiOctet hc]
      rfl
    rw [List.map_cons, List.foldl_cons, hstep, ih hrest]
    simp

/-- The pieces of an encoded ASCII text are its characters. -/
theorem pieces_encode {text : String} (h : ∀ c ∈ text.toList, c.toNat < 0x80) :
    pieces (encode text) = text.toList.map .char := by
  rw [pieces, encode_of_ascii h, foldl_step_ascii h]
  simp [Reader.finish]

/-- An encoded ASCII text reads as it is, also leniently. -/
theorem decodeLossy_encode {text : String} (h : ∀ c ∈ text.toList, c.toNat < 0x80) :
    decodeLossy (encode text) = text.toList := by
  rw [decodeLossy, pieces_encode h, List.map_map]
  exact List.map_id _

/-- Where all pieces are characters, none is broken. -/
theorem firstBroken?_map_char (text : List Char) (offset : Nat) :
    firstBroken? (text.map .char) offset = none := by
  induction text generalizing offset with
  | nil => rfl
  | cons c rest ih => exact ih _

end Utf8

end RepoAtlas.Text

namespace RepoAtlas.Tree

open RepoAtlas.Text

/-- Plain text has no line ends to settle. -/
theorem settleLinesOnto_of_plain {text : List Char} (h : ∀ c ∈ text, IsPlain c)
    (done : List Char) : settleLinesOnto done text = done.reverse ++ text := by
  induction text generalizing done with
  | nil => simp [settleLinesOnto]
  | cons c rest ih =>
    obtain ⟨hc, hrest⟩ := List.forall_mem_cons.mp h
    have hne := hc.ne_return
    rw [settleLinesOnto, if_neg hne, ih hrest]
    · simp
    · rintro - rfl
      exact absurd rfl hne

/-- Settling lines leaves a plain text alone. -/
theorem settleLines_of_plain {text : List Char} (h : ∀ c ∈ text, IsPlain c) :
    settleLines text = text :=
  settleLinesOnto_of_plain h []

/-- A file that holds a plain text reads as that text. -/
theorem readText_of_plain {tree : Tree} {path : String} {text : String}
    (h : ∀ c ∈ text.toList, IsPlain c)
    (hread : tree.readOctets path = .ok (Utf8.encode text)) :
    tree.readText path = .ok text.toList := by
  have hascii : ∀ c ∈ text.toList, c.toNat < 0x80 := fun c hc => (h c hc).isAscii
  rw [readText, hread]
  simp only [Utf8.pieces_encode hascii, Utf8.firstBroken?_map_char, Utf8.decodeLossy_encode hascii,
    settleLines_of_plain h]

end RepoAtlas.Tree
