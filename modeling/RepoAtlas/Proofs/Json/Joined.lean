import RepoAtlas.Proofs.Arrival
import RepoAtlas.Proofs.Json.Strings
import RepoAtlas.Proofs.Outcome

/-!
# `RepoAtlas.Proofs.Json.Joined`: what is read has no pairs of halves

Behind the escape of a first half the reader looks for the escape of a second one, and takes the two
for one character. So a first half that it takes by itself is followed by something else, and no
text that it gives holds a pair. That is why texts which were read once are written and read again
without a change.

* `IsJoined`: values whose texts have no pairs, the names of members included.
* `isJoined_readCharacters`: by induction on the text, what is read of a string has no pairs.
* `isJoined_of_read`: hence no value that is read has one.
-/

set_option autoImplicit false

namespace RepoAtlas.Json

open CodePoint (isHighHalf isLowHalf ofCode)

/-- A value in whose texts, names of members included, no first half stands directly before a second
half. -/
inductive IsJoined : Json → Prop where
  | null : IsJoined .null
  | bool (value : Bool) : IsJoined (.bool value)
  | int (value : Int) : IsJoined (.int value)
  | float (value : Number.Binary64) : IsJoined (.float value)
  | str {value : CodeText} (h : value.IsJoined) : IsJoined (.str value)
  | arr {items : List Json} (hitems : ∀ item ∈ items, IsJoined item) : IsJoined (.arr items)
  | obj {members : List (CodeText × Json)} (hnames : ∀ member ∈ members, member.1.IsJoined)
      (hmembers : ∀ member ∈ members, IsJoined member.2) : IsJoined (.obj members)

/-! ### Strings -/

/-- A text that does not start with the escape of a second half. -/
def HasNoLowHalf (text : List Char) : Prop :=
  text.take 2 = ['\\', 'u'] → ∀ unit, codeUnit? ((text.drop 2).take 5) = some unit →
    isLowHalf unit = false

/-- Code points, last first, that have no pairs and make none with what a text goes on with. -/
structure IsOpen (done : List CodePoint) (text : List Char) : Prop where
  joined : CodeText.IsJoined ⟨done.reverse⟩
  ahead : ∀ half, done.head? = some (.high half) → HasNoLowHalf text

variable {done : List CodePoint} {text : List Char} {opening offset skip : Nat}

/-- Another code point makes no pair with the last one, if they are not the halves of one. -/
theorem isJoined_reverse_cons {point : CodePoint} (h : CodeText.IsJoined ⟨done.reverse⟩)
    (hlast : ∀ half, done.head? = some (.high half) → ∀ low, point ≠ .low low) :
    CodeText.IsJoined ⟨(point :: done).reverse⟩ := by
  have happend : CodeText.mk (point :: done).reverse = ⟨done.reverse⟩ ++ CodeText.mk [point] :=
    CodeText.ext List.reverse_cons
  rw [happend, CodeText.isJoined_append_iff]
  refine ⟨h, List.isChain_singleton _, fun last hlast' first hfirst => ?_⟩
  obtain rfl : point = first := by simpa using hfirst
  rw [List.getLast?_reverse] at hlast'
  -- Only a high half at the end and a low half behind it would make a pair.
  cases last with
  | char _ => rfl
  | low _ => rfl
  | high half =>
    cases point with
    | char _ => rfl
    | high _ => rfl
    | low low => exact absurd rfl (hlast half hlast' low)

/-- A character makes no pair. -/
theorem IsOpen.char (h : IsOpen done text) (c : Char) (text' : List Char) :
    IsOpen (.char c :: done) text' where
  joined := isJoined_reverse_cons h.joined fun _ _ _ => CodePoint.noConfusion
  ahead half hhalf := by cases hhalf

/-- The code unit of an escape stands alone, unless it is a first half and another text follows. -/
theorem IsOpen.codeUnit {digits text' : List Char} {unit : Nat}
    (h : IsOpen done ('\\' :: 'u' :: digits)) (hunit : codeUnit? (digits.take 5) = some unit)
    (hnext : isHighHalf unit = true → HasNoLowHalf text') :
    IsOpen (ofCode unit :: done) text' where
  joined := by
    refine isJoined_reverse_cons h.joined fun half hhalf low hlow => ?_
    have hno : isLowHalf unit = false := h.ahead half hhalf rfl unit hunit
    -- Only the code unit of a second half stands for one.
    unfold ofCode at hlow
    rw [hno] at hlow
    split at hlow <;> cases hlow
  ahead half hhalf := by
    refine hnext ?_
    by_contra hno
    rw [Bool.not_eq_true] at hno
    unfold ofCode at hhalf
    rw [hno] at hhalf
    simp only [Bool.false_eq_true, if_false, List.head?_cons, Option.some.injEq] at hhalf
    split at hhalf <;> cases hhalf

/-- An escape has room for its digits and what follows them. -/
theorem length_of_codeUnit? {rest : List Char} {unit : Nat} (h : codeUnit? rest = some unit) :
    5 ≤ rest.length := by
  by_contra hshort
  rw [codeUnit?, if_pos (Nat.lt_of_not_le hshort)] at h
  cases h

/-- What is read of a string has no pairs. -/
theorem isJoined_readCharacters {value : CodeText} {after : Place}
    (h : readCharacters opening done offset skip text = .ok (value, after))
    (hopen : IsOpen done (text.drop skip)) : value.IsJoined := by
  -- Along the cases of the reader: what is read so far stays open for what comes next.
  fun_induction readCharacters opening done offset skip text with
  | case1 | case4 | case5 | case6 | case11 | case12 => cases h
  | case2 done offset skip c rest ih => exact ih h hopen
  | case3 done offset rest =>
    cases h
    exact hopen.joined
  | case7 done offset digits high hhigh _ low hlow _ _ ih => exact ih h (hopen.char _ _)
  | case8 done offset digits high hhigh _ low hlow hno _ ih =>
    -- A first half, and the escape of something other than a second one.
    refine ih h (hopen.codeUnit hhigh fun _ _ unit hunit => ?_)
    have hafter : (('u' :: digits).drop 5).drop 2 = digits.drop 6 := List.drop_drop
    rw [hafter, hlow] at hunit
    cases hunit
    exact Bool.eq_false_iff.mpr hno
  | case9 done offset digits high hhigh halone _ ih =>
    refine ih h (hopen.codeUnit hhigh fun hhalf hescape unit hunit => ?_)
    -- The text ends before a second escape has its digits.
    have hescape' : (digits.drop 4).take 2 = ['\\', 'u'] := hescape
    have hroom : 5 ≤ (((digits.drop 4).drop 2).take 5).length := length_of_codeUnit? hunit
    have hshort : ¬ 6 < ((digits.drop 4).take 7).length := by
      simpa [hhalf, hescape'] using halone
    simp only [List.length_take, List.length_drop] at hroom hshort
    omega
  | case10 done offset letter rest _ meant _ _ ih => exact ih h (hopen.char _ _)
  | case13 done offset c rest _ _ _ ih => exact ih h (hopen.char _ _)

/-- A string that is read has no pairs. -/
theorem isJoined_readString {place : Place} {value : CodeText} {after : Place}
    (h : readString place = .ok (value, after)) : value.IsJoined :=
  isJoined_readCharacters h ⟨List.isChain_nil, fun _ hhalf => nomatch hhalf⟩

/-! ### Values -/

/-- A number is no text. -/
theorem isJoined_readNumber {place after : Place} {value : Json}
    (h : readNumber place = .ok (value, after)) : value.IsJoined := by
  unfold readNumber at h
  extract_lets negative unsigned whole afterWhole decimals afterDecimals size at h
  split at h
  · cases h
  split at h
  split at h
  · split at h
    · cases h
    · rw [← (Prod.mk.inj (Except.ok.inj h)).1]
      exact .int _
  · rw [← (Prod.mk.inj (Except.ok.inj h)).1]
    exact .float _

/-- An atom is no text. -/
theorem isJoined_readAtom {place after : Place} {value : Json}
    (h : readAtom place = .ok (value, after)) : value.IsJoined := by
  have hwords : ∀ word ∈ words, word.2.IsJoined := by
    simp only [words, List.forall_mem_cons, List.not_mem_nil, false_implies, implies_true, and_true]
    exact ⟨.null, .bool _, .bool _, .float _, .float _, .float _⟩
  unfold readAtom at h
  split at h
  · next word value' hfind =>
    cases h
    exact hwords _ (List.mem_of_find?_eq_some hfind)
  · exact isJoined_readNumber h

/-- What is read with so much fuel has no pairs: a value, and an array or an object of which some
parts have been read. -/
structure ReadsJoined (fuel : Nat) : Prop where
  value {room : Nat} {place after : Place} {value : Json}
    (h : readValue fuel room place = .ok (value, after)) : value.IsJoined
  items {room : Nat} {done : List Json} {place after : Place} {value : Json}
    (h : readItems fuel room done place = .ok (value, after))
    (hdone : ∀ item ∈ done, item.IsJoined) : value.IsJoined
  members {room : Nat} {done : List (CodeText × Json)} {place after : Place} {value : Json}
    (h : readMembers fuel room done place = .ok (value, after))
    (hdone : ∀ member ∈ done, member.1.IsJoined ∧ member.2.IsJoined) : value.IsJoined

variable {fuel room : Nat} {place after : Place} {value : Json}

/-- A value is a text, has parts, or is an atom. -/
theorem ReadsJoined.readValue_succ (ih : ReadsJoined fuel)
    (h : readValue (fuel + 1) room place = .ok (value, after)) : value.IsJoined := by
  unfold readValue at h
  split at h
  · -- A string is joined as it is read.
    cases hread : readString place with
    | error fault =>
      rw [hread] at h
      cases h
    | ok read =>
      rw [hread] at h
      cases h
      exact .str (isJoined_readString hread)
  · cases room with
    | zero => cases h
    | succ room =>
      dsimp only at h
      split at h
      · cases h
        exact .arr (List.forall_mem_nil _)
      · exact ih.items h (List.forall_mem_nil _)
  · cases room with
    | zero => cases h
    | succ room =>
      dsimp only at h
      split at h
      · cases h
        exact .obj (List.forall_mem_nil _) (List.forall_mem_nil _)
      · exact ih.members h (List.forall_mem_nil _)
  · exact isJoined_readAtom h

/-- An item joins those that were read before it. -/
theorem ReadsJoined.readItems_succ (ih : ReadsJoined fuel) {done : List Json}
    (h : readItems (fuel + 1) room done place = .ok (value, after))
    (hdone : ∀ item ∈ done, item.IsJoined) : value.IsJoined := by
  rw [readItems] at h
  obtain ⟨⟨item, next⟩, hitem, h⟩ := bind_eq_ok_iff.mp h
  have hitems : ∀ other ∈ item :: done, other.IsJoined :=
    List.forall_mem_cons.mpr ⟨ih.value hitem, hdone⟩
  dsimp only at h
  split at h
  · cases h
    exact .arr fun other hother => hitems other (List.mem_reverse.mp hother)
  · exact ih.items h hitems
  · cases h

/-- A member joins those that were read before it, or takes the place of one. -/
theorem ReadsJoined.readMembers_succ (ih : ReadsJoined fuel) {done : List (CodeText × Json)}
    (h : readMembers (fuel + 1) room done place = .ok (value, after))
    (hdone : ∀ member ∈ done, member.1.IsJoined ∧ member.2.IsJoined) : value.IsJoined := by
  rw [readMembers] at h
  split at h
  · cases h
  obtain ⟨⟨name, colon⟩, hname, h⟩ := bind_eq_ok_iff.mp h
  dsimp only at h
  split at h
  · cases h
  obtain ⟨⟨member, next⟩, hmember, h⟩ := bind_eq_ok_iff.mp h
  -- A member replaces one of its name or comes behind the others; all are joined.
  have hmembers : ∀ other ∈ Keyed.set name member done, other.1.IsJoined ∧ other.2.IsJoined := by
    intro other hother
    rcases Keyed.mem_of_mem_set hother with rfl | hother
    · exact ⟨isJoined_readString hname, ih.value hmember⟩
    · exact hdone other hother
  dsimp only at h
  split at h
  · cases h
    exact .obj (fun other hother => (hmembers other hother).1) fun other hother =>
      (hmembers other hother).2
  · exact ih.members h hmembers
  · cases h

/-- Whatever is read has no pairs, by induction on the fuel. -/
theorem readsJoined (fuel : Nat) : ReadsJoined fuel := by
  induction fuel with
  | zero =>
    constructor
    · intro _ _ _ _ h
      cases h
    · intro _ _ _ _ _ h
      cases h
    · intro _ _ _ _ _ h
      cases h
  | succ fuel ih => exact ⟨ih.readValue_succ, ih.readItems_succ, ih.readMembers_succ⟩

/-- A value that is read has no pairs. -/
theorem isJoined_of_read {text : List Char} (h : read text = .ok value) : value.IsJoined := by
  unfold read at h
  split at h
  · cases h
  obtain ⟨⟨value', after⟩, hread, h⟩ := bind_eq_ok_iff.mp h
  dsimp only at h
  split at h
  · cases h
    exact (readsJoined _).value hread
  · cases h

end RepoAtlas.Json
