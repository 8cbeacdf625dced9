import RepoAtlas.Proofs.Arrival
import RepoAtlas.Proofs.Json.Layout

/-!
# `RepoAtlas.Proofs.Json.RoundTrip`: written values read back

Both layouts put nothing but blanks between the tokens of a value, and the reader passes over
blanks. So the text of a value reads as that value, as long as the reader takes it at all: it must
not nest deeper than the reader goes and not hold integers with too many digits. The names of an
object's members must differ, since a name that comes again replaces a value. Numbers that are no
integers are left out here.

* `Fits`: the values that the reader takes, inside which values may nest to a given depth.
* `readItems_reads`, `readMembers_reads`: parts that read back one by one read back in a row.
* `reads_of_fits`: by induction on the value, a value that fits reads back wherever it stands.
* `read_write`: the text of a value reads as the value.
* `isPlain_writeAt`: the text of a value is plain.
* `isPlain_line`, `read_line`: likewise for the text with the line feed that ends a file.
-/

set_option autoImplicit false

namespace RepoAtlas.Json

open RepoAtlas.Number RepoAtlas.Text

/-- A value that the reader takes where values may nest to a depth. -/
inductive Fits : Nat → Json → Prop where
  | null (room : Nat) : Fits room .null
  | bool (room : Nat) (value : Bool) : Fits room (.bool value)
  | int (room : Nat) {value : Int} (hsize : digitCount value.natAbs ≤ digitLimit) :
      Fits room (.int value)
  | str (room : Nat) {value : CodeText} (hjoined : value.IsJoined) : Fits room (.str value)
  | arr {room : Nat} {items : List Json} (hitems : ∀ item ∈ items, Fits room item) :
      Fits (room + 1) (.arr items)
  | obj {room : Nat} {members : List (CodeText × Json)} (hnames : (members.map Prod.fst).Nodup)
      (hjoined : ∀ member ∈ members, member.1.IsJoined)
      (hmembers : ∀ member ∈ members, Fits room member.2) : Fits (room + 1) (.obj members)

variable {style : Style} {level fuel room offset : Nat} {tail blanks text : List Char}

/-! ### Blanks -/

/-- A text that starts with a token. -/
def StartsWithToken (text : List Char) : Prop :=
  ∃ c, text.head? = some c ∧ isBlank c = false

/-- Blanks before a token are skipped, and no more. -/
theorem skipBlanks_append (hblanks : ∀ c ∈ blanks, isBlank c = true)
    (htext : StartsWithToken text) :
    Place.skipBlanks ⟨offset, blanks ++ text⟩ = ⟨offset + blanks.length, text⟩ := by
  obtain ⟨c, hhead, hc⟩ := htext
  obtain ⟨rest, rfl⟩ := List.head?_eq_some_iff.mp hhead
  have htake : (blanks ++ c :: rest).takeWhile isBlank = blanks := by
    rw [List.takeWhile_append_of_pos hblanks, List.takeWhile_cons_of_neg (by simp [hc]),
      List.append_nil]
  rw [Place.skipBlanks, htake, Place.drop, List.drop_left]

/-- Before a token there is nothing to skip. -/
theorem skipBlanks_of_token (htext : StartsWithToken text) :
    Place.skipBlanks ⟨offset, text⟩ = ⟨offset, text⟩ :=
  skipBlanks_append (List.forall_mem_nil _) htext

/-- Of a text of blanks nothing is left. -/
theorem skipBlanks_blanks (hblanks : ∀ c ∈ blanks, isBlank c = true) :
    (Place.skipBlanks ⟨offset, blanks⟩).rest = [] := by
  have htake : (blanks ++ []).takeWhile isBlank = blanks ++ [] :=
    List.takeWhile_append_of_pos hblanks
  rw [List.append_nil] at htake
  rw [Place.skipBlanks, htake, Place.drop, List.drop_length]

/-! ### Items and members one by one -/

/-- The last item of an array. -/
theorem readItems_last {done : List Json} {place : Place} {item : Json}
    (hread : Yields (readValue fuel room place) item (blanks ++ ']' :: tail))
    (hblanks : ∀ c ∈ blanks, isBlank c = true) :
    Yields (readItems (fuel + 1) room done place) (.arr (done.reverse ++ [item])) tail := by
  obtain ⟨after, hread⟩ := hread
  have hskip : Place.skipBlanks ⟨after, blanks ++ ']' :: tail⟩
      = ⟨after + blanks.length, ']' :: tail⟩ :=
    skipBlanks_append hblanks ⟨']', rfl, rfl⟩
  refine ⟨after + blanks.length + 1, ?_⟩
  rw [readItems, hread]
  simp only [bind, Except.bind, hskip, Place.head?, List.head?_cons, List.reverse_cons]
  rfl

/-- An item of an array that a further one follows. -/
theorem readItems_next {done : List Json} {place : Place} {item : Json}
    (hread : Yields (readValue fuel room place) item (',' :: (blanks ++ text)))
    (hblanks : ∀ c ∈ blanks, isBlank c = true) (htext : StartsWithToken text) :
    ∃ after, readItems (fuel + 1) room done place
      = readItems fuel room (item :: done) ⟨after, text⟩ := by
  obtain ⟨after, hread⟩ := hread
  have hcomma : Place.skipBlanks ⟨after, ',' :: (blanks ++ text)⟩
      = ⟨after, ',' :: (blanks ++ text)⟩ :=
    skipBlanks_of_token ⟨',', rfl, rfl⟩
  refine ⟨after + 1 + blanks.length, ?_⟩
  rw [readItems, hread]
  simp only [bind, Except.bind, hcomma, Place.head?, List.head?_cons, Place.drop,
    List.drop_succ_cons, List.drop_zero, skipBlanks_append hblanks htext]

/-- A member of an object, up to what follows its value. -/
theorem readMembers_member {name : CodeText} {value : Json} {rest : List Char}
    (hjoined : name.IsJoined) (htext : StartsWithToken text)
    (hread : ∀ offset, Yields (readValue fuel room ⟨offset, text⟩) value rest)
    (done : List (CodeText × Json)) (offset : Nat) :
    ∃ after, readMembers (fuel + 1) room done
        ⟨offset, (writeString name).toList ++ ':' :: ' ' :: text⟩ =
      match (Place.skipBlanks ⟨after, rest⟩).head? with
      | some '\x7d' =>
        .ok (.obj (Keyed.set name value done), (Place.skipBlanks ⟨after, rest⟩).drop 1)
      | some ',' => readMembers fuel room (Keyed.set name value done)
          ((Place.skipBlanks ⟨after, rest⟩).drop 1).skipBlanks
      | _ => .error (.malformed .comma (Place.skipBlanks ⟨after, rest⟩).offset) := by
  have hquote := head?_writeString name (':' :: ' ' :: text)
  obtain ⟨colon, hname⟩ := readString_writeString hjoined offset (':' :: ' ' :: text)
  have hcolon : Place.skipBlanks ⟨colon, ':' :: ' ' :: text⟩ = ⟨colon, ':' :: ' ' :: text⟩ :=
    skipBlanks_of_token ⟨':', rfl, rfl⟩
  -- Behind the colon stands one blank, which is skipped.
  have hstart : Place.skipBlanks ⟨colon + 1, [' '] ++ text⟩ = ⟨colon + 1 + 1, text⟩ :=
    skipBlanks_append (forall_mem_of_all (by decide)) htext
  obtain ⟨after, hread⟩ := hread (colon + 1 + 1)
  refine ⟨after, ?_⟩
  rw [readMembers, Place.head?, hquote, hname]
  simp only [bind, Except.bind, hcolon]
  show readValue fuel room (Place.skipBlanks ⟨colon + 1, [' '] ++ text⟩) >>= _ = _
  rw [hstart, hread]
  rfl

/-- The last member of an object. -/
theorem readMembers_last {name : CodeText} {value : Json} (hjoined : name.IsJoined)
    (htext : StartsWithToken text)
    (hread : ∀ offset, Yields (readValue fuel room ⟨offset, text⟩) value (blanks ++ '\x7d' :: tail))
    (hblanks : ∀ c ∈ blanks, isBlank c = true) (done : List (CodeText × Json)) (offset : Nat) :
    Yields (readMembers (fuel + 1) room done
        ⟨offset, (writeString name).toList ++ ':' :: ' ' :: text⟩)
      (.obj (Keyed.set name value done)) tail := by
  obtain ⟨after, hmember⟩ := readMembers_member hjoined htext hread done offset
  have hskip : Place.skipBlanks ⟨after, blanks ++ '\x7d' :: tail⟩
      = ⟨after + blanks.length, '\x7d' :: tail⟩ :=
    skipBlanks_append hblanks ⟨'\x7d', rfl, rfl⟩
  refine ⟨after + blanks.length + 1, ?_⟩
  rw [hmember, hskip]
  rfl

/-- A member of an object that a further one follows. -/
theorem readMembers_next {name : CodeText} {value : Json} {next : List Char}
    (hjoined : name.IsJoined) (htext : StartsWithToken text)
    (hread : ∀ offset,
      Yields (readValue fuel room ⟨offset, text⟩) value (',' :: (blanks ++ next)))
    (hblanks : ∀ c ∈ blanks, isBlank c = true) (hnext : StartsWithToken next)
    (done : List (CodeText × Json)) (offset : Nat) :
    ∃ after, readMembers (fuel + 1) room done
        ⟨offset, (writeString name).toList ++ ':' :: ' ' :: text⟩
      = readMembers fuel room (Keyed.set name value done) ⟨after, next⟩ := by
  obtain ⟨after, hmember⟩ := readMembers_member hjoined htext hread done offset
  have hcomma : Place.skipBlanks ⟨after, ',' :: (blanks ++ next)⟩
      = ⟨after, ',' :: (blanks ++ next)⟩ :=
    skipBlanks_of_token ⟨',', rfl, rfl⟩
  have hskip : Place.skipBlanks ⟨after + 1, blanks ++ next⟩ = ⟨after + 1 + blanks.length, next⟩ :=
    skipBlanks_append hblanks hnext
  refine ⟨after + 1 + blanks.length, ?_⟩
  rw [hmember, hcomma, ← hskip]
  rfl

/-! ### Items and members in a row -/

/-- A text that starts with a token, and not with the end of an array. -/
def StartsWithValue (text : List Char) : Prop :=
  ∃ c, text.head? = some c ∧ isBlank c = false ∧ c ≠ ']'

/-- The first character of a value is that of a token. -/
theorem StartsWithValue.token (h : StartsWithValue text) : StartsWithToken text := by
  obtain ⟨c, hhead, hblank, -⟩ := h
  exact ⟨c, hhead, hblank⟩

/-- What stands behind a text does not change its first character. -/
theorem StartsWithValue.append (h : StartsWithValue text) (tail : List Char) :
    StartsWithValue (text ++ tail) := by
  obtain ⟨c, hhead, hc⟩ := h
  exact ⟨c, by rw [List.head?_append, hhead]; rfl, hc⟩

/-- A value that reads back wherever it is written in a style. -/
structure Reads (style : Style) (room : Nat) (value : Json) : Prop where
  starts (level : Nat) : StartsWithValue (writeAt style level value).toList
  reads (level : Nat) {fuel : Nat} (offset : Nat) {tail : List Char} (htail : Ends tail)
    (hfuel : 2 * ((writeAt style level value).toList ++ tail).length ≤ fuel) :
    Yields (readValue fuel room ⟨offset, (writeAt style level value).toList ++ tail⟩) value tail

/-- Items start with the first one. -/
theorem startsWithValue_itemsText {item : Json} (h : Reads style room item) (level : Nat)
    (rest : List Json) : StartsWithValue (itemsText style level (item :: rest)) := by
  cases rest with
  | nil =>
    rw [itemsText_singleton]
    exact h.starts level
  | cons next rest =>
    rw [itemsText_cons]
    exact (h.starts level).append _

/-- Items that read back one by one read back in a row. -/
theorem readItems_reads {items : List Json} (hitems : ∀ item ∈ items, Reads style room item)
    (hne : items ≠ []) (hblanks : ∀ c ∈ blanks, isBlank c = true)
    (hends : Ends (blanks ++ ']' :: tail)) (done : List Json) (offset : Nat)
    (hfuel : 2 * (itemsText style level items ++ (blanks ++ ']' :: tail)).length + 1 ≤ fuel) :
    Yields (readItems fuel room done
        ⟨offset, itemsText style level items ++ (blanks ++ ']' :: tail)⟩)
      (.arr (done.reverse ++ items)) tail := by
  induction items generalizing done offset fuel with
  | nil => exact absurd rfl hne
  | cons item rest ih =>
    obtain ⟨hitem, hrest⟩ := List.forall_mem_cons.mp hitems
    obtain ⟨fuel, rfl⟩ : ∃ smaller, fuel = smaller + 1 := ⟨fuel - 1, by omega⟩
    cases rest with
    | nil =>
      rw [itemsText_singleton] at hfuel ⊢
      exact readItems_last (hitem.reads level offset hends (by omega)) hblanks
    | cons next rest =>
      obtain ⟨between, hcomma, hbetween⟩ := toList_comma style level
      rw [itemsText_cons, hcomma, List.cons_append, List.append_assoc, List.cons_append,
        List.append_assoc] at hfuel ⊢
      have hread : Yields (readValue fuel room ⟨offset, (writeAt style level item).toList ++ ',' ::
          (between ++ (itemsText style level (next :: rest) ++ (blanks ++ ']' :: tail)))⟩) item _ :=
        hitem.reads level offset (ends_cons (Or.inr (Or.inl rfl))) (by omega)
      have hstart := ((startsWithValue_itemsText (hrest next List.mem_cons_self) level rest).append
        (blanks ++ ']' :: tail)).token
      obtain ⟨after, hnext⟩ := readItems_next hread hbetween hstart
      rw [hnext]
      -- The comma that is left behind pays for the fuel of this step.
      have hleft : 2 * (itemsText style level (next :: rest) ++ (blanks ++ ']' :: tail)).length + 1
          ≤ fuel := by
        simp only [List.length_append, List.length_cons] at hfuel ⊢
        omega
      simpa using ih hrest (List.cons_ne_nil _ _) (item :: done) after hleft

/-- Members with different names that read back one by one read back in a row. -/
theorem readMembers_reads {members : List (CodeText × Json)}
    (hjoined : ∀ member ∈ members, member.1.IsJoined)
    (hmembers : ∀ member ∈ members, Reads style room member.2) (hne : members ≠ [])
    (hblanks : ∀ c ∈ blanks, isBlank c = true) (hends : Ends (blanks ++ '\x7d' :: tail))
    (done : List (CodeText × Json)) (hnames : ((done ++ members).map Prod.fst).Nodup) (offset : Nat)
    (hfuel : 2 * (membersText style level members ++ (blanks ++ '\x7d' :: tail)).length + 1
      ≤ fuel) :
    Yields (readMembers fuel room done
        ⟨offset, membersText style level members ++ (blanks ++ '\x7d' :: tail)⟩)
      (.obj (done ++ members)) tail := by
  induction members generalizing done offset fuel with
  | nil => exact absurd rfl hne
  | cons member rest ih =>
    obtain ⟨name, value⟩ := member
    obtain ⟨hname, hjoined⟩ := List.forall_mem_cons.mp hjoined
    obtain ⟨hvalue, hrest⟩ := List.forall_mem_cons.mp hmembers
    obtain ⟨fuel, rfl⟩ : ∃ smaller, fuel = smaller + 1 := ⟨fuel - 1, by omega⟩
    -- A name that is not among those before is set at the end.
    have hfresh : name ∉ done.map Prod.fst := by
      rw [List.map_append, List.map_cons, List.nodup_append] at hnames
      exact fun hmem => hnames.2.2 name hmem name List.mem_cons_self rfl
    have hset := Keyed.set_of_not_mem value hfresh
    cases rest with
    | nil =>
      rw [membersText_singleton, List.append_assoc, List.cons_append, List.cons_append] at hfuel ⊢
      rw [← hset]
      refine readMembers_last hname ((hvalue.starts level).append _).token
        (fun offset => hvalue.reads level offset hends ?_) hblanks done offset
      simp only [List.length_append, List.length_cons] at hfuel ⊢
      omega
    | cons next rest =>
      obtain ⟨between, hcomma, hbetween⟩ := toList_comma style level
      rw [membersText_cons, hcomma, List.append_assoc, List.cons_append, List.cons_append,
        List.append_assoc, List.cons_append, List.cons_append, List.append_assoc] at hfuel ⊢
      have hread : ∀ offset, Yields (readValue fuel room
          ⟨offset, (writeAt style level value).toList ++ ',' :: (between ++
            (membersText style level (next :: rest) ++ (blanks ++ '\x7d' :: tail)))⟩) value
          (',' :: (between ++
            (membersText style level (next :: rest) ++ (blanks ++ '\x7d' :: tail)))) := by
        intro offset
        refine hvalue.reads level offset (ends_cons (Or.inr (Or.inl rfl))) ?_
        simp only [List.length_append, List.length_cons] at hfuel ⊢
        omega
      have hstart : StartsWithToken (membersText style level (next :: rest) ++
          (blanks ++ '\x7d' :: tail)) := ⟨'"', head?_membersText next rest _, rfl⟩
      obtain ⟨after, hnext⟩ :=
        readMembers_next hname ((hvalue.starts level).append _).token hread hbetween hstart done
          offset
      rw [hnext, hset]
      have hleft : 2 * (membersText style level (next :: rest) ++
          (blanks ++ '\x7d' :: tail)).length + 1 ≤ fuel := by
        simp only [List.length_append, List.length_cons] at hfuel ⊢
        omega
      have hnames' : ((done ++ [(name, value)] ++ next :: rest).map Prod.fst).Nodup := by
        simpa using hnames
      simpa using ih hjoined hrest (List.cons_ne_nil _ _) (done ++ [(name, value)]) hnames' after
        hleft

/-! ### Values -/

/-- A value that starts like a word or a number and reads back as an atom reads back. -/
theorem reads_atom {value : Json}
    (hhead : ∀ level, ∃ c, (writeAt style level value).toList.head? = some c ∧
      (c.isDigit = true ∨ c = '-' ∨ c = 'n' ∨ c = 't' ∨ c = 'f'))
    (hread : ∀ level offset tail, Ends tail →
      Yields (readAtom ⟨offset, (writeAt style level value).toList ++ tail⟩) value tail) :
    Reads style room value := by
  -- Nothing else starts like an atom, so the reader gets to it past all other branches.
  have hatom : ∀ c : Char, (c.isDigit = true ∨ c = '-' ∨ c = 'n' ∨ c = 't' ∨ c = 'f') →
      isBlank c = false ∧ c ≠ ']' ∧ c ≠ '"' ∧ c ≠ '[' ∧ c ≠ '\x7b' := by
    rintro c (hdigit | rfl | rfl | rfl | rfl)
    · refine ⟨?_, ?_, ?_, ?_, ?_⟩
      · rw [Bool.eq_false_iff]
        intro hblank
        simp only [isBlank, Bool.or_eq_true, decide_eq_true_eq] at hblank
        rcases hblank with ((rfl | rfl) | rfl) | rfl <;> cases hdigit
      all_goals
        rintro rfl
        cases hdigit
    all_goals decide
  constructor
  · intro level
    obtain ⟨c, hc, hkind⟩ := hhead level
    obtain ⟨hblank, hbracket, -⟩ := hatom c hkind
    exact ⟨c, hc, hblank, hbracket⟩
  · intro level fuel offset tail htail hfuel
    obtain ⟨c, hc, hkind⟩ := hhead level
    obtain ⟨-, -, hquote, hbracket, hbrace⟩ := hatom c hkind
    obtain ⟨rest, hcons⟩ := List.head?_eq_some_iff.mp hc
    have hread := hread level offset tail htail
    rw [hcons, List.cons_append] at hread hfuel ⊢
    obtain ⟨fuel, rfl⟩ : ∃ smaller, fuel = smaller + 1 :=
      ⟨fuel - 1, by rw [List.length_cons] at hfuel; omega⟩
    have hstep : readValue (fuel + 1) room ⟨offset, c :: (rest ++ tail)⟩
        = readAtom ⟨offset, c :: (rest ++ tail)⟩ := by
      simp [readValue, Place.head?, hquote, hbracket, hbrace]
    rw [hstep]
    exact hread

/-- The word for null is read back. -/
theorem reads_null : Reads style room .null := by
  refine reads_atom (fun level => ⟨'n', ?_, by decide⟩) fun level offset tail _ =>
    ⟨offset + 4, ?_⟩ <;> rw [writeAt] <;> rfl

/-- So are the words for truth values. -/
theorem reads_bool (value : Bool) : Reads style room (.bool value) := by
  cases value with
  | true =>
    refine reads_atom (fun level => ⟨'t', ?_, by decide⟩) fun level offset tail _ =>
      ⟨offset + 4, ?_⟩ <;> rw [writeAt] <;> rfl
  | false =>
    refine reads_atom (fun level => ⟨'f', ?_, by decide⟩) fun level offset tail _ =>
      ⟨offset + 5, ?_⟩ <;> rw [writeAt] <;> rfl

/-- So is an integer that is not too long for the reader. -/
theorem reads_int {value : Int} (hsize : digitCount value.natAbs ≤ digitLimit) :
    Reads style room (.int value) := by
  have htext : ∀ level, writeAt style level (.int value) = toString value := fun _ => rfl
  refine reads_atom (fun level => ?_) fun level offset tail htail => ?_
  · obtain ⟨c, hhead, hc⟩ := head?_toString value
    rw [htext]
    exact ⟨c, hhead, hc.imp_right Or.inl⟩
  · rw [htext]
    exact readAtom_toString offset hsize htail

/-- A string without pairs. -/
theorem reads_str {value : CodeText} (hjoined : value.IsJoined) :
    Reads style room (.str value) where
  starts level := ⟨'"', by rw [writeAt, toList_writeString]; rfl, rfl, by decide⟩
  reads level fuel offset tail _ hfuel := by
    obtain ⟨rest, hcons⟩ := List.head?_eq_some_iff.mp (head?_writeString value tail)
    obtain ⟨after, hread⟩ := readString_writeString hjoined offset tail
    rw [writeAt, hcons] at hfuel ⊢
    rw [hcons] at hread
    obtain ⟨fuel, rfl⟩ : ∃ smaller, fuel = smaller + 1 :=
      ⟨fuel - 1, by rw [List.length_cons] at hfuel; omega⟩
    refine ⟨after, ?_⟩
    show (readString ⟨offset, '"' :: rest⟩).map _ = _
    rw [hread]
    rfl

/-- An array that is not empty is read item by item. -/
theorem readValue_items (hblanks : ∀ c ∈ blanks, isBlank c = true) (htext : StartsWithValue text)
    (offset : Nat) :
    ∃ after, readValue (fuel + 1) (room + 1) ⟨offset, '[' :: (blanks ++ text)⟩
      = readItems fuel room [] ⟨after, text⟩ := by
  have hskip : Place.skipBlanks ⟨offset + 1, blanks ++ text⟩ = ⟨offset + 1 + blanks.length, text⟩ :=
    skipBlanks_append hblanks htext.token
  obtain ⟨c, hhead, -, hbracket⟩ := htext
  -- The bracket that would end an empty array does not come next.
  have hitems : ¬ text.head? = some ']' := by
    rw [hhead]
    exact fun h => hbracket (Option.some.inj h)
  refine ⟨offset + 1 + blanks.length, ?_⟩
  have hstep : readValue (fuel + 1) (room + 1) ⟨offset, '[' :: (blanks ++ text)⟩ =
      if (Place.skipBlanks ⟨offset + 1, blanks ++ text⟩).head? = some ']' then
        .ok (.arr [], (Place.skipBlanks ⟨offset + 1, blanks ++ text⟩).drop 1)
      else readItems fuel room [] (Place.skipBlanks ⟨offset + 1, blanks ++ text⟩) := rfl
  rw [hstep, hskip, Place.head?, if_neg hitems]

/-- An object that is not empty is read member by member. -/
theorem readValue_members (hblanks : ∀ c ∈ blanks, isBlank c = true)
    (htext : text.head? = some '"') (offset : Nat) :
    ∃ after, readValue (fuel + 1) (room + 1) ⟨offset, '\x7b' :: (blanks ++ text)⟩
      = readMembers fuel room [] ⟨after, text⟩ := by
  have hskip : Place.skipBlanks ⟨offset + 1, blanks ++ text⟩ = ⟨offset + 1 + blanks.length, text⟩ :=
    skipBlanks_append hblanks ⟨'"', htext, rfl⟩
  -- The brace that would end an empty object does not come next.
  have hmembers : ¬ text.head? = some '\x7d' := by
    rw [htext]
    decide
  refine ⟨offset + 1 + blanks.length, ?_⟩
  have hstep : readValue (fuel + 1) (room + 1) ⟨offset, '\x7b' :: (blanks ++ text)⟩ =
      if (Place.skipBlanks ⟨offset + 1, blanks ++ text⟩).head? = some '\x7d' then
        .ok (.obj [], (Place.skipBlanks ⟨offset + 1, blanks ++ text⟩).drop 1)
      else readMembers fuel room [] (Place.skipBlanks ⟨offset + 1, blanks ++ text⟩) := rfl
  rw [hstep, hskip, Place.head?, if_neg hmembers]

/-- Two brackets with nothing between them. -/
theorem reads_brackets {value : Json} {opening closing : Char}
    (htext : ∀ level, (writeAt style level value).toList = [opening, closing])
    (hopening : isBlank opening = false ∧ opening ≠ ']')
    (hread : ∀ fuel offset tail, readValue (fuel + 1) room ⟨offset, opening :: closing :: tail⟩
      = .ok (value, ⟨offset + 2, tail⟩)) :
    Reads style room value where
  starts level := ⟨opening, by rw [htext]; rfl, hopening⟩
  reads level fuel offset tail _ hfuel := by
    rw [htext, List.length_append, List.length_cons] at hfuel
    obtain ⟨fuel, rfl⟩ : ∃ smaller, fuel = smaller + 1 := ⟨fuel - 1, by omega⟩
    rw [htext]
    exact ⟨offset + 2, hread fuel offset tail⟩

/-- An array is read back if its items are: its opening bracket is told from an empty array by the
first item, and each item by what stands behind it. -/
theorem reads_arr {items : List Json} (hitems : ∀ item ∈ items, Reads style room item) :
    Reads style (room + 1) (.arr items) := by
  -- An array without items has brackets only, whatever the style.
  by_cases hne : items = []
  · rw [hne]
    exact reads_brackets (fun _ => toList_writeAt_nil.1) (by decide) fun _ _ _ => rfl
  constructor
  · intro level
    have htext : (writeAt style level (.arr items)).toList ++ [] = _ := toList_writeAt_arr hne []
    rw [List.append_nil] at htext
    exact ⟨'[', by rw [htext]; rfl, rfl, by decide⟩
  · intro level fuel offset tail _ hfuel
    obtain ⟨item, rest, hcons⟩ := List.exists_cons_of_ne_nil hne
    -- What follows the bracket and its blanks starts the first item, so the array is not read as
    -- empty.
    have hstart : StartsWithValue (itemsText style (level + 1) items ++
        ((style.break level).toList ++ ']' :: tail)) := by
      rw [hcons] at hitems ⊢
      exact (startsWithValue_itemsText (hitems item List.mem_cons_self) (level + 1) rest).append _
    rw [toList_writeAt_arr hne, List.length_cons, List.length_append] at hfuel
    obtain ⟨fuel, rfl⟩ : ∃ smaller, fuel = smaller + 1 := ⟨fuel - 1, by omega⟩
    obtain ⟨after, hread⟩ := readValue_items (isBlank_break style (level + 1)) hstart offset
    rw [toList_writeAt_arr hne, hread]
    exact readItems_reads hitems hne (isBlank_break style level)
      (ends_break (Or.inl rfl) style level) [] after (by omega)

/-- An object is read back if its members are. Its names are distinct, so none of them is taken for
a later one. -/
theorem reads_obj {members : List (CodeText × Json)} (hnames : (members.map Prod.fst).Nodup)
    (hjoined : ∀ member ∈ members, member.1.IsJoined)
    (hmembers : ∀ member ∈ members, Reads style room member.2) :
    Reads style (room + 1) (.obj members) := by
  -- An object without members has brackets only, whatever the style.
  by_cases hne : members = []
  · rw [hne]
    exact reads_brackets (fun _ => toList_writeAt_nil.2) (by decide) fun _ _ _ => rfl
  constructor
  · intro level
    have htext : (writeAt style level (.obj members)).toList ++ [] = _ := toList_writeAt_obj hne []
    rw [List.append_nil] at htext
    exact ⟨'\x7b', by rw [htext]; rfl, rfl, by decide⟩
  · intro level fuel offset tail _ hfuel
    obtain ⟨member, rest, hcons⟩ := List.exists_cons_of_ne_nil hne
    -- What follows the bracket and its blanks is the quote of the first name.
    have hstart : (membersText style (level + 1) members ++
        ((style.break level).toList ++ '\x7d' :: tail)).head? = some '"' := by
      rw [hcons]
      exact head?_membersText member rest _
    rw [toList_writeAt_obj hne, List.length_cons, List.length_append] at hfuel
    obtain ⟨fuel, rfl⟩ : ∃ smaller, fuel = smaller + 1 := ⟨fuel - 1, by omega⟩
    obtain ⟨after, hread⟩ := readValue_members (isBlank_break style (level + 1)) hstart offset
    rw [toList_writeAt_obj hne, hread]
    exact readMembers_reads hjoined hmembers hne (isBlank_break style level)
      (ends_break (Or.inr rfl) style level) [] hnames after (by omega)

/-- A value that fits reads back wherever it is written. -/
theorem reads_of_fits {value : Json} (h : Fits room value) (style : Style) :
    Reads style room value := by
  induction h with
  | null room => exact reads_null
  | bool room value => exact reads_bool value
  | int room hsize => exact reads_int hsize
  | str room hjoined => exact reads_str hjoined
  | arr _ ih => exact reads_arr ih
  | obj hnames hjoined _ ih => exact reads_obj hnames hjoined ih

/-! ### Texts -/

/-- The text of a value is plain. -/
theorem isPlain_writeAt {value : Json} (h : Fits room value) (style : Style) (level : Nat) :
    ∀ c ∈ (writeAt style level value).toList, IsPlain c := by
  -- By induction on the value: blanks, brackets and separators are plain, and so are the parts.
  induction h generalizing level with
  | null room =>
    rw [writeAt]
    exact forall_mem_of_all (by decide)
  | bool room value =>
    rw [writeAt]
    cases value <;> exact forall_mem_of_all (by decide)
  | @int room value hsize => exact isPlain_toString value
  | @str room value _ => exact isPlain_writeString value
  | arr _ ih =>
    rw [writeAt, writeItems_eq_map]
    refine isPlain_bracket (forall_mem_of_all (by decide)) (forall_mem_of_all (by decide)) ?_
      style level
    intro part hpart
    obtain ⟨item, hitem, rfl⟩ := List.mem_map.mp hpart
    exact ih item hitem (level + 1)
  | obj _ _ _ ih =>
    rw [writeAt, writeMembers_eq_map]
    refine isPlain_bracket (forall_mem_of_all (by decide)) (forall_mem_of_all (by decide)) ?_
      style level
    intro part hpart
    obtain ⟨member, hmember, rfl⟩ := List.mem_map.mp hpart
    simp only [String.toList_append, List.forall_mem_append]
    exact ⟨⟨isPlain_writeString _, forall_mem_of_all (by decide)⟩, ih member hmember (level + 1)⟩

/-- The text of a value, with or without a line feed after it, reads as the value. -/
theorem read_write {value : Json} (h : Fits maxDepth value) (style : Style)
    (hends : Ends blanks) (hblanks : ∀ c ∈ blanks, isBlank c = true) :
    read ((write style value).toList ++ blanks) = .ok value := by
  have hreads := reads_of_fits h style
  -- What is written is plain, so it has no mark in front.
  have hmark : ((write style value).toList ++ blanks).head? ≠ some (Char.ofNat 0xFEFF) := by
    obtain ⟨c, hhead, -⟩ := hreads.starts 0
    rw [List.head?_append, write, hhead]
    rintro ⟨⟩
    exact absurd (isPlain_writeAt h style 0 _ (List.mem_of_head? hhead)) (by decide)
  have hstart : Place.skipBlanks ⟨0, (write style value).toList ++ blanks⟩
      = ⟨0, (write style value).toList ++ blanks⟩ :=
    skipBlanks_of_token ((hreads.starts 0).append blanks).token
  obtain ⟨after, hread⟩ := hreads.reads 0 0 hends (Nat.le_add_right _ 2)
  rw [read, if_neg hmark, hstart]
  show (readValue _ _ _ >>= _) = _
  rw [write, hread]
  show (if (Place.skipBlanks ⟨after, blanks⟩).rest.isEmpty then _ else _) = _
  rw [skipBlanks_blanks hblanks]
  rfl

/-- A value on lines of its own is plain text. -/
theorem isPlain_line {value : Json} (h : Fits room value) (style : Style) :
    ∀ c ∈ (write style value ++ "\n").toList, IsPlain c := by
  rw [String.toList_append, List.forall_mem_append]
  exact ⟨isPlain_writeAt h style 0, forall_mem_of_all (by decide)⟩

/-- A file with a value and a line feed is read as the value. -/
theorem read_line {value : Json} (h : Fits maxDepth value) (style : Style) :
    read (write style value ++ "\n").toList = .ok value := by
  rw [String.toList_append]
  exact read_write h style (ends_cons (Or.inl rfl)) (forall_mem_of_all (by decide))

end RepoAtlas.Json
