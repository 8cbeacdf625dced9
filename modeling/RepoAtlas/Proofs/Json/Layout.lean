import RepoAtlas.Proofs.Json.Integers

/-!
# `RepoAtlas.Proofs.Json.Layout`: how values are set out

Arrays and objects are written part by part: an opening bracket, the parts with a comma between
them, a closing bracket. The two layouts differ only in the blanks that stand at these places.
The texts of both are taken apart here, for the reader to meet piece by piece.

* `itemsText`, `membersText`: what stands between the brackets, with a lemma for one part and one
  for a part that others follow.
* `toList_writeAt_arr`, `toList_writeAt_obj`: an array and an object as written.
* `isPlain_bracket`: plain parts make a plain text.
-/

set_option autoImplicit false

namespace RepoAtlas.Json

open RepoAtlas.Text

variable {style : Style} {level : Nat} {tail : List Char}

/-! ### Between the parts -/

/-- Breaks are line feeds and blanks. -/
theorem mem_break {c : Char} (h : c ∈ (style.break level).toList) : c = '\n' ∨ c = ' ' := by
  cases style with
  | compact => exact absurd h List.not_mem_nil
  | indented =>
    simp only [Style.break, String.toList_append, String.toList_ofList, List.mem_append] at h
    rcases h with h | h
    · exact Or.inl (List.mem_singleton.mp h)
    · exact Or.inr (List.eq_of_mem_replicate h)

/-- A break is of blanks. -/
theorem isBlank_break (style : Style) (level : Nat) :
    ∀ c ∈ (style.break level).toList, isBlank c = true := by
  intro c hc
  rcases mem_break hc with rfl | rfl <;> rfl

/-- A comma and the blanks behind it, in either style. -/
theorem toList_comma (style : Style) (level : Nat) :
    ∃ blanks, (style.comma level).toList = ',' :: blanks ∧ ∀ c ∈ blanks, isBlank c = true := by
  cases style with
  | compact => exact ⟨[' '], by simp [Style.comma], forall_mem_of_all (by decide)⟩
  | indented =>
    refine ⟨(Style.indented.break level).toList, ?_, isBlank_break _ _⟩
    rw [Style.comma, String.toList_append]
    rfl

/-- A closing bracket ends a value, on the same line or the next one. -/
theorem ends_break {c : Char} (hc : c = ']' ∨ c = '\x7d') (style : Style) (level : Nat) :
    Ends ((style.break level).toList ++ c :: tail) := by
  cases style with
  | compact => exact ends_cons (by tauto)
  | indented =>
    rw [Style.break, String.toList_append]
    exact ends_cons (Or.inl rfl)

/-- A break is of plain characters. -/
theorem isPlain_break (style : Style) (level : Nat) :
    ∀ c ∈ (style.break level).toList, IsPlain c := by
  intro c hc
  rcases mem_break hc with rfl | rfl <;> decide

/-! ### Parts in a row -/

/-- Items are written one by one. -/
theorem writeItems_eq_map (items : List Json) :
    writeItems style level items = items.map (writeAt style level) := by
  induction items with
  | nil => rfl
  | cons item rest ih => rw [writeItems, ih, List.map_cons]

/-- Members are written one by one, the name before the value. -/
theorem writeMembers_eq_map (members : List (CodeText × Json)) :
    writeMembers style level members
      = members.map fun member => writeString member.1 ++ ": " ++ writeAt style level member.2 := by
  induction members with
  | nil => rfl
  | cons member rest ih => rw [writeMembers, ih, List.map_cons]

/-- The items of an array as they stand between its brackets. -/
def itemsText (style : Style) (level : Nat) (items : List Json) : List Char :=
  ((style.comma level).intercalate (writeItems style level items)).toList

/-- The last item stands alone. -/
theorem itemsText_singleton (item : Json) :
    itemsText style level [item] = (writeAt style level item).toList := by
  rw [itemsText, writeItems, writeItems, String.intercalate_singleton]

/-- Every other item has a comma behind it. -/
theorem itemsText_cons (item next : Json) (rest : List Json) :
    itemsText style level (item :: next :: rest) = (writeAt style level item).toList ++
      ((style.comma level).toList ++ itemsText style level (next :: rest)) := by
  rw [itemsText, writeItems, writeItems, toList_intercalate_cons]
  rfl

/-- The members of an object as they stand between its brackets. -/
def membersText (style : Style) (level : Nat) (members : List (CodeText × Json)) : List Char :=
  ((style.comma level).intercalate (writeMembers style level members)).toList

/-- The last member stands alone. -/
theorem membersText_singleton (name : CodeText) (value : Json) :
    membersText style level [(name, value)]
      = (writeString name).toList ++ ':' :: ' ' :: (writeAt style level value).toList := by
  rw [membersText, writeMembers, writeMembers, String.intercalate_singleton, String.toList_append,
    String.toList_append, List.append_assoc]
  rfl

/-- Every other member has a comma behind it. -/
theorem membersText_cons (name : CodeText) (value : Json) (next : CodeText × Json)
    (rest : List (CodeText × Json)) :
    membersText style level ((name, value) :: next :: rest)
      = (writeString name).toList ++ ':' :: ' ' :: ((writeAt style level value).toList ++
          ((style.comma level).toList ++ membersText style level (next :: rest))) := by
  obtain ⟨name', value'⟩ := next
  rw [membersText, writeMembers, writeMembers, toList_intercalate_cons, String.toList_append,
    String.toList_append, List.append_assoc, List.append_assoc]
  rfl

/-- Members start with the quote of the first name. -/
theorem head?_membersText (member : CodeText × Json) (rest : List (CodeText × Json))
    (tail : List Char) :
    (membersText style level (member :: rest) ++ tail).head? = some '"' := by
  obtain ⟨name, value⟩ := member
  cases rest with
  | nil =>
    rw [membersText_singleton, List.append_assoc]
    exact head?_writeString name _
  | cons next rest =>
    rw [membersText_cons, List.append_assoc]
    exact head?_writeString name _

/-! ### Parts between brackets -/

/-- Parts between brackets: the brackets, blanks inside them, and the parts. -/
theorem toList_bracket {parts : List String} (hparts : parts ≠ []) (opening closing : String) :
    (style.bracket level opening closing parts).toList =
      opening.toList ++ ((style.break (level + 1)).toList ++
        (((style.comma (level + 1)).intercalate parts).toList ++
          ((style.break level).toList ++ closing.toList))) := by
  have hempty : ¬ parts.isEmpty = true := by
    simpa using hparts
  rw [Style.bracket, if_neg hempty]
  simp only [String.toList_append, List.append_assoc]

/-- An array that is not empty is its items between brackets, on lines of their own where it is
indented. -/
theorem toList_writeAt_arr {items : List Json} (hitems : items ≠ []) (tail : List Char) :
    (writeAt style level (.arr items)).toList ++ tail =
      '[' :: ((style.break (level + 1)).toList ++ (itemsText style (level + 1) items ++
        ((style.break level).toList ++ ']' :: tail))) := by
  have hparts : writeItems style (level + 1) items ≠ [] := by
    obtain ⟨item, rest, rfl⟩ := List.exists_cons_of_ne_nil hitems
    exact List.cons_ne_nil _ _
  rw [writeAt, toList_bracket hparts]
  simp only [List.append_assoc]
  rfl

/-- An object that is not empty is its members between braces. -/
theorem toList_writeAt_obj {members : List (CodeText × Json)} (hmembers : members ≠ [])
    (tail : List Char) :
    (writeAt style level (.obj members)).toList ++ tail =
      '\x7b' :: ((style.break (level + 1)).toList ++ (membersText style (level + 1) members ++
        ((style.break level).toList ++ '\x7d' :: tail))) := by
  have hparts : writeMembers style (level + 1) members ≠ [] := by
    obtain ⟨⟨name, value⟩, rest, rfl⟩ := List.exists_cons_of_ne_nil hmembers
    exact List.cons_ne_nil _ _
  rw [writeAt, toList_bracket hparts]
  simp only [List.append_assoc]
  rfl

/-- Without parts, the brackets stand next to each other in either style. -/
theorem toList_writeAt_nil :
    (writeAt style level (.arr [])).toList = ['[', ']'] ∧
      (writeAt style level (.obj [])).toList = ['\x7b', '\x7d'] := by
  constructor
  · simp [writeAt, writeItems, Style.bracket]
  · simp [writeAt, writeMembers, Style.bracket]

/-- What stands between brackets is plain if its parts are. -/
theorem isPlain_bracket {parts : List String} {opening closing : String}
    (hopening : ∀ c ∈ opening.toList, IsPlain c) (hclosing : ∀ c ∈ closing.toList, IsPlain c)
    (hparts : ∀ part ∈ parts, ∀ c ∈ part.toList, IsPlain c) (style : Style) (level : Nat) :
    ∀ c ∈ (style.bracket level opening closing parts).toList, IsPlain c := by
  have hcomma : ∀ c ∈ (style.comma (level + 1)).toList, IsPlain c := by
    cases style with
    | compact =>
      show ∀ c ∈ ", ".toList, IsPlain c
      exact forall_mem_of_all (by decide)
    | indented =>
      rw [Style.comma, String.toList_append, List.forall_mem_append]
      exact ⟨forall_mem_of_all (by decide), isPlain_break _ _⟩
  -- Brackets without parts have no breaks in them.
  by_cases hne : parts = []
  · rw [hne, Style.bracket, List.isEmpty_nil, if_pos rfl, String.toList_append,
      List.forall_mem_append]
    exact ⟨hopening, hclosing⟩
  · simp only [toList_bracket hne, List.forall_mem_append]
    exact ⟨hopening, isPlain_break _ _, forall_mem_intercalate hcomma hparts, isPlain_break _ _,
      hclosing⟩

end RepoAtlas.Json
