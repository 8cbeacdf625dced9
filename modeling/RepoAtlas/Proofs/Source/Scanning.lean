import RepoAtlas.Proofs.Source.Matching

/-!
# `RepoAtlas.Proofs.Source.Scanning`: the matches of a form in a text

A form is looked for from left to right, and the search goes on behind each match. What it reports
is settled by the language of the form alone: the matches that are reported do not overlap, and
every place where some text of the form starts belongs to one of them.

* `Occurrence.IsOf`: a match, the only one that starts where it does.
* `Form.Finds`: the matches from a place on.
* `Form.Finds.cons`, `Form.Finds.earlier`: what one step of the search does to them.
* `exists_finds`: the specifiers that a scan reports are those of the matches.
-/

set_option autoImplicit false

namespace RepoAtlas.Source

variable {form : Form} {text : List Char}

/-- A match in a text. -/
structure Occurrence where
  /-- The number of characters before the match. -/
  start : Nat
  matched : List Char
  specifier : List Char

/-- The place behind a match. -/
def Occurrence.stop (o : Occurrence) : Nat :=
  o.start + o.matched.length

/-- A match of a form in a text. -/
structure Occurrence.IsOf (o : Occurrence) (form : Form) (text : List Char) : Prop where
  here : o.matched <+: text.drop o.start
  described : form.Describes o.matched
  only : ∀ other, form.Describes other → other <+: text.drop o.start → other = o.matched
  /-- The specifier stands between the first quote and the second one. -/
  quoted : ∃ front opening ending back,
    o.matched = front ++ opening :: (o.specifier ++ ending :: back) ∧
      Unquoted front ∧ isQuote opening = true ∧ isQuote ending = true
  filled : o.specifier ≠ []
  unquoted : Unquoted o.specifier

/-- The matches of a form that are reported from a place on. -/
structure Form.Finds (form : Form) (text : List Char) (place : Nat)
    (occurrences : List Occurrence) : Prop where
  isOf : ∀ o ∈ occurrences, o.IsOf form text
  from_place : ∀ o ∈ occurrences, place ≤ o.start
  apart : occurrences.Pairwise (·.stop ≤ ·.start)
  /-- Where a text of the form starts, a match starts or another one has not ended yet. -/
  complete : ∀ start matched, place ≤ start → form.Describes matched →
    matched <+: text.drop start → ∃ o ∈ occurrences, o.start ≤ start ∧ start < o.stop

/-! ### Single matches -/

/-- No form describes the empty text. -/
theorem Form.Describes.ne_nil {matched : List Char} (h : form.Describes matched) :
    matched ≠ [] := by
  obtain ⟨parts, -, rfl⟩ := describes_iff.mp h
  simp [Form.assemble]

/-- Parts that stand somewhere in a text are a match there. -/
theorem Parts.IsOf.isOf (hplain : form.IsPlain) {parts : Parts} (hparts : parts.IsOf form)
    {start : Nat} (hhere : form.assemble parts <+: text.drop start) :
    Occurrence.IsOf ⟨start, form.assemble parts, parts.specifier⟩ form text where
  here := hhere
  described := describes_iff.mpr ⟨parts, hparts, rfl⟩
  only := by
    -- Two matches at one place start the same text.
    rintro other hother ⟨rest', hrest'⟩
    obtain ⟨parts', hparts', rfl⟩ := describes_iff.mp hother
    obtain ⟨rest, hrest⟩ := hhere
    rw [hparts'.unique hplain hparts (hrest'.trans hrest.symm)]
  quoted := ⟨form.keyword.toList ++ parts.lead, parts.opening, parts.ending, parts.closing,
    (List.append_assoc ..).symm,
    List.forall_mem_append.mpr ⟨hplain.keyword, hparts.unquoted_lead hplain⟩,
    hparts.opening, hparts.ending⟩
  filled := hparts.filled
  unquoted := hparts.unquoted

/-- A match is made of parts. -/
theorem Occurrence.IsOf.exists_parts (hplain : form.IsPlain) {o : Occurrence}
    (ho : o.IsOf form text) : ∃ parts before after, parts.IsOf form ∧
      text = before ++ (form.assemble parts ++ after) ∧ o.specifier = parts.specifier := by
  obtain ⟨parts, hparts, hmatched⟩ := describes_iff.mp ho.described
  obtain ⟨after, hafter⟩ := ho.here
  obtain ⟨front, opening, ending, back, hquoted, hfront, hopening, hending⟩ := ho.quoted
  rw [hmatched, Form.assemble, ← List.append_assoc] at hquoted
  -- Nothing in front of the opening quote is a quote, so both readings agree on where it stands.
  obtain ⟨-, -, hback⟩ := eq_of_append_cons_eq hquoted
    (unquoted_iff.mp (List.forall_mem_append.mpr ⟨hplain.keyword, hparts.unquoted_lead hplain⟩))
    (unquoted_iff.mp hfront) (by simp [hparts.opening]) (by simp [hopening])
  obtain ⟨hspecifier, -, -⟩ := eq_of_append_cons_eq hback (unquoted_iff.mp hparts.unquoted)
    (unquoted_iff.mp ho.unquoted) (by simp [hparts.ending]) (by simp [hending])
  refine ⟨parts, text.take o.start, after, hparts, ?_, hspecifier.symm⟩
  rw [← hmatched, hafter, List.take_append_drop]

/-- What the matcher finds at a place is a match there. -/
theorem isOf_of_matchFront (hplain : form.IsPlain) {start length : Nat} {specifier : List Char}
    (h : form.matchFront (text.drop start) = some (specifier, length)) :
    ∃ matched, Occurrence.IsOf ⟨start, matched, specifier⟩ form text ∧
      matched.length = length := by
  obtain ⟨parts, rest, hparts, htext, rfl, rfl⟩ := (matchFront_eq_some_iff hplain).mp h
  exact ⟨_, hparts.isOf hplain ⟨rest, htext.symm⟩, rfl⟩

/-- Where the matcher finds nothing, no text of the form starts. -/
theorem not_describes_of_matchFront (hplain : form.IsPlain) {back matched : List Char}
    (h : form.matchFront back = none) (hmatched : matched <+: back) :
    ¬form.Describes matched := by
  intro hdescribes
  obtain ⟨parts, hparts, rfl⟩ := describes_iff.mp hdescribes
  obtain ⟨rest, rfl⟩ := hmatched
  rw [matchFront_assemble hplain hparts] at h
  cases h

/-! ### The search -/

namespace Form.Finds

variable {place : Nat} {occurrences : List Occurrence}

/-- At the end of a text no match starts. -/
theorem nil (hplace : text.length ≤ place) : form.Finds text place [] where
  isOf := List.forall_mem_nil _
  from_place := List.forall_mem_nil _
  apart := .nil
  complete := by
    intro start matched hstart hdescribes hmatched
    rw [List.drop_eq_nil_of_le (hplace.trans hstart), List.prefix_nil] at hmatched
    exact absurd hmatched hdescribes.ne_nil

/-- A match, and the matches behind it. -/
theorem cons {o : Occurrence} (ho : o.IsOf form text)
    (hfinds : form.Finds text o.stop occurrences) : form.Finds text o.start (o :: occurrences) where
  isOf := List.forall_mem_cons.mpr ⟨ho, hfinds.isOf⟩
  from_place := List.forall_mem_cons.mpr ⟨Nat.le_refl _, fun o' ho' =>
    (Nat.le_add_right o.start _).trans (hfinds.from_place o' ho')⟩
  apart := List.pairwise_cons.mpr ⟨hfinds.from_place, hfinds.apart⟩
  complete := by
    intro start matched hstart hdescribes hmatched
    rcases Nat.lt_or_ge start o.stop with hinside | hbehind
    · exact ⟨o, List.mem_cons_self, hstart, hinside⟩
    · obtain ⟨o', ho', hcovers⟩ := hfinds.complete start matched hbehind hdescribes hmatched
      exact ⟨o', List.mem_cons_of_mem _ ho', hcovers⟩

/-- Where no match starts, the search goes on at the next place. -/
theorem earlier (hfinds : form.Finds text (place + 1) occurrences)
    (hnone : ∀ matched, matched <+: text.drop place → ¬form.Describes matched) :
    form.Finds text place occurrences where
  isOf := hfinds.isOf
  from_place := fun o ho => Nat.le_of_succ_le (hfinds.from_place o ho)
  apart := hfinds.apart
  complete := by
    intro start matched hstart hdescribes hmatched
    rcases Nat.eq_or_lt_of_le hstart with rfl | hlater
    · exact absurd hdescribes (hnone matched hmatched)
    · exact hfinds.complete start matched hlater hdescribes hmatched

end Form.Finds

/-- The search from a place on, `skip` characters of which belong to an earlier match. -/
theorem exists_finds_scanAfter (hplain : form.IsPlain) (place skip : Nat) {back : List Char}
    (hback : text.drop place = back) (found : List (List Char)) :
    ∃ occurrences, form.Finds text (place + skip) occurrences ∧
      form.scanAfter found skip back
        = (occurrences.map Occurrence.specifier).reverse ++ found := by
  -- Along the text behind the place. A match is skipped by counting, so the search goes on at
  -- `place + skip`, which stays the same while characters are skipped.
  induction back generalizing place skip found with
  | nil =>
    have hend : text.length ≤ place := List.drop_eq_nil_iff.mp hback
    exact ⟨[], .nil (hend.trans (Nat.le_add_right _ _)), by cases skip <;> rfl⟩
  | cons c rest ih =>
    have hrest : text.drop (place + 1) = rest := by
      rw [← List.drop_drop, hback, List.drop_one, List.tail_cons]
    cases skip with
    | succ skip =>
      obtain ⟨occurrences, hfinds, hscan⟩ := ih (place + 1) skip hrest found
      refine ⟨occurrences, ?_, hscan⟩
      rwa [Nat.add_assoc, Nat.add_comm 1] at hfinds
    | zero =>
      unfold Form.scanAfter
      split
      · next specifier length hfront =>
        rw [← hback] at hfront
        obtain ⟨matched, hmatch, rfl⟩ := isOf_of_matchFront hplain hfront
        obtain ⟨occurrences, hfinds, hscan⟩ :=
          ih (place + 1) (matched.length - 1) hrest (specifier :: found)
        have hlength : 0 < matched.length :=
          List.length_pos_iff.mpr hmatch.described.ne_nil
        rw [show place + 1 + (matched.length - 1) = place + matched.length by omega] at hfinds
        refine ⟨_, .cons hmatch hfinds, ?_⟩
        rw [hscan, List.map_cons, List.reverse_cons, List.append_assoc, List.singleton_append]
      · next hfront =>
        rw [← hback] at hfront
        obtain ⟨occurrences, hfinds, hscan⟩ := ih (place + 1) 0 hrest found
        exact ⟨occurrences, hfinds.earlier fun _ => not_describes_of_matchFront hplain hfront,
          hscan⟩

/-- A scan reports the specifiers of the matches of a form. -/
theorem exists_finds (hplain : form.IsPlain) (text : List Char) :
    ∃ occurrences, form.Finds text 0 occurrences ∧
      form.scan text = occurrences.map Occurrence.specifier := by
  obtain ⟨occurrences, hfinds, hscan⟩ :=
    exists_finds_scanAfter hplain 0 0 List.drop_zero []
  refine ⟨occurrences, hfinds, ?_⟩
  unfold Form.scan
  rw [hscan, List.append_nil, List.reverse_reverse]

end RepoAtlas.Source
