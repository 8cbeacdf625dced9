import Mathlib.Data.List.Forall2
import Mathlib.Data.List.TakeWhile
import RepoAtlas.Proofs.Text.Pattern
import RepoAtlas.Source.Reference

/-!
# `RepoAtlas.Proofs.Source.Matching`: matches at the front of a text

Each form of reference is the language of a few patterns (`Form.Describes`). The matcher does not
run them as they stand: it runs what leads up to the first quote and then reads on from quote to
quote. It finds the same texts, because a lead holds no quotes. For the same reason a text has at
most one match at its front, so nothing is left open by the parts that may be missing or of any
length.

* `describes_iff`: what a match is made of (`Parts`).
* `readLead_eq_some_iff`: running the leads stops at the first quote.
* `matchFront_eq_some_iff`: the matcher finds a match exactly if there is one.
* `Parts.IsOf.unique`: there is at most one.
-/

set_option autoImplicit false

namespace RepoAtlas.Source

open RepoAtlas.Text
open RepoAtlas.Text.Pattern (Matches Reached)

variable {form : Form} {text rest : List Char}

/-- A text without quotes. -/
def Unquoted (text : List Char) : Prop :=
  ∀ c ∈ text, isQuote c = false

/-- Text without quotes, as the patterns put it. -/
theorem unquoted_iff : Unquoted text ↔ ∀ c ∈ text, (!isQuote c) = true := by
  simp only [Unquoted, Bool.not_eq_true']

instance (text : List Char) : Decidable (Unquoted text) :=
  decidable_of_iff (text.all (!isQuote ·) = true) (List.all_eq_true.trans unquoted_iff.symm)

/-! ### Patterns of whole matches -/

/-- A specifier between quotes. -/
def quotedPattern : Pattern :=
  .one isQuote :: (Pattern.atLeastOne (!isQuote ·) ++ [.one isQuote])

/-- The end of a call. -/
def closingPattern : Pattern :=
  [.many isBlank, .one (· = ')')]

/-- The patterns of a form, one for each lead. -/
def Form.patterns (form : Form) : List Pattern :=
  form.leads.map fun lead =>
    Pattern.literal form.keyword ++ lead ++ quotedPattern ++
      if form.closed then closingPattern else []

/-- Whether a text is of a form. -/
def Form.Describes (form : Form) (text : List Char) : Prop :=
  ∃ pattern ∈ form.patterns, Matches pattern text

/-- The parts of a match after its keyword. -/
structure Parts where
  lead : List Char
  opening : Char
  specifier : List Char
  ending : Char
  closing : List Char

/-- The text of a match. -/
def Form.assemble (form : Form) (parts : Parts) : List Char :=
  form.keyword.toList ++ (parts.lead ++ parts.opening ::
    (parts.specifier ++ parts.ending :: parts.closing))

/-- What closes a match of a form. -/
def Form.Closes (form : Form) (closing : List Char) : Prop :=
  if form.closed then ∃ gap, closing = gap ++ [')'] ∧ ∀ c ∈ gap, isBlank c = true else closing = []

/-- Parts that make a match of a form. -/
structure Parts.IsOf (parts : Parts) (form : Form) : Prop where
  lead : ∃ lead ∈ form.leads, Matches lead parts.lead
  opening : isQuote parts.opening = true
  filled : parts.specifier ≠ []
  unquoted : Unquoted parts.specifier
  ending : isQuote parts.ending = true
  closing : form.Closes parts.closing

/-- The quoted pattern matches two quotes with some text without quotes between them. -/
theorem matches_quotedPattern : Matches quotedPattern text ↔
    ∃ opening specifier ending, text = opening :: (specifier ++ [ending]) ∧
      isQuote opening = true ∧ specifier ≠ [] ∧ Unquoted specifier ∧ isQuote ending = true := by
  unfold quotedPattern
  rw [Pattern.matches_one]
  constructor
  · rintro ⟨opening, back, rfl, hopening, h⟩
    obtain ⟨specifier, last, rfl, hspecifier, hlast⟩ := Pattern.matches_append.mp h
    -- The specifier is a run of at least one character that is no quote.
    obtain ⟨hfilled, hunquoted⟩ := Pattern.matches_atLeastOne.mp hspecifier
    obtain ⟨ending, none, rfl, hending, hnone⟩ := Pattern.matches_one.mp hlast
    rw [Pattern.matches_nil.mp hnone]
    exact ⟨opening, specifier, ending, rfl, hopening, hfilled,
      fun c hc => Bool.not_eq_true' _ ▸ hunquoted c hc, hending⟩
  · rintro ⟨opening, specifier, ending, rfl, hopening, hfilled, hunquoted, hending⟩
    exact ⟨opening, _, rfl, hopening, Pattern.matches_append.mpr ⟨specifier, [ending], rfl,
      Pattern.matches_atLeastOne.mpr ⟨hfilled, fun c hc => by rw [hunquoted c hc]; rfl⟩,
      .one hending .nil⟩⟩

/-- The closing pattern matches blanks and a bracket, where a form has one. -/
theorem matches_closing : Matches (if form.closed then closingPattern else []) text ↔
    form.Closes text := by
  unfold Form.Closes
  split
  · unfold closingPattern
    rw [Pattern.matches_many]
    constructor
    · rintro ⟨gap, last, rfl, hgap, hlast⟩
      obtain ⟨c, none, rfl, hc, hnone⟩ := Pattern.matches_one.mp hlast
      rw [Pattern.matches_nil.mp hnone, of_decide_eq_true hc]
      exact ⟨gap, rfl, hgap⟩
    · rintro ⟨gap, rfl, hgap⟩
      exact ⟨gap, [')'], rfl, hgap, .one (decide_eq_true rfl) .nil⟩
  · exact Pattern.matches_nil

/-- A text of a form is made of parts. -/
theorem describes_iff : form.Describes text ↔
    ∃ parts : Parts, parts.IsOf form ∧ text = form.assemble parts := by
  unfold Form.Describes Form.patterns
  constructor
  · rintro ⟨_, hmem, h⟩
    -- The pattern of a form is put together from its parts, so a match is taken apart in that
    -- order.
    obtain ⟨pattern, hpattern, rfl⟩ := List.mem_map.mp hmem
    obtain ⟨_, closing, rfl, h, hclosing⟩ := Pattern.matches_append.mp h
    obtain ⟨_, _, rfl, h, hquoted⟩ := Pattern.matches_append.mp h
    obtain ⟨_, lead, rfl, hkeyword, hlead⟩ := Pattern.matches_append.mp h
    obtain ⟨opening, specifier, ending, rfl, hopening, hfilled, hunquoted, hending⟩ :=
      matches_quotedPattern.mp hquoted
    refine ⟨⟨lead, opening, specifier, ending, closing⟩, ⟨⟨pattern, hpattern, hlead⟩, hopening,
      hfilled, hunquoted, hending, matches_closing.mp hclosing⟩, ?_⟩
    rw [Pattern.matches_literal.mp hkeyword]
    simp [Form.assemble]
  · rintro ⟨⟨lead, opening, specifier, ending, closing⟩,
      ⟨⟨pattern, hpattern, hlead⟩, hopening, hfilled, hunquoted, hending, hclosing⟩, rfl⟩
    refine ⟨_, List.mem_map_of_mem hpattern, Pattern.matches_append.mpr ⟨form.keyword.toList ++ lead
      ++ opening :: (specifier ++ [ending]), closing, by simp [Form.assemble], ?_,
      matches_closing.mpr hclosing⟩⟩
    exact Pattern.matches_append.mpr ⟨_, _, rfl, Pattern.matches_append.mpr ⟨_, _, rfl,
      Pattern.matches_literal.mpr rfl, hlead⟩, matches_quotedPattern.mpr
        ⟨opening, specifier, ending, rfl, hopening, hfilled, hunquoted, hending⟩⟩

/-! ### Cutting a text where a class begins or ends -/

/-- A run of a class ends at the first character outside. -/
theorem takeWhile_append_cons {ofClass : Char → Bool} {front back : List Char} {c : Char}
    (hfront : ∀ d ∈ front, ofClass d = true) (hc : ofClass c = false) :
    (front ++ c :: back).takeWhile ofClass = front := by
  rw [List.takeWhile_append_of_pos hfront, List.takeWhile_cons_of_neg (by simp [hc]),
    List.append_nil]

/-- The first character that is not of a class cuts a text in one way only. -/
theorem eq_of_append_cons_eq {ofClass : Char → Bool} {front front' back back' : List Char}
    {c c' : Char} (h : front ++ c :: back = front' ++ c' :: back')
    (hfront : ∀ d ∈ front, ofClass d = true) (hfront' : ∀ d ∈ front', ofClass d = true)
    (hc : ofClass c = false) (hc' : ofClass c' = false) :
    front = front' ∧ c = c' ∧ back = back' := by
  obtain rfl : front = front' := by
    rw [← takeWhile_append_cons hfront hc, h, takeWhile_append_cons hfront' hc']
  obtain ⟨rfl, rfl⟩ := List.cons_eq_cons.mp (List.append_cancel_left h)
  exact ⟨rfl, rfl, rfl⟩

/-- A text cut where a class ends. -/
theorem exists_cut (ofClass : Char → Bool) (text : List Char) :
    (∀ c ∈ text, ofClass c = true) ∨ ∃ front c back, text = front ++ c :: back ∧
      (∀ d ∈ front, ofClass d = true) ∧ ofClass c = false := by
  induction text with
  | nil => exact Or.inl (List.forall_mem_nil _)
  | cons c rest ih =>
    by_cases hc : ofClass c = true
    · rcases ih with hall | ⟨front, d, back, rfl, hfront, hd⟩
      · exact Or.inl (List.forall_mem_cons.mpr ⟨hc, hall⟩)
      · exact Or.inr ⟨c :: front, d, back, rfl, List.forall_mem_cons.mpr ⟨hc, hfront⟩, hd⟩
    · exact Or.inr ⟨[], c, rest, rfl, List.forall_mem_nil _, Bool.eq_false_iff.mpr hc⟩

/-! ### Reading a lead -/

section

variable {leads : List Pattern} {lives : List Pattern.Live} {done : List Char}

/-- The marks of several patterns before any text. -/
theorem forall₂_start (leads : List Pattern) :
    List.Forall₂ (Reached [] []) leads (leads.map (Pattern.start true)) := by
  rw [List.forall₂_map_right_iff, List.forall₂_same]
  exact fun pattern _ => Pattern.reached_start ⟨fun _ => .nil, fun _ => rfl⟩ pattern

/-- The marks of several patterns after one character more. -/
theorem forall₂_step (h : List.Forall₂ (Reached done []) leads lives) (c : Char) :
    List.Forall₂ (Reached (done ++ [c]) []) leads
      (leads.zipWith (Pattern.step c false) lives) := by
  have hnone : false = true ↔ Matches [] (done ++ [c]) := by
    rw [Pattern.matches_nil]
    simp
  induction h with
  | nil => exact .nil
  | cons hreached _ ih => exact .cons (hreached.step hnone) ih

/-- One of several patterns matches if a last mark is set. -/
theorem any_accepting_iff (h : List.Forall₂ (Reached done []) leads lives) :
    lives.any Pattern.accepting = true ↔ ∃ pattern ∈ leads, Matches pattern done := by
  induction h with
  | nil => simp
  | cons hreached _ ih =>
    rw [List.any_cons, Bool.or_eq_true, hreached.accepting_iff, ih]
    simp only [List.mem_cons, exists_eq_or_imp, List.nil_append]

/-- One of several patterns can still match only if there is a mark. -/
theorem any_alive_of_matches (h : List.Forall₂ (Reached done []) leads lives)
    {more : List Char} (hmatches : ∃ pattern ∈ leads, Matches pattern (done ++ more)) :
    lives.any Pattern.alive = true := by
  induction h with
  | nil => simp at hmatches
  | cons hreached _ ih =>
    rw [List.any_cons, Bool.or_eq_true]
    simp only [List.mem_cons, exists_eq_or_imp] at hmatches
    rcases hmatches with hfirst | hothers
    · exact Or.inl (hreached.alive_of_matches .nil hfirst rfl (Nat.zero_le _))
    · exact Or.inr (ih hothers)

/-- Running leads through a text stops at its first quote, if some lead matches what is before. -/
theorem readLead_eq_some_iff (h : List.Forall₂ (Reached done []) leads lives) {count n : Nat}
    {quoted : List Char} :
    readLead leads lives count text = some (n, quoted) ↔
      ∃ lead quote, text = lead ++ quote :: quoted ∧ Unquoted lead ∧ isQuote quote = true ∧
        n = count + lead.length ∧ ∃ pattern ∈ leads, Matches pattern (done ++ lead) := by
  -- Along the text; what has been read is moved into `done`, for which the marks are right.
  induction text generalizing done lives count with
  | nil => exact ⟨fun h => (nomatch h), fun ⟨_, _, h, _⟩ => by simp at h⟩
  | cons c rest ih =>
    unfold readLead
    by_cases hquote : isQuote c = true
    -- At a quote, what has been read is all of the lead.
    · rw [if_pos hquote]
      constructor
      · intro hread
        split at hread
        · next haccepts =>
          cases hread
          refine ⟨[], c, rfl, List.forall_mem_nil _, hquote, rfl, ?_⟩
          rw [List.append_nil]
          exact (any_accepting_iff h).mp haccepts
        · cases hread
      · rintro ⟨lead, quote, htext, hlead, hopens, rfl, hmatches⟩
        obtain rfl : lead = [] := by
          cases lead with
          | nil => rfl
          | cons d lead =>
            cases htext
            rw [hlead c List.mem_cons_self] at hquote
            cases hquote
        cases htext
        rw [List.append_nil] at hmatches
        rw [if_pos ((any_accepting_iff h).mpr hmatches)]
        rfl
    -- Any other character belongs to the lead, if there is a mark left.
    · rw [if_neg hquote]
      have hnext := forall₂_step h c
      have hcons : ∀ lead, done ++ [c] ++ lead = done ++ c :: lead :=
        fun lead => List.append_cons done c lead ▸ rfl
      dsimp only
      constructor
      · intro hread
        split at hread
        · obtain ⟨lead, quote, rfl, hlead, hopens, rfl, hmatches⟩ := (ih hnext).mp hread
          rw [hcons] at hmatches
          refine ⟨c :: lead, quote, rfl, List.forall_mem_cons.mpr
            ⟨Bool.eq_false_iff.mpr hquote, hlead⟩, hopens, ?_, hmatches⟩
          rw [List.length_cons]
          omega
        · cases hread
      · rintro ⟨lead, quote, htext, hlead, hopens, rfl, hmatches⟩
        cases lead with
        | nil =>
          cases htext
          exact absurd hopens hquote
        | cons d lead =>
          cases htext
          rw [← hcons] at hmatches
          rw [if_pos (any_alive_of_matches hnext hmatches)]
          refine (ih hnext).mpr ⟨lead, quote, rfl, (List.forall_mem_cons.mp hlead).2, hopens, ?_,
            hmatches⟩
          rw [List.length_cons]
          omega

end

/-! ### Matches at the front -/

/-- A form whose leads, like its keyword, hold no quotes. -/
structure Form.IsPlain (form : Form) : Prop where
  keyword : Unquoted form.keyword.toList
  leads : ∀ pattern ∈ form.leads, ∀ lead, Matches pattern lead → Unquoted lead

/-- A blank is no quote. -/
theorem isBlank_unquoted {c : Char} (h : isBlank c = true) : isQuote c = false := by
  by_contra hquote
  rw [Bool.not_eq_false, isQuote, Bool.or_eq_true, decide_eq_true_eq, decide_eq_true_eq] at hquote
  rcases hquote with rfl | rfl <;> exact absurd h (by decide)

/-- Neither is a character of a clause. -/
theorem isClauseChar_unquoted {c : Char} (h : isClauseChar c = true) : isQuote c = false := by
  unfold isClauseChar at h
  simp only [Bool.not_eq_true', Bool.or_eq_false_iff] at h
  exact h.1.1

/-- None of the forms asks for a quote before the specifier. -/
theorem isPlain_of_mem_forms (hform : form ∈ forms) : form.IsPlain := by
  have hkeywords : ∀ form ∈ forms, Unquoted form.keyword.toList := by decide
  have hblanks : Pattern.AsksOnlyFor (isQuote · = false) blanks :=
    Pattern.asksOnlyFor_atLeastOne fun _ => isBlank_unquoted
  have hspaces : Pattern.AsksOnlyFor (isQuote · = false) [.many isBlank] :=
    Pattern.asksOnlyFor_many fun _ => isBlank_unquoted
  have hclause : Pattern.AsksOnlyFor (isQuote · = false) (Pattern.atLeastOne isClauseChar) :=
    Pattern.asksOnlyFor_atLeastOne fun _ => isClauseChar_unquoted
  have hfrom : Pattern.AsksOnlyFor (isQuote · = false) (Pattern.literal "from") :=
    Pattern.asksOnlyFor_literal (by decide : Unquoted "from".toList)
  -- No piece in front of the opening quote asks for a quote.
  have hleads : ∀ form ∈ forms, ∀ pattern ∈ form.leads,
      Pattern.AsksOnlyFor (isQuote · = false) pattern := by
    have himport : ∀ pattern ∈ importStatement.leads,
        Pattern.AsksOnlyFor (isQuote · = false) pattern :=
      List.forall_mem_cons.mpr ⟨hblanks, List.forall_mem_singleton.mpr
        ((((hblanks.append hclause).append hblanks).append hfrom).append hblanks)⟩
    exact List.forall_mem_cons.mpr ⟨himport, List.forall_mem_cons.mpr
      ⟨List.forall_mem_singleton.mpr hspaces,
        List.forall_mem_singleton.mpr (List.forall_mem_singleton.mpr hspaces)⟩⟩
  exact ⟨hkeywords form hform, fun pattern hpattern _ h =>
    (hleads form hform pattern hpattern).forall_mem h⟩

/-- The lead of a plain form has no quotes in it. -/
theorem Parts.IsOf.unquoted_lead {parts : Parts} (hparts : parts.IsOf form)
    (hplain : form.IsPlain) : Unquoted parts.lead := by
  obtain ⟨pattern, hpattern, hlead⟩ := hparts.lead
  exact hplain.leads pattern hpattern _ hlead

/-- A text has at most one match at its front. -/
theorem Parts.IsOf.unique (hplain : form.IsPlain) {parts parts' : Parts} (hparts : parts.IsOf form)
    (hparts' : parts'.IsOf form) {rest rest' : List Char}
    (h : form.assemble parts ++ rest = form.assemble parts' ++ rest') : parts = parts' := by
  have hlead := hparts.unquoted_lead hplain
  have hlead' := hparts'.unquoted_lead hplain
  obtain ⟨lead, opening, specifier, ending, closing⟩ := parts
  obtain ⟨lead', opening', specifier', ending', closing'⟩ := parts'
  obtain ⟨-, hopening, -, hspecifier, hending, hcloses⟩ := hparts
  obtain ⟨-, hopening', -, hspecifier', hending', hcloses'⟩ := hparts'
  dsimp only at *
  unfold Form.assemble at h
  simp only [List.append_assoc, List.append_cancel_left_eq, List.cons_append] at h
  -- The first quote ends the lead, and the second one the specifier.
  obtain ⟨rfl, rfl, hquoted⟩ := eq_of_append_cons_eq h (unquoted_iff.mp hlead)
    (unquoted_iff.mp hlead') (by simp [hopening]) (by simp [hopening'])
  obtain ⟨rfl, rfl, hafter⟩ := eq_of_append_cons_eq hquoted (unquoted_iff.mp hspecifier)
    (unquoted_iff.mp hspecifier') (by simp [hending]) (by simp [hending'])
  unfold Form.Closes at hcloses hcloses'
  by_cases hclosed : form.closed = true
  · rw [if_pos hclosed] at hcloses hcloses'
    obtain ⟨gap, rfl, hgap⟩ := hcloses
    obtain ⟨gap', rfl, hgap'⟩ := hcloses'
    simp only [List.append_assoc, List.singleton_append] at hafter
    obtain ⟨rfl, -, -⟩ := eq_of_append_cons_eq hafter hgap hgap' (by decide) (by decide)
    rfl
  · rw [if_neg hclosed] at hcloses hcloses'
    rw [hcloses, hcloses']

/-- What the matcher makes of a text, once the lead and the specifier have been read. -/
theorem matchFront_of_readLead {after specifier tail : List Char} {ending : Char} {count : Nat}
    (hread : readLead form.leads (form.leads.map (Pattern.start true)) 0 after
      = some (count, specifier ++ ending :: tail))
    (hspecifier : Unquoted specifier) (hending : isQuote ending = true) :
    form.matchFront (form.keyword.toList ++ after) =
      if specifier = [] then none
      else if form.closed then
        if (tail.drop (tail.takeWhile isBlank).length).head? = some ')' then
          some (specifier, form.keyword.toList.length + count + 1 + specifier.length + 1
            + (tail.takeWhile isBlank).length + 1)
        else none
      else some (specifier, form.keyword.toList.length + count + 1 + specifier.length + 1) := by
  have hkeyword : form.keyword.toList.isPrefixOf (form.keyword.toList ++ after) = true :=
    List.isPrefixOf_iff_prefix.mpr (List.prefix_append _ _)
  have htake : (specifier ++ ending :: tail).takeWhile (!isQuote ·) = specifier :=
    takeWhile_append_cons (unquoted_iff.mp hspecifier) (by simp [hending])
  unfold Form.matchFront
  simp only [hkeyword, if_true, List.drop_left, hread, Option.bind_eq_bind, Option.bind_some, htake,
    List.isEmpty_iff]

/-- The matcher finds a match that stands at the front. -/
theorem matchFront_assemble (hplain : form.IsPlain) {parts : Parts} (hparts : parts.IsOf form)
    (rest : List Char) : form.matchFront (form.assemble parts ++ rest)
      = some (parts.specifier, (form.assemble parts).length) := by
  have hlead := hparts.unquoted_lead hplain
  obtain ⟨lead, opening, specifier, ending, closing⟩ := parts
  obtain ⟨hmatches, hopening, hfilled, hspecifier, hending, hcloses⟩ := hparts
  dsimp only at *
  -- Running the leads cannot stop before the opening quote, since the lead holds none.
  have hread : readLead form.leads (form.leads.map (Pattern.start true)) 0
      (lead ++ opening :: (specifier ++ ending :: (closing ++ rest)))
        = some (0 + lead.length, specifier ++ ending :: (closing ++ rest)) :=
    (readLead_eq_some_iff (forall₂_start form.leads)).mpr
      ⟨lead, opening, rfl, hlead, hopening, rfl, hmatches⟩
  have hfront := matchFront_of_readLead hread hspecifier hending
  have htext : form.assemble ⟨lead, opening, specifier, ending, closing⟩ ++ rest
      = form.keyword.toList ++ (lead ++ opening :: (specifier ++ ending :: (closing ++ rest))) := by
    simp [Form.assemble]
  rw [htext, hfront, if_neg hfilled]
  unfold Form.Closes at hcloses
  unfold Form.assemble
  split at hcloses
  · next hclosed =>
    obtain ⟨gap, rfl, hgap⟩ := hcloses
    have htake : ((gap ++ [')']) ++ rest).takeWhile isBlank = gap := by
      rw [List.append_assoc]
      exact takeWhile_append_cons hgap (by decide)
    have hdrop : ((gap ++ [')']) ++ rest).drop gap.length = ')' :: rest := by
      rw [List.append_assoc, List.drop_left]
      rfl
    rw [if_pos hclosed, htake, hdrop, List.head?_cons, if_pos rfl]
    simp
    omega
  · next hopen =>
    rw [if_neg hopen, hcloses]
    simp
    omega

/-- What stands before a parenthesis that follows blanks. -/
theorem exists_gap_of_head? {tail : List Char}
    (h : (tail.drop (tail.takeWhile isBlank).length).head? = some ')') :
    ∃ gap rest, tail = gap ++ ')' :: rest ∧ (∀ c ∈ gap, isBlank c = true) ∧
      (gap ++ ')' :: rest).takeWhile isBlank = gap := by
  rcases exists_cut isBlank tail with hall | ⟨gap, c, rest, rfl, hgap, hc⟩
  · rw [List.takeWhile_eq_self_iff.mpr hall, List.drop_length] at h
    cases h
  · rw [takeWhile_append_cons hgap hc, List.drop_left, List.head?_cons] at h
    cases h
    exact ⟨gap, rest, rfl, hgap, takeWhile_append_cons hgap hc⟩

/-- Without a first quote, or a second one, there is no match. -/
theorem exists_readLead_of_matchFront {found : List Char × Nat}
    (h : form.matchFront text = some found) :
    ∃ count specifier ending tail after, text = form.keyword.toList ++ after ∧
      readLead form.leads (form.leads.map (Pattern.start true)) 0 after
        = some (count, specifier ++ ending :: tail) ∧
      Unquoted specifier ∧ isQuote ending = true := by
  unfold Form.matchFront at h
  dsimp only at h
  split at h
  · next hkeyword =>
    obtain ⟨after, rfl⟩ := List.isPrefixOf_iff_prefix.mp hkeyword
    rw [List.drop_left] at h
    obtain ⟨⟨count, quoted⟩, hread, h⟩ := Option.bind_eq_some_iff.mp h
    dsimp only at h
    -- The text behind the first quote holds a second one, or the specifier takes all of it.
    rcases exists_cut (!isQuote ·) quoted with hall | ⟨specifier, ending, tail, rfl, hcut, hending⟩
    · have htake : quoted.takeWhile (!isQuote ·) = quoted := List.takeWhile_eq_self_iff.mpr hall
      rw [htake, List.drop_length] at h
      cases h
    · exact ⟨count, specifier, ending, tail, after, rfl, hread, unquoted_iff.mpr hcut,
        by simpa using hending⟩
  · cases h

/-- What the matcher finds is a match at the front. -/
theorem exists_parts_of_matchFront {specifier : List Char} {length : Nat}
    (h : form.matchFront text = some (specifier, length)) :
    ∃ parts : Parts, parts.IsOf form ∧ specifier = parts.specifier ∧
      length = (form.assemble parts).length ∧ ∃ rest, text = form.assemble parts ++ rest := by
  obtain ⟨count, quoted, ending, tail, after, rfl, hread, hquoted, hending⟩ :=
    exists_readLead_of_matchFront h
  rw [matchFront_of_readLead hread hquoted hending] at h
  obtain ⟨lead, opening, rfl, -, hopening, rfl, hmatches⟩ :=
    (readLead_eq_some_iff (forall₂_start form.leads)).mp hread
  rw [List.nil_append] at hmatches
  split at h
  · cases h
  next hfilled =>
  split at h
  · next hclosed =>
    split at h
    · -- A closed form takes the blanks and the bracket with it.
      next hparen =>
      obtain ⟨gap, rest, rfl, hgap, htake⟩ := exists_gap_of_head? hparen
      rw [htake] at h
      obtain ⟨rfl, rfl⟩ := Prod.mk.inj (Option.some.inj h)
      have hcloses : form.Closes (gap ++ [')']) := by
        unfold Form.Closes
        rw [if_pos hclosed]
        exact ⟨gap, rfl, hgap⟩
      refine ⟨⟨lead, opening, quoted, ending, gap ++ [')']⟩, ⟨hmatches, hopening, hfilled, hquoted,
        hending, hcloses⟩, rfl, ?_, rest, ?_⟩
      · simp [Form.assemble]
        omega
      · simp [Form.assemble]
    · cases h
  · -- An open form ends with the second quote.
    next hopen =>
    obtain ⟨rfl, rfl⟩ := Prod.mk.inj (Option.some.inj h)
    have hcloses : form.Closes [] := by
      unfold Form.Closes
      rw [if_neg hopen]
    refine ⟨⟨lead, opening, quoted, ending, []⟩, ⟨hmatches, hopening, hfilled, hquoted, hending,
      hcloses⟩, rfl, ?_, tail, ?_⟩
    · simp [Form.assemble]
      omega
    · simp [Form.assemble]

/-- The matcher finds a match exactly if one stands at the front. -/
theorem matchFront_eq_some_iff (hplain : form.IsPlain) {specifier : List Char} {length : Nat} :
    form.matchFront text = some (specifier, length) ↔
      ∃ parts rest, parts.IsOf form ∧ text = form.assemble parts ++ rest ∧
        specifier = parts.specifier ∧ length = (form.assemble parts).length := by
  constructor
  · intro h
    obtain ⟨parts, hparts, rfl, rfl, rest, htext⟩ := exists_parts_of_matchFront h
    exact ⟨parts, rest, hparts, htext, rfl, rfl⟩
  · rintro ⟨parts, rest, hparts, rfl, rfl, rfl⟩
    exact matchFront_assemble hplain hparts rest

end RepoAtlas.Source
