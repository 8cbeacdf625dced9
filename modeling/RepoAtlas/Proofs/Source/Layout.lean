import RepoAtlas.Proofs.Source.References

/-!
# `RepoAtlas.Proofs.Source.Layout`: import statements in other layouts

An import statement with a clause is a series of words with gaps of blanks between them, before the
quoted specifier. Line feeds are blanks, but no characters of a clause. So a statement may go on in
the next line before its clause and after it, and nowhere inside.

* `exists_piece_of_spread`: a word that stands in a text of words and gaps ends one of the words.
* `Statement.exists_lead_iff`: the statement is of the form `importStatement` exactly if its clause
  is on one line.
* `Statement.mem_specifiers_iff`: the specifiers that are found in a statement.
* `Statement.reports_of_relaid`: what this means for the references, when the gaps change.
-/

set_option autoImplicit false

namespace RepoAtlas.Source

open RepoAtlas.Text
open RepoAtlas.Text.Pattern (Matches)

/-! ### Words and gaps -/

/-- At least one blank. -/
def IsGap (gap : List Char) : Prop :=
  gap ≠ [] ∧ ∀ c ∈ gap, isBlank c = true

/-- At least one character, and no blank. -/
def IsWord (word : List Char) : Prop :=
  word ≠ [] ∧ ∀ c ∈ word, isBlank c = false

instance (gap : List Char) : Decidable (IsGap gap) :=
  decidable_of_iff (gap.isEmpty = false ∧ gap.all isBlank = true) (by simp [IsGap])

instance (word : List Char) : Decidable (IsWord word) :=
  decidable_of_iff (word.isEmpty = false ∧ word.all (!isBlank ·) = true) (by simp [IsWord])

/-- The text of words that each have a gap behind them. -/
def spread (pieces : List (List Char × List Char)) : List Char :=
  pieces.flatMap fun piece => piece.1 ++ piece.2

/-- A text that is spread starts with its first word and the gap behind that. -/
@[simp] theorem spread_cons (word gap : List Char) (rest : List (List Char × List Char)) :
    spread ((word, gap) :: rest) = word ++ (gap ++ spread rest) := by
  simp [spread]

/-- Two lists of words are spread one after the other. -/
theorem spread_append (front back : List (List Char × List Char)) :
    spread (front ++ back) = spread front ++ spread back :=
  List.flatMap_append

section

variable {ofClass : Char → Bool} {front front' back back' : List Char} {c c' : Char}

/-- What is of a class comes before the first character that is not. -/
theorem exists_rest_of_append_eq (h : front ++ back = front' ++ c :: back')
    (hfront : ∀ d ∈ front, ofClass d = true) (hc : ofClass c = false) :
    ∃ rest, front' = front ++ rest ∧ back = rest ++ c :: back' := by
  rcases List.append_eq_append_iff.mp h with ⟨rest, hrest, hback⟩ | ⟨rest, rfl, hback⟩
  · exact ⟨rest, hrest, hback⟩
  · cases rest with
    | nil => exact ⟨[], by simp, hback.symm⟩
    | cons d rest =>
      cases hback
      rw [hfront c (List.mem_append_right _ List.mem_cons_self)] at hc
      cases hc

/-- What is of a class comes after the last character that is not. -/
theorem exists_start_of_append_eq (h : front ++ back = front' ++ c :: back')
    (hback : ∀ d ∈ back, ofClass d = true) (hc : ofClass c = false) :
    ∃ start, back' = start ++ back ∧ front = front' ++ c :: start := by
  have hreverse := congrArg List.reverse h
  rw [List.reverse_append, List.reverse_append, List.reverse_cons, List.append_assoc,
    List.singleton_append] at hreverse
  obtain ⟨rest, hrest, hfront⟩ := exists_rest_of_append_eq hreverse
    (fun d hd => hback d (List.mem_reverse.mp hd)) hc
  refine ⟨rest.reverse, ?_, ?_⟩
  · rw [← List.reverse_inj, hrest, List.reverse_append, List.reverse_reverse]
  · rw [← List.reverse_inj, hfront]
    simp

/-- The last character that is not of a class cuts a text in one way only. -/
theorem eq_of_append_cons_eq_right (h : front ++ c :: back = front' ++ c' :: back')
    (hback : ∀ d ∈ back, ofClass d = true) (hback' : ∀ d ∈ back', ofClass d = true)
    (hc : ofClass c = false) (hc' : ofClass c' = false) :
    front = front' ∧ c = c' ∧ back = back' := by
  have hreverse := congrArg List.reverse h
  simp only [List.reverse_append, List.reverse_cons, List.append_assoc, List.singleton_append]
    at hreverse
  obtain ⟨hbacks, rfl, hfronts⟩ := eq_of_append_cons_eq hreverse
    (fun d hd => hback d (List.mem_reverse.mp hd))
    (fun d hd => hback' d (List.mem_reverse.mp hd)) hc hc'
  exact ⟨List.reverse_inj.mp hfronts, rfl, List.reverse_inj.mp hbacks⟩

end

/-- Where a word stands in front of a blank, one of the words ends with it. -/
theorem exists_piece_of_spread {pieces : List (List Char × List Char)}
    (hpieces : ∀ piece ∈ pieces, IsWord piece.1 ∧ IsGap piece.2) {before word after : List Char}
    {c : Char} (hword : IsWord word) (hc : isBlank c = true)
    (h : spread pieces = before ++ (word ++ c :: after)) :
    ∃ front piece back start, pieces = front ++ piece :: back ∧ piece.1 = start ++ word ∧
      before = spread front ++ start ∧ c :: after = piece.2 ++ spread back := by
  -- Along the pieces: the word lies in the first one, or all of the first one is in front of it.
  induction pieces generalizing before with
  | nil =>
    have := congrArg List.length h
    simp [spread] at this
  | cons piece rest ih =>
    obtain ⟨first, gap⟩ := piece
    obtain ⟨⟨hfirst, hgap⟩, hrest⟩ := List.forall_mem_cons.mp hpieces
    -- The word stands in a later piece.
    have hlater : ∀ more, before = first ++ (gap ++ more) →
        spread rest = more ++ (word ++ c :: after) →
        ∃ front piece back start, (first, gap) :: rest = front ++ piece :: back ∧
          piece.1 = start ++ word ∧ before = spread front ++ start ∧
          c :: after = piece.2 ++ spread back := by
      intro more hbefore hmore
      obtain ⟨front, piece, back, start, rfl, hpiece, rfl, hafter⟩ := ih hrest hmore
      exact ⟨(first, gap) :: front, piece, back, start, rfl, hpiece,
        by rw [hbefore]; simp, hafter⟩
    dsimp only at hfirst hgap
    obtain ⟨d, gap', hd⟩ := List.exists_cons_of_ne_nil hgap.1
    have hblank : isBlank d = true := hgap.2 d (hd ▸ List.mem_cons_self)
    rw [spread_cons] at h
    rcases List.append_eq_append_iff.mp h with ⟨more, rfl, hmore⟩ | ⟨ending, hending, htext⟩
    · rcases List.append_eq_append_iff.mp hmore with ⟨more', rfl, hmore'⟩ | ⟨beyond, hbeyond, htext⟩
      · exact hlater more' rfl hmore'
      · cases beyond with
        | nil =>
          rw [List.append_nil] at hbeyond
          exact hlater [] (by rw [hbeyond, List.append_nil]) htext.symm
        | cons e beyond =>
          -- A blank of the gap would be the first character of the word.
          obtain ⟨f, word', rfl⟩ := List.exists_cons_of_ne_nil hword.1
          obtain ⟨rfl, -⟩ := List.cons_eq_cons.mp htext
          have := hgap.2 f (hbeyond ▸ List.mem_append_right _ List.mem_cons_self)
          rw [hword.2 f List.mem_cons_self] at this
          cases this
    · rw [hd, List.cons_append] at htext
      have hpart : ∀ e ∈ word, (!isBlank e) = true := fun e he => by rw [hword.2 e he]; rfl
      obtain ⟨rfl, rfl, rfl⟩ := eq_of_append_cons_eq htext hpart
        (fun e he => by rw [hfirst.2 e (hending ▸ List.mem_append_right _ he)]; rfl)
        (by rw [hc]; rfl) (by rw [hblank]; rfl)
      exact ⟨[], (first, gap), rest, before, rfl, hending, rfl, by rw [hd]; rfl⟩

/-! ### Statements -/

/-- A word of a clause. -/
def IsToken (word : List Char) : Prop :=
  IsWord word ∧ ∀ c ∈ word, isQuote c = false ∧ c ≠ ';'

instance (word : List Char) : Decidable (IsToken word) :=
  decidable_of_iff (IsWord word ∧ word.all (fun c => !isQuote c && c != ';') = true)
    (by simp [IsToken])

/-- What may stand in a clause: no quote, no semicolon, and no line feed. -/
theorem isClauseChar_iff {c : Char} :
    isClauseChar c = true ↔ isQuote c = false ∧ c ≠ ';' ∧ c ≠ '\n' := by
  unfold isClauseChar
  simp [and_assoc]

/-- A token has no blanks, so no line feed either, and may stand in a clause. -/
theorem isClauseChar_of_isToken {word : List Char} (h : IsToken word) :
    ∀ c ∈ word, isClauseChar c = true := by
  intro c hc
  obtain ⟨hquote, hsemicolon⟩ := h.2 c hc
  refine isClauseChar_iff.mpr ⟨hquote, hsemicolon, ?_⟩
  rintro rfl
  exact absurd (h.1.2 _ hc) (by decide)

/-- What stands between the keyword and the quote, if there is a clause. -/
theorem matches_clauseLead {text : List Char} :
    Matches
      (blanks ++ Pattern.atLeastOne isClauseChar ++ blanks ++ Pattern.literal "from" ++ blanks)
      text ↔ ∃ before body gap after,
        text = before ++ (body ++ (gap ++ ("from".toList ++ after))) ∧ IsGap before ∧ body ≠ [] ∧
          (∀ c ∈ body, isClauseChar c = true) ∧ IsGap gap ∧ IsGap after := by
  constructor
  · intro h
    -- The pattern is taken apart from its end, where its last piece stands.
    obtain ⟨_, after, rfl, h, hafter⟩ := Pattern.matches_append.mp h
    obtain ⟨_, _, rfl, h, hfrom⟩ := Pattern.matches_append.mp h
    obtain ⟨_, gap, rfl, h, hgap⟩ := Pattern.matches_append.mp h
    obtain ⟨before, body, rfl, hbefore, hbody⟩ := Pattern.matches_append.mp h
    obtain ⟨hfilled, hclause⟩ := Pattern.matches_atLeastOne.mp hbody
    rw [Pattern.matches_literal.mp hfrom]
    exact ⟨before, body, gap, after, by simp only [List.append_assoc],
      Pattern.matches_atLeastOne.mp hbefore, hfilled, hclause, Pattern.matches_atLeastOne.mp hgap,
      Pattern.matches_atLeastOne.mp hafter⟩
  · rintro ⟨before, body, gap, after, rfl, hbefore, hfilled, hclause, hgap, hafter⟩
    simp only [← List.append_assoc]
    exact Pattern.matches_append.mpr ⟨_, _, rfl, Pattern.matches_append.mpr ⟨_, _, rfl,
      Pattern.matches_append.mpr ⟨_, _, rfl, Pattern.matches_append.mpr ⟨_, _, rfl,
        Pattern.matches_atLeastOne.mpr hbefore, Pattern.matches_atLeastOne.mpr ⟨hfilled, hclause⟩⟩,
          Pattern.matches_atLeastOne.mpr hgap⟩, Pattern.matches_literal.mpr rfl⟩,
            Pattern.matches_atLeastOne.mpr hafter⟩

/-- An import statement with a clause. -/
structure Statement where
  /-- What stands behind the keyword. -/
  before : List Char
  /-- The words of the clause, with what stands behind each. -/
  clause : List (List Char × List Char)
  /-- What stands behind `from`. -/
  after : List Char
  quote : Char
  specifier : List Char

namespace Statement

/-- What stands between the keyword and the quote. -/
def lead (s : Statement) : List Char :=
  s.before ++ (spread s.clause ++ ("from".toList ++ s.after))

/-- The text of a statement. -/
def text (s : Statement) : List Char :=
  "import".toList ++ (s.lead ++ s.quote :: (s.specifier ++ [s.quote]))

/-- A statement of words, with gaps between them. -/
structure WellFormed (s : Statement) : Prop where
  before : IsGap s.before
  filled : s.clause ≠ []
  clause : ∀ piece ∈ s.clause, IsToken piece.1 ∧ IsGap piece.2
  after : IsGap s.after
  quote : isQuote s.quote = true
  named : s.specifier ≠ []
  unquoted : Unquoted s.specifier

/-- Whether the gaps inside the clause hold no line feed. -/
def ClauseOnOneLine (s : Statement) : Prop :=
  ∀ piece ∈ s.clause.dropLast, '\n' ∉ piece.2

/-- Whether no word of the clause ends like the keyword. -/
def KeywordFree (s : Statement) : Prop :=
  ∀ piece ∈ s.clause, ¬"import".toList <:+ piece.1

/-- The same statement with other gaps. -/
structure Relaid (s s' : Statement) : Prop where
  clause : s'.clause.map Prod.fst = s.clause.map Prod.fst
  quote : s'.quote = s.quote
  specifier : s'.specifier = s.specifier

variable {s : Statement}

/-- Between the keyword and the first quote there is no quote. -/
theorem WellFormed.unquoted_lead (hs : s.WellFormed) : Unquoted s.lead := by
  have hgap : ∀ {gap : List Char}, IsGap gap → Unquoted gap :=
    fun h c hc => isBlank_unquoted (h.2 c hc)
  refine List.forall_mem_append.mpr ⟨hgap hs.before, List.forall_mem_append.mpr ⟨?_,
    List.forall_mem_append.mpr ⟨(by decide : Unquoted "from".toList), hgap hs.after⟩⟩⟩
  intro c hc
  obtain ⟨piece, hpiece, hc⟩ := List.mem_flatMap.mp hc
  obtain ⟨htoken, hbehind⟩ := hs.clause piece hpiece
  rcases List.mem_append.mp hc with hc | hc
  · exact (htoken.2 c hc).1
  · exact hgap hbehind c hc

/-- Words with gaps start with a word. -/
theorem exists_cons_of_spread {pieces : List (List Char × List Char)} (hfilled : pieces ≠ [])
    (hpieces : ∀ piece ∈ pieces, IsWord piece.1) :
    ∃ c rest, spread pieces = c :: rest ∧ isBlank c = false := by
  obtain ⟨⟨word, gap⟩, rest, rfl⟩ := List.exists_cons_of_ne_nil hfilled
  obtain ⟨hne, hword⟩ := hpieces _ List.mem_cons_self
  obtain ⟨c, word, rfl⟩ := List.exists_cons_of_ne_nil hne
  exact ⟨c, _, spread_cons .., hword c List.mem_cons_self⟩

/-- The words of a clause, and the gaps inside it if it is on one line, are what a clause is made
of. -/
theorem isClauseChar_of_mem_spread {pieces : List (List Char × List Char)}
    (hpieces : ∀ piece ∈ pieces, IsToken piece.1 ∧ IsGap piece.2)
    (hline : ∀ piece ∈ pieces, '\n' ∉ piece.2) : ∀ c ∈ spread pieces, isClauseChar c = true := by
  intro c hc
  obtain ⟨piece, hpiece, hc⟩ := List.mem_flatMap.mp hc
  obtain ⟨htoken, hgap⟩ := hpieces piece hpiece
  -- A character of a word, or a blank of a gap on one line.
  rcases List.mem_append.mp hc with hc | hc
  · exact isClauseChar_of_isToken htoken c hc
  · have hblank := hgap.2 c hc
    refine isClauseChar_iff.mpr ⟨isBlank_unquoted hblank, ?_, ?_⟩
    · rintro rfl
      exact absurd hblank (by decide)
    · rintro rfl
      exact hline piece hpiece hc

/-- The gaps around a clause are as long as they can be. -/
theorem exists_inner_of_spread_eq {init : List (List Char × List Char)} {last gap : List Char}
    (hinit : ∀ piece ∈ init, IsWord piece.1) (hlast : IsWord last)
    {before before' body gap' : List Char} (hbefore' : ∀ c ∈ before', isBlank c = true)
    (hgap' : ∀ c ∈ gap', isBlank c = true)
    (h : before' ++ (body ++ gap') = before ++ spread (init ++ [(last, gap)])) :
    ∃ start rest, body = start ++ spread init ++ last ++ rest := by
  have hwords : ∀ piece ∈ init ++ [(last, gap)], IsWord piece.1 :=
    List.forall_mem_append.mpr ⟨hinit, List.forall_mem_singleton.mpr hlast⟩
  obtain ⟨c, more, hfirst, hc⟩ := exists_cons_of_spread (by simp) hwords
  rw [hfirst] at h
  -- Neither gap reaches into a word, so the body takes in all from the first word to the last.
  obtain ⟨start, -, hbody⟩ := exists_rest_of_append_eq h hbefore' hc
  obtain ⟨last, d, rfl⟩ := (List.eq_nil_or_concat last).resolve_left hlast.1
  have hd : isBlank d = false := hlast.2 d (by simp)
  have hend : body ++ gap' = (start ++ spread init ++ last) ++ d :: gap := by
    rw [hbody, ← hfirst, spread_append]
    simp [spread]
  obtain ⟨rest, -, hbody⟩ := exists_start_of_append_eq hend hgap' hd
  exact ⟨start, rest, by rw [hbody]; simp⟩

/-- A statement is of the form exactly if its clause is on one line. -/
theorem exists_lead_iff (hs : s.WellFormed) :
    (∃ lead ∈ importStatement.leads, Matches lead s.lead) ↔ s.ClauseOnOneLine := by
  obtain ⟨init, ⟨last, gap⟩, hclause⟩ := (List.eq_nil_or_concat s.clause).resolve_left hs.filled
  rw [List.concat_eq_append] at hclause
  have hline : s.ClauseOnOneLine ↔ ∀ piece ∈ init, '\n' ∉ piece.2 := by
    unfold ClauseOnOneLine
    rw [hclause, List.dropLast_concat]
  obtain ⟨hinit, hlast⟩ := List.forall_mem_append.mp (hclause ▸ hs.clause)
  obtain ⟨htoken, hgap⟩ := hlast _ List.mem_cons_self
  rw [hline]
  constructor
  · rintro ⟨lead, hmem, hlead⟩ piece hpiece hfeed
    rcases List.mem_cons.mp hmem with rfl | hmem
    · -- The word before the specifier is no blank.
      have hblank := (Pattern.matches_atLeastOne.mp hlead).2 'f' (by simp [Statement.lead])
      exact absurd hblank (by decide)
    · rw [List.mem_singleton.mp hmem] at hlead
      obtain ⟨before, body, gap', after, htext, hbefore, -, hbody, hgap', hafter⟩ :=
        matches_clauseLead.mp hlead
      -- Both ways to read the lead have the same `from`, since only blanks stand behind it.
      have hfrom : before ++ (body ++ gap') ++ "fro".toList ++ 'm' :: after
          = s.before ++ spread s.clause ++ "fro".toList ++ 'm' :: s.after := by
        simpa [Statement.lead] using htext.symm
      obtain ⟨hfront, -, -⟩ :=
        eq_of_append_cons_eq_right hfrom hafter.2 hs.after.2 (by decide) (by decide)
      rw [hclause] at hfront
      obtain ⟨start, rest, rfl⟩ := exists_inner_of_spread_eq (fun piece h => (hinit piece h).1.1)
        htoken.1 hbefore.2 hgap'.2 (List.append_cancel_right hfront)
      have hin : '\n' ∈ spread init :=
        List.mem_flatMap.mpr ⟨piece, hpiece, List.mem_append_right _ hfeed⟩
      exact absurd (hbody '\n' (by simp [hin])) (by decide)
  · intro hone
    refine ⟨_, List.mem_cons_of_mem _ List.mem_cons_self, matches_clauseLead.mpr
      ⟨s.before, spread init ++ last, gap, s.after, ?_, hs.before,
        List.append_ne_nil_of_right_ne_nil _ htoken.1.1, List.forall_mem_append.mpr
          ⟨isClauseChar_of_mem_spread hinit hone, isClauseChar_of_isToken htoken⟩, hgap, hs.after⟩⟩
    unfold Statement.lead
    rw [hclause, spread_append]
    simp [spread]

/-! ### What is found in a statement -/

/-- In a text with two quotes only, a match takes both. -/
theorem cut_of_two_quotes {form : Form} {parts : Parts} (hparts : parts.IsOf form)
    {before after unquoted specifier : List Char} {opening ending : Char}
    (h : before ++ (form.assemble parts ++ after)
      = unquoted ++ opening :: (specifier ++ [ending]))
    (hunquoted : Unquoted unquoted) (hopening : isQuote opening = true)
    (hspecifier : Unquoted specifier) (hending : isQuote ending = true) :
    before ++ (form.keyword.toList ++ parts.lead) = unquoted ∧ parts.specifier = specifier ∧
      parts.closing = [] := by
  have hnone : ∀ {text : List Char}, Unquoted text ↔ text.countP isQuote = 0 := by
    intro text
    simp only [List.countP_eq_zero, Unquoted, Bool.not_eq_true]
  -- Two quotes on the one side, so no more than the two of the parts on the other.
  have hcount := congrArg (List.countP isQuote) h
  simp only [Form.assemble, List.countP_append, List.countP_cons, List.countP_nil, hopening,
    hending, hparts.opening, hparts.ending, if_true, hnone.mp hunquoted, hnone.mp hspecifier,
    hnone.mp hparts.unquoted] at hcount
  have hfront : Unquoted (before ++ (form.keyword.toList ++ parts.lead)) := by
    rw [hnone]
    simp only [List.countP_append]
    omega
  have hcut : (before ++ (form.keyword.toList ++ parts.lead)) ++ parts.opening ::
      (parts.specifier ++ parts.ending :: (parts.closing ++ after))
        = unquoted ++ opening :: (specifier ++ ending :: []) := by
    simpa [Form.assemble] using h
  obtain ⟨rfl, -, hback⟩ := eq_of_append_cons_eq hcut (unquoted_iff.mp hfront)
    (unquoted_iff.mp hunquoted) (by simp [hparts.opening]) (by simp [hopening])
  obtain ⟨rfl, -, hclosing⟩ := eq_of_append_cons_eq hback (unquoted_iff.mp hparts.unquoted)
    (unquoted_iff.mp hspecifier) (by simp [hparts.ending]) (by simp [hending])
  exact ⟨rfl, rfl, (List.append_eq_nil_iff.mp hclosing).1⟩

/-- Only a static import may close without a parenthesis. -/
theorem eq_importStatement {form : Form} (hform : form ∈ forms) (h : form.Closes []) :
    form = importStatement := by
  have hclosed : ∀ form ∈ forms, form.closed = true ∨ form = importStatement :=
    List.forall_mem_cons.mpr ⟨Or.inr rfl, List.forall_mem_cons.mpr ⟨Or.inl rfl,
      List.forall_mem_singleton.mpr (Or.inl rfl)⟩⟩
  refine (hclosed form hform).resolve_left fun hclosed => ?_
  unfold Form.Closes at h
  rw [if_pos hclosed] at h
  obtain ⟨gap, hgap, -⟩ := h
  exact absurd hgap (by simp)

/-- What is found in a statement is its specifier, behind the keyword or behind a word that ends
like it. -/
theorem exists_lead_of_mem_specifiers (hs : s.WellFormed) {specifier : String}
    (h : specifier ∈ specifiers s.text) : specifier = String.ofList s.specifier ∧
      ∃ before lead, before ++ ("import".toList ++ lead) = "import".toList ++ s.lead ∧
        ∃ pattern ∈ importStatement.leads, Matches pattern lead := by
  obtain ⟨form, hform, parts, before, after, hparts, htext, rfl⟩ := exists_parts_of_mem_specifiers h
  have hkeyword : Unquoted "import".toList := by decide
  have htext' : before ++ (form.assemble parts ++ after)
      = ("import".toList ++ s.lead) ++ s.quote :: (s.specifier ++ [s.quote]) := by
    rw [← htext, text, List.append_assoc]
  obtain ⟨hfront, hspecifier, hclosing⟩ := cut_of_two_quotes hparts htext'
    (List.forall_mem_append.mpr ⟨hkeyword, hs.unquoted_lead⟩) hs.quote hs.unquoted hs.quote
  obtain rfl := eq_importStatement hform (hclosing ▸ hparts.closing)
  exact ⟨by rw [hspecifier], before, parts.lead, hfront, hparts.lead⟩

/-- In a static import, a blank follows the keyword in either lead. -/
theorem exists_blank_of_matches {lead : List Char}
    (h : ∃ pattern ∈ importStatement.leads, Matches pattern lead) :
    ∃ c rest, lead = c :: rest ∧ isBlank c = true := by
  obtain ⟨pattern, hmem, h⟩ := h
  rcases List.mem_cons.mp hmem with rfl | hmem
  · obtain ⟨c, rest, rfl, hc, -⟩ := Pattern.matches_one.mp h
    exact ⟨c, rest, rfl, hc⟩
  · rw [List.mem_singleton.mp hmem] at h
    obtain ⟨c, rest, rfl, hc, -⟩ := Pattern.matches_one.mp h
    exact ⟨c, rest, rfl, hc⟩

/-- A statement is found if its clause is on one line. -/
theorem mem_specifiers_of_clauseOnOneLine (hs : s.WellFormed) (hline : s.ClauseOnOneLine) :
    String.ofList s.specifier ∈ specifiers s.text := by
  have hdescribes : importStatement.Describes s.text := describes_iff.mpr
    ⟨⟨s.lead, s.quote, s.specifier, s.quote, []⟩, ⟨(exists_lead_iff hs).mpr hline, hs.quote,
      hs.named, hs.unquoted, hs.quote, rfl⟩, rfl⟩
  obtain ⟨specifier, h⟩ := exists_mem_specifiers List.mem_cons_self hdescribes
  rwa [← (exists_lead_of_mem_specifiers hs h).1]

/-- Nothing is found in a statement with a broken clause, unless a word of it ends like the
keyword. -/
theorem clauseOnOneLine_of_mem_specifiers (hs : s.WellFormed) (hfree : s.KeywordFree)
    {specifier : String} (h : specifier ∈ specifiers s.text) : s.ClauseOnOneLine := by
  obtain ⟨-, before, lead, htext, hlead⟩ := exists_lead_of_mem_specifiers hs h
  obtain ⟨c, rest, rfl, hc⟩ := exists_blank_of_matches hlead
  let pieces := ("import".toList, s.before) :: (s.clause ++ [("from".toList, s.after)])
  have himport : IsWord "import".toList := by decide
  have hfrom : IsWord "from".toList := by decide
  have hpieces : ∀ piece ∈ pieces, IsWord piece.1 ∧ IsGap piece.2 :=
    List.forall_mem_cons.mpr ⟨⟨himport, hs.before⟩, List.forall_mem_append.mpr
      ⟨fun piece hpiece => ⟨(hs.clause piece hpiece).1.1, (hs.clause piece hpiece).2⟩,
        List.forall_mem_singleton.mpr ⟨hfrom, hs.after⟩⟩⟩
  have hspread : spread pieces = before ++ ("import".toList ++ c :: rest) := by
    rw [htext, spread_cons, spread_append]
    simp [Statement.lead, spread]
  obtain ⟨front, piece, back, start, hcut, hpiece, rfl, -⟩ :=
    exists_piece_of_spread hpieces himport hc hspread
  -- The keyword is found at the front, or in a word of the clause, which has none in it.
  cases front with
  | nil =>
    obtain ⟨rfl, -⟩ := List.cons_eq_cons.mp hcut
    obtain rfl : start = [] := by simpa using hpiece
    rw [show c :: rest = s.lead from List.append_cancel_left htext] at hlead
    exact (exists_lead_iff hs).mp hlead
  | cons first front =>
    obtain ⟨-, hcut⟩ := List.cons_eq_cons.mp hcut
    have hmem : piece ∈ s.clause ++ [("from".toList, s.after)] := hcut ▸ by simp
    rcases List.mem_append.mp hmem with hclause | hlast
    · exact absurd ⟨start, hpiece.symm⟩ (hfree piece hclause)
    · rw [List.mem_singleton.mp hlast] at hpiece
      have := congrArg List.length hpiece
      simp at this

end Statement

/-! ### References of a statement -/

/-- Whether a specifier is among the references of a text, as it is or for its package. -/
def Reports (text : List Char) (specifier : String) : Prop :=
  specifier ∈ (references text).relative ∨ packageRoot specifier ∈ (references text).packages

instance (text : List Char) (specifier : String) : Decidable (Reports text specifier) :=
  inferInstanceAs (Decidable (_ ∨ _))

/-- The only specifier of a text is reported if it is not one of the host. -/
theorem reports_iff {text : List Char} {specifier : String}
    (honly : ∀ other ∈ specifiers text, other = specifier) :
    Reports text specifier ↔
      specifier ∈ specifiers text ∧ (isRelative specifier = true ∨ isForeign specifier = true) := by
  unfold Reports
  rw [mem_relative_iff, mem_packages_iff]
  constructor
  · rintro (⟨hmem, hrelative⟩ | ⟨other, hmem, hforeign, -⟩)
    · exact ⟨hmem, Or.inl hrelative⟩
    · obtain rfl := honly other hmem
      exact ⟨hmem, Or.inr hforeign⟩
  · rintro ⟨hmem, hrelative | hforeign⟩
    · exact Or.inl ⟨hmem, hrelative⟩
    · exact Or.inr ⟨specifier, hmem, hforeign, rfl⟩

namespace Statement

variable {s s' : Statement}

/-- A statement reports its specifier if the scan finds it and keeps it as relative or foreign. -/
theorem reports_text_iff (hs : s.WellFormed) :
    Reports s.text (String.ofList s.specifier) ↔
      String.ofList s.specifier ∈ specifiers s.text ∧
        (isRelative (String.ofList s.specifier) = true ∨
          isForeign (String.ofList s.specifier) = true) :=
  reports_iff fun _ h => (exists_lead_of_mem_specifiers hs h).1

/-- Words are the same in another layout, so it is as free of the keyword. -/
theorem Relaid.keywordFree (hsame : s.Relaid s') (hfree : s.KeywordFree) : s'.KeywordFree := by
  intro piece hpiece
  have hmem : piece.1 ∈ s.clause.map Prod.fst := hsame.clause ▸ List.mem_map_of_mem hpiece
  obtain ⟨same, hsame, heq⟩ := List.mem_map.mp hmem
  exact heq ▸ hfree same hsame

/-- A statement that is reported in some layout is reported in any other one that has its clause on
one line. With a broken clause it is not, unless a word of the clause ends like the keyword. -/
theorem reports_of_relaid (hs : s.WellFormed) (hs' : s'.WellFormed) (hsame : s.Relaid s')
    (hreports : Reports s.text (String.ofList s.specifier)) :
    (s'.ClauseOnOneLine → Reports s'.text (String.ofList s'.specifier)) ∧
      (s.KeywordFree → ¬s'.ClauseOnOneLine →
        ¬Reports s'.text (String.ofList s'.specifier)) := by
  have hkind := ((reports_text_iff hs).mp hreports).2
  rw [← hsame.specifier] at hkind
  rw [reports_text_iff hs']
  constructor
  · exact fun hline => ⟨mem_specifiers_of_clauseOnOneLine hs' hline, hkind⟩
  · exact fun hfree hbroken h =>
      hbroken (clauseOnOneLine_of_mem_specifiers hs' (hsame.keywordFree hfree) h.1)

/-- A statement that names what it imports, with gaps that may be chosen. -/
def namedImport (before opening closing behind after : List Char) : Statement where
  before := before
  clause := [(['{'], opening), (['a'], closing), (['}'], behind)]
  after := after
  quote := '"'
  specifier := "pkg".toList

/-- It is on one line. -/
def plainImport : Statement := namedImport [' '] [' '] [' '] [' '] [' ']

/-- Each word that may start a line does. -/
def movedImport : Statement := namedImport ['\n'] [' '] [' '] ['\n'] ['\n', ' ']

/-- The names start a line. -/
def brokenImport : Statement := namedImport [' '] ['\n', ' '] [' '] [' '] [' ']

/-- The sample statement is well formed whatever gaps it has. -/
theorem wellFormed_namedImport {before opening closing behind after : List Char}
    (h : ∀ gap ∈ [before, opening, closing, behind, after], IsGap gap) :
    (namedImport before opening closing behind after).WellFormed where
  before := h before (by simp)
  filled := List.cons_ne_nil _ _
  clause := by
    have htokens : IsToken ['{'] ∧ IsToken ['a'] ∧ IsToken ['}'] := by decide
    simp only [namedImport, List.forall_mem_cons]
    exact ⟨⟨htokens.1, h opening (by simp)⟩, ⟨htokens.2.1, h closing (by simp)⟩,
      ⟨htokens.2.2, h behind (by simp)⟩, List.forall_mem_nil _⟩
  after := h after (by simp)
  quote := (by decide : isQuote '"' = true)
  named := (by decide : "pkg".toList ≠ [])
  unquoted := (by decide : Unquoted "pkg".toList)

/-- With single blanks throughout. -/
theorem wellFormed_plainImport : plainImport.WellFormed :=
  wellFormed_namedImport (by decide)

/-- With line feeds outside the clause. -/
theorem wellFormed_movedImport : movedImport.WellFormed :=
  wellFormed_namedImport (by decide)

/-- With a line feed inside the clause. -/
theorem wellFormed_brokenImport : brokenImport.WellFormed :=
  wellFormed_namedImport (by decide)

/-- On one line the sample statement is reported. -/
theorem reports_plainImport : Reports plainImport.text "pkg" := by
  decide +kernel

/-- The statement is reported in the one layout and not in the other. -/
theorem reports_relaid_plainImport :
    Reports movedImport.text "pkg" ∧ ¬Reports brokenImport.text "pkg" :=
  ⟨(reports_of_relaid wellFormed_plainImport wellFormed_movedImport ⟨rfl, rfl, rfl⟩
      reports_plainImport).1 (by unfold ClauseOnOneLine; decide),
    (reports_of_relaid wellFormed_plainImport wellFormed_brokenImport ⟨rfl, rfl, rfl⟩
      reports_plainImport).2 (by unfold KeywordFree; decide) (by unfold ClauseOnOneLine; decide)⟩

/-- A statement that is reported on one line is lost with a line feed behind the opening brace. -/
theorem broken_import_is_lost :
    plainImport.WellFormed ∧ brokenImport.WellFormed ∧ plainImport.Relaid brokenImport ∧
      Reports plainImport.text "pkg" ∧
      brokenImport.text = "import \x7b\n a \x7d from \"pkg\"".toList ∧
      ¬Reports brokenImport.text "pkg" :=
  ⟨wellFormed_plainImport, wellFormed_brokenImport, ⟨rfl, rfl, rfl⟩, reports_plainImport,
    by decide, by decide +kernel⟩

end Statement

end RepoAtlas.Source
