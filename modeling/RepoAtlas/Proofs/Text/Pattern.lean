import RepoAtlas.Text.Pattern

/-!
# `RepoAtlas.Proofs.Text.Pattern`: running a text through a pattern

A text that is run through a pattern one character at a time marks the places it can have reached.
A place in front of a single character is reached if the pieces before it match the text so far. A
place in front of any number of characters stays marked while such characters are read, so there
the piece itself belongs to what is matched.

* `matches_one`, `matches_many`, `matches_append`: what texts a pattern made of parts describes.
* `AsksOnlyFor`: patterns whose matches hold nothing but characters of a kind.
* `Reached`: the marks after a text; `reached_start` and `Reached.step` keep it.
* `Reached.accepting_iff`: the last mark says whether the whole pattern matches.
* `Reached.alive_of_matches`: without a mark, no longer text matches.
-/

set_option autoImplicit false

namespace RepoAtlas.Text.Pattern

variable {p q front rest : Pattern} {ofClass : Char → Bool} {text done more : List Char} {c : Char}

/-! ### Texts that a pattern describes -/

/-- The empty pattern matches the empty text only. -/
theorem matches_nil : Matches [] text ↔ text = [] :=
  ⟨fun h => by cases h; rfl, fun h => h ▸ .nil⟩

/-- A single character comes first. -/
theorem matches_one : Matches (.one ofClass :: rest) text ↔
    ∃ c back, text = c :: back ∧ ofClass c = true ∧ Matches rest back := by
  constructor
  · rintro (_ | ⟨hc, hback⟩)
    exact ⟨_, _, rfl, hc, hback⟩
  · rintro ⟨c, back, rfl, hc, hback⟩
    exact .one hc hback

/-- Any number of characters comes first. -/
theorem matches_many : Matches (.many ofClass :: rest) text ↔
    ∃ run back, text = run ++ back ∧ (∀ c ∈ run, ofClass c = true) ∧ Matches rest back := by
  constructor
  · intro h
    -- By induction on the match, with the pattern as a variable: the run grows by one with each
    -- character read.
    generalize hp : Piece.many ofClass :: rest = p at h
    induction h with
    | nil => cases hp
    | one => cases hp
    | skip hback =>
      cases hp
      exact ⟨[], _, rfl, List.forall_mem_nil _, hback⟩
    | more hc _ ih =>
      cases hp
      obtain ⟨run, back, rfl, hrun, hback⟩ := ih rfl
      exact ⟨_ :: run, back, rfl, List.forall_mem_cons.mpr ⟨hc, hrun⟩, hback⟩
  · rintro ⟨run, back, rfl, hrun, hback⟩
    induction run with
    | nil => exact .skip hback
    | cons c run ih =>
      obtain ⟨hc, hrun⟩ := List.forall_mem_cons.mp hrun
      exact .more hc (ih hrun)

/-- A pattern after another one describes a text after a text. -/
theorem matches_append : Matches (p ++ q) text ↔
    ∃ front back, text = front ++ back ∧ Matches p front ∧ Matches q back := by
  -- Along the first pattern; each piece takes its part off the front of the text.
  induction p generalizing text with
  | nil =>
    constructor
    · exact fun h => ⟨[], text, rfl, .nil, h⟩
    · rintro ⟨front, back, rfl, hfront, hback⟩
      rw [matches_nil.mp hfront]
      exact hback
  | cons piece p ih =>
    rw [List.cons_append]
    cases piece with
    | one ofClass =>
      rw [matches_one]
      constructor
      · rintro ⟨c, text, rfl, hc, h⟩
        obtain ⟨front, back, rfl, hfront, hback⟩ := ih.mp h
        exact ⟨c :: front, back, rfl, .one hc hfront, hback⟩
      · rintro ⟨front, back, rfl, hfront, hback⟩
        obtain ⟨c, front, rfl, hc, hfront⟩ := matches_one.mp hfront
        exact ⟨c, front ++ back, rfl, hc, ih.mpr ⟨front, back, rfl, hfront, hback⟩⟩
    | many ofClass =>
      rw [matches_many]
      constructor
      · rintro ⟨run, text, rfl, hrun, h⟩
        obtain ⟨front, back, rfl, hfront, hback⟩ := ih.mp h
        exact ⟨run ++ front, back, (List.append_assoc ..).symm,
          matches_many.mpr ⟨run, front, rfl, hrun, hfront⟩, hback⟩
      · rintro ⟨front, back, rfl, hfront, hback⟩
        obtain ⟨run, front, rfl, hrun, hfront⟩ := matches_many.mp hfront
        exact ⟨run, front ++ back, List.append_assoc .., hrun,
          ih.mpr ⟨front, back, rfl, hfront, hback⟩⟩

/-- At least one character of a class. -/
theorem matches_atLeastOne :
    Matches (atLeastOne ofClass) text ↔ text ≠ [] ∧ ∀ c ∈ text, ofClass c = true := by
  unfold atLeastOne
  rw [matches_one]
  constructor
  · rintro ⟨c, back, rfl, hc, h⟩
    obtain ⟨run, last, rfl, hrun, hlast⟩ := matches_many.mp h
    rw [matches_nil.mp hlast, List.append_nil]
    exact ⟨List.cons_ne_nil _ _, List.forall_mem_cons.mpr ⟨hc, hrun⟩⟩
  · rintro ⟨hne, h⟩
    obtain ⟨c, back, rfl⟩ := List.exists_cons_of_ne_nil hne
    obtain ⟨hc, hback⟩ := List.forall_mem_cons.mp h
    exact ⟨c, back, rfl, hc,
      matches_many.mpr ⟨back, [], (List.append_nil _).symm, hback, .nil⟩⟩

/-- A fixed text. -/
theorem matches_literal {word : String} : Matches (literal word) text ↔ text = word.toList := by
  unfold literal
  generalize word.toList = word
  -- Character by character, each of which is a class of its own.
  induction word generalizing text with
  | nil => exact matches_nil
  | cons c word ih =>
    rw [List.map_cons, matches_one]
    constructor
    · rintro ⟨d, back, rfl, hd, h⟩
      rw [ih.mp h, of_decide_eq_true hd]
    · rintro rfl
      exact ⟨c, word, rfl, decide_eq_true rfl, ih.mpr rfl⟩

/-- The characters that a piece asks for. -/
def asksFor : Piece → Char → Bool
  | .one inClass | .many inClass => inClass

/-- A pattern whose pieces ask for nothing but characters of a kind. -/
def AsksOnlyFor (kind : Char → Prop) (p : Pattern) : Prop :=
  ∀ piece ∈ p, ∀ c, asksFor piece c = true → kind c

section

variable {kind : Char → Prop}

/-- Two patterns that ask for characters of a kind do so together. -/
theorem AsksOnlyFor.append (hp : AsksOnlyFor kind p) (hq : AsksOnlyFor kind q) :
    AsksOnlyFor kind (p ++ q) :=
  List.forall_mem_append.mpr ⟨hp, hq⟩

/-- A run asks for what is in its class. -/
theorem asksOnlyFor_many (h : ∀ c, ofClass c = true → kind c) : AsksOnlyFor kind [.many ofClass] :=
  List.forall_mem_singleton.mpr h

/-- So does a run of at least one. -/
theorem asksOnlyFor_atLeastOne (h : ∀ c, ofClass c = true → kind c) :
    AsksOnlyFor kind (atLeastOne ofClass) :=
  List.forall_mem_cons.mpr ⟨h, asksOnlyFor_many h⟩

/-- A literal asks for its own characters. -/
theorem asksOnlyFor_literal {word : String} (h : ∀ c ∈ word.toList, kind c) :
    AsksOnlyFor kind (literal word) := by
  refine List.forall_mem_map.mpr fun d hd c hc => ?_
  rw [show c = d from of_decide_eq_true hc]
  exact h d hd

/-- All characters of a match are of the kind that is asked for. -/
theorem AsksOnlyFor.forall_mem (hp : AsksOnlyFor kind p) (h : Matches p text) :
    ∀ c ∈ text, kind c := by
  induction h with
  | nil => exact List.forall_mem_nil _
  | one hc _ ih =>
    obtain ⟨hfirst, hrest⟩ := List.forall_mem_cons.mp hp
    exact List.forall_mem_cons.mpr ⟨hfirst _ hc, ih hrest⟩
  | skip _ ih => exact ih (List.forall_mem_cons.mp hp).2
  | more hc _ ih =>
    exact List.forall_mem_cons.mpr ⟨(List.forall_mem_cons.mp hp).1 _ hc, ih hp⟩

end

/-! ### One character more -/

/-- A pattern that ends in one character does not match the empty text. -/
theorem matches_append_one_nil : ¬Matches (front ++ [.one ofClass]) [] := by
  intro h
  obtain ⟨_, _, htext, -, hlast⟩ := matches_append.mp h
  obtain ⟨_, _, rfl, -, -⟩ := matches_one.mp hlast
  exact absurd htext.symm (by simp)

/-- A pattern that ends in one character matches if the last character is in the class and the rest
matches. -/
theorem matches_append_one_concat : Matches (front ++ [.one ofClass]) (text ++ [c]) ↔
    Matches front text ∧ ofClass c = true := by
  rw [matches_append]
  constructor
  · rintro ⟨before, after, htext, hbefore, hafter⟩
    obtain ⟨d, back, rfl, hd, hback⟩ := matches_one.mp hafter
    rw [matches_nil.mp hback] at htext
    obtain ⟨rfl, hcd⟩ := List.append_inj' htext rfl
    cases hcd
    exact ⟨hbefore, hd⟩
  · rintro ⟨hfront, hc⟩
    exact ⟨text, [c], rfl, hfront, .one hc .nil⟩

/-- A pattern that ends in a run matches if the text ends in one. -/
theorem matches_append_many : Matches (front ++ [.many ofClass]) text ↔
    ∃ before run, text = before ++ run ∧ Matches front before ∧ ∀ c ∈ run, ofClass c = true := by
  rw [matches_append]
  constructor
  · rintro ⟨before, after, rfl, hbefore, hafter⟩
    obtain ⟨run, back, rfl, hrun, hback⟩ := matches_many.mp hafter
    rw [matches_nil.mp hback, List.append_nil]
    exact ⟨before, run, rfl, hbefore, hrun⟩
  · rintro ⟨before, run, rfl, hbefore, hrun⟩
    exact ⟨before, run, rfl, hbefore,
      matches_many.mpr ⟨run, [], (List.append_nil _).symm, hrun, .nil⟩⟩

/-- The empty text ends in the empty run. -/
theorem matches_append_many_nil :
    Matches (front ++ [.many ofClass]) [] ↔ Matches front [] := by
  rw [matches_append_many]
  constructor
  · rintro ⟨before, run, htext, hbefore, -⟩
    obtain ⟨rfl, rfl⟩ := List.append_eq_nil_iff.mp htext.symm
    exact hbefore
  · exact fun h => ⟨[], [], rfl, h, List.forall_mem_nil _⟩

/-- The last character belongs to the run, or the run is empty. -/
theorem matches_append_many_concat : Matches (front ++ [.many ofClass]) (text ++ [c]) ↔
    Matches front (text ++ [c]) ∨ (Matches (front ++ [.many ofClass]) text ∧ ofClass c = true) := by
  rw [matches_append_many, matches_append_many]
  constructor
  · rintro ⟨before, run, htext, hbefore, hrun⟩
    -- The run is empty, or its last character is the last of the text.
    rcases List.eq_nil_or_concat run with rfl | ⟨run, d, rfl⟩
    · rw [List.append_nil] at htext
      exact Or.inl (htext ▸ hbefore)
    · rw [List.concat_eq_append, ← List.append_assoc] at htext
      obtain ⟨rfl, hcd⟩ := List.append_inj' htext rfl
      cases hcd
      rw [List.concat_eq_append, List.forall_mem_append, List.forall_mem_singleton] at hrun
      exact Or.inr ⟨⟨before, run, rfl, hbefore, hrun.1⟩, hrun.2⟩
  · rintro (h | ⟨⟨before, run, rfl, hbefore, hrun⟩, hc⟩)
    · exact ⟨text ++ [c], [], (List.append_nil _).symm, h, List.forall_mem_nil _⟩
    · exact ⟨before, run ++ [c], List.append_assoc .., hbefore,
        List.forall_mem_append.mpr ⟨hrun, List.forall_mem_singleton.mpr hc⟩⟩

/-! ### Marks -/

/-- The marks of the places from some piece on, after a text: those before it come first. -/
inductive Reached (done : List Char) : (front rest : Pattern) → Live → Prop
  | finish {front : Pattern} {live : Bool} (h : live = true ↔ Matches front done) :
      Reached done front [] [live]
  | one {front rest : Pattern} {ofClass : Char → Bool} {live : Bool} {lives : Live}
      (h : live = true ↔ Matches front done)
      (hrest : Reached done (front ++ [.one ofClass]) rest lives) :
      Reached done front (.one ofClass :: rest) (live :: lives)
  /-- Characters that have been read by the piece keep the place in front of it marked. -/
  | many {front rest : Pattern} {ofClass : Char → Bool} {live : Bool} {lives : Live}
      (h : live = true ↔ Matches (front ++ [.many ofClass]) done)
      (hrest : Reached done (front ++ [.many ofClass]) rest lives) :
      Reached done front (.many ofClass :: rest) (live :: lives)

/-- The marks before any text. -/
theorem reached_start {reached : Bool} (h : reached = true ↔ Matches front []) (rest : Pattern) :
    Reached [] front rest (start reached rest) := by
  induction rest generalizing front reached with
  | nil => exact .finish h
  | cons piece rest ih =>
    cases piece with
    | one ofClass =>
      -- Without text, a place behind a single character is out of reach.
      exact .one h (ih ⟨fun hfalse => (nomatch hfalse), fun hm => absurd hm matches_append_one_nil⟩)
    | many ofClass =>
      have hhere : reached = true ↔ Matches (front ++ [.many ofClass]) [] :=
        h.trans matches_append_many_nil.symm
      exact .many hhere (ih hhere)

namespace Reached

variable {lives : Live}

/-- The marks after one character more. -/
theorem step (h : Reached done front rest lives) {reached : Bool}
    (hreached : reached = true ↔ Matches front (done ++ [c])) :
    Reached (done ++ [c]) front rest (Pattern.step c reached rest lives) := by
  -- `reached` is the mark that comes from the left. A run adds its own mark to it, and a single
  -- character replaces it.
  induction h generalizing reached with
  | finish _ => exact .finish hreached
  | one hlive _ ih =>
    refine .one hreached (ih ?_)
    rw [matches_append_one_concat, Bool.and_eq_true, hlive]
  | @many front rest ofClass live lives hlive _ ih =>
    have hhere : (reached || (live && ofClass c)) = true ↔
        Matches (front ++ [.many ofClass]) (done ++ [c]) := by
      rw [matches_append_many_concat, Bool.or_eq_true, Bool.and_eq_true, hreached, hlive]
    exact .many hhere (ih hhere)

/-- The last mark says whether everything has been matched. -/
theorem accepting_iff (h : Reached done front rest lives) :
    accepting lives = true ↔ Matches (front ++ rest) done := by
  -- Only the last place of all is asked.
  have hlast : ∀ {live : Bool} {others : Live}, others ≠ [] →
      accepting (live :: others) = accepting others := by
    intro live others hne
    obtain ⟨next, others, rfl⟩ := List.exists_cons_of_ne_nil hne
    rfl
  have hne : ∀ {front rest : Pattern} {lives : Live}, Reached done front rest lives →
      lives ≠ [] := by
    rintro _ _ _ (_ | _ | _) <;> exact List.cons_ne_nil _ _
  induction h with
  | finish hlive => rwa [List.append_nil]
  | one _ hrest ih =>
    rw [List.append_assoc] at ih
    rwa [hlast (hne hrest)]
  | many _ hrest ih =>
    rw [List.append_assoc] at ih
    rwa [hlast (hne hrest)]

/-- Some place is marked if the text goes on to a match: the one where the text stands. -/
theorem alive_of_matches (h : Reached done front rest lives) {before after : List Char}
    (hbefore : Matches front before) (hafter : Matches rest after)
    (htext : before ++ after = done ++ more) (hshort : before.length ≤ done.length) :
    alive lives = true := by
  -- `before` is what of the match belongs in front of the place. The induction moves pieces into it
  -- as long as it is not longer than the text that has been read.
  unfold alive
  -- A place is marked here, or further on.
  induction h generalizing before after with
  | finish hlive =>
    rw [matches_nil.mp hafter, List.append_nil] at htext
    have hlength := congrArg List.length htext
    rw [List.length_append] at hlength
    obtain rfl : more = [] := List.eq_nil_of_length_eq_zero (by omega)
    rw [List.append_nil] at htext
    rw [List.any_cons, id, hlive.mpr (htext ▸ hbefore), Bool.true_or]
  | @one front rest ofClass live lives hlive _ ih =>
    obtain ⟨c, after, rfl, hc, hafter⟩ := matches_one.mp hafter
    rw [List.any_cons]
    rcases Nat.lt_or_ge before.length done.length with hless | hge
    · rw [ih (matches_append_one_concat.mpr ⟨hbefore, hc⟩) hafter
        (by rw [List.append_assoc]; exact htext)
        (by rw [List.length_append]; exact hless), Bool.or_true]
    · obtain ⟨rfl, -⟩ := List.append_inj htext (Nat.le_antisymm hshort hge)
      rw [id, hlive.mpr hbefore, Bool.true_or]
  | @many front rest ofClass live lives hlive _ ih =>
    obtain ⟨run, after, rfl, hrun, hafter⟩ := matches_many.mp hafter
    rw [List.any_cons]
    rw [← List.append_assoc] at htext
    rcases Nat.le_total (before ++ run).length done.length with hless | hge
    · rw [ih (matches_append_many.mpr ⟨before, run, rfl, hbefore, hrun⟩) hafter htext hless,
        Bool.or_true]
    · -- The text ends inside the run.
      obtain ⟨beyond, hbeyond⟩ := List.prefix_of_prefix_length_le ⟨more, htext.symm⟩
        (List.prefix_append _ after) hge
      obtain ⟨part, rfl⟩ := List.prefix_of_prefix_length_le (List.prefix_append before run)
        ⟨beyond, hbeyond⟩ hshort
      rw [List.append_assoc, List.append_cancel_left_eq] at hbeyond
      have hpart : ∀ c ∈ part, ofClass c = true := fun c hc =>
        hrun c (hbeyond ▸ List.mem_append_left _ hc)
      rw [id, hlive.mpr (matches_append_many.mpr ⟨before, part, rfl, hbefore, hpart⟩), Bool.true_or]

end Reached

end RepoAtlas.Text.Pattern
