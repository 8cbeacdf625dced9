import RepoAtlas.Proofs.Naming.Identifier
import RepoAtlas.Proofs.Text.Lowering

/-!
# `RepoAtlas.Proofs.Naming.Projection`: names are projected onto identifiers

Three rewrites make a name into an identifier: characters that an identifier does not take over
become hyphens, runs of hyphens become one, letters become lower case. Together they are a single
pass over the name (`singlePass`), which knows only whether it is within a run. What it gives is an
identifier, and it leaves identifiers as they are.

* `sanitize_eq_lower`: only ASCII characters are left when letters are lowered, so that a letter of
  another script has a lower-case form in ASCII does not matter.
* `sanitize_eq_singlePass`: the rewrites are a single pass.
* `isIdentifier_sanitize`, `sanitize_of_isIdentifier`: the pass gives identifiers, and keeps them.
* `sanitize_projects`: identifiers from names.
-/

set_option autoImplicit false

namespace RepoAtlas.Naming

open RepoAtlas.Text

/-- An identifier: lower-case letters, digits, underscores and hyphens, no two hyphens side by
side. -/
structure IsIdentifier (text : String) : Prop where
  chars : ∀ c ∈ text.toList, c.isLower ∨ c.isDigit ∨ c = '_' ∨ c = '-'
  no_run : ¬['-', '-'] <:+: text.toList

/-- What an identifier takes over of a character: a letter in lower case, a digit, an underscore. -/
def taken? (c : Char) : Option Char :=
  if c.isUpper then some c.toLower
  else if c.isLower || c.isDigit || c = '_' then some c
  else none

/-- One pass over a name, given whether the character before was not taken over: a run of such
characters leaves one hyphen. -/
def singlePass : (inRun : Bool) → List Char → List Char
  | _, [] => []
  | inRun, c :: rest =>
    match taken? c with
    | some d => d :: singlePass false rest
    | none => if inRun then singlePass true rest else '-' :: singlePass true rest

variable {c d : Char} {text : List Char}

/-! ### Letters and digits -/

/-- Letters are those of either case. -/
theorem isAlpha_eq (c : Char) : c.isAlpha = (c.isUpper || c.isLower) := rfl

/-- The upper-case letters of ASCII. -/
theorem isUpper_iff (c : Char) : c.isUpper = true ↔ 65 ≤ c.toNat ∧ c.toNat ≤ 90 :=
  decide_eq_true_iff

/-- The lower-case letters of ASCII. -/
theorem isLower_iff (c : Char) : c.isLower = true ↔ 97 ≤ c.toNat ∧ c.toNat ≤ 122 := by
  show (decide (97 ≤ c.val) && decide (c.val ≤ 122)) = true ↔ _
  rw [Bool.and_eq_true, decide_eq_true_iff, decide_eq_true_iff]
  exact Iff.rfl

/-- The digits of ASCII. -/
theorem isDigit_iff (c : Char) : c.isDigit = true ↔ 48 ≤ c.toNat ∧ c.toNat ≤ 57 := by
  show (decide (48 ≤ c.val) && decide (c.val ≤ 57)) = true ↔ _
  rw [Bool.and_eq_true, decide_eq_true_iff, decide_eq_true_iff]
  exact Iff.rfl

/-! ### The single pass -/

/-- The characters that are taken over are those of identifiers, hyphens apart, in lower case. -/
theorem taken?_eq (c : Char) :
    taken? c = if isIdentifierChar c ∧ c ≠ '-' then some c.toLower else none := by
  -- An upper letter is no hyphen, and any other character is its own lower case.
  by_cases hupper : c.isUpper
  · have hne : c ≠ '-' := by
      rintro rfl
      exact absurd hupper (by decide)
    simp [taken?, isIdentifierChar, Char.isAlphanum, isAlpha_eq, hupper, hne]
  · have hlower : c.toLower = c := by
      unfold Char.toLower
      exact dif_neg (mt decide_eq_true hupper)
    by_cases hhyphen : c = '-'
    · subst hhyphen
      decide
    · simp [taken?, isIdentifierChar, Char.isAlphanum, isAlpha_eq, hupper, hlower, hhyphen]

/-- What is taken over is kept when other characters become hyphens, and is no hyphen itself. -/
theorem hyphenate_of_taken (h : taken? c = some d) (rest : List Char) :
    hyphenate (c :: rest) = c :: hyphenate rest ∧ c ≠ '-' ∧ d = c.toLower := by
  rw [taken?_eq] at h
  split at h
  · next hkept =>
    refine ⟨?_, hkept.2, (Option.some.inj h).symm⟩
    show (if isIdentifierChar c then c else '-') :: hyphenate rest = _
    rw [if_pos hkept.1]
  · cases h

/-- What is not taken over becomes a hyphen, or is one. -/
theorem hyphenate_of_not_taken (h : taken? c = none) (rest : List Char) :
    hyphenate (c :: rest) = '-' :: hyphenate rest := by
  rw [taken?_eq] at h
  show (if isIdentifierChar c then c else '-') :: hyphenate rest = _
  by_cases hkept : isIdentifierChar c
  · have hhyphen : c = '-' := by simpa [hkept] using h
    rw [if_pos hkept, hhyphen]
  · rw [if_neg hkept]

/-- The three rewrites, one after the other. -/
def cleaned (text : List Char) : List Char :=
  (collapseHyphens (hyphenate text)).map Char.toLower

/-- A character that is taken over starts no run of hyphens. -/
theorem cleaned_of_taken (h : taken? c = some d) (rest : List Char) :
    cleaned (c :: rest) = d :: cleaned rest := by
  obtain ⟨hrest, hne, rfl⟩ := hyphenate_of_taken h rest
  rw [cleaned, hrest, collapseHyphens, if_neg fun hrun => hne hrun.1]
  rfl

/-- And it ends the run before it. -/
theorem cleaned_hyphen_of_taken (h : taken? c = some d) (rest : List Char) :
    cleaned ('-' :: c :: rest) = '-' :: cleaned (c :: rest) := by
  obtain ⟨hrest, hne, -⟩ := hyphenate_of_taken h rest
  show (collapseHyphens ('-' :: hyphenate (c :: rest))).map Char.toLower = _
  rw [cleaned, hrest, collapseHyphens, if_neg fun hrun => hne (Option.some.inj hrun.2)]
  rfl

/-- Every character that is not taken over is as good as a hyphen. -/
theorem cleaned_of_not_taken (h : taken? c = none) (rest : List Char) :
    cleaned (c :: rest) = cleaned ('-' :: rest) := by
  rw [cleaned, hyphenate_of_not_taken h]
  rfl

/-- In a run the second hyphen is dropped. -/
theorem cleaned_hyphen_of_not_taken (h : taken? c = none) (rest : List Char) :
    cleaned ('-' :: c :: rest) = cleaned ('-' :: rest) := by
  show (collapseHyphens ('-' :: hyphenate (c :: rest))).map Char.toLower = _
  rw [hyphenate_of_not_taken h, collapseHyphens, if_pos ⟨rfl, rfl⟩]
  rfl

/-- Outside runs the pass gives what the rewrites give; within a run it leaves out the hyphen, which
the run has given already. -/
theorem singlePass_eq (text : List Char) :
    singlePass false text = cleaned text ∧ '-' :: singlePass true text = cleaned ('-' :: text) := by
  induction text with
  | nil => exact ⟨rfl, rfl⟩
  | cons c rest ih =>
    obtain ⟨houtside, hwithin⟩ := ih
    -- The character alone decides in which state the rest is read, whatever the state before.
    cases h : taken? c with
    | some d =>
      rw [singlePass, singlePass, h, cleaned_hyphen_of_taken h, cleaned_of_taken h, ← houtside]
      exact ⟨rfl, rfl⟩
    | none =>
      rw [singlePass, singlePass, h, cleaned_hyphen_of_not_taken h, cleaned_of_not_taken h,
        ← hwithin]
      exact ⟨rfl, rfl⟩

/-- The rewrites one after the other are one pass over the name, which starts outside a run. -/
theorem sanitize_eq_singlePass (name : String) :
    sanitize name = String.ofList (singlePass false name.toList) := by
  rw [(singlePass_eq name.toList).1]
  rfl

/-! ### Identifiers -/

/-- The characters of an identifier are identifier characters. -/
theorem IsIdentifier.isIdentifierChar {id : String} (h : IsIdentifier id) (hc : c ∈ id.toList) :
    isIdentifierChar c = true := by
  rcases h.chars c hc with h | h | rfl | rfl
  · simp [Naming.isIdentifierChar, Char.isAlphanum, isAlpha_eq, h]
  · simp [Naming.isIdentifierChar, Char.isAlphanum, h]
  · decide
  · decide

/-- What is taken over is a lower-case letter, a digit or an underscore. -/
theorem kind_of_taken (h : taken? c = some d) : (d.isLower ∨ d.isDigit ∨ d = '_') ∧ d ≠ '-' := by
  have hkind : d.isLower ∨ d.isDigit ∨ d = '_' := by
    unfold taken? at h
    split at h
    · next hupper =>
      -- An upper letter of ASCII is lowered to a lower one.
      have hlower : c.toLower.isLower = true := by
        have hrange : c.val ≥ 'A'.val ∧ c.val ≤ 'Z'.val := of_decide_eq_true hupper
        unfold Char.toLower
        rw [dif_pos hrange]
        rw [isLower_iff]
        simp [UInt32.le_iff_toNat_le] at hrange ⊢
        omega
      exact Or.inl (Option.some.inj h ▸ hlower)
    · split at h
      · next hkept =>
        rw [← Option.some.inj h]
        simpa [or_assoc] using hkept
      · cases h
  refine ⟨hkind, ?_⟩
  rintro rfl
  exact absurd hkind (by decide)

/-- Lower-case letters, digits and underscores are taken over as they are. -/
theorem taken?_eq_self (h : c.isLower ∨ c.isDigit ∨ c = '_') : taken? c = some c := by
  have hupper : ¬c.isUpper := by
    rcases h with h | h | rfl
    · rw [isUpper_iff]
      rw [isLower_iff] at h
      omega
    · rw [isUpper_iff]
      rw [isDigit_iff] at h
      omega
    · decide
  have hkept : (c.isLower || c.isDigit || c = '_') = true := by
    simpa [or_assoc] using h
  rw [taken?, if_neg hupper, if_pos hkept]

/-- A pass gives lower-case letters, digits, underscores and hyphens. -/
theorem mem_singlePass {inRun : Bool} (h : d ∈ singlePass inRun text) :
    d.isLower ∨ d.isDigit ∨ d = '_' ∨ d = '-' := by
  -- By induction on the name: a character is taken, or gives a hyphen for its run.
  induction text generalizing inRun with
  | nil => exact absurd h List.not_mem_nil
  | cons c rest ih =>
    unfold singlePass at h
    split at h
    · next htaken =>
      rcases List.mem_cons.mp h with rfl | h
      · exact (kind_of_taken htaken).1.imp_right (Or.imp_right Or.inl)
      · exact ih h
    · split at h
      · exact ih h
      · rcases List.mem_cons.mp h with rfl | h
        · simp
        · exact ih h

/-- Within a run the pass does not give a hyphen first, so it never gives two side by side. -/
theorem no_run_singlePass (inRun : Bool) (text : List Char) :
    ¬['-', '-'] <:+: singlePass inRun text ∧
      (inRun → (singlePass inRun text).head? ≠ some '-') := by
  -- By induction on the name. Within a run no hyphen comes first, so the one for the run is not
  -- followed by another.
  induction text generalizing inRun with
  | nil => simp [singlePass]
  | cons c rest ih =>
    cases h : taken? c with
    | some d =>
      have hd := (kind_of_taken h).2
      rw [singlePass, h]
      constructor
      · intro hinfix
        rcases List.infix_cons_iff.mp hinfix with hprefix | hinfix
        · exact hd (List.cons_prefix_cons.mp hprefix).1.symm
        · exact (ih false).1 hinfix
      · simp [hd]
    | none =>
      obtain ⟨hrun, hhead⟩ := ih true
      rw [singlePass, h]
      cases inRun with
      | true => exact ⟨hrun, hhead⟩
      | false =>
        refine ⟨fun hinfix => ?_, by simp⟩
        rcases List.infix_cons_iff.mp hinfix with hprefix | hinfix
        · obtain ⟨-, back, hback⟩ := List.cons_prefix_cons.mp hprefix
          exact hhead rfl (by rw [← hback]; rfl)
        · exact hrun hinfix

/-- What the rewrites give is an identifier. -/
theorem isIdentifier_sanitize (name : String) : IsIdentifier (sanitize name) := by
  rw [sanitize_eq_singlePass]
  constructor
  · intro c hc
    rw [String.toList_ofList] at hc
    exact mem_singlePass hc
  · rw [String.toList_ofList]
    exact (no_run_singlePass false _).1

/-- The pass leaves a text alone that has only characters of identifiers and no two hyphens side by
side, the hyphen of the run before included. -/
theorem singlePass_eq_self {inRun : Bool}
    (hchars : ∀ c ∈ text, c.isLower ∨ c.isDigit ∨ c = '_' ∨ c = '-')
    (hrun : ¬['-', '-'] <:+: text) (hhead : inRun → text.head? ≠ some '-') :
    singlePass inRun text = text := by
  induction text generalizing inRun with
  | nil => rfl
  | cons c rest ih =>
    obtain ⟨hc, hrest⟩ := List.forall_mem_cons.mp hchars
    have hrun' : ¬['-', '-'] <:+: rest := fun hinfix => hrun (List.infix_cons_iff.mpr (.inr hinfix))
    -- A hyphen is no character that is taken; it stands for a run of its own.
    by_cases hhyphen : c = '-'
    · subst hhyphen
      have hnone : taken? '-' = none := by decide
      have hrest' : rest.head? ≠ some '-' := by
        intro hhead
        obtain ⟨back, rfl⟩ := List.head?_eq_some_iff.mp hhead
        exact hrun ⟨[], back, rfl⟩
      cases inRun with
      | true => exact absurd rfl (hhead rfl)
      | false =>
        rw [singlePass, hnone]
        show '-' :: singlePass true rest = _
        rw [ih hrest hrun' fun _ => hrest']
    · have hkind : c.isLower ∨ c.isDigit ∨ c = '_' := by simpa [hhyphen] using hc
      rw [singlePass, taken?_eq_self hkind]
      show c :: singlePass false rest = _
      rw [ih hrest hrun' (by simp)]

/-- Identifiers stay as they are. -/
theorem sanitize_of_isIdentifier {name : String} (h : IsIdentifier name) :
    sanitize name = name := by
  rw [sanitize_eq_singlePass, singlePass_eq_self h.chars h.no_run (by simp), String.ofList_toList]

/-- The names that stay are the identifiers. -/
theorem sanitize_eq_self_iff {name : String} : sanitize name = name ↔ IsIdentifier name :=
  ⟨fun h => h ▸ isIdentifier_sanitize name, sanitize_of_isIdentifier⟩

instance (text : String) : Decidable (IsIdentifier text) :=
  decidable_of_iff _ sanitize_eq_self_iff

/-- Every directory's identifier is one, also where it is fixed. -/
theorem isIdentifier_id_classify (name : String) : IsIdentifier (classify name).id := by
  have hknown : ∀ pair ∈ wellKnown, IsIdentifier pair.2.id := by decide
  rcases classify_cases name with ⟨pair, hpair, heq⟩ | heq <;> rw [heq]
  · exact hknown pair hpair
  · exact isIdentifier_sanitize name

/-! ### Lower case -/

/-- Identifier characters are ASCII. -/
theorem toNat_of_isIdentifierChar (h : isIdentifierChar c) : c.toNat < 128 := by
  simp only [isIdentifierChar, Char.isAlphanum, isAlpha_eq, Bool.or_eq_true, isUpper_iff,
    isLower_iff, isDigit_iff, decide_eq_true_eq] at h
  rcases h with (hcode | rfl) | rfl
  · omega
  · decide
  · decide

/-- Collapsing runs only drops characters. -/
theorem collapseHyphens_subset (text : List Char) : collapseHyphens text ⊆ text := by
  induction text with
  | nil => exact List.Subset.refl []
  | cons c rest ih =>
    unfold collapseHyphens
    split
    · exact List.subset_cons_of_subset c ih
    · exact List.cons_subset_cons c ih

/-- A text without characters beyond ASCII is lowered character by character. -/
theorem lowerAfter_of_ascii {before : List Char} (h : ∀ c ∈ text, c.toNat < 128) :
    lowerAfter before text = text.map Char.toLower := by
  induction text generalizing before with
  | nil => rfl
  | cons c rest ih =>
    obtain ⟨hc, hrest⟩ := List.forall_mem_cons.mp h
    have hsigma : c ≠ 'Σ' := by
      rintro rfl
      exact absurd hc (by decide)
    rw [lowerAfter_cons, lowerBetween, if_neg hsigma, lowerChar, if_pos hc, ih hrest]
    rfl

/-- It makes no difference whether only ASCII letters are lowered in the end, or all letters: none
but ASCII characters are left. -/
theorem sanitize_eq_lower (name : String) :
    sanitize name = lower (String.ofList (collapseHyphens (hyphenate name.toList))) := by
  have hascii : ∀ c ∈ collapseHyphens (hyphenate name.toList), c.toNat < 128 := by
    intro c hc
    obtain ⟨source, -, rfl⟩ := List.mem_map.mp (collapseHyphens_subset _ hc)
    split
    · next hkept => exact toNat_of_isIdentifierChar hkept
    · decide
  rw [lower, String.toList_ofList, lowerAfter_of_ascii hascii]
  rfl

/-- A name is projected onto an identifier. -/
theorem sanitize_projects (name : String) :
    sanitize name = lower (String.ofList (collapseHyphens (hyphenate name.toList))) ∧
      sanitize name = String.ofList (singlePass false name.toList) ∧
      IsIdentifier (sanitize name) ∧
      (sanitize name = "" ↔ name = "") ∧
      (sanitize name = name ↔ IsIdentifier name) ∧
      sanitize (sanitize name) = sanitize name ∧
      ((classify name).id = "" ↔ name = "") := by
  -- Nothing is made of the empty name only.
  have hempty : sanitize name = "" ↔ name = "" := by
    constructor
    · intro h
      by_contra hname
      exact sanitize_ne_empty hname h
    · rintro rfl
      rfl
  have hid : (classify name).id = "" ↔ name = "" := by
    constructor
    · intro h
      by_contra hname
      exact id_classify_ne_empty hname h
    · rintro rfl
      rfl
  exact ⟨sanitize_eq_lower name, sanitize_eq_singlePass name, isIdentifier_sanitize name, hempty,
    sanitize_eq_self_iff, sanitize_of_isIdentifier (isIdentifier_sanitize name), hid⟩

end RepoAtlas.Naming
