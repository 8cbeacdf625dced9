import RepoAtlas.Naming.Directory

/-!
# `RepoAtlas.Proofs.Naming.Identifier`: a name always gives an identifier

An identifier keeps at least one character of every run of characters in the name it is made from,
so only the empty name has an empty identifier. This is what lets every directory, and every manual
module, be registered: a registry takes in nothing under the empty identifier.
-/

set_option autoImplicit false

namespace RepoAtlas.Naming

/-- Collapsing hyphens leaves something of every name. -/
theorem collapseHyphens_ne_nil {name : List Char} (h : name ≠ []) : collapseHyphens name ≠ [] := by
  induction name with
  | nil => exact absurd rfl h
  | cons c rest ih =>
    unfold collapseHyphens
    split
    · next hrun =>
      -- A hyphen is dropped only before another one.
      refine ih fun hnil => ?_
      rw [hnil] at hrun
      exact nomatch hrun.2
    · exact List.cons_ne_nil _ _

/-- A name that is not empty has an id that is not. -/
theorem sanitize_ne_empty {name : String} (h : name ≠ "") : sanitize name ≠ "" := by
  intro hempty
  have hchars : name.toList ≠ [] := fun hnil => h (String.toList_eq_nil_iff.mp hnil)
  have hhyphenated : hyphenate name.toList ≠ [] := fun hnil => hchars (List.map_eq_nil_iff.mp hnil)
  have hnil := congrArg String.toList hempty
  rw [sanitize, String.toList_ofList] at hnil
  exact collapseHyphens_ne_nil hhyphenated (List.map_eq_nil_iff.mp hnil)

/-- A directory is well known, or is known by its name. -/
theorem classify_cases (name : String) :
    (∃ pair ∈ wellKnown, classify name = pair.2) ∨
      classify name = ⟨sanitize name, humanize name, "code"⟩ := by
  unfold classify
  cases hlookup : wellKnown.lookup name with
  | none => exact Or.inr rfl
  | some identity =>
    obtain ⟨before, after, hsplit, -⟩ := List.lookup_eq_some_iff.mp hlookup
    have hmem : (name, identity) ∈ wellKnown := by
      rw [hsplit]
      simp
    exact Or.inl ⟨_, hmem, rfl⟩

/-- Every directory has an identifier. -/
theorem id_classify_ne_empty {name : String} (h : name ≠ "") : (classify name).id ≠ "" := by
  have hknown : ∀ pair ∈ wellKnown, pair.2.id ≠ "" := by decide
  rcases classify_cases name with ⟨pair, hpair, heq⟩ | heq
  · rw [heq]
    exact hknown pair hpair
  · rw [heq]
    exact sanitize_ne_empty h

/-- Every name has a kind. -/
theorem kind_classify_ne_empty (name : String) : (classify name).kind ≠ "" := by
  have hknown : ∀ pair ∈ wellKnown, pair.2.kind ≠ "" := by decide
  rcases classify_cases name with ⟨pair, hpair, heq⟩ | heq
  · rw [heq]
    exact hknown pair hpair
  · simp [heq]

end RepoAtlas.Naming
