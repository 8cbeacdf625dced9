import Mathlib.Order.Defs.Unbundled
import RepoAtlas.Proofs.Path.Normal

/-!
# `RepoAtlas.Proofs.Path.Containment`: paths under paths are names after names

Containment is decided on texts: the text of the root without final slashes, and then a slash. For
paths in normal form with one slash in front this is the same as to compare names, at the top
directory too, whose text is all slash and which has no names. So it is a partial order with the top
directory around everything.

* `isWithin_iff_names`: containment is that of lists of names.
* `isWithin_top`, `isPartialOrder_isWithin`: what follows from it.

Two slashes in front would lead to a top directory of their own, whose text starts with that of the
other one (`FromTop`).
-/

set_option autoImplicit false

namespace RepoAtlas.Path

/-- An absolute path whose normal form has one slash in front. -/
structure FromTop (path : String) : Prop where
  absolute : isAbsolute path = true
  lead : leadingSlashes path = "/"

/-- A path in normal form with one slash in front. -/
structure IsRooted (path : String) : Prop extends FromTop path where
  normal : IsNormal path

instance (path : String) : Decidable (IsNormal path) :=
  inferInstanceAs (Decidable (normalize path = path))

instance (path : String) : Decidable (FromTop path) :=
  decidable_of_iff (isAbsolute path = true ∧ leadingSlashes path = "/")
    ⟨fun ⟨h₁, h₂⟩ => ⟨h₁, h₂⟩, fun h => ⟨h.absolute, h.lead⟩⟩

instance (path : String) : Decidable (IsRooted path) :=
  decidable_of_iff (FromTop path ∧ IsNormal path)
    ⟨fun ⟨h₁, h₂⟩ => ⟨h₁, h₂⟩, fun h => ⟨h.toFromTop, h.normal⟩⟩

/-- A path from the top is rooted once it is in normal form. -/
theorem FromTop.normalize {path : String} (h : FromTop path) : IsRooted (normalize path) where
  absolute := isAbsolute_absolute (isLead_leadingSlashes path) _
  lead := by
    rw [normalize_eq_absolute, h.lead]
    exact leadingSlashes_absolute (Or.inl rfl) fun n hn => (isName_of_mem_normalNames hn).isStep
  normal := normalize_normalize path

namespace IsRooted

variable {path root : String}

/-- The names of a rooted path are names. -/
theorem isName_of_mem (h : IsRooted path) {name : String} (hname : name ∈ names path) :
    IsName name :=
  isName_of_mem_normalNames (h.normal.names_eq ▸ hname)

/-- The path is spelled by its names. -/
theorem eq_absolute (h : IsRooted path) : path = absolute "/" (names path) := by
  conv => lhs; rw [h.normal.eq_absolute, h.lead, ← h.normal.names_eq]

/-- A rooted path is given by its names. -/
theorem eq_of_names_eq (hpath : IsRooted path) (hroot : IsRooted root)
    (h : names path = names root) : path = root := by
  rw [hpath.eq_absolute, h, ← hroot.eq_absolute]

/-- Everything lies under the top directory. -/
theorem isWithin_top (h : IsRooted path) : isWithin path "/" = true := by
  have htop : IsNormal "/" := by decide
  have hnames : ∀ n ∈ names path, IsName n := fun n hn => h.isName_of_mem hn
  have hself := htop.isWithin_self hnames
  rw [htop.descend_eq hnames] at hself
  rw [h.eq_absolute]
  exact hself

/-- Under a path are the paths that have the same names and more. -/
theorem isWithin_iff_names (hpath : IsRooted path) (hroot : IsRooted root) :
    isWithin path root = true ↔ names root <+: names path := by
  -- `isWithin_absolute` needs a name, since the text of the top directory ends in its one slash.
  by_cases hnil : names root = []
  · have htop : root = "/" := hroot.eq_of_names_eq (by decide) hnil
    rw [hnil, htop]
    exact iff_of_true hpath.isWithin_top List.nil_prefix
  · have hwithin := isWithin_absolute (Or.inl rfl) hnil (fun n hn => hroot.isName_of_mem hn)
      fun n hn => hpath.isName_of_mem hn
    rwa [← hpath.eq_absolute, ← hroot.eq_absolute] at hwithin

end IsRooted

/-- A root comes before the paths under it. -/
theorem isPartialOrder_isWithin :
    IsPartialOrder {path // IsRooted path} fun root path => isWithin path.1 root.1 = true where
  refl path := (path.2.isWithin_iff_names path.2).mpr List.prefix_rfl
  trans first second third h h' :=
    (third.2.isWithin_iff_names first.2).mpr
      (((second.2.isWithin_iff_names first.2).mp h).trans
        ((third.2.isWithin_iff_names second.2).mp h'))
  antisymm first second h h' := by
    have hforth := (second.2.isWithin_iff_names first.2).mp h
    have hback := (first.2.isWithin_iff_names second.2).mp h'
    exact Subtype.ext (first.2.eq_of_names_eq second.2
      (hforth.eq_of_length_le hback.length_le))

end RepoAtlas.Path
