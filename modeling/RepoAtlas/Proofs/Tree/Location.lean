import Mathlib.Data.List.Infix
import RepoAtlas.Proofs.Path.Normal
import RepoAtlas.Proofs.Tree.Descent
import RepoAtlas.Tree.Canonical

/-!
# `RepoAtlas.Proofs.Tree.Location`: where a repository stands

The root of a repository is opened under its canonical path, the absolute path of a place to which
real directories lead (`IsLocation`). A lookup below that path goes straight to the place and on from
there, and paths on which no link stands are canonical themselves.

* `IsLocation.trace_append`, `IsLocation.locate_eq`: lookups at and below a location.
* `canonical_absolute`: the canonical form of a path without links.
-/

set_option autoImplicit false

namespace RepoAtlas.Tree

open RepoAtlas.Path (IsName IsNormal absolute)

/-- The absolute path of a place. -/
def textOf (place : Place) : String :=
  absolute "/" place

/-- The text of a place is an absolute path. -/
theorem isAbsolute_textOf (place : Place) : Path.isAbsolute (textOf place) = true :=
  Path.isAbsolute_absolute (Or.inl rfl) place

/-- A place to which real directories lead, by names that a lookup takes. -/
structure IsLocation (tree : Tree) (place : Place) : Prop where
  names : ∀ n ∈ place, IsName n
  short : ∀ n ∈ place, n.utf8ByteSize ≤ maxName
  directories : ∀ front, front <+: place → tree.entry? front = some .directory

/-- Whether a place is a location can be computed, front by front. -/
theorem isLocation_iff {tree : Tree} {place : Place} : tree.IsLocation place ↔
    (∀ n ∈ place, IsName n) ∧ (∀ n ∈ place, n.utf8ByteSize ≤ maxName) ∧
      ∀ front ∈ place.inits, tree.entry? front = some .directory := by
  simp only [List.mem_inits]
  exact ⟨fun h => ⟨h.names, h.short, h.directories⟩, fun ⟨h₁, h₂, h₃⟩ => ⟨h₁, h₂, h₃⟩⟩

instance (tree : Tree) (place : Place) : Decidable (tree.IsLocation place) :=
  decidable_of_iff _ isLocation_iff.symm

/-- Names that meet no link on the way from a place. -/
def IsPlain (tree : Tree) (place : Place) (names : List String) : Prop :=
  ∀ front, front <+: names → ∀ target, tree.entry? (place ++ front) ≠ some (.link target)

/-- Below the first name no link stands either. -/
theorem IsPlain.tail {tree : Tree} {place : Place} {name : String} {rest : List String}
    (h : tree.IsPlain place (name :: rest)) : tree.IsPlain (place ++ [name]) rest := by
  intro front hfront target
  rw [List.append_assoc]
  exact h (name :: front) (List.cons_prefix_cons.mpr ⟨rfl, hfront⟩) target

section

variable {place : Place} (hnames : ∀ n ∈ place, IsName n)

include hnames

/-- The text of a place of proper names is in normal form. -/
theorem isNormal_textOf : IsNormal (textOf place) :=
  Path.isNormal_absolute (Or.inl rfl) hnames

/-- Joining a name gives the text of the place below. -/
theorem join_textOf {name : String} (hname : IsName name) :
    Path.join (textOf place) name = textOf (place ++ [name]) :=
  Path.join_absolute (Or.inl rfl) hnames hname

/-- The names of the text are those of the place. -/
theorem names_textOf : Path.names (textOf place) = place :=
  Path.filter_segments_absolute (Or.inl rfl) (fun n hn => (hnames n hn).isStep) rfl
    fun n hn => by simp [(hnames n hn).ne_empty, (hnames n hn).ne_here]

/-- A file named relative to a place lies at the place below. -/
theorem below_textOf {name : String} (hname : IsName name) :
    Path.below (textOf place) name = textOf (place ++ [name]) := by
  have hnormal : IsNormal (Path.join (textOf place) name) := (isNormal_textOf hnames).join hname
  unfold Path.below
  rw [hnormal.tidy_eq, join_textOf hnames hname]

/-- The parent of the text is the text of the place above. -/
theorem parent_textOf {name : String} (hname : IsName name) :
    Path.parent (textOf (place ++ [name])) = textOf place := by
  have hnames' : ∀ n ∈ place ++ [name], IsName n :=
    List.forall_mem_append.mpr ⟨hnames, List.forall_mem_singleton.mpr hname⟩
  unfold Path.parent Path.spell
  rw [names_textOf hnames', List.dropLast_concat, if_pos (isAbsolute_textOf _)]
  exact congrArg (· ++ "/".intercalate place)
    (Path.leadingSlashes_absolute (Or.inl rfl) fun n hn => (hnames' n hn).isStep)

/-- The last name of the text is the last one of the place. -/
theorem lastName_textOf {name : String} (hname : IsName name) :
    Path.lastName (textOf (place ++ [name])) = name := by
  have hnames' : ∀ n ∈ place ++ [name], IsName n :=
    List.forall_mem_append.mpr ⟨hnames, List.forall_mem_singleton.mpr hname⟩
  unfold Path.lastName
  rw [names_textOf hnames', List.getLastD_concat]

/-- A lookup of the text goes through the names of the place; at the top, through a blank one. -/
theorem lookupNames_textOf : lookupNames (textOf place) = if place = [] then [""] else place :=
  lookupNames_absolute (Or.inl rfl) fun n hn => (hnames n hn).isStep

end

/-- Places of proper names are told apart by their texts. -/
theorem textOf_inj {place place' : Place} (hnames : ∀ n ∈ place, IsName n)
    (hnames' : ∀ n ∈ place', IsName n) (h : textOf place = textOf place') : place = place' :=
  (Path.absolute_inj (Or.inl rfl) (Or.inl rfl) hnames hnames' h).2

/-! ### Lookups -/

/-- A lookup on which no link stands crosses none. -/
theorem follow_eq_advance {tree : Tree} {purpose : Purpose} {place : Place} {names : List String}
    (h : ∀ directory target rest,
      advance tree purpose place names ≠ .ok (.atLink directory target rest)) (links : Nat) :
    tree.follow purpose links place names = advance tree purpose place names := by
  unfold follow
  split
  · next hlink => exact absurd hlink (h _ _ _)
  · rfl

/-- A lookup on which no link stands, step by step. -/
theorem locate_of_no_link {tree : Tree} {path : String}
    (h : ∀ directory target rest,
      advance tree .use [] (lookupNames path) ≠ .ok (.atLink directory target rest)) :
    tree.locate path =
      if maxPath < path.utf8ByteSize then .error .nameTooLong
      else
        match advance tree .use [] (lookupNames path) with
        | .ok (.reached place) => .ok place
        | .ok _ => .error .notFound
        | .error fault => .error fault := by
  unfold locate trace
  by_cases hlong : maxPath < path.utf8ByteSize
  · rw [if_pos hlong, if_pos hlong]
  · have hfollow := follow_eq_advance h maxLinks
    rw [if_neg hlong, if_neg hlong]
    exact hfollow ▸ rfl

/-- Where no link stands, none is crossed. -/
theorem advance_ne_atLink {tree : Tree} {place : Place} {names : List String}
    (hnames : ∀ n ∈ names, IsName n) (hplain : tree.IsPlain place names) (directory : Place)
    (target : String) (rest : List String) :
    advance tree .use place names ≠ .ok (.atLink directory target rest) := by
  -- By induction on the names, none of which is a link where it is looked up.
  induction names generalizing place with
  | nil => exact fun h => nomatch h
  | cons name others ih =>
    obtain ⟨hname, hothers⟩ := List.forall_mem_cons.mp hnames
    have hentry := hplain [name] (by simp)
    rw [advance_cons (by decide)]
    simp only [hname.ne_empty, hname.ne_here, hname.ne_up, decide_false, Bool.or_false,
      Bool.false_eq_true, if_false]
    intro h
    split at h
    · split at h
      · cases h
      · split at h
        · split at h <;> cases h
        · next hlink => exact hentry _ hlink
        · exact ih hothers hplain.tail h
    · cases h

/-- Only links can be too many. -/
theorem advance_ne_tooManyLinks (tree : Tree) (place : Place) (names : List String) :
    advance tree .use place names ≠ .error .tooManyLinks := by
  -- A step by itself never counts links: only following one does.
  induction names generalizing place with
  | nil => exact fun h => nomatch h
  | cons name rest ih =>
    rw [advance_cons (by decide)]
    intro h
    split at h
    · split at h
      · exact ih _ h
      · split at h
        · exact ih _ h
        · split at h
          · cases h
          · split at h
            · split at h <;> cases h
            · split at h <;> cases h
            · exact ih _ h
    · cases h

/-- A path on which no link stands leads through no links. -/
theorem find_textOf_ne_tooManyLinks {tree : Tree} {place : Place} (hnames : ∀ n ∈ place, IsName n)
    (hplain : tree.IsPlain [] place) : tree.find (textOf place) ≠ .error .tooManyLinks := by
  -- Without a link on the way, the lookup is a single step.
  have hadvance : ∀ directory target rest, advance tree .use [] (lookupNames (textOf place))
      ≠ .ok (.atLink directory target rest) := by
    rw [lookupNames_textOf hnames]
    split
    · exact fun _ _ _ h => nomatch h
    · exact advance_ne_atLink hnames hplain
  have hnot := advance_ne_tooManyLinks tree [] (lookupNames (textOf place))
  intro h
  unfold find at h
  rw [locate_of_no_link hadvance] at h
  by_cases hlong : maxPath < (textOf place).utf8ByteSize
  · rw [if_pos hlong] at h
    cases h
  rw [if_neg hlong] at h
  generalize advance tree .use [] (lookupNames (textOf place)) = stop at h hnot
  rcases stop with fault | (found | _ | _)
  · rw [error_bind] at h
    cases h
    exact hnot rfl
  · rw [ok_bind] at h
    split at h <;> cases h
  · cases h
  · cases h

namespace IsLocation

variable {tree : Tree} {place : Place} (h : tree.IsLocation place)

include h

/-- At a location there is a directory. -/
theorem entry?_eq : tree.entry? place = some .directory :=
  h.directories place List.prefix_rfl

/-- Names lead straight to a location. -/
theorem advance_eq (purpose : Purpose) (hpurpose : purpose ≠ .write) :
    advance tree purpose [] place = .ok (.reached place) := by
  -- The induction is on the names that are still to be followed, from the place of the others.
  have hgo : ∀ back front, front ++ back = place →
      advance tree purpose front back = .ok (.reached place) := by
    intro back
    induction back with
    | nil =>
      intro front hsplit
      rw [List.append_nil] at hsplit
      rw [hsplit]
      rfl
    | cons name rest ih =>
      intro front hsplit
      have hmem : name ∈ place := by simp [← hsplit]
      have hname := h.names name hmem
      have hnext : front ++ [name] ++ rest = place := by simpa using hsplit
      rw [advance_cons hpurpose, h.directories front ⟨_, hsplit⟩]
      simp only [hname.ne_empty, hname.ne_here, hname.ne_up, decide_false, Bool.or_false,
        Bool.false_eq_true, if_false]
      rw [if_neg (Nat.not_lt.mpr (h.short name hmem)), h.directories (front ++ [name]) ⟨_, hnext⟩]
      exact ih _ hnext
  exact hgo place [] rfl

/-- A lookup of names after a location goes on from there. -/
theorem advance_append (tail : List String) :
    advance tree .use [] (place ++ tail) = advance tree .use place tail := by
  by_cases htail : tail = []
  · rw [htail, List.append_nil]
    exact h.advance_eq .use (by decide)
  · exact (Tree.advance_append (by decide) htail [] place).1 place (h.advance_eq .use (by decide))

/-- The path of a location leads to it, if it is short enough. -/
theorem locate_eq : tree.locate (textOf place) =
    if maxPath < (textOf place).utf8ByteSize then .error .nameTooLong else .ok place := by
  have hadvance : advance tree .use [] (lookupNames (textOf place)) = .ok (.reached place) := by
    rw [lookupNames_textOf h.names]
    split
    · next hnil =>
      rw [hnil]
      rfl
    · exact h.advance_eq .use (by decide)
  rw [locate_of_no_link (by rw [hadvance]; simp), hadvance]

/-- A location that is found has a path that is short enough. -/
theorem room_of_find {entry : Entry} (hfind : tree.find (textOf place) = .ok entry) :
    (textOf place).utf8ByteSize ≤ maxPath := by
  obtain ⟨found, hfound, -⟩ := find_eq_ok_iff.mp hfind
  rw [h.locate_eq] at hfound
  split at hfound
  · cases hfound
  · next hshort => exact Nat.not_lt.mp hshort

/-- What stands directly below a location, links apart, is found there. -/
theorem find_child (hroom : (textOf place).utf8ByteSize ≤ maxPath) {name : String}
    (hname : IsName name) (hshort : ¬TooLong (textOf place) name)
    (hlink : ∀ target, tree.entry? (place ++ [name]) ≠ some (.link target)) :
    tree.find (textOf (place ++ [name])) =
      match tree.entry? (place ++ [name]) with
      | some entry => .ok entry
      | none => .error .notFound := by
  have hplace : tree.locate (textOf place) = .ok place := by
    rw [h.locate_eq, if_neg (Nat.not_lt.mpr hroom)]
  -- The name is the last step, so only the entry there matters.
  have htrace := trace_join_of_not_link (by decide : Purpose.use ≠ .write)
    (isNormal_textOf h.names) hplace h.entry?_eq hname (Or.inr hlink)
  rw [if_neg hshort, join_textOf h.names hname] at htrace
  unfold find locate
  rw [htrace]
  cases hentry : tree.entry? (place ++ [name]) with
  | none => rfl
  | some entry =>
    rw [if_neg (Option.some_ne_none entry)]
    simp only [ok_bind, hentry]
    rfl

end IsLocation

/-! ### Canonical paths -/

/-- The place of a spot from the top is what its names say. -/
theorem Spot.place_of_fromTop (directory : Place) {names : List String}
    (hnames : ∀ n ∈ names, IsName n) : Spot.place directory ⟨true, names⟩ = names := by
  -- Names are put one behind the other, since none of them goes up.
  have hfold : ∀ (back : List String), (∀ n ∈ back, IsName n) → ∀ front : Place,
      back.foldl (fun place name => if name = ".." then place.dropLast else place ++ [name]) front
        = front ++ back := by
    intro back
    induction back with
    | nil =>
      intro _ front
      rw [List.append_nil]
      rfl
    | cons name rest ih =>
      intro hback front
      obtain ⟨hname, hrest⟩ := List.forall_mem_cons.mp hback
      rw [List.foldl_cons, if_neg hname.ne_up, ih hrest, List.append_assoc, List.singleton_append]
  exact hfold names hnames []

/-- Names on which no link stands resolve to themselves. -/
theorem resolveWith_plain {tree : Tree} (directory : Place)
    (enter : List Spot → Spot → List String → Resolution) (active : List Spot)
    {front names : List String} (hfront : ∀ n ∈ front, IsName n) (hnames : ∀ n ∈ names, IsName n)
    (hplain : tree.IsPlain front names) :
    tree.resolveWith directory enter active ⟨true, front⟩ names
      = .reached ⟨true, front ++ names⟩ := by
  induction names generalizing front with
  | nil =>
    rw [List.append_nil]
    rfl
  | cons name rest ih =>
    obtain ⟨hname, hrest⟩ := List.forall_mem_cons.mp hnames
    have hnext : ∀ n ∈ front ++ [name], IsName n :=
      List.forall_mem_append.mpr ⟨hfront, List.forall_mem_singleton.mpr hname⟩
    have hentry : ∀ target, tree.entry? (front ++ [name]) ≠ some (.link target) :=
      hplain [name] (by simp)
    have hgo := ih hnext hrest hplain.tail
    rw [List.append_assoc, List.singleton_append] at hgo
    unfold resolveWith
    rw [if_neg (not_or.mpr ⟨hname.ne_empty, hname.ne_here⟩), if_neg hname.ne_up]
    -- No link stands here, so the name is kept.
    simp only [Spot.down, Spot.place_of_fromTop directory hnext]
    exact hgo

/-- Blank names are passed over when a path is resolved. -/
theorem resolveWith_blanks {tree : Tree} (directory : Place)
    (enter : List Spot → Spot → List String → Resolution) (active : List Spot) (spot : Spot)
    {blanks : List String} (hblanks : ∀ n ∈ blanks, n = "") (names : List String) :
    tree.resolveWith directory enter active spot (blanks ++ names)
      = tree.resolveWith directory enter active spot names := by
  induction blanks with
  | nil => rfl
  | cons name rest ih =>
    obtain ⟨rfl, hrest⟩ := List.forall_mem_cons.mp hblanks
    rw [List.cons_append, resolveWith, if_pos (Or.inl rfl), ih hrest]

/-- A path on which no link stands is its own canonical form. -/
theorem canonical_textOf {tree : Tree} (directory : Place) {place : Place}
    (hnames : ∀ n ∈ place, IsName n) (hplain : tree.IsPlain [] place) :
    tree.canonical directory (textOf place) = textOf place := by
  obtain ⟨blanks, hblanks, hsegments⟩ := Path.segments_absolute (Or.inl rfl) fun n hn => (hnames n hn).isStep
  have habsolute := isAbsolute_textOf place
  -- Without a link on the way, resolving needs no nesting at all.
  have hresolve : ∀ nested, tree.resolveNames directory nested [] Spot.top
      (Path.segments (textOf place)) = .reached ⟨true, place⟩ := by
    intro nested
    have hgo := fun enter => resolveWith_plain directory enter []
      (fun n hn => absurd hn List.not_mem_nil) hnames hplain
    unfold textOf
    rw [hsegments]
    cases nested with
    | zero => rw [resolveNames, resolveWith_blanks directory _ _ _ hblanks, Spot.top, hgo]; rfl
    | succ nested => rw [resolveNames, resolveWith_blanks directory _ _ _ hblanks, Spot.top, hgo]; rfl
  have htext : Spot.text ⟨true, place⟩ = textOf place := rfl
  unfold canonical
  dsimp only
  rw [if_pos habsolute, hresolve]
  dsimp only
  rw [htext, Path.join, if_pos habsolute]
  exact isNormal_textOf hnames

end RepoAtlas.Tree
