import RepoAtlas.Path.Relative
import RepoAtlas.Proofs.Path.Components

/-!
# `RepoAtlas.Proofs.Path.Staying`: relative paths that stay below where they start

Read step by step, a relative path leads down by names and up by `..`. One that never leads above
where it starts (`stays`) leads to the same names below every root, so nothing about the names of
the root itself can matter to it.

* `foldl_push_append`: steps that stay leave what is under the stack alone.
* `normalize_join_absolute`: where a relative path leads from a directory below a root.
* `below_absolute`: how it is spelled there.
* `relative?_absolute`, `hint?_absolute`: how a path below a root is shown.
-/

set_option autoImplicit false

namespace RepoAtlas.Path

open RepoAtlas.Text

/-- Whether steps that start at a depth never lead above depth zero. -/
def stays : (depth : Nat) → (steps : List String) → Bool
  | _, [] => true
  | depth, step :: rest =>
    if step = "" ∨ step = "." then stays depth rest
    else if step = ".." then
      match depth with
      | 0 => false
      | depth + 1 => stays depth rest
    else stays (depth + 1) rest

/-- A path that is relative and stays below where it starts. -/
structure StaysBelow (path : String) : Prop where
  relative : isAbsolute path = false
  stays : stays 0 (segments path) = true

instance (path : String) : Decidable (StaysBelow path) :=
  decidable_of_iff (isAbsolute path = false ∧ Path.stays 0 (segments path) = true)
    ⟨fun ⟨h₁, h₂⟩ => ⟨h₁, h₂⟩, fun h => ⟨h.relative, h.stays⟩⟩

/-- The names to which a path leads from below a root, if it stays there. -/
def landing (front : List String) (path : String) : List String :=
  ((segments path).foldl push front.reverse).reverse

/-! ### Steps -/

/-- Steps that stay above a part of the stack leave that part alone. -/
theorem foldl_push_append {steps stack : List String} (h : stays stack.length steps = true)
    (base : List String) : steps.foldl push (stack ++ base) = steps.foldl push stack ++ base := by
  induction steps generalizing stack with
  | nil => rfl
  | cons step rest ih =>
    rw [List.foldl_cons, List.foldl_cons]
    unfold stays at h
    by_cases hblank : step = "" ∨ step = "."
    · rw [if_pos hblank] at h
      rw [push, push, if_pos hblank, if_pos hblank]
      exact ih h
    rw [if_neg hblank] at h
    by_cases hup : step = ".."
    · rw [if_pos hup] at h
      rw [push, push, if_neg hblank, if_neg hblank, if_pos hup, if_pos hup]
      -- The way up takes a name of its own stack, since there is one.
      cases stack with
      | nil => cases h
      | cons name below => exact ih h
    · rw [if_neg hup] at h
      rw [push, push, if_neg hblank, if_neg hblank, if_neg hup, if_neg hup]
      exact @ih (step :: stack) h

/-- Proper names only lead down. -/
theorem stays_of_names {names : List String} (h : ∀ n ∈ names, IsName n) (depth : Nat) :
    stays depth names = true := by
  induction names generalizing depth with
  | nil => rfl
  | cons name rest ih =>
    obtain ⟨hname, hrest⟩ := List.forall_mem_cons.mp h
    unfold stays
    rw [if_neg (not_or.mpr ⟨hname.ne_empty, hname.ne_here⟩), if_neg hname.ne_up]
    exact ih hrest (depth + 1)

/-- Steps that do not move do not count. -/
theorem stays_filter (depth : Nat) (steps : List String) :
    stays depth (steps.filter fun step => step ≠ "" && step ≠ ".") = stays depth steps := by
  induction steps generalizing depth with
  | nil => rfl
  | cons step rest ih =>
    -- A blank step keeps the depth, so leaving it out changes nothing.
    by_cases hblank : step = "" ∨ step = "."
    · have hdrop : ¬((step ≠ "" && step ≠ ".") = true) := by
        rcases hblank with rfl | rfl <;> decide
      rw [List.filter_cons, if_neg hdrop, ih]
      conv => rhs; unfold stays
      rw [if_pos hblank]
    · have hkeep : (step ≠ "" && step ≠ ".") = true := by
        rw [not_or] at hblank
        simp [hblank]
      rw [List.filter_cons, if_pos hkeep]
      unfold stays
      rw [if_neg hblank, if_neg hblank, ih]
      cases depth with
      | zero => rfl
      | succ depth => simp only [ih depth]

/-- The names of a path are steps. -/
theorem isStep_of_mem_names {path name : String} (h : name ∈ names path) : IsStep name := by
  obtain ⟨hmem, hkept⟩ := List.mem_filter.mp h
  rw [Bool.and_eq_true, decide_eq_true_eq] at hkept
  exact ⟨hkept.1, no_slash_of_mem_segments hmem⟩

/-- Names stay names when steps are taken from them. -/
theorem isName_of_mem_landing {front : List String} (hfront : ∀ n ∈ front, IsName n)
    {path name : String} (h : name ∈ landing front path) : IsName name :=
  isName_of_mem_foldl_push (segments path) (fun _ => no_slash_of_mem_segments) front.reverse
    (fun n hn => hfront n (List.mem_reverse.mp hn)) name (List.mem_reverse.mp h)

/-- A name with something after it is a name. -/
theorem IsName.append {name rest : String} (h : IsName name) (hrest : '/' ∉ rest.toList)
    (hlength : 2 ≤ rest.length) : IsName (name ++ rest) := by
  have hpos : 0 < name.length := by
    rw [Nat.pos_iff_ne_zero]
    exact fun hzero => h.ne_empty (String.length_eq_zero_iff.mp hzero)
  -- With two characters more it is longer than every path component that is no name.
  have hlong : 2 < (name ++ rest).length := by
    rw [String.length_append]
    omega
  have hne : ∀ other : String, other.length ≤ 2 → name ++ rest ≠ other := by
    intro other hother heq
    rw [heq] at hlong
    omega
  refine ⟨hne "" (by decide), hne "." (by decide), hne ".." (by decide), ?_⟩
  rw [String.toList_append, List.mem_append, not_or]
  exact ⟨h.no_slash, hrest⟩

/-! ### Continuing an absolute path -/

section

variable {lead : String} (hlead : IsLead lead) {names : List String} (h : ∀ n ∈ names, IsName n)

include hlead h

/-- Where a relative path leads from an absolute one. -/
theorem normalize_join_absolute {path : String} (hpath : isAbsolute path = false) :
    normalize (join (absolute lead names) path) = absolute lead (landing names path) := by
  rw [normalize_eq_absolute, leadingSlashes_join _ hpath, normalNames_join _ hpath,
    leadingSlashes_absolute hlead fun n hn => (h n hn).isStep, normalNames_absolute hlead h]
  rfl

/-- How a relative path below an absolute one is spelled. -/
theorem below_absolute {path : String} (hpath : isAbsolute path = false) :
    below (absolute lead names) path = absolute lead (names ++ Path.names path) := by
  have habsolute := isAbsolute_join (isAbsolute_absolute hlead names) path
  rw [below, tidy, spell, if_pos habsolute, leadingSlashes_join _ hpath, names_join _ hpath,
    leadingSlashes_absolute hlead fun n hn => (h n hn).isStep, (isNormal_absolute hlead h).names_eq,
    normalNames_absolute hlead h]
  rfl

end

/-- Where a relative path leads that stays below a root. -/
theorem landing_append (base front : List String) {path : String}
    (h : stays front.length (segments path) = true) :
    landing (base ++ front) path = base ++ landing front path := by
  unfold landing
  rw [List.reverse_append, foldl_push_append (by rwa [List.length_reverse]), List.reverse_append,
    List.reverse_reverse]

/-- The directory of a path drops its last name. -/
theorem directoryName_absolute {lead : String} (hlead : IsLead lead) {front : List String}
    (hfront : ∀ n ∈ front, IsName n) {name : String} (hname : IsName name) :
    directoryName (absolute lead (front ++ [name])) = absolute lead front := by
  -- The name goes up to the last slash, since it has none itself.
  have hdrop : ∀ before : String, before.toList.getLast? = some '/' →
      ((before ++ name).toList.reverse.dropWhile (· ≠ '/')).reverse = before.toList := by
    intro before hlast
    have hall : ∀ c ∈ name.toList.reverse, decide (c ≠ '/') = true := by
      intro c hc
      exact decide_eq_true fun heq => hname.no_slash (heq ▸ List.mem_reverse.mp hc)
    obtain ⟨init, hinit⟩ := List.getLast?_eq_some_iff.mp hlast
    rw [String.toList_append, List.reverse_append, List.dropWhile_append_of_pos hall, hinit,
      List.reverse_append, List.reverse_singleton, List.singleton_append,
      List.dropWhile_cons_of_neg (by decide), List.reverse_cons, List.reverse_reverse]
  unfold directoryName
  rw [absolute_concat]
  -- Directly below the top only slashes are left, and they stay; otherwise the last slash is
  -- dropped.
  by_cases hnil : front = []
  · have hlast : lead.toList.getLast? = some '/' := by
      rcases hlead with rfl | rfl <;> decide
    have hslashes : lead.toList.all (· = '/') = true := by
      rcases hlead with rfl | rfl <;> decide
    simp only [if_pos hnil, hdrop lead hlast]
    rw [if_pos hslashes, String.ofList_toList, hnil, absolute, String.intercalate_nil,
      String.append_empty]
  · have hend : (absolute lead front).toList.getLast? ≠ some '/' :=
      mt (getLast?_absolute hlead fun n hn => (hfront n hn).isStep).mp hnil
    have hlast : (absolute lead front ++ "/").toList.getLast? = some '/' := by
      rw [String.toList_append]
      exact List.getLast?_concat
    have hne : (absolute lead front).toList ≠ [] := fun hempty =>
      absolute_ne_empty hlead front (String.toList_eq_nil_iff.mp hempty)
    have hother : ¬((absolute lead front ++ "/").toList.all (· = '/') = true) := by
      intro hall
      rw [String.toList_append, List.all_append, Bool.and_eq_true, List.all_eq_true] at hall
      have hslash := hall.1 _ (List.getLast_mem hne)
      exact hend (by rw [List.getLast?_eq_some_getLast hne, of_decide_eq_true hslash])
    have hfinal : dropFinalSlashes (absolute lead front ++ "/").toList
        = (absolute lead front).toList := by
      rw [String.toList_append]
      show ((((absolute lead front).toList ++ ['/']).reverse).dropWhile (· = '/')).reverse = _
      rw [List.reverse_append, List.reverse_singleton, List.singleton_append,
        List.dropWhile_cons_of_pos (by decide)]
      exact dropFinalSlashes_of_getLast? hend
    simp only [if_neg hnil, hdrop _ hlast]
    rw [if_neg hother, hfinal, String.ofList_toList]

/-! ### Paths as seen from a root -/

/-- What a path has in common with one above it is that path. -/
theorem dropCommon_append (front below : List String) :
    dropCommon (front ++ below) front = (below, []) := by
  induction front with
  | nil => cases below <;> rfl
  | cons name rest ih =>
    rw [List.cons_append, dropCommon, if_pos rfl]
    exact ih

section

variable {lead : String} (hlead : IsLead lead) {names below : List String}
  (h : ∀ n ∈ names, IsName n) (hbelow : ∀ n ∈ below, IsName n) (hne : below ≠ [])

include hlead h hbelow hne

/-- A path below a root is seen as the names that it adds. -/
theorem relative?_absolute :
    relative? (absolute lead (names ++ below)) (absolute lead names)
      = some ("/".intercalate below) := by
  have hall : ∀ n ∈ names ++ below, IsName n := List.forall_mem_append.mpr ⟨h, hbelow⟩
  have hway : wayNames (absolute lead (names ++ below)) (absolute lead names) = below := by
    rw [wayNames, normalNames_absolute hlead hall, normalNames_absolute hlead h, dropCommon_append]
    rfl
  unfold relative?
  rw [if_neg (absolute_ne_empty hlead _), hway]
  show some (if below.isEmpty = true then "." else "/".intercalate below) = _
  rw [if_neg (by simpa using hne)]

/-- The hint of a path below a root is the way from there. -/
theorem hint?_absolute :
    hint? (absolute lead (names ++ below)) (absolute lead names)
      = some ("/".intercalate below) := by
  -- The names do not spell the path that stands for the root itself.
  have hhere : "/".intercalate below ≠ "." := by
    intro heq
    have hsegments := segments_intercalate hne fun n hn => (hbelow n hn).no_slash
    rw [heq] at hsegments
    have hmem : "." ∈ below := by
      rw [← hsegments]
      decide
    exact (hbelow "." hmem).ne_here rfl
  unfold hint?
  rw [relative?_absolute hlead h hbelow hne, Option.map_some, if_neg hhere]

end

end RepoAtlas.Path
