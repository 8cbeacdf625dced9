import RepoAtlas.Path.Relative
import RepoAtlas.Proofs.Path.Containment
import RepoAtlas.Proofs.Path.Staying

/-!
# `RepoAtlas.Proofs.Path.Hints`: the way that is shown for a path leads there

A path is shown as the way to it from a root: up to the last directory on the way to both, by one
`..` for each name of the root that is left, and down by the names of the path that are left.
Followed on the stack of names of the root, the steps up take off what `dropCommon` leaves of the
root, and the names put on what it leaves of the path, so the way ends at the path.

* `exists_way`: all that there is to know about a way.
* `landing_way`: where it ends.
* `exists_hint`: a path other than the root is shown by a way that leads to it.
* `hints_lead_back`: hence no two paths are shown alike.
-/

set_option autoImplicit false

namespace RepoAtlas.Path

/-! ### What is left of two lists of names -/

/-- Two lists of names part after what they have in common. -/
theorem exists_common (down up : List String) :
    ∃ common, down = common ++ (dropCommon down up).1 ∧ up = common ++ (dropCommon down up).2 := by
  fun_induction dropCommon down up with
  | case1 down name up ih =>
    obtain ⟨common, hdown, hup⟩ := ih
    exact ⟨name :: common, congrArg _ hdown, congrArg _ hup⟩
  | case2 => exact ⟨[], rfl, rfl⟩
  | case3 => exact ⟨[], rfl, rfl⟩

/-- Nothing is left of a list exactly if the other one goes on from it. -/
theorem dropCommon_snd_eq_nil_iff (down up : List String) :
    (dropCommon down up).2 = [] ↔ up <+: down := by
  -- The cases of the recursion: equal names are dropped, different ones end it.
  fun_induction dropCommon down up with
  | case1 down name up ih => rw [ih, List.cons_prefix_cons, and_iff_right rfl]
  | case2 name down other up hne =>
    refine iff_of_false (List.cons_ne_nil _ _) fun hstarts => hne ?_
    exact (List.cons_prefix_cons.mp hstarts).1.symm
  | case3 down up hshort =>
    cases up with
    | nil => exact iff_of_true rfl List.nil_prefix
    | cons other up =>
      cases down with
      | nil => simp
      | cons name down => exact absurd rfl (hshort name down other up rfl)

/-! ### Ways -/

/-- A way goes up from the names of the root to those it has in common with the path, and down from
there. It need not go up exactly if the path goes on from the root. -/
theorem exists_way (path root : String) :
    ∃ common down up, normalNames path = common ++ down ∧ normalNames root = common ++ up ∧
      wayNames path root = (up.map fun _ => "..") ++ down ∧
      (up = [] ↔ normalNames root <+: normalNames path) := by
  obtain ⟨common, hdown, hup⟩ := exists_common (normalNames path) (normalNames root)
  exact ⟨common, _, _, hdown, hup, rfl, dropCommon_snd_eq_nil_iff _ _⟩

/-- Each step up takes a name off the stack. -/
theorem foldl_push_ups {up front : List String} (h : front.length = up.length)
    (stack : List String) : (up.map fun _ => "..").foldl push (front ++ stack) = stack := by
  -- Which names lie on top does not matter, so they vary along with the steps.
  induction up generalizing front with
  | nil => rw [List.length_eq_zero_iff.mp h]; rfl
  | cons name rest ih =>
    obtain ⟨first, front, rfl⟩ := List.exists_cons_of_length_eq_add_one h
    have hpush : push (first :: front ++ stack) ".." = front ++ stack := rfl
    rw [List.map_cons, List.foldl_cons, hpush]
    exact ih (by simpa using h)

variable {path root : String}

/-- A way consists of steps up and proper names. -/
theorem up_or_isName_of_mem_wayNames {step : String} (h : step ∈ wayNames path root) :
    step = ".." ∨ IsName step := by
  obtain ⟨common, down, up, hpath, -, hway, -⟩ := exists_way path root
  rw [hway] at h
  rcases List.mem_append.mp h with hup | hdown
  · obtain ⟨_, -, rfl⟩ := List.mem_map.mp hup
    exact Or.inl rfl
  · refine Or.inr (@isName_of_mem_normalNames path step ?_)
    rw [hpath]
    exact List.mem_append_right _ hdown

/-- The names of a way between two paths are steps. -/
theorem isStep_of_mem_wayNames {step : String} (h : step ∈ wayNames path root) : IsStep step := by
  rcases up_or_isName_of_mem_wayNames h with rfl | hname
  · exact ⟨by decide, by decide⟩
  · exact hname.isStep

/-- Where a way ends that starts at the root. -/
theorem landing_way {way : String} (h : segments way = wayNames path root) :
    landing (normalNames root) way = normalNames path := by
  obtain ⟨common, down, up, hpath, hroot, hway, -⟩ := exists_way path root
  have hdown : ∀ n ∈ down, IsName n := fun n hn =>
    @isName_of_mem_normalNames path n (hpath ▸ List.mem_append_right _ hn)
  rw [landing, h, hway, hroot, List.reverse_append, List.foldl_append,
    foldl_push_ups (List.length_reverse), foldl_push_names hdown, hpath, List.reverse_append,
    List.reverse_reverse, List.reverse_reverse]

/-- A way starts with a step up exactly if the path does not go on from the root. -/
theorem head?_wayNames_iff :
    (wayNames path root).head? = some ".." ↔ ¬normalNames root <+: normalNames path := by
  obtain ⟨common, down, up, hpath, -, hway, hnil⟩ := exists_way path root
  rw [← hnil, hway]
  cases up with
  | cons name rest => exact iff_of_true rfl (List.cons_ne_nil _ _)
  | nil =>
    -- Without steps up the way starts with a name of the path, and `..` is none.
    refine iff_of_false (fun hhead => ?_) (not_not_intro rfl)
    have hmem : ".." ∈ normalNames path := by
      rw [hpath]
      exact List.mem_append_right _ (List.mem_of_mem_head? hhead)
    exact (isName_of_mem_normalNames hmem).ne_up rfl

/-! ### Hints -/

/-- A text that shows a path: it leads from the root to the path, and climbs only if the path does
not lie within the root. -/
structure LeadsTo (root path hint : String) : Prop where
  ne_empty : hint ≠ ""
  relative : isAbsolute hint = false
  resolves : resolveUnder root hint = path
  climbs_iff : (segments hint).head? = some ".." ↔ isWithin path root = false

/-- A path other than the root is shown by a way that leads to it. -/
theorem exists_hint (hpath : IsRooted path) (hroot : IsRooted root) (hne : path ≠ root) :
    ∃ hint, hint? path root = some hint ∧ LeadsTo root path hint := by
  have hnames := hpath.normal.names_eq
  have hnames' := hroot.normal.names_eq
  have hsteps : ∀ n ∈ wayNames path root, IsStep n := fun n hn => isStep_of_mem_wayNames hn
  have hnil : wayNames path root ≠ [] := by
    intro hnil
    obtain ⟨common, down, up, hdown, hup, hway, -⟩ := exists_way path root
    rw [hnil, eq_comm, List.append_eq_nil_iff, List.map_eq_nil_iff] at hway
    refine hne (hpath.eq_of_names_eq hroot ?_)
    rw [hnames, hnames', hdown, hup, hway.1, hway.2]
  have hsegments := segments_intercalate hnil fun n hn => (hsteps n hn).no_slash
  have hempty : path ≠ "" := by
    rw [hpath.eq_absolute]
    exact absolute_ne_empty (Or.inl rfl) _
  -- The way is not mistaken for that to the root itself, which is shown by its last name.
  have hhere : "/".intercalate (wayNames path root) ≠ "." := by
    intro heq
    rw [heq] at hsegments
    have hmem : "." ∈ wayNames path root := by
      rw [← hsegments]
      decide
    exact (up_or_isName_of_mem_wayNames hmem).elim (by decide) fun hname => hname.ne_here rfl
  have hrelative : isAbsolute ("/".intercalate (wayNames path root)) = false :=
    decide_eq_false (head?_intercalate_ne_slash hsteps)
  refine ⟨"/".intercalate (wayNames path root), ?_, ?_, hrelative, ?_, ?_⟩
  · rw [hint?, relative?, if_neg hempty, Option.map_some]
    simp only [List.isEmpty_iff, if_neg hnil, if_neg hhere]
  · intro heq
    rw [heq] at hsegments
    have hmem : "" ∈ wayNames path root := by
      rw [← hsegments]
      decide
    exact (hsteps _ hmem).ne_empty rfl
  · have hjoin := normalize_join_absolute (Or.inl rfl) (fun n hn => hroot.isName_of_mem hn)
      hrelative
    rw [← hroot.eq_absolute, hnames', landing_way hsegments, ← hnames, ← hpath.eq_absolute] at hjoin
    rw [resolveUnder, hrelative, if_neg Bool.false_ne_true]
    exact hjoin
  · rw [hsegments, head?_wayNames_iff, ← hnames, ← hnames', ← hpath.isWithin_iff_names hroot,
      Bool.not_eq_true]

/-- A path other than the root is shown by a text that leads to it, and no other path is shown by
this text. -/
theorem hints_lead_back (hpath : IsRooted path) (hroot : IsRooted root) (hne : path ≠ root) :
    ∃ hint, hint? path root = some hint ∧ LeadsTo root path hint ∧
      ∀ other, IsRooted other → other ≠ root → other ≠ path → hint? other root ≠ some hint := by
  obtain ⟨hint, hhint, hleads⟩ := exists_hint hpath hroot hne
  refine ⟨hint, hhint, hleads, fun other hother hother' hdiffers hsame => ?_⟩
  obtain ⟨hint', hhint', hleads'⟩ := exists_hint hother hroot hother'
  obtain rfl : hint' = hint := Option.some.inj (hhint'.symm.trans hsame)
  exact hdiffers (hleads'.resolves.symm.trans hleads.resolves)

/-- The way to a neighbour, whose text starts like that of the root. -/
theorem hints_lead_back_neighbour :
    IsRooted "/r/app-web/x" ∧ IsRooted "/r/app" ∧
      hint? "/r/app-web/x" "/r/app" = some "../app-web/x" ∧
      LeadsTo "/r/app" "/r/app-web/x" "../app-web/x" ∧
      hint? "/r/app/app-web/x" "/r/app" ≠ some "../app-web/x" := by
  have hpath : IsRooted "/r/app-web/x" := by decide
  have hroot : IsRooted "/r/app" := by decide
  obtain ⟨hint, hhint, hleads, hother⟩ := hints_lead_back hpath hroot (by decide)
  obtain rfl : hint = "../app-web/x" := Option.some.inj (hhint.symm.trans (by decide))
  exact ⟨hpath, hroot, hhint, hleads, hother "/r/app/app-web/x" (by decide) (by decide) (by decide)⟩

end RepoAtlas.Path
