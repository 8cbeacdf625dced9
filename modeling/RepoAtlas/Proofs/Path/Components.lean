import RepoAtlas.Proofs.Path.Spelling

/-!
# `RepoAtlas.Proofs.Path.Components`: normal forms from components

The components of a path are what stands between its slashes, empty ones included. The normal form
keeps them one after the other, first name first (`keep`), behind the slashes that the path starts
with. Names that are kept stay kept, so a path can be put into normal form before it is continued.

* `existsUnique_areComponents`: a path has its components in one way only.
* `normalize_eq_kept`: the normal form is what is kept of the components.
* `segments_join`, `names_join`, `normalNames_join`: what a path is continued by comes behind it.
* `normalize_join_normalize`: continuing the normal form of a path continues the path.
* `normalize_keeps_components`: normal forms as texts, and what they are continued by.
-/

set_option autoImplicit false

namespace RepoAtlas.Path

open RepoAtlas.Text

/-- The components of a path: texts without slashes that slashes join to the path. -/
structure AreComponents (components : List String) (path : String) : Prop where
  filled : components ≠ []
  no_slash : ∀ c ∈ components, '/' ∉ c.toList
  joined : "/".intercalate components = path

/-- What is kept after one more component: nothing new of an empty one and of `.`, one name less of
`..` if there is one, the component as a name otherwise. -/
def keep (kept : List String) (component : String) : List String :=
  if component = "" ∨ component = "." then kept
  else if component = ".." then kept.dropLast
  else kept ++ [component]

/-- The slashes that stay in front: two if the path starts with exactly two. -/
def frontSlashes (path : String) : String :=
  if "//".toList <+: path.toList ∧ ¬"///".toList <+: path.toList then "//" else "/"

variable {path continuation : String} {components : List String}

/-! ### Components -/

/-- Putting a slash between pieces is joining them with it. -/
theorem toList_intercalate_ofList (pieces : List (List Char)) :
    ("/".intercalate (pieces.map String.ofList)).toList = joinWith '/' pieces := by
  induction pieces with
  | nil => rfl
  | cons piece rest ih =>
    cases rest with
    | nil => rw [List.map_singleton, String.intercalate_singleton, joinWith, String.toList_ofList]
    | cons next rest =>
      rw [List.map_cons] at ih
      rw [List.map_cons, List.map_cons, toList_intercalate_cons, ih, joinWith, String.toList_ofList]
      rfl

/-- The segments of a path are components of it. -/
theorem areComponents_segments (path : String) : AreComponents (segments path) path where
  filled h := splitAt_ne_nil '/' path.toList (List.map_eq_nil_iff.mp h)
  no_slash _ := no_slash_of_mem_segments
  joined := by
    rw [← String.toList_inj, segments, toList_intercalate_ofList, joinWith_splitAt]

/-- There are no other components of it. -/
theorem AreComponents.eq_segments (h : AreComponents components path) :
    components = segments path := by
  rw [← h.joined, segments_intercalate h.filled h.no_slash]

/-- A path has one list of components. -/
theorem existsUnique_areComponents (path : String) :
    ∃! components, AreComponents components path :=
  ⟨segments path, areComponents_segments path, fun _ h => h.eq_segments⟩

/-! ### The normal form -/

/-- Pushing on a stack is keeping at the end of the reversed list. -/
theorem reverse_push (stack : List String) (component : String) :
    (push stack component).reverse = keep stack.reverse component := by
  unfold push keep
  split
  · rfl
  · split
    · exact List.dropLast_reverse.symm
    · exact List.reverse_cons

/-- So it is for all components one after the other. -/
theorem reverse_foldl_push (components stack : List String) :
    (components.foldl push stack).reverse = components.foldl keep stack.reverse := by
  -- The stack grows at its head and the list at its end; the components are taken in turn.
  induction components generalizing stack with
  | nil => rfl
  | cons component rest ih => rw [List.foldl_cons, List.foldl_cons, ih, reverse_push]

/-- Two leading slashes stay two, any other number becomes one. -/
theorem leadingSlashes_eq_frontSlashes (path : String) :
    leadingSlashes path = frontSlashes path := by
  unfold leadingSlashes frontSlashes
  split
  · next rest h =>
    -- Three slashes, exactly two, or none or one.
    have hthree : "///".toList <+: path.toList := ⟨rest, h.symm⟩
    rw [if_neg fun hfront => hfront.2 hthree]
  · next rest hthree h =>
    have hnot : ¬"///".toList <+: path.toList := by
      rintro ⟨back, hback⟩
      have hrest : '/' :: '/' :: '/' :: back = '/' :: '/' :: rest := hback.trans h
      exact hthree back (List.cons.inj (List.cons.inj hrest).2).2.symm
    rw [if_pos ⟨⟨rest, h.symm⟩, hnot⟩]
  · next htwo =>
    have hnot : ¬"//".toList <+: path.toList := by
      rintro ⟨back, hback⟩
      exact htwo back hback.symm
    rw [if_neg fun hfront => hnot hfront.1]

/-- The normal form is what is kept of the components, behind the slashes in front. -/
theorem normalize_eq_kept (h : AreComponents components path) :
    normalize path = frontSlashes path ++ "/".intercalate (components.foldl keep []) := by
  rw [normalize, leadingSlashes_eq_frontSlashes, normalNames, reverse_foldl_push, h.eq_segments]
  rfl

/-! ### Continuing a path -/

/-- A path is continued as it is if it ends in a slash, and after a slash if not. -/
theorem join_cases (path : String) (h : isAbsolute continuation = false) :
    (join path continuation = path ++ continuation ∧
        (path = "" ∨ ∃ front, path = front ++ "/")) ∨
      (join path continuation = path ++ "/" ++ continuation ∧
        path ≠ "" ∧ path.toList.getLast? ≠ some '/') := by
  unfold join
  rw [h, if_neg Bool.false_ne_true]
  by_cases hend : path = "" ∨ path.toList.getLast? = some '/'
  · rw [if_pos (by simpa using hend)]
    refine Or.inl ⟨rfl, hend.imp_right fun hlast => ?_⟩
    obtain ⟨front, hfront⟩ := List.getLast?_eq_some_iff.mp hlast
    exact ⟨String.ofList front, by rw [← String.toList_inj, hfront]; simp⟩
  · rw [if_neg (by simpa using hend)]
    exact Or.inr ⟨rfl, not_or.mp hend⟩

/-- The components of a continued path are its own and those of the continuation. An empty one may be
left out in between. -/
theorem segments_join (path : String) (h : isAbsolute continuation = false) :
    segments (join path continuation) = segments path ++ segments continuation ∨
      ∃ front, segments path = front ++ [""] ∧
        segments (join path continuation) = front ++ segments continuation := by
  rcases join_cases path h with ⟨hjoin, rfl | ⟨front, rfl⟩⟩ | ⟨hjoin, -⟩
  · rw [hjoin, String.empty_append]
    exact Or.inr ⟨[], rfl, rfl⟩
  · -- The slash at the end of the path has an empty component behind it, which goes.
    have hfront := segments_append_slash front ""
    rw [String.append_empty] at hfront
    rw [hjoin, segments_append_slash]
    exact Or.inr ⟨segments front, hfront, rfl⟩
  · rw [hjoin, segments_append_slash]
    exact Or.inl rfl

/-- A continuation leads on from the names of the path. -/
theorem normalNames_join (path : String) (h : isAbsolute continuation = false) :
    normalNames (join path continuation)
      = ((segments continuation).foldl push (normalNames path).reverse).reverse := by
  rw [normalNames, normalNames, List.reverse_reverse]
  rcases segments_join path h with hjoin | ⟨front, hpath, hjoin⟩
  · rw [hjoin, List.foldl_append]
  · rw [hjoin, hpath, List.foldl_append, List.foldl_append]
    rfl

/-- A continued path has the names of both parts. -/
theorem names_join (path : String) (h : isAbsolute continuation = false) :
    names (join path continuation) = names path ++ names continuation := by
  unfold names
  rcases segments_join path h with hjoin | ⟨front, hpath, hjoin⟩
  · rw [hjoin, List.filter_append]
  · rw [hjoin, hpath, List.filter_append, List.filter_append]
    simp

/-- A continued path begins as its first part does. -/
theorem leadingSlashes_join (path : String) (h : isAbsolute continuation = false) :
    leadingSlashes (join path continuation) = leadingSlashes path := by
  have hhead : continuation.toList.head? ≠ some '/' := of_decide_eq_false h
  -- The first slashes stay as they are: what is put behind them does not begin with a slash.
  rcases join_cases path h with ⟨hjoin, -⟩ | ⟨hjoin, hpath⟩
  · rw [hjoin]
    exact leadingSlashes_append fun hslash => absurd hslash hhead
  · rw [hjoin, String.append_assoc]
    exact leadingSlashes_append fun _ => hpath

/-- A path may be put into normal form before it is continued. -/
theorem normalize_join_normalize (path : String) (h : isAbsolute continuation = false) :
    normalize (join (normalize path) continuation) = normalize (join path continuation) := by
  have hlead := isLead_leadingSlashes path
  have hnames : ∀ n ∈ normalNames path, IsName n := fun _ => isName_of_mem_normalNames
  have hslashes : leadingSlashes (normalize path) = leadingSlashes path :=
    leadingSlashes_absolute hlead fun n hn => (hnames n hn).isStep
  have hkept : normalNames (normalize path) = normalNames path := normalNames_absolute hlead hnames
  rw [normalize_eq_absolute, normalize_eq_absolute (join path continuation),
    leadingSlashes_join _ h, leadingSlashes_join _ h, normalNames_join _ h, normalNames_join _ h,
    hslashes, hkept]

/-- It does not matter to what is resolved under a path whether that is normal. -/
theorem resolveUnder_normalize (path continuation : String) :
    resolveUnder (normalize path) continuation = resolveUnder path continuation := by
  unfold resolveUnder
  split
  · rfl
  · next h => exact normalize_join_normalize path (Bool.eq_false_iff.mpr h)

/-! ### Normal forms as texts -/

/-- Only the top of the tree ends in a slash. -/
theorem normalize_of_getLast? (h : (normalize path).toList.getLast? = some '/') :
    normalize path = "/" ∨ normalize path = "//" := by
  have hlead := isLead_leadingSlashes path
  have hsteps : ∀ n ∈ normalNames path, IsStep n :=
    fun n hn => (isName_of_mem_normalNames hn).isStep
  rw [normalize_eq_absolute] at h ⊢
  rw [(getLast?_absolute hlead hsteps).mp h, absolute, String.intercalate_nil, String.append_empty]
  exact hlead

/-- The normal form of a path keeps its components: empty ones and `.` are left out, and `..` takes
back the last one that was kept. It is a path of proper names behind one slash or two, without a
slash at its end unless that is all, and it can take the place of the path: for its normal form, and
for what is resolved from there. -/
theorem normalize_keeps_components (path : String) :
    (∃! components, AreComponents components path) ∧
      (∀ components, AreComponents components path →
        normalize path = frontSlashes path ++ "/".intercalate (components.foldl keep [])) ∧
      normalize (normalize path) = normalize path ∧
      (∃ names, (∀ n ∈ names, IsName n) ∧
        normalize path = frontSlashes path ++ "/".intercalate names) ∧
      ((normalize path).toList.getLast? = some '/' →
        normalize path = "/" ∨ normalize path = "//") ∧
      ∀ continuation,
        resolveUnder (normalize path) continuation = resolveUnder path continuation := by
  have hnames : normalize path = frontSlashes path ++ "/".intercalate (normalNames path) := by
    rw [← leadingSlashes_eq_frontSlashes]
    rfl
  exact ⟨existsUnique_areComponents path, fun _ h => normalize_eq_kept h, normalize_normalize path,
    ⟨normalNames path, fun _ hn => isName_of_mem_normalNames hn, hnames⟩, normalize_of_getLast?,
    resolveUnder_normalize path⟩

/-- A path that climbs above the top and ends in a slash. -/
theorem normalize_keeps_components_untidy :
    AreComponents ["", "", "..", "srv", ".", "a", "", "..", "b", ""] "//../srv/./a//../b/" ∧
      normalize "//../srv/./a//../b/"
        = frontSlashes "//../srv/./a//../b/" ++ "/".intercalate
          (["", "", "..", "srv", ".", "a", "", "..", "b", ""].foldl keep []) := by
  have h : AreComponents ["", "", "..", "srv", ".", "a", "", "..", "b", ""]
      "//../srv/./a//../b/" :=
    ⟨by decide, by decide, by decide⟩
  obtain ⟨-, hkept, -⟩ := normalize_keeps_components "//../srv/./a//../b/"
  exact ⟨h, hkept _ h⟩

end RepoAtlas.Path
