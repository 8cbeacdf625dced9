import RepoAtlas.Path.Spelling

/-!
# `RepoAtlas.Proofs.Path.Normal`: what a path in normal form is

A path in normal form is a leading `/` or `//` followed by proper names with a slash between
neighbours (`absolute`). `Path.normalize` gives such a path for every text and leaves it alone, so
a path in normal form and the pair of its leading slashes and its names stand for each other:

* `normalize_eq_absolute`, `isName_of_mem_normalNames`: every normal form is of this shape.
* `normalNames_absolute`, `leadingSlashes_absolute`: names and slashes can be read back.
* `normalize_normalize`: the normal form is its own normal form.
* `join_absolute`, `descend_absolute`: continuing a path by names appends them.
* `isWithin_absolute`: containment is that of lists of names.
-/

set_option autoImplicit false

namespace RepoAtlas.Text

/-- Cutting a text that holds the separator somewhere cuts both parts. -/
theorem splitAt_append_separator (separator : Char) (front back : List Char) :
    splitAt separator (front ++ separator :: back)
      = splitAt separator front ++ splitAt separator back := by
  induction front with
  | nil => simp [splitAt]
  | cons c rest ih =>
    rw [List.cons_append]
    by_cases h : c = separator
    · rw [splitAt, if_pos h, ih, splitAt, if_pos h, List.cons_append]
    · rw [splitAt, if_neg h, ih, splitAt, if_neg h]
      cases hs : splitAt separator rest with
      | nil => exact absurd hs (splitAt_ne_nil separator rest)
      | cons piece pieces => rfl

/-- A text without the separator is one piece. -/
theorem splitAt_of_not_mem {separator : Char} {text : List Char} (h : separator ∉ text) :
    splitAt separator text = [text] := by
  induction text with
  | nil => rfl
  | cons c rest ih =>
    rw [List.mem_cons, not_or] at h
    rw [splitAt, if_neg (Ne.symm h.1), ih h.2]

/-- The separator is in none of the pieces. -/
theorem not_mem_of_mem_splitAt {separator : Char} {text piece : List Char}
    (h : piece ∈ splitAt separator text) : separator ∉ piece := by
  -- A separator closes a piece, any other character goes to the first piece of the rest.
  induction text generalizing piece with
  | nil =>
    rw [splitAt, List.mem_singleton] at h
    rw [h]
    exact List.not_mem_nil
  | cons c rest ih =>
    rw [splitAt] at h
    split at h
    · rcases List.mem_cons.mp h with rfl | h
      · exact List.not_mem_nil
      · exact ih h
    · next hc =>
      split at h
      · next hs => exact absurd hs (splitAt_ne_nil separator rest)
      · next first others hs =>
        rcases List.mem_cons.mp h with rfl | h
        · rw [List.mem_cons, not_or]
          exact ⟨Ne.symm hc, ih (by rw [hs]; exact List.mem_cons_self)⟩
        · exact ih (by rw [hs]; exact List.mem_cons_of_mem _ h)

end RepoAtlas.Text

namespace RepoAtlas.Path

open RepoAtlas.Text

/-! ### Names and absolute paths -/

/-- A proper name: what an entry of a directory may be called. -/
structure IsName (name : String) : Prop where
  ne_empty : name ≠ ""
  ne_here : name ≠ "."
  ne_up : name ≠ ".."
  no_slash : '/' ∉ name.toList

instance (name : String) : Decidable (IsName name) :=
  decidable_of_iff (name ≠ "" ∧ name ≠ "." ∧ name ≠ ".." ∧ '/' ∉ name.toList)
    ⟨fun ⟨h₁, h₂, h₃, h₄⟩ => ⟨h₁, h₂, h₃, h₄⟩,
      fun h => ⟨h.ne_empty, h.ne_here, h.ne_up, h.no_slash⟩⟩

/-- What a path spells between its slashes: a proper name, or a dot or two. -/
structure IsStep (name : String) : Prop where
  ne_empty : name ≠ ""
  no_slash : '/' ∉ name.toList

/-- Proper names are steps. -/
theorem IsName.isStep {name : String} (h : IsName name) : IsStep name :=
  ⟨h.ne_empty, h.no_slash⟩

/-- The absolute path with the given leading slashes and names. -/
def absolute (lead : String) (names : List String) : String :=
  lead ++ "/".intercalate names

/-- The leading slashes that a normal form can have. -/
def IsLead (lead : String) : Prop :=
  lead = "/" ∨ lead = "//"

/-- One slash stands at the front of a normal form, or two. -/
theorem isLead_leadingSlashes (path : String) : IsLead (leadingSlashes path) := by
  unfold leadingSlashes
  split
  · exact Or.inl rfl
  · exact Or.inr rfl
  · exact Or.inl rfl

/-- A path in normal form: one that `normalize` leaves alone. -/
def IsNormal (path : String) : Prop :=
  normalize path = path

/-- What a path in normal form is normalized to. -/
theorem IsNormal.normalize_eq {path : String} (h : IsNormal path) : normalize path = path :=
  h

/-- The normal form of a path, in terms of its leading slashes and the names it keeps. -/
theorem normalize_eq_absolute (path : String) :
    normalize path = absolute (leadingSlashes path) (normalNames path) := rfl

/-- The stack of names only ever holds proper names. -/
theorem isName_of_mem_push {stack : List String} {name : String} (hslash : '/' ∉ name.toList)
    (hstack : ∀ n ∈ stack, IsName n) : ∀ n ∈ push stack name, IsName n := by
  intro n hn
  unfold push at hn
  split at hn
  · exact hstack n hn
  · next h =>
    rw [not_or] at h
    split at hn
    · exact hstack n (List.mem_of_mem_tail hn)
    · -- What is pushed is neither blank nor a step up.
      next hup =>
      rcases List.mem_cons.mp hn with rfl | hn
      · exact ⟨h.1, h.2, hup, hslash⟩
      · exact hstack n hn

/-- The stack holds proper names throughout, by induction on the names that are pushed. -/
theorem isName_of_mem_foldl_push (names : List String) (hslash : ∀ n ∈ names, '/' ∉ n.toList) :
    ∀ stack : List String, (∀ n ∈ stack, IsName n) →
      ∀ n ∈ names.foldl push stack, IsName n := by
  induction names with
  | nil => intro stack h; exact h
  | cons name rest ih =>
    intro stack h
    exact ih (fun n hn => hslash n (List.mem_cons_of_mem _ hn)) _
      (isName_of_mem_push (hslash name List.mem_cons_self) h)

/-- No segment of a path holds a slash. -/
theorem no_slash_of_mem_segments {path name : String} (h : name ∈ segments path) :
    '/' ∉ name.toList := by
  obtain ⟨piece, hpiece, rfl⟩ := List.mem_map.mp h
  rw [String.toList_ofList]
  exact not_mem_of_mem_splitAt hpiece

/-- Every name of a normal form is proper. -/
theorem isName_of_mem_normalNames {path name : String} (h : name ∈ normalNames path) :
    IsName name :=
  isName_of_mem_foldl_push (segments path) (fun _ => no_slash_of_mem_segments) []
    (fun _ hn => absurd hn List.not_mem_nil) name (List.mem_reverse.mp h)

/-! ### Reading names back -/

/-- A slash between two texts separates their segments. -/
theorem segments_append_slash (front back : String) :
    segments (front ++ "/" ++ back) = segments front ++ segments back := by
  unfold segments
  rw [String.toList_append, String.toList_append, List.append_assoc]
  show (splitAt '/' (front.toList ++ '/' :: back.toList)).map _ = _
  rw [splitAt_append_separator, List.map_append]

/-- A name without slashes is its only segment. -/
theorem segments_of_no_slash {name : String} (h : '/' ∉ name.toList) : segments name = [name] := by
  unfold segments
  rw [splitAt_of_not_mem h, List.map_singleton, String.ofList_toList]

/-- Names that are joined by slashes are the segments of the text, empty ones included. -/
theorem segments_intercalate {names : List String} (hne : names ≠ [])
    (h : ∀ n ∈ names, '/' ∉ n.toList) : segments ("/".intercalate names) = names := by
  induction names with
  | nil => exact absurd rfl hne
  | cons name rest ih =>
    have hname := segments_of_no_slash (h name List.mem_cons_self)
    cases rest with
    | nil => rw [String.intercalate_singleton, hname]
    | cons next rest =>
      rw [String.intercalate_cons_cons, segments_append_slash, hname,
        ih (List.cons_ne_nil _ _) (fun n hn => h n (List.mem_cons_of_mem _ hn))]
      rfl

/-- The segments of an absolute path are its names after some empty ones. -/
theorem segments_absolute {lead : String} (hlead : IsLead lead) {names : List String}
    (h : ∀ n ∈ names, IsStep n) :
    ∃ blanks, (∀ n ∈ blanks, n = "") ∧ segments (absolute lead names) = blanks ++ names := by
  -- Each slash of the lead leaves an empty segment in front.
  have hslash : ∀ text : String, segments ("/" ++ text) = "" :: segments text := fun text => by
    have := segments_append_slash "" text
    rwa [String.empty_append] at this
  have htail : ∃ blanks, (∀ n ∈ blanks, n = "") ∧
      segments ("/".intercalate names) = blanks ++ names := by
    cases names with
    | nil => exact ⟨[""], by simp, by rw [String.intercalate_nil]; rfl⟩
    | cons name rest =>
      exact ⟨[], by simp, by
        rw [segments_intercalate (List.cons_ne_nil _ _) fun n hn => (h n hn).no_slash]; rfl⟩
  obtain ⟨blanks, hblanks, htail⟩ := htail
  rcases hlead with rfl | rfl
  · refine ⟨"" :: blanks, by simpa using hblanks, ?_⟩
    rw [absolute, hslash, htail, List.cons_append]
  · refine ⟨"" :: "" :: blanks, by simpa using hblanks, ?_⟩
    show segments ("/" ++ "/" ++ "/".intercalate names) = _
    rw [String.append_assoc, hslash, hslash, htail, List.cons_append, List.cons_append]

/-- Blank segments, which come from repeated slashes, push nothing. -/
theorem foldl_push_blanks {blanks : List String} (h : ∀ n ∈ blanks, n = "")
    (stack : List String) : blanks.foldl push stack = stack := by
  induction blanks with
  | nil => rfl
  | cons name rest ih =>
    rw [List.foldl_cons, h name List.mem_cons_self, push, if_pos (Or.inl rfl)]
    exact ih fun n hn => h n (List.mem_cons_of_mem _ hn)

/-- Proper names pile up on the stack. -/
theorem foldl_push_names {names : List String} (h : ∀ n ∈ names, IsName n)
    (stack : List String) : names.foldl push stack = names.reverse ++ stack := by
  induction names generalizing stack with
  | nil => rfl
  | cons name rest ih =>
    have hname := h name List.mem_cons_self
    rw [List.foldl_cons, ih (fun n hn => h n (List.mem_cons_of_mem _ hn)), push,
      if_neg (not_or.mpr ⟨hname.ne_empty, hname.ne_here⟩), if_neg hname.ne_up]
    simp

/-- The names of an absolute path can be read back. -/
theorem normalNames_absolute {lead : String} (hlead : IsLead lead) {names : List String}
    (h : ∀ n ∈ names, IsName n) : normalNames (absolute lead names) = names := by
  obtain ⟨blanks, hblanks, hsegments⟩ := segments_absolute hlead fun n hn => (h n hn).isStep
  unfold normalNames
  rw [hsegments, List.foldl_append, foldl_push_blanks hblanks, foldl_push_names h,
    List.append_nil, List.reverse_reverse]

/-- Joined names start with a slash nowhere: the first character, if any, is that of a name. -/
theorem head?_intercalate_ne_slash {names : List String} (h : ∀ n ∈ names, IsStep n) :
    ("/".intercalate names).toList.head? ≠ some '/' := by
  cases names with
  | nil => simp
  | cons name rest =>
    have hname := h name List.mem_cons_self
    -- The first name is not empty, so the text starts with its first character.
    have hhead : ("/".intercalate (name :: rest)).toList.head? = name.toList.head? := by
      cases hl : name.toList with
      | nil => exact absurd (String.toList_eq_nil_iff.mp hl) hname.ne_empty
      | cons c cs =>
        cases rest with
        | nil => rw [String.intercalate_singleton, hl]
        | cons next rest =>
          rw [String.intercalate_cons_cons, String.toList_append, String.toList_append, hl]
          rfl
    rw [hhead]
    exact fun heq => hname.no_slash (List.mem_of_mem_head? heq)

/-- What follows a path adds to its leading slashes only if it is one more slash, and the path has
nothing after its own. -/
theorem leadingSlashes_append {front back : String}
    (h : back.toList.head? = some '/' → front ≠ "" ∧ front.toList.getLast? ≠ some '/') :
    leadingSlashes (front ++ back) = leadingSlashes front := by
  rw [ne_eq, ← String.toList_eq_nil_iff] at h
  unfold leadingSlashes
  rw [String.toList_append]
  generalize front.toList = chars at h ⊢
  generalize back.toList = rest at h ⊢
  -- Only three characters count, so what follows matters where the path is shorter.
  rcases chars with _ | ⟨a, _ | ⟨b, _ | ⟨c, chars⟩⟩⟩
  case cons.cons.cons =>
    by_cases ha : a = '/' <;> by_cases hb : b = '/' <;> by_cases hc : c = '/' <;> simp [ha, hb, hc]
  all_goals
    rcases rest with _ | ⟨d, rest⟩
    · rfl
    · simp at h ⊢
      grind

/-- The leading slashes of an absolute path can be read back. -/
theorem leadingSlashes_absolute {lead : String} (hlead : IsLead lead) {names : List String}
    (h : ∀ n ∈ names, IsStep n) : leadingSlashes (absolute lead names) = lead := by
  rw [absolute, leadingSlashes_append fun hslash => absurd hslash (head?_intercalate_ne_slash h)]
  rcases hlead with rfl | rfl <;> rfl

/-- An absolute path made of proper names is in normal form. -/
theorem isNormal_absolute {lead : String} (hlead : IsLead lead) {names : List String}
    (h : ∀ n ∈ names, IsName n) : IsNormal (absolute lead names) := by
  rw [IsNormal, normalize_eq_absolute, leadingSlashes_absolute hlead fun n hn => (h n hn).isStep,
    normalNames_absolute hlead h]

/-- A normal form is its own normal form. -/
theorem normalize_normalize (path : String) : normalize (normalize path) = normalize path :=
  isNormal_absolute (isLead_leadingSlashes path) fun _ => isName_of_mem_normalNames

/-- A path in normal form is the absolute path of its slashes and names. -/
theorem IsNormal.eq_absolute {path : String} (h : IsNormal path) :
    path = absolute (leadingSlashes path) (normalNames path) :=
  h.symm

/-- Leading slashes and names determine each other's path: no two pairs share one. -/
theorem absolute_inj {lead lead' : String} (hlead : IsLead lead) (hlead' : IsLead lead')
    {names names' : List String} (h : ∀ n ∈ names, IsName n) (h' : ∀ n ∈ names', IsName n)
    (heq : absolute lead names = absolute lead' names') : lead = lead' ∧ names = names' := by
  have hslashes := congrArg leadingSlashes heq
  have hnames := congrArg normalNames heq
  rw [leadingSlashes_absolute hlead fun n hn => (h n hn).isStep,
    leadingSlashes_absolute hlead' fun n hn => (h' n hn).isStep] at hslashes
  rw [normalNames_absolute hlead h, normalNames_absolute hlead' h'] at hnames
  exact ⟨hslashes, hnames⟩

/-! ### Continuing a path -/

/-- An absolute path with names ends in its last name. -/
theorem absolute_concat (lead : String) (front : List String) (name : String) :
    absolute lead (front ++ [name])
      = (if front = [] then lead else absolute lead front ++ "/") ++ name := by
  by_cases hfront : front = []
  · rw [if_pos hfront, hfront, List.nil_append, absolute, String.intercalate_singleton]
  · rw [if_neg hfront, absolute, absolute,
      String.intercalate_append_of_ne_nil hfront (List.cons_ne_nil _ _),
      String.intercalate_singleton, String.append_assoc, String.append_assoc, String.append_assoc]

/-- An absolute path ends in a slash only if it has no names. -/
theorem getLast?_absolute {lead : String} (hlead : IsLead lead) {names : List String}
    (h : ∀ n ∈ names, IsStep n) :
    (absolute lead names).toList.getLast? = some '/' ↔ names = [] := by
  constructor
  · intro hlast
    refine Decidable.byContradiction fun hnil => ?_
    -- The last character of the path is that of its last name, which holds no slash.
    have hname := h _ (List.getLast_mem hnil)
    have hne : (names.getLast hnil).toList ≠ [] :=
      fun hempty => hname.ne_empty (String.toList_eq_nil_iff.mp hempty)
    have hsplit := absolute_concat lead names.dropLast (names.getLast hnil)
    rw [List.dropLast_concat_getLast] at hsplit
    rw [hsplit, String.toList_append, List.getLast?_append,
      List.getLast?_eq_some_getLast hne, Option.some_or, Option.some.injEq] at hlast
    exact hname.no_slash (hlast ▸ List.getLast_mem hne)
  · rintro rfl
    rcases hlead with rfl | rfl <;> rw [absolute, String.intercalate_nil, String.append_empty] <;>
      rfl

/-- A path with slashes at its front is not empty. -/
theorem absolute_ne_empty {lead : String} (hlead : IsLead lead) (names : List String) :
    absolute lead names ≠ "" := by
  intro h
  have hnil := congrArg String.toList h
  rw [absolute, String.toList_append, String.toList_empty, List.append_eq_nil_iff] at hnil
  rcases hlead with rfl | rfl <;> exact absurd hnil.1 (by decide)

/-- Such a path is absolute. -/
theorem isAbsolute_absolute {lead : String} (hlead : IsLead lead) (names : List String) :
    isAbsolute (absolute lead names) = true := by
  unfold isAbsolute absolute
  rw [String.toList_append]
  rcases hlead with rfl | rfl <;> rfl

/-- Normal forms are absolute. -/
theorem IsNormal.isAbsolute {path : String} (h : IsNormal path) : isAbsolute path = true := by
  rw [h.eq_absolute]
  exact isAbsolute_absolute (isLead_leadingSlashes path) _

/-- No name is an absolute path. -/
theorem isAbsolute_of_isName {name : String} (h : IsName name) : isAbsolute name = false := by
  unfold isAbsolute
  rw [decide_eq_false_iff_not]
  exact fun hhead => h.no_slash (List.mem_of_mem_head? hhead)

/-- Appending names to an absolute path that has some. -/
theorem absolute_append {lead : String} {front back : List String} (hfront : front ≠ [])
    (hback : back ≠ []) :
    absolute lead (front ++ back) = absolute lead front ++ "/" ++ "/".intercalate back := by
  rw [absolute, absolute, String.intercalate_append_of_ne_nil hfront hback, String.append_assoc,
    String.append_assoc, String.append_assoc]

/-- Continuing an absolute path by a name appends the name. -/
theorem join_absolute {lead : String} (hlead : IsLead lead) {names : List String}
    (h : ∀ n ∈ names, IsName n) {name : String} (hname : IsName name) :
    join (absolute lead names) name = absolute lead (names ++ [name]) := by
  have hslash := getLast?_absolute hlead fun n hn => (h n hn).isStep
  unfold join
  rw [isAbsolute_of_isName hname, if_neg Bool.false_ne_true]
  by_cases hnil : names = []
  · rw [if_pos (by simpa using Or.inr (hslash.mpr hnil)), hnil,
      List.nil_append, absolute, absolute, String.intercalate_nil, String.append_empty,
      String.intercalate_singleton]
  · have hlast := mt hslash.mp hnil
    rw [if_neg (by simpa using ⟨absolute_ne_empty hlead names, hlast⟩),
      absolute_append hnil (List.cons_ne_nil _ _), String.intercalate_singleton]

/-- The path that names lead to from a root. -/
def descend (root : String) (names : List String) : String :=
  names.foldl join root

/-- One may descend in two goes. -/
theorem descend_append (root : String) (front back : List String) :
    descend root (front ++ back) = descend (descend root front) back :=
  List.foldl_append

/-- Descending by one name is joining it. -/
theorem descend_singleton (root name : String) : descend root [name] = join root name := rfl

/-- Descending from an absolute path appends the names. -/
theorem descend_absolute {lead : String} (hlead : IsLead lead) {names : List String}
    (h : ∀ n ∈ names, IsName n) {below : List String} (hbelow : ∀ n ∈ below, IsName n) :
    descend (absolute lead names) below = absolute lead (names ++ below) := by
  -- By induction on the names below, which are joined one by one.
  induction below generalizing names with
  | nil => rw [List.append_nil]; rfl
  | cons name rest ih =>
    have hname := hbelow name List.mem_cons_self
    show descend (join (absolute lead names) name) rest = _
    rw [join_absolute hlead h hname, ih, List.append_assoc]
    · rfl
    · intro n hn
      rcases List.mem_append.mp hn with hn | hn
      · exact h n hn
      · exact List.mem_singleton.mp hn ▸ hname
    · exact fun n hn => hbelow n (List.mem_cons_of_mem _ hn)

/-- Descending from a path in normal form appends to its names. -/
theorem IsNormal.descend_eq {root : String} (h : IsNormal root) {names : List String}
    (hnames : ∀ n ∈ names, IsName n) :
    descend root names = absolute (leadingSlashes root) (normalNames root ++ names) := by
  conv => lhs; rw [h.eq_absolute]
  exact descend_absolute (isLead_leadingSlashes root) (fun _ => isName_of_mem_normalNames) hnames

/-- Descending by proper names leads from normal form to normal form. -/
theorem IsNormal.descend {root : String} (h : IsNormal root) {names : List String}
    (hnames : ∀ n ∈ names, IsName n) : IsNormal (descend root names) := by
  rw [h.descend_eq hnames]
  refine isNormal_absolute (isLead_leadingSlashes root) fun n hn => ?_
  rcases List.mem_append.mp hn with hn | hn
  · exact isName_of_mem_normalNames hn
  · exact hnames n hn

/-- So does joining a proper name. -/
theorem IsNormal.join {root : String} (h : IsNormal root) {name : String} (hname : IsName name) :
    IsNormal (join root name) := by
  rw [← descend_singleton]
  exact h.descend fun _ hn => List.mem_singleton.mp hn ▸ hname

/-- Different names lead to different paths. -/
theorem IsNormal.descend_inj {root : String} (h : IsNormal root) {names names' : List String}
    (hnames : ∀ n ∈ names, IsName n) (hnames' : ∀ n ∈ names', IsName n)
    (heq : Path.descend root names = Path.descend root names') : names = names' := by
  rw [h.descend_eq hnames, h.descend_eq hnames'] at heq
  have hall : ∀ below, (∀ n ∈ below, IsName n) → ∀ n ∈ normalNames root ++ below, IsName n :=
    fun below hbelow n hn => (List.mem_append.mp hn).elim isName_of_mem_normalNames (hbelow n)
  have hlead := isLead_leadingSlashes root
  exact List.append_cancel_left (absolute_inj hlead hlead (hall _ hnames) (hall _ hnames') heq).2

/-! ### Paths under a path -/

/-- A filter that keeps proper names and drops empty segments reads the names back. -/
theorem filter_segments_absolute {lead : String} (hlead : IsLead lead) {names : List String}
    (h : ∀ n ∈ names, IsStep n) {keep : String → Bool} (hblank : keep "" = false)
    (hkeep : ∀ n ∈ names, keep n = true) :
    (segments (absolute lead names)).filter keep = names := by
  obtain ⟨blanks, hblanks, hsegments⟩ := segments_absolute hlead h
  rw [hsegments, List.filter_append, List.filter_eq_nil_iff.mpr, List.nil_append,
    List.filter_eq_self.mpr]
  · exact hkeep
  · intro n hn
    rw [hblanks n hn, hblank]
    exact Bool.false_ne_true

/-- A path that does not end in a slash has no final slashes to drop. -/
theorem dropFinalSlashes_of_getLast? {path : List Char} (h : path.getLast? ≠ some '/') :
    dropFinalSlashes path = path := by
  unfold dropFinalSlashes
  rw [← List.head?_reverse] at h
  cases hreverse : path.reverse with
  | nil => rw [List.reverse_eq_nil_iff.mp hreverse]; rfl
  | cons last rest =>
    rw [hreverse, List.head?_cons, ne_eq, Option.some.injEq] at h
    rw [List.dropWhile_cons_of_neg (by simpa using h), ← hreverse, List.reverse_reverse]

/-- Under a path that has names are the paths that have the same names and more. -/
theorem isWithin_absolute {lead : String} (hlead : IsLead lead) {names under : List String}
    (hne : names ≠ []) (h : ∀ n ∈ names, IsName n) (hunder : ∀ n ∈ under, IsName n) :
    isWithin (absolute lead under) (absolute lead names) = true ↔ names <+: under := by
  have hlast : (absolute lead names).toList.getLast? ≠ some '/' :=
    mt (getLast?_absolute hlead fun n hn => (h n hn).isStep).mp hne
  unfold isWithin
  rw [Bool.or_eq_true, decide_eq_true_eq, dropFinalSlashes_of_getLast? hlast,
    List.isPrefixOf_iff_prefix]
  constructor
  · rintro (heq | ⟨rest, hrest⟩)
    · exact (absolute_inj hlead hlead hunder h heq).2 ▸ List.prefix_rfl
    · -- Cutting both texts at slashes shows the names of one as the first names of the other.
      have htext : absolute lead under = absolute lead names ++ "/" ++ String.ofList rest := by
        apply String.toList_injective
        rw [← hrest]
        simp
      have hread : ∀ {read : List String}, (∀ n ∈ read, IsName n) →
          (segments (absolute lead read)).filter (fun n => decide (n ≠ "")) = read := fun h =>
        filter_segments_absolute hlead (fun n hn => (h n hn).isStep) rfl
          fun n hn => decide_eq_true (h n hn).ne_empty
      have hnames := hread hunder
      rw [htext, segments_append_slash, List.filter_append, hread h] at hnames
      exact ⟨_, hnames⟩
  · rintro ⟨rest, rfl⟩
    by_cases hrest : rest = []
    · exact Or.inl (by rw [hrest, List.append_nil])
    · refine Or.inr ⟨("/".intercalate rest).toList, ?_⟩
      rw [absolute_append hne hrest]
      simp

/-- Containment below a root is that of the names below it. -/
theorem IsNormal.isWithin_descend {root : String} (h : IsNormal root) {names under : List String}
    (hne : names ≠ []) (hnames : ∀ n ∈ names, IsName n) (hunder : ∀ n ∈ under, IsName n) :
    isWithin (Path.descend root under) (Path.descend root names) = true ↔ names <+: under := by
  have hall : ∀ below, (∀ n ∈ below, IsName n) → ∀ n ∈ normalNames root ++ below, IsName n :=
    fun below hbelow n hn => (List.mem_append.mp hn).elim isName_of_mem_normalNames (hbelow n)
  rw [h.descend_eq hnames, h.descend_eq hunder,
    isWithin_absolute (isLead_leadingSlashes root)
      (List.append_ne_nil_of_right_ne_nil _ hne) (hall _ hnames) (hall _ hunder),
    List.prefix_append_right_inj]

/-- Everything below a path lies within it, also below the top of the tree. -/
theorem IsNormal.isWithin_self {root : String} (h : IsNormal root) {names : List String}
    (hnames : ∀ n ∈ names, IsName n) : isWithin (Path.descend root names) root = true := by
  have hlead := isLead_leadingSlashes root
  have hroot : ∀ n ∈ normalNames root, IsName n := fun _ => isName_of_mem_normalNames
  have hall : ∀ n ∈ normalNames root ++ names, IsName n :=
    List.forall_mem_append.mpr ⟨hroot, hnames⟩
  rw [h.descend_eq hnames]
  conv => lhs; arg 2; rw [h.eq_absolute]
  by_cases hnil : normalNames root = []
  · -- The top of the tree has no names, and its text without final slashes is empty.
    have habsolute := isAbsolute_absolute hlead (normalNames root ++ names)
    have hdrop : dropFinalSlashes (absolute (leadingSlashes root) []).toList = [] := by
      rcases hlead with heq | heq <;> rw [heq] <;> decide
    rw [Path.isAbsolute, decide_eq_true_eq] at habsolute
    obtain ⟨rest, hrest⟩ := List.head?_eq_some_iff.mp habsolute
    rw [hnil] at hrest ⊢
    rw [isWithin, hdrop, hrest]
    simp
  · rw [isWithin_absolute hlead hnil hroot hall]
    exact List.prefix_append _ _

/-- The names of a path in normal form are those that the stack keeps. -/
theorem IsNormal.names_eq {path : String} (h : IsNormal path) : names path = normalNames path := by
  have hisName : ∀ n ∈ normalNames path, IsName n := fun n hn => isName_of_mem_normalNames hn
  have hread := @filter_segments_absolute _ (isLead_leadingSlashes path) _
    (fun n hn => (hisName n hn).isStep) (fun n => n ≠ "" && n ≠ ".") rfl
    fun n hn => by simp [(hisName n hn).ne_empty, (hisName n hn).ne_here]
  rwa [← h.eq_absolute] at hread

/-- A path in normal form is spelled the way it is. -/
theorem IsNormal.tidy_eq {path : String} (h : IsNormal path) : tidy path = path := by
  rw [tidy, spell, h.isAbsolute, if_pos rfl, h.names_eq]
  exact h.eq_absolute.symm

end RepoAtlas.Path
