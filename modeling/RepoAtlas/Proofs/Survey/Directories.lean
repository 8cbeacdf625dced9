import RepoAtlas.Proofs.Outcome
import RepoAtlas.Proofs.Path.Normal
import RepoAtlas.Survey.Directories

/-!
# `RepoAtlas.Proofs.Survey.Directories`: what the directories of a repository contribute

A container is reached from the root of a repository through containers only (`ContainerAt`). Each
directory in it that is not passed over contributes, and so does a container that holds source
files. Containers are entered only so deep, but one that is too deep is a failure and not passed
over; so if there are contributions at all, they are everything that these rules give (`Brings`).

* `shareOf_cases`, `topEntry_cases`: everything that one entry can bring, in a container and at the
  root of the repository.
* `mem_container`: what entering a container brings.
* `mem_directories_iff`: the contributions of directories are exactly those of `Brings`.
-/

set_option autoImplicit false

namespace RepoAtlas.Survey

open RepoAtlas.Module
open RepoAtlas.Path (descend)

/-- What a directory shows under one of its names, links crossed. -/
def Shows (tree : Tree) (path name : String) (what : Entry) : Prop :=
  ∃ entries entry, tree.list path = .ok entries ∧ (name, entry) ∈ entries ∧
    seen tree (Path.join path name) entry = .ok (some what)

/-- A directory in which a file stands whose extension is that of a source file. -/
def HoldsSource (tree : Tree) (settings : Settings) (path : String) : Prop :=
  ∃ name content, Shows tree path name (.file content) ∧
    Path.isSource name settings.sourceExtensions = true

/-- A directory that is not passed over. -/
structure IsChild (tree : Tree) (settings : Settings) (path name : String) : Prop where
  shown : Shows tree path name .directory
  kept : isIgnored settings name = false

/-- A container with a name, reached from the root through the containers before it. -/
inductive ContainerAt (tree : Tree) (settings : Settings) (root : String) :
    (front : List String) → (name : String) → Prop
  | top {name : String} (child : IsChild tree settings root name)
      (isContainer : isContainer settings name = true) : ContainerAt tree settings root [] name
  | inside {front : List String} {name child : String}
      (above : ContainerAt tree settings root front name)
      (inner : IsChild tree settings (descend root (front ++ [name])) child)
      (isContainer : isContainer settings child = true) :
      ContainerAt tree settings root (front ++ [name]) child

/-- The contributions of the directories of a repository, each with the way to its directory. -/
inductive Brings (tree : Tree) (settings : Settings) (root : String) :
    (front : List String) → (name : String) → Contribution → Prop
  /-- A directory at the root that is no container. -/
  | plain {name : String} (child : IsChild tree settings root name)
      (not_container : isContainer settings name = false) :
      Brings tree settings root [] name
        (contributionOf (Naming.classify name) (descend root [name]))
  /-- A directory in a container. -/
  | inner {front : List String} {name child : String}
      (above : ContainerAt tree settings root front name)
      (inner : IsChild tree settings (descend root (front ++ [name])) child) :
      Brings tree settings root (front ++ [name]) child
        (contributionOf (Naming.classify child) (descend root (front ++ [name] ++ [child])))
  /-- A container that holds source files. -/
  | own {front : List String} {name : String} (at_ : ContainerAt tree settings root front name)
      (holds : HoldsSource tree settings (descend root (front ++ [name]))) :
      Brings tree settings root front name
        (contributionOf (containerIdentity name) (descend root (front ++ [name])))

variable {tree : Tree} {settings : Settings} {root : String}

/-- What is reached as a container is named like one. -/
theorem ContainerAt.isContainer {front : List String} {name : String}
    (h : ContainerAt tree settings root front name) : isContainer settings name = true := by
  cases h with
  | top _ hcontainer => exact hcontainer
  | inside _ _ hcontainer => exact hcontainer

/-! ### One container -/

/-- What an entry of a container brings, given what it is seen as and what entering it brings. -/
def shareOf (settings : Settings) (onward : Traced (List Contribution)) (child path : String) :
    Option Entry → Traced Share
  | some (.file _) => return { isSource := Path.isSource child settings.sourceExtensions }
  | some .directory =>
    if isIgnored settings child then return {}
    else if isContainer settings child then do
      return { contributions := contributionOf (Naming.classify child) path :: (← onward) }
    else return { contributions := [contributionOf (Naming.classify child) path] }
  | _ => return {}

/-- What a container contributes, entry by entry. -/
theorem container_succ (tree : Tree) (settings : Settings) (depth : Nat) (name path : String) :
    container tree settings (depth + 1) name path =
      match tree.list path with
      | .error fault => do
        Traced.note .debug .detector
          s!"Cannot list composite directory {path}: {fault.message path}"
        return []
      | .ok entries => do
        let shares ← entries.mapM fun pair => do
          let what ← Traced.ofExcept (seen tree (Path.join path pair.1) pair.2)
          shareOf settings (container tree settings depth pair.1 (Path.join path pair.1)) pair.1
            (Path.join path pair.1) what
        if shares.any Share.isSource then
          return shares.flatMap Share.contributions ++
            [contributionOf (containerIdentity name) path]
        else return shares.flatMap Share.contributions := by
  rfl

/-- A directory shows what is seen of its entries. -/
theorem shows_iff {path name : String} {what : Entry} {entries : List (String × Entry)}
    (hlist : tree.list path = .ok entries) :
    Shows tree path name what ↔ ∃ entry, (name, entry) ∈ entries ∧
      seen tree (Path.join path name) entry = .ok (some what) := by
  constructor
  · rintro ⟨entries', entry, hlist', hmem, hseen⟩
    rw [hlist] at hlist'
    cases hlist'
    exact ⟨entry, hmem, hseen⟩
  · rintro ⟨entry, hmem, hseen⟩
    exact ⟨entries, entry, hlist, hmem, hseen⟩

/-- A directory that cannot be listed shows nothing. -/
theorem not_shows_of_list_error {path name : String} {what : Entry} {fault : Tree.Fault}
    (hlist : tree.list path = .error fault) : ¬Shows tree path name what := by
  rintro ⟨entries, entry, hlist', -⟩
  rw [hlist] at hlist'
  cases hlist'

/-- Everything that the share of an entry can be. -/
theorem shareOf_cases {onward : Traced (List Contribution)} {child path : String}
    {what : Option Entry} {share : Share}
    (h : (shareOf settings onward child path what).outcome = .ok share) :
    (∃ content, what = some (.file content) ∧
      share = { isSource := Path.isSource child settings.sourceExtensions }) ∨
    (what = some .directory ∧ isIgnored settings child = false ∧
      isContainer settings child = false ∧
      share = { contributions := [contributionOf (Naming.classify child) path] }) ∨
    (what = some .directory ∧ isIgnored settings child = false ∧
      isContainer settings child = true ∧ ∃ inner, onward.outcome = .ok inner ∧
        share = { contributions := contributionOf (Naming.classify child) path :: inner }) ∨
    ((∀ content, what ≠ some (.file content)) ∧
      (what = some .directory → isIgnored settings child = true) ∧ share = {}) := by
  -- Only a directory brings contributions, and only a file may be a source.
  rcases what with _ | (_ | content | target)
  · refine Or.inr (Or.inr (Or.inr ⟨by simp, by simp, (Except.ok.inj h).symm⟩))
  · simp only [shareOf] at h
    split at h
    · next hignored =>
      exact Or.inr (Or.inr (Or.inr ⟨by simp, fun _ => hignored, (Except.ok.inj h).symm⟩))
    · next hignored =>
      rw [Bool.not_eq_true] at hignored
      split at h
      · next hcontainer =>
        obtain ⟨inner, hinner, h⟩ := Traced.outcome_bind_eq_ok_iff.mp h
        exact Or.inr (Or.inr (Or.inl
          ⟨rfl, hignored, hcontainer, inner, hinner, (Except.ok.inj h).symm⟩))
      · next hcontainer =>
        rw [Bool.not_eq_true] at hcontainer
        exact Or.inr (Or.inl ⟨rfl, hignored, hcontainer, (Except.ok.inj h).symm⟩)
  · exact Or.inl ⟨content, rfl, (Except.ok.inj h).symm⟩
  · refine Or.inr (Or.inr (Or.inr ⟨by simp, by simp, (Except.ok.inj h).symm⟩))

/-- The share of an entry of a container, whose own containers are entered to the given depth. -/
def IsShare (tree : Tree) (settings : Settings) (depth : Nat) (path : String)
    (pair : String × Entry) (share : Share) : Prop :=
  ∃ what, seen tree (Path.join path pair.1) pair.2 = .ok what ∧
    (shareOf settings (container tree settings depth pair.1 (Path.join path pair.1)) pair.1
      (Path.join path pair.1) what).outcome = .ok share

/-- A contribution of a directory in a container, or of what entering it brings. -/
def BringsInside (tree : Tree) (settings : Settings) (depth : Nat) (path : String)
    (c : Contribution) : Prop :=
  ∃ child, IsChild tree settings path child ∧
    (c = contributionOf (Naming.classify child) (Path.join path child) ∨
      isContainer settings child = true ∧ ∃ inner,
        (container tree settings depth child (Path.join path child)).outcome = .ok inner ∧
          c ∈ inner)

section

variable {depth : Nat} {path : String} {entries : List (String × Entry)} {shares : List Share}
  (hlist : tree.list path = .ok entries)
  (hshares : List.Forall₂ (IsShare tree settings depth path) entries shares)

include hlist hshares

/-- The shares of the entries of a container hold what the directories in it bring. -/
theorem mem_shares (c : Contribution) :
    c ∈ shares.flatMap Share.contributions ↔ BringsInside tree settings depth path c := by
  rw [List.mem_flatMap]
  constructor
  · rintro ⟨share, hshare, hc⟩
    obtain ⟨⟨child, entry⟩, hmem, what, hseen, hshare⟩ := (exists_of_forall₂ hshares).2 share hshare
    have hchild : what = some .directory → isIgnored settings child = false →
        IsChild tree settings path child := by
      rintro rfl hkept
      exact ⟨(shows_iff hlist).mpr ⟨entry, hmem, hseen⟩, hkept⟩
    rcases shareOf_cases hshare with ⟨content, -, rfl⟩ | ⟨hwhat, hkept, -, rfl⟩ |
      ⟨hwhat, hkept, hcontainer, inner, hinner, rfl⟩ | ⟨-, -, rfl⟩
    · exact absurd hc List.not_mem_nil
    · exact ⟨child, hchild hwhat hkept, Or.inl (List.mem_singleton.mp hc)⟩
    · refine ⟨child, hchild hwhat hkept, (List.mem_cons.mp hc).imp_right fun hc => ?_⟩
      exact ⟨hcontainer, inner, hinner, hc⟩
    · exact absurd hc List.not_mem_nil
  · rintro ⟨child, ⟨hshown, hkept⟩, hc⟩
    -- Conversely, a child that is shown has its share.
    obtain ⟨entry, hmem, hseen⟩ := (shows_iff hlist).mp hshown
    obtain ⟨share, hmemShare, what, hwhat, hshare⟩ := (exists_of_forall₂ hshares).1 _ hmem
    obtain rfl : some Entry.directory = what := Except.ok.inj (hseen.symm.trans hwhat)
    refine ⟨share, hmemShare, ?_⟩
    rcases shareOf_cases hshare with ⟨content, heq, -⟩ | ⟨-, -, hplain, rfl⟩ |
      ⟨-, -, -, inner, hinner, rfl⟩ | ⟨-, hignored, -⟩
    · cases heq
    · rcases hc with rfl | ⟨hcontainer, -⟩
      · exact List.mem_singleton_self _
      · simp [hplain] at hcontainer
    · rcases hc with rfl | ⟨-, inner', hinner', hc⟩
      · exact List.mem_cons_self
      · obtain rfl : inner = inner' := Except.ok.inj (hinner.symm.trans hinner')
        exact List.mem_cons_of_mem _ hc
    · simp [hignored rfl] at hkept

/-- The shares show whether a source file stands in the container. -/
theorem any_shares : shares.any Share.isSource = true ↔ HoldsSource tree settings path := by
  rw [List.any_eq_true]
  constructor
  · rintro ⟨share, hshare, hsource⟩
    obtain ⟨⟨child, entry⟩, hmem, what, hseen, hshare⟩ := (exists_of_forall₂ hshares).2 share hshare
    rcases shareOf_cases hshare with ⟨content, rfl, rfl⟩ | ⟨-, -, -, rfl⟩ | ⟨-, -, -, _, -, rfl⟩ |
      ⟨-, -, rfl⟩
    · simp only at hsource
      exact ⟨child, content, (shows_iff hlist).mpr ⟨entry, hmem, hseen⟩, hsource⟩
    all_goals simp only [Bool.false_eq_true] at hsource
  · rintro ⟨child, content, hshown, hsource⟩
    -- Conversely, a source that is shown marks its share.
    obtain ⟨entry, hmem, hseen⟩ := (shows_iff hlist).mp hshown
    obtain ⟨share, hmemShare, what, hwhat, hshare⟩ := (exists_of_forall₂ hshares).1 _ hmem
    obtain rfl : some (Entry.file content) = what := Except.ok.inj (hseen.symm.trans hwhat)
    refine ⟨share, hmemShare, ?_⟩
    rcases shareOf_cases hshare with ⟨_, -, rfl⟩ | ⟨heq, -⟩ | ⟨heq, -⟩ | ⟨hnone, -⟩
    · simpa only using hsource
    · cases heq
    · cases heq
    · exact absurd rfl (hnone content)

/-- Every container in a container is entered. -/
theorem exists_entered {child : String} (hchild : IsChild tree settings path child)
    (hcontainer : isContainer settings child = true) :
    ∃ inner, (container tree settings depth child (Path.join path child)).outcome = .ok inner := by
  obtain ⟨entry, hmem, hseen⟩ := (shows_iff hlist).mp hchild.shown
  obtain ⟨share, -, what, hwhat, hshare⟩ := (exists_of_forall₂ hshares).1 _ hmem
  obtain rfl : some Entry.directory = what := Except.ok.inj (hseen.symm.trans hwhat)
  rcases shareOf_cases hshare with ⟨content, heq, -⟩ | ⟨-, -, hplain, -⟩ |
    ⟨-, -, -, inner, hinner, -⟩ | ⟨-, hignored, -⟩
  · cases heq
  · simp [hplain] at hcontainer
  · exact ⟨inner, hinner⟩
  · exact absurd (hignored rfl) (by simp [hchild.kept])

end

/-- What a container that is entered brings: what the directories in it bring, and its own
contribution if it holds source files. -/
theorem mem_container {depth : Nat} {name path : String} {found : List Contribution}
    (h : (container tree settings (depth + 1) name path).outcome = .ok found) :
    (∀ c, c ∈ found ↔ BringsInside tree settings depth path c ∨
      (HoldsSource tree settings path ∧ c = contributionOf (containerIdentity name) path)) ∧
    ∀ child, IsChild tree settings path child → isContainer settings child = true →
      ∃ inner, (container tree settings depth child (Path.join path child)).outcome
        = .ok inner := by
  rw [container_succ] at h
  cases hlist : tree.list path with
  | error fault =>
    simp only [hlist] at h
    obtain ⟨_, -, h⟩ := Traced.outcome_bind_eq_ok_iff.mp h
    obtain rfl := Except.ok.inj h
    -- What cannot be listed brings nothing, and shows nothing either.
    have hnone : ∀ name what, ¬Shows tree path name what :=
      fun _ _ => not_shows_of_list_error hlist
    refine ⟨fun c => ⟨fun hc => absurd hc List.not_mem_nil, ?_⟩,
      fun child hchild => absurd hchild.shown (hnone _ _)⟩
    rintro (⟨child, hchild, -⟩ | ⟨⟨child, content, hshown, -⟩, -⟩)
    · exact absurd hchild.shown (hnone _ _)
    · exact absurd hshown (hnone _ _)
  | ok entries =>
    simp only [hlist] at h
    obtain ⟨shares, hshares, h⟩ := Traced.outcome_bind_eq_ok_iff.mp h
    rw [Traced.outcome_mapM_eq_ok_iff] at hshares
    have hshares : List.Forall₂ (IsShare tree settings depth path) entries shares :=
      hshares.imp fun _ _ hshare => Traced.outcome_bind_eq_ok_iff.mp hshare
    refine ⟨fun c => ?_, fun child => exists_entered hlist hshares⟩
    rw [← mem_shares hlist hshares, ← any_shares hlist hshares]
    split at h
    · next hsource =>
      obtain rfl := Except.ok.inj h
      simp [hsource]
    · next hsource =>
      obtain rfl := Except.ok.inj h
      simp [hsource]

/-! ### All directories -/

/-- Everything that an entry at the root of a repository can contribute. -/
theorem topEntry_cases {name : String} {entry : Entry} {brought : List Contribution}
    (h : (topEntry tree settings root name entry).outcome = .ok brought) :
    ∃ what, seen tree (Path.join root name) entry = .ok what ∧
      ((what = some .directory ∧ isIgnored settings name = false ∧
          isContainer settings name = false ∧
          brought = [contributionOf (Naming.classify name) (Path.join root name)]) ∨
        (what = some .directory ∧ isIgnored settings name = false ∧
          isContainer settings name = true ∧
          (container tree settings (containerDepth tree) name (Path.join root name)).outcome
            = .ok brought) ∨
        ((what = some .directory → isIgnored settings name = true) ∧ brought = [])) := by
  obtain ⟨what, hseen, h⟩ := Traced.outcome_bind_eq_ok_iff.mp h
  refine ⟨what, hseen, ?_⟩
  -- Only a directory at the top brings contributions.
  rcases what with _ | (_ | content | target)
  · exact Or.inr (Or.inr ⟨by simp, (Except.ok.inj h).symm⟩)
  · simp only at h
    split at h
    · next hignored => exact Or.inr (Or.inr ⟨fun _ => hignored, (Except.ok.inj h).symm⟩)
    · next hignored =>
      rw [Bool.not_eq_true] at hignored
      split at h
      · next hcontainer => exact Or.inr (Or.inl ⟨rfl, hignored, hcontainer, h⟩)
      · next hcontainer =>
        rw [Bool.not_eq_true] at hcontainer
        exact Or.inl ⟨rfl, hignored, hcontainer, (Except.ok.inj h).symm⟩
  · exact Or.inr (Or.inr ⟨by simp, (Except.ok.inj h).symm⟩)
  · exact Or.inr (Or.inr ⟨by simp, (Except.ok.inj h).symm⟩)

/-- Registration succeeds if each entry of the root does, and finds what they add. -/
theorem directories_eq_ok {found : List Contribution}
    (h : (directories tree settings root).outcome = .ok found) :
    ∃ entries lists, tree.list root = .ok entries ∧ found = lists.flatten ∧
      List.Forall₂ (fun pair brought =>
        (topEntry tree settings root pair.1 pair.2).outcome = .ok brought) entries lists := by
  unfold directories at h
  cases hlist : tree.list root with
  | error fault =>
    simp only [hlist] at h
    cases h
  | ok entries =>
    simp only [hlist] at h
    obtain ⟨lists, hlists, h⟩ := Traced.outcome_bind_eq_ok_iff.mp h
    exact ⟨entries, lists, rfl, (Except.ok.inj h).symm, Traced.outcome_mapM_eq_ok_iff.mp hlists⟩

/-- The path of a child, as the end of the way to it. -/
theorem join_descend (front : List String) (name child : String) :
    Path.join (descend root (front ++ [name])) child = descend root (front ++ [name] ++ [child]) :=
  (Path.descend_append root (front ++ [name]) [child]).symm

/-- Entering a container brings only what directories are to bring, however deep it is entered. -/
theorem brings_of_container {depth : Nat} {front : List String} {name : String}
    (reached : ContainerAt tree settings root front name) {found : List Contribution}
    (h : (container tree settings depth name (descend root (front ++ [name]))).outcome
      = .ok found) :
    ∀ c ∈ found, ∃ front name, Brings tree settings root front name c := by
  -- By induction on the depth: what a container adds are its children, what they add, and itself.
  induction depth generalizing front name found with
  | zero => cases h
  | succ depth ih =>
    intro c hc
    rcases ((mem_container h).1 c).mp hc with
      ⟨child, hchild, rfl | ⟨hcontainer, inner, hinner, hc⟩⟩ | ⟨hholds, rfl⟩
    · rw [join_descend]
      exact ⟨_, _, .inner reached hchild⟩
    · rw [join_descend] at hinner
      exact ih (.inside reached hchild hcontainer) hinner c hc
    · exact ⟨_, _, .own reached hholds⟩

section

variable {found : List Contribution} (h : (directories tree settings root).outcome = .ok found)

include h

/-- A directory at the root brings itself, or all that is reached through it if it is a container,
and what it brings is among all contributions. -/
theorem exists_brought_of_child {name : String} (hchild : IsChild tree settings root name) :
    ∃ brought : List Contribution, (∀ c ∈ brought, c ∈ found) ∧
      ((isContainer settings name = false ∧
          brought = [contributionOf (Naming.classify name) (Path.join root name)]) ∨
        (isContainer settings name = true ∧
          (container tree settings (containerDepth tree) name (Path.join root name)).outcome
            = .ok brought)) := by
  obtain ⟨entries, lists, hlist, rfl, hlists⟩ := directories_eq_ok h
  obtain ⟨entry, hmem, hseen⟩ := (shows_iff hlist).mp hchild.shown
  obtain ⟨brought, hbrought, htop⟩ := (exists_of_forall₂ hlists).1 _ hmem
  obtain ⟨what, hwhat, hcases⟩ := topEntry_cases htop
  obtain rfl : some Entry.directory = what := Except.ok.inj (hseen.symm.trans hwhat)
  refine ⟨brought, fun c hc => List.mem_flatten.mpr ⟨brought, hbrought, hc⟩, ?_⟩
  rcases hcases with ⟨-, -, hplain, hown⟩ | ⟨-, -, hcontainer, hentered⟩ | ⟨hignored, -⟩
  · exact Or.inl ⟨hplain, hown⟩
  · exact Or.inr ⟨hcontainer, hentered⟩
  · exact absurd (hignored rfl) (by simp [hchild.kept])

/-- Every container that is reached through containers is entered, and what this brings is among
all contributions. -/
theorem ContainerAt.exists_entered {front : List String} {name : String}
    (reached : ContainerAt tree settings root front name) :
    ∃ depth brought,
      (container tree settings (depth + 1) name (descend root (front ++ [name]))).outcome
        = .ok brought ∧ ∀ c ∈ brought, c ∈ found := by
  -- At no depth a container is entered, so one that was entered had some depth left.
  have hpositive : ∀ {depth name path brought},
      (container tree settings depth name path).outcome = .ok brought →
        ∃ below, depth = below + 1 := by
    intro depth name path brought hok
    cases depth with
    | zero => cases hok
    | succ below => exact ⟨below, rfl⟩
  induction reached with
  | @top name hchild hcontainer =>
    obtain ⟨brought, hsub, ⟨hplain, -⟩ | ⟨-, hentered⟩⟩ := exists_brought_of_child h hchild
    · simp [hplain] at hcontainer
    · exact ⟨_, brought, hentered, hsub⟩
  | @inside front name child _ hchild hcontainer ih =>
    obtain ⟨depth, brought, hbrought, hsub⟩ := ih
    obtain ⟨inner, hinner⟩ := (mem_container hbrought).2 child hchild hcontainer
    obtain ⟨below, rfl⟩ := hpositive hinner
    refine ⟨below, inner, join_descend front name child ▸ hinner, fun c hc => hsub c ?_⟩
    exact ((mem_container hbrought).1 c).mpr
      (Or.inl ⟨child, hchild, Or.inr ⟨hcontainer, inner, hinner, hc⟩⟩)

/-- The contributions of the directories of a repository, exactly. -/
theorem mem_directories_iff (c : Contribution) :
    c ∈ found ↔ ∃ front name, Brings tree settings root front name c := by
  constructor
  · intro hc
    obtain ⟨entries, lists, hlist, rfl, hlists⟩ := directories_eq_ok h
    obtain ⟨brought, hbrought, hc⟩ := List.mem_flatten.mp hc
    obtain ⟨⟨name, entry⟩, hmem, htop⟩ := (exists_of_forall₂ hlists).2 brought hbrought
    obtain ⟨what, hseen, hcases⟩ := topEntry_cases htop
    have hchild : what = some .directory → isIgnored settings name = false →
        IsChild tree settings root name := by
      rintro rfl hkept
      exact ⟨(shows_iff hlist).mpr ⟨entry, hmem, hseen⟩, hkept⟩
    -- An entry at the top brings itself, or all that is reached through it.
    rcases hcases with ⟨hwhat, hkept, hplain, rfl⟩ | ⟨hwhat, hkept, hcontainer, hentered⟩ |
      ⟨-, rfl⟩
    · rw [List.mem_singleton.mp hc]
      exact ⟨[], name, .plain (hchild hwhat hkept) hplain⟩
    · exact brings_of_container (.top (hchild hwhat hkept) hcontainer) hentered c hc
    · exact absurd hc List.not_mem_nil
  · rintro ⟨front, name, hbrings⟩
    -- Conversely, what is brought is brought at the top, or within a container that was entered on
    -- the way.
    cases hbrings with
    | plain hchild hplain =>
      obtain ⟨brought, hsub, ⟨-, rfl⟩ | ⟨hcontainer, -⟩⟩ := exists_brought_of_child h hchild
      · exact hsub _ (List.mem_singleton_self _)
      · simp [hplain] at hcontainer
    | inner hreached hchild =>
      obtain ⟨depth, brought, hbrought, hsub⟩ := hreached.exists_entered h
      refine hsub _ (((mem_container hbrought).1 _).mpr (Or.inl ⟨_, hchild, Or.inl ?_⟩))
      rw [join_descend]
    | own hreached hholds =>
      obtain ⟨depth, brought, hbrought, hsub⟩ := hreached.exists_entered h
      exact hsub _ (((mem_container hbrought).1 _).mpr (Or.inr ⟨hholds, rfl⟩))

end

end RepoAtlas.Survey
