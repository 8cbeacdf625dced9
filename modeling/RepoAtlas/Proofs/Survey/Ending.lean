import Mathlib.Data.Set.Finite.List
import RepoAtlas.Proofs.Survey.Completion
import RepoAtlas.Proofs.Survey.Registration

/-!
# `RepoAtlas.Proofs.Survey.Ending`: the registration of directories ends

Containers are entered through containers, and links may make a container hold itself or what it
stands in. Nothing remembers where a descent has been; `container` carries a depth instead. Here the
recursion is taken without that depth (`Enters`, `Registers`): a container has a result once all
containers in it have one. Every descent takes from the reserve of its path, so there is a result,
and it is the one that the depth leads to. The root is a path in normal form, as opening a
repository gives it.

* `enters_container`, `Enters.unique`: the result of a container without a bound on the depth.
* `ContainerAt.length_lt`, `finite_containerWays`: descents are bounded, and there are finitely many.
* `ContainerAt.linksOn_le`: the links that a descent crosses come out of those of one lookup.
* `registration_ends`: the registration of directories has one result, and it is a list of
  contributions or a failure of the system.
-/

set_option autoImplicit false

namespace RepoAtlas.Survey

open RepoAtlas.Module
open RepoAtlas.Path (IsName IsNormal descend)

variable {tree : Tree} {settings : Settings} {root path name : String}

/-! ### The recursion without a depth -/

/-- What entering a container comes to, however deep that goes: all containers in it have come to
something first. -/
inductive Enters (tree : Tree) (settings : Settings) :
    (name path : String) → Traced (List Contribution) → Prop
  | level {name path : String} (inner : String → Traced (List Contribution))
      (enters : ∀ child, IsChild tree settings path child → isContainer settings child = true →
        Enters tree settings child (Path.join path child) (inner child)) :
      Enters tree settings name path (level tree settings inner name path)

/-- The root of a repository, given what entering each of its directories comes to. -/
def topLevel (tree : Tree) (settings : Settings) (inner : String → Traced (List Contribution))
    (root : String) : Traced (List Contribution) :=
  match tree.list root with
  | .error fault => Traced.fail (.system fault root)
  | .ok entries => do
    let contributions ← entries.mapM fun (name, entry) => do
      match ← Traced.ofExcept (seen tree (Path.join root name) entry) with
      | some .directory =>
        if isIgnored settings name then return []
        else if isContainer settings name then inner name
        else return [contributionOf (Naming.classify name) (Path.join root name)]
      | _ => return []
    return contributions.flatten

/-- What registering the directories of a repository comes to, however deep that goes. -/
inductive Registers (tree : Tree) (settings : Settings) (root : String) :
    Traced (List Contribution) → Prop
  | top (inner : String → Traced (List Contribution))
      (enters : ∀ name, IsChild tree settings root name → isContainer settings name = true →
        Enters tree settings name (Path.join root name) (inner name)) :
      Registers tree settings root (topLevel tree settings inner root)

/-- The registration of a survey is the root over containers with a depth. -/
theorem directories_eq_topLevel (tree : Tree) (settings : Settings) (root : String) :
    directories tree settings root
      = topLevel tree settings
        (fun name => container tree settings (containerDepth tree) name (Path.join root name))
        root := by
  rfl

/-- The root depends on what entering comes to for the containers in it only. -/
theorem topLevel_congr {inner inner' : String → Traced (List Contribution)}
    (h : ∀ name, IsChild tree settings root name → isContainer settings name = true →
      inner name = inner' name) :
    topLevel tree settings inner root = topLevel tree settings inner' root := by
  unfold topLevel
  cases hlist : tree.list root with
  | error fault => rfl
  | ok entries =>
    dsimp only
    refine congrArg (· >>= _) (mapM_congr_of_mem fun pair hpair => ?_)
    refine Traced.bind_congr_of_ok fun what hwhat => ?_
    -- Only a directory that is a container is entered.
    rcases what with _ | (_ | content | target)
    · rfl
    · dsimp only
      split
      · rfl
      next hkept =>
        split
        next hcontainer =>
          exact h pair.1 ⟨⟨entries, pair.2, hlist, hpair, hwhat⟩, Bool.eq_false_iff.mpr hkept⟩
            hcontainer
        · rfl
    · rfl
    · rfl

/-- A container comes to one thing only. -/
theorem Enters.unique {result result' : Traced (List Contribution)}
    (h : Enters tree settings name path result) (h' : Enters tree settings name path result') :
    result = result' := by
  -- A level goes by what its containers come to, which is the same by induction.
  induction h generalizing result' with
  | level inner _ ih =>
    cases h' with
    | level inner' enters' =>
      exact level_congr fun child hchild hcontainer =>
        ih child hchild hcontainer (enters' child hchild hcontainer)

/-- Registration comes to one thing only, since each container does. -/
theorem Registers.unique {result result' : Traced (List Contribution)}
    (h : Registers tree settings root result) (h' : Registers tree settings root result') :
    result = result' := by
  obtain ⟨inner, enters⟩ := h
  obtain ⟨inner', enters'⟩ := h'
  exact topLevel_congr fun name hchild hcontainer =>
    (enters name hchild hcontainer).unique (enters' name hchild hcontainer)

/-- A container has a result, and a depth beyond the reserve of its path leads to it. -/
theorem enters_container (hnamed : tree.WellNamed) (hnormal : IsNormal path) {depth : Nat}
    (h : tree.reserve path < depth) :
    Enters tree settings name path (container tree settings depth name path) := by
  -- Each step down costs a part of the reserve, so the depth never runs out before the descent
  -- does.
  induction depth generalizing path name with
  | zero => exact absurd h (Nat.not_lt_zero _)
  | succ depth ih =>
    rw [container_eq_level]
    refine .level _ fun child hchild _ => ?_
    obtain ⟨hname, hless⟩ := hchild.reserve_lt hnamed hnormal
    exact ih (hnormal.join hname) (by omega)

/-- The registration of a survey is what registration comes to without a depth. -/
theorem registers_directories (hnamed : tree.WellNamed) (hnormal : IsNormal root) :
    Registers tree settings root (directories tree settings root) := by
  rw [directories_eq_topLevel]
  refine .top _ fun name hchild _ => ?_
  obtain ⟨hname, -⟩ := hchild.reserve_lt hnamed hnormal
  exact enters_container hnamed (hnormal.join hname) (Nat.lt_succ_of_lt (tree.reserve_lt _))

/-! ### Descents -/

/-- The links that a step from a directory to a name in it crosses by itself: one or none. -/
def crossed (tree : Tree) (path name : String) : Nat :=
  match tree.locate path with
  | .ok place =>
    match tree.entry? (place ++ [name]) with
    | some (.link _) => 1
    | _ => 0
  | .error _ => 0

/-- How many of the steps of a descent go over a link. -/
def linksOn (tree : Tree) (path : String) : List String → Nat
  | [] => 0
  | name :: way => crossed tree path name + linksOn tree (Path.join path name) way

/-- The last step of a way adds the link that it crosses by itself. -/
theorem linksOn_concat (path : String) (front : List String) (name : String) :
    linksOn tree path (front ++ [name])
      = linksOn tree path front + crossed tree (descend path front) name := by
  induction front generalizing path with
  | nil => exact Nat.add_comm _ _
  | cons first front ih =>
    rw [List.cons_append, linksOn, linksOn, ih, Nat.add_assoc]
    rfl

/-- A step of a descent takes the link that it goes over from those that are left. -/
theorem IsChild.leftAt_add_crossed_le (hnamed : tree.WellNamed) (hnormal : IsNormal path)
    (h : IsChild tree settings path name) :
    tree.leftAt (Path.join path name) + crossed tree path name ≤ tree.leftAt path := by
  obtain ⟨entries, entry, hlist, hmem, hseen⟩ := h.shown
  have hname := hnamed.isName_of_mem_list hlist hmem
  obtain ⟨place, hplace, hdir, -⟩ := Tree.list_eq_ok_iff.mp hlist
  have hentry := (Tree.mem_list hlist hplace).mp hmem
  unfold crossed
  rw [hplace]
  dsimp only
  rw [hentry]
  -- A directory crosses no link, and a link costs one at least.
  cases entry with
  | file content => exact absurd rfl (not_file_of_seen hseen content)
  | directory => exact (Tree.leftAt_join hnormal hplace hdir hname hentry).le
  | link target =>
    unfold seen at hseen
    cases hfind : tree.find (Path.join path name) with
    | error fault =>
      rw [hfind] at hseen
      cases fault <;> cases hseen
    | ok found =>
      obtain ⟨spot, hlocate, -⟩ := Tree.find_eq_ok_iff.mp hfind
      exact Tree.leftAt_join_lt hnormal hplace hdir hname hentry hlocate

/-- The name of a child stands in a place of the tree. -/
theorem IsChild.mem_names (h : IsChild tree settings path name) :
    name ∈ tree.entries.flatMap Prod.fst := by
  obtain ⟨entries, entry, hlist, hmem, -⟩ := h.shown
  obtain ⟨place, hplace, -⟩ := Tree.list_eq_ok_iff.mp hlist
  have hentry := (Tree.mem_list hlist hplace).mp hmem
  exact List.mem_flatMap.mpr ⟨_, Tree.entry?_concat_eq_some_iff.mp hentry, by simp⟩

namespace ContainerAt

variable {front : List String}

/-- A descent from a root in normal form ends at a path in normal form. -/
theorem isNormal (hnamed : tree.WellNamed) (hnormal : IsNormal root)
    (h : ContainerAt tree settings root front name) : IsNormal (descend root (front ++ [name])) :=
  hnormal.descend (h.way hnamed hnormal).names

/-- Every step of a descent has taken from the reserve of the root. -/
theorem length_add_reserve_le (hnamed : tree.WellNamed) (hnormal : IsNormal root)
    (h : ContainerAt tree settings root front name) :
    (front ++ [name]).length + tree.reserve (descend root (front ++ [name]))
      ≤ tree.reserve root := by
  induction h with
  | @top name hchild _ =>
    obtain ⟨-, hless⟩ := hchild.reserve_lt hnamed hnormal
    rw [List.nil_append, Path.descend_singleton, List.length_singleton]
    omega
  | @inside front name child above hchild _ ih =>
    obtain ⟨-, hless⟩ := hchild.reserve_lt hnamed (above.isNormal hnamed hnormal)
    rw [join_descend] at hless
    rw [List.length_append, List.length_singleton]
    omega

/-- The links that a descent crosses are taken from those that are left at the root. -/
theorem leftAt_add_linksOn_le (hnamed : tree.WellNamed) (hnormal : IsNormal root)
    (h : ContainerAt tree settings root front name) :
    tree.leftAt (descend root (front ++ [name])) + linksOn tree root (front ++ [name])
      ≤ tree.leftAt root := by
  induction h with
  | @top name hchild _ => exact hchild.leftAt_add_crossed_le hnamed hnormal
  | @inside front name child above hchild _ ih =>
    have hstep := hchild.leftAt_add_crossed_le hnamed (above.isNormal hnamed hnormal)
    rw [join_descend] at hstep
    rw [linksOn_concat]
    omega

/-- A descent goes by names of entries of the tree. -/
theorem mem_names (h : ContainerAt tree settings root front name) :
    ∀ n ∈ front ++ [name], n ∈ tree.entries.flatMap Prod.fst := by
  -- By induction on the descent: each step is to a child, which is an entry of the tree.
  induction h with
  | top hchild _ => exact List.forall_mem_singleton.mpr hchild.mem_names
  | inside _ hchild _ ih =>
    exact List.forall_mem_append.mpr ⟨ih, List.forall_mem_singleton.mpr hchild.mem_names⟩

/-- A descent is shorter than all steps that a lookup can take. -/
theorem length_lt (hnamed : tree.WellNamed) (hnormal : IsNormal root)
    (h : ContainerAt tree settings root front name) :
    (front ++ [name]).length < (Tree.maxLinks + 1) * (tree.entries.length + 1) := by
  have hlength := h.length_add_reserve_le hnamed hnormal
  have hreserve := tree.reserve_lt root
  omega

/-- A descent crosses no more links than a lookup may. -/
theorem linksOn_le (hnamed : tree.WellNamed) (hnormal : IsNormal root)
    (h : ContainerAt tree settings root front name) :
    linksOn tree root (front ++ [name]) ≤ Tree.maxLinks := by
  have hlinks := h.leftAt_add_linksOn_le hnamed hnormal
  have hleft := tree.leftAt_le root
  omega

end ContainerAt

/-- Bounded lists over the members of a list are finitely many. -/
theorem finite_lists (names : List String) (bound : Nat) :
    {way : List String | way.length < bound ∧ ∀ n ∈ way, n ∈ names}.Finite := by
  have hshort := (List.finite_length_lt {n // n ∈ names} bound).image (List.map Subtype.val)
  refine hshort.subset fun way hway => ?_
  obtain ⟨hlength, hmem⟩ := hway
  refine ⟨way.attachWith (· ∈ names) hmem, ?_, List.attachWith_map_subtype_val hmem⟩
  show (way.attachWith (· ∈ names) hmem).length < bound
  rwa [List.length_attachWith]

/-- The ways on which containers are entered. -/
def containerWays (tree : Tree) (settings : Settings) (root : String) : Set (List String) :=
  {way | ∃ front name, ContainerAt tree settings root front name ∧ way = front ++ [name]}

/-- There are finitely many ways to containers: they are short lists of finitely many names. -/
theorem finite_containerWays (hnamed : tree.WellNamed) (hnormal : IsNormal root) :
    (containerWays tree settings root).Finite := by
  have hfinite := finite_lists (tree.entries.flatMap Prod.fst)
    ((Tree.maxLinks + 1) * (tree.entries.length + 1))
  refine hfinite.subset fun way hway => ?_
  obtain ⟨front, name, reached, rfl⟩ := hway
  exact ⟨reached.length_lt hnamed hnormal, reached.mem_names⟩

/-! ### Registration -/

/-- Registering directories fails only because the system refuses something. -/
theorem directories_outcome (hnamed : tree.WellNamed) (hnormal : IsNormal root) :
    (∃ found, (directories tree settings root).outcome = .ok found) ∨
      ∃ fault path, (directories tree settings root).outcome = .error (.system fault path) := by
  cases houtcome : (directories tree settings root).outcome with
  | ok found => exact .inl ⟨found, rfl⟩
  | error failure =>
    right
    -- Listing the root fails, or something in it does; both are failures of the system.
    cases hlist : tree.list root with
    | error fault =>
      unfold directories at houtcome
      rw [hlist] at houtcome
      exact ⟨fault, root, houtcome.symm⟩
    | ok entries =>
      obtain ⟨path, fault, -, rfl⟩ := directories_error hnamed hnormal hlist houtcome
      exact ⟨fault, path, rfl⟩

/-- The registration of directories ends, wherever links lead. It enters containers on finitely many
ways, each of them bounded in length and in the links on it; each container, and the whole, comes to
one result; and the whole returns contributions or fails for the system. -/
theorem registration_ends (hnamed : tree.WellNamed) (hnormal : IsNormal root) :
    (containerWays tree settings root).Finite ∧
    (∀ front name, ContainerAt tree settings root front name →
      (front ++ [name]).length < (Tree.maxLinks + 1) * (tree.entries.length + 1) ∧
      linksOn tree root (front ++ [name]) ≤ Tree.maxLinks ∧
      ∃! result, Enters tree settings name (descend root (front ++ [name])) result) ∧
    (∃! result, Registers tree settings root result) ∧
    Registers tree settings root (directories tree settings root) ∧
    ((∃ found, (directories tree settings root).outcome = .ok found) ∨
      ∃ fault path, (directories tree settings root).outcome = .error (.system fault path)) := by
  have hregisters : Registers tree settings root (directories tree settings root) :=
    registers_directories hnamed hnormal
  refine ⟨finite_containerWays hnamed hnormal, fun front name reached => ?_,
    ⟨_, hregisters, fun _ h => h.unique hregisters⟩, hregisters,
    directories_outcome hnamed hnormal⟩
  have henters : Enters tree settings name (descend root (front ++ [name])) _ :=
    enters_container hnamed (reached.isNormal hnamed hnormal) (Nat.lt_succ_self _)
  exact ⟨reached.length_lt hnamed hnormal, reached.linksOn_le hnamed hnormal,
    _, henters, fun _ h => h.unique henters⟩

/-- A container that holds itself and the directory around it, by links with the names of
containers. -/
def cyclicTree : Tree where
  entries :=
    [(["r"], .directory), (["r", "packages"], .directory),
      (["r", "packages", "apps"], .link "."), (["r", "packages", "modules"], .link "..")]
  distinct := by decide

/-- Two links lead a descent back to where it came from. -/
theorem containerAt_cycle :
    ContainerAt cyclicTree {} "/r" ["packages", "apps", "modules"] "packages" := by
  have htop : ContainerAt cyclicTree {} "/r" [] "packages" :=
    .top ⟨⟨[("packages", .directory)], .directory, by decide +kernel, by decide, rfl⟩,
      by decide +kernel⟩ (by decide +kernel)
  -- The first link leads to the container itself, the second one to the root.
  have hself : ContainerAt cyclicTree {} "/r" ["packages"] "apps" :=
    htop.inside ⟨⟨[("apps", .link "."), ("modules", .link "..")], .link ".", by decide +kernel,
      by decide, by decide +kernel⟩, by decide +kernel⟩ (by decide +kernel)
  have haround : ContainerAt cyclicTree {} "/r" ["packages", "apps"] "modules" :=
    hself.inside ⟨⟨[("apps", .link "."), ("modules", .link "..")], .link "..", by decide +kernel,
      by decide, by decide +kernel⟩, by decide +kernel⟩ (by decide +kernel)
  exact haround.inside ⟨⟨[("packages", .directory)], .directory, by decide +kernel, by decide, rfl⟩,
    by decide +kernel⟩ (by decide +kernel)

/-- With a container in itself and one in what it stands in, registration ends. -/
theorem registration_ends_cyclicTree :
    cyclicTree.WellNamed ∧ IsNormal "/r" ∧
    ContainerAt cyclicTree {} "/r" ["packages", "apps", "modules"] "packages" ∧
    linksOn cyclicTree "/r" ["packages", "apps", "modules", "packages"] = 2 ∧
    (containerWays cyclicTree {} "/r").Finite ∧
    (∀ front name, ContainerAt cyclicTree {} "/r" front name →
      (front ++ [name]).length < 205 ∧ linksOn cyclicTree "/r" (front ++ [name]) ≤ 40 ∧
      ∃! result, Enters cyclicTree {} name (descend "/r" (front ++ [name])) result) ∧
    (∃! result, Registers cyclicTree {} "/r" result) ∧
    Registers cyclicTree {} "/r" (directories cyclicTree {} "/r") ∧
    ((∃ found, (directories cyclicTree {} "/r").outcome = .ok found) ∨
      ∃ fault path, (directories cyclicTree {} "/r").outcome = .error (.system fault path)) := by
  have hnamed : cyclicTree.WellNamed := by decide +kernel
  have hnormal : IsNormal "/r" := by
    unfold IsNormal
    decide +kernel
  exact ⟨hnamed, hnormal, containerAt_cycle, by decide +kernel,
    registration_ends hnamed hnormal⟩

end RepoAtlas.Survey
