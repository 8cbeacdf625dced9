import RepoAtlas.Proofs.Survey.Directories
import RepoAtlas.Proofs.Tree.Crossing
import RepoAtlas.Survey.Walk

/-!
# `RepoAtlas.Proofs.Survey.Depth`: descents go as deep as they have to

Containers and directories are entered to a given depth only. The depth never decides anything: two
depths that exceed what a descent may still take (`Tree.reserve`, `Tree.roomAt`) lead to the same,
and the depths that surveys start with do.

* `level_congr`: one level of containers depends on the containers in it only.
* `container_eq_of_reserve_lt`, `container_start`: containers, through links.
* `below_eq_of_roomAt_lt`, `below_start`: walks, which enter no links.
-/

set_option autoImplicit false

namespace RepoAtlas.Survey

open RepoAtlas.Module
open RepoAtlas.Path (IsName IsNormal)

variable {tree : Tree} {settings : Settings} {path : String}

/-! ### Containers -/

/-- What is seen as a directory is a directory or a link. -/
theorem not_file_of_seen {entry : Entry} (h : seen tree path entry = .ok (some .directory))
    (content : List UInt8) : entry ≠ .file content := by
  rintro rfl
  cases h

/-- A share depends on what entering comes to for containers only. -/
theorem shareOf_congr {onward onward' : Traced (List Contribution)} {child : String}
    {what : Option Entry}
    (h : what = some .directory → isIgnored settings child = false →
      isContainer settings child = true → onward = onward') :
    shareOf settings onward child path what = shareOf settings onward' child path what := by
  -- What is done further down matters for containers only.
  rcases what with _ | (_ | content | target)
  · rfl
  · unfold shareOf
    dsimp only
    split
    · rfl
    next hkept =>
      split
      next hcontainer => rw [h rfl (Bool.eq_false_iff.mpr hkept) hcontainer]
      · rfl
  · rfl
  · rfl

/-- One level of containers: what a container contributes, given what entering each of its
directories comes to. -/
def level (tree : Tree) (settings : Settings) (inner : String → Traced (List Contribution))
    (name path : String) : Traced (List Contribution) :=
  match tree.list path with
  | .error fault => do
    Traced.note .debug .detector s!"Cannot list composite directory {path}: {fault.message path}"
    return []
  | .ok entries => do
    let shares ← entries.mapM fun pair => do
      let what ← Traced.ofExcept (seen tree (Path.join path pair.1) pair.2)
      shareOf settings (inner pair.1) pair.1 (Path.join path pair.1) what
    if shares.any Share.isSource then
      return shares.flatMap Share.contributions ++ [contributionOf (containerIdentity name) path]
    else return shares.flatMap Share.contributions

/-- A container with some depth left is a level over containers with one less. -/
theorem container_eq_level (tree : Tree) (settings : Settings) (depth : Nat) (name path : String) :
    container tree settings (depth + 1) name path
      = level tree settings
        (fun child => container tree settings depth child (Path.join path child)) name path :=
  container_succ tree settings depth name path

/-- One level depends on what entering comes to for the containers in it only. -/
theorem level_congr {inner inner' : String → Traced (List Contribution)} {name : String}
    (h : ∀ child, IsChild tree settings path child → isContainer settings child = true →
      inner child = inner' child) :
    level tree settings inner name path = level tree settings inner' name path := by
  unfold level
  cases hlist : tree.list path with
  | error fault => rfl
  | ok entries =>
    dsimp only
    refine congrArg (· >>= _) (mapM_congr_of_mem fun pair hpair => ?_)
    refine Traced.bind_congr_of_ok fun what hwhat =>
      shareOf_congr fun hdirectory hkept hcontainer => ?_
    subst hdirectory
    exact h pair.1 ⟨⟨entries, pair.2, hlist, hpair, hwhat⟩, hkept⟩ hcontainer

/-- A directory in a directory has less in reserve. -/
theorem reserve_join_lt_of_mem (hnamed : tree.WellNamed) (hnormal : IsNormal path)
    {entries : List (String × Entry)} (hlist : tree.list path = .ok entries) {name : String}
    {entry : Entry} (hmem : (name, entry) ∈ entries)
    (hseen : seen tree (Path.join path name) entry = .ok (some .directory)) :
    tree.reserve (Path.join path name) < tree.reserve path := by
  obtain ⟨place, hplace, hdir, -⟩ := Tree.list_eq_ok_iff.mp hlist
  exact Tree.reserve_join_lt hnormal hplace hdir (hnamed.isName_of_mem_list hlist hmem)
    ((Tree.mem_list hlist hplace).mp hmem) (not_file_of_seen hseen)

/-- A step to a directory leads to a proper name and takes from the reserve. -/
theorem IsChild.reserve_lt (hnamed : tree.WellNamed) (hnormal : IsNormal path) {name : String}
    (h : IsChild tree settings path name) :
    IsName name ∧ tree.reserve (Path.join path name) < tree.reserve path := by
  obtain ⟨entries, entry, hlist, hmem, hseen⟩ := h.shown
  exact ⟨hnamed.isName_of_mem_list hlist hmem,
    reserve_join_lt_of_mem hnamed hnormal hlist hmem hseen⟩

/-- Containers that are entered deep enough contribute the same, however deep that is. -/
theorem container_eq_of_reserve_lt (hnamed : tree.WellNamed) {depth depth' : Nat}
    (hnormal : IsNormal path) (name : String) (h : tree.reserve path < depth)
    (h' : tree.reserve path < depth') :
    container tree settings depth name path = container tree settings depth' name path := by
  induction depth generalizing path name depth' with
  | zero => exact absurd h (Nat.not_lt_zero _)
  | succ depth ih =>
    obtain ⟨depth', rfl⟩ := Nat.exists_eq_succ_of_ne_zero (Nat.ne_zero_of_lt h')
    rw [container_eq_level, container_eq_level]
    refine level_congr fun child hchild _ => ?_
    obtain ⟨hname, hless⟩ := hchild.reserve_lt hnamed hnormal
    exact ih (hnormal.join hname) child (by omega) (by omega)

/-- The depth that a survey starts with is deep enough. -/
theorem container_start (hnamed : tree.WellNamed) (hnormal : IsNormal path) (name : String)
    {depth : Nat} (h : containerDepth tree ≤ depth) :
    container tree settings (containerDepth tree) name path
      = container tree settings depth name path := by
  have hreserve := tree.reserve_lt path
  have hstart : tree.reserve path < containerDepth tree := Nat.lt_succ_of_lt hreserve
  exact container_eq_of_reserve_lt hnamed hnormal name hstart (Nat.lt_of_lt_of_le hstart h)

/-! ### Walks -/

section

variable {scope : Scope} {owners : Owners} {id : CodeText}

/-- Directories that are walked deep enough show the same, however deep that is. -/
theorem below_eq_of_roomAt_lt (hnamed : tree.WellNamed) {depth depth' : Nat}
    (hnormal : IsNormal path) (h : tree.roomAt path < depth) (h' : tree.roomAt path < depth') :
    below tree scope owners id depth path = below tree scope owners id depth' path := by
  -- By induction on the depth: a directory within has less room, so both depths are enough for it.
  induction depth generalizing path depth' with
  | zero => exact absurd h (Nat.not_lt_zero _)
  | succ depth ih =>
    obtain ⟨depth', rfl⟩ := Nat.exists_eq_succ_of_ne_zero (Nat.ne_zero_of_lt h')
    unfold below
    cases hlist : tree.list path with
    | error fault => rfl
    | ok entries =>
      refine List.flatMap_congr fun pair hpair => ?_
      obtain ⟨name, entry⟩ := pair
      cases entry with
      | file content => rfl
      | link target => rfl
      | directory =>
        obtain ⟨place, hplace, hdir, -⟩ := Tree.list_eq_ok_iff.mp hlist
        have hname := hnamed.isName_of_mem_list hlist hpair
        have hless := Tree.roomAt_join_lt hnormal hplace hdir hname
          ((Tree.mem_list hlist hplace).mp hpair)
        have hjoin : IsNormal (Path.join path name) := hnormal.join hname
        have hsame := @ih _ depth' hjoin (by omega) (by omega)
        dsimp only
        rw [hjoin.normalize_eq, hsame]

/-- The depth that a walk starts with is deep enough. -/
theorem below_start (hnamed : tree.WellNamed) (hnormal : IsNormal path) {depth : Nat}
    (h : tree.entries.length < depth) :
    below tree scope owners id (tree.entries.length + 1) path
      = below tree scope owners id depth path := by
  have hroom := tree.roomAt_le path
  exact below_eq_of_roomAt_lt hnamed hnormal (by omega) (by omega)

end

end RepoAtlas.Survey
