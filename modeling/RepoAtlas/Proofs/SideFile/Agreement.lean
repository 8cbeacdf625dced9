import RepoAtlas.Proofs.Module.Matching
import RepoAtlas.SideFile.Links
import RepoAtlas.SideFile.Modules
import RepoAtlas.SideFile.Packages

/-!
# `RepoAtlas.Proofs.SideFile.Agreement`: side files of two repositories

Side files are looked for at several places, and the first one that says anything counts. If at each
place both repositories have the same to say, or neither has anything, they declare the same
packages and links, and manual modules that differ in their roots at most.

* `first_agrees`: what side files say.
* `packages_agrees`, `links_agrees`, `modules_agrees`: what is made of it.
-/

set_option autoImplicit false

namespace RepoAtlas.SideFile

open RepoAtlas.Module

/-- Two side files that say the same; why one says nothing does not matter. -/
inductive Reading.Matches : Reading → Reading → Prop
  | missing : Matches .missing .missing
  | unreadable (reason reason' : String) : Matches (.unreadable reason) (.unreadable reason')
  | content (value : Json) : Matches (.content value) (.content value)

/-- What is read from a file matches itself. -/
theorem Reading.Matches.refl (reading : Reading) : reading.Matches reading := by
  cases reading with
  | missing => exact .missing
  | unreadable reason => exact .unreadable reason reason
  | content value => exact .content value

variable {F : Failure → Failure → Prop} {tree other : Tree} {root root' : String}
  {places : List String}

/-- What the first of several side files says. -/
theorem first_agrees (h : ∀ place ∈ places, Agree F Reading.Matches
      (read tree (Path.below root place)) (read other (Path.below root' place))) :
    Traced.Agrees F Eq (first tree root places) (first other root' places) := by
  induction places with
  | nil => exact .pure rfl
  | cons place rest ih =>
    have hrest := ih fun next hnext => h next (List.mem_cons_of_mem _ hnext)
    unfold first
    refine (Traced.Agrees.ofExcept (h place List.mem_cons_self)).bind
      fun reading reading' hreading => ?_
    -- Both files are silent and the next place is tried, or both tell the same value.
    cases hreading with
    | missing => exact hrest
    | unreadable reason reason' => exact .note_bind hrest
    | content value =>
      cases value with
      | null => exact hrest
      | _ => exact .pure rfl

/-- The manifests agree if the first files read do. -/
theorem packages_agrees
    (h : Traced.Agrees F Eq (first tree root ["package.json"]) (first other root' ["package.json"])) :
    Traced.Agrees F Eq (packages tree root) (packages other root') :=
  h.bind fun manifest manifest' heq => .pure (by rw [heq])

/-- So do the links. -/
theorem links_agrees (h : Traced.Agrees F Eq (first tree root places) (first other root' places)) :
    Traced.Agrees F Eq (links tree root places) (links other root' places) :=
  h.bind fun content content' heq => .pure (by rw [heq])

/-- The paths that an entry gives for the roots of its module. -/
def pathsOf (entry : Json) : List String :=
  let paths := match filledText? entry "path" with
    | some path => [path]
    | none => texts (entry.member? "rootPaths")
  paths.map CodeText.toPath

/-- The roots of a module are the paths of its entry, from the root of the repository on. -/
theorem rootsOf_eq (root : String) (entry : Json) :
    rootsOf root entry = (pathsOf entry).map (Path.resolveUnder root) := by
  rw [pathsOf, List.map_map]
  rfl

/-- Manual modules match if their roots do. -/
theorem modules_agrees {Same : String → String → Prop}
    (h : Traced.Agrees F Eq (first tree root places) (first other root' places))
    (hroots : ∀ content, (first tree root places).outcome = .ok (some content) →
      ∀ entry ∈ (entriesOf content).filter isObject,
        List.Forall₂ Same (rootsOf root entry) (rootsOf root' entry)) :
    Traced.Agrees F (List.Forall₂ (ManualModule.Matches Same)) (modules tree root places)
      (modules other root' places) := by
  refine h.bind_of_eq_ok fun content content' hcontent heq => .pure ?_
  subst heq
  cases content with
  | none => exact .nil
  | some content =>
    show List.Forall₂ _ (((entriesOf content).filter isObject).map (moduleOf root))
      (((entriesOf content).filter isObject).map (moduleOf root'))
    rw [List.forall₂_map_left_iff, List.forall₂_map_right_iff, List.forall₂_same]
    intro entry hentry
    exact ⟨rfl, hroots content hcontent entry hentry⟩

end RepoAtlas.SideFile
