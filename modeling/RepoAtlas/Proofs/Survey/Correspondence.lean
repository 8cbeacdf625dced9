import RepoAtlas.Proofs.Agreement
import RepoAtlas.Proofs.Module.Matching
import RepoAtlas.Proofs.Survey.Directories
import RepoAtlas.Proofs.Survey.Snapshot
import RepoAtlas.Proofs.Tree.Growth

/-!
# `RepoAtlas.Proofs.Survey.Correspondence`: two surveys, side by side

Two surveys lead to the same graph if each step of one finds what the same step of the other finds.
`Corresponds` says what this asks of two trees and their roots: a relation `Same` that matches the
paths that the one survey comes across with those of the other, and for matched paths the same
entries, the same listings and the same appearance from the root. Contents are not part of it; that
files and side files say the same is asked for the files that are read, and no others.

* `directories_agrees`, `registered_agrees`: the same modules are registered.
* `forall₂_files_sightingsOf`: a walk comes across the same files.
* `ofTree_agrees`: the whole survey leads to the same graph, or fails on both sides.
-/

set_option autoImplicit false

namespace RepoAtlas.Survey

open RepoAtlas.Module
open RepoAtlas.Tree (SameKind)

/-- An entry of a directory and its partner in another directory, which are seen as the same kind
once links are crossed. -/
structure Partners (F : Failure → Failure → Prop) (Same : String → String → Prop)
    (tree other : Tree) (path path' : String) (pair pair' : String × Entry) : Prop where
  name_eq : pair'.1 = pair.1
  kind : SameKind pair.2 pair'.2
  same : Same (Path.join path pair.1) (Path.join path' pair'.1)
  seen : Agree F (Option.Rel SameKind) (seen tree (Path.join path pair.1) pair.2)
    (seen other (Path.join path' pair'.1) pair'.2)

/-- Two trees with roots that surveys cannot tell apart, contents of files aside. Paths are matched
by `Same`, failures by `F`. -/
structure Corresponds (F : Failure → Failure → Prop) (Same : String → String → Prop)
    (tree other : Tree) (root root' : String) : Prop where
  matching : IsMatching Same
  failure : ∀ failure, F failure failure
  list_root : Agree (fun fault fault' => F (.system fault root) (.system fault' root'))
    (List.Forall₂ (Partners F Same tree other root root')) (tree.list root) (other.list root')
  list : ∀ {path path'}, Same path path' → Agree (fun _ _ => True)
    (List.Forall₂ (Partners F Same tree other path path')) (tree.list path) (other.list path')
  find : ∀ {path path'}, Same path path' →
    Agree (fun _ _ => True) SameKind (tree.find path) (other.find path')
  isSource : ∀ {path path'}, Same path path' → ∀ extensions,
    Path.isSource path extensions = Path.isSource path' extensions
  shown : ∀ path path', Same path path' → Path.hint? path root = Path.hint? path' root'
  relative : ∀ {path path'}, Same path path' →
    Path.relative? path (Path.normalize root) = Path.relative? path' (Path.normalize root')
  /-- The places of the entry of a server. -/
  serverEntry : ∀ place ∈ serverEntries, Same (Path.below root place) (Path.below root' place) ∧
    Agree F Eq (isFileAt tree (Path.below root place)) (isFileAt other (Path.below root' place))
  /-- Containers are entered deep enough on both sides. -/
  containers : ∃ depth, ∀ settings name path path', Same path path' →
    container tree settings (containerDepth tree) name path
        = container tree settings depth name path ∧
      container other settings (containerDepth other) name path'
        = container other settings depth name path'
  /-- Directories are walked deep enough on both sides. -/
  nesting : ∃ depth, ∀ scope scope' owners owners' id path path', Same path path' →
    below tree scope owners id (tree.entries.length + 1) path
        = below tree scope owners id depth path ∧
      below other scope' owners' id (other.entries.length + 1) path'
        = below other scope' owners' id depth path'

/-- A file and its partner, with the same text and references that lead to partners. -/
structure FilesAgree (Same : String → String → Prop) (tree other : Tree) (path path' : String) :
    Prop where
  text : Agree (fun _ _ => True) Eq (tree.readSource path) (other.readSource path')
  references : ∀ text, tree.readSource path = .ok text →
    ∀ reference ∈ (Source.references text).relative.toList,
      Option.Rel (Registry.Matches.LieAlike Same) (Source.resolve? tree path reference)
        (Source.resolve? other path' reference)

namespace Corresponds

variable {F : Failure → Failure → Prop} {Same : String → String → Prop} {tree other : Tree}
  {root root' : String} (h : Corresponds F Same tree other root root')

include h

/-! ### Directories -/

/-- What an entry of a container brings, and what its partner brings. -/
structure SharesMatch (Same : String → String → Prop) (share share' : Share) : Prop where
  isSource : share'.isSource = share.isSource
  contributions : List.Forall₂ (Contribution.Matches Same) share.contributions share'.contributions

/-- Contributions of matched paths match. -/
theorem contributionOf_matches {path path' : String} (hpath : Same path path')
    (identity : Naming.Identity) :
    (contributionOf identity path).Matches Same (contributionOf identity path') where
  rest := rfl
  roots := .cons (h.matching.normalize hpath) .nil

/-- What an entry of a container adds agrees, if what is done further down does. -/
theorem shareOf_agrees (settings : Settings) {child path path' : String} (hpath : Same path path')
    {onward onward' : Traced (List Contribution)}
    (honward : Traced.Agrees F (List.Forall₂ (Contribution.Matches Same)) onward onward')
    {what what' : Option Entry} (hwhat : Option.Rel SameKind what what') :
    Traced.Agrees F (SharesMatch Same) (shareOf settings onward child path what)
      (shareOf settings onward' child path' what') := by
  have hown := h.contributionOf_matches hpath (Naming.classify child)
  -- Entries of the same kind are handled in the same way; only a directory goes further.
  cases hwhat with
  | none => exact .pure ⟨rfl, .nil⟩
  | @some entry entry' hkind =>
    cases hkind with
    | file content content' => exact .pure ⟨rfl, .nil⟩
    | same =>
      cases entry with
      | file content => exact .pure ⟨rfl, .nil⟩
      | link target => exact .pure ⟨rfl, .nil⟩
      | directory =>
        simp only [shareOf]
        split
        · exact .pure ⟨rfl, .nil⟩
        · split
          · exact honward.bind fun inner inner' hinner => .pure ⟨rfl, .cons hown hinner⟩
          · exact .pure ⟨rfl, .cons hown .nil⟩

/-- Entered equally deep, matched containers contribute the same. -/
theorem container_agrees (settings : Settings) (depth : Nat) {path path' : String}
    (hpath : Same path path') (name : String) :
    Traced.Agrees F (List.Forall₂ (Contribution.Matches Same))
      (container tree settings depth name path) (container other settings depth name path') := by
  -- By induction on the depth that is left. Listings agree entry by entry, with matched paths.
  induction depth generalizing path path' name with
  | zero => exact .fail (h.failure _)
  | succ depth ih =>
    have hlist := h.list hpath
    rw [container_succ, container_succ]
    generalize tree.list path = listing at hlist
    generalize other.list path' = listing' at hlist
    cases hlist with
    | error _ => exact .note_bind (.pure .nil)
    | ok hentries =>
      refine Traced.Agrees.bind (V := List.Forall₂ (SharesMatch Same))
        (.mapM hentries fun pair pair' hpair => ?_) fun shares shares' hshares => ?_
      · refine (Traced.Agrees.ofExcept hpair.seen).bind fun what what' hwhat => ?_
        have hsame := hpair.same
        rw [hpair.name_eq] at hsame ⊢
        exact h.shareOf_agrees settings hsame (ih hsame pair.1) hwhat
      · have hcontributions := List.rel_flatMap hshares fun _ _ hshare => hshare.contributions
        have hown := h.contributionOf_matches hpath (containerIdentity name)
        -- Sources of its own make the container a module on both sides or on neither.
        have hany : shares.any Share.isSource = shares'.any Share.isSource :=
          any_eq_any_of_forall₂ hshares fun _ _ hshare => hshare.isSource.symm
        rw [hany]
        split
        · exact .pure (List.rel_append hcontributions (.cons hown .nil))
        · exact .pure hcontributions

/-- What an entry of the root adds agrees. -/
theorem topEntry_agrees (settings : Settings) {pair pair' : String × Entry}
    (hpair : Partners F Same tree other root root' pair pair') :
    Traced.Agrees F (List.Forall₂ (Contribution.Matches Same))
      (topEntry tree settings root pair.1 pair.2)
      (topEntry other settings root' pair'.1 pair'.2) := by
  refine (Traced.Agrees.ofExcept hpair.seen).bind fun what what' hwhat => ?_
  have hsame := hpair.same
  rw [hpair.name_eq] at hsame ⊢
  have hown := h.contributionOf_matches hsame (Naming.classify pair.1)
  cases hwhat with
  | none => exact .pure .nil
  | @some entry entry' hkind =>
    cases hkind with
    | file content content' => exact .pure .nil
    | same =>
      cases entry with
      | file content => exact .pure .nil
      | link target => exact .pure .nil
      | directory =>
        simp only
        split
        · exact .pure .nil
        · split
          · -- From a common depth on, containers come to what they come to with the depths of their
            -- own trees.
            obtain ⟨depth, hdeep⟩ := h.containers
            obtain ⟨hleft, hright⟩ := hdeep settings pair.1 _ _ hsame
            rw [hleft, hright]
            exact h.container_agrees settings depth hsame pair.1
          · exact .pure (.cons hown .nil)

/-- The directories of the repositories contribute the same. -/
theorem directories_agrees (settings : Settings) :
    Traced.Agrees F (List.Forall₂ (Contribution.Matches Same)) (directories tree settings root)
      (directories other settings root') := by
  have hlist := h.list_root
  unfold directories
  generalize tree.list root = listing at hlist
  generalize other.list root' = listing' at hlist
  cases hlist with
  | error hfault => exact .fail hfault
  | ok hentries =>
    refine (Traced.Agrees.mapM hentries fun pair pair' hpair =>
      h.topEntry_agrees settings hpair).bind fun lists lists' hlists => ?_
    refine .pure ?_
    rw [← List.flatMap_id', ← List.flatMap_id']
    exact List.rel_flatMap hlists fun _ _ hfound => hfound

/-! ### Registration -/

/-- The first entry file of a server is found in both trees, or in neither. -/
theorem firstFile?_agrees {places : List String} (hplaces : places ⊆ serverEntries) :
    Agree F (Option.Rel Same) (firstFile? tree root places) (firstFile? other root' places) := by
  induction places with
  | nil => exact .ok .none
  | cons place rest ih =>
    obtain ⟨hsame, hfile⟩ := h.serverEntry place (hplaces List.mem_cons_self)
    refine hfile.bind fun found found' hfound => ?_
    subst hfound
    split
    · exact .ok (.some hsame)
    · exact ih fun _ hmem => hplaces (List.mem_cons_of_mem _ hmem)

/-- The repositories show the same modules. -/
theorem registered_agrees (settings : Settings)
    (hpackages : Traced.Agrees F Eq (SideFile.packages tree root) (SideFile.packages other root')) :
    Traced.Agrees F (Registry.Matches Same) (registered tree settings root)
      (registered other settings root') := by
  refine hpackages.bind fun declared declared' hdeclared => ?_
  subst hdeclared
  refine (Traced.Agrees.ofExcept (h.firstFile?_agrees fun _ hmem => hmem)).bind
    fun entry entry' hentry => ?_
  refine (h.directories_agrees settings).bind fun found found' hfound => .pure ?_
  refine (Registry.Matches.empty declared).ensureAll h.matching (List.rel_append ?_ hfound)
  cases hentry with
  | none => exact .nil
  | some hsame => exact .cons ⟨rfl, .cons (h.matching.normalize hsame) .nil⟩ .nil

/-! ### Walks -/

/-- Matched paths are directories in both trees, or in neither. -/
theorem isDirectory_eq {path path' : String} (hpath : Same path path') :
    other.isDirectory path' = tree.isDirectory path := by
  have hfind := h.find hpath
  unfold Tree.isDirectory
  generalize tree.find path = found at hfind
  generalize other.find path' = found' at hfind
  cases hfind with
  | error _ => rfl
  | ok hkind =>
    cases hkind with
    | same entry => rfl
    | file content content' => rfl

/-- The same for files. -/
theorem isFile_eq {path path' : String} (hpath : Same path path') :
    other.isFile path' = tree.isFile path := by
  have hfind := h.find hpath
  unfold Tree.isFile
  generalize tree.find path = found at hfind
  generalize other.find path' = found' at hfind
  cases hfind with
  | error _ => rfl
  | ok hkind =>
    cases hkind with
    | same entry => rfl
    | file content content' => rfl

section

variable {scope scope' : Scope} {owners owners' : Owners} {id : CodeText}
  (hexcluded : scope'.excluded = scope.excluded)
  (howners : ∀ path path', Same path path' → owners.lookup path = owners'.lookup path')

include hexcluded howners

/-- Walked equally deep, matched directories lead to matched files. -/
theorem forall₂_files_below (depth : Nat) {path path' : String} (hpath : Same path path') :
    List.Forall₂ Same (files (below tree scope owners id depth path))
      (files (below other scope' owners' id depth path')) := by
  -- By induction on the depth that is left, entry by entry.
  induction depth generalizing path path' with
  | zero => exact .nil
  | succ depth ih =>
    have hlist := h.list hpath
    unfold below
    generalize tree.list path = listing at hlist
    generalize other.list path' = listing' at hlist
    cases hlist with
    | error _ => exact .nil
    | ok hentries =>
      unfold files
      rw [List.filterMap_flatMap, List.filterMap_flatMap]
      refine List.rel_flatMap hentries fun pair pair' hpair => ?_
      obtain ⟨name, entry⟩ := pair
      obtain ⟨name', entry'⟩ := pair'
      obtain ⟨hname, hkind, hsame, -⟩ := hpair
      simp only at hname hkind hsame ⊢
      have hchild := h.matching.normalize hsame
      cases hkind with
      | file content content' => exact .cons hchild .nil
      | same =>
        cases entry with
        | file content => exact .cons hchild .nil
        | link target => exact .cons hchild .nil
        | directory =>
          -- Ignored names and owned directories are the same on both sides.
          have henters : enters scope' owners' id name' (Path.normalize (Path.join path' name'))
              = enters scope owners id name (Path.normalize (Path.join path name)) := by
            unfold enters
            rw [← howners _ _ hchild, hexcluded, hname]
          simp only [henters]
          split
          · exact ih hchild
          · exact .nil

/-- The source files that a path leads to are matched one by one. -/
theorem forall₂_files_sightings {path path' : String} (hpath : Same path path') :
    List.Forall₂ Same (files (sightings tree scope owners id path))
      (files (sightings other scope' owners' id path')) := by
  unfold sightings
  rw [h.isDirectory_eq hpath, h.isFile_eq hpath]
  split
  · obtain ⟨depth, hdeep⟩ := h.nesting
    obtain ⟨hleft, hright⟩ := hdeep scope scope' owners owners' id path path' hpath
    rw [hleft, hright]
    exact h.forall₂_files_below hexcluded howners depth hpath
  · split
    · exact .cons hpath .nil
    · exact .nil

/-- The walks of matched modules come across matched files. -/
theorem forall₂_files_sightingsOf (hextensions : scope'.extensions = scope.extensions)
    {record record' : Record} (hrecord : record.Matches Same record') :
    List.Forall₂ Same (files (sightingsOf tree scope owners record))
      (files (sightingsOf other scope' owners' record')) := by
  rw [files_sightingsOf, files_sightingsOf]
  -- Roots are matched in order, and so is what they lead to.
  have hfound : List.Forall₂ Same
      (record.roots.toList.flatMap fun root => files (sightings tree scope owners record.id root))
      (record'.roots.toList.flatMap fun root =>
        files (sightings other scope' owners' record'.id root)) :=
    List.rel_flatMap hrecord.roots fun path path' hpath => by
      rw [hrecord.id_eq]
      exact h.forall₂_files_sightings hexcluded howners hpath
  refine List.rel_filter (fun path path' hpath => ?_) (h.matching.insertMany .nil hfound)
  show Path.isSource path scope.extensions = true ↔ Path.isSource path' scope'.extensions = true
  rw [hextensions, h.isSource hpath]

end

section

variable {registry registry' : Registry} (hregistry : registry.Matches Same registry')
  {settings : Settings}

include hregistry

/-- Matched files say the same. -/
theorem report_eq {path path' : String} (hpath : Same path path') {text : List Char}
    (hreferences : ∀ reference ∈ (Source.references text).relative.toList,
      Option.Rel (Registry.Matches.LieAlike Same) (Source.resolve? tree path reference)
        (Source.resolve? other path' reference)) (id : CodeText) :
    report tree (scopeAt settings root) registry id path text
      = report other (scopeAt settings root') registry' id path' text := by
  have hrelative := h.relative hpath
  -- References lead to nothing, or to paths with the same owner.
  have howners : ∀ reference ∈ (Source.references text).relative.toList,
      ((Source.resolve? tree path reference >>= registry.findOwner).map Record.id)
        = (Source.resolve? other path' reference >>= registry'.findOwner).map Record.id := by
    intro reference hmem
    have hleads := hreferences reference hmem
    generalize Source.resolve? tree path reference = led at hleads
    generalize Source.resolve? other path' reference = led' at hleads
    cases hleads with
    | none => rfl
    | some halike => exact hregistry.map_id_findOwner halike
  unfold report
  simp only [List.map_filterMap, List.filterMap_congr howners]
  show FileReport.mk _ _ (Source.looksLikeTest
    ((Path.relative? path (Path.normalize root)).getD "")) _ _ = _
  rw [hrelative]
  rfl

/-- The files that are read for matched modules say the same, one by one. -/
theorem reportsOf_eq {record record' : Record} (hrecord : record.Matches Same record')
    (hfiles : ∀ path ∈ files (sightingsOf tree (scopeAt settings root) registry.rootOwners record),
      ∀ path', Same path path' → FilesAgree Same tree other path path') :
    reportsOf tree (scopeAt settings root) registry record.id
        (readings tree (scopeAt settings root) registry.rootOwners record)
      = reportsOf other (scopeAt settings root') registry' record'.id
        (readings other (scopeAt settings root') registry'.rootOwners record') := by
  have hmatched : List.Forall₂ Same
      (files (sightingsOf tree (scopeAt settings root) registry.rootOwners record))
      (files (sightingsOf other (scopeAt settings root') registry'.rootOwners record')) :=
    h.forall₂_files_sightingsOf
      (show (scopeAt settings root').excluded = (scopeAt settings root).excluded from rfl)
      (fun path path' => hregistry.lookup_rootOwners h.matching) rfl hrecord
  unfold reportsOf readings
  rw [List.map_filterMap, List.map_filterMap, ← List.forall₂_eq_eq_eq]
  refine List.rel_filterMap (fun path path' hpath => ?_)
    ((List.forall₂_and_left _ _).mpr ⟨fun path hmem => hmem, hmatched⟩)
  obtain ⟨hmem, hsame⟩ := hpath
  have hfile := hfiles path hmem path' hsame
  have htext := hfile.text
  unfold reading?
  -- A file that cannot be read reports nothing on either side.
  cases hread : tree.readSource path with
  | error fault =>
    rw [hread] at htext
    generalize other.readSource path' = read' at htext
    cases htext with
    | error _ => exact .none
  | ok text =>
    rw [hread] at htext
    generalize other.readSource path' = read' at htext
    cases htext with
    | ok heq =>
      subst heq
      rw [hrecord.id_eq]
      exact .some (h.report_eq hregistry hsame (hfile.references text hread) record.id)

/-- Matched registries match after the walk. -/
theorem walk_agrees (hfiles : ∀ record ∈ registry.records,
      ∀ path ∈ files (sightingsOf tree (scopeAt settings root) registry.rootOwners record),
        ∀ path', Same path path' → FilesAgree Same tree other path path') :
    Traced.Agrees F (fun found found' => found.1.Matches Same found'.1)
      (walk tree (scopeAt settings root) registry)
      (walk other (scopeAt settings root') registry') := by
  obtain ⟨walked, hwalk, hdeclared, hrecords⟩ := walk_eq_ok tree (scopeAt settings root) registry
  obtain ⟨walked', hwalk', hdeclared', hrecords'⟩ :=
    walk_eq_ok other (scopeAt settings root') registry'
  unfold Traced.Agrees
  rw [hwalk, hwalk']
  refine .ok ⟨by rw [hdeclared', hdeclared, hregistry.declared], ?_⟩
  rw [hrecords, hrecords']
  refine List.rel_map (fun record record' hrecord => ?_)
    ((List.forall₂_and_left _ _).mpr ⟨fun record hmem => hmem, hregistry.records⟩)
  -- A record gains the same reports on both sides.
  obtain ⟨hmem, hmatch⟩ := hrecord
  rw [h.reportsOf_eq hregistry hmatch (hfiles record hmem)]
  exact hmatch.change (f := (gainAll · _)) (fun _ _ _ => rfl) (fun _ => rfl) fun _ => rfl

end

/-! ### The whole survey -/

/-- The graphs of matched registries are the same. -/
theorem finished_agrees {registry registry' : Registry}
    (hregistry : registry.Matches Same registry') :
    Traced.Agrees F Eq (finished root registry) (finished root' registry') := by
  unfold finished
  rw [hregistry.build_eq h.shown]
  split
  · exact .fail (h.failure _)
  · exact .note_bind (.pure rfl)

section

variable (settings : Settings)
  (hpackages : Traced.Agrees F Eq (SideFile.packages tree root) (SideFile.packages other root'))
  (hmodules : Traced.Agrees F (List.Forall₂ (ManualModule.Matches Same))
    (SideFile.modules tree root settings.modulesFiles)
    (SideFile.modules other root' settings.modulesFiles))

include hpackages hmodules

/-- The modules that are walked match if manifests and manual modules do. -/
theorem mergedOf_agrees : Traced.Agrees F (Registry.Matches Same) (mergedOf tree settings root)
    (mergedOf other settings root') := by
  refine (h.registered_agrees settings hpackages).bind fun shown shown' hshown => ?_
  refine hmodules.bind fun manual manual' hmanual => .note_bind (.pure ?_)
  exact hshown.mergeManual h.matching hmanual

/-- Surveys of corresponding repositories lead to the same graph, or fail, if side files say the
same and so do the files that are read. -/
theorem ofTree_agrees
    (hlinks : Traced.Agrees F Eq (SideFile.links tree root settings.linksFiles)
      (SideFile.links other root' settings.linksFiles))
    (hfiles : ∀ merged, (mergedOf tree settings root).outcome = .ok merged →
      ∀ record ∈ merged.records,
        ∀ path ∈ files (sightingsOf tree (scopeAt settings root) merged.rootOwners record),
          ∀ path', Same path path' → FilesAgree Same tree other path path') :
    Traced.Agrees F Eq (ofTree tree settings root) (ofTree other settings root') := by
  refine (h.mergedOf_agrees settings hpackages hmodules).bind_of_eq_ok
    fun merged merged' heq hmatch => ?_
  -- The walk agrees in its registry; the number of files is only told.
  have hwalked : Traced.Agrees F (Registry.Matches Same) (walked tree settings root merged)
      (walked other settings root' merged') :=
    (h.walk_agrees hmatch (hfiles merged heq)).bind fun found found' hfound =>
      .note_bind (.pure hfound)
  refine hwalked.bind fun registry registry' hregistry => ?_
  refine (hlinks.bind fun links links' heq => ?_).bind fun final final' hfinal =>
    h.finished_agrees hfinal
  subst heq
  exact .pure (hregistry.applyLinks links)

end

end Corresponds

end RepoAtlas.Survey
