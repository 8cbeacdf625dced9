import RepoAtlas.Proofs.Source.Candidates
import RepoAtlas.Proofs.Tree.Rewriting

/-!
# `RepoAtlas.Proofs.Source.Probes`: what a reference leads to

A relative reference is tried as it is spelled, then with an extension, then as a directory with an
index file. An index file can only be there if its directory is, and the directory has been tried by
then. So the index files never decide anything: a reference leads to the first of the paths before
them (`directPaths`), or nowhere.

* `isNormal_of_mem_candidatePaths`, `nodup_candidatePaths`: the paths that are tried are in normal
  form, and no path is tried twice.
* `pathExists_directoryName`: nothing is in a tree without its directory.
* `find?_candidatePaths`: where that is so, an index file is never the first path that is there.
* `resolve?_ignores_index_files`: what a reference leads to.
-/

set_option autoImplicit false

namespace RepoAtlas.Path

/-- A text at the end of a path completes its last name, or is a name if the path has none. -/
theorem absolute_append_text (lead : String) (names : List String) (text : String) :
    absolute lead names ++ text
      = absolute lead (names.dropLast ++ [names.getLastD "" ++ text]) := by
  rcases List.eq_nil_or_concat names with rfl | ⟨front, last, rfl⟩
  · simp [absolute]
  · rw [List.concat_eq_append, List.dropLast_concat, List.getLastD_concat, absolute_concat,
      absolute_concat, String.append_assoc]

/-- A path with an extension at its end has as many names as before, but at least one. -/
theorem isName_of_mem_extended {names : List String} (h : ∀ n ∈ names, IsName n)
    {extension : String} (hname : IsName extension) (hlength : 2 ≤ extension.length) :
    ∀ n ∈ names.dropLast ++ [names.getLastD "" ++ extension], IsName n := by
  refine List.forall_mem_append.mpr
    ⟨fun n hn => h n (List.mem_of_mem_dropLast hn), List.forall_mem_singleton.mpr ?_⟩
  rcases List.eq_nil_or_concat names with rfl | ⟨front, last, rfl⟩
  · rw [List.getLastD_nil, String.empty_append]
    exact hname
  · rw [List.concat_eq_append, List.getLastD_concat]
    exact (h last (by simp)).append hname.no_slash hlength

end RepoAtlas.Path

namespace RepoAtlas.Tree

open RepoAtlas.Path (IsName IsNormal absolute)

variable {tree : Tree} {path : String}

/-- A path exists if it leads to an entry. -/
theorem pathExists_iff : tree.pathExists path = true ↔ ∃ entry, tree.find path = .ok entry := by
  unfold pathExists
  cases tree.find path with
  | ok entry => exact ⟨fun _ => ⟨entry, rfl⟩, fun _ => rfl⟩
  | error fault => exact ⟨fun h => (nomatch h), fun ⟨_, h⟩ => (nomatch h)⟩

/-- Nothing is in a tree without its directory. -/
theorem pathExists_directoryName (hnormal : IsNormal path)
    (h : tree.pathExists path = true) : tree.pathExists (Path.directoryName path) = true := by
  have hlead := Path.isLead_leadingSlashes path
  have hnames : ∀ n ∈ Path.normalNames path, IsName n := fun _ => Path.isName_of_mem_normalNames
  rw [hnormal.eq_absolute] at h ⊢
  generalize Path.leadingSlashes path = lead at hlead h ⊢
  generalize Path.normalNames path = names at hnames h ⊢
  rcases List.eq_nil_or_concat names with rfl | ⟨above, name, rfl⟩
  · -- The top directory is its own directory.
    have htop : Path.directoryName (absolute lead []) = absolute lead [] := by
      rcases hlead with rfl | rfl <;> decide
    rwa [htop]
  rw [List.concat_eq_append] at hnames h ⊢
  obtain ⟨habove, hname⟩ := List.forall_mem_append.mp hnames
  have hname := List.forall_mem_singleton.mp hname
  rw [Path.directoryName_absolute hlead habove hname]
  obtain ⟨entry, hfind⟩ := pathExists_iff.mp h
  obtain ⟨spot, hlocate, -⟩ := find_eq_ok_iff.mp hfind
  obtain ⟨hshort, hfollow⟩ := follow_of_locate hlead hnames hlocate
  -- The lookup goes through the directory, and its path is shorter.
  obtain ⟨directory, hfront⟩ := follow_front hname.ne_empty hfollow
  have hdir : tree.entry? directory = some .directory := by
    rw [follow_append (by decide) (List.cons_ne_nil _ _) hfront] at hfollow
    exact entry?_of_follow_name hfollow
  have hroom : ¬maxPath < (absolute lead above).utf8ByteSize := by
    have hlonger : (absolute lead above).utf8ByteSize ≤ _ := Path.utf8ByteSize_le_join hname
    rw [Path.join_absolute hlead habove hname] at hlonger
    exact Nat.not_lt.mpr (hlonger.trans hshort)
  refine pathExists_iff.mpr ⟨.directory, find_eq_ok_iff.mpr ⟨directory, ?_, hdir⟩⟩
  rw [locate, trace, if_neg hroom,
    lookupNames_absolute hlead fun n hn => (habove n hn).isStep]
  by_cases hnil : above = []
  · subst hnil
    cases hfront
    rfl
  · rw [if_neg hnil, hfront]

end RepoAtlas.Tree

namespace RepoAtlas.Source

open RepoAtlas.Path (IsName IsNormal IsLead absolute)

/-- The path that a reference in a file spells. -/
def spelledPath (file reference : String) : String :=
  Path.normalize (Path.join (Path.directoryName file) reference)

/-- The paths that a reference may mean, but for the index files: the one that it spells, and that
one with an extension. -/
def directPaths (file reference : String) : List String :=
  spelledPath file reference :: omittedExtensions.map (spelledPath file reference ++ ·)

/-- A path that is there, and before which none of the others is there. -/
def IsFirst (present : String → Bool) (paths : List String) (path : String) : Prop :=
  ∃ before after, paths = before ++ path :: after ∧ present path = true ∧
    ∀ earlier ∈ before, present earlier = false

/-- Candidates are the direct ones, then the index files. -/
theorem candidatePaths_eq (file reference : String) :
    candidatePaths file reference = directPaths file reference ++
      indexFiles.map (Path.join (spelledPath file reference)) := rfl

/-- The path that a reference spells is in normal form. -/
theorem isNormal_spelledPath (file reference : String) : IsNormal (spelledPath file reference) :=
  Path.normalize_normalize _

/-! ### The paths that are tried -/

/-- An extension that may be omitted is a proper name, with something behind its dot. -/
theorem isName_of_mem_omittedExtensions :
    ∀ extension ∈ omittedExtensions, IsName extension ∧ 2 ≤ extension.length := by
  decide

/-- An index file has a proper name. -/
theorem isName_of_mem_indexFiles : ∀ index ∈ indexFiles, IsName index := by
  decide

section

variable {base : String} (hbase : IsNormal base)

include hbase

/-- An extension completes the last name of a path. -/
theorem append_eq_absolute (extension : String) :
    base ++ extension = absolute (Path.leadingSlashes base)
      ((Path.normalNames base).dropLast ++ [(Path.normalNames base).getLastD "" ++ extension]) := by
  conv => lhs; rw [hbase.eq_absolute]
  exact Path.absolute_append_text _ _ _

/-- A path in normal form with an extension behind it is in normal form. -/
theorem isNormal_append {extension : String} (h : extension ∈ omittedExtensions) :
    IsNormal (base ++ extension) := by
  obtain ⟨hname, hlength⟩ := isName_of_mem_omittedExtensions extension h
  rw [append_eq_absolute hbase]
  exact Path.isNormal_absolute (Path.isLead_leadingSlashes base)
    (Path.isName_of_mem_extended (fun _ => Path.isName_of_mem_normalNames) hname hlength)

omit hbase in
/-- An index file lies at a place of proper names. -/
theorem isName_of_mem_indexed {index : String} (h : index ∈ indexFiles) :
    ∀ n ∈ Path.normalNames base ++ [index], IsName n :=
  List.forall_mem_append.mpr ⟨fun _ => Path.isName_of_mem_normalNames,
    List.forall_mem_singleton.mpr (isName_of_mem_indexFiles index h)⟩

/-- An index file has one name more than its directory. -/
theorem join_eq_absolute {index : String} (h : index ∈ indexFiles) :
    Path.join base index
      = absolute (Path.leadingSlashes base) (Path.normalNames base ++ [index]) := by
  conv => lhs; rw [hbase.eq_absolute]
  exact Path.join_absolute (Path.isLead_leadingSlashes base)
    (fun _ => Path.isName_of_mem_normalNames) (isName_of_mem_indexFiles index h)

/-- No index file is a path with an extension: those have no more names than the path has, unless it
has none, and then the name is the extension. -/
theorem join_ne_append {index extension : String} (hindex : index ∈ indexFiles)
    (hextension : extension ∈ omittedExtensions) : Path.join base index ≠ base ++ extension := by
  have hlead := Path.isLead_leadingSlashes base
  have hproper : ∀ n ∈ Path.normalNames base, IsName n := fun _ => Path.isName_of_mem_normalNames
  obtain ⟨hname, hlength⟩ := isName_of_mem_omittedExtensions extension hextension
  intro heq
  rw [join_eq_absolute hbase hindex, append_eq_absolute hbase] at heq
  obtain ⟨-, hnames⟩ := Path.absolute_inj hlead hlead (isName_of_mem_indexed hindex)
    (Path.isName_of_mem_extended hproper hname hlength) heq
  obtain ⟨hfront, hlast⟩ := List.append_inj' hnames rfl
  -- The last name would be that of an index file, so nothing of the path could be in front of the
  -- extension.
  have hnil : Path.normalNames base = [] := by
    have hcount := congrArg List.length hfront
    rw [List.length_dropLast] at hcount
    exact List.eq_nil_of_length_eq_zero (by omega)
  rw [hnil, List.getLastD_nil, String.empty_append, List.singleton_inj] at hlast
  have hdiffer : ∀ index ∈ indexFiles, index ∉ omittedExtensions := by decide
  exact hdiffer index hindex (hlast ▸ hextension)

/-- An index file is not the directory that it lies in. -/
theorem join_ne_self {index : String} (h : index ∈ indexFiles) : Path.join base index ≠ base := by
  intro heq
  rw [join_eq_absolute hbase h] at heq
  have hnames := congrArg Path.normalNames heq
  rw [Path.normalNames_absolute (Path.isLead_leadingSlashes base)
    (isName_of_mem_indexed h)] at hnames
  exact absurd hnames (by simp)

/-- The directory of an index file is the path that was spelled. -/
theorem directoryName_join {index : String} (h : index ∈ indexFiles) :
    Path.directoryName (Path.join base index) = base := by
  rw [join_eq_absolute hbase h,
    Path.directoryName_absolute (Path.isLead_leadingSlashes base)
      (fun _ => Path.isName_of_mem_normalNames) (isName_of_mem_indexFiles index h)]
  exact hbase.eq_absolute.symm

/-- The path of an index file is in normal form. -/
theorem isNormal_join {index : String} (h : index ∈ indexFiles) :
    IsNormal (Path.join base index) :=
  hbase.join (isName_of_mem_indexFiles index h)

end

/-- All paths that are tried are in normal form. -/
theorem isNormal_of_mem_candidatePaths {file reference path : String}
    (h : path ∈ candidatePaths file reference) : IsNormal path := by
  have hbase := isNormal_spelledPath file reference
  rw [candidatePaths_eq, directPaths, List.cons_append, List.mem_cons, List.mem_append,
    List.mem_map, List.mem_map] at h
  rcases h with rfl | ⟨extension, hmem, rfl⟩ | ⟨index, hmem, rfl⟩
  · exact hbase
  · exact isNormal_append hbase hmem
  · exact isNormal_join hbase hmem

/-- No path is tried twice. -/
theorem nodup_candidatePaths (file reference : String) :
    (candidatePaths file reference).Nodup := by
  have hbase := isNormal_spelledPath file reference
  rw [candidatePaths_eq, directPaths]
  generalize spelledPath file reference = base at hbase ⊢
  -- No extension is empty.
  have hextensions : ∀ extension ∈ omittedExtensions, base ++ extension ≠ base := by
    intro extension hmem heq
    rw [String.append_eq_left_iff] at heq
    exact absurd (heq ▸ hmem) (by decide)
  rw [List.nodup_append]
  refine ⟨List.nodup_cons.mpr ⟨fun hmem => ?_, ?_⟩, ?_, fun path hpath other hother => ?_⟩
  · obtain ⟨extension, hextension, heq⟩ := List.mem_map.mp hmem
    exact hextensions extension hextension heq
  · exact List.Nodup.map (fun _ _ heq => (String.append_right_inj base).mp heq) (by decide)
  · refine List.Nodup.map_on (fun index hindex index' hindex' heq => ?_) (by decide)
    have hnames := hbase.descend_inj
      (List.forall_mem_singleton.mpr (isName_of_mem_indexFiles index hindex))
      (List.forall_mem_singleton.mpr (isName_of_mem_indexFiles index' hindex')) heq
    exact List.singleton_inj.mp hnames
  · obtain ⟨index, hindex, rfl⟩ := List.mem_map.mp hother
    -- An index file stands in the path, and differs from the path with or without an extension.
    rcases List.mem_cons.mp hpath with rfl | hpath
    · exact (join_ne_self hbase hindex).symm
    · obtain ⟨extension, hextension, rfl⟩ := List.mem_map.mp hpath
      exact (join_ne_append hbase hindex hextension).symm

/-! ### The first path that is there -/

/-- Where nothing is there without its directory, an index file is never the first of the paths that
is there. -/
theorem find?_candidatePaths {present : String → Bool}
    (hclosed : ∀ path, IsNormal path → present path = true →
      present (Path.directoryName path) = true)
    (file reference : String) :
    (candidatePaths file reference).find? present = (directPaths file reference).find? present := by
  have hbase := isNormal_spelledPath file reference
  rw [candidatePaths_eq, List.find?_append]
  cases hfirst : (directPaths file reference).find? present with
  | some path => rfl
  | none =>
    -- Not even the directory of the index files is there.
    have habsent := List.find?_eq_none.mp hfirst _ List.mem_cons_self
    rw [Option.none_or, List.find?_eq_none]
    intro path hpath hpresent
    obtain ⟨index, hindex, rfl⟩ := List.mem_map.mp hpath
    have hdirectory := hclosed _ (isNormal_join hbase hindex) hpresent
    rw [directoryName_join hbase hindex] at hdirectory
    exact habsent hdirectory

/-- The first of some paths that is present is what a search finds. -/
theorem find?_eq_some_iff_isFirst {present : String → Bool} {paths : List String} {path : String} :
    paths.find? present = some path ↔ IsFirst present paths path := by
  simp only [List.find?_eq_some_iff_append, IsFirst, Bool.not_eq_true']
  exact ⟨fun ⟨h, before, after, hsplit, hbefore⟩ => ⟨before, after, hsplit, h, hbefore⟩,
    fun ⟨before, after, hsplit, h, hbefore⟩ => ⟨h, before, after, hsplit, hbefore⟩⟩

/-- What a reference leads to, by the paths before the index files. -/
theorem resolve?_eq_find? {tree : Tree} {file reference : String}
    (h : isRelative reference = true) :
    resolve? tree file reference = (directPaths file reference).find? tree.pathExists := by
  rw [resolve?, if_pos h, find?_candidatePaths fun _ => Tree.pathExists_directoryName]
  cases hfirst : (directPaths file reference).find? tree.pathExists with
  | none => rfl
  | some path =>
    have hmem : path ∈ candidatePaths file reference := by
      rw [candidatePaths_eq]
      exact List.mem_append_left _ (List.mem_of_find?_eq_some hfirst)
    rw [Option.map_some, (isNormal_of_mem_candidatePaths hmem).normalize_eq]

/-- What a reference leads to. The eight paths that are tried are in normal form and differ from
each other, and a relative reference leads to the first of those before the index files that is
there. If none of them is there, or if the reference is not relative, it leads nowhere. -/
theorem resolve?_ignores_index_files (tree : Tree) (file reference : String) :
    ((candidatePaths file reference).length = 8 ∧ (candidatePaths file reference).Nodup ∧
      ∀ path ∈ candidatePaths file reference, IsNormal path) ∧
    (∀ path, resolve? tree file reference = some path ↔
      isRelative reference = true ∧ IsFirst tree.pathExists (directPaths file reference) path) ∧
    (resolve? tree file reference = none ↔
      isRelative reference = false ∨
        ∀ path ∈ directPaths file reference, tree.pathExists path = false) := by
  refine ⟨⟨rfl, nodup_candidatePaths file reference, fun _ => isNormal_of_mem_candidatePaths⟩, ?_⟩
  cases hrelative : isRelative reference with
  | false =>
    have hnowhere : resolve? tree file reference = none := by
      rw [resolve?, hrelative, if_neg Bool.false_ne_true]
    simp [hnowhere]
  | true =>
    rw [resolve?_eq_find? hrelative]
    simp [find?_eq_some_iff_isFirst, List.find?_eq_none]

end RepoAtlas.Source
