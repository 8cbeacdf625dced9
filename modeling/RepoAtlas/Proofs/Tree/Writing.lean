import RepoAtlas.Proofs.Tree.Growth

/-!
# `RepoAtlas.Proofs.Tree.Writing`: what is written is read back

A lookup for writing crosses links like one for reading, and also succeeds where only the last name
is missing. So after a file is written to a path, the same path leads to that file, through whatever
links, and the file has the content that was written.

* `follow_use_of_write`: a lookup for writing stops where a lookup for use does.
* `follow_of_vacant`: once a file stands at the vacancy where a lookup stopped, the lookup reaches
  it.
* `readOctets_of_putFile`: hence a written file reads back.
-/

set_option autoImplicit false

namespace RepoAtlas.Tree

variable {tree : Tree} {place : Place} {names : List String} {stop : Stop}

/-! ### Lookups for writing -/

/-- A lookup for writing fails where one for use may not, and is the same otherwise. -/
theorem advance_use_of_write (h : tree.advance .write place names = .ok stop) :
    tree.advance .use place names = .ok stop := by
  induction names generalizing place with
  | nil => exact h
  | cons name rest ih =>
    rw [advance_cons (by decide)]
    unfold advance at h
    cases hentry : tree.entry? place with
    | none => simp [hentry] at h
    | some entry =>
      cases entry with
      | file content => simp [hentry] at h
      | link target => simp [hentry] at h
      | directory =>
        simp only [hentry] at h ⊢
        split at h
        · next hhere => rw [if_pos hhere]; exact ih h
        next hhere =>
        rw [if_neg hhere]
        split at h
        · next hup => rw [if_pos hup]; exact ih h
        next hup =>
        rw [if_neg hup]
        -- A slash after the last name is where the two part.
        split at h
        · cases h
        split at h
        · cases h
        next hsize =>
        rw [if_neg hsize]
        cases hnext : tree.entry? (place ++ [name]) with
        | none => simpa only [hnext] using h
        | some found =>
          cases found with
          | link target => simpa [hnext] using h
          | directory => simp only [hnext] at h; exact ih h
          | file content => simp only [hnext] at h; exact ih h

/-- Where a path may be written to something that is there, it can be used. -/
theorem follow_use_of_write {links : Nat} (h : tree.follow .write links place names = .ok stop) :
    tree.follow .use links place names = .ok stop := by
  -- By induction on the links that may be crossed: where writing stops or goes on, using does the
  -- same.
  induction links generalizing place names with
  | zero =>
    unfold follow at h ⊢
    split at h
    · cases h
    · next hno =>
      rw [advance_use_of_write h]
      split
      · next hlink => exact absurd h (hlink ▸ hno _ _ _)
      · rfl
  | succ links ih =>
    unfold follow at h ⊢
    split at h
    · next directory target rest hlink =>
      rw [advance_use_of_write hlink]
      exact ih h
    · next hno =>
      rw [advance_use_of_write h]
      split
      · next hlink => exact absurd h (hlink ▸ hno _ _ _)
      · rfl

/-! ### Lookups after writing -/

variable {later : Tree} {directory : Place} {name : String} {content : List UInt8}

/-- Where a lookup for writing stopped at a vacancy, it reaches what has been put there since. -/
theorem advance_of_vacant (hgrown : tree.Grown later)
    (hthere : later.entry? (directory ++ [name]) = some (.file content))
    (h : tree.advance .write place names = .ok (.vacant directory name)) :
    later.advance .use place names = .ok (.reached (directory ++ [name])) := by
  induction names generalizing place with
  | nil => cases h
  | cons next rest ih =>
    rw [advance_cons (by decide)]
    unfold advance at h
    cases hentry : tree.entry? place with
    | none => simp [hentry] at h
    | some entry =>
      cases entry with
      | file content => simp [hentry] at h
      | link target => simp [hentry] at h
      | directory =>
        simp only [hentry] at h
        simp only [hgrown.entry?_directory hentry]
        split at h
        · next hhere => rw [if_pos hhere]; exact ih h
        next hhere =>
        rw [if_neg hhere]
        split at h
        · next hup => rw [if_pos hup]; exact ih h
        next hup =>
        rw [if_neg hup]
        split at h
        · cases h
        next hslash =>
        split at h
        · cases h
        next hsize =>
        rw [if_neg hsize]
        cases hnext : tree.entry? (place ++ [next]) with
        | none =>
          simp only [hnext] at h
          split at h
          · next hblank =>
            -- No slash follows the missing name, so the lookup ends with it.
            cases h
            have hrest : rest = [] := by
              simpa [hblank] using hslash
            simp only [hthere, hrest, advance]
          · cases h
        | some found =>
          cases found with
          | link target => simp [hnext] at h
          | directory =>
            simp only [hnext] at h
            simp only [hgrown.entry?_directory hnext]
            exact ih h
          | file old =>
            obtain ⟨content', hnext'⟩ := hgrown.entry?_file hnext
            simp only [hnext] at h
            simp only [hnext']
            exact ih h

/-- A file that is made where nothing was is found by the same names. -/
theorem follow_of_vacant (hgrown : tree.Grown later)
    (hthere : later.entry? (directory ++ [name]) = some (.file content)) {links : Nat}
    (h : tree.follow .write links place names = .ok (.vacant directory name)) :
    later.follow .use links place names = .ok (.reached (directory ++ [name])) := by
  -- Each link on the way is still there in the later tree, and at the end stands the new file.
  induction links generalizing place names with
  | zero =>
    unfold follow at h ⊢
    split at h
    · cases h
    · rw [advance_of_vacant hgrown hthere h]
  | succ links ih =>
    unfold follow at h ⊢
    split at h
    · next link target rest hlink =>
      rw [hgrown.advance (by decide) (advance_use_of_write hlink) fun _ _ => Stop.noConfusion]
      exact ih h
    · rw [advance_of_vacant hgrown hthere h]

/-- A written file stands where the path leads, with the content that was written. -/
theorem readOctets_of_putFile {path : String} (h : tree.putFile path content = .ok later) :
    later.readOctets path = .ok content := by
  have hgrown := grown_putFile h
  -- It is enough to find the place of the file.
  have hread : ∀ place, later.trace .use path = .ok (.reached place) →
      later.entry? place = some (.file content) → later.readOctets path = .ok content := by
    intro place htrace hentry
    have hlocate : later.locate path = .ok place := by
      rw [locate, htrace]
    exact readOctets_eq_ok_iff.mpr ⟨place, hlocate, hentry⟩
  unfold putFile trace at h
  split at h
  · next directory name htrace =>
    split at htrace
    · cases htrace
    next hsize =>
    cases h
    have hthere := @entry?_insert_self tree _ (List.concat_ne_nil name directory) (.file content)
    refine hread _ ?_ hthere
    rw [trace, if_neg hsize]
    exact follow_of_vacant hgrown hthere htrace
  · next place htrace =>
    split at htrace
    · cases htrace
    next hsize =>
    split at h
    · next old hentry =>
      cases h
      refine hread place ?_ (entry?_insert_self (ne_nil_of_file hentry) _)
      rw [trace, if_neg hsize]
      exact hgrown.follow (by decide) (follow_use_of_write htrace)
    · cases h
  · cases h
  · cases h

end RepoAtlas.Tree
