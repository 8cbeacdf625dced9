/-!
# `RepoAtlas.Text.Split`: cutting a text at a separator

`splitAt` cuts a text at every occurrence of one character; the pieces between separators may be
empty and there is always at least one. Joining the pieces with the separator gives the text back
(`joinWith_splitAt`).
-/

set_option autoImplicit false

namespace RepoAtlas.Text

/-- The pieces of a text between the occurrences of a separator. -/
def splitAt (separator : Char) : List Char → List (List Char)
  | [] => [[]]
  | c :: rest =>
    if c = separator then [] :: splitAt separator rest
    else match splitAt separator rest with
      | [] => [[c]]
      | piece :: pieces => (c :: piece) :: pieces

/-- Pieces with a separator between neighbours. -/
def joinWith (separator : Char) : List (List Char) → List Char
  | [] => []
  | [piece] => piece
  | piece :: next :: pieces => piece ++ separator :: joinWith separator (next :: pieces)

/-- Splitting gives one piece at least. -/
theorem splitAt_ne_nil (separator : Char) (text : List Char) : splitAt separator text ≠ [] := by
  induction text with
  | nil => simp [splitAt]
  | cons c rest ih =>
    unfold splitAt
    split
    · simp
    · split <;> simp_all

/-- Splitting is undone by joining. -/
theorem joinWith_splitAt (separator : Char) (text : List Char) :
    joinWith separator (splitAt separator text) = text := by
  induction text with
  | nil => rfl
  | cons c rest ih =>
    unfold splitAt
    split
    · next h =>
      subst h
      cases hs : splitAt c rest with
      | nil => exact absurd hs (splitAt_ne_nil c rest)
      | cons piece pieces => rw [joinWith, ← hs, ih]; rfl
    · split
      · next hs => exact absurd hs (splitAt_ne_nil separator rest)
      · next piece pieces hs =>
        rw [hs] at ih
        -- The character goes back in front of the first piece, which may be the only one.
        cases pieces with
        | nil => rw [joinWith] at ih ⊢; rw [ih]
        | cons next pieces => rw [joinWith] at ih ⊢; rw [List.cons_append, ih]

end RepoAtlas.Text
