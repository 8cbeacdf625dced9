import Mathlib.Data.List.Chain
import RepoAtlas.CodeText

/-!
# `RepoAtlas.Proofs.CodeText`: texts without pairs of halves

A first half directly before a second half is spelled like the character that the two stand for.
Texts without such a pair are the ones that a spelling tells apart: `joined` takes every text to one
of them, and leaves it alone if it is one already. Texts of characters have no halves at all, so
they are among them.

* `IsJoined`: no first half stands directly before a second half.
* `isJoined_joined`: joining leads to such a text.
* `joined_eq_self_iff`: joining leaves exactly these texts as they are.
* `isJoined_append_iff`: where two texts are put together, only the place where they meet matters.
* `joined_halves`: a pair of halves is joined to its character, so joining loses the pair.
-/

set_option autoImplicit false

namespace RepoAtlas

/-- Whether two code points are the halves of a pair, in this order. -/
def CodePoint.isPair : CodePoint → CodePoint → Bool
  | .high _, .low _ => true
  | _, _ => false

namespace CodeText

/-- A text in which no first half stands directly before a second half. -/
def IsJoined (text : CodeText) : Prop :=
  text.points.IsChain fun point next => point.isPair next = false

instance (text : CodeText) : Decidable text.IsJoined :=
  inferInstanceAs (Decidable (text.points.IsChain _))

variable {text other : CodeText}

/-! ### Joining -/

/-- A code point that starts no pair is kept. -/
theorem joinPoints_cons {point : CodePoint} {rest : List CodePoint}
    (h : ∀ next ∈ rest.head?, point.isPair next = false) :
    joinPoints (point :: rest) = point :: joinPoints rest := by
  rw [joinPoints]
  rintro high low after rfl rfl
  exact Bool.noConfusion (h (.low low) rfl)

/-- A joined text starts with a second half only if the text did. -/
theorem head?_joinPoints {points : List CodePoint} {half : Fin 0x400}
    (h : (joinPoints points).head? = some (.low half)) : points.head? = some (.low half) := by
  fun_cases joinPoints points with
  | case1 high low rest => exact absurd h (by simp [joinPoints])
  | case2 point rest hno =>
    rw [joinPoints.eq_2 point rest hno] at h
    exact h
  | case3 => exact h

/-- Joining leads to a text without pairs. -/
theorem isJoined_joined (text : CodeText) : text.joined.IsJoined := by
  show (joinPoints text.points).IsChain _
  induction text.points using joinPoints.induct with
  | case1 high low rest ih =>
    rw [joinPoints, List.isChain_cons]
    exact ⟨fun _ _ => rfl, ih⟩
  | case2 point rest hno ih =>
    rw [joinPoints.eq_2 point rest hno, List.isChain_cons]
    refine ⟨fun next hnext => ?_, ih⟩
    cases point with
    | char _ => rfl
    | low _ => rfl
    | high high =>
      cases next with
      | char _ => rfl
      | high _ => rfl
      | low low =>
        -- A second half at the front of the joined rest was there before, where it made a pair.
        obtain ⟨after, hrest⟩ := List.head?_eq_some_iff.mp (head?_joinPoints hnext)
        exact absurd hrest (hno high low after rfl)
  | case3 => exact List.isChain_nil

/-- Joining leaves a text without pairs as it is. -/
theorem joined_eq_self (h : text.IsJoined) : text.joined = text := by
  obtain ⟨points⟩ := text
  rw [joined, CodeText.mk.injEq]
  induction points with
  | nil => rfl
  | cons point rest ih =>
    obtain ⟨hfirst, hrest⟩ := List.isChain_cons.mp h
    rw [joinPoints_cons hfirst, ih hrest]

/-- Joining leaves exactly the texts without pairs as they are. -/
theorem joined_eq_self_iff : text.joined = text ↔ text.IsJoined :=
  ⟨fun h => h ▸ isJoined_joined text, joined_eq_self⟩

/-- A text with something in it is a name with something in it. -/
theorem nulled_ne_empty (h : text ≠ "") : text.nulled ≠ "" := by
  intro hempty
  have hpoints : text.points.map (fun point => point.char?.getD (Char.ofNat 0)) = [] :=
    String.ofList_eq_empty_iff.mp hempty
  exact h (CodeText.ext (List.map_eq_nil_iff.mp hpoints))

/-- Joining again changes nothing. -/
@[simp] theorem joined_joined (text : CodeText) : text.joined.joined = text.joined :=
  joined_eq_self (isJoined_joined text)

/-- Joining leaves something of a text that has something in it. -/
@[simp] theorem joined_eq_empty_iff : text.joined = ("" : CodeText) ↔ text = ("" : CodeText) := by
  obtain ⟨points⟩ := text
  rw [CodeText.ext_iff, CodeText.ext_iff]
  show joinPoints points = [] ↔ points = []
  fun_cases joinPoints points with
  | case1 high low rest => simp
  | case2 point rest hno => simp
  | case3 => rfl

/-! ### Texts of characters -/

/-- A text of characters has no pairs. -/
theorem isJoined_ofString (characters : String) : (ofString characters).IsJoined := by
  rw [IsJoined, points_ofString]
  induction characters.toList with
  | nil => exact List.isChain_nil
  | cons c rest ih => exact List.isChain_cons.mpr ⟨fun _ _ => rfl, ih⟩

/-- Joining leaves a text of characters as it is. -/
@[simp] theorem joined_ofString (characters : String) :
    (ofString characters).joined = ofString characters :=
  joined_eq_self (isJoined_ofString characters)

/-! ### Texts put together -/

/-- Texts put together have no pairs if neither has one and they do not meet in one. -/
theorem isJoined_append_iff :
    (text ++ other).IsJoined ↔ text.IsJoined ∧ other.IsJoined ∧
      ∀ last ∈ text.points.getLast?, ∀ first ∈ other.points.head?, last.isPair first = false :=
  List.isChain_append

/-- A pair of halves is joined to its character, so joining loses the pair. -/
theorem joined_halves (high low : Fin 0x400) :
    (CodeText.mk [.high high, .low low]).joined = ⟨[.char (CodePoint.ofPair high low)]⟩ ∧
      ¬ (CodeText.mk [.high high, .low low]).IsJoined :=
  ⟨rfl, fun h => Bool.noConfusion (List.isChain_cons_cons.mp h).1⟩

end CodeText

end RepoAtlas
