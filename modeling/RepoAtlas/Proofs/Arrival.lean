import Mathlib.Data.List.Induction
import RepoAtlas.Keyed
import RepoAtlas.OrderedSet

/-!
# `RepoAtlas.Proofs.Arrival`: collections that remember the order of arrival

Sets of distinct values (`OrderedSet`) and tables of values under keys (`Keyed`) keep what arrived
first in front. These facts say what a whole series of arrivals leaves:

* `OrderedSet.toList_insertMany`: the earlier members, then the new ones in order of first
  occurrence.
* `OrderedSet.toList_ofList`: the distinct values of a list, each where it first occurs.
* `Keyed.lookup_setMany`: a key has the value that it was given last.
-/

set_option autoImplicit false

namespace RepoAtlas

namespace OrderedSet

variable {α : Type} [DecidableEq α]

/-- A set of values has them all. -/
theorem mem_ofList {values : List α} {b : α} : b ∈ ofList values ↔ b ∈ values := by
  rw [ofList, mem_insertMany]
  exact or_iff_right List.not_mem_nil

omit [DecidableEq α] in
/-- A set is given by its values in order. -/
@[ext] theorem ext_toList {s t : OrderedSet α} (h : s.toList = t.toList) : s = t := by
  cases s
  cases t
  cases h
  rfl

/-- Inserting lists one after the other inserts their concatenation. -/
theorem insertMany_append (s : OrderedSet α) (front back : List α) :
    s.insertMany (front ++ back) = (s.insertMany front).insertMany back :=
  List.foldl_append

/-- The members after inserting many: the earlier ones, then the new ones in order of first
occurrence. -/
theorem toList_insertMany (s : OrderedSet α) (values : List α) :
    (s.insertMany values).toList
      = s.toList ++ (ofList values).toList.filter (fun a => decide (a ∉ s)) := by
  -- The last value is the one that may or may not be new, so the induction is from the end.
  induction values using List.reverseRecOn with
  | nil => simp [insertMany, ofList, empty]
  | append_singleton front a ih =>
    have hone : ∀ t : OrderedSet α, t.insertMany [a] = t.insert a := fun _ => rfl
    rw [insertMany_append, hone, ofList, insertMany_append, hone, ← ofList, toList_insert,
      toList_insert, ih]
    have hmem : a ∈ s.insertMany front ↔ a ∈ s ∨ a ∈ front := mem_insertMany
    have hmem' : a ∈ ofList front ↔ a ∈ front := mem_ofList
    -- Membership is read off the lists, where the induction hypothesis can rewrite it.
    change a ∈ (s.insertMany front).toList ↔ _ at hmem
    change a ∈ (ofList front).toList ↔ _ at hmem'
    rw [ih] at hmem
    rw [if_congr hmem rfl rfl, if_congr hmem' rfl rfl]
    by_cases hfront : a ∈ front
    · rw [if_pos (Or.inr hfront), if_pos hfront]
    · rw [if_neg hfront, List.filter_append]
      by_cases hs : a ∈ s
      · rw [if_pos (Or.inl hs)]
        simp [hs]
      · rw [if_neg (not_or.mpr ⟨hs, hfront⟩)]
        simp [hs]

/-- The earlier members stay in front. -/
theorem prefix_insertMany (s : OrderedSet α) (values : List α) :
    s.toList <+: (s.insertMany values).toList := by
  rw [toList_insertMany]
  exact List.prefix_append _ _

/-- Members that are there already change nothing. -/
theorem insertMany_of_subset {s : OrderedSet α} {values : List α} (h : ∀ a ∈ values, a ∈ s) :
    s.insertMany values = s := by
  refine ext_toList ?_
  rw [toList_insertMany, List.filter_eq_nil_iff.mpr, List.append_nil]
  intro a ha
  simpa using h a (mem_ofList.mp ha)

/-- What was inserted need not be inserted again. -/
theorem insertMany_insertMany (s : OrderedSet α) (values : List α) :
    (s.insertMany values).insertMany values = s.insertMany values :=
  insertMany_of_subset fun _ ha => mem_insertMany.mpr (Or.inr ha)

/-- The first value stays in front, and does not come again. -/
theorem toList_ofList_cons (a : α) (rest : List α) :
    (ofList (a :: rest)).toList = a :: (ofList rest).toList.filter (fun b => decide (b ≠ a)) := by
  show ((empty.insert a).insertMany rest).toList = _
  rw [toList_insertMany]
  have hfirst : (empty.insert a).toList = [a] := toList_insert empty a
  rw [hfirst, List.singleton_append]
  congr 1
  refine List.filter_congr fun b _ => ?_
  rw [decide_eq_decide]
  show b ∉ (empty.insert a).toList ↔ _
  rw [hfirst, List.mem_singleton]

/-- A set made of a list has the values of the list, each where it first occurs. -/
theorem toList_ofList (values : List α) : (ofList values).toList = values.eraseDups := by
  induction values using List.reverseRecOn with
  | nil => rfl
  | append_singleton front a ih =>
    have hone : ∀ t : OrderedSet α, t.insertMany [a] = t.insert a := fun _ => rfl
    rw [ofList, insertMany_append, hone, ← ofList, toList_insert, ih, List.eraseDups_append]
    -- The last value is dropped if it came before, and is the last of the set if not.
    by_cases hmem : a ∈ front
    · have hknown : [a].removeAll front = [] := by simp [List.removeAll, hmem]
      rw [if_pos (List.mem_eraseDups.mpr hmem), hknown, List.eraseDups_nil, List.append_nil]
    · have hnew : [a].removeAll front = [a] := by simp [List.removeAll, hmem]
      rw [if_neg (mt List.mem_eraseDups.mp hmem), hnew]
      rfl

/-- Distinct values stay as they are. -/
theorem toList_ofList_of_nodup {values : List α} (h : values.Nodup) :
    (ofList values).toList = values := by
  induction values with
  | nil => rfl
  | cons a rest ih =>
    rw [List.nodup_cons] at h
    rw [toList_ofList_cons, ih h.2]
    congr 1
    exact List.filter_eq_self.mpr fun b hb => decide_eq_true fun heq => h.1 (heq ▸ hb)

end OrderedSet

namespace Keyed

variable {κ α : Type} [DecidableEq κ]

/-- A look-up goes past the pairs with another key. -/
theorem lookup_cons_eq_ite (key : κ) (value : α) (rest : List (κ × α)) (k : κ) :
    ((key, value) :: rest).lookup k = if k = key then some value else rest.lookup k := by
  rw [List.lookup_cons]
  by_cases h : k = key
  · rw [if_pos h, beq_iff_eq.mpr h]
  · rw [if_neg h, beq_false_of_ne h]

/-- After a key is given a value, that key has it and the others keep theirs. -/
theorem lookup_set (key : κ) (value : α) (table : List (κ × α)) (k : κ) :
    (set key value table).lookup k = if k = key then some value else table.lookup k := by
  induction table with
  | nil => exact lookup_cons_eq_ite key value [] k
  | cons pair rest ih =>
    obtain ⟨other, old⟩ := pair
    unfold set
    -- The key is replaced where it stands, and added at the end if it stands nowhere.
    by_cases ho : other = key
    · subst ho
      rw [if_pos rfl, lookup_cons_eq_ite, lookup_cons_eq_ite]
      by_cases hk : k = other
      · rw [if_pos hk, if_pos hk]
      · rw [if_neg hk, if_neg hk, if_neg hk]
    · rw [if_neg ho, lookup_cons_eq_ite, lookup_cons_eq_ite, ih]
      by_cases hk : k = other
      · rw [if_pos hk, if_pos hk, if_neg fun h => ho (hk.symm.trans h)]
      · rw [if_neg hk, if_neg hk]

/-- After a key is given a value, the table holds that pair and pairs that it held before. -/
theorem mem_of_mem_set {key : κ} {value : α} {table : List (κ × α)} {pair : κ × α}
    (h : pair ∈ set key value table) : pair = (key, value) ∨ pair ∈ table := by
  induction table with
  | nil => exact Or.inl (List.mem_singleton.mp h)
  | cons first rest ih =>
    obtain ⟨other, old⟩ := first
    unfold set at h
    split at h
    · exact (List.mem_cons.mp h).imp_right (List.mem_cons_of_mem _)
    · rcases List.mem_cons.mp h with rfl | h
      · exact Or.inr List.mem_cons_self
      · exact (ih h).imp_right (List.mem_cons_of_mem _)

/-- A new key comes last. -/
theorem set_of_not_mem {key : κ} (value : α) {table : List (κ × α)}
    (h : key ∉ table.map Prod.fst) : set key value table = table ++ [(key, value)] := by
  induction table with
  | nil => rfl
  | cons pair rest ih =>
    obtain ⟨other, old⟩ := pair
    rw [List.map_cons, List.mem_cons, not_or] at h
    rw [set, if_neg (Ne.symm h.1), ih h.2, List.cons_append]

/-- A key has the value that it was given last. -/
theorem lookup_setMany (pairs : List (κ × α)) (k : κ) :
    (setMany pairs).lookup k = pairs.reverse.lookup k := by
  induction pairs using List.reverseRecOn with
  | nil => rfl
  | append_singleton front pair ih =>
    have hstep : setMany (front ++ [pair]) = set pair.1 pair.2 (setMany front) := by
      rw [setMany, List.foldl_append]
      rfl
    rw [hstep, lookup_set, ih, List.reverse_concat, ← lookup_cons_eq_ite]

/-- A key that is only ever given one value has it. -/
theorem lookup_setMany_of_unique {pairs : List (κ × α)} {k : κ} {value : α}
    (hmem : (k, value) ∈ pairs) (huniq : ∀ other, (k, other) ∈ pairs → other = value) :
    (setMany pairs).lookup k = some value := by
  rw [lookup_setMany]
  cases hl : pairs.reverse.lookup k with
  | none => exact absurd (List.lookup_eq_none_iff.mp hl _ (List.mem_reverse.mpr hmem)) (by simp)
  | some other =>
    obtain ⟨front, back, hsplit, -⟩ := List.lookup_eq_some_iff.mp hl
    have hother : (k, other) ∈ pairs := by
      rw [← List.mem_reverse, hsplit]
      exact List.mem_append_right _ List.mem_cons_self
    rw [huniq other hother]

/-- A key that has a value was given it. -/
theorem mem_of_lookup_setMany {pairs : List (κ × α)} {k : κ} {value : α}
    (h : (setMany pairs).lookup k = some value) : (k, value) ∈ pairs := by
  rw [lookup_setMany] at h
  obtain ⟨front, back, hsplit, -⟩ := List.lookup_eq_some_iff.mp h
  rw [← List.mem_reverse, hsplit]
  exact List.mem_append_right _ List.mem_cons_self

end Keyed

end RepoAtlas
