/-!
# `RepoAtlas.OrderedSet`: distinct values in order of arrival

Everything the atlas reports is reproducible because its sets remember the order in which their
members arrived: a value that is already there keeps its place. The list of members is the view
of a set, and its having no duplicates is part of the type.

* `toList_insert`: inserting appends a new member and leaves a known one where it is.
* `mem_insert`, `mem_insertMany`: membership after insertion.
-/

set_option autoImplicit false

namespace RepoAtlas

/-- Distinct values in order of first arrival. -/
structure OrderedSet (α : Type) where
  /-- The members, first arrival first. -/
  toList : List α
  nodup : toList.Nodup

namespace OrderedSet

variable {α : Type}

instance [DecidableEq α] : DecidableEq (OrderedSet α) := fun a b =>
  decidable_of_iff (a.toList = b.toList) (by cases a; cases b; simp)

instance [Repr α] : Repr (OrderedSet α) := ⟨fun s => reprPrec s.toList⟩

instance : Membership α (OrderedSet α) := ⟨fun s a => a ∈ s.toList⟩

/-- The set without members. -/
def empty : OrderedSet α := ⟨[], .nil⟩

instance : Inhabited (OrderedSet α) := ⟨empty⟩

/-- The number of members. -/
def size (s : OrderedSet α) : Nat := s.toList.length

variable [DecidableEq α]

instance (a : α) (s : OrderedSet α) : Decidable (a ∈ s) :=
  inferInstanceAs (Decidable (a ∈ s.toList))

/-- Adds a member at the end, unless it is there already. -/
def insert (s : OrderedSet α) (a : α) : OrderedSet α :=
  if h : a ∈ s.toList then s
  else ⟨s.toList ++ [a], by
    rw [List.nodup_append]
    refine ⟨s.nodup, by simp, ?_⟩
    intro x hx y hy
    rw [List.mem_singleton] at hy
    subst hy
    exact fun e => h (e ▸ hx)⟩

/-- Adds members one after the other. -/
def insertMany (s : OrderedSet α) (values : List α) : OrderedSet α :=
  values.foldl insert s

/-- The distinct values of a list, in order of first occurrence. -/
def ofList (values : List α) : OrderedSet α :=
  empty.insertMany values

/-- A value is added at the end, unless it is there. -/
theorem toList_insert (s : OrderedSet α) (a : α) :
    (s.insert a).toList = if a ∈ s.toList then s.toList else s.toList ++ [a] := by
  unfold insert
  split <;> simp_all

/-- The values are those that were there and the new one. -/
theorem mem_insert {s : OrderedSet α} {a b : α} : b ∈ s.insert a ↔ b ∈ s ∨ b = a := by
  show b ∈ (s.insert a).toList ↔ b ∈ s.toList ∨ b = a
  rw [toList_insert]
  split
  · next h =>
    constructor
    · exact Or.inl
    · rintro (h' | rfl) <;> assumption
  · simp

/-- The same for many values. -/
theorem mem_insertMany {s : OrderedSet α} {values : List α} {b : α} :
    b ∈ s.insertMany values ↔ b ∈ s ∨ b ∈ values := by
  unfold insertMany
  induction values generalizing s with
  | nil => simp
  | cons a rest ih =>
    rw [List.foldl_cons, ih, mem_insert, List.mem_cons]
    constructor
    · rintro ((h | h) | h) <;> simp [h]
    · rintro (h | h | h) <;> simp [h]

end OrderedSet

end RepoAtlas
