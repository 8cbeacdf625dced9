import RepoAtlas.Proofs.Module.Registry

/-!
# `RepoAtlas.Proofs.Module.Counters`: what the counters of a module are before the walk

Contributions count nothing. A manual module replaces the counters that it gives, so of several
manual modules with one identifier the last one that gives a counter settles it (`lastGiven`).

* `metricsOf_ensure`, `metricsOf_mergeOne`, `metricsOf_applyLink`: one lemma for each change.
* `get_metricsOf_mergeManual`: the counters after all manual modules.
* `isManual_mergeManual`: the mark that a user asked for a module.
-/

set_option autoImplicit false

namespace RepoAtlas.Module

/-- The four counters of a module, by name. -/
inductive Counter where
  | files
  | lines
  | debt
  | tests
  deriving DecidableEq, Repr

/-- The value of one counter. -/
def Metrics.get {α : Type} (metrics : Metrics α) : Counter → α
  | .files => metrics.files
  | .lines => metrics.lines
  | .debt => metrics.debt
  | .tests => metrics.tests

/-- No counter has begun. -/
@[simp] theorem Metrics.get_zero (counter : Counter) : Metrics.zero.get counter = 0 := by
  cases counter <;> rfl

/-- A counter that is given replaces the one that was there. -/
@[simp] theorem Metrics.get_override (given : Metrics (Option Int)) (metrics : Metrics Int)
    (counter : Counter) :
    (given.override metrics).get counter = (given.get counter).getD (metrics.get counter) := by
  cases counter <;> rfl

/-- The value that the last manual module with an identifier gives a counter, of those that give it
one. -/
def lastGiven (modules : List ManualModule) (id : CodeText) (counter : Counter) : Option Int :=
  ((modules.filter (·.id = id)).filterMap (·.metrics.get counter)).getLast?

/-- Later manual modules come first. -/
theorem lastGiven_cons (m : ManualModule) (rest : List ManualModule) (id : CodeText)
    (counter : Counter) :
    lastGiven (m :: rest) id counter
      = (lastGiven rest id counter).or (if m.id = id then m.metrics.get counter else none) := by
  unfold lastGiven
  by_cases hid : m.id = id
  · cases hget : m.metrics.get counter with
    | none => simp [hid, hget]
    | some value => simp [hid, hget, List.getLast?_cons, Option.or_some]
  · simp [hid]

namespace Registry

/-- The counters of a module; they are zero as long as it is not registered. -/
def metricsOf (registry : Registry) (id : CodeText) : Metrics Int :=
  ((registry.get? id).map Record.metrics).getD .zero

/-- Whether a user asked for a module. -/
def isManual (registry : Registry) (id : CodeText) : Bool :=
  ((registry.get? id).map Record.manual).getD false

variable (registry : Registry)

/-- The counters of an id are those of its record. -/
theorem metricsOf_of_mem {record : Record} (h : record ∈ registry.records) :
    registry.metricsOf record.id = record.metrics := by
  simp [metricsOf, registry.get?_of_mem h]

/-- An id is manual if its record is. -/
theorem isManual_of_mem {record : Record} (h : record ∈ registry.records) :
    registry.isManual record.id = record.manual := by
  simp [isManual, registry.get?_of_mem h]

/-- A manual id has a manual record. -/
theorem exists_mem_of_isManual {id : CodeText} (h : registry.isManual id = true) :
    ∃ record ∈ registry.records, record.id = id ∧ record.manual = true := by
  unfold isManual at h
  cases hget : registry.get? id with
  | none => simp [hget] at h
  | some record =>
    obtain ⟨hrecord, hid⟩ := registry.get?_eq_some_iff.mp hget
    exact ⟨record, hrecord, hid, by simpa [hget] using h⟩

/-- Without records, all counters are zero. -/
theorem metricsOf_empty (declared : List CodeText) (id : CodeText) :
    (empty declared).metricsOf id = .zero := rfl

/-- A contribution counts nothing. -/
theorem metricsOf_ensure (c : Contribution) (id : CodeText) :
    (registry.ensure c).metricsOf id = registry.metricsOf id := by
  unfold metricsOf
  rw [get?_ensure]
  split
  · cases registry.get? id with
    | none => simp [Record.absorb_eq, Record.opened]
    | some record => simp [Record.absorb_eq]
  · rfl

/-- Contributions leave the counters. -/
theorem metricsOf_ensureAll (contributions : List Contribution) (id : CodeText) :
    (registry.ensureAll contributions).metricsOf id = registry.metricsOf id := by
  -- By induction on the contributions, each of which leaves the counters.
  induction contributions generalizing registry with
  | nil => rfl
  | cons c rest ih => exact (ih (registry.ensure c)).trans (registry.metricsOf_ensure c id)

/-- A registry whose records refer to no packages. -/
def WithoutPackages (registry : Registry) : Prop :=
  ∀ id record, registry.get? id = some record → record.packages = .empty

/-- Contributions refer to no packages. -/
theorem withoutPackages_ensureAll {registry : Registry} (h : registry.WithoutPackages)
    (contributions : List Contribution) : (registry.ensureAll contributions).WithoutPackages := by
  induction contributions generalizing registry with
  | nil => exact h
  | cons c rest ih =>
    refine ih fun id record hget => ?_
    rw [get?_ensure] at hget
    split at hget
    · cases hget
      rw [Record.absorb_eq]
      -- A new record has no packages, and an old one had none.
      cases hold : registry.get? id with
      | none => rfl
      | some old => exact h id old hold
    · exact h id record hget

/-- A manual module replaces the counters that it gives. -/
theorem metricsOf_mergeOne (m : ManualModule) {id : CodeText} (hid : id ≠ "") :
    (registry.mergeOne m).metricsOf id
      = if m.id = id then m.metrics.override (registry.metricsOf id)
        else registry.metricsOf id := by
  unfold metricsOf
  rw [get?_mergeOne]
  by_cases hsame : m.id = id
  · rw [if_pos ⟨hsame ▸ hid, hsame.symm⟩, if_pos hsame]
    cases registry.get? id with
    | none => simp [Record.merge_eq, Record.absorb_eq, Record.opened]
    | some record => simp [Record.merge_eq, Record.absorb_eq]
  · rw [if_neg fun h => hsame h.2.symm, if_neg hsame]

/-- After manual modules, a counter has the value that was given to it last, if any. -/
theorem get_metricsOf_mergeManual (modules : List ManualModule) {id : CodeText} (hid : id ≠ "")
    (counter : Counter) :
    ((registry.mergeManual modules).metricsOf id).get counter
      = (lastGiven modules id counter).getD ((registry.metricsOf id).get counter) := by
  induction modules generalizing registry with
  | nil => rfl
  | cons m rest ih =>
    show (((registry.mergeOne m).mergeManual rest).metricsOf id).get counter = _
    rw [ih, metricsOf_mergeOne _ _ hid, lastGiven_cons]
    -- What comes later wins; otherwise it is what this module gives.
    cases lastGiven rest id counter with
    | some value => rfl
    | none => by_cases hsame : m.id = id <;> simp [hsame]

/-- A link counts nothing. -/
theorem metricsOf_applyLink (link : Link) (id : CodeText) :
    (registry.applyLink link).metricsOf id = registry.metricsOf id := by
  unfold metricsOf
  rw [get?_applyLink]
  split
  · cases registry.get? id <;> rfl
  · rfl

/-- So do links. -/
theorem metricsOf_applyLinks (links : List Link) (id : CodeText) :
    (registry.applyLinks links).metricsOf id = registry.metricsOf id := by
  induction links generalizing registry with
  | nil => rfl
  | cons link rest ih =>
    exact (ih (registry.applyLink link)).trans (registry.metricsOf_applyLink link id)

/-- A manual module marks its identifier, and no other manual module takes the mark away. -/
theorem isManual_mergeOne (m : ManualModule) {id : CodeText} (hid : id ≠ "") :
    (registry.mergeOne m).isManual id = (registry.isManual id || decide (m.id = id)) := by
  unfold isManual
  rw [get?_mergeOne]
  by_cases hsame : m.id = id
  · rw [if_pos ⟨hsame ▸ hid, hsame.symm⟩]
    simp [hsame, Record.merge_eq, Record.absorb_eq, ManualModule.contribution]
  · rw [if_neg fun h => hsame h.2.symm]
    simp [hsame]

/-- Every module that is merged is manual from then on. -/
theorem isManual_mergeManual (modules : List ManualModule) {id : CodeText} (hid : id ≠ "") :
    (registry.mergeManual modules).isManual id
      = (registry.isManual id || modules.any (·.id = id)) := by
  induction modules generalizing registry with
  | nil => simp [mergeManual]
  | cons m rest ih =>
    show ((registry.mergeOne m).mergeManual rest).isManual id = _
    rw [ih, isManual_mergeOne _ _ hid, List.any_cons, Bool.or_assoc]

/-- Links make no module manual. -/
theorem isManual_applyLinks (links : List Link) (id : CodeText) :
    (registry.applyLinks links).isManual id = registry.isManual id := by
  induction links generalizing registry with
  | nil => rfl
  | cons link rest ih =>
    refine (ih (registry.applyLink link)).trans ?_
    unfold isManual
    rw [get?_applyLink]
    split
    · cases registry.get? id <;> rfl
    · rfl

end Registry

end RepoAtlas.Module
