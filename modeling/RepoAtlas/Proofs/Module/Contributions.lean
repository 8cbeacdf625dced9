import RepoAtlas.Proofs.Module.History

/-!
# `RepoAtlas.Proofs.Module.Contributions`: what contributions add up to

The records of a registry that only contributions have gone into are settled by the contributions
alone. A record goes by those to its own module, in their order, and by no others. The first of them
settles name, kind and frameworks; the last one that names a source settles the source; roots add
up, and the manual mark stays once it is set.

* `Record.ofContributions`: the record that contributions to one module lead to, in closed form.
* `get?_ensureAll`: the record of each identifier after any contributions.
* `ensureAll_isSumOf`: what each record holds, field by field, and that only the order of the
  contributions to one module matters.
-/

set_option autoImplicit false

namespace RepoAtlas

namespace Module

/-- The contributions to one module. -/
def contributionsTo (id : CodeText) (contributions : List Contribution) : List Contribution :=
  contributions.filter (·.id = id)

/-- The contribution at the end goes to its id and to no other. -/
theorem contributionsTo_concat (id : CodeText) (before : List Contribution) (c : Contribution) :
    contributionsTo id (before ++ [c])
      = contributionsTo id before ++ if c.id = id then [c] else [] := by
  unfold contributionsTo
  rw [List.filter_append]
  by_cases hid : c.id = id
  · rw [List.filter_cons_of_pos (by simpa using hid), if_pos hid]
    rfl
  · rw [List.filter_cons_of_neg (by simpa using hid), if_neg hid]
    rfl

/-- The roots that contributions name, in normal form. -/
def rootsNamed (contributions : List Contribution) : List String :=
  contributions.flatMap fun c => c.roots.map Path.normalize

/-- The source that contributions name last. -/
def lastSource (contributions : List Contribution) : Option String :=
  ((contributions.map Contribution.source).filter (· ≠ "")).getLast?

/-- The last source is that of the last contribution that has one. -/
theorem lastSource_concat (before : List Contribution) (c : Contribution) :
    lastSource (before ++ [c]) = if c.source = "" then lastSource before else some c.source := by
  unfold lastSource
  rw [List.map_append, List.filter_append, List.getLast?_append, List.map_singleton]
  by_cases hsource : c.source = ""
  · rw [if_pos hsource, List.filter_cons_of_neg (by simpa using hsource)]
    rfl
  · rw [if_neg hsource, List.filter_cons_of_pos (by simpa using hsource)]
    rfl

/-! ### One record -/

namespace Record

/-- The record that contributions to one module lead to. -/
def ofContributions (declared : List CodeText) (first : Contribution) (rest : List Contribution) :
    Record :=
  { opened first declared with
    roots := .ofList (rootsNamed (first :: rest))
    hints := .ofList (rootsNamed (first :: rest))
    source := (lastSource (first :: rest)).getD "auto"
    manual := (first :: rest).any Contribution.manual }

/-- The first contribution opens the record and is taken in. -/
theorem absorb_opened (declared : List CodeText) (c : Contribution) :
    (opened c declared).absorb c = ofContributions declared c [] := by
  have hroots : rootsNamed [c] = c.roots.map Path.normalize := by simp [rootsNamed]
  have hsource : (lastSource [c]).getD "auto" = if c.source = "" then "auto" else c.source := by
    show (lastSource ([] ++ [c])).getD "auto" = _
    rw [lastSource_concat]
    split <;> rfl
  rw [absorb_eq, ofContributions, hroots, hsource, List.any_cons, List.any_nil, Bool.or_false]
  rfl

/-- Every further one is taken in. -/
theorem absorb_ofContributions (declared : List CodeText) (first : Contribution)
    (rest : List Contribution) (c : Contribution) :
    (ofContributions declared first rest).absorb c
      = ofContributions declared first (rest ++ [c]) := by
  have hroots : rootsNamed (first :: (rest ++ [c]))
      = rootsNamed (first :: rest) ++ c.roots.map Path.normalize := by simp [rootsNamed]
  -- The source of the last contribution counts, if it has one.
  have hsource : (lastSource (first :: (rest ++ [c]))).getD "auto"
      = if c.source = "" then (lastSource (first :: rest)).getD "auto" else c.source := by
    rw [← List.cons_append, lastSource_concat]
    split <;> rfl
  have hmanual : (first :: (rest ++ [c])).any Contribution.manual
      = ((first :: rest).any Contribution.manual || c.manual) := by
    rw [← List.cons_append, List.any_append]
    congr 1
    exact Bool.or_false c.manual
  rw [absorb_eq, ofContributions, ofContributions, hroots, hsource, hmanual, OrderedSet.ofList,
    OrderedSet.ofList, OrderedSet.insertMany_append]

/-- What contributions to a module, of which one is the first, add up to. -/
structure IsSumOf (declared : List CodeText) (first : Contribution) (rest : List Contribution)
    (record : Record) : Prop where
  id_eq : record.id = first.id
  name_eq : record.name = if first.name = "" then first.id else first.name
  kind_eq : record.kind = if first.kind = "" then ("code" : CodeText) else first.kind
  /-- Frameworks of the kind that the manifest declares, in the order of the hints. -/
  frameworks_eq : record.frameworks.toList
    = ((frameworkHints.lookup first.kind).getD []).filter (· ∈ declared)
  roots_eq : record.roots.toList
    = ((first :: rest).flatMap fun c => c.roots.map Path.normalize).eraseDups
  hints_eq : record.hints = record.roots
  source_eq : record.source
    = (((first :: rest).map Contribution.source).filter (· ≠ "")).getLast?.getD "auto"
  manual_iff : record.manual = true ↔ ∃ c ∈ first :: rest, c.manual = true
  /-- Contributions bring nothing else. -/
  rest_eq : record.dependencies = .empty ∧ record.packages = .empty ∧ record.metrics = .zero

end Record

/-- No framework is hinted at twice. -/
theorem nodup_hints (kind : CodeText) : ((frameworkHints.lookup kind).getD []).Nodup := by
  have hall : ∀ pair ∈ frameworkHints, pair.2.Nodup := by decide
  cases hlookup : frameworkHints.lookup kind with
  | none => exact .nil
  | some hints =>
    obtain ⟨before, after, hsplit, -⟩ := List.lookup_eq_some_iff.mp hlookup
    refine hall (kind, hints) ?_
    rw [hsplit]
    exact List.mem_append_right _ List.mem_cons_self

/-- The record of some contributions is their sum, field by field. -/
theorem Record.isSumOf_ofContributions (declared : List CodeText) (first : Contribution)
    (rest : List Contribution) :
    (ofContributions declared first rest).IsSumOf declared first rest where
  id_eq := rfl
  name_eq := rfl
  kind_eq := rfl
  frameworks_eq := by
    -- Frameworks are kept in the order of the hints, where none is listed twice.
    have hfilter : frameworksFor first.kind declared
        = ((frameworkHints.lookup first.kind).getD []).filter (· ∈ declared) :=
      List.filter_congr fun name _ => List.contains_eq_mem name declared
    show (OrderedSet.ofList (frameworksFor first.kind declared)).toList = _
    rw [hfilter]
    exact OrderedSet.toList_ofList_of_nodup ((nodup_hints first.kind).filter _)
  roots_eq := OrderedSet.toList_ofList _
  hints_eq := rfl
  source_eq := rfl
  manual_iff := List.any_eq_true
  rest_eq := ⟨rfl, rfl, rfl⟩

/-! ### The registry -/

namespace Registry

/-- The record that contributions lead to, if any of them is to its module. -/
def recordOf (declared : List CodeText) : List Contribution → Option Record
  | [] => none
  | first :: rest => some (.ofContributions declared first rest)

/-- One more contribution to a module. -/
theorem recordOf_concat (declared : List CodeText) (before : List Contribution) (c : Contribution) :
    recordOf declared (before ++ [c])
      = some (((recordOf declared before).getD (.opened c declared)).absorb c) := by
  cases before with
  | nil => exact congrArg some (Record.absorb_opened declared c).symm
  | cons first rest =>
    exact congrArg some (Record.absorb_ofContributions declared first rest c).symm

/-- A contribution leaves the declared frameworks. -/
theorem declared_ensure (registry : Registry) (c : Contribution) :
    (registry.ensure c).declared = registry.declared := by
  unfold ensure
  split
  · rfl
  · dsimp only [update, transform]
    split <;> rfl

/-- So do many. -/
theorem declared_ensureAll (registry : Registry) (contributions : List Contribution) :
    (registry.ensureAll contributions).declared = registry.declared := by
  induction contributions generalizing registry with
  | nil => rfl
  | cons c rest ih => exact (ih (registry.ensure c)).trans (registry.declared_ensure c)

/-- Contributions are taken in one by one, the last one at the end. -/
theorem ensureAll_concat (registry : Registry) (before : List Contribution) (c : Contribution) :
    registry.ensureAll (before ++ [c]) = (registry.ensureAll before).ensure c :=
  List.foldl_append

/-- The record of an identifier is what the contributions to its module lead to. -/
theorem get?_ensureAll (declared : List CodeText) (contributions : List Contribution)
    {id : CodeText} (hid : id ≠ "") :
    ((empty declared).ensureAll contributions).get? id
      = recordOf declared (contributionsTo id contributions) := by
  -- The newest contribution is the one that the record has just taken in.
  induction contributions using List.reverseRecOn with
  | nil => rfl
  | append_singleton before c ih =>
    rw [ensureAll_concat, get?_ensure, ih, contributionsTo_concat, declared_ensureAll]
    by_cases hc : c.id = id
    · rw [if_pos ⟨hc ▸ hid, hc.symm⟩, if_pos hc, recordOf_concat]
      rfl
    · rw [if_neg fun h => hc h.2.symm, if_neg hc, List.append_nil]

/-- The ids are those of the contributions that have one, each where it comes first. -/
theorem idSet_ensureAll (declared : List CodeText) (contributions : List Contribution) :
    ((empty declared).ensureAll contributions).idSet
      = .ofList ((contributions.map Contribution.id).filter (· ≠ ("" : CodeText))) := by
  -- By induction from the end, where the last contribution adds its id.
  induction contributions using List.reverseRecOn with
  | nil => rfl
  | append_singleton before c ih =>
    rw [ensureAll_concat, idSet_of_ids_eq (ids_ensure _ c), ih, List.map_append,
      List.filter_append, OrderedSet.ofList, OrderedSet.ofList, OrderedSet.insertMany_append]
    rfl

/-- A registry that only contributions have gone into is their sum. It lists the identifiers that
they name, empty ones apart, in order of first appearance; each record is the sum of the
contributions to its module; and contributions that come in another order lead to the same records
if those to each module come in the same order. -/
theorem ensureAll_isSumOf (declared : List CodeText) (contributions : List Contribution) :
    let registry := (empty declared).ensureAll contributions
    registry.ids = ((contributions.map Contribution.id).filter (· ≠ ("" : CodeText))).eraseDups ∧
      (∀ record ∈ registry.records, ∃ first rest,
        contributionsTo record.id contributions = first :: rest ∧
          record.IsSumOf declared first rest) ∧
      ∀ others,
        (∀ id : CodeText, id ≠ "" → contributionsTo id others = contributionsTo id contributions) →
        ∀ id, ((empty declared).ensureAll others).get? id = registry.get? id := by
  intro registry
  refine ⟨?_, fun record hrecord => ?_, fun others hothers id => ?_⟩
  · have hids : registry.ids = registry.idSet.toList := rfl
    rw [hids, idSet_ensureAll, OrderedSet.toList_ofList]
  · have hget := registry.get?_of_mem hrecord
    rw [get?_ensureAll declared contributions (registry.named record hrecord)] at hget
    cases hto : contributionsTo record.id contributions with
    | nil =>
      rw [hto] at hget
      cases hget
    | cons first rest =>
      rw [hto] at hget
      refine ⟨first, rest, rfl, ?_⟩
      rw [← Option.some.inj hget]
      exact Record.isSumOf_ofContributions declared first rest
  · by_cases hid : id = ""
    · -- Nothing is ever registered under the empty identifier.
      have hnone : ∀ r : Registry, r.get? id = none := fun r =>
        r.get?_eq_none_iff.mpr fun hmem => r.ne_empty_of_mem_ids hmem hid
      rw [hnone, hnone]
    · rw [get?_ensureAll declared others hid, get?_ensureAll declared contributions hid,
        hothers id hid]

/-- Contributions to two modules and to none, of which the first to `web` names neither a source nor
a name and the last one no source. -/
def mixedContributions : List Contribution :=
  [{ id := "web", kind := "frontend", roots := ["/r/web/", "/r/x/../web"] },
    { id := "", name := "nothing", roots := ["/r/none"] },
    { id := "core", name := "Core", source := "directory" },
    { id := "web", name := "Site", kind := "docs", roots := ["/r/site", "/r/web"],
      source := "manual", manual := true },
    { id := "web", roots := ["//r"] },
    { id := "core", kind := "backend", roots := ["/r/core"], source := "auto" }]

/-- The same contributions, those to `core` first. -/
def sortedContributions : List Contribution :=
  contributionsTo "core" mixedContributions ++ contributionsTo "web" mixedContributions

/-- Contributions to two modules that are mixed come to what they come to when sorted. -/
theorem ensureAll_mixedContributions_isSumOf :
    ((empty ["vue", "react"]).ensureAll mixedContributions).ids
      = (["web", "core"] : List CodeText) ∧
      (∃ record ∈ ((empty ["vue", "react"]).ensureAll mixedContributions).records,
        record.id = "web" ∧ record.name = "web" ∧ record.kind = "frontend" ∧
          record.frameworks.toList = (["react", "vue"] : List CodeText) ∧
          record.roots.toList = ["/r/web", "/r/site", "//r"] ∧ record.source = "manual" ∧
          record.manual = true) ∧
      ∀ id, ((empty ["vue", "react"]).ensureAll sortedContributions).get? id
        = ((empty ["vue", "react"]).ensureAll mixedContributions).get? id := by
  obtain ⟨hids, -, horder⟩ := ensureAll_isSumOf ["vue", "react"] mixedContributions
  refine ⟨hids.trans (by decide +kernel), by decide +kernel, horder sortedContributions ?_⟩
  intro id hid
  by_cases hweb : id = ("web" : CodeText)
  · rw [hweb]
    decide
  by_cases hcore : id = ("core" : CodeText)
  · rw [hcore]
    decide
  · -- No contribution goes to any other id.
    have hnone : ∀ contributions : List Contribution,
        (∀ c ∈ contributions, c.id = "" ∨ c.id = "web" ∨ c.id = "core") →
          contributionsTo id contributions = [] := by
      intro contributions hall
      refine List.filter_eq_nil_iff.mpr fun c hc heq => ?_
      rw [decide_eq_true_eq] at heq
      rcases hall c hc with h | h | h
      · exact hid (heq.symm.trans h)
      · exact hweb (heq.symm.trans h)
      · exact hcore (heq.symm.trans h)
    rw [hnone _ (by decide), hnone _ (by decide)]

end Registry

end Module

end RepoAtlas
