import RepoAtlas.Proofs.Module.Merging
import RepoAtlas.Proofs.Naming.Projection
import RepoAtlas.Proofs.Survey.Edges
import RepoAtlas.Proofs.Survey.Registration

/-!
# `RepoAtlas.Proofs.Survey.EdgeIds`: when edges share an identifier

An edge is identified by its two ends with an arrow between them. That can be read in more than one
way if an end holds an arrow itself: `a->b->c` leads from `a` to `b->c`, or from `a->b` to `c`. No
identifier that is made from the name of a directory holds an arrow; the identifiers of manual
modules are taken as they are given.

* `Edge.id_eq_iff`: two edges have one identifier exactly if they are the same or one overlaps the
  other.
* `Brings.not_holdsArrow`: names of directories give identifiers without arrows.
* `survey_edge_ids`: the edges of a survey are told apart by their identifiers unless some overlap.
-/

set_option autoImplicit false

namespace RepoAtlas

/-! ### Edges as texts -/

/-- The first edge stops in the middle of where the second one starts: both can be read off one
text, the first by its first arrow, the second by a later one. -/
def Edge.Overlaps (edge other : Edge) : Prop :=
  ∃ middle, other.source = edge.source ++ ("->" : CodeText) ++ middle ∧
    edge.target = middle ++ ("->" : CodeText) ++ other.target

/-- A text with an arrow in it. -/
def HoldsArrow (text : CodeText) : Prop :=
  ("->" : CodeText).points <:+: text.points

namespace Edge

variable {edge other : Edge}

/-- Edges that overlap have one identifier. -/
theorem Overlaps.id_eq (h : edge.Overlaps other) : edge.id = other.id := by
  obtain ⟨middle, hsource, htarget⟩ := h
  unfold Edge.id
  rw [hsource, htarget, CodeText.ext_iff]
  simp only [CodeText.points_append, List.append_assoc]

/-- An edge does not overlap itself, since the longer source holds an arrow more. -/
theorem Overlaps.ne (h : edge.Overlaps other) : edge ≠ other := by
  rintro rfl
  obtain ⟨middle, hsource, -⟩ := h
  have hlength := congrArg (fun text : CodeText => text.points.length) hsource
  simp only [CodeText.points_append, List.length_append] at hlength
  have harrow : ("->" : CodeText).points.length = 2 := rfl
  omega

/-- Of edges that overlap, one starts and the other ends at a text with an arrow. -/
theorem Overlaps.holdsArrow (h : edge.Overlaps other) :
    HoldsArrow other.source ∧ HoldsArrow edge.target := by
  obtain ⟨middle, hsource, htarget⟩ := h
  constructor
  · refine ⟨edge.source.points, middle.points, ?_⟩
    rw [hsource, CodeText.points_append, CodeText.points_append]
  · refine ⟨middle.points, other.target.points, ?_⟩
    rw [htarget, CodeText.points_append, CodeText.points_append]

/-- Of two edges with one text the one whose source is no longer is the other one, or overlaps. -/
theorem eq_or_overlaps {rest : List CodePoint}
    (hsource : other.source.points = edge.source.points ++ rest)
    (htext : ("->" : CodeText).points ++ edge.target.points
      = rest ++ (("->" : CodeText).points ++ other.target.points)) :
    edge = other ∨ edge.Overlaps other := by
  have harrow : ("->" : CodeText).points = [.char '-', .char '>'] := rfl
  rw [harrow] at htext
  -- What the longer source goes on with is nothing, or it starts with the arrow.
  match rest with
  | [] =>
    left
    rw [List.append_nil] at hsource
    rw [List.nil_append, List.append_cancel_left_eq] at htext
    obtain ⟨source, target⟩ := edge
    obtain ⟨source', target'⟩ := other
    cases CodeText.ext hsource
    cases CodeText.ext htext
    rfl
  | [c] =>
    obtain ⟨-, hrest⟩ := List.cons.inj htext
    exact absurd (List.cons.inj hrest).1 (by decide)
  | c :: d :: middle =>
    right
    obtain ⟨rfl, hrest⟩ := List.cons.inj htext
    obtain ⟨rfl, htarget⟩ := List.cons.inj hrest
    refine ⟨⟨middle⟩, CodeText.ext ?_, CodeText.ext ?_⟩
    · simp [hsource]
    · rw [show edge.target.points = _ from htarget]
      simp

/-- Two edges have one identifier exactly if they are the same or one overlaps the other. -/
theorem id_eq_iff : edge.id = other.id ↔
    edge = other ∨ edge.Overlaps other ∨ other.Overlaps edge := by
  constructor
  · intro h
    -- The two ids are one text, which both arrows cut in two.
    have htext : edge.source.points ++ (("->" : CodeText).points ++ edge.target.points)
        = other.source.points ++ (("->" : CodeText).points ++ other.target.points) := by
      simpa [Edge.id] using congrArg CodeText.points h
    rcases List.append_eq_append_iff.mp htext with ⟨rest, hsource, hrest⟩ | ⟨rest, hsource, hrest⟩
    · exact (eq_or_overlaps hsource hrest).imp_right .inl
    · exact (eq_or_overlaps hsource hrest).imp Eq.symm .inr
  · rintro (rfl | h | h)
    · rfl
    · exact h.id_eq
    · exact h.id_eq.symm

/-- Different edges are told apart by their identifiers exactly if none overlaps another. -/
theorem nodup_ids_iff {edges : List Edge} (hnodup : edges.Nodup) :
    (edges.map Edge.id).Nodup ↔
      ∀ edge ∈ edges, ∀ other ∈ edges, ¬edge.Overlaps other := by
  rw [List.nodup_map_iff_inj_on hnodup]
  constructor
  · intro h edge hedge other hother hoverlaps
    exact hoverlaps.ne (h edge hedge other hother hoverlaps.id_eq)
  · intro h edge hedge other hother hid
    rcases id_eq_iff.mp hid with heq | hoverlaps | hoverlaps
    · exact heq
    · exact absurd hoverlaps (h edge hedge other hother)
    · exact absurd hoverlaps (h other hother edge hedge)

end Edge

/-- No text of identifier characters holds an arrow. -/
theorem not_holdsArrow {id : String} (h : ∀ c ∈ id.toList, Naming.isIdentifierChar c = true) :
    ¬HoldsArrow id := by
  intro harrow
  have hhead : CodePoint.char '>' ∈ id.toList.map CodePoint.char := harrow.subset (by decide)
  obtain ⟨c, hc, hchar⟩ := List.mem_map.mp hhead
  cases hchar
  exact absurd (h '>' hc) (by decide)

end RepoAtlas

namespace RepoAtlas.Survey

open RepoAtlas.Module

/-! ### Edges of a survey -/

/-- What a directory or the entry file of a server contributes is known by an identifier without an
arrow. -/
theorem Brings.not_holdsArrow {tree : Tree} {settings : Settings} {root name : String}
    {front : List String} {c : Contribution} (h : Brings tree settings root front name c) :
    ¬HoldsArrow c.id := by
  have hclassify : ∀ name : String, ¬HoldsArrow (Naming.classify name).id := fun name =>
    RepoAtlas.not_holdsArrow fun _ => (Naming.isIdentifier_id_classify name).isIdentifierChar
  cases h with
  | plain _ _ => exact hclassify _
  | inner _ _ => exact hclassify _
  | own _ _ =>
    rw [contributionOf, id_containerIdentity]
    exact hclassify name

namespace Stages.Of

variable {stages : Stages} {s : Session} {given : Option Settings} {root : String} {graph : Graph}

/-- A listed module whose identifier holds an arrow is a manual module. -/
theorem manual_of_holdsArrow (h : stages.Of s given root graph) {id : CodeText}
    (hid : id ∈ graph.ids) (harrow : HoldsArrow id) : ∃ m ∈ stages.manual, m.id = id := by
  have hgraph := Graph.wellFormed_of_build stages.final.distinct stages.final.named
    (fun _ hmem => h.sound_final.of_mem hmem) h.built
  have hmerged : id ∈ stages.merged.ids := by
    have hfinal := hgraph.ids_sublist.mem hid
    rwa [show stages.final.records.map Record.id = stages.final.ids from rfl, Stages.final,
      Registry.ids_applyLinks, h.ids_walked] at hfinal
  by_contra hnone
  have hnot : id ∉ stages.manual.map ManualModule.id := by
    rw [List.mem_map]
    exact hnone
  -- So the repository shows the module by itself.
  obtain ⟨declared, entry, found, -, hfound, hshown⟩ := registered_eq_ok h.registered
  obtain ⟨record, hrecord⟩ := (Registry.mem_ids_iff _).mp hmerged
  rw [Stages.merged, Registry.get?_mergeManual_of_not_mem _ _ hnot, hshown,
    Registry.get?_ensureAll_of_ne] at hrecord
  · cases hrecord
  · rintro c hc rfl
    rcases List.mem_append.mp hc with hc | hc
    · obtain ⟨path, -, rfl⟩ := Option.map_eq_some_iff.mp (Option.mem_toList.mp hc)
      have hbackend : Naming.backend.id.toList.all Naming.isIdentifierChar = true := by decide
      exact RepoAtlas.not_holdsArrow (List.all_eq_true.mp hbackend) harrow
    · obtain ⟨front, name, hbrings⟩ := (mem_directories_iff hfound c).mp hc
      exact hbrings.not_holdsArrow harrow

end Stages.Of

/-- The edges of a survey are all different, and their identifiers tell them apart exactly if none
of them overlaps another. An overlap takes a manual module whose identifier holds an arrow. -/
theorem survey_edge_ids {s s' : Session} {given : Option Settings} {root : String} {graph : Graph}
    (h : Work.survey given root s = .ok graph s') :
    ∃ stages : Stages, stages.Of s given root graph ∧ graph.edges.Nodup ∧
      (∀ edge ∈ graph.edges, ∀ other ∈ graph.edges,
        edge.id = other.id ↔ edge = other ∨ edge.Overlaps other ∨ other.Overlaps edge) ∧
      ((graph.edges.map Edge.id).Nodup ↔
        ∀ edge ∈ graph.edges, ∀ other ∈ graph.edges, ¬edge.Overlaps other) ∧
      ((∀ m ∈ stages.manual, ¬HoldsArrow m.id) → (graph.edges.map Edge.id).Nodup) := by
  obtain ⟨stages, hstages⟩ := exists_stages h
  have hgraph := Graph.wellFormed_of_build stages.final.distinct stages.final.named
    (fun _ hmem => hstages.sound_final.of_mem hmem) hstages.built
  have hiff := Edge.nodup_ids_iff hgraph.edges_nodup
  refine ⟨stages, hstages, hgraph.edges_nodup, fun _ _ _ _ => Edge.id_eq_iff, hiff, ?_⟩
  intro hmanual
  refine hiff.mpr fun edge _ other hother hoverlaps => ?_
  have hsource : other.source ∈ graph.ids := (hstages.mem_edges_iff.mp hother).1
  obtain ⟨m, hm, hid⟩ := hstages.manual_of_holdsArrow hsource hoverlaps.holdsArrow.1
  exact hmanual m hm (hid ▸ hoverlaps.holdsArrow.1)

/-- A repository in which a file and a manual module each make an edge. -/
def plainSession : Session where
  tree := {
    entries :=
      [(["r"], .directory), (["r", "web"], .directory), (["r", "core"], .directory),
        (["r", "web", "a.js"], .file "import '../core/b'".toUTF8.toList),
        (["r", "core", "b.js"], .file []),
        (["r", "modules.json"],
          .file "[\x7b\"id\": \"ops\", \"dependencies\": [\"web\"]\x7d]".toUTF8.toList)]
    distinct := by decide }
  directory := "/"
  now := ⟨2024, 1, 1, 0, 0, 0, 0⟩

/-- Two edges between three modules have two ids. -/
theorem survey_plainSession_edge_ids :
    ∃ graph s', Work.survey (some {}) "/r" plainSession = .ok graph s' ∧
      ∃ stages : Stages, stages.Of plainSession (some {}) "/r" graph ∧
        stages.manual.map ManualModule.id = (["ops"] : List CodeText) ∧ graph.edges.length = 2 ∧
        (graph.edges.map Edge.id).Nodup := by
  have quiet : plainSession.IsQuiet := fun _ h => nomatch h
  have hanswer : (Work.answer? (Work.survey (some {}) "/r") plainSession).any
      (fun graph => decide (graph.edges.length = 2)) = true := by decide +kernel
  -- The manual modules are those of the side file.
  have hread : (SideFile.modules plainSession.tree "/r"
      ({} : Settings).modulesFiles).outcome.toOption.any
        (fun manual => decide (manual.map ManualModule.id = (["ops"] : List CodeText))) = true := by
    decide +kernel
  obtain ⟨graph, s', h⟩ := Work.exists_of_isSome_answer? (Option.isSome_of_any hanswer)
  rw [Work.answer?_of_ok h, Option.any_some, decide_eq_true_eq] at hanswer
  obtain ⟨stages, hstages, -, -, -, hplain⟩ := survey_edge_ids h
  have hpath := hstages.path_eq
    (show Work.answer? (Work.openRoot "/r") plainSession = some "/r" by decide +kernel)
  have hmanual := hstages.manual
  rw [(hstages.trees_eq quiet).2.1, hpath, hstages.settings_eq] at hmanual
  rw [hmanual] at hread
  have hids : stages.manual.map ManualModule.id = (["ops"] : List CodeText) :=
    of_decide_eq_true hread
  refine ⟨graph, s', h, stages, hstages, hids, hanswer, hplain fun m hm => ?_⟩
  have hid : m.id ∈ (["ops"] : List CodeText) := hids ▸ List.mem_map_of_mem hm
  rw [List.mem_singleton.mp hid]
  exact RepoAtlas.not_holdsArrow (List.all_eq_true.mp (by decide))

/-- A repository with manual modules two of which hold an arrow in their identifiers. -/
def arrowSession : Session where
  tree := {
    entries :=
      [(["r"], .directory),
        (["r", "modules.json"], .file ("[\x7b\"id\": \"a\", \"dependencies\": [\"b->c\"]\x7d, "
          ++ "\x7b\"id\": \"a->b\", \"dependencies\": [\"c\"]\x7d, "
          ++ "\x7b\"id\": \"b->c\"\x7d, \x7b\"id\": \"c\"\x7d]").toUTF8.toList)]
    distinct := by decide }
  directory := "/"
  now := ⟨2024, 1, 1, 0, 0, 0, 0⟩

/-- The edges of a survey may share an identifier. -/
theorem exists_edges_with_one_id :
    ¬∀ (s s' : Session) (given : Option Settings) (root : String) (graph : Graph),
      Work.survey given root s = .ok graph s' → (graph.edges.map Edge.id).Nodup := by
  intro hall
  have hanswer : (Work.answer? (Work.survey none "/r") arrowSession).any
      (fun graph => decide (graph.edges.map Edge.id
        = (["a->b->c", "a->b->c"] : List CodeText))) = true := by
    decide +kernel
  obtain ⟨graph, s', h⟩ := Work.exists_of_isSome_answer? (Option.isSome_of_any hanswer)
  rw [Work.answer?_of_ok h, Option.any_some, decide_eq_true_eq] at hanswer
  have hnodup := hall _ _ _ _ _ h
  rw [hanswer] at hnodup
  exact absurd hnodup (by decide)

end RepoAtlas.Survey
