import RepoAtlas.Proofs.Graph.WellFormed
import RepoAtlas.Proofs.Score

/-!
# `RepoAtlas.Proofs.Graph.Scoring`: which records can be finished

A manual entry may claim any whole number of files, tests and markers of debt, so records reach the
scores with integers that binary64 arithmetic cannot take. The scores are held within bounds in the
end, but the computation may fail before.

* `Overflow`: the counters that the computation of scores does not survive, and how each fails.
* `finish_spec`: a record with counters that are not negative is finished with scores within their
  bounds, unless its counters overflow or one of its hints is the empty path.
* `scorable_of_moderate`: what a scan counts never overflows.
-/

set_option autoImplicit false

namespace RepoAtlas.Graph

open RepoAtlas.Module
open RepoAtlas.Number (roundingLimit)
open RepoAtlas.Score (shareLimit)

/-- Counters that are not negative. Lines are not scored, but counted like the others. -/
structure Counted (metrics : Metrics Int) : Prop where
  files : 0 ≤ metrics.files
  lines : 0 ≤ metrics.lines
  debt : 0 ≤ metrics.debt
  tests : 0 ≤ metrics.tests

/-- The tests for each file of a record. -/
def share (record : Record) : Rat :=
  record.metrics.tests / record.metrics.files

/-- Why a record has no scores: its counters leave the range of binary64 in one of three places. -/
inductive Overflow (record : Record) : Number.Fault → Prop
  /-- The tests for each file are rounded to infinity. -/
  | share (files : 0 < record.metrics.files) (large : roundingLimit ≤ share record) :
    Overflow record .quotientTooLarge
  /-- The share is finite, and its percentage is not. -/
  | percentage (files : 0 < record.metrics.files) (finite : share record < roundingLimit)
    (large : shareLimit < share record) : Overflow record .floorOfInfinity
  /-- There is a coverage, but the markers of debt or the packages are too many to be converted. -/
  | counter (coverage : record.metrics.files = 0 ∨ share record ≤ shareLimit)
    (large : roundingLimit ≤ 5 * record.metrics.debt ∨ roundingLimit ≤ record.packages.size) :
    Overflow record .integerTooLarge

/-- Scores within their bounds. -/
structure WithinBounds (m : FinishedModule) : Prop where
  coverage_nonneg : 0 ≤ m.coverage
  coverage_le : m.coverage ≤ 100
  health_ge : 20 ≤ m.health
  health_le : m.health ≤ 100

variable {record : Record} {root : String}

/-- A share within the limit has a coverage. -/
theorem exists_coverage_of_share (h : Counted record.metrics)
    (hshare : record.metrics.files = 0 ∨ share record ≤ shareLimit) :
    ∃ n, Score.coverage record.metrics.files record.metrics.tests = .ok n := by
  rcases h.files.eq_or_lt with hnone | hfiles
  · rw [← hnone]
    exact ⟨0, rfl⟩
  · exact Score.coverage_of_le_shareLimit hfiles h.tests (hshare.resolve_left hfiles.ne')

/-- Debt that is counted is not negative. -/
theorem abs_debt (h : Counted record.metrics) :
    |((5 * record.metrics.debt : Int) : Rat)| = 5 * record.metrics.debt := by
  have hcast : (0 : Rat) ≤ record.metrics.debt := by exact_mod_cast h.debt
  push_cast
  exact abs_of_nonneg (by linarith)

/-- Where counters overflow, the record is not finished. -/
theorem finish_of_overflow (h : Counted record.metrics) {fault : Number.Fault}
    (hoverflow : Overflow record fault) : finish record root = .error (.number fault) := by
  cases hoverflow with
  | share hfiles hlarge =>
    unfold finish
    rw [Score.coverage_of_roundingLimit_le hfiles hlarge]
    rfl
  | percentage hfiles hfinite hlarge =>
    unfold finish
    rw [Score.coverage_of_shareLimit_lt hfiles h.tests hlarge hfinite]
    rfl
  | counter hshare hlarge =>
    -- The coverage does not matter: the counters are converted in any case.
    obtain ⟨coverage, hcoverage⟩ := exists_coverage_of_share h hshare
    have hhealth : Score.health record.metrics.debt record.packages.size coverage
        = .error .integerTooLarge :=
      Score.health_of_roundingLimit_le (Score.coverage_mem hcoverage).1 (Int.natCast_nonneg _)
        (by rw [abs_debt h]; exact_mod_cast hlarge)
    unfold finish
    rw [ofScore_eq_ok_iff.mpr hcoverage, ok_bind, hhealth]
    rfl

/-- Without overflow there are scores. -/
theorem scorable_of_not_overflow (h : Counted record.metrics)
    (hfits : ∀ fault, ¬Overflow record fault) : Scorable record := by
  have hshare : record.metrics.files = 0 ∨ share record ≤ shareLimit := by
    rcases h.files.eq_or_lt with hnone | hfiles
    · exact .inl hnone.symm
    · refine .inr (not_lt.mp fun hlarge => ?_)
      rcases lt_or_ge (share record) roundingLimit with hfinite | hinfinite
      · exact hfits _ (.percentage hfiles hfinite hlarge)
      · exact hfits _ (.share hfiles hinfinite)
  -- With a coverage at hand, a counter that is too large would be the third overflow.
  have hdebt : 5 * (record.metrics.debt : Rat) < roundingLimit :=
    not_le.mp fun hlarge => hfits _ (.counter hshare (.inl hlarge))
  have hpackages : (record.packages.size : Rat) < roundingLimit :=
    not_le.mp fun hlarge => hfits _ (.counter hshare (.inr hlarge))
  obtain ⟨coverage, hcoverage⟩ := exists_coverage_of_share h hshare
  have hdebt' : |((5 * record.metrics.debt : Int) : Rat)| < roundingLimit := by
    rwa [abs_debt h]
  have hpackages' : (((record.packages.size : Nat) : Int) : Rat) < roundingLimit := by
    exact_mod_cast hpackages
  have hhealth := Score.health_eq hdebt' (Int.natCast_nonneg _) hpackages'
    (Score.coverage_mem hcoverage).1
  unfold Scorable
  rw [hcoverage, ok_bind, hhealth]
  rfl

/-- An empty path among the hints cannot be shown. -/
theorem shownHints_of_mem (h : "" ∈ record.hints) : shownHints record root = .error .emptyHint := by
  cases hshown : shownHints record root with
  | ok shown =>
    -- Each hint would be shown as something, the empty path as well.
    obtain ⟨hints, hhints, -⟩ := bind_eq_ok_iff.mp hshown
    obtain ⟨hint, -, hhint⟩ := (exists_of_forall₂ (mapM_eq_ok_iff.mp hhints)).1 "" h
    cases hhint
  | error fault =>
    rcases bind_eq_error_iff.mp hshown with hhints | ⟨hints, -, hfault⟩
    · obtain ⟨path, -, hfault⟩ := exists_of_mapM_eq_error hhints
      split at hfault
      · cases hfault
      · cases hfault
        rfl
    · cases hfault

/-- Such a record has scores, but is not finished. -/
theorem finish_of_mem (h : Counted record.metrics) (hfits : ∀ fault, ¬Overflow record fault)
    (hempty : "" ∈ record.hints) : finish record root = .error .emptyHint := by
  obtain ⟨coverage, hcoverage, health, hhealth⟩ := (scorable_of_not_overflow h hfits).exists_scores
  unfold finish
  rw [ofScore_eq_ok_iff.mpr hcoverage, ok_bind, ofScore_eq_ok_iff.mpr hhealth, ok_bind,
    shownHints_of_mem hempty]
  rfl

/-- What is finished has scores within their bounds. -/
theorem withinBounds_of_finish {m : FinishedModule} (h : finish record root = .ok m) :
    WithinBounds m := by
  obtain ⟨coverage, hcoverage, h⟩ := bind_eq_ok_iff.mp h
  obtain ⟨health, hhealth, h⟩ := bind_eq_ok_iff.mp h
  obtain ⟨hints, -, h⟩ := bind_eq_ok_iff.mp h
  cases h
  have hcoverage' := Score.coverage_mem (ofScore_eq_ok_iff.mp hcoverage)
  have hhealth' := Score.health_mem (ofScore_eq_ok_iff.mp hhealth)
  exact ⟨hcoverage'.1, hcoverage'.2, hhealth'.1, hhealth'.2⟩

/-- Finishing a record comes to one of three ends. -/
theorem finish_cases (h : Counted record.metrics) (root : String) :
    (∃ fault, Overflow record fault ∧ finish record root = .error (.number fault)) ∨
    (∀ fault, ¬Overflow record fault) ∧
      ("" ∈ record.hints ∧ finish record root = .error .emptyHint ∨
        "" ∉ record.hints ∧ ∃ m, finish record root = .ok m) := by
  by_cases hoverflow : ∃ fault, Overflow record fault
  · obtain ⟨fault, hfault⟩ := hoverflow
    exact .inl ⟨fault, hfault, finish_of_overflow h hfault⟩
  · have hfits : ∀ fault, ¬Overflow record fault := not_exists.mp hoverflow
    refine .inr ⟨hfits, ?_⟩
    by_cases hempty : "" ∈ record.hints
    · exact .inl ⟨hempty, finish_of_mem h hfits hempty⟩
    · exact .inr ⟨hempty, finish_of_scorable hempty (scorable_of_not_overflow h hfits) root⟩

/-- A record with counters that are not negative is finished, with scores within their bounds,
unless its counters overflow or one of its hints is the empty path. -/
theorem finish_spec (h : Counted record.metrics) :
    ((∃ m, finish record root = .ok m ∧ WithinBounds m) ↔
      (∀ fault, ¬Overflow record fault) ∧ "" ∉ record.hints) ∧
    (∀ fault, finish record root = .error (.number fault) ↔ Overflow record fault) ∧
    (finish record root = .error .emptyHint ↔
      (∀ fault, ¬Overflow record fault) ∧ "" ∈ record.hints) := by
  -- The conditions exclude each other, as the ends do.
  rcases finish_cases h root with
    ⟨fault, hfault, hfinish⟩ | ⟨hfits, ⟨hempty, hfinish⟩ | ⟨hhints, m, hfinish⟩⟩
  · have hsome : ¬∀ fault, ¬Overflow record fault := fun hfits => hfits fault hfault
    refine ⟨by simp [hfinish, hsome], fun other => ⟨fun hother => ?_, finish_of_overflow h⟩,
      by simp [hfinish, hsome]⟩
    rw [hfinish] at hother
    cases hother
    exact hfault
  · simp [hfinish, hfits, hempty]
  · simp [hfinish, hfits, hhints, withinBounds_of_finish hfinish]

/-- A record that claims `10 ^ 400` tests in one file. -/
def boastfulRecord : Record where
  id := "m"
  name := "m"
  metrics := { files := 1, lines := 0, debt := 0, tests := 10 ^ 400 }
  manual := true

/-- Counters that are not negative may be too large for a record to be finished. -/
theorem finish_boastfulRecord :
    Counted boastfulRecord.metrics ∧ "" ∉ boastfulRecord.hints ∧
      finish boastfulRecord "/r" = .error (.number .quotientTooLarge) := by
  refine ⟨?_, ?_, ?_⟩
  · constructor <;> decide +kernel
  · decide
  · decide +kernel

/-- A record with more tests than files, and many of everything. -/
def busyRecord : Record where
  id := "m"
  name := "m"
  packages := .ofList ["a", "b"]
  hints := .ofList ["/r/m"]
  metrics := { files := 3, lines := 2 ^ 2000, debt := 2 ^ 1000, tests := 2 ^ 1000 }

/-- A record with huge counters is finished within bounds. -/
theorem finish_spec_busyRecord :
    Counted busyRecord.metrics ∧ ∃ m, finish busyRecord "/r" = .ok m ∧ WithinBounds m := by
  have hcounted : Counted busyRecord.metrics := by constructor <;> decide +kernel
  -- The lines are beyond every limit, but no score depends on them.
  have hfits : ∀ fault, ¬Overflow busyRecord fault := by
    intro fault hfault
    cases hfault with
    | share _ hlarge => exact absurd hlarge (by decide +kernel)
    | percentage _ _ hlarge => exact absurd hlarge (by decide +kernel)
    | counter _ hlarge => exact absurd hlarge (by decide +kernel)
  exact ⟨hcounted, (finish_spec hcounted).1.mpr ⟨hfits, by decide⟩⟩

/-! ### What a scan counts -/

/-- Counters that fit each other and a file system. -/
structure Moderate (record : Record) : Prop where
  tests_nonneg : 0 ≤ record.metrics.tests
  tests_le : record.metrics.tests ≤ record.metrics.files
  debt_nonneg : 0 ≤ record.metrics.debt
  debt_le : record.metrics.debt ≤ 2 ^ 200
  packages_le : record.packages.size ≤ 2 ^ 200

/-- Records with moderate counters can be scored. -/
theorem scorable_of_moderate {record : Record} (h : Moderate record) : Scorable record := by
  obtain ⟨coverage, hcoverage⟩ := Score.exists_coverage h.tests_nonneg h.tests_le
  obtain ⟨health, hhealth⟩ := Score.exists_health
    ((abs_of_nonneg h.debt_nonneg).trans_le h.debt_le) (Int.natCast_nonneg record.packages.size)
    (by exact_mod_cast h.packages_le) (Score.coverage_mem hcoverage).1
  unfold Scorable
  rw [hcoverage, ok_bind, hhealth]
  rfl

end RepoAtlas.Graph
