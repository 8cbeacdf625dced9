import RepoAtlas.Number.Binary64

/-!
# `RepoAtlas.Score`: coverage and health

Coverage is the share of a module's files that look like tests, as a whole percentage. Health
starts at 100 and is lowered by coverage under 50 %, by markers of debt and by reliance on
external packages, and never leaves 20 to 100. Both are computed in binary64 arithmetic and
rounded half up, so integers beyond its range have no score.
-/

set_option autoImplicit false

namespace RepoAtlas.Score

open RepoAtlas.Number

/-- The least health. -/
def healthFloor : Int := 20

/-- The greatest health. -/
def healthCeiling : Int := 100

/-- The coverage from which on health is not lowered. -/
def coverageTarget : Int := 50

/-- What one marker of debt costs. -/
def debtPenalty : Int := 5

/-- What one external package costs. -/
def externalPenalty : Binary64 := .finite false (3 / 2)

/-- The most that external packages cost together. -/
def externalPenaltyCap : Binary64 := .finite false 20

/-- One half. -/
def half : Binary64 := .finite false (1 / 2)

/-- Rounds to the nearest integer, halves upwards. -/
def roundHalfUp (x : Binary64) : Except Fault Int :=
  (x.add half).floor

/-- A value held within bounds. -/
def clamp (low high n : Int) : Int :=
  max low (min high n)

/-- The share of files that look like tests, in percent; zero without files. -/
def coverage (files tests : Int) : Except Fault Int := do
  if files ≤ 0 then
    return 0
  -- Three roundings follow each other: of the quotient, of the product and of the sum.
  let share ← Binary64.quotient tests files
  let percent ← roundHalfUp (share.mul (.finite false 100))
  return clamp 0 100 percent

/-- What missing coverage costs: half a point for each percent under the target. -/
def coverageCost (coverage : Int) : Except Fault Binary64 := do
  if coverageTarget ≤ coverage then
    return .finite false 0
  let missing ← Binary64.ofInt (coverageTarget - coverage)
  return missing.mul half

/-- What external packages cost. -/
def externalCost (externals : Int) : Except Fault Binary64 := do
  let count ← Binary64.ofInt externals
  let cost := count.mul externalPenalty
  return if externalPenaltyCap.lt cost then externalPenaltyCap else cost

/-- The health score. -/
def health (debt externals coverage : Int) : Except Fault Int := do
  let missing ← coverageCost coverage
  let reliance ← externalCost externals
  let markers ← Binary64.ofInt (debt * debtPenalty)
  let raw := (((Binary64.finite false 100).sub missing).sub markers).sub reliance
  let rounded ← roundHalfUp raw
  return clamp healthFloor healthCeiling rounded

end RepoAtlas.Score
