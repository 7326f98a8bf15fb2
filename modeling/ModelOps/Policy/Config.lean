/-
  File:      ModelOps/Policy/Config.lean
  Subject:   The promotion-gate thresholds of one deployment (app/policy/config.py).

  The bounds the schema declares (`ge`, `le`) are fields, so a threshold outside them cannot be
  built; counts are natural numbers, which is `ge=0`.
-/
import Mathlib.Data.Rat.Defs
import Mathlib.Algebra.Order.Ring.Unbundled.Rat

namespace ModelOps

structure LatencyPolicy where
  p95MaxIncreasePercent : ℚ := 20
  p95_nonneg : 0 ≤ p95MaxIncreasePercent := by decide +kernel
  deriving DecidableEq

structure ReliabilityPolicy where
  maxErrorRatePercent : ℚ := 5
  rate_nonneg : 0 ≤ maxErrorRatePercent := by decide +kernel
  deriving DecidableEq

structure QualityPolicy where
  minimumRecall : ℚ := 4 / 5
  recall_nonneg : 0 ≤ minimumRecall := by decide +kernel
  recall_le_one : minimumRecall ≤ 1 := by decide +kernel
  deriving DecidableEq

/-- A named set of promotion-gate thresholds for one evaluation run. -/
structure PolicyConfig where
  minimumRequests : Nat := 100
  evaluationWindowSeconds : Nat := 300
  /-- how many consecutive INCONCLUSIVE automated evaluations a deployment tolerates -/
  maxInconclusiveRetries : Nat := 10
  labelMaturitySeconds : Nat := 60
  minimumLabeledSamples : Nat := 30
  minimumLabelCoverage : ℚ := 1 / 2
  minimumPositiveLabels : Nat := 30
  latency : LatencyPolicy := {}
  reliability : ReliabilityPolicy := {}
  quality : QualityPolicy := {}
  window_pos : 1 ≤ evaluationWindowSeconds := by decide +kernel
  retries_pos : 1 ≤ maxInconclusiveRetries := by decide +kernel
  coverage_nonneg : 0 ≤ minimumLabelCoverage := by decide +kernel
  coverage_le_one : minimumLabelCoverage ≤ 1 := by decide +kernel
  deriving DecidableEq

end ModelOps
