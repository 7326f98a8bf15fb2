/-
  File:      ModelOps/Policy/Engine.lean
  Subject:   The policy engine: the checks of one evaluation, and its verdict (app/policy/engine.py).

  Each check reads the summaries it is given and decides PASS, FAIL or INCONCLUSIVE. Two gates keep
  later checks from running on too little data: the requests of both versions before everything else,
  and the labels of the canary before its recall.

  * `evaluatePolicies` -- the checks of an evaluation, in the order they are recorded;
  * `overallResult` -- FAIL beats INCONCLUSIVE beats PASS.
-/
import ModelOps.Policy.Config
import ModelOps.ControlPlane.Metrics

namespace ModelOps

/-- The verdict of the policy engine. -/
inductive OverallResult where
  | pass
  | fail
  | inconclusive
  deriving DecidableEq, Repr

structure PolicyCheckResult where
  policyName : String
  metricName : String
  observedValue : Option ℚ
  threshold : Option ℚ
  result : OverallResult
  deriving DecidableEq

/-! ## 1. Reliability -/

/-- `_evaluate_minimum_requests`. -/
def evaluateMinimumRequests (stable canary : VersionSummary) (minimumRequests : Nat) :
    PolicyCheckResult :=
  let observed := min stable.sampleCount canary.sampleCount
  { policyName := "minimum_requests"
    metricName := "sample_count"
    observedValue := some observed
    threshold := some minimumRequests
    result := if minimumRequests ≤ observed then .pass else .inconclusive }

/-- `_evaluate_latency`: a stable p95 of zero is as good as none. -/
def evaluateLatency (stable canary : VersionSummary) (policy : LatencyPolicy) :
    PolicyCheckResult :=
  let check (observedValue : Option ℚ) (result : OverallResult) : PolicyCheckResult :=
    { policyName := "latency_p95_increase"
      metricName := "p95_latency_increase_percent"
      observedValue := observedValue
      threshold := some policy.p95MaxIncreasePercent
      result := result }
  match stable.p95LatencyMs, canary.p95LatencyMs with
  | some s, some c =>
      if s = 0 then check none .inconclusive
      else
        let increasePercent := (c - s) / s * 100
        check (some increasePercent)
          (if policy.p95MaxIncreasePercent < increasePercent then .fail else .pass)
  | _, _ => check none .inconclusive

/-- `_evaluate_reliability`. -/
def evaluateReliability (canary : VersionSummary) (policy : ReliabilityPolicy) :
    PolicyCheckResult :=
  let check (observedValue : Option ℚ) (result : OverallResult) : PolicyCheckResult :=
    { policyName := "max_error_rate"
      metricName := "error_rate_percent"
      observedValue := observedValue
      threshold := some policy.maxErrorRatePercent
      result := result }
  match canary.errorRate with
  | none => check none .inconclusive
  | some errorRate =>
      let errorRatePercent := errorRate * 100
      check (some errorRatePercent)
        (if policy.maxErrorRatePercent < errorRatePercent then .fail else .pass)

/-! ## 2. Quality -/

/-- `_evaluate_minimum_labeled_samples`. -/
def evaluateMinimumLabeledSamples (canaryQuality : VersionSummary) (minimumLabeledSamples : Nat) :
    PolicyCheckResult where
  policyName := "minimum_labeled_samples"
  metricName := "labeled_sample_count"
  observedValue := some canaryQuality.labeledSampleCount
  threshold := some minimumLabeledSamples
  result :=
    if minimumLabeledSamples ≤ canaryQuality.labeledSampleCount then .pass else .inconclusive

/-- `_evaluate_minimum_label_coverage`. -/
def evaluateMinimumLabelCoverage (canaryQuality : VersionSummary) (minimumLabelCoverage : ℚ) :
    PolicyCheckResult where
  policyName := "minimum_label_coverage"
  metricName := "label_coverage"
  observedValue := canaryQuality.labelCoverage
  threshold := some minimumLabelCoverage
  result :=
    match canaryQuality.labelCoverage with
    | none => .inconclusive
    | some coverage => if coverage < minimumLabelCoverage then .inconclusive else .pass

/-- `_evaluate_minimum_positive_labels`. -/
def evaluateMinimumPositiveLabels (canaryQuality : VersionSummary) (minimumPositiveLabels : Nat) :
    PolicyCheckResult where
  policyName := "minimum_positive_labels"
  metricName := "positive_label_count"
  observedValue := some canaryQuality.positiveLabelCount
  threshold := some minimumPositiveLabels
  result :=
    if minimumPositiveLabels ≤ canaryQuality.positiveLabelCount then .pass else .inconclusive

/-- `_evaluate_quality`. -/
def evaluateQuality (canaryQuality : VersionSummary) (policy : QualityPolicy) :
    PolicyCheckResult where
  policyName := "minimum_recall"
  metricName := "recall"
  observedValue := canaryQuality.recall
  threshold := some policy.minimumRecall
  result :=
    match canaryQuality.recall with
    | none => .inconclusive
    | some r => if r < policy.minimumRecall then .fail else .pass

/-- The checks that the canary has labels enough for its recall to mean something. -/
def qualityGate (canaryQuality : VersionSummary) (config : PolicyConfig) :
    List PolicyCheckResult :=
  [evaluateMinimumLabeledSamples canaryQuality config.minimumLabeledSamples,
    evaluateMinimumLabelCoverage canaryQuality config.minimumLabelCoverage,
    evaluateMinimumPositiveLabels canaryQuality config.minimumPositiveLabels]

def evaluateQualityPolicies (canaryQuality : VersionSummary) (config : PolicyConfig) :
    List PolicyCheckResult :=
  let gateChecks := qualityGate canaryQuality config
  if gateChecks.any fun check => decide (check.result ≠ .pass) then gateChecks
  else gateChecks ++ [evaluateQuality canaryQuality config.quality]

/-! ## 3. An evaluation -/

def evaluatePolicies (stable canary canaryQuality : VersionSummary) (config : PolicyConfig) :
    List PolicyCheckResult :=
  let minimumRequestsCheck := evaluateMinimumRequests stable canary config.minimumRequests
  if minimumRequestsCheck.result ≠ .pass then [minimumRequestsCheck]
  else
    [minimumRequestsCheck, evaluateLatency stable canary config.latency,
      evaluateReliability canary config.reliability] ++
    evaluateQualityPolicies canaryQuality config

def overallResult (checks : List PolicyCheckResult) : OverallResult :=
  if checks.any fun check => decide (check.result = .fail) then .fail
  else if checks.any fun check => decide (check.result = .inconclusive) then .inconclusive
  else .pass

/-- An evaluation records a check. -/
theorem evaluatePolicies_ne_nil (stable canary canaryQuality : VersionSummary)
    (config : PolicyConfig) : evaluatePolicies stable canary canaryQuality config ≠ [] := by
  unfold evaluatePolicies
  dsimp only
  split <;> simp

end ModelOps
