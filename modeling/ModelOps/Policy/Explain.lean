/-
  File:      ModelOps/Policy/Explain.lean
  Subject:   The sentence that explains a recorded policy check (app/policy/explain.py).

  The text is derived when it is read, from what the row says and, for `minimum_requests`, from a canary
  weight: the row's own or, for rows without one, the present weight, and then it is marked as an
  estimate.

  * `fixed` -- Python's format `:.df`;
  * `explainPolicyCheck` -- one text for each policy and result.
-/
import ModelOps.Policy.Engine

namespace ModelOps

/-! ## 1. Numbers -/

/-- The format `:.df`: rounded half to even, with the sign of the number. -/
def fixed (d : Nat) (q : ℚ) : String :=
  let n := (Decimal.roundHalfEven (|q| * 10 ^ d)).toNat
  let whole := toString (n / 10 ^ d)
  let digits := toString (n % 10 ^ d)
  let magnitude :=
    if d = 0 then whole else whole ++ "." ++ "".pushn '0' (d - digits.length) ++ digits
  if q < 0 then "-" ++ magnitude else magnitude

example : fixed 1 (25 / 2) = "12.5" := by decide +kernel
example : fixed 0 (5 / 2) = "2" := by decide +kernel

/-- `_fmt_count`. -/
def fmtCount : Option ℚ → String
  | none => "?"
  | some value => fixed 0 value

/-- `result.value.lower()`. -/
def OverallResult.lower : OverallResult → String
  | .pass => "pass"
  | .fail => "fail"
  | .inconclusive => "inconclusive"

/-! ## 2. One policy each -/

def FULLY_PROMOTED_CANARY_WEIGHT : ℚ := 999 / 1000

/-- `_explain_minimum_requests`. -/
def explainMinimumRequests (observed threshold : Option ℚ) (result : OverallResult)
    (canaryWeight : Option ℚ) (isEstimated : Bool) : String :=
  let counts := s!"({fmtCount observed}/{fmtCount threshold} requests)"
  if result = .pass then s!"both sides have received enough traffic to evaluate {counts}."
  else if canaryWeight.any fun w => decide (FULLY_PROMOTED_CANARY_WEIGHT ≤ w) then
    let estimateNote :=
      if isEstimated then
        " (estimated from the deployment's current traffic split - no traffic " ++
        "snapshot was recorded for this older check, so this may not exactly " ++
        "match what was true at evaluation time)"
      else ""
    s!"stable side has not received enough traffic to evaluate {counts} - the " ++
    "canary is already at 100% of traffic, so the stable side will not " ++
    "accumulate more requests until traffic is rebalanced. This is an " ++
    s!"expected platform limit, not a bug{estimateNote}."
  else s!"insufficient data: at least one side has not received enough traffic yet {counts}."

/-- `_explain_latency`. -/
def explainLatency (observed threshold : Option ℚ) (result : OverallResult) : String :=
  match observed, threshold with
  | some o, some t =>
      let observedText := fixed 1 o
      let thresholdText := fixed 0 t
      if result = .fail then
        s!"canary p95 latency is {observedText}% higher than stable's, " ++
        s!"above the {thresholdText}% threshold."
      else
        s!"canary p95 latency increase ({observedText}%) is within the " ++
        s!"{thresholdText}% threshold."
  | _, _ => "insufficient data: no p95 latency could be computed yet for one or both sides."

/-- `_explain_error_rate`. -/
def explainErrorRate (observed threshold : Option ℚ) (result : OverallResult) : String :=
  match observed, threshold with
  | some o, some t =>
      let observedText := fixed 2 o
      let thresholdText := fixed 2 t
      if result = .fail then
        s!"canary error rate ({observedText}%) exceeds the {thresholdText}% threshold."
      else s!"canary error rate ({observedText}%) is within the {thresholdText}% threshold."
  | _, _ => "insufficient data: no canary requests observed yet to compute an error rate."

/-- `_explain_minimum_labeled_samples`. -/
def explainMinimumLabeledSamples (observed threshold : Option ℚ) (result : OverallResult) : String :=
  let counts := s!"({fmtCount observed}/{fmtCount threshold} labeled predictions)"
  if result = .pass then
    s!"the quality window has enough labeled canary predictions {counts} " ++
    "to evaluate recall."
  else
    s!"insufficient labeled data in the quality window {counts} - recall was not " ++
    "evaluated. Labels arrive delayed, so this is expected while the canary is " ++
    "still young; see minimum_label_coverage for how that compares to the " ++
    "window's overall traffic."

/-- `_explain_minimum_label_coverage`. -/
def explainMinimumLabelCoverage (observed threshold : Option ℚ) (result : OverallResult)
    (labeledSampleCount : Option Nat) : String :=
  match observed, threshold with
  | some o, some t =>
      let coveragePct := fixed 0 (o * 100) ++ "%"
      let thresholdPct := fixed 0 (t * 100) ++ "%"
      let detail :=
        match labeledSampleCount with
        | some n =>
            if 0 < o then
              let total := Decimal.roundHalfEven (n / o)
              s!"{n} of {total} predictions in the quality window are labeled"
            else s!"{n} predictions in the quality window are labeled"
        | none => s!"label coverage is {coveragePct}"
      if result = .pass then
        s!"{detail} (coverage {coveragePct}), meeting the {thresholdPct} threshold."
      else
        s!"{detail} (coverage {coveragePct}, threshold {thresholdPct}); " ++
        "recall was not evaluated."
  | _, _ =>
      "insufficient data: no canary predictions in the quality window yet, so " ++
      "label coverage could not be computed; recall was not evaluated."

/-- `_explain_minimum_positive_labels`. -/
def explainMinimumPositiveLabels (observed threshold : Option ℚ) (result : OverallResult)
    (labeledSampleCount : Option Nat) : String :=
  let positiveCount := fmtCount observed
  let thresholdCount := fmtCount threshold
  let ofTotal :=
    match labeledSampleCount with
    | some n => s!" of {n}"
    | none => ""
  if result = .pass then
    s!"{positiveCount}{ofTotal} labeled predictions in the quality window are the " ++
    s!"positive class (threshold {thresholdCount}) - enough to make recall " ++
    "statistically meaningful."
  else
    s!"only {positiveCount}{ofTotal} labeled predictions in the quality window are " ++
    s!"the positive class (threshold {thresholdCount}); recall was not evaluated. A " ++
    "low-positive-rate dataset can clear minimum_labeled_samples/" ++
    "minimum_label_coverage while the window still rests on too few positive " ++
    "examples to trust a recall estimate."

/-- `_explain_recall`. -/
def explainRecall (observed threshold : Option ℚ) (result : OverallResult) : String :=
  match observed, threshold with
  | some o, some t =>
      let observedText := fixed 2 o
      let thresholdText := fixed 2 t
      if result = .fail then
        s!"canary recall ({observedText}) is below the required {thresholdText} threshold."
      else s!"canary recall ({observedText}) meets the {thresholdText} threshold."
  | _, _ =>
      "insufficient data: the quality data-sufficiency gate passed, but no " ++
      "labeled canary predictions landed in this specific window regardless - " ++
      "an edge case (e.g. every labeled prediction in the window happened to " ++
      "belong to the stable version instead), not the common case now that " ++
      "labels flow through POST /api/labels."

/-! ## 3. All policies -/

/-- `explain_policy_check`. -/
def explainPolicyCheck (check : PolicyCheckResult) (canaryWeight : Option ℚ) (isEstimated : Bool)
    (labeledSampleCount : Option Nat) : String :=
  let observed := check.observedValue
  let threshold := check.threshold
  let result := check.result
  if check.policyName = "minimum_requests" then
    explainMinimumRequests observed threshold result canaryWeight isEstimated
  else if check.policyName = "latency_p95_increase" then explainLatency observed threshold result
  else if check.policyName = "max_error_rate" then explainErrorRate observed threshold result
  else if check.policyName = "minimum_labeled_samples" then
    explainMinimumLabeledSamples observed threshold result
  else if check.policyName = "minimum_label_coverage" then
    explainMinimumLabelCoverage observed threshold result labeledSampleCount
  else if check.policyName = "minimum_positive_labels" then
    explainMinimumPositiveLabels observed threshold result labeledSampleCount
  else if check.policyName = "minimum_recall" then explainRecall observed threshold result
  else s!"{check.policyName}: {result.lower}."

/-- Only the explanation of `minimum_requests` speaks of the canary's weight. -/
theorem explain_weight {check : PolicyCheckResult} (h : check.policyName ≠ "minimum_requests")
    (w w' : Option ℚ) (e e' : Bool) (n : Option Nat) :
    explainPolicyCheck check w e n = explainPolicyCheck check w' e' n := by
  simp only [explainPolicyCheck, if_neg h]

end ModelOps
