/-
  File:      ModelOps/ControlPlane/Metrics.lean
  Subject:   Prediction metrics, ground-truth labels, and the summary of a version over a window
             (app/control_plane/metrics_service.py, app/control_plane/label_service.py).

  The two tables have independent writers, `recordMetric` and `ingestLabel`, and are joined when
  they are read.

  * `percentile` -- linear interpolation; `none` is an IndexError;
  * `versionSummary` -- `compute_version_summary` with all its fields; `versionSummary_counts`:
    without latencies and labels it is the one Router/Predict.lean reads.
-/
import Mathlib.Algebra.Order.Floor.Ring
import ModelOps.Router.Predict

namespace ModelOps

open Relational Python

/-! ## 1. Metrics -/

/-- The body of POST /api/deployments/{id}/metrics. -/
structure MetricIn where
  modelVersion : String
  latencyMs : ℚ
  statusCode : Int
  prediction : Option Int := none
  predictionId : Option String := none
  latency_nonneg : 0 ≤ latencyMs

/-- A row of `prediction_metrics`. -/
structure MetricRow where
  deploymentId : String
  modelVersion : String
  latencyMs : ℚ
  statusCode : Int
  prediction : Option Int
  predictionId : Option String
  createdAt : Time
  deriving DecidableEq

def MetricIn.row (payload : MetricIn) (deploymentId : String) (now : Time) : MetricRow where
  deploymentId := deploymentId
  modelVersion := payload.modelVersion
  latencyMs := payload.latencyMs
  statusCode := payload.statusCode
  prediction := payload.prediction
  predictionId := payload.predictionId
  createdAt := now

/-- `record_metric`; `none` where the unique index on `prediction_id` refuses the row. -/
def recordMetric (now : Time) (deploymentId : String) (payload : MetricIn)
    (metrics : List MetricRow) : Option (List MetricRow) :=
  if payload.predictionId.isSome &&
      metrics.any fun m => decide (m.predictionId = payload.predictionId) then none
  else some (metrics ++ [payload.row deploymentId now])

/-! ## 2. Labels -/

structure GroundTruthLabel where
  predictionId : String
  actualLabel : Nat
  occurredAt : Time
  ingestedAt : Time
  deriving DecidableEq

/-- The body of POST /api/labels. -/
structure LabelIn where
  predictionId : String
  actualLabel : Nat
  occurredAt : Time
  label_le_one : actualLabel ≤ 1

inductive LabelIngestOutcome where
  | applied
  | noOp
  | pending
  deriving DecidableEq, Repr

structure LabelConflictError where
  predictionId : String
  existingLabel : Nat
  newLabel : Nat
  deploymentId : Option String
  deriving DecidableEq

def LabelConflictError.message (e : LabelConflictError) : String :=
  s!"prediction_id '{e.predictionId}' already has actual_label=" ++
  s!"{e.existingLabel} recorded; refusing to overwrite with {e.newLabel}"

/-- `_find_metric`. -/
def findMetric (metrics : List MetricRow) (predictionId : String) : Option MetricRow :=
  metrics.find? fun m => decide (m.predictionId = some predictionId)

/-- `_resolve_existing`, and the event of a conflict where a deployment is known. -/
def resolveExisting (now : Time) (metrics : List MetricRow) (existing : GroundTruthLabel)
    (predictionId : String) (actualLabel : Nat) :
    Except LabelConflictError LabelIngestOutcome × List DeploymentEvent :=
  if existing.actualLabel = actualLabel then (.ok .noOp, [])
  else
    let deploymentId := (findMetric metrics predictionId).map MetricRow.deploymentId
    (.error ⟨predictionId, existing.actualLabel, actualLabel, deploymentId⟩,
      deploymentId.toList.map fun id =>
        ⟨id, .labelConflict predictionId existing.actualLabel actualLabel, now⟩)

/-- `ingest_label` with nothing beside it: the outcome, the labels and the events written. -/
def ingestLabel (now : Time) (metrics : List MetricRow) (payload : LabelIn)
    (labels : Table GroundTruthLabel.predictionId) :
    Except LabelConflictError LabelIngestOutcome × Table GroundTruthLabel.predictionId ×
      List DeploymentEvent :=
  match labels.get? payload.predictionId with
  | some existing =>
      let (outcome, events) :=
        resolveExisting now metrics existing payload.predictionId payload.actualLabel
      (outcome, labels, events)
  | none =>
      let outcome := if (findMetric metrics payload.predictionId).isSome then
        LabelIngestOutcome.applied else .pending
      (.ok outcome, labels.put ⟨payload.predictionId, payload.actualLabel, payload.occurredAt, now⟩,
        [])

/-! ## 3. Summaries -/

/-- `_percentile`. -/
def percentile (sortedValues : List ℚ) (pct : ℚ) : Option ℚ :=
  if sortedValues.length = 1 then sortedValues[0]?
  else
    let k : ℚ := ((sortedValues.length : ℚ) - 1) * (pct / 100)
    if ⌊k⌋ = ⌈k⌉ then sortedValues[⌊k⌋.toNat]?
    else do
      let low ← sortedValues[⌊k⌋.toNat]?
      let high ← sortedValues[⌈k⌉.toNat]?
      pure (low * (⌈k⌉ - k) + high * (k - ⌊k⌋))

/-- `MetricsSummary`, every field. -/
structure VersionSummary extends MetricsSummary where
  p50LatencyMs : Option ℚ
  p95LatencyMs : Option ℚ
  p99LatencyMs : Option ℚ
  precision : Option ℚ
  «recall» : Option ℚ
  falsePositiveRate : Option ℚ
  labeledSampleCount : Nat
  labelCoverage : Option ℚ
  positiveLabelCount : Nat
  labelDelayP50Seconds : Option ℚ
  labelDelayP95Seconds : Option ℚ

/-- A row with the label of its prediction, if there is one: a row of the outer join. -/
structure JoinedRow where
  metric : MetricRow
  label : Option GroundTruthLabel
  deriving DecidableEq

def joinedRows (metrics : List MetricRow) (labels : Table GroundTruthLabel.predictionId)
    (deploymentId version : String) (w : Window) : List JoinedRow :=
  (metrics.filter fun m =>
    decide (m.deploymentId = deploymentId) && decide (m.modelVersion = version) &&
      w.contains m.createdAt).map fun m => ⟨m, m.predictionId.bind labels.get?⟩

/-- `label.ingested_at - metric.created_at`, in seconds. -/
def JoinedRow.labelDelay (r : JoinedRow) : Option ℚ :=
  r.label.map fun l => ((l.ingestedAt : ℚ) - r.metric.createdAt) / 10 ^ 6

/-- The prediction and the label, where both are known. -/
def JoinedRow.labeled (r : JoinedRow) : Option (Int × Nat) :=
  r.label.bind fun l => r.metric.prediction.map fun p => (p, l.actualLabel)

/-- How many pairs have this prediction and this label. -/
def tally (labeled : List (Int × Nat)) (prediction : Int) (actual : Nat) : Nat :=
  labeled.countP fun x => decide (x = (prediction, actual))

/-- `n / d if d > 0 else None`. -/
def ratio (n d : Nat) : Option ℚ := if 0 < d then some (n / d) else none

/-- `_percentile` of a list, `None` of an empty one. -/
def percentileOf (values : List ℚ) (pct : ℚ) : Option ℚ :=
  if values = [] then none else percentile (values.insertionSort (· ≤ ·)) pct

/-- `compute_version_summary`. -/
def versionSummary (metrics : List MetricRow) (labels : Table GroundTruthLabel.predictionId)
    (deploymentId version : String) (w : Window) : VersionSummary :=
  let rows := joinedRows metrics labels deploymentId version w
  let latencies := rows.map fun r => r.metric.latencyMs
  let delays := rows.filterMap JoinedRow.labelDelay
  let labeledSampleCount := rows.countP fun r => r.label.isSome
  let labeled := rows.filterMap JoinedRow.labeled
  let truePositives := tally labeled 1 1
  let falsePositives := tally labeled 1 0
  let falseNegatives := tally labeled 0 1
  let trueNegatives := tally labeled 0 0
  { version := version
    sampleCount := rows.length
    -- a negative status code is below 400 like 0
    errorRate := errorRate (rows.map fun r => r.metric.statusCode.toNat)
    p50LatencyMs := percentileOf latencies 50
    p95LatencyMs := percentileOf latencies 95
    p99LatencyMs := percentileOf latencies 99
    precision := ratio truePositives (truePositives + falsePositives)
    «recall» := ratio truePositives (truePositives + falseNegatives)
    falsePositiveRate := ratio falsePositives (falsePositives + trueNegatives)
    labeledSampleCount := labeledSampleCount
    labelCoverage := ratio labeledSampleCount rows.length
    positiveLabelCount := truePositives + falseNegatives
    labelDelayP50Seconds := percentileOf delays 50
    labelDelayP95Seconds := percentileOf delays 95 }

/-- The part of a row that the error rate is computed from. -/
def MetricRow.counted (m : MetricRow) : PredictionMetric where
  deploymentId := m.deploymentId
  modelVersion := m.modelVersion
  statusCode := m.statusCode.toNat
  prediction := m.prediction
  predictionId := m.predictionId.map Text.ofString
  createdAt := m.createdAt

/-- **Labels and latencies leave the error rate alone.** -/
theorem versionSummary_counts (metrics : List MetricRow)
    (labels : Table GroundTruthLabel.predictionId) (deploymentId version : String) (w : Window) :
    (versionSummary metrics labels deploymentId version w).toMetricsSummary =
      computeVersionSummary (metrics.map MetricRow.counted) deploymentId version w := by
  have hrows : (metrics.map MetricRow.counted).filter (fun r =>
      decide (r.deploymentId = deploymentId) && decide (r.modelVersion = version) &&
        w.contains r.createdAt) =
      (joinedRows metrics labels deploymentId version w).map fun r => r.metric.counted := by
    unfold joinedRows
    rw [List.map_map, List.filter_map]
    rfl
  unfold versionSummary computeVersionSummary
  simp only [hrows, List.length_map, List.map_map]
  rfl

end ModelOps
