/-
  File:      ModelOps/Policy/Evaluate.lean
  Subject:   POST /api/deployments/{id}/evaluate (app/policy/api.py, app/policy/service.py).

  An evaluation is a session of its own: it reads the deployment, checks that it is active, reads three
  summaries and the allocation, and commits one row for each check. It changes no other table, and no
  `version_id` guards its commit, so nothing can refuse it (`tables.commit`).

  * `PolicyEvaluation` -- a row, with the context it was decided in;
  * `runEvaluation`, `EvaluateRequest.program` -- the code;
  * **`evaluate_cases`** -- alone, it is an error that records nothing, or the checks of an active
    deployment, recorded.
-/
import ModelOps.ControlPlane.Reconcile
import ModelOps.Policy.Engine

namespace ModelOps

open Transact Relational

/-! ## 1. Rows -/

/-- A recorded check, and what the deployment looked like when it was made. -/
structure PolicyEvaluation extends PolicyCheckResult where
  deploymentId : String
  evaluatedAt : Time
  evaluationWindowSeconds : Nat
  stableWeight : Option ℚ
  canaryWeight : Option ℚ
  stableSampleCount : Nat
  canarySampleCount : Nat
  -- the quality checks read a window of their own
  labelMaturitySeconds : Option Nat
  qualityWindowStart : Option Int
  qualityWindowEnd : Option Int
  labeledSampleCount : Option Nat
  labelCoverage : Option ℚ
  positiveLabelCount : Option Nat
  deriving DecidableEq

/-- All tables of the control plane. -/
structure Tables where
  db : Db
  predictionMetrics : List MetricRow
  groundTruthLabels : Table GroundTruthLabel.predictionId
  policyEvaluations : List PolicyEvaluation

def Tables.empty : Tables := ⟨.empty, [], .empty _, []⟩

/-- `_QUALITY_POLICY_NAMES`. -/
def QUALITY_POLICY_NAMES : List String :=
  ["minimum_labeled_samples", "minimum_label_coverage", "minimum_positive_labels", "minimum_recall"]

/-- `_weight_for`. -/
def weightFor (allocation : Option TrafficAllocation) (version : String) : Option ℚ :=
  allocation.bind fun a =>
    (a.targets.find? fun t => decide (t.version = version)).map TargetWeight.weight

/-- The clock readings of one evaluation: one for each summary, its own, and one for each row. -/
structure EvaluationClock where
  stable : Time
  canary : Time
  quality : Time
  now : Time
  evaluatedAt : List Time

def EvaluationClock.row (c : EvaluationClock) (i : Nat) : Time := c.evaluatedAt.getD i c.now

def EvaluationClock.readings (c : EvaluationClock) : List Time :=
  c.stable :: c.canary :: c.quality :: c.now :: c.evaluatedAt

/-- What `run_evaluation` has read before it writes. -/
structure Comparison where
  stable : VersionSummary
  canary : VersionSummary
  canaryQuality : VersionSummary

/-- The row of one check. -/
def evaluationRow (c : EvaluationClock) (d : Deployment) (config : PolicyConfig) (m : Comparison)
    (allocation : Option TrafficAllocation) (i : Nat) (check : PolicyCheckResult) :
    PolicyEvaluation :=
  let isQualityCheck := decide (check.policyName ∈ QUALITY_POLICY_NAMES)
  let qualityWindowEnd : Int := (c.now : Int) - config.labelMaturitySeconds * 10 ^ 6
  let qualityWindowStart : Int := qualityWindowEnd - config.evaluationWindowSeconds * 10 ^ 6
  { check with
    deploymentId := d.id
    evaluatedAt := c.row i
    evaluationWindowSeconds := config.evaluationWindowSeconds
    stableWeight := weightFor allocation d.stableVersion
    canaryWeight := weightFor allocation d.canaryVersion
    stableSampleCount := m.stable.sampleCount
    canarySampleCount := m.canary.sampleCount
    labelMaturitySeconds := if isQualityCheck then some config.labelMaturitySeconds else none
    qualityWindowStart := if isQualityCheck then some qualityWindowStart else none
    qualityWindowEnd := if isQualityCheck then some qualityWindowEnd else none
    labeledSampleCount := if isQualityCheck then some m.canaryQuality.labeledSampleCount else none
    labelCoverage := if isQualityCheck then m.canaryQuality.labelCoverage else none
    positiveLabelCount := if isQualityCheck then some m.canaryQuality.positiveLabelCount else none }

/-! ## 2. The session -/

/-- The statements of an evaluation. -/
inductive PolicyQuery where
  | deployment (id : String)
  | versionSummary (deploymentId version : String) (w : Window)
  | trafficAllocation (deploymentId : String)

abbrev PolicyQuery.Answer : PolicyQuery → Type
  | .deployment _ => Option Deployment
  | .versionSummary .. => VersionSummary
  | .trafficAllocation _ => Option TrafficAllocation

def Tables.answer (t : Tables) : (q : PolicyQuery) → q.Answer
  | .deployment id => t.db.deployment? id
  | .versionSummary id version w =>
      ModelOps.versionSummary t.predictionMetrics t.groundTruthLabels id version w
  | .trafficAllocation id => t.db.trafficAllocation? id

/-- The tables with more evaluations on record. -/
def Tables.recorded (t : Tables) (rows : List PolicyEvaluation) : Tables :=
  { t with policyEvaluations := t.policyEvaluations ++ rows }

/-- An evaluation only inserts rows with fresh keys: no flush waits, no commit is refused. -/
abbrev policySql : Interface where
  Query := PolicyQuery
  Answer := PolicyQuery.Answer
  Row := Empty
  Verdict := Unit
  Change := List PolicyEvaluation
  Refusal := Empty

def tables : Store policySql Tables where
  answer := Tables.answer
  probe := fun _ _ => ()
  granted := fun _ => true
  clash := fun _ _ => false
  clash_symm := fun _ _ => rfl
  commit := fun t rows => .ok (t.recorded rows)

structure EvaluateResponse where
  deploymentId : String
  overallResult : OverallResult
  checks : List PolicyCheckResult
  deriving DecidableEq

abbrev PolicyService (α : Type) := Txn policySql ServiceError α

abbrev Evaluation := Option (List PolicyEvaluation) × EvaluateResponse

/-- One SELECT. -/
def look (q : PolicyQuery) : PolicyService q.Answer := @Txn.ask policySql ServiceError q

/-- `run_evaluation`, and the response made of it. -/
def runEvaluation (c : EvaluationClock) (d : Deployment) (config : PolicyConfig) :
    PolicyService Evaluation := do
  let stable ← look (.versionSummary d.id d.stableVersion ⟨c.stable, config.evaluationWindowSeconds, 0⟩)
  let canary ← look (.versionSummary d.id d.canaryVersion ⟨c.canary, config.evaluationWindowSeconds, 0⟩)
  let canaryQuality ← look (.versionSummary d.id d.canaryVersion
    ⟨c.quality, config.evaluationWindowSeconds, config.labelMaturitySeconds⟩)
  let checks := evaluatePolicies stable canary canaryQuality config
  let allocation ← look (.trafficAllocation d.id)
  let rows := checks.mapIdx (evaluationRow c d config ⟨stable, canary, canaryQuality⟩ allocation)
  pure (some rows, ⟨d.id, overallResult checks, checks⟩)

/-- What the environment decides for one evaluation. -/
structure EvaluationEnv where
  clock : EvaluationClock
  policyDefaults : PolicyConfig

/-- POST /api/deployments/{id}/evaluate; `config` is the optional body. -/
structure EvaluateRequest where
  deploymentId : String
  config : Option PolicyConfig := none

/-- The configuration of one evaluation: the body's, or the deployment's own. -/
def EvaluateRequest.effectiveConfig (env : EvaluationEnv) (r : EvaluateRequest) (d : Deployment) :
    PolicyConfig :=
  r.config.getD (d.policyConfig.getD env.policyDefaults)

/-- The endpoint, once the row was looked up. -/
def EvaluateRequest.judge (env : EvaluationEnv) (r : EvaluateRequest) :
    Option Deployment → PolicyService Evaluation
  | none => .fail (.deploymentNotFound r.deploymentId)
  | some d =>
      -- `require_active`
      if d.status.active then runEvaluation env.clock d (r.effectiveConfig env d)
      else .fail (.deploymentNotActive d.id d.status)

/-- The endpoint. -/
def EvaluateRequest.program (env : EvaluationEnv) (r : EvaluateRequest) :
    PolicyService Evaluation := do
  r.judge env (← look (.deployment r.deploymentId))

/-- The evaluation run alone. -/
def EvaluateRequest.exec (env : EvaluationEnv) (r : EvaluateRequest) (t : Tables) :
    Except ServiceError EvaluateResponse × Tables :=
  match Transact.run tables t (r.program env) with
  | (.replied response, t') => (.ok response, t')
  | (.failed e, t') => (.error e, t')
  | (.refused _ why, _) => why.elim

/-! ## 3. What it records -/

/-- The summaries an evaluation of `d` reads. -/
def Tables.comparison (t : Tables) (c : EvaluationClock) (d : Deployment) (config : PolicyConfig) :
    Comparison where
  stable := versionSummary t.predictionMetrics t.groundTruthLabels d.id d.stableVersion
    ⟨c.stable, config.evaluationWindowSeconds, 0⟩
  canary := versionSummary t.predictionMetrics t.groundTruthLabels d.id d.canaryVersion
    ⟨c.canary, config.evaluationWindowSeconds, 0⟩
  canaryQuality := versionSummary t.predictionMetrics t.groundTruthLabels d.id d.canaryVersion
    ⟨c.quality, config.evaluationWindowSeconds, config.labelMaturitySeconds⟩

/-- The checks of an evaluation of `d`. -/
def Tables.checks (t : Tables) (c : EvaluationClock) (d : Deployment) (config : PolicyConfig) :
    List PolicyCheckResult :=
  let m := t.comparison c d config
  evaluatePolicies m.stable m.canary m.canaryQuality config

/-- The rows of an evaluation of `d`. -/
def Tables.evaluationRows (t : Tables) (c : EvaluationClock) (d : Deployment)
    (config : PolicyConfig) : List PolicyEvaluation :=
  (t.checks c d config).mapIdx
    (evaluationRow c d config (t.comparison c d config) (t.db.trafficAllocation? d.id))

section Evaluate

variable {t : Tables} {c : EvaluationClock} {d : Deployment} {config : PolicyConfig}

theorem evaluationRows_ne_nil : t.evaluationRows c d config ≠ [] := by
  unfold Tables.evaluationRows
  rw [ne_eq, List.mapIdx_eq_nil_iff]
  exact evaluatePolicies_ne_nil _ _ _ _

/-- Every row of an evaluation is the deployment's own, at a reading of its clock. -/
theorem evaluationRows_mem {row : PolicyEvaluation} (h : row ∈ t.evaluationRows c d config) :
    row.deploymentId = d.id ∧ row.evaluatedAt ∈ c.readings := by
  obtain ⟨i, _, rfl⟩ := List.mem_mapIdx.mp h
  refine ⟨rfl, ?_⟩
  show c.row i ∈ c.readings
  unfold EvaluationClock.row EvaluationClock.readings
  rw [List.getD_eq_getElem?_getD]
  cases ht : c.evaluatedAt[i]? with
  | none => simp
  | some at_ =>
      have hmem := List.mem_of_getElem? ht
      simp [hmem]

/-- The checks can be read back from the rows. -/
theorem evaluationRows_checks :
    (t.evaluationRows c d config).map PolicyEvaluation.toPolicyCheckResult =
      t.checks c d config := by
  unfold Tables.evaluationRows
  refine List.ext_getElem (by simp) ?_
  intro i h h'
  rw [List.getElem_map, List.getElem_mapIdx]
  rfl

theorem eval_runEvaluation :
    (runEvaluation c d config).eval tables t =
      .ok (some (t.evaluationRows c d config),
        ⟨d.id, overallResult (t.checks c d config), t.checks c d config⟩) := rfl

theorem eval_program (env : EvaluationEnv) (r : EvaluateRequest) (t : Tables) :
    (r.program env).eval tables t = (r.judge env (t.db.deployment? r.deploymentId)).eval tables t :=
  rfl

theorem judge_active {env : EvaluationEnv} {r : EvaluateRequest} (ha : d.status.active = true) :
    r.judge env (some d) = runEvaluation env.clock d (r.effectiveConfig env d) :=
  if_pos ha

theorem judge_inactive {env : EvaluationEnv} {r : EvaluateRequest} (ha : d.status.active = false) :
    r.judge env (some d) = .fail (.deploymentNotActive d.id d.status) :=
  if_neg (by simp [ha])

/-- An evaluation of an active deployment records its checks. -/
theorem exec_evaluated (env : EvaluationEnv) (r : EvaluateRequest)
    (hd : t.db.deployment? r.deploymentId = some d) (ha : d.status.active = true) :
    r.exec env t =
      (.ok ⟨d.id, overallResult (t.checks env.clock d (r.effectiveConfig env d)),
          t.checks env.clock d (r.effectiveConfig env d)⟩,
        t.recorded (t.evaluationRows env.clock d (r.effectiveConfig env d))) := by
  have he := eval_program env r t
  rw [hd, judge_active ha, eval_runEvaluation] at he
  unfold EvaluateRequest.exec
  rw [run_commit he rfl]

/-- An evaluation of anything else is an error. -/
theorem exec_unevaluated (env : EvaluationEnv) (r : EvaluateRequest)
    (h : ∀ d, t.db.deployment? r.deploymentId = some d → d.status.active = false) :
    ∃ e, r.exec env t = (.error e, t) := by
  have hfail : ∀ e, (r.program env).eval tables t = .error e → r.exec env t = (.error e, t) := by
    intro e he
    simp [EvaluateRequest.exec, Transact.run, he]
  have he := eval_program env r t
  cases hd : t.db.deployment? r.deploymentId with
  | none =>
      rw [hd] at he
      exact ⟨_, hfail _ he⟩
  | some d =>
      rw [hd, judge_inactive (h d hd)] at he
      exact ⟨_, hfail _ he⟩

/-- **What an evaluation does**: an error and nothing recorded, or the checks of an active deployment
    recorded. -/
theorem evaluate_cases (env : EvaluationEnv) (r : EvaluateRequest) (t : Tables) :
    (∃ e, r.exec env t = (.error e, t)) ∨
    ∃ d, t.db.deployment? r.deploymentId = some d ∧ d.status.active = true ∧
      r.exec env t =
        (.ok ⟨d.id, overallResult (t.checks env.clock d (r.effectiveConfig env d)),
            t.checks env.clock d (r.effectiveConfig env d)⟩,
          t.recorded (t.evaluationRows env.clock d (r.effectiveConfig env d))) := by
  by_cases h : ∃ d, t.db.deployment? r.deploymentId = some d ∧ d.status.active = true
  · obtain ⟨d, hd, ha⟩ := h
    exact Or.inr ⟨d, hd, ha, exec_evaluated env r hd ha⟩
  · left
    apply exec_unevaluated
    intro d hd
    cases ha : d.status.active with
    | false => rfl
    | true => exact absurd ⟨d, hd, ha⟩ h

end Evaluate

/-! ## 4. Reading them back -/

/-- `list_policy_evaluations`: the newest first. -/
def Tables.listPolicyEvaluations (t : Tables) (deploymentId : String) : List PolicyEvaluation :=
  (t.policyEvaluations.filter fun row => decide (row.deploymentId = deploymentId)).insertionSort
    fun row row' => row'.evaluatedAt ≤ row.evaluatedAt

/-- The time of the newest evaluation on record. -/
def Tables.lastEvaluatedAt (t : Tables) (deploymentId : String) : Option Time :=
  (t.listPolicyEvaluations deploymentId).head?.map PolicyEvaluation.evaluatedAt

end ModelOps
