/-
  File:      ModelOps/Worker/Loop.lean
  Subject:   One cycle of the worker over one deployment (app/worker/loop.py, app/worker/decide.py).

  The worker reads and acts through the API only. What it cannot compute from the deployment -- the
  time of the last evaluation, the verdict of the policy engine, the clock -- is part of the `Cycle`.

  * `decideAction`, `canaryAtFullTraffic`, `isDueForEvaluation` -- the pure parts;
  * `processDeployment` -- the cycle with nothing beside it;
  * `process_cases` -- what it does: nothing, or the one action that the verdict asks for.
-/
import ModelOps.Policy.Engine
import ModelOps.ControlPlane.Schema

namespace ModelOps

/-! ## 1. Decisions -/

inductive WorkerAction where
  | advanceTraffic
  | promote
  | rollback
  | recordInconclusive
  deriving DecidableEq, Repr

def WorkerAction.value : WorkerAction → String
  | .advanceTraffic => "advance_traffic"
  | .promote => "promote"
  | .rollback => "rollback"
  | .recordInconclusive => "record_inconclusive"

def decideAction (overallResult : OverallResult) (canaryAtFullTraffic : Bool) : WorkerAction :=
  match overallResult with
  | .fail => .rollback
  | .inconclusive => .recordInconclusive
  | .pass => if canaryAtFullTraffic then .promote else .advanceTraffic

/-- The request the action is sent as. -/
def WorkerAction.request (id : String) : WorkerAction → Request
  | .advanceTraffic => .advanceTraffic id
  | .promote => .promote id .automatic
  | .rollback => .rollback id .automatic
  | .recordInconclusive => .recordInconclusive id

/-- What GET /api/deployments/{id} answers. -/
structure DeploymentOut where
  deployment : Deployment
  trafficAllocation : Option TrafficAllocation

def Db.deploymentOut? (db : Db) (id : String) : Option DeploymentOut :=
  (db.deployment? id).map fun d => ⟨d, db.trafficAllocation? d.id⟩

/-- `_canary_at_full_traffic`. -/
def canaryAtFullTraffic (out : DeploymentOut) : Bool :=
  match out.trafficAllocation with
  | none => false
  | some a =>
      match a.targets.find? fun t => decide (t.version = out.deployment.canaryVersion) with
      | some t => decide (1 - 1 / 10 ^ 9 ≤ t.weight)
      | none => false

/-- `_evaluation_window_seconds`. -/
def evaluationWindowSeconds (out : DeploymentOut) (default : Nat) : Nat :=
  match out.deployment.policyConfig with
  | some p => p.evaluationWindowSeconds
  | none => default

/-- `_is_due_for_evaluation`, from the time of the newest evaluation on record. -/
def isDueForEvaluation (lastEvaluatedAt : Option Time) (now : Time) (windowSeconds : Nat) : Bool :=
  match lastEvaluatedAt with
  | none => true
  | some t => decide (t + windowSeconds * 10 ^ 6 ≤ now)

/-- POST /api/deployments/{id}/evaluate: the verdict, or why there is none. -/
def evaluateDeployment (db : Db) (id : String) (overallResult : OverallResult) :
    Except ServiceError OverallResult :=
  match db.deployment? id with
  | none => .error (.deploymentNotFound id)
  | some d =>
      if d.status.active then .ok overallResult else .error (.deploymentNotActive id d.status)

/-! ## 2. A cycle -/

/-- What a cycle finds. -/
structure Cycle where
  lastEvaluatedAt : Option Time
  now : Time
  defaultWindowSeconds : Nat
  overallResult : OverallResult
  env : Env

def Cycle.due (c : Cycle) (out : DeploymentOut) : Bool :=
  isDueForEvaluation c.lastEvaluatedAt c.now (evaluationWindowSeconds out c.defaultWindowSeconds)

/-- `process_deployment`: the action taken, if any, and the tables after it. An answer other than a
    conflict raises, which the sweep catches; either way nothing was done. -/
def processDeployment (c : Cycle) (db : Db) (id : String) : Option WorkerAction × Db :=
  match db.deploymentOut? id with
  | none => (none, db)
  | some out =>
      if !out.deployment.status.active then (none, db)
      else if !c.due out then (none, db)
      else
        match evaluateDeployment db id c.overallResult with
        | .error _ => (none, db)
        | .ok overallResult =>
            let action := decideAction overallResult (canaryAtFullTraffic out)
            match (action.request id).exec c.env db with
            | (.ok _, db) => (some action, db)
            | (.error _, db) => (none, db)

/-- The cycle evaluates `d`. -/
def Cycle.Evaluates (c : Cycle) (db : Db) (d : Deployment) : Prop :=
  d.status.active = true ∧ c.due ⟨d, db.trafficAllocation? d.id⟩ = true

/-- **What a cycle that evaluates does**: the action, and the row it leaves behind. -/
inductive Cycle.Does (c : Cycle) (db : Db) (d : Deployment) : WorkerAction → Deployment → Prop where
  | rollback (hr : c.overallResult = .fail) :
      Does c db d .rollback (resolvedRow ModelOps.rollback c.env d)
  | promote (hr : c.overallResult = .pass)
      (hfull : canaryAtFullTraffic ⟨d, db.trafficAllocation? d.id⟩ = true) :
      Does c db d .promote (resolvedRow promotion c.env d)
  | advance (hr : c.overallResult = .pass)
      (hfull : canaryAtFullTraffic ⟨d, db.trafficAllocation? d.id⟩ = false) :
      Does c db d .advanceTraffic (advancedRow c.env d)
  | retry (hr : c.overallResult = .inconclusive)
      (hn : d.inconclusiveRetryCount + 1 ≤ (getPolicyConfig c.env d).maxInconclusiveRetries) :
      Does c db d .recordInconclusive (cycledRow c.env d)
  | freeze (hr : c.overallResult = .inconclusive)
      (hn : (getPolicyConfig c.env d).maxInconclusiveRetries < d.inconclusiveRetryCount + 1) :
      Does c db d .recordInconclusive (frozenRow c.env d)

section Process

variable {c : Cycle} {db : Db} {d : Deployment}

/-- A canary that is not at full traffic has a stage to go to. -/
theorem nextStage_of_not_full (h : canaryAtFullTraffic ⟨d, db.trafficAllocation? d.id⟩ = false) :
    ∃ w, nextStage (db.canaryWeight d) = some w := by
  have hlt : db.canaryWeight d + 1 / 10 ^ 9 < 1 := by
    unfold Db.canaryWeight currentCanaryWeight
    unfold canaryAtFullTraffic at h
    cases ha : db.trafficAllocation? d.id with
    | none =>
        norm_num
    | some a =>
        simp only [ha] at h ⊢
        cases ht : a.targets.find? fun t => decide (t.version = d.canaryVersion) with
        | none => norm_num
        | some t =>
            simp only [ht, decide_eq_false_iff_not, not_le] at h ⊢
            linarith
  have hsome : (nextStage (db.canaryWeight d)).isSome = true := by
    unfold nextStage
    rw [List.find?_isSome]
    exact ⟨1, by simp [TRAFFIC_STAGES], by simpa using hlt⟩
  exact Option.isSome_iff_exists.mp hsome

/-- An active rollout that is running can be promoted and rolled back. -/
theorem admits_of_running (hs : d.status = .canaryRunning) :
    promotion.Admits d.status ∧ ModelOps.rollback.Admits d.status := by
  rw [hs]
  exact ⟨Or.inl rfl, Or.inl rfl⟩

/-- What a cycle leaves in the tables a request leaves in them. -/
theorem process_exec (c : Cycle) (db : Db) (id : String) :
    (processDeployment c db id).2 = db ∨
    ∃ req : Request, (processDeployment c db id).2 = (req.exec c.env db).2 := by
  unfold processDeployment
  split
  · exact Or.inl rfl
  · rename_i out _
    split
    · exact Or.inl rfl
    · split
      · exact Or.inl rfl
      · split
        · exact Or.inl rfl
        · rename_i overallResult _
          right
          refine ⟨(decideAction overallResult (canaryAtFullTraffic out)).request id, ?_⟩
          dsimp only
          split
          · rename_i h
            rw [h]
          · rename_i h
            rw [h]

/-- **A cycle evaluates and acts, or does nothing.** -/
theorem process_cases (c : Cycle) (hsh : Shaped db) (hd : db.deployment? d.id = some d) :
    (c.Evaluates db d ∧ ∃ action row split bodies, c.Does db d action row ∧
      processDeployment c db d.id =
        (some action, db.applied row split (stamp c.env.clock d.id bodies))) ∨
    (¬c.Evaluates db d ∧ processDeployment c db d.id = (none, db)) := by
  have hout : db.deploymentOut? d.id = some ⟨d, db.trafficAllocation? d.id⟩ := by
    unfold Db.deploymentOut?
    rw [hd]
    rfl
  by_cases hev : c.Evaluates db d
  · left
    refine ⟨hev, ?_⟩
    obtain ⟨ha, hdue⟩ := hev
    have hprocess : ∀ action reply db',
        decideAction c.overallResult (canaryAtFullTraffic ⟨d, db.trafficAllocation? d.id⟩) = action →
        (action.request d.id).exec c.env db = (.ok reply, db') →
        processDeployment c db d.id = (some action, db') := by
      intro action reply db' hdecide hexec
      unfold processDeployment evaluateDeployment
      simp only [hout, ha, hdue, hd, Bool.not_true, Bool.false_eq_true, if_false, if_true, hdecide,
        hexec]
    obtain ⟨hpromote, hrollback⟩ :=
      admits_of_running ((hsh d (deployment?_eq_some.mp hd).1).running_of_active ha)
    cases hr : c.overallResult with
    | fail =>
        have hexec : (Request.rollback d.id .automatic).exec c.env db = _ :=
          exec_resolved (.rollback d.id .automatic) hd hrollback
        exact ⟨_, _, _, _, .rollback hr, hprocess .rollback _ _ (by rw [hr]; rfl) hexec⟩
    | inconclusive =>
        obtain ⟨reply, row, bodies, hexec, ⟨rfl, hn⟩ | ⟨rfl, hn⟩⟩ := exec_recorded c.env hd ha
        · exact ⟨_, _, _, _, .retry hr hn,
            hprocess .recordInconclusive _ _ (by rw [hr]; rfl) hexec⟩
        · exact ⟨_, _, _, _, .freeze hr hn,
            hprocess .recordInconclusive _ _ (by rw [hr]; rfl) hexec⟩
    | pass =>
        cases hfull : canaryAtFullTraffic ⟨d, db.trafficAllocation? d.id⟩ with
        | true =>
            have hexec : (Request.promote d.id .automatic).exec c.env db = _ :=
              exec_resolved (.promote d.id .automatic) hd hpromote
            exact ⟨_, _, _, _, .promote hr hfull,
              hprocess .promote _ _ (by rw [hr, hfull]; rfl) hexec⟩
        | false =>
            obtain ⟨w, hw⟩ := nextStage_of_not_full hfull
            have hexec : (Request.advanceTraffic d.id).exec c.env db = _ := exec_advanced hd ha hw
            exact ⟨_, _, _, _, .advance hr hfull,
              hprocess .advanceTraffic _ _ (by rw [hr, hfull]; rfl) hexec⟩
  · right
    refine ⟨hev, ?_⟩
    unfold processDeployment
    simp only [hout]
    cases ha : d.status.active with
    | false => rfl
    | true =>
        cases hdue : c.due ⟨d, db.trafficAllocation? d.id⟩ with
        | false => rfl
        | true => exact absurd ⟨ha, hdue⟩ hev

end Process

end ModelOps
