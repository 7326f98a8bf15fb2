/-
  File:      ModelOps/ControlPlane/Models.lean
  Subject:   The control plane's tables and the queries its service asks of them
             (app/control_plane/models.py, the SELECTs of app/control_plane/service.py).

  * `Deployment`, `TrafficAllocation`, `RoutingGeneration` -- one `Table` each, keyed by their
    primary (or unique) key, so a duplicate key cannot be built;
  * `EventBody` -- what a DeploymentEvent says; the columns `event_type` and `message` are computed
    from it, so the texts are the source's;
  * `Db.getActiveDeployment`, `Db.getAuthoritativeAllocation` -- the two ORDER BY .. LIMIT 1 queries.

  Weights are exact rationals and time is the natural number of microseconds since some origin.
-/
import ModelOps.Lib.Table
import ModelOps.Lib.Decimal
import ModelOps.Policy.Config
import ModelOps.ControlPlane.StateMachine

namespace ModelOps

open Relational

abbrev Time := Nat

/-- A version's share of traffic. -/
structure TargetWeight where
  version : String
  weight : ℚ
  deriving DecidableEq

structure Deployment where
  id : String
  modelName : String
  stableVersion : String
  canaryVersion : String
  status : DeploymentStatus := .pending
  idempotencyKey : Option String
  policyConfig : Option PolicyConfig
  inconclusiveRetryCount : Nat := 0
  automationPaused : Bool
  createdAt : Time
  startedAt : Option Time := none
  completedAt : Option Time := none
  updatedAt : Time
  /-- the optimistic lock: every UPDATE is guarded by the value read and raises it by one -/
  versionId : Nat := 1
  deriving DecidableEq

structure TrafficAllocation where
  deploymentId : String
  targets : List TargetWeight
  revision : Nat
  deriving DecidableEq

structure RoutingGeneration where
  modelName : String
  generation : Nat
  deriving DecidableEq

/-- Who asked for a promote or a rollback. -/
inductive TriggeredBy where
  | manual
  | automatic
  deriving DecidableEq, Repr

def TriggeredBy.value : TriggeredBy → String
  | .manual => "manual"
  | .automatic => "automatic"

/-- What an event says. -/
inductive EventBody where
  | created (modelName stableVersion canaryVersion : String)
  | pausedAtCreation
  | automationPaused (triggeredBy : TriggeredBy)
  | automationResumed (triggeredBy : TriggeredBy)
  | statusChanged (previous target : DeploymentStatus) (message : String)
  | trafficAdvanced (fromWeight toWeight : ℚ)
  | inconclusiveCycle (attempt maxRetries : Nat)
  | routerUnreachable
  | routerRecovered
  | routerReconciled (observedId : Option String) (observedRevision : Int)
      (deploymentId : String) (revision : Nat)
  | labelConflict (predictionId : String) (existingLabel newLabel : Nat)
  deriving DecidableEq

/-- The column `event_type`. -/
def EventBody.eventType : EventBody → String
  | .created .. => "created"
  | .pausedAtCreation => "automation_paused"
  | .automationPaused _ => "automation_paused"
  | .automationResumed _ => "automation_resumed"
  | .statusChanged .. => "status_changed"
  | .trafficAdvanced .. => "traffic_advanced"
  | .inconclusiveCycle .. => "inconclusive_cycle"
  | .routerUnreachable => "router_unreachable"
  | .routerRecovered => "router_recovered"
  | .routerReconciled .. => "router_reconciled"
  | .labelConflict .. => "label_conflict"

/-- A weight as whole percents: the format `:.0f`. -/
def percent (w : ℚ) : Int := Decimal.roundHalfEven (w * 100)

/-- The column `message`. -/
def EventBody.message : EventBody → String
  | .created m s c => s!"deployment created for {m}: stable={s} canary={c}"
  | .pausedAtCreation =>
      "automation paused at creation (manual) - the worker will not act on " ++
      "this deployment until it's resumed"
  | .automationPaused t => s!"automation paused ({t.value})"
  | .automationResumed t => s!"automation resumed ({t.value})"
  | .statusChanged p t m => s!"{p.value} -> {t.value}: {m}"
  | .trafficAdvanced a b =>
      s!"auto: advanced canary traffic from {percent a}% to {percent b}%"
  | .inconclusiveCycle n m => s!"auto: evaluation inconclusive (attempt {n}/{m})"
  | .routerUnreachable =>
      "router became unreachable - actual traffic state is unknown until it recovers"
  | .routerRecovered => "router is reachable again - traffic state will be reconciled"
  | .routerReconciled o r d n =>
      let observed := o.getD "None"
      s!"reconciled router config: deployment={observed} " ++
      s!"revision={r} -> deployment={d} revision={n}"
  | .labelConflict id existing new =>
      s!"label conflict for prediction_id={id}: already " ++
      s!"recorded actual_label={existing}, rejected new " ++ s!"value {new}"

structure DeploymentEvent where
  deploymentId : String
  body : EventBody
  createdAt : Time
  deriving DecidableEq

/-- The committed tables. -/
structure Db where
  deployments : Table Deployment.id
  trafficAllocations : Table TrafficAllocation.deploymentId
  routingGenerations : Table RoutingGeneration.modelName
  deploymentEvents : List DeploymentEvent

namespace Db

def empty : Db := ⟨.empty _, .empty _, .empty _, []⟩

/-- `db.get(Deployment, id)`. -/
def deployment? (db : Db) (id : String) : Option Deployment := db.deployments.get? id

/-- The lazy load of `deployment.traffic_allocation`. -/
def trafficAllocation? (db : Db) (deploymentId : String) : Option TrafficAllocation :=
  db.trafficAllocations.get? deploymentId

/-- `db.get(RoutingGeneration, model_name)`. -/
def routingGeneration? (db : Db) (modelName : String) : Option RoutingGeneration :=
  db.routingGenerations.get? modelName

/-- The model's counter; a model without a row has generated nothing yet. -/
def generation (db : Db) (modelName : String) : Nat :=
  ((db.routingGeneration? modelName).map RoutingGeneration.generation).getD 0

def findByIdempotencyKey (db : Db) (key : String) : Option Deployment :=
  db.deployments.rows.find? fun d => decide (d.idempotencyKey = some key)

/-- The one deployment (if any) that is rolling out right now for this model. -/
def getActiveDeployment (db : Db) (modelName : String) : Option Deployment :=
  latestBy Deployment.createdAt (fun d => decide (d.modelName = modelName) && d.status.active)
    db.deployments.rows

/-- The order of a finished rollout: `completed_at`, then `created_at`. -/
def finishedOrder (d : Deployment) : Lex (WithBot Time × Time) :=
  toLex ((d.completedAt : WithBot Time), d.createdAt)

/-- The deployment whose allocation the router should be serving: the rollout in flight or frozen,
    otherwise the one that finished last. -/
def getAuthoritativeAllocation (db : Db) (modelName : String) : Option Deployment :=
  match latestBy Deployment.createdAt
      (fun d => decide (d.modelName = modelName) &&
        (d.status.active || decide (d.status = .inconclusive))) db.deployments.rows with
  | some routing => some routing
  | none =>
      latestBy finishedOrder
        (fun d => decide (d.modelName = modelName) && d.status.authoritativeTerminal)
        db.deployments.rows

/-- The split a deployment's allocation holds. -/
def targetsOf (db : Db) (deploymentId : String) : Option (List TargetWeight) :=
  (db.trafficAllocation? deploymentId).map TrafficAllocation.targets

/-- The events of one deployment, in the order they were written. -/
def eventsOf (db : Db) (deploymentId : String) : List EventBody :=
  (db.deploymentEvents.filter fun e => decide (e.deploymentId = deploymentId)).map
    DeploymentEvent.body

end Db

end ModelOps
