/-
  File:      ModelOps/ControlPlane/Service.lean
  Subject:   The lifecycle operations of a deployment (app/control_plane/service.py and the
             endpoints of app/control_plane/api.py that call them), as sessions against the tables.

  An operation is a `Txn`: it reads rows one at a time, collects what it changed in a `Session`
  (SQLAlchemy's unit of work) and returns it for one commit. Nothing is visible before that commit,
  and `Db.flush` refuses it whole where the row's `version_id` is no longer the one read.

  * `Session.touch`, `logEvent`, `transition`, `nextRoutingGeneration`, `setTrafficAllocation` --
    the private helpers of the module, on the unit of work;
  * `createDeployment`, `promoteDeployment`, `rollbackDeployment`, `advanceTraffic`,
    `recordInconclusive`, `pauseAutomation`, `resumeAutomation` -- the operations. Promote and
    rollback are `resolveDeployment`, pause and resume are `setAutomation`, at their own values;
  * `Request.program` -- the endpoint of each: the row is loaded first, then the operation runs;
  * `Request.exec` -- the request run alone.

  The router push that follows a commit is part of the reply (`Reply.push`): the source sends it
  only after the commit, and what becomes of it is the business of ModelOps/System.
-/
import ModelOps.Lib.Transaction
import ModelOps.ControlPlane.Models

namespace ModelOps

open Transact Relational

/-! ## 1. Errors -/

inductive ServiceError where
  | deploymentNotFound (deploymentId : String)
  | invalidTransition (e : InvalidTransitionError)
  | deploymentNotActive (deploymentId : String) (status : DeploymentStatus)
  | alreadyAtFinalStage (deploymentId : String)
  | concurrentUpdate (deploymentId : String)
  | deploymentTerminal (deploymentId : String) (status : DeploymentStatus)
  | activeDeploymentExists (modelName existingDeploymentId : String)
  /-- an IntegrityError nobody catches -/
  | integrityError
  deriving DecidableEq

def ServiceError.message : ServiceError → String
  | .deploymentNotFound id => s!"Deployment '{id}' not found"
  | .invalidTransition e => e.message
  | .deploymentNotActive id status => s!"deployment {id} is not active (status={status.value})"
  | .alreadyAtFinalStage id => s!"deployment {id} canary is already at the final stage"
  | .concurrentUpdate id =>
      s!"deployment {id} was concurrently modified by another " ++
      "request - retry against its current state"
  | .deploymentTerminal id status =>
      s!"deployment {id} is terminal (status={status.value}) - " ++ "nothing to pause or resume"
  | .activeDeploymentExists m id =>
      s!"model '{m}' already has an active deployment " ++
      s!"({id}) - promote or roll it back first"
  | .integrityError => "UNIQUE constraint failed"

/-! ## 2. The unit of work -/

/-- The clock readings of one request: `first` and `second` are the operation's own calls of
    `datetime.now`, `logged` the creation times of the events it writes, in order. -/
structure Clock where
  first : Time
  second : Time
  logged : List Time
  deriving DecidableEq

def Clock.event (c : Clock) (i : Nat) : Time := c.logged.getD i c.second

def Clock.readings (c : Clock) : List Time := c.first :: c.second :: c.logged

/-- A row the session will write at its commit. -/
inductive Dirty (ρ : Type) where
  | clean
  | new (row : ρ)
  | changed (row : ρ)

/-- What a session has loaded and what it will flush at its commit. -/
structure Session where
  clock : Clock
  /-- the `Deployment` object in memory; `versionId` is still the value that was read -/
  deployment : Deployment
  inserted : Bool := false
  /-- the relationship `deployment.traffic_allocation`, once it was loaded -/
  loaded : Option (Option TrafficAllocation) := none
  allocation : Dirty TrafficAllocation := .clean
  generation : Dirty RoutingGeneration := .clean
  events : List DeploymentEvent := []

inductive UniqueConstraint where
  | primaryKey
  | idempotencyKey
  | activePerModel
  deriving DecidableEq, Repr

/-- An INSERT into `deployments`; `named` is the index the database reports first when a row
    violates more than one. -/
structure Insertion where
  deployment : Deployment
  named : UniqueConstraint

/-- The unique indexes a new row would violate. -/
def Db.violations (db : Db) (d : Deployment) : List UniqueConstraint :=
  (if (db.deployment? d.id).isSome then [.primaryKey] else []) ++
  (if d.idempotencyKey.any fun k => (db.findByIdempotencyKey k).isSome then
    [.idempotencyKey] else []) ++
  (if !d.status.terminal && db.deployments.rows.any
      (fun d' => decide (d'.modelName = d.modelName) && !d'.status.terminal) then
    [.activePerModel] else [])

/-- `db.flush()` of the new row: `none`, or the violated index the IntegrityError names. -/
def Db.probe (db : Db) (i : Insertion) : Option UniqueConstraint :=
  if i.named ∈ db.violations i.deployment then some i.named
  else (db.violations i.deployment).head?

/-- Two uncommitted rows the unique indexes cannot both admit. -/
def Insertion.clash (i j : Insertion) : Bool :=
  decide (i.deployment.id = j.deployment.id) ||
  (i.deployment.idempotencyKey.isSome &&
    decide (i.deployment.idempotencyKey = j.deployment.idempotencyKey)) ||
  (!i.deployment.status.terminal && !j.deployment.status.terminal &&
    decide (i.deployment.modelName = j.deployment.modelName))

theorem Insertion.clash_symm (i j : Insertion) : i.clash j = j.clash i := by
  unfold Insertion.clash
  cases i.deployment.idempotencyKey <;> cases j.deployment.idempotencyKey <;>
    grind

/-- Why a commit did not go through: StaleDataError or IntegrityError. -/
inductive FlushError where
  | staleData
  | integrity
  deriving DecidableEq, Repr

/-- The UPDATE of the row would match nothing: its `version_id` is not the one that was read. -/
def Session.stale (s : Session) (db : Db) : Bool :=
  !s.inserted &&
    decide ((db.deployment? s.deployment.id).map Deployment.versionId ≠ some s.deployment.versionId)

/-- One of the new rows has a key that exists. -/
def Session.duplicate (s : Session) (db : Db) : Bool :=
  (s.inserted && (db.deployment? s.deployment.id).isSome) ||
  (match s.allocation with
    | .new a => (db.trafficAllocation? a.deploymentId).isSome
    | _ => false) ||
  (match s.generation with
    | .new g => (db.routingGeneration? g.modelName).isSome
    | _ => false)

/-- The row as it stands after the flush. -/
def Session.row (s : Session) : Deployment :=
  { s.deployment with versionId := s.deployment.versionId + 1 }

def Dirty.put {κ ρ : Type} [DecidableEq κ] {key : ρ → κ} (t : Table key) : Dirty ρ → Table key
  | .clean => t
  | .new r => t.put r
  | .changed r => t.put r

/-- Everything the session changed, written. -/
def Db.write (db : Db) (s : Session) : Db where
  deployments := db.deployments.put s.row
  trafficAllocations := s.allocation.put db.trafficAllocations
  routingGenerations := s.generation.put db.routingGenerations
  deploymentEvents := db.deploymentEvents ++ s.events

/-- `db.commit()`: whole, or not at all. -/
def Db.flush (db : Db) (s : Session) : Except FlushError Db :=
  if s.stale db then .error .staleData
  else if s.duplicate db then .error .integrity
  else .ok (db.write s)

/-! ## 3. Sessions against the tables -/

/-- The statements of the service. -/
inductive Query where
  | deployment (id : String)
  | findByIdempotencyKey (key : String)
  | activeDeployment (modelName : String)
  | routingGeneration (modelName : String)
  | trafficAllocation (deploymentId : String)

abbrev Query.Answer : Query → Type
  | .deployment _ => Option Deployment
  | .findByIdempotencyKey _ => Option Deployment
  | .activeDeployment _ => Option Deployment
  | .routingGeneration _ => Option RoutingGeneration
  | .trafficAllocation _ => Option TrafficAllocation

def Db.answer (db : Db) : (q : Query) → q.Answer
  | .deployment id => db.deployment? id
  | .findByIdempotencyKey key => db.findByIdempotencyKey key
  | .activeDeployment m => db.getActiveDeployment m
  | .routingGeneration m => db.routingGeneration? m
  | .trafficAllocation id => db.trafficAllocation? id

abbrev sql : Interface where
  Query := Query
  Answer := Query.Answer
  Row := Insertion
  Verdict := Option UniqueConstraint
  Change := Session
  Refusal := FlushError

/-- The database, as far as a session sees it. -/
def database : Store sql Db where
  answer := Db.answer
  probe := Db.probe
  granted := fun v => v.isNone
  clash := Insertion.clash
  clash_symm := Insertion.clash_symm
  commit := Db.flush

abbrev Service (α : Type) := Txn sql ServiceError α

/-- One SELECT. -/
def select (q : Query) : Service q.Answer := @Txn.ask sql ServiceError q

/-- The flush of one INSERT. -/
def insertRow (i : Insertion) : Service (Option UniqueConstraint) := @Txn.flush sql ServiceError i

/-! ## 4. Helpers on the unit of work -/

namespace Session

/-- `_log_event`. -/
def logEvent (s : Session) (body : EventBody) : Session :=
  { s with events := s.events ++ [⟨s.deployment.id, body, s.clock.event s.events.length⟩] }

/-- `_touch`: dirties the row, so that its version is checked and raised by every commit. -/
def touch (s : Session) : Session :=
  { s with deployment := { s.deployment with updatedAt := s.clock.first } }

/-- `_transition`. -/
def transition (s : Session) (target : DeploymentStatus) (message : String) : Service Session :=
  match validateTransition s.deployment.status target with
  | .error e => .fail (.invalidTransition e)
  | .ok () =>
      let previous := s.deployment.status
      let s := { s with deployment := { s.deployment with status := target } }
      pure (s.logEvent (.statusChanged previous target message))

/-- A running canary is moved to EVALUATING before it is judged. -/
def evaluate (s : Session) (message : String) : Service Session :=
  if s.deployment.status = .canaryRunning then s.transition .evaluating message else pure s

/-- `_next_routing_generation`. -/
def nextRoutingGeneration (s : Session) (modelName : String) : Service (Nat × Session) := do
  match ← select (.routingGeneration modelName) with
  | none => pure (1, { s with generation := .new ⟨modelName, 1⟩ })
  | some row =>
      let row := { row with generation := row.generation + 1 }
      pure (row.generation, { s with generation := .changed row })

/-- `deployment.traffic_allocation`: loaded by the first access, kept after it. -/
def trafficAllocation (s : Session) : Service (Option TrafficAllocation × Session) :=
  match s.loaded with
  | some allocation => pure (allocation, s)
  | none => do
      let allocation ← select (.trafficAllocation s.deployment.id)
      pure (allocation, { s with loaded := some allocation })

/-- `_set_traffic_allocation`: the targets, stamped with the model's next routing generation. -/
def setTrafficAllocation (s : Session) (targets : List TargetWeight) : Service (Nat × Session) := do
  let (generation, s) ← s.nextRoutingGeneration s.deployment.modelName
  let (allocation, s) ← s.trafficAllocation
  match allocation with
  | some allocation =>
      let allocation := { allocation with targets := targets, revision := generation }
      pure (generation, { s with allocation := .changed allocation })
  | none =>
      pure (generation, { s with allocation := .new ⟨s.deployment.id, targets, generation⟩ })

end Session

/-- What the router is sent after a commit. -/
structure Push where
  modelName : String
  deploymentId : String
  revision : Nat
  targets : List TargetWeight
  deriving DecidableEq

/-- A successful answer: the deployment, whether this request created it, and the push to make. -/
structure Reply where
  deployment : Deployment
  created : Bool := false
  push : Option Push := none

abbrev Plan := Option Session × Reply

/-- `_commit`, then `db.refresh`. -/
def Session.commit (s : Session) (push : Option Push := none) (created : Bool := false) :
    Service Plan :=
  pure (some s, ⟨s.row, created, push⟩)

/-- The session's deployment, at `revision` with `targets`. -/
def Session.pushOf (s : Session) (revision : Nat) (targets : List TargetWeight) : Push :=
  ⟨s.deployment.modelName, s.deployment.id, revision, targets⟩

/-! ## 5. The operations -/

/-- The canary traffic ramp. -/
def TRAFFIC_STAGES : List ℚ := [1 / 10, 1 / 4, 1 / 2, 1]

/-- The split of a running canary: both sides rounded on their own. -/
def canarySplit (stableVersion canaryVersion : String) (w : ℚ) : List TargetWeight :=
  [⟨stableVersion, Decimal.round 6 (1 - w)⟩, ⟨canaryVersion, Decimal.round 6 w⟩]

/-- What the environment decides for one request. -/
structure Env where
  clock : Clock
  newId : String
  named : UniqueConstraint
  /-- `policy_settings.to_policy_config()` -/
  policyDefaults : PolicyConfig

/-- The body of POST /api/deployments, as validation lets it through. -/
structure CreateDeploymentRequest where
  modelName : String
  stableVersion : String
  canaryVersion : String
  canaryWeight : ℚ := 1 / 10
  policyConfig : Option PolicyConfig := none
  allowDegenerateCanaryWeight : Bool := false
  automationPaused : Bool := false
  weight_nonneg : 0 ≤ canaryWeight
  weight_le_one : canaryWeight ≤ 1
  versions_ne : stableVersion ≠ canaryVersion
  weight_proper : allowDegenerateCanaryWeight = true ∨ (0 < canaryWeight ∧ canaryWeight < 1)

/-- The row `create_deployment` inserts. -/
def newDeployment (env : Env) (p : CreateDeploymentRequest) (idempotencyKey : Option String) :
    Deployment where
  id := env.newId
  modelName := p.modelName
  stableVersion := p.stableVersion
  canaryVersion := p.canaryVersion
  idempotencyKey := idempotencyKey
  policyConfig := some (p.policyConfig.getD env.policyDefaults)
  automationPaused := p.automationPaused
  createdAt := env.clock.first
  updatedAt := env.clock.first

/-- `create_deployment` after its INSERT went through. -/
def startRollout (env : Env) (p : CreateDeploymentRequest) (d : Deployment) : Service Plan := do
  let s : Session := { clock := env.clock, deployment := d, inserted := true }
  let s := s.logEvent (.created p.modelName p.stableVersion p.canaryVersion)
  let s := if p.automationPaused then s.logEvent .pausedAtCreation else s
  let targets := canarySplit p.stableVersion p.canaryVersion p.canaryWeight
  let s ← s.transition .deploying "starting canary rollout"
  let s := { s with deployment := { s.deployment with startedAt := some env.clock.second } }
  let (revision, s) ← s.setTrafficAllocation targets
  let s ← s.transition .canaryRunning "canary receiving traffic"
  s.commit (some (s.pushOf revision targets)) true

/-- The INSERT and what follows it; a lost race for the model is reported like the pre-check. -/
def insertDeployment (env : Env) (p : CreateDeploymentRequest) (d : Deployment) : Service Plan := do
  match ← insertRow ⟨d, env.named⟩ with
  | none => startRollout env p d
  | some .idempotencyKey => .fail .integrityError
  | some _ =>
      let winner ← select (.activeDeployment p.modelName)
      .fail (.activeDeploymentExists p.modelName
        ((winner.map Deployment.id).getD "<unknown - lost the race>"))

/-- The pre-check for a rollout in flight, then the INSERT. -/
def createFresh (env : Env) (p : CreateDeploymentRequest) (idempotencyKey : Option String) :
    Service Plan := do
  match ← select (.activeDeployment p.modelName) with
  | some existing => .fail (.activeDeploymentExists p.modelName existing.id)
  | none => insertDeployment env p (newDeployment env p idempotencyKey)

/-- `if idempotency_key:` -- an absent key and an empty one both skip the lookup. -/
def lookupKey : Option String → Option String
  | some key => if key = "" then none else some key
  | none => none

def createDeployment (env : Env) (p : CreateDeploymentRequest) (idempotencyKey : Option String) :
    Service Plan :=
  match lookupKey idempotencyKey with
  | none => createFresh env p idempotencyKey
  | some key => do
      match ← select (.findByIdempotencyKey key) with
      | some existing => pure (none, ⟨existing, false, none⟩)
      | none => createFresh env p idempotencyKey

/-- How a rollout ends: by promote or by rollback. -/
structure Resolution where
  verb : String
  via : DeploymentStatus
  settled : DeploymentStatus
  version : (stableVersion canaryVersion : String) → String
  closing : String → String

/-- The common body of `promote_deployment` and `rollback_deployment`. -/
def resolveDeployment (r : Resolution) (s : Session) (triggeredBy : TriggeredBy) : Service Plan := do
  let by_ := triggeredBy.value
  let verb := r.verb
  let s := s.touch
  let s ← s.evaluate s!"auto-advancing before {by_} {verb}"
  let s ← s.transition r.via s!"{by_} {verb} requested"
  let targets : List TargetWeight := [⟨r.version s.deployment.stableVersion s.deployment.canaryVersion, 1⟩]
  let (revision, s) ← s.setTrafficAllocation targets
  let s ← s.transition r.settled (r.closing by_)
  let s := { s with deployment := { s.deployment with completedAt := some s.clock.second } }
  s.commit (some (s.pushOf revision targets))

def promotion : Resolution where
  verb := "promote"
  via := .promoting
  settled := .promoted
  version := fun _ canaryVersion => canaryVersion
  closing := fun by_ => s!"canary promoted to 100% traffic ({by_})"

def rollback : Resolution where
  verb := "rollback"
  via := .rollingBack
  settled := .rolledBack
  version := fun stableVersion _ => stableVersion
  closing := fun by_ => s!"traffic rolled back to stable ({by_})"

def promoteDeployment (s : Session) (triggeredBy : TriggeredBy) : Service Plan :=
  resolveDeployment promotion s triggeredBy

def rollbackDeployment (s : Session) (triggeredBy : TriggeredBy) : Service Plan :=
  resolveDeployment rollback s triggeredBy

/-- `_current_canary_weight`. -/
def currentCanaryWeight (d : Deployment) (allocation : Option TrafficAllocation) : ℚ :=
  match allocation with
  | none => 0
  | some a =>
      match a.targets.find? fun t => decide (t.version = d.canaryVersion) with
      | some t => t.weight
      | none => 0

/-- The smallest stage strictly above the current weight. -/
def nextStage (current : ℚ) : Option ℚ :=
  TRAFFIC_STAGES.find? fun w => decide (current + 1 / 10 ^ 9 < w)

/-- `require_active`. -/
def requireActive (d : Deployment) : Service Unit :=
  if d.status.active then pure () else .fail (.deploymentNotActive d.id d.status)

/-- `require_not_terminal`. -/
def requireNotTerminal (d : Deployment) : Service Unit :=
  if d.status.terminal then .fail (.deploymentTerminal d.id d.status) else pure ()

def advanceTraffic (s : Session) : Service Plan := do
  requireActive s.deployment
  let s := s.touch
  let (allocation, s) ← s.trafficAllocation
  let currentWeight := currentCanaryWeight s.deployment allocation
  match nextStage currentWeight with
  | none => .fail (.alreadyAtFinalStage s.deployment.id)
  | some nextWeight =>
      let targets := canarySplit s.deployment.stableVersion s.deployment.canaryVersion nextWeight
      let (revision, s) ← s.setTrafficAllocation targets
      let s := s.logEvent (.trafficAdvanced currentWeight nextWeight)
      s.commit (some (s.pushOf revision targets))

def recordInconclusive (s : Session) (maxRetries : Nat) : Service Plan := do
  requireActive s.deployment
  let s := s.touch
  let attempt := s.deployment.inconclusiveRetryCount + 1
  let s := { s with deployment := { s.deployment with inconclusiveRetryCount := attempt } }
  let s := s.logEvent (.inconclusiveCycle attempt maxRetries)
  if maxRetries < attempt then do
    let s ← s.evaluate "auto-advancing before freezing on max inconclusive retries"
    let s ← s.transition .inconclusive
      s!"auto: exceeded max inconclusive retries ({maxRetries}), freezing for manual review"
    let s := { s with deployment := { s.deployment with completedAt := some s.clock.second } }
    s.commit
  else s.commit

/-- The common body of `pause_automation` and `resume_automation`: silent where the flag already
    has the value asked for. -/
def setAutomation (paused : Bool) (event : EventBody) (s : Session) : Service Plan := do
  requireNotTerminal s.deployment
  if s.deployment.automationPaused = paused then
    pure (none, ⟨s.deployment, false, none⟩)
  else
    let s := s.touch
    let s := { s with deployment := { s.deployment with automationPaused := paused } }
    (s.logEvent event).commit

def pauseAutomation (s : Session) (triggeredBy : TriggeredBy) : Service Plan :=
  setAutomation true (.automationPaused triggeredBy) s

def resumeAutomation (s : Session) (triggeredBy : TriggeredBy) : Service Plan :=
  setAutomation false (.automationResumed triggeredBy) s

/-! ## 6. Requests -/

/-- `get_deployment`: the row, at the head of a session. -/
def getDeployment (env : Env) (id : String) : Service Session := do
  match ← select (.deployment id) with
  | some d => pure { clock := env.clock, deployment := d }
  | none => .fail (.deploymentNotFound id)

/-- `get_policy_config`. -/
def getPolicyConfig (env : Env) (d : Deployment) : PolicyConfig :=
  d.policyConfig.getD env.policyDefaults

/-- The lifecycle requests of the API. -/
inductive Request where
  | create (p : CreateDeploymentRequest) (idempotencyKey : Option String)
  | promote (id : String) (triggeredBy : TriggeredBy)
  | rollback (id : String) (triggeredBy : TriggeredBy)
  | advanceTraffic (id : String)
  | recordInconclusive (id : String)
  | pauseAutomation (id : String) (triggeredBy : TriggeredBy)
  | resumeAutomation (id : String) (triggeredBy : TriggeredBy)

/-- The endpoint of the request. -/
def Request.program (env : Env) : Request → Service Plan
  | .create p key => createDeployment env p key
  | .promote id by_ => do promoteDeployment (← getDeployment env id) by_
  | .rollback id by_ => do rollbackDeployment (← getDeployment env id) by_
  | .advanceTraffic id => do ModelOps.advanceTraffic (← getDeployment env id)
  | .recordInconclusive id => do
      let s ← getDeployment env id
      ModelOps.recordInconclusive s (getPolicyConfig env s.deployment).maxInconclusiveRetries
  | .pauseAutomation id by_ => do ModelOps.pauseAutomation (← getDeployment env id) by_
  | .resumeAutomation id by_ => do ModelOps.resumeAutomation (← getDeployment env id) by_

/-- The error a refused commit surfaces as. -/
def FlushError.surface (deploymentId : String) : FlushError → ServiceError
  | .staleData => .concurrentUpdate deploymentId
  | .integrity => .integrityError

/-- The request run alone: its reply or error, and the tables after it. -/
def Request.exec (env : Env) (req : Request) (db : Db) : Except ServiceError Reply × Db :=
  match Transact.run database db (req.program env) with
  | (.replied reply, db') => (.ok reply, db')
  | (.failed e, db') => (.error e, db')
  | (.refused reply why, db') => (.error (why.surface reply.deployment.id), db')

/-! ## 7. A sample rollout -/

/-- Two clock readings after `n`, and all defaults. -/
def Env.after (n : Time) (id : String) : Env where
  clock := ⟨n + 1, n + 2, []⟩
  newId := id
  named := .primaryKey
  policyDefaults := {}

/-- One inconclusive cycle is tolerated. -/
def samplePolicy : PolicyConfig := { maxInconclusiveRetries := 1 }

def sampleCreate (modelName : String) : CreateDeploymentRequest where
  modelName := modelName
  stableVersion := "v1"
  canaryVersion := "v2"
  weight_nonneg := by decide +kernel
  weight_le_one := by decide +kernel
  versions_ne := by decide
  weight_proper := by decide +kernel

end ModelOps
