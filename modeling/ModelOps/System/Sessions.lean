/-
  File:      ModelOps/System/Sessions.lean
  Subject:   The lifecycle endpoints statement by statement (app/control_plane/service.py and
             app/control_plane/api.py): where each stages its changes, flushes, commits, rolls back and
             pushes.

  ModelOps/ControlPlane/Service.lean has the commit of an operation at its end and the push in its reply.
  Here they stand where the code has them, so that what a failing request has already written or sent
  is a matter of its own code. A request is one session (`get_db`); its end closes it.

  * `commitLocked` (`_commit`), `refresh`, `recordReachability`, `pushBestEffort` -- the statements
    around a commit;
  * `createDeployment` .. `resumeAutomation` -- the operations; `serve` -- the endpoints;
  * **`serve_exec`**, `serve_alone` -- alone, an endpoint does what the request does, then records what
    the router answered to its push, and has sent that push only;
  * `cares_serve` -- nothing fails after a commit or a push;
  * **`failed_request_inert`** -- a request that ends in an error wrote nothing and sent nothing.
-/
import ModelOps.Lib.UnitOfWork
import ModelOps.System.History

namespace ModelOps

open Relational UnitOfWork

/-! ## 1. Statements -/

/-- A SELECT of an endpoint. -/
inductive Select where
  | row (q : Query)
  /-- the deployment's newest event about the router's reachability -/
  | lastReachability (deploymentId : String)

abbrev Select.Answer : Select → Type
  | .row q => q.Answer
  | .lastReachability _ => Option DeploymentEvent

/-- What a session can have staged. -/
inductive Work where
  | session (s : Session)
  /-- new events, and nothing else -/
  | events (events : List DeploymentEvent)

abbrev statements : Transact.Interface where
  Query := Select
  Answer := Select.Answer
  Row := Insertion
  Verdict := Option UniqueConstraint
  Change := Work
  Refusal := FlushError

def Tables.look (t : Tables) : (q : Select) → q.Answer
  | .row q => t.db.answer q
  | .lastReachability id => latestBy DeploymentEvent.createdAt
      (fun e => decide (e.deploymentId = id) && e.body.reachability) t.db.deploymentEvents

/-- `db.commit()` of what is staged. -/
def Tables.commit (t : Tables) : Work → Except FlushError Tables
  | .session s => (t.db.flush s).map fun db => { t with db := db }
  | .events events => .ok { t with db := t.db.noted events }

/-- All tables, as a session sees them. -/
def sessionTables : Transact.Store statements Tables where
  answer := Tables.look
  probe t := t.db.probe
  granted := fun v => v.isNone
  clash := Insertion.clash
  clash_symm := Insertion.clash_symm
  commit := Tables.commit

/-- Events alone are never refused. -/
def Work.Sure : Work → Prop
  | .session _ => False
  | .events _ => True

theorem sure_commit (t : Tables) (w : Work) (h : w.Sure) : ∃ t', sessionTables.commit t w = .ok t' := by
  cases w with
  | session s => exact h.elim
  | events es => exact ⟨_, rfl⟩

/-- What leaves an endpoint. -/
inductive Fault where
  | service (e : ServiceError)
  /-- a StaleDataError nobody catches, or any refusal of the commit of an event -/
  | uncaught (why : FlushError)
  /-- `db.refresh` of a row that is gone -/
  | gone
  deriving DecidableEq

/-- An error of the service, or a refused commit. -/
def Fault.Declared (e : Fault) : Prop := e ≠ .gone

abbrev Handler (α : Type) := Script statements Push (Except PushError Unit) Fault α

/-- A request's session: the clock of the operation, and the reading for the event after its push. -/
structure Serving where
  env : Env
  pushedAt : Time

namespace Handler

/-- The helpers of the service read and raise as they do there. -/
def lift {α : Type} : Service α → Handler α
  | .done a => .done a
  | .fail e => .raise (.service e)
  | .read q k => .read (.row q) fun a => lift (k a)
  | .reserve r k => .flush r fun v => lift (k v)

/-- A helper that changes rows: the unit of work is what it made of them. -/
def keep (x : Service Session) : Handler Session :=
  lift x >>= fun s => .stage (.session s) (.done s)

/-- `raise`. -/
def fail {α : Type} (e : ServiceError) : Handler α := .raise (.service e)

/-- `db.commit()`, its exceptions left to the caller. -/
def dbCommit : Handler Unit :=
  .commit fun
    | none => .done ()
    | some .staleData => .raise (.uncaught .staleData)
    | some .integrity => fail .integrityError

/-- `_commit`. -/
def commitLocked (deploymentId : String) : Handler Unit :=
  .commit fun
    | none => .done ()
    | some .staleData => .rollback (fail (.concurrentUpdate deploymentId))
    | some .integrity => fail .integrityError

/-- `db.refresh(deployment)`. -/
def refresh (deploymentId : String) : Handler Deployment :=
  .read (.row (.deployment deploymentId)) fun
    | some d => .done d
    | none => .raise .gone

/-- `record_router_reachability_change`, with a commit of its own. -/
def recordReachability (now : Time) (deploymentId : String) (reachable : Bool) : Handler Unit :=
  .read (.lastReachability deploymentId) fun last =>
    let wasUnreachable := last.any fun e => decide (e.body = .routerUnreachable)
    if reachable ≠ wasUnreachable then .done ()
    else .stage (.events [⟨deploymentId, reachabilityBody reachable, now⟩]) dbCommit

/-- `_push_best_effort`. -/
def pushBestEffort (now : Time) (p : Push) : Handler Unit :=
  .send p fun
    | .ok () => recordReachability now p.deploymentId true
    | .error .staleRevision => recordReachability now p.deploymentId true
    | .error .routerUpdate => recordReachability now p.deploymentId false

/-! ## 2. The operations -/

/-- `create_deployment` after its INSERT went through; its commit is a plain one. -/
def startRollout (r : Serving) (p : CreateDeploymentRequest) (d : Deployment) :
    Handler (Deployment × Bool) := do
  let s : Session := { clock := r.env.clock, deployment := d, inserted := true }
  let s ← keep (pure (s.logEvent (.created p.modelName p.stableVersion p.canaryVersion)))
  let s ← keep (pure (if p.automationPaused then s.logEvent .pausedAtCreation else s))
  let targets := canarySplit p.stableVersion p.canaryVersion p.canaryWeight
  let s ← keep (s.transition .deploying "starting canary rollout")
  let s ← keep (pure { s with deployment := { s.deployment with startedAt := some r.env.clock.second } })
  let (revision, s) ← lift (s.setTrafficAllocation targets)
  let s ← keep (s.transition .canaryRunning "canary receiving traffic")
  dbCommit
  let d ← refresh s.deployment.id
  pushBestEffort r.pushedAt ⟨p.modelName, d.id, revision, targets⟩
  pure (d, true)

/-- `db.add`, `db.flush()` and its IntegrityError. -/
def insertDeployment (r : Serving) (p : CreateDeploymentRequest) (d : Deployment) :
    Handler (Deployment × Bool) := do
  let _ ← keep (pure { clock := r.env.clock, deployment := d, inserted := true })
  .flush ⟨d, r.env.named⟩ fun
    | none => startRollout r p d
    | some constraint => .rollback <|
        -- another constraint, with another meaning: raised again
        if constraint = .idempotencyKey then fail .integrityError
        else do
          let winner ← lift (select (.activeDeployment p.modelName))
          fail (.activeDeploymentExists p.modelName
            ((winner.map Deployment.id).getD "<unknown - lost the race>"))

def createFresh (r : Serving) (p : CreateDeploymentRequest) (idempotencyKey : Option String) :
    Handler (Deployment × Bool) := do
  match ← lift (select (.activeDeployment p.modelName)) with
  | some existing => fail (.activeDeploymentExists p.modelName existing.id)
  | none => insertDeployment r p (newDeployment r.env p idempotencyKey)

def createDeployment (r : Serving) (p : CreateDeploymentRequest) (idempotencyKey : Option String) :
    Handler (Deployment × Bool) :=
  match lookupKey idempotencyKey with
  | none => createFresh r p idempotencyKey
  | some key => do
      match ← lift (select (.findByIdempotencyKey key)) with
      | some existing => pure (existing, false)
      | none => createFresh r p idempotencyKey

/-- The common body of `promote_deployment` and `rollback_deployment`. -/
def resolveDeployment (r : Resolution) (pushedAt : Time) (s : Session) (triggeredBy : TriggeredBy) :
    Handler Deployment := do
  let by_ := triggeredBy.value
  let verb := r.verb
  let s ← keep (pure s.touch)
  let s ← keep (s.evaluate s!"auto-advancing before {by_} {verb}")
  let s ← keep (s.transition r.via s!"{by_} {verb} requested")
  let targets : List TargetWeight := [⟨r.version s.deployment.stableVersion s.deployment.canaryVersion, 1⟩]
  let (revision, s) ← lift (s.setTrafficAllocation targets)
  let s ← keep (s.transition r.settled (r.closing by_))
  let s ← keep (pure { s with deployment := { s.deployment with completedAt := some s.clock.second } })
  commitLocked s.deployment.id
  let d ← refresh s.deployment.id
  pushBestEffort pushedAt ⟨d.modelName, d.id, revision, targets⟩
  pure d

def promoteDeployment (pushedAt : Time) (s : Session) (triggeredBy : TriggeredBy) : Handler Deployment :=
  resolveDeployment promotion pushedAt s triggeredBy

def rollbackDeployment (pushedAt : Time) (s : Session) (triggeredBy : TriggeredBy) :
    Handler Deployment :=
  resolveDeployment rollback pushedAt s triggeredBy

def advanceTraffic (pushedAt : Time) (s : Session) : Handler Deployment := do
  lift (requireActive s.deployment)
  let s ← keep (pure s.touch)
  let (allocation, s) ← lift s.trafficAllocation
  let currentWeight := currentCanaryWeight s.deployment allocation
  match nextStage currentWeight with
  | none => fail (.alreadyAtFinalStage s.deployment.id)
  | some nextWeight => do
      let targets := canarySplit s.deployment.stableVersion s.deployment.canaryVersion nextWeight
      let (revision, s) ← lift (s.setTrafficAllocation targets)
      let s ← keep (pure (s.logEvent (.trafficAdvanced currentWeight nextWeight)))
      commitLocked s.deployment.id
      let d ← refresh s.deployment.id
      pushBestEffort pushedAt ⟨d.modelName, d.id, revision, targets⟩
      pure d

def recordInconclusive (s : Session) (maxRetries : Nat) : Handler Deployment := do
  lift (requireActive s.deployment)
  let s ← keep (pure s.touch)
  let attempt := s.deployment.inconclusiveRetryCount + 1
  let s ← keep (pure { s with deployment := { s.deployment with inconclusiveRetryCount := attempt } })
  let s ← keep (pure (s.logEvent (.inconclusiveCycle attempt maxRetries)))
  let s ← if maxRetries < attempt then do
      let s ← keep (s.evaluate "auto-advancing before freezing on max inconclusive retries")
      let s ← keep (s.transition .inconclusive
        s!"auto: exceeded max inconclusive retries ({maxRetries}), freezing for manual review")
      keep (pure { s with deployment := { s.deployment with completedAt := some s.clock.second } })
    else pure s
  commitLocked s.deployment.id
  refresh s.deployment.id

/-- The common body of `pause_automation` and `resume_automation`. -/
def setAutomation (paused : Bool) (event : EventBody) (s : Session) : Handler Deployment := do
  lift (requireNotTerminal s.deployment)
  if s.deployment.automationPaused = paused then pure s.deployment
  else
    let s ← keep (pure s.touch)
    let s ← keep (pure { s with deployment := { s.deployment with automationPaused := paused } })
    let s ← keep (pure (s.logEvent event))
    commitLocked s.deployment.id
    refresh s.deployment.id

/-! ## 3. Endpoints -/

/-- An endpoint that works on an existing row: 404, or the operation. -/
def onDeployment (r : Serving) (id : String) (f : Session → Handler Deployment) :
    Handler (Deployment × Bool) := do
  let s ← lift (getDeployment r.env id)
  let d ← f s
  pure (d, false)

/-- The endpoint of a request: the deployment it answers with, and whether it was created. -/
def serve (r : Serving) : Request → Handler (Deployment × Bool)
  | .create p key => createDeployment r p key
  | .promote id by_ => onDeployment r id fun s => promoteDeployment r.pushedAt s by_
  | .rollback id by_ => onDeployment r id fun s => rollbackDeployment r.pushedAt s by_
  | .advanceTraffic id => onDeployment r id fun s => advanceTraffic r.pushedAt s
  | .recordInconclusive id => onDeployment r id fun s =>
      recordInconclusive s (getPolicyConfig r.env s.deployment).maxInconclusiveRetries
  | .pauseAutomation id by_ => onDeployment r id (setAutomation true (.automationPaused by_))
  | .resumeAutomation id by_ => onDeployment r id (setAutomation false (.automationResumed by_))

/-! ## 4. What has committed does not fail -/

section Care

variable {α β : Type} {w : Option Work}

/-- Nothing fails any more; what is staged is `w`. -/
abbrev Settles (w : Option Work) (x : Handler α) : Prop := Settled Fault.Declared Work.Sure w x

/-- What has committed or sent something settles. -/
abbrev Cares (w : Option Work) (x : Handler α) : Prop := Careful Fault.Declared Work.Sure w x

theorem silent_lift (x : Service α) : Silent (lift x) := by
  induction x with
  | done a => trivial
  | fail e => trivial
  | read q k ih => exact ih
  | reserve r k ih => exact ih

theorem cares_lift (x : Service α) {f : α → Handler β} (hf : ∀ w a, Cares w (f a)) :
    Cares w (lift x >>= f) :=
  (silent_lift x).careful hf

theorem cares_keep (x : Service Session) {f : Session → Handler β} (hf : ∀ w s, Cares w (f s)) :
    Cares w (keep x >>= f) := by
  unfold keep
  rw [Script.bind_assoc]
  exact cares_lift x fun w s => hf _ s

theorem settles_refresh (id : String) : Settles w (refresh id) := by
  intro d
  cases d with
  | none => exact fun h => h rfl
  | some d => trivial

theorem settles_record (now : Time) (id : String) (reachable : Bool) :
    Settles w (recordReachability now id reachable) := by
  intro last
  dsimp only
  split
  · trivial
  · exact ⟨trivial, Or.inl ⟨_, rfl, trivial⟩⟩

theorem settles_push (now : Time) (p : Push) : Settles w (pushBestEffort now p) := by
  intro answer
  rcases answer with e | ok
  · cases e with
    | staleRevision => exact settles_record now p.deploymentId true
    | routerUpdate => exact settles_record now p.deploymentId false
  · exact settles_record now p.deploymentId true

/-- What follows a commit that publishes a split. -/
theorem settles_published (id : String) (now : Time) (p : Deployment → Push) (x : Deployment → α) :
    Settles w (refresh id >>= fun d => pushBestEffort now (p d) >>= fun _ => (pure (x d) : Handler α)) :=
  (settles_refresh id).bind fun _ d => (settles_push now (p d)).bind fun _ _ => trivial

theorem cares_commitLocked (id : String) {f : Unit → Handler β} (hf : Settles none (f ())) :
    Cares w (commitLocked id >>= f) := by
  refine ⟨hf, ?_⟩
  intro why
  cases why <;> trivial

theorem cares_dbCommit {f : Unit → Handler β} (hf : Settles none (f ())) :
    Cares w (dbCommit >>= f) := by
  refine ⟨hf, ?_⟩
  intro why
  cases why <;> trivial

theorem cares_startRollout (r : Serving) (p : CreateDeploymentRequest) (d : Deployment) :
    Cares w (startRollout r p d) := by
  unfold startRollout
  refine cares_keep _ fun w s => cares_keep _ fun w s => cares_keep _ fun w s => ?_
  refine cares_keep _ fun w s => cares_lift _ fun w x => cares_keep _ fun w s => ?_
  exact cares_dbCommit (settles_published _ _ _ _)

theorem cares_create (r : Serving) (p : CreateDeploymentRequest) (key : Option String) :
    Cares w (createDeployment r p key) := by
  have hinsert : ∀ w d, Cares w (insertDeployment r p d) := by
    intro w d
    refine cares_keep _ fun w s => ?_
    intro verdict
    cases verdict with
    | none => exact cares_startRollout r p d
    | some c =>
        show Cares none (if c = .idempotencyKey then _ else _)
        split
        · trivial
        · exact cares_lift _ fun w winner => trivial
  have hfresh : ∀ w, Cares w (createFresh r p key) := by
    intro w
    refine cares_lift _ fun w active => ?_
    cases active with
    | none => exact hinsert w _
    | some existing => trivial
  unfold createDeployment
  split
  · exact hfresh w
  · refine cares_lift _ fun w existing => ?_
    cases existing with
    | none => exact hfresh w
    | some existing => trivial

theorem cares_resolve (r : Resolution) (now : Time) (s : Session) (by_ : TriggeredBy) :
    Cares w (resolveDeployment r now s by_) := by
  refine cares_keep _ fun w s => cares_keep _ fun w s => cares_keep _ fun w s => ?_
  refine cares_lift _ fun w x => cares_keep _ fun w s => cares_keep _ fun w s => ?_
  exact cares_commitLocked _ (settles_published _ _ _ _)

theorem cares_advance (now : Time) (s : Session) : Cares w (advanceTraffic now s) := by
  refine cares_lift _ fun w _ => cares_keep _ fun w s => cares_lift _ fun w x => ?_
  dsimp only
  split
  · trivial
  · refine cares_lift _ fun w y => cares_keep _ fun w s => ?_
    exact cares_commitLocked _ (settles_published _ _ _ _)

theorem cares_recordInconclusive (s : Session) (maxRetries : Nat) :
    Cares w (recordInconclusive s maxRetries) := by
  have hcommit : ∀ w (s : Session),
      Cares w (commitLocked s.deployment.id >>= fun _ => refresh s.deployment.id) :=
    fun w s => cares_commitLocked _ (settles_refresh _)
  refine cares_lift _ fun w _ => cares_keep _ fun w s1 => cares_keep _ fun w s2 => ?_
  refine cares_keep _ fun w s3 => ?_
  dsimp only
  split
  · exact cares_keep _ fun w s => cares_keep _ fun w s => cares_keep _ hcommit
  · exact hcommit w s3

theorem cares_setAutomation (paused : Bool) (event : EventBody) (s : Session) :
    Cares w (setAutomation paused event s) := by
  refine cares_lift _ fun w _ => ?_
  split
  · trivial
  · refine cares_keep _ fun w s => cares_keep _ fun w s => cares_keep _ fun w s => ?_
    exact cares_commitLocked _ (settles_refresh _)

/-- **No endpoint fails once it has committed or pushed**: every statement that can stands before. -/
theorem cares_serve (r : Serving) (req : Request) : Cares w (serve r req) := by
  have hon : ∀ id (f : Session → Handler Deployment), (∀ w s, Cares w (f s)) →
      Cares w (onDeployment r id f) :=
    fun id f hf => cares_lift _ fun w s => (hf w s).bind (fun _ _ => trivial) fun _ _ => trivial
  cases req with
  | create p key => exact cares_create r p key
  | promote id by_ => exact hon id _ fun w s => cares_resolve promotion r.pushedAt s by_
  | rollback id by_ => exact hon id _ fun w s => cares_resolve rollback r.pushedAt s by_
  | advanceTraffic id => exact hon id _ fun w s => cares_advance r.pushedAt s
  | recordInconclusive id => exact hon id _ fun w s => cares_recordInconclusive s _
  | pauseAutomation id by_ => exact hon id _ fun w s => cares_setAutomation true _ s
  | resumeAutomation id by_ => exact hon id _ fun w s => cares_setAutomation false _ s

end Care

/-! ## 5. An endpoint alone -/

/-- What a request that ran alone leaves, once the router answered its push. -/
def surfaced (now : Time) (answer : Except PushError Unit) (t : Tables) :
    Except ServiceError Reply × Db → Alone Push Fault Tables (Deployment × Bool)
  | (.ok reply, db) =>
      { ending := .ok (reply.deployment, reply.created)
        store := { t with db := reply.push.elim db fun p => recordPushed now db p.deploymentId answer }
        sent := reply.push.toList }
  | (.error e, db) => ⟨.error (.raised (.service e)), { t with db := db }, []⟩

/-- What a session's end surfaces as. -/
def finished (x : Transact.Outcome sql ServiceError Reply × Db) : Except ServiceError Reply × Db :=
  (answered x.1, x.2)

theorem exec_finished (env : Env) (req : Request) (db : Db) :
    req.exec env db = finished (Transact.run database db (req.program env)) := by
  unfold Request.exec finished
  split <;> (rename_i h; rw [h]; rfl)

section Alone

variable {now : Time} {answer : Except PushError Unit} {t : Tables} {row : Option Insertion}
  {staged : Option Work} {α β : Type}

/-- The statements of `x` come to what the program does. -/
def Serves (now : Time) (answer : Except PushError Unit) (t : Tables) (row : Option Insertion)
    (staged : Option Work) (x : Handler (Deployment × Bool)) (program : Service Plan) : Prop :=
  x.exec sessionTables answer ⟨row, staged, false⟩ t =
    surfaced now answer t (finished (Transact.run database t.db program))

theorem serves_fail (e : ServiceError) : Serves now answer t row staged (fail e) (.fail e) := rfl

/-- **What a helper reads, both read.** -/
theorem serves_lift {Q : Query → Prop} {F : α → Prop} {y : Service α} (hy : Transact.Only Q F y)
    {f : α → Handler (Deployment × Bool)} {g : α → Service Plan}
    (h : ∀ a, F a → Serves now answer t row staged (f a) (g a)) :
    Serves now answer t row staged (lift y >>= f) (y >>= g) := by
  induction y with
  | done a => exact h a hy
  | fail e => rfl
  | read q k ih => exact (exec_read rfl _ _).trans (ih (t.db.answer q) (hy.2 _))
  | reserve r k _ => exact hy.elim

theorem serves_keep {Q : Query → Prop} {F : Session → Prop} {y : Service Session}
    (hy : Transact.Only Q F y) {f : Session → Handler (Deployment × Bool)} {g : Session → Service Plan}
    (h : ∀ s, F s → Serves now answer t row (some (.session s)) (f s) (g s)) :
    Serves now answer t row staged (keep y >>= f) (y >>= g) := by
  unfold keep
  rw [Script.bind_assoc]
  exact serves_lift hy h

/-- What is staged without a read is staged alone. -/
theorem serves_stage {s : Session} {f : Session → Handler (Deployment × Bool)} {program : Service Plan}
    (h : Serves now answer t row (some (.session s)) (f s) program) :
    Serves now answer t row staged (keep (pure s) >>= f) program := h

theorem exec_refresh {id : String} {d : Deployment} (h : t.db.deployment? id = some d)
    (f : Deployment → Handler α) :
    (refresh id >>= f).exec sessionTables answer {} t = (f d).exec sessionTables answer {} t := by
  have hread : sessionTables.answer t (.row (.deployment id)) = some d := h
  refine (exec_read rfl _ _).trans ?_
  rw [hread]
  rfl

/-- The event after a push, and its commit. -/
theorem exec_record (id : String) (reachable : Bool) (f : Unit → Handler α) :
    (recordReachability now id reachable >>= f).exec sessionTables answer {} t =
      (f ()).exec sessionTables answer {}
        { t with db := recordRouterReachabilityChange now t.db id reachable } := by
  have hlast : (sessionTables.answer t (.lastReachability id)).any
      (fun e => decide (e.body = .routerUnreachable)) = t.db.wasUnreachable id := rfl
  refine (exec_read rfl _ _).trans ?_
  unfold recordRouterReachabilityChange
  dsimp only
  rw [hlast]
  by_cases h : reachable ≠ t.db.wasUnreachable id
  · rw [if_pos h, if_pos h]
    rfl
  · rw [if_neg h, if_neg h]
    exact exec_commit_ok rfl rfl rfl _

theorem exec_push (p : Push) (f : Unit → Handler α) :
    (pushBestEffort now p >>= f).exec sessionTables answer {} t =
      ((f ()).exec sessionTables answer {}
        { t with db := recordPushed now t.db p.deploymentId answer }).sends p := by
  show (Script.exec sessionTables answer _ {} t).sends p = _
  rcases answer with e | ok
  · cases e with
    | staleRevision => exact congrArg (Alone.sends p) (exec_record _ _ f)
    | routerUpdate => exact congrArg (Alone.sends p) (exec_record _ _ f)
  · exact congrArg (Alone.sends p) (exec_record _ _ f)

/-- A flushed row is there, one version up. -/
theorem flush_row {db db' : Db} {s : Session} (h : db.flush s = .ok db') :
    db'.deployment? s.deployment.id = some s.row := by
  unfold Db.flush at h
  split at h
  · cases h
  · split at h
    · cases h
    · cases h
      exact Table.get?_put_self _ _

/-- What follows a commit that publishes a split. -/
theorem exec_published {s : Session} {db : Db} (h : t.db.flush s = .ok db) (p : Deployment → Push)
    (x : Deployment → Deployment × Bool) :
    (refresh s.deployment.id >>= fun d => pushBestEffort now (p d) >>= fun _ =>
        (pure (x d) : Handler _)).exec sessionTables answer {} { t with db := db } =
      ⟨.ok (x s.row), { t with db := recordPushed now db (p s.row).deploymentId answer }, [p s.row]⟩ :=
  (exec_refresh (flush_row h) _).trans (exec_push _ _)

section Committing

variable {s : Session} {f : Unit → Handler (Deployment × Bool)} {push : Option Push} {created : Bool}

theorem sessionTables_commit {flushed : Except FlushError Db} (h : t.db.flush s = flushed) :
    sessionTables.commit t (.session s) = flushed.map fun db => { t with db := db } := by
  rw [← h]
  rfl

theorem finished_commit {db : Db} (h : t.db.flush s = .ok db) :
    finished (Transact.run database t.db (s.commit push created)) =
      (.ok ⟨s.row, created, push⟩, db) := by
  rw [Transact.run_commit rfl h]
  rfl

theorem finished_refuse {why : FlushError} (h : t.db.flush s = .error why) :
    finished (Transact.run database t.db (s.commit push created)) =
      (.error (why.surface s.deployment.id), t.db) := by
  have hrun : Transact.run database t.db (s.commit push created) =
      (.refused ⟨s.row, created, push⟩ why, t.db) := by
    unfold Transact.run Session.commit
    simp only [Transact.Txn.pure_eq, Transact.Txn.eval_done]
    rw [show database.commit t.db s = .error why from h]
  rw [hrun]
  rfl

/-- **`_commit`**: what a refusal surfaces as is the same. -/
theorem serves_commitLocked
    (h : ∀ db, t.db.flush s = .ok db → (f ()).exec sessionTables answer {} { t with db := db } =
      surfaced now answer t (.ok ⟨s.row, created, push⟩, db)) :
    Serves now answer t row (some (.session s)) (commitLocked s.deployment.id >>= f)
      (s.commit push created) := by
  unfold Serves
  cases hf : t.db.flush s with
  | ok db =>
      rw [finished_commit hf]
      exact (exec_commit_ok rfl rfl (sessionTables_commit hf) _).trans (h db hf)
  | error why =>
      rw [finished_refuse hf]
      refine (exec_commit_error rfl rfl (sessionTables_commit hf) _).trans ?_
      cases why <;> rfl

/-- **The plain commit of a new row**: it meets no other version of it. -/
theorem serves_dbCommit (hinserted : s.inserted = true)
    (h : ∀ db, t.db.flush s = .ok db → (f ()).exec sessionTables answer {} { t with db := db } =
      surfaced now answer t (.ok ⟨s.row, created, push⟩, db)) :
    Serves now answer t row (some (.session s)) (dbCommit >>= f) (s.commit push created) := by
  unfold Serves
  cases hf : t.db.flush s with
  | ok db =>
      rw [finished_commit hf]
      exact (exec_commit_ok rfl rfl (sessionTables_commit hf) _).trans (h db hf)
  | error why =>
      rw [finished_refuse hf]
      refine (exec_commit_error rfl rfl (sessionTables_commit hf) _).trans ?_
      have hwhy : why = .integrity := by
        unfold Db.flush Session.stale at hf
        rw [hinserted] at hf
        simp only [Bool.not_true, Bool.false_and, Bool.false_eq_true, if_false] at hf
        split at hf
        · cases hf
          rfl
        · cases hf
      rw [hwhy]
      rfl

end Committing

theorem works_self (s : Session) : Works s.deployment s.inserted s := ⟨rfl, rfl, rfl, rfl⟩

theorem serves_resolve (r : Resolution) (s : Session) (by_ : TriggeredBy) :
    Serves now answer t row staged (resolveDeployment r now s by_ >>= fun d => pure (d, false))
      (ModelOps.resolveDeployment r s by_) := by
  unfold resolveDeployment ModelOps.resolveDeployment
  simp only [Script.bind_assoc]
  refine serves_stage ?_
  refine serves_keep ((works_self _).only_evaluate _) fun s1 _ => ?_
  refine serves_keep ((works_self _).only_transition _ _) fun s2 _ => ?_
  refine serves_lift ((works_self _).only_setTrafficAllocation _) fun x _ => ?_
  refine serves_keep ((works_self _).only_transition _ _) fun s3 _ => ?_
  refine serves_stage (serves_commitLocked fun db hdb => ?_)
  exact exec_published hdb _ _

theorem serves_advance (s : Session) :
    Serves now answer t row staged (advanceTraffic now s >>= fun d => pure (d, false))
      (ModelOps.advanceTraffic s) := by
  unfold advanceTraffic ModelOps.advanceTraffic
  simp only [Script.bind_assoc]
  refine serves_lift (only_requireActive (d := s.deployment) _) fun _ _ => ?_
  refine serves_stage ?_
  refine serves_lift (works_self _).only_trafficAllocation fun x _ => ?_
  cases nextStage (currentCanaryWeight x.2.deployment x.1) with
  | none => exact serves_fail _
  | some nextWeight =>
      simp only [Script.bind_assoc]
      refine serves_lift ((works_self _).only_setTrafficAllocation _) fun y _ => ?_
      refine serves_stage (serves_commitLocked fun db hdb => ?_)
      exact exec_published hdb _ _

/-- What follows a commit that publishes nothing. -/
theorem exec_unpublished {s : Session} {db : Db} (h : t.db.flush s = .ok db) :
    (refresh s.deployment.id >>= fun d => (pure (d, false) : Handler _)).exec sessionTables answer {}
        { t with db := db } = ⟨.ok (s.row, false), { t with db := db }, []⟩ :=
  exec_refresh (flush_row h) _

theorem serves_recordInconclusive (s : Session) (maxRetries : Nat) :
    Serves now answer t row staged (recordInconclusive s maxRetries >>= fun d => pure (d, false))
      (ModelOps.recordInconclusive s maxRetries) := by
  have hcommit : ∀ s : Session, Serves now answer t row (some (.session s))
      (commitLocked s.deployment.id >>= fun _ => refresh s.deployment.id >>= fun d => pure (d, false))
      s.commit := fun s => serves_commitLocked fun db hdb => exec_unpublished hdb
  unfold recordInconclusive ModelOps.recordInconclusive
  simp only [Script.bind_assoc]
  refine serves_lift (only_requireActive (d := s.deployment) _) fun _ _ => ?_
  refine serves_stage (serves_stage (serves_stage ?_))
  split
  · simp only [Script.bind_assoc]
    refine serves_keep ((works_self _).only_evaluate _) fun s1 _ => ?_
    refine serves_keep ((works_self _).only_transition _ _) fun s2 _ => ?_
    exact serves_stage (hcommit _)
  · simp only [Script.pure_eq, Script.done_bind, Script.bind_assoc]
    exact hcommit _

theorem serves_setAutomation (paused : Bool) (event : EventBody) (s : Session) :
    Serves now answer t row staged (setAutomation paused event s >>= fun d => pure (d, false))
      (ModelOps.setAutomation paused event s) := by
  have hterminal : Transact.Only (fun _ => True) (fun _ => True) (requireNotTerminal s.deployment) := by
    unfold requireNotTerminal
    split <;> trivial
  unfold setAutomation ModelOps.setAutomation
  rw [Script.bind_assoc]
  refine serves_lift hterminal fun _ _ => ?_
  split
  · rfl
  · simp only [Script.bind_assoc]
    refine serves_stage (serves_stage (serves_stage (serves_commitLocked fun db hdb => ?_)))
    exact exec_unpublished hdb

theorem serves_startRollout (r : Serving) (p : CreateDeploymentRequest) {d : Deployment}
    (hd : d.modelName = p.modelName) :
    Serves r.pushedAt answer t row staged (startRollout r p d) (ModelOps.startRollout r.env p d) := by
  unfold startRollout ModelOps.startRollout
  refine serves_stage (serves_stage ?_)
  have hwork : Works d true (if p.automationPaused then
      Session.logEvent (Session.logEvent { clock := r.env.clock, deployment := d, inserted := true }
        (.created p.modelName p.stableVersion p.canaryVersion)) .pausedAtCreation
      else Session.logEvent { clock := r.env.clock, deployment := d, inserted := true }
        (.created p.modelName p.stableVersion p.canaryVersion)) := by
    split <;> exact ⟨rfl, rfl, rfl, rfl⟩
  refine serves_keep (hwork.only_transition _ _) fun s1 h1 => ?_
  refine serves_stage ?_
  refine serves_lift (Works.only_setTrafficAllocation (?_ : Works d true _) _) fun x hx => ?_
  · exact ⟨h1.id_eq, h1.modelName_eq, h1.versionId_eq, h1.inserted_eq⟩
  refine serves_keep (hx.only_transition _ _) fun s2 h2 => ?_
  refine serves_dbCommit h2.inserted_eq fun db hdb => ?_
  rw [← hd, ← h2.modelName_eq]
  exact exec_published hdb _ _

/-- What became of an INSERT, both are told. -/
theorem serves_flush {i : Insertion} {f : Option UniqueConstraint → Handler (Deployment × Bool)}
    {g : Option UniqueConstraint → Service Plan}
    (hnone : Serves now answer t (some i) staged (f none) (g none))
    (hsome : ∀ c, (f (some c)).exec sessionTables answer ⟨none, staged, true⟩ t =
      surfaced now answer t (finished (Transact.run database t.db (g (some c))))) :
    Serves now answer t row staged (.flush i f) (insertRow i >>= g) := by
  refine (exec_flush rfl _ _).trans ?_
  show (f (t.db.probe i)).exec sessionTables answer
      (Held.flushed (I := statements) sessionTables t ⟨row, staged, false⟩ i) t =
    surfaced now answer t (finished (Transact.run database t.db (g (t.db.probe i))))
  unfold Held.flushed
  rw [show sessionTables.probe t i = t.db.probe i from rfl]
  cases t.db.probe i with
  | none => exact hnone
  | some c => exact hsome c

/-- **The INSERT**: it stands, or it is rolled back and the conflict is looked up. -/
theorem serves_insert (r : Serving) (p : CreateDeploymentRequest) {d : Deployment}
    (hd : d.modelName = p.modelName) :
    Serves r.pushedAt answer t row staged (insertDeployment r p d)
      (ModelOps.insertDeployment r.env p d) := by
  refine serves_stage (serves_flush (serves_startRollout r p hd) fun c => ?_)
  cases c <;> rfl

theorem serves_create (r : Serving) (p : CreateDeploymentRequest) (key : Option String) :
    Serves r.pushedAt answer t row staged (createDeployment r p key)
      (ModelOps.createDeployment r.env p key) := by
  have hselect : ∀ q, Transact.Only (fun _ => True) (fun _ => True) (select q) :=
    fun q => ⟨trivial, fun _ => trivial⟩
  have hfresh : Serves r.pushedAt answer t row staged (createFresh r p key)
      (ModelOps.createFresh r.env p key) := by
    refine serves_lift (hselect _) fun active _ => ?_
    cases active with
    | none => exact serves_insert r p rfl
    | some existing => exact serves_fail _
  unfold createDeployment ModelOps.createDeployment
  cases lookupKey key with
  | none => exact hfresh
  | some k =>
      refine serves_lift (hselect _) fun existing _ => ?_
      cases existing with
      | none => exact hfresh
      | some existing => rfl

theorem serves_onDeployment {r : Serving} {id : String} {f : Session → Handler Deployment}
    {g : Session → Service Plan}
    (h : ∀ s, Serves now answer t row staged (f s >>= fun d => pure (d, false)) (g s)) :
    Serves now answer t row staged (onDeployment r id f) (getDeployment r.env id >>= g) := by
  have hget : Transact.Only (fun _ => True) (fun _ => True) (getDeployment r.env id) := by
    refine ⟨trivial, fun d => ?_⟩
    cases d <;> trivial
  exact serves_lift hget fun s _ => h s

/-- **An endpoint alone does what its request does**: it ends as the request does, leaves the tables as
    the request and the record of the router's answer leave them, and has sent the request's push and
    nothing else. -/
theorem serve_exec (r : Serving) (req : Request) (answer : Except PushError Unit) (t : Tables) :
    (serve r req).exec sessionTables answer {} t =
      surfaced r.pushedAt answer t (req.exec r.env t.db) := by
  rw [exec_finished]
  cases req with
  | create p key => exact serves_create r p key
  | promote id by_ => exact serves_onDeployment fun s => serves_resolve promotion s by_
  | rollback id by_ => exact serves_onDeployment fun s => serves_resolve rollback s by_
  | advanceTraffic id => exact serves_onDeployment fun s => serves_advance s
  | recordInconclusive id => exact serves_onDeployment fun s => serves_recordInconclusive s _
  | pauseAutomation id by_ => exact serves_onDeployment fun s => serves_setAutomation true _ s
  | resumeAutomation id by_ => exact serves_onDeployment fun s => serves_setAutomation false _ s

/-- Alone, a request that fails leaves all tables as they were and has sent nothing. -/
theorem exec_inert (r : Serving) (req : Request) (answer : Except PushError Unit) (t : Tables)
    {e : ServiceError}
    (h : ((serve r req).exec sessionTables answer {} t).ending = .error (.raised (.service e))) :
    ((serve r req).exec sessionTables answer {} t).store = t ∧
      ((serve r req).exec sessionTables answer {} t).sent = [] := by
  rw [serve_exec] at h ⊢
  rcases exec_cases r.env t.db req with ⟨x, hx, _⟩ | ⟨reply, row, split, bodies, _, hx⟩
  · rw [hx] at h ⊢
    cases x with
    | ok reply => cases h
    | error e' => exact ⟨rfl, rfl⟩
  · rw [hx] at h
    cases h

/-- A push that stood before a check would be sent whatever the check says. -/
example (p : Push) (e : ServiceError) :
    ((pushBestEffort 0 p >>= fun _ => (fail e : Handler Unit)).exec sessionTables (.ok ()) {}
      .empty).sent = [p] := rfl

end Alone

end Handler

/-! ## 6. Failed requests -/

section Failed

variable {ι : Type} [DecidableEq ι] [Fintype ι]

/-- The sessions of `requests` against `t`, after the statements of `schedule`; each entry says what
    the router answers a push. -/
def serveAll (requests : ι → Serving × Request) (t : Tables)
    (schedule : List (ι × Except PushError Unit)) :
    Config statements Push (Except PushError Unit) Fault (Deployment × Bool) Tables ι :=
  (Config.start t fun i => Handler.serve (requests i).1 (requests i).2).steps sessionTables schedule

/-- **One session for itself** ends as its request does, with the record of the router's answer. -/
theorem serve_alone (r : Serving) (req : Request) (answer : Except PushError Unit) (t : Tables) :
    ∃ n, let c := serveAll (fun _ : Unit => (r, req)) t (List.replicate n ((), answer))
      let x := Handler.surfaced r.pushedAt answer t (req.exec r.env t.db)
      c.proc () = .closed x.ending ∧ c.store = x.store ∧ c.sent = x.sent.map fun p => ((), p) := by
  have hends : (Config.start t fun _ : Unit => Handler.serve r req).Ends sessionTables answer ()
      ((Handler.serve r req).exec sessionTables answer {} t) :=
    Config.steps_alone rfl fun j h => (h rfl).elim
  rw [Handler.serve_exec] at hends
  obtain ⟨n, hproc, hstore, hsent⟩ := hends
  exact ⟨n, hproc, hstore, hsent⟩

/-- **Failed requests change nothing**: whatever requests run beside it, however their statements
    interleave and whatever the router answers, a session whose request ends in an error left every
    table as it was at each of its own statements; the tables are what the commits in the log make of
    them, and none of these is its own; and it never sent anything. Alone, it leaves all tables as they
    were. -/
theorem failed_request_inert (history : List ApiCall) (requests : ι → Serving × Request)
    (schedule : List (ι × Except PushError Unit)) (i : ι) (e : ServiceError)
    (hfail : (serveAll requests (Tables.empty.after history) schedule).failed i =
      some (.raised (.service e))) :
    let t := Tables.empty.after history
    (∀ l answer l', schedule = l ++ (i, answer) :: l' →
      (serveAll requests t (l ++ [(i, answer)])).store = (serveAll requests t l).store) ∧
    (serveAll requests t schedule).store =
      UnitOfWork.replay sessionTables t (serveAll requests t schedule).log ∧
    (∀ w, (i, w) ∉ (serveAll requests t schedule).log) ∧
    (∀ p, (i, p) ∉ (serveAll requests t schedule).sent) ∧
    ∀ r req answer e', ((Handler.serve r req).exec sessionTables answer {} t).ending =
        .error (.raised (.service e')) →
      ((Handler.serve r req).exec sessionTables answer {} t).store = t ∧
        ((Handler.serve r req).exec sessionTables answer {} t).sent = [] := by
  intro t
  have hdeclared : (Fault.service e).Declared := fun h => by cases h
  obtain ⟨hstore, hlog, hsent⟩ := Careful.inert sure_commit
    (fun j => Handler.serve (requests j).1 (requests j).2) i (Handler.cares_serve _ _) hdeclared hfail
  refine ⟨hstore, Config.steps_replay rfl schedule, hlog, hsent, ?_⟩
  intro r req answer e' h
  exact Handler.exec_inert r req answer t h

end Failed

/-- A rollout, the requests to promote it and to roll it back, and one to create another. -/
def sampleServings : Fin 3 → Serving × Request
  | 0 => (⟨Env.after 10 "d2", 13⟩, .promote "d1" .manual)
  | 1 => (⟨Env.after 20 "d3", 23⟩, .rollback "d1" .manual)
  | 2 => (⟨Env.after 30 "d4", 33⟩, .create (sampleCreate "fraud-model") none)

/-- The promote reads the row, the rollback runs to its end, the promote goes on; the create finds the
    rollout while it lasts. -/
def sampleStatements : List (Fin 3 × Except PushError Unit) :=
  List.replicate 3 (0, .ok ()) ++ List.replicate 2 (2, .ok ()) ++
    List.replicate 20 (1, .error .routerUpdate) ++ List.replicate 20 (0, .ok ())

/-- Two of three fail, and only the rollback has written and sent anything. -/
theorem failed_request_inert_sample :
    let t := Tables.empty.after (sampleHistory.take 1)
    let c := serveAll sampleServings t sampleStatements
    c.failed 0 = some (.raised (.service (.concurrentUpdate "d1"))) ∧
      c.failed 2 = some (.raised (.service (.activeDeploymentExists "fraud-model" "d1"))) ∧
      c.log.map Prod.fst = [1, 1] ∧ c.sent.map Prod.fst = [1] ∧
      (∀ w, (0, w) ∉ c.log) ∧ ∀ p, (2, p) ∉ c.sent := by
  have h0 : (serveAll sampleServings (Tables.empty.after (sampleHistory.take 1))
      sampleStatements).failed 0 = some (.raised (.service (.concurrentUpdate "d1"))) := by
    decide +kernel
  have h2 : (serveAll sampleServings (Tables.empty.after (sampleHistory.take 1))
      sampleStatements).failed 2 =
        some (.raised (.service (.activeDeploymentExists "fraud-model" "d1"))) := by
    decide +kernel
  refine ⟨h0, h2, by decide +kernel, by decide +kernel, ?_, ?_⟩
  · exact (failed_request_inert (sampleHistory.take 1) sampleServings _ 0 _ h0).2.2.1
  · exact (failed_request_inert (sampleHistory.take 1) sampleServings _ 2 _ h2).2.2.2.1

end ModelOps
