/-
  File:      ModelOps/ControlPlane/ServiceSpec.lean
  Subject:   What each lifecycle request does when it runs alone.

  `Db.applied db row split events` is the only shape a request leaves the tables in: one row of
  `deployments` put, at most one split published under the model's next generation, some events
  appended. `Effect` lists, one constructor an operation, the reply, the row, the split and the events
  of a request that commits; `acts` says that every other request is `Quiet`. Everything said about
  requests later is the case analysis `exec_cases`.
-/
import ModelOps.ControlPlane.Service

namespace ModelOps

open Transact Relational

/-! ## 1. The effect of a commit -/

/-- The tables after a request put `row`, published `split` for it, if any, and logged `events`. -/
def Db.applied (db : Db) (row : Deployment) (split : Option (List TargetWeight))
    (events : List DeploymentEvent) : Db where
  deployments := db.deployments.put row
  trafficAllocations :=
    match split with
    | none => db.trafficAllocations
    | some targets => db.trafficAllocations.put ⟨row.id, targets, db.generation row.modelName + 1⟩
  routingGenerations :=
    match split with
    | none => db.routingGenerations
    | some _ => db.routingGenerations.put ⟨row.modelName, db.generation row.modelName + 1⟩
  deploymentEvents := db.deploymentEvents ++ events

section Applied

variable {db : Db} {row : Deployment} {split : Option (List TargetWeight)}
  {targets : List TargetWeight} {events : List DeploymentEvent}

@[simp] theorem applied_deployments :
    (db.applied row split events).deployments = db.deployments.put row := rfl

theorem applied_deployment? (id : String) :
    (db.applied row split events).deployment? id =
      if id = row.id then some row else db.deployment? id :=
  Table.get?_put _ _ _

theorem applied_some_trafficAllocation? (id : String) :
    (db.applied row (some targets) events).trafficAllocation? id =
      if id = row.id then some ⟨row.id, targets, db.generation row.modelName + 1⟩
      else db.trafficAllocation? id :=
  Table.get?_put _ _ _

/-- An allocation other than the row's own is never written. -/
theorem applied_trafficAllocation?_ne {id : String} (h : id ≠ row.id) :
    (db.applied row split events).trafficAllocation? id = db.trafficAllocation? id := by
  cases split with
  | none => rfl
  | some targets => rw [applied_some_trafficAllocation?, if_neg h]

theorem applied_some_generation (m : String) :
    (db.applied row (some targets) events).generation m =
      if m = row.modelName then db.generation m + 1 else db.generation m := by
  unfold Db.generation Db.routingGeneration?
  rw [show (db.applied row (some targets) events).routingGenerations =
    db.routingGenerations.put ⟨row.modelName, db.generation row.modelName + 1⟩ from rfl,
    Table.get?_put]
  split
  · rename_i h
    simp [h, Db.generation, Db.routingGeneration?]
  · rfl

/-- Another model's counter is never written. -/
theorem applied_generation_ne {m : String} (h : m ≠ row.modelName) :
    (db.applied row split events).generation m = db.generation m := by
  cases split with
  | none => rfl
  | some targets => rw [applied_some_generation, if_neg h]

theorem applied_routingGeneration?_ne {m : String} (h : m ≠ row.modelName) :
    (db.applied row split events).routingGeneration? m = db.routingGeneration? m := by
  cases split with
  | none => rfl
  | some targets => exact Table.get?_put_of_ne _ h

end Applied

theorem deployment?_eq_some {db : Db} {id : String} {d : Deployment} :
    db.deployment? id = some d ↔ d ∈ db.deployments ∧ d.id = id :=
  Table.get?_eq_some

theorem trafficAllocation?_id {db : Db} {id : String} {a : TrafficAllocation}
    (h : db.trafficAllocation? id = some a) : a.deploymentId = id :=
  (Table.get?_eq_some.mp h).2

/-! ## 2. Sessions that publish and sessions that do not -/

/-- The counter row a session flushes. -/
def Db.bumped (db : Db) (m : String) : Dirty RoutingGeneration :=
  match db.routingGeneration? m with
  | none => .new ⟨m, 1⟩
  | some row => .changed { row with generation := row.generation + 1 }

/-- The allocation row a session flushes. -/
def Db.restamped (db : Db) (id : String) (targets : List TargetWeight) (revision : Nat) :
    Dirty TrafficAllocation :=
  match db.trafficAllocation? id with
  | none => .new ⟨id, targets, revision⟩
  | some a => .changed { a with targets := targets, revision := revision }

theorem put_bumped (db : Db) (m : String) :
    (db.bumped m).put db.routingGenerations = db.routingGenerations.put ⟨m, db.generation m + 1⟩ := by
  unfold Db.bumped Db.generation
  cases h : db.routingGeneration? m with
  | none => rfl
  | some row =>
      have hm : row.modelName = m := (Table.get?_eq_some.mp h).2
      subst hm
      rfl

theorem put_restamped (db : Db) (id : String) (targets : List TargetWeight) (n : Nat) :
    (db.restamped id targets n).put db.trafficAllocations =
      db.trafficAllocations.put ⟨id, targets, n⟩ := by
  unfold Db.restamped
  cases h : db.trafficAllocation? id with
  | none => rfl
  | some a =>
      have hid : a.deploymentId = id := trafficAllocation?_id h
      subst hid
      rfl

/-- The session publishes `targets` under the next generation, or no split at all. -/
def Session.Publishes (s : Session) (db : Db) : Option (List TargetWeight) → Prop
  | none => s.allocation = .clean ∧ s.generation = .clean
  | some targets =>
      s.generation = db.bumped s.deployment.modelName ∧
      s.allocation = db.restamped s.deployment.id targets (db.generation s.deployment.modelName + 1)

theorem write_eq_applied {db : Db} {s : Session} {split : Option (List TargetWeight)}
    (h : s.Publishes db split) : db.write s = db.applied s.row split s.events := by
  cases split with
  | none =>
      obtain ⟨ha, hg⟩ := h
      simp [Db.write, Db.applied, ha, hg, Dirty.put]
  | some targets =>
      obtain ⟨hg, ha⟩ := h
      simp only [Db.write, Db.applied, ha, hg, put_bumped, put_restamped]
      rfl

theorem not_duplicate_rows {db : Db} {s : Session} {split : Option (List TargetWeight)}
    (h : s.Publishes db split) (hi : s.inserted = true → db.deployment? s.deployment.id = none) :
    s.duplicate db = false := by
  have hins : (s.inserted && (db.deployment? s.deployment.id).isSome) = false := by
    cases hs : s.inserted with
    | false => rfl
    | true => simp [hi hs]
  unfold Session.duplicate
  rw [hins]
  cases split with
  | none =>
      obtain ⟨ha, hg⟩ := h
      simp [ha, hg]
  | some targets =>
      obtain ⟨hg, ha⟩ := h
      rw [ha, hg]
      unfold Db.restamped Db.bumped
      cases h1 : db.trafficAllocation? s.deployment.id <;>
        cases h2 : db.routingGeneration? s.deployment.modelName <;> simp [h1, h2]

/-- A session on a row nobody changed since commits. -/
theorem flush_loaded {db : Db} {s : Session} {split : Option (List TargetWeight)} {d : Deployment}
    (h : s.Publishes db split) (hi : s.inserted = false)
    (hd : db.deployment? s.deployment.id = some d) (hv : s.deployment.versionId = d.versionId) :
    db.flush s = .ok (db.applied s.row split s.events) := by
  have hst : s.stale db = false := by simp [Session.stale, hi, hd, hv]
  have hdup := not_duplicate_rows h fun hs => by rw [hi] at hs; cases hs
  simp [Db.flush, hst, hdup, write_eq_applied h]

/-- A session with a new row commits. -/
theorem flush_inserted {db : Db} {s : Session} {split : Option (List TargetWeight)}
    (h : s.Publishes db split) (hi : s.inserted = true)
    (hd : db.deployment? s.deployment.id = none) :
    db.flush s = .ok (db.applied s.row split s.events) := by
  have hst : s.stale db = false := by simp [Session.stale, hi]
  have hdup := not_duplicate_rows h fun _ => hd
  simp [Db.flush, hst, hdup, write_eq_applied h]

/-! ## 3. The helpers, run alone -/

section Helpers

variable {db : Db} {s : Session}

theorem eval_select_bind {α : Type} (q : Query) (f : q.Answer → Service α) :
    (select q >>= f).eval database db = (f (db.answer q)).eval database db := rfl

theorem eval_insertRow_bind {α : Type} (i : Insertion)
    (f : Option UniqueConstraint → Service α) :
    (insertRow i >>= f).eval database db = (f (db.probe i)).eval database db := rfl

theorem answer_deployment (id : String) : db.answer (.deployment id) = db.deployment? id := rfl

theorem answer_findByIdempotencyKey (key : String) :
    db.answer (.findByIdempotencyKey key) = db.findByIdempotencyKey key := rfl

theorem answer_activeDeployment (m : String) :
    db.answer (.activeDeployment m) = db.getActiveDeployment m := rfl

theorem answer_routingGeneration (m : String) :
    db.answer (.routingGeneration m) = db.routingGeneration? m := rfl

/-- The session after a transition that the table allows. -/
def Session.moved (s : Session) (target : DeploymentStatus) (message : String) : Session :=
  { s with deployment := { s.deployment with status := target } }.logEvent
    (.statusChanged s.deployment.status target message)

theorem transition_ok {target : DeploymentStatus} {message : String}
    (h : target ∈ ALLOWED_TRANSITIONS s.deployment.status) :
    s.transition target message = .done (s.moved target message) := by
  simp [Session.transition, validateTransition, h, Session.moved]

theorem transition_error {target : DeploymentStatus} {message : String}
    (h : target ∉ ALLOWED_TRANSITIONS s.deployment.status) :
    s.transition target message = .fail (.invalidTransition ⟨s.deployment.status, target⟩) := by
  simp [Session.transition, validateTransition, h]

/-- The status a rollout is judged in. -/
def judged (status : DeploymentStatus) : DeploymentStatus :=
  if status = .canaryRunning then .evaluating else status

def Session.evaluated (s : Session) (message : String) : Session :=
  if s.deployment.status = .canaryRunning then s.moved .evaluating message else s

theorem evaluated_running {message : String} (h : s.deployment.status = .canaryRunning) :
    s.evaluated message = s.moved .evaluating message :=
  if_pos h

theorem evaluated_other {message : String} (h : s.deployment.status ≠ .canaryRunning) :
    s.evaluated message = s :=
  if_neg h

theorem evaluate_eq (message : String) : s.evaluate message = .done (s.evaluated message) := by
  unfold Session.evaluate Session.evaluated
  split
  · rename_i h
    exact transition_ok (by rw [h]; decide)
  · rfl

theorem eval_nextRoutingGeneration (m : String) :
    (s.nextRoutingGeneration m).eval database db =
      .ok (db.generation m + 1, { s with generation := db.bumped m }) := by
  unfold Session.nextRoutingGeneration Db.generation Db.bumped
  rw [eval_select_bind, answer_routingGeneration]
  cases db.routingGeneration? m <;> rfl

/-- The row may have been loaded before or is loaded now. -/
theorem eval_trafficAllocation (s : Session)
    (hl : ∀ a, s.loaded = some a → a = db.trafficAllocation? s.deployment.id) :
    s.trafficAllocation.eval database db =
      .ok (db.trafficAllocation? s.deployment.id,
        { s with loaded := some (db.trafficAllocation? s.deployment.id) }) := by
  unfold Session.trafficAllocation
  cases hs : s.loaded with
  | none => rfl
  | some a =>
      have ha := hl a hs
      subst ha
      have e : { s with loaded := some (db.trafficAllocation? s.deployment.id) } = s := by
        rw [← hs]
      rw [e]
      rfl

/-- The session after it published `targets`. -/
def Session.published (s : Session) (db : Db) (targets : List TargetWeight) : Session :=
  { s with
    generation := db.bumped s.deployment.modelName
    loaded := some (db.trafficAllocation? s.deployment.id)
    allocation := db.restamped s.deployment.id targets (db.generation s.deployment.modelName + 1) }

/-- `_set_traffic_allocation` publishes. -/
theorem eval_setTrafficAllocation {targets : List TargetWeight}
    (hl : ∀ a, s.loaded = some a → a = db.trafficAllocation? s.deployment.id) :
    (s.setTrafficAllocation targets).eval database db =
      .ok (db.generation s.deployment.modelName + 1, s.published db targets) := by
  unfold Session.setTrafficAllocation
  rw [Txn.eval_bind, eval_nextRoutingGeneration]
  simp only [Except.bind]
  rw [Txn.eval_bind,
    eval_trafficAllocation { s with generation := db.bumped s.deployment.modelName } hl]
  simp only [Except.bind, Session.published, Db.restamped]
  cases db.trafficAllocation? s.deployment.id <;> rfl

theorem not_loaded (h : s.loaded = none) :
    ∀ a, s.loaded = some a → a = db.trafficAllocation? s.deployment.id := by
  intro a h'
  rw [h] at h'
  cases h'

/-- The tail of create, promote and rollback: publish, then move on. -/
theorem eval_publish_move {α : Type} {targets : List TargetWeight} {target : DeploymentStatus}
    {message : String} {k : Nat × Session → Session → Service α} (hl : s.loaded = none)
    (h : target ∈ ALLOWED_TRANSITIONS s.deployment.status) :
    (s.setTrafficAllocation targets >>= fun x => x.2.transition target message >>= k x).eval
        database db =
      (k (db.generation s.deployment.modelName + 1, s.published db targets)
        ((s.published db targets).moved target message)).eval database db := by
  rw [Txn.eval_bind, eval_setTrafficAllocation (not_loaded hl)]
  simp only [Except.bind]
  rw [transition_ok (by exact h), Txn.done_bind]

end Helpers

/-! ## 4. What a committing session writes -/

/-- The events of one request, stamped with its clock. -/
def stamp (c : Clock) (id : String) (bodies : List EventBody) : List DeploymentEvent :=
  bodies.mapIdx fun i body => ⟨id, body, c.event i⟩

/-- The session's commit puts `row`, publishes `split` and logs `bodies`. -/
structure Session.Writes (w : Session) (db : Db) (row : Deployment)
    (split : Option (List TargetWeight)) (bodies : List EventBody) : Prop where
  publishes : w.Publishes db split
  row_eq : w.row = row
  events_eq : w.events = stamp w.clock row.id bodies
  inserts : w.inserted = true → db.deployment? w.deployment.id = none
  updates : w.inserted = false →
    (db.deployment? w.deployment.id).map Deployment.versionId = some w.deployment.versionId

theorem Session.Writes.flush {w : Session} {db : Db} {row : Deployment}
    {split : Option (List TargetWeight)} {bodies : List EventBody}
    (h : w.Writes db row split bodies) :
    db.flush w = .ok (db.applied row split (stamp w.clock row.id bodies)) := by
  rw [← h.events_eq, ← h.row_eq]
  cases hi : w.inserted with
  | true => exact flush_inserted h.publishes hi (h.inserts hi)
  | false =>
      obtain ⟨d, hd, hv⟩ := Option.map_eq_some_iff.mp (h.updates hi)
      exact flush_loaded h.publishes hi hd hv.symm

/-- Run alone against `db`, the program commits: it puts `row`, publishes `split`, logs `bodies`. -/
def Commits (env : Env) (db : Db) (p : Service Plan) (reply : Reply) (row : Deployment)
    (split : Option (List TargetWeight)) (bodies : List EventBody) : Prop :=
  ∃ w, p.eval database db = .ok (some w, reply) ∧ w.Writes db row split bodies ∧
    w.clock = env.clock

/-- A session on a loaded row commits. -/
theorem commits_update {env : Env} {db : Db} {p : Service Plan} {reply : Reply} {row : Deployment}
    {split : Option (List TargetWeight)} {bodies : List EventBody} {w : Session}
    (he : p.eval database db = .ok (some w, reply)) (hp : w.Publishes db split)
    (hrow : w.row = row) (hev : w.events = stamp w.clock row.id bodies)
    (hi : w.inserted = false)
    (hv : (db.deployment? w.deployment.id).map Deployment.versionId = some w.deployment.versionId)
    (hc : w.clock = env.clock) : Commits env db p reply row split bodies :=
  ⟨w, he, ⟨hp, hrow, hev, (by rw [hi]; intro h; cases h), fun _ => hv⟩, hc⟩

/-- A session with a new row commits. -/
theorem commits_insert {env : Env} {db : Db} {p : Service Plan} {reply : Reply} {row : Deployment}
    {split : Option (List TargetWeight)} {bodies : List EventBody} {w : Session}
    (he : p.eval database db = .ok (some w, reply)) (hp : w.Publishes db split)
    (hrow : w.row = row) (hev : w.events = stamp w.clock row.id bodies)
    (hi : w.inserted = true) (hid : db.deployment? w.deployment.id = none)
    (hc : w.clock = env.clock) : Commits env db p reply row split bodies :=
  ⟨w, he, ⟨hp, hrow, hev, fun _ => hid, (by rw [hi]; intro h; cases h)⟩, hc⟩

theorem Commits.congr {env : Env} {db : Db} {p p' : Service Plan} {reply : Reply}
    {row : Deployment} {split : Option (List TargetWeight)} {bodies : List EventBody}
    (h : Commits env db p reply row split bodies)
    (he : p'.eval database db = p.eval database db) : Commits env db p' reply row split bodies := by
  obtain ⟨w, hw, h⟩ := h
  exact ⟨w, he.trans hw, h⟩

theorem exec_of_commits {env : Env} {db : Db} {req : Request} {reply : Reply} {row : Deployment}
    {split : Option (List TargetWeight)} {bodies : List EventBody}
    (h : Commits env db (req.program env) reply row split bodies) :
    req.exec env db = (.ok reply, db.applied row split (stamp env.clock row.id bodies)) := by
  obtain ⟨w, he, hw, hc⟩ := h
  unfold Request.exec
  rw [run_commit he hw.flush, hc]

theorem exec_of_error {env : Env} {db : Db} {req : Request} {e : ServiceError}
    (h : (req.program env).eval database db = .error e) : req.exec env db = (.error e, db) := by
  simp [Request.exec, Transact.run, h]

theorem exec_of_reply {env : Env} {db : Db} {req : Request} {reply : Reply}
    (h : (req.program env).eval database db = .ok (none, reply)) :
    req.exec env db = (.ok reply, db) := by
  simp [Request.exec, Transact.run, h]

/-! ## 5. Promote and rollback -/

/-- A rollout that `r` may end. -/
def Resolution.Admits (r : Resolution) (status : DeploymentStatus) : Prop :=
  status = .canaryRunning ∨ r.via ∈ ALLOWED_TRANSITIONS status

instance (r : Resolution) (status : DeploymentStatus) : Decidable (r.Admits status) := by
  unfold Resolution.Admits
  infer_instance

def resolvedRow (r : Resolution) (env : Env) (d : Deployment) : Deployment :=
  { d with
    status := r.settled
    completedAt := some env.clock.second
    updatedAt := env.clock.first
    versionId := d.versionId + 1 }

def resolvedTargets (r : Resolution) (d : Deployment) : List TargetWeight :=
  [⟨r.version d.stableVersion d.canaryVersion, 1⟩]

def resolvedBodies (r : Resolution) (triggeredBy : TriggeredBy) (status : DeploymentStatus) :
    List EventBody :=
  let by_ := triggeredBy.value
  let verb := r.verb
  (if status = .canaryRunning then
    [.statusChanged status .evaluating s!"auto-advancing before {by_} {verb}"] else []) ++
  [.statusChanged (if status = .canaryRunning then .evaluating else status) r.via
      s!"{by_} {verb} requested",
    .statusChanged r.via r.settled (r.closing by_)]

/-- A resolution passes through its own transient status. -/
structure Resolution.Lawful (r : Resolution) : Prop where
  enter : r.via ∈ ALLOWED_TRANSITIONS .evaluating
  leave : r.settled ∈ ALLOWED_TRANSITIONS r.via

theorem promotion_lawful : promotion.Lawful where
  enter := by decide
  leave := by decide

theorem rollback_lawful : rollback.Lawful where
  enter := by decide
  leave := by decide

section Resolve

variable {db : Db} {env : Env} {d : Deployment} {r : Resolution}

theorem commits_resolve (hr : r.Lawful) (hd : db.deployment? d.id = some d)
    (ha : r.Admits d.status) (by_ : TriggeredBy) :
    Commits env db (resolveDeployment r { clock := env.clock, deployment := d } by_)
      ⟨resolvedRow r env d, false, some ⟨d.modelName, d.id, db.generation d.modelName + 1,
        resolvedTargets r d⟩⟩
      (resolvedRow r env d) (some (resolvedTargets r d)) (resolvedBodies r by_ d.status) := by
  unfold resolveDeployment
  simp only [evaluate_eq, Txn.done_bind]
  by_cases hc : d.status = .canaryRunning
  · rw [evaluated_running (by exact hc), transition_ok hr.enter, Txn.done_bind]
    apply commits_update
    · rw [eval_publish_move rfl (by exact hr.leave)]
      rfl
    · exact ⟨rfl, rfl⟩
    · rfl
    · simp only [resolvedBodies, if_pos hc]
      rfl
    · rfl
    · exact congrArg _ hd
    · rfl
  · have hvia : r.via ∈ ALLOWED_TRANSITIONS d.status := ha.resolve_left hc
    rw [evaluated_other (by exact hc), transition_ok (by exact hvia), Txn.done_bind]
    apply commits_update
    · rw [eval_publish_move rfl (by exact hr.leave)]
      rfl
    · exact ⟨rfl, rfl⟩
    · rfl
    · simp only [resolvedBodies, if_neg hc]
      rfl
    · rfl
    · exact congrArg _ hd
    · rfl

theorem eval_resolve_error (ha : ¬r.Admits d.status) (by_ : TriggeredBy) :
    (resolveDeployment r { clock := env.clock, deployment := d } by_).eval database db =
      .error (.invalidTransition ⟨d.status, r.via⟩) := by
  obtain ⟨hc, hvia⟩ := not_or.mp ha
  unfold resolveDeployment
  simp only [evaluate_eq, Txn.done_bind]
  rw [evaluated_other (by exact hc), transition_error (by exact hvia)]
  rfl

end Resolve

/-! ## 6. Create -/

def createdRow (env : Env) (p : CreateDeploymentRequest) (key : Option String) : Deployment :=
  { newDeployment env p key with
    status := .canaryRunning
    startedAt := some env.clock.second
    versionId := 2 }

def createdTargets (p : CreateDeploymentRequest) : List TargetWeight :=
  canarySplit p.stableVersion p.canaryVersion p.canaryWeight

def createdBodies (p : CreateDeploymentRequest) : List EventBody :=
  (.created p.modelName p.stableVersion p.canaryVersion ::
    if p.automationPaused then [.pausedAtCreation] else []) ++
  [.statusChanged .pending .deploying "starting canary rollout",
    .statusChanged .deploying .canaryRunning "canary receiving traffic"]

section Create

variable {db : Db} {env : Env} {p : CreateDeploymentRequest} {key : Option String}

theorem commits_startRollout (hid : db.deployment? env.newId = none) :
    Commits env db (startRollout env p (newDeployment env p key))
      ⟨createdRow env p key, true, some ⟨p.modelName, env.newId, db.generation p.modelName + 1,
        createdTargets p⟩⟩
      (createdRow env p key) (some (createdTargets p)) (createdBodies p) := by
  have hstart : DeploymentStatus.deploying ∈ ALLOWED_TRANSITIONS .pending := by decide
  have hrun : DeploymentStatus.canaryRunning ∈ ALLOWED_TRANSITIONS .deploying := by decide
  unfold startRollout createdBodies
  cases hp : p.automationPaused with
  | true =>
      simp only [if_true]
      rw [transition_ok (by exact hstart), Txn.done_bind]
      apply commits_insert
      · rw [eval_publish_move rfl (by exact hrun)]
        rfl
      · exact ⟨rfl, rfl⟩
      · rfl
      · rfl
      · rfl
      · exact hid
      · rfl
  | false =>
      simp only [Bool.false_eq_true, if_false]
      rw [transition_ok (by exact hstart), Txn.done_bind]
      apply commits_insert
      · rw [eval_publish_move rfl (by exact hrun)]
        rfl
      · exact ⟨rfl, rfl⟩
      · rfl
      · rfl
      · rfl
      · exact hid
      · rfl

/-- No unique index refuses the row: its key is new, and the model has no rollout in flight. -/
theorem probe_eq_none {i : Insertion} : db.probe i = none ↔ db.violations i.deployment = [] := by
  unfold Db.probe
  cases h : db.violations i.deployment with
  | nil => simp
  | cons c cs =>
      simp only [List.head?_cons, reduceCtorEq, iff_false]
      split <;> simp

/-- The unique indexes let the row in. -/
structure Db.Accepts (db : Db) (d : Deployment) : Prop where
  id_new : db.deployment? d.id = none
  key_new : ∀ k, d.idempotencyKey = some k → db.findByIdempotencyKey k = none
  model_free : d.status.terminal = false → ∀ d' ∈ db.deployments, d'.modelName = d.modelName →
    d'.status.terminal = true

/-- A row that is accepted is not there yet. -/
theorem Db.Accepts.absent {d x : Deployment} (hacc : db.Accepts d)
    (hx : db.deployment? d.id = some x) : False := by
  have hnew := hacc.id_new
  rw [hx] at hnew
  cases hnew

theorem violations_eq_nil {d : Deployment} : db.violations d = [] ↔ db.Accepts d := by
  unfold Db.violations
  simp only [List.append_eq_nil_iff, ite_eq_right_iff, List.cons_ne_nil, imp_false]
  constructor
  · intro h
    obtain ⟨⟨hid, hkey⟩, hmodel⟩ := h
    refine ⟨by simpa using hid, ?_, ?_⟩
    · intro k hk
      simpa [hk] using hkey
    · intro ht d' hd' hm
      simp only [ht, Bool.not_false, Bool.true_and, List.any_eq_true, Bool.and_eq_true,
        decide_eq_true_eq, Bool.not_eq_true', not_exists, not_and, Bool.not_eq_false] at hmodel
      exact hmodel d' hd' hm
  · intro h
    refine ⟨⟨by simp [h.id_new], ?_⟩, ?_⟩
    · cases hk : d.idempotencyKey with
      | none => simp
      | some k => simp [h.key_new k hk]
    · intro hv
      simp only [Bool.and_eq_true, Bool.not_eq_true', List.any_eq_true, decide_eq_true_eq] at hv
      obtain ⟨ht, d', hd', hm, hn⟩ := hv
      rw [h.model_free ht d' hd' hm] at hn
      cases hn

/-- What `create_deployment` does when it does not replay: an error, or a new rollout. -/
theorem eval_createFresh (env : Env) (db : Db) (p : CreateDeploymentRequest)
    (key : Option String) :
    (∃ e, (createFresh env p key).eval database db = .error e) ∨
    (db.Accepts (newDeployment env p key) ∧
      Commits env db (createFresh env p key)
        ⟨createdRow env p key, true, some ⟨p.modelName, env.newId, db.generation p.modelName + 1,
          createdTargets p⟩⟩
        (createdRow env p key) (some (createdTargets p)) (createdBodies p)) := by
  unfold createFresh Commits
  rw [eval_select_bind, answer_activeDeployment]
  cases db.getActiveDeployment p.modelName with
  | some existing =>
      left
      exact ⟨_, rfl⟩
  | none =>
      unfold insertDeployment
      simp only [eval_insertRow_bind]
      cases hv : db.probe ⟨newDeployment env p key, env.named⟩ with
      | none =>
          right
          have hacc := violations_eq_nil.mp (probe_eq_none.mp hv)
          exact ⟨hacc, commits_startRollout hacc.id_new⟩
      | some c =>
          left
          cases c with
          | idempotencyKey => exact ⟨_, rfl⟩
          | primaryKey => exact ⟨_, rfl⟩
          | activePerModel => exact ⟨_, rfl⟩

end Create

/-! ## 7. Advance, inconclusive cycles, and the automation hold -/

/-- The canary's committed share. -/
def Db.canaryWeight (db : Db) (d : Deployment) : ℚ :=
  currentCanaryWeight d (db.trafficAllocation? d.id)

def advancedRow (env : Env) (d : Deployment) : Deployment :=
  { d with updatedAt := env.clock.first, versionId := d.versionId + 1 }

def advancedTargets (d : Deployment) (w : ℚ) : List TargetWeight :=
  canarySplit d.stableVersion d.canaryVersion w

/-- The row after one more inconclusive cycle. -/
def cycledRow (env : Env) (d : Deployment) : Deployment :=
  { d with
    inconclusiveRetryCount := d.inconclusiveRetryCount + 1
    updatedAt := env.clock.first
    versionId := d.versionId + 1 }

/-- The row after one cycle too many. -/
def frozenRow (env : Env) (d : Deployment) : Deployment :=
  { cycledRow env d with status := .inconclusive, completedAt := some env.clock.second }

def frozenBodies (d : Deployment) (maxRetries : Nat) : List EventBody :=
  .inconclusiveCycle (d.inconclusiveRetryCount + 1) maxRetries ::
  (if d.status = .canaryRunning then
    [.statusChanged d.status .evaluating
      "auto-advancing before freezing on max inconclusive retries"] else []) ++
  [.statusChanged .evaluating .inconclusive
    s!"auto: exceeded max inconclusive retries ({maxRetries}), freezing for manual review"]

/-- The row after the automation flag was set. -/
def flaggedRow (env : Env) (paused : Bool) (d : Deployment) : Deployment :=
  { d with
    automationPaused := paused, updatedAt := env.clock.first, versionId := d.versionId + 1 }

section Others

variable {db : Db} {env : Env} {d : Deployment}

theorem judged_of_active (h : d.status.active = true) : judged d.status = .evaluating := by
  unfold judged
  cases hs : d.status <;> simp_all [DeploymentStatus.active]

theorem commits_advance {w : ℚ} (hd : db.deployment? d.id = some d)
    (ha : d.status.active = true) (hw : nextStage (db.canaryWeight d) = some w) :
    Commits env db (advanceTraffic { clock := env.clock, deployment := d })
      ⟨advancedRow env d, false, some ⟨d.modelName, d.id, db.generation d.modelName + 1,
        advancedTargets d w⟩⟩
      (advancedRow env d) (some (advancedTargets d w))
      [.trafficAdvanced (db.canaryWeight d) w] := by
  unfold advanceTraffic requireActive
  simp only [ha, if_true]
  apply commits_update
  · rw [Txn.pure_eq, Txn.done_bind, Txn.eval_bind, eval_trafficAllocation _ (not_loaded rfl)]
    simp only [Except.bind]
    rw [show nextStage (currentCanaryWeight
      (Session.touch { clock := env.clock, deployment := d }).deployment
      (db.trafficAllocation? (Session.touch { clock := env.clock, deployment := d }).deployment.id))
      = some w from hw]
    simp only []
    rw [Txn.eval_bind, eval_setTrafficAllocation (by intro a h; exact (Option.some.inj h).symm)]
    rfl
  · exact ⟨rfl, rfl⟩
  · rfl
  · rfl
  · rfl
  · exact congrArg _ hd
  · rfl

/-- A rollout at its last stage is not advanced. -/
theorem eval_advance_final (env : Env) (ha : d.status.active = true)
    (hn : nextStage (db.canaryWeight d) = none) :
    (advanceTraffic { clock := env.clock, deployment := d }).eval database db =
      .error (.alreadyAtFinalStage d.id) := by
  unfold advanceTraffic requireActive
  simp only [ha, if_true]
  rw [Txn.pure_eq, Txn.done_bind, Txn.eval_bind, eval_trafficAllocation _ (not_loaded rfl)]
  simp only [Except.bind]
  rw [show nextStage (currentCanaryWeight
    (Session.touch { clock := env.clock, deployment := d }).deployment
    (db.trafficAllocation? (Session.touch { clock := env.clock, deployment := d }).deployment.id))
    = none from hn]
  rfl

theorem eval_advance_error (env : Env) (db : Db)
    (h : d.status.active = false ∨ nextStage (db.canaryWeight d) = none) :
    ∃ e, (advanceTraffic { clock := env.clock, deployment := d }).eval database db = .error e := by
  cases ha : d.status.active with
  | false =>
      unfold advanceTraffic requireActive
      rw [ha]
      exact ⟨_, rfl⟩
  | true => exact ⟨_, eval_advance_final env ha (h.resolve_left (by simp [ha]))⟩

/-- One more inconclusive cycle, within the bound. -/
theorem commits_cycle {maxRetries : Nat} (hd : db.deployment? d.id = some d)
    (ha : d.status.active = true) (hn : d.inconclusiveRetryCount + 1 ≤ maxRetries) :
    Commits env db (recordInconclusive { clock := env.clock, deployment := d } maxRetries)
      ⟨cycledRow env d, false, none⟩ (cycledRow env d) none
      [.inconclusiveCycle (d.inconclusiveRetryCount + 1) maxRetries] := by
  unfold recordInconclusive requireActive
  simp only [ha, if_true]
  rw [Txn.pure_eq, Txn.done_bind, if_neg (by exact Nat.not_lt.mpr hn)]
  apply commits_update
  · rfl
  · exact ⟨rfl, rfl⟩
  · rfl
  · rfl
  · rfl
  · exact congrArg _ hd
  · rfl

/-- One cycle too many freezes the rollout. -/
theorem commits_freeze {maxRetries : Nat} (hd : db.deployment? d.id = some d)
    (ha : d.status.active = true) (hn : maxRetries < d.inconclusiveRetryCount + 1) :
    Commits env db (recordInconclusive { clock := env.clock, deployment := d } maxRetries)
      ⟨frozenRow env d, false, none⟩ (frozenRow env d) none (frozenBodies d maxRetries) := by
  have hfreeze : DeploymentStatus.inconclusive ∈ ALLOWED_TRANSITIONS .evaluating := by decide
  unfold recordInconclusive requireActive
  simp only [ha, if_true]
  rw [Txn.pure_eq, Txn.done_bind, if_pos (by exact hn), evaluate_eq, Txn.done_bind]
  by_cases hc : d.status = .canaryRunning
  · rw [evaluated_running (by exact hc), transition_ok (by exact hfreeze), Txn.done_bind]
    apply commits_update
    · rfl
    · exact ⟨rfl, rfl⟩
    · rfl
    · simp only [frozenBodies, if_pos hc]
      rfl
    · rfl
    · exact congrArg _ hd
    · rfl
  · have hev : d.status = .evaluating := by
      have := judged_of_active ha
      rwa [judged, if_neg hc] at this
    have hallow : DeploymentStatus.inconclusive ∈ ALLOWED_TRANSITIONS d.status := by
      rw [hev]
      exact hfreeze
    rw [evaluated_other (by exact hc), transition_ok (by exact hallow), Txn.done_bind]
    apply commits_update
    · rfl
    · exact ⟨rfl, rfl⟩
    · rfl
    · simp only [frozenBodies, if_neg hc]
      rw [← hev]
      rfl
    · rfl
    · exact congrArg _ hd
    · rfl

theorem eval_recordInconclusive_error {maxRetries : Nat} (ha : d.status.active = false) :
    (recordInconclusive { clock := env.clock, deployment := d } maxRetries).eval database db =
      .error (.deploymentNotActive d.id d.status) := by
  simp [recordInconclusive, requireActive, ha]

theorem commits_flag {paused : Bool} {event : EventBody} (hd : db.deployment? d.id = some d)
    (ht : d.status.terminal = false) (hp : d.automationPaused ≠ paused) :
    Commits env db (setAutomation paused event { clock := env.clock, deployment := d })
      ⟨flaggedRow env paused d, false, none⟩ (flaggedRow env paused d) none [event] := by
  unfold setAutomation requireNotTerminal
  simp only [ht, Bool.false_eq_true, if_false]
  rw [Txn.pure_eq, Txn.done_bind, if_neg (by exact hp)]
  apply commits_update
  · rfl
  · exact ⟨rfl, rfl⟩
  · rfl
  · rfl
  · rfl
  · exact congrArg _ hd
  · rfl

/-- The flag has the value asked for: a reply, and nothing is written. -/
theorem eval_setAutomation_same {paused : Bool} {event : EventBody}
    (ht : d.status.terminal = false) (hp : d.automationPaused = paused) :
    (setAutomation paused event { clock := env.clock, deployment := d }).eval database db =
      .ok (none, ⟨d, false, none⟩) := by
  simp [setAutomation, requireNotTerminal, ht, hp]

theorem eval_setAutomation_error {paused : Bool} {event : EventBody}
    (ht : d.status.terminal = true) :
    (setAutomation paused event { clock := env.clock, deployment := d }).eval database db =
      .error (.deploymentTerminal d.id d.status) := by
  simp [setAutomation, requireNotTerminal, ht]

end Others

/-! ## 8. Every request -/

/-- The request ends a rollout by `r`. -/
inductive Request.Resolves : Request → Resolution → String → TriggeredBy → Prop where
  | promote (id : String) (by_ : TriggeredBy) : Resolves (.promote id by_) promotion id by_
  | rollback (id : String) (by_ : TriggeredBy) : Resolves (.rollback id by_) ModelOps.rollback id by_

theorem Request.Resolves.lawful {req : Request} {r : Resolution} {id : String} {by_ : TriggeredBy}
    (h : req.Resolves r id by_) : r.Lawful := by
  cases h with
  | promote => exact promotion_lawful
  | rollback => exact rollback_lawful

/-- The request sets the automation flag. -/
inductive Request.Flags : Request → Bool → EventBody → String → Prop where
  | pause (id : String) (by_ : TriggeredBy) :
      Flags (.pauseAutomation id by_) true (.automationPaused by_) id
  | resume (id : String) (by_ : TriggeredBy) :
      Flags (.resumeAutomation id by_) false (.automationResumed by_) id

/-- What a request that commits does: its reply, the row it puts, the split it publishes, and the
    events it logs. -/
inductive Effect (env : Env) (db : Db) : Request → Reply → Deployment →
    Option (List TargetWeight) → List EventBody → Prop where
  | created (p : CreateDeploymentRequest) (key : Option String)
      (hacc : db.Accepts (newDeployment env p key)) :
      Effect env db (.create p key)
        ⟨createdRow env p key, true, some ⟨p.modelName, env.newId, db.generation p.modelName + 1,
          createdTargets p⟩⟩
        (createdRow env p key) (some (createdTargets p)) (createdBodies p)
  | resolved {req : Request} {r : Resolution} {d : Deployment} {by_ : TriggeredBy}
      (hreq : req.Resolves r d.id by_) (hd : db.deployment? d.id = some d)
      (ha : r.Admits d.status) :
      Effect env db req
        ⟨resolvedRow r env d, false, some ⟨d.modelName, d.id, db.generation d.modelName + 1,
          resolvedTargets r d⟩⟩
        (resolvedRow r env d) (some (resolvedTargets r d)) (resolvedBodies r by_ d.status)
  | advanced {d : Deployment} {w : ℚ} (hd : db.deployment? d.id = some d)
      (ha : d.status.active = true) (hw : nextStage (db.canaryWeight d) = some w) :
      Effect env db (.advanceTraffic d.id)
        ⟨advancedRow env d, false, some ⟨d.modelName, d.id, db.generation d.modelName + 1,
          advancedTargets d w⟩⟩
        (advancedRow env d) (some (advancedTargets d w)) [.trafficAdvanced (db.canaryWeight d) w]
  | cycled {d : Deployment} (hd : db.deployment? d.id = some d) (ha : d.status.active = true)
      (hn : d.inconclusiveRetryCount + 1 ≤ (getPolicyConfig env d).maxInconclusiveRetries) :
      Effect env db (.recordInconclusive d.id) ⟨cycledRow env d, false, none⟩ (cycledRow env d) none
        [.inconclusiveCycle (d.inconclusiveRetryCount + 1)
          (getPolicyConfig env d).maxInconclusiveRetries]
  | frozen {d : Deployment} (hd : db.deployment? d.id = some d) (ha : d.status.active = true)
      (hn : (getPolicyConfig env d).maxInconclusiveRetries < d.inconclusiveRetryCount + 1) :
      Effect env db (.recordInconclusive d.id) ⟨frozenRow env d, false, none⟩ (frozenRow env d) none
        (frozenBodies d (getPolicyConfig env d).maxInconclusiveRetries)
  | flagged {req : Request} {paused : Bool} {event : EventBody} {d : Deployment}
      (hreq : req.Flags paused event d.id) (hd : db.deployment? d.id = some d)
      (ht : d.status.terminal = false) (hp : d.automationPaused ≠ paused) :
      Effect env db req ⟨flaggedRow env paused d, false, none⟩ (flaggedRow env paused d) none [event]

/-- An error, or a reply that tells of no change. -/
def Quiet (env : Env) (db : Db) (req : Request) : Prop :=
  (∃ e, (req.program env).eval database db = .error e) ∨
  ∃ reply, (req.program env).eval database db = .ok (none, reply) ∧
    reply.push = none ∧ reply.created = false

/-- Alone, the request is quiet or has its effect. -/
def Acts (env : Env) (db : Db) (req : Request) : Prop :=
  Quiet env db req ∨ ∃ reply row split bodies, Effect env db req reply row split bodies ∧
    Commits env db (req.program env) reply row split bodies

section Requests

variable (env : Env) (db : Db)

/-- The endpoint loads the row first. -/
theorem eval_getDeployment {α : Type} (f : Session → Service α) (id : String) :
    (getDeployment env id >>= f).eval database db =
      match db.deployment? id with
      | none => .error (.deploymentNotFound id)
      | some d => (f { clock := env.clock, deployment := d }).eval database db := by
  unfold getDeployment
  rw [Txn.eval_bind, eval_select_bind, answer_deployment]
  cases db.deployment? id <;> rfl

theorem eval_resolves {req : Request} {r : Resolution} {id : String} {by_ : TriggeredBy}
    (hreq : req.Resolves r id by_) :
    (req.program env).eval database db =
      match db.deployment? id with
      | none => .error (.deploymentNotFound id)
      | some d =>
          (resolveDeployment r { clock := env.clock, deployment := d } by_).eval database db := by
  cases hreq with
  | promote => exact eval_getDeployment _ _ _ _
  | rollback => exact eval_getDeployment _ _ _ _

theorem eval_flags {req : Request} {paused : Bool} {event : EventBody} {id : String}
    (hreq : req.Flags paused event id) :
    (req.program env).eval database db =
      match db.deployment? id with
      | none => .error (.deploymentNotFound id)
      | some d =>
          (setAutomation paused event { clock := env.clock, deployment := d }).eval database db := by
  cases hreq with
  | pause => exact eval_getDeployment _ _ _ _
  | resume => exact eval_getDeployment _ _ _ _

variable {env db}

theorem found {id : String} {d : Deployment} (h : db.deployment? id = some d) :
    id = d.id ∧ db.deployment? d.id = some d := by
  have hid := (deployment?_eq_some.mp h).2
  subst hid
  exact ⟨rfl, h⟩

section Exec

variable {req : Request} {d : Deployment}

theorem Request.Resolves.commits {r : Resolution} {by_ : TriggeredBy}
    (hreq : req.Resolves r d.id by_) (hd : db.deployment? d.id = some d) (ha : r.Admits d.status) :
    Commits env db (req.program env)
      ⟨resolvedRow r env d, false, some ⟨d.modelName, d.id, db.generation d.modelName + 1,
        resolvedTargets r d⟩⟩
      (resolvedRow r env d) (some (resolvedTargets r d)) (resolvedBodies r by_ d.status) := by
  have he := eval_resolves env db hreq
  rw [hd] at he
  exact (commits_resolve hreq.lawful hd ha by_).congr he

theorem commits_advanceTraffic {w : ℚ} (hd : db.deployment? d.id = some d)
    (ha : d.status.active = true) (hw : nextStage (db.canaryWeight d) = some w) :
    Commits env db ((Request.advanceTraffic d.id).program env)
      ⟨advancedRow env d, false, some ⟨d.modelName, d.id, db.generation d.modelName + 1,
        advancedTargets d w⟩⟩
      (advancedRow env d) (some (advancedTargets d w))
      [.trafficAdvanced (db.canaryWeight d) w] := by
  have he : ((Request.advanceTraffic d.id).program env).eval database db = _ :=
    eval_getDeployment env db advanceTraffic d.id
  rw [hd] at he
  exact (commits_advance hd ha hw).congr he

/-- Loaded, an inconclusive cycle is counted against the policy of its row. -/
theorem eval_recordInconclusive (env : Env) (hd : db.deployment? d.id = some d) :
    ((Request.recordInconclusive d.id).program env).eval database db =
      (ModelOps.recordInconclusive { clock := env.clock, deployment := d }
        (getPolicyConfig env d).maxInconclusiveRetries).eval database db := by
  have he : ((Request.recordInconclusive d.id).program env).eval database db = _ :=
    eval_getDeployment env db (fun s => ModelOps.recordInconclusive s
      (getPolicyConfig env s.deployment).maxInconclusiveRetries) d.id
  rw [hd] at he
  exact he

/-- A promote or rollback that is admitted. -/
theorem exec_resolved {r : Resolution} {by_ : TriggeredBy} (hreq : req.Resolves r d.id by_)
    (hd : db.deployment? d.id = some d) (ha : r.Admits d.status) :
    req.exec env db = (.ok ⟨resolvedRow r env d, false, some ⟨d.modelName, d.id,
        db.generation d.modelName + 1, resolvedTargets r d⟩⟩,
      db.applied (resolvedRow r env d) (some (resolvedTargets r d))
        (stamp env.clock d.id (resolvedBodies r by_ d.status))) :=
  exec_of_commits (hreq.commits hd ha)

/-- An advance of an active rollout that is not at its last stage. -/
theorem exec_advanced {w : ℚ} (hd : db.deployment? d.id = some d) (ha : d.status.active = true)
    (hw : nextStage (db.canaryWeight d) = some w) :
    (Request.advanceTraffic d.id).exec env db = (.ok ⟨advancedRow env d, false, some ⟨d.modelName,
        d.id, db.generation d.modelName + 1, advancedTargets d w⟩⟩,
      db.applied (advancedRow env d) (some (advancedTargets d w))
        (stamp env.clock d.id [.trafficAdvanced (db.canaryWeight d) w])) :=
  exec_of_commits (commits_advanceTraffic hd ha hw)

variable (env) in
/-- An inconclusive cycle of an active rollout. -/
theorem exec_recorded (hd : db.deployment? d.id = some d) (ha : d.status.active = true) :
    ∃ reply row bodies, (Request.recordInconclusive d.id).exec env db =
        (.ok reply, db.applied row none (stamp env.clock d.id bodies)) ∧
      ((row = cycledRow env d ∧
          d.inconclusiveRetryCount + 1 ≤ (getPolicyConfig env d).maxInconclusiveRetries) ∨
        (row = frozenRow env d ∧
          (getPolicyConfig env d).maxInconclusiveRetries < d.inconclusiveRetryCount + 1)) := by
  have he := eval_recordInconclusive env hd
  rcases Nat.lt_or_ge (getPolicyConfig env d).maxInconclusiveRetries
    (d.inconclusiveRetryCount + 1) with hn | hn
  · exact ⟨_, frozenRow env d, _, exec_of_commits ((commits_freeze hd ha hn).congr he),
      Or.inr ⟨rfl, hn⟩⟩
  · exact ⟨_, cycledRow env d, _, exec_of_commits ((commits_cycle hd ha hn).congr he),
      Or.inl ⟨rfl, hn⟩⟩

end Exec

/-- A request about one deployment acts if it does on the row it loads. -/
theorem acts_of_row {req : Request} {id : String} {f : Session → Service Plan}
    (heval : (req.program env).eval database db = (getDeployment env id >>= f).eval database db)
    (h : ∀ d, id = d.id → db.deployment? d.id = some d →
      (req.program env).eval database db =
        (f { clock := env.clock, deployment := d }).eval database db → Acts env db req) :
    Acts env db req := by
  have he := heval.trans (eval_getDeployment env db f id)
  cases hd : db.deployment? id with
  | none =>
      rw [hd] at he
      exact Or.inl (Or.inl ⟨_, he⟩)
  | some d =>
      rw [hd] at he
      obtain ⟨hid, hd⟩ := found hd
      exact h d hid hd he

theorem acts_of_resolves {req : Request} {r : Resolution} {id : String} {by_ : TriggeredBy}
    (hreq : req.Resolves r id by_) : Acts env db req := by
  refine acts_of_row ((eval_resolves env db hreq).trans
    (eval_getDeployment env db (fun s => resolveDeployment r s by_) id).symm) ?_
  intro d hid hd he
  subst hid
  by_cases ha : r.Admits d.status
  · exact Or.inr ⟨_, _, _, _, .resolved hreq hd ha, hreq.commits hd ha⟩
  · exact Or.inl (Or.inl ⟨_, he.trans (eval_resolve_error ha by_)⟩)

theorem acts_of_flags {req : Request} {paused : Bool} {event : EventBody} {id : String}
    (hreq : req.Flags paused event id) : Acts env db req := by
  refine acts_of_row ((eval_flags env db hreq).trans
    (eval_getDeployment env db (setAutomation paused event) id).symm) ?_
  intro d hid hd he
  subst hid
  cases ht : d.status.terminal with
  | true => exact Or.inl (Or.inl ⟨_, he.trans (eval_setAutomation_error ht)⟩)
  | false =>
      by_cases hp : d.automationPaused = paused
      · exact Or.inl (Or.inr ⟨_, he.trans (eval_setAutomation_same ht hp), rfl, rfl⟩)
      · exact Or.inr ⟨_, _, _, _, .flagged hreq hd ht hp, (commits_flag hd ht hp).congr he⟩

theorem acts_advanceTraffic (id : String) : Acts env db (.advanceTraffic id) := by
  have heval : ((Request.advanceTraffic id).program env).eval database db =
      (getDeployment env id >>= advanceTraffic).eval database db := rfl
  refine acts_of_row heval ?_
  intro d hid hd he
  subst hid
  cases ha : d.status.active with
  | false =>
      obtain ⟨e, h⟩ := eval_advance_error env db (Or.inl ha)
      exact Or.inl (Or.inl ⟨e, he.trans h⟩)
  | true =>
      cases hw : nextStage (db.canaryWeight d) with
      | none =>
          obtain ⟨e, h⟩ := eval_advance_error env db (Or.inr hw)
          exact Or.inl (Or.inl ⟨e, he.trans h⟩)
      | some w =>
          exact Or.inr ⟨_, _, _, _, .advanced hd ha hw, commits_advanceTraffic hd ha hw⟩

theorem acts_recordInconclusive (id : String) : Acts env db (.recordInconclusive id) := by
  have heval : ((Request.recordInconclusive id).program env).eval database db =
      (getDeployment env id >>= fun s => recordInconclusive s
        (getPolicyConfig env s.deployment).maxInconclusiveRetries).eval database db := rfl
  refine acts_of_row heval ?_
  intro d hid hd he
  subst hid
  cases ha : d.status.active with
  | false => exact Or.inl (Or.inl ⟨_, he.trans (eval_recordInconclusive_error ha)⟩)
  | true =>
      rcases Nat.lt_or_ge (getPolicyConfig env d).maxInconclusiveRetries
        (d.inconclusiveRetryCount + 1) with hn | hn
      · exact Or.inr ⟨_, _, _, _, .frozen hd ha hn, (commits_freeze hd ha hn).congr he⟩
      · exact Or.inr ⟨_, _, _, _, .cycled hd ha hn, (commits_cycle hd ha hn).congr he⟩

theorem acts_create (p : CreateDeploymentRequest) (key : Option String) :
    Acts env db (.create p key) := by
  have hfresh : ((Request.create p key).program env).eval database db =
      (createFresh env p key).eval database db → Acts env db (.create p key) := by
    intro he
    rcases eval_createFresh env db p key with ⟨e, h⟩ | ⟨hacc, h⟩
    · exact Or.inl (Or.inl ⟨e, he.trans h⟩)
    · exact Or.inr ⟨_, _, _, _, .created p key hacc, h.congr he⟩
  cases hk : lookupKey key with
  | none =>
      apply hfresh
      simp only [Request.program, createDeployment, hk]
  | some k =>
      cases hf : db.findByIdempotencyKey k with
      | some existing =>
          have he : ((Request.create p key).program env).eval database db =
              .ok (none, ⟨existing, false, none⟩) := by
            simp only [Request.program, createDeployment, hk]
            rw [eval_select_bind, answer_findByIdempotencyKey, hf]
            rfl
          exact Or.inl (Or.inr ⟨_, he, rfl, rfl⟩)
      | none =>
          apply hfresh
          simp only [Request.program, createDeployment, hk]
          rw [eval_select_bind, answer_findByIdempotencyKey, hf]

/-- **Alone, every request is quiet or has its effect.** -/
theorem acts (env : Env) (db : Db) (req : Request) : Acts env db req := by
  cases req with
  | create p key => exact acts_create p key
  | promote id by_ => exact acts_of_resolves (.promote id by_)
  | rollback id by_ => exact acts_of_resolves (.rollback id by_)
  | advanceTraffic id => exact acts_advanceTraffic id
  | recordInconclusive id => exact acts_recordInconclusive id
  | pauseAutomation id by_ => exact acts_of_flags (.pause id by_)
  | resumeAutomation id by_ => exact acts_of_flags (.resume id by_)

/-- **What a request does to the tables**: nothing, or its effect. -/
theorem exec_cases (env : Env) (db : Db) (req : Request) :
    (∃ x, req.exec env db = (x, db) ∧
      ∀ reply, x = .ok reply → reply.push = none ∧ reply.created = false) ∨
    ∃ reply row split bodies, Effect env db req reply row split bodies ∧
      req.exec env db = (.ok reply, db.applied row split (stamp env.clock row.id bodies)) := by
  rcases acts env db req with (⟨e, h⟩ | ⟨reply, h, hp⟩) | ⟨reply, row, split, bodies, heff, h⟩
  · left
    refine ⟨_, exec_of_error h, ?_⟩
    intro reply hr
    cases hr
  · left
    refine ⟨_, exec_of_reply h, ?_⟩
    intro reply' hr
    cases hr
    exact hp
  · right
    exact ⟨reply, row, split, bodies, heff, exec_of_commits h⟩

end Requests

end ModelOps
