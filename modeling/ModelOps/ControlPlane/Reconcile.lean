/-
  File:      ModelOps/ControlPlane/Reconcile.lean
  Subject:   One tick of the reconciler (app/control_plane/reconcile.py), against what the router's
             two endpoints answer (app/control_plane/router_gateway.py).

  * `recordRouterReachabilityChange` -- an event when the router's reachability changed, by the
    deployment's own event history;
  * `Gateway` -- what GET and PUT /router/config answer during the tick;
  * `reconcileRouterState` -- the comparison, the push, and what is written.

  A tick writes events about the router and nothing else (`reconcile_grown`), and what it sends is a
  deployment's own allocation (`reconcile_sent`).
-/
import ModelOps.ControlPlane.Routing
import ModelOps.Router.Config

namespace ModelOps

open Relational

/-! ## 1. Events beside the operations -/

/-- The tables with more events. -/
def Db.noted (db : Db) (events : List DeploymentEvent) : Db :=
  { db with deploymentEvents := db.deploymentEvents ++ events }

section Noted

variable {db : Db} {events : List DeploymentEvent} {now : Time} {log : Log}

@[simp] theorem noted_events :
    (db.noted events).deploymentEvents = db.deploymentEvents ++ events := rfl

@[simp] theorem noted_nil : db.noted [] = db := by
  unfold Db.noted
  rw [List.append_nil]

theorem noted_noted (events' : List DeploymentEvent) :
    (db.noted events).noted events' = db.noted (events ++ events') := by
  unfold Db.noted
  rw [List.append_assoc]

theorem Routed.noted (h : Routed now log db) (events : List DeploymentEvent) :
    Routed now log (db.noted events) where
  schema := h.schema
  shaped d hd := by
    obtain ⟨hv, hsplit, hc, hp⟩ := h.shaped d hd
    exact ⟨hv, hsplit, hc, hp⟩
  finished := h.finished
  allocated := h.allocated
  generation := h.generation
  latest := h.latest
  owner := h.owner

theorem Routed.later {now' : Time} (h : Routed now log db) (hle : now ≤ now') :
    Routed now' log db :=
  { h with finished := fun d hd t ht => (h.finished d hd t ht).trans hle }

end Noted

/-! ## 2. Reachability -/

/-- The event says whether the router is reachable. -/
def EventBody.reachability : EventBody → Bool
  | .routerUnreachable | .routerRecovered => true
  | _ => false

/-- The event is about the router. -/
def EventBody.aboutRouter : EventBody → Bool
  | .routerReconciled .. => true
  | body => body.reachability

/-- The newest event of the deployment about the router's reachability is `router_unreachable`. -/
def Db.wasUnreachable (db : Db) (deploymentId : String) : Bool :=
  (latestBy DeploymentEvent.createdAt
    (fun e => decide (e.deploymentId = deploymentId) && e.body.reachability)
    db.deploymentEvents).any fun e => decide (e.body = .routerUnreachable)

/-- What a change of reachability is logged as. -/
def reachabilityBody (reachable : Bool) : EventBody :=
  if reachable then .routerRecovered else .routerUnreachable

def recordRouterReachabilityChange (now : Time) (db : Db) (deploymentId : String)
    (reachable : Bool) : Db :=
  if reachable ≠ db.wasUnreachable deploymentId then db
  else db.noted [⟨deploymentId, reachabilityBody reachable, now⟩]

section Reachability

variable {db : Db} {id : String} {reachable : Bool} {now : Time}

theorem record_cases (now : Time) (db : Db) (id : String) (reachable : Bool) :
    recordRouterReachabilityChange now db id reachable = db ∨
    recordRouterReachabilityChange now db id reachable =
      db.noted [⟨id, reachabilityBody reachable, now⟩] := by
  unfold recordRouterReachabilityChange
  split
  · exact Or.inl rfl
  · exact Or.inr rfl

/-- An event about anything else leaves the reachability as it was. -/
theorem wasUnreachable_noted {e : DeploymentEvent} (h : e.body.reachability = false) :
    (db.noted [e]).wasUnreachable id = db.wasUnreachable id := by
  unfold Db.wasUnreachable
  rw [noted_events, latestBy_append_other (by simp [h])]

/-- Where the router was not unreachable, a reachable one is no news. -/
theorem record_silent (h : db.wasUnreachable id = false) :
    recordRouterReachabilityChange now db id true = db := by
  unfold recordRouterReachabilityChange
  rw [h, if_pos (by decide)]

/-- **After a reachable router was recorded, it was not unreachable.** -/
theorem record_reachable (hnew : ∀ e ∈ db.deploymentEvents, e.createdAt < now) :
    (recordRouterReachabilityChange now db id true).wasUnreachable id = false := by
  unfold recordRouterReachabilityChange
  split
  · rename_i h
    cases hu : db.wasUnreachable id with
    | false => rfl
    | true => exact absurd hu.symm h
  · unfold Db.wasUnreachable
    rw [noted_events, latestBy_append_newest]
    · rfl
    · simp [reachabilityBody, EventBody.reachability]
    · intro e he _
      exact hnew e he

end Reachability

theorem clock_event_mem (c : Clock) (i : Nat) : c.event i ∈ c.readings := by
  unfold Clock.event Clock.readings
  rw [List.getD_eq_getElem?_getD]
  cases h : c.logged[i]? with
  | none => simp
  | some t =>
      have ht := List.mem_of_getElem? h
      simp [ht]

/-! ## 3. The gateway -/

/-- `StaleRevisionError` and `RouterUpdateError`. -/
inductive PushError where
  | staleRevision
  | routerUpdate
  deriving DecidableEq, Repr

/-- What the router answers during the tick: GET /router/config (`none` where it is unreachable), and
    PUT /router/config. -/
structure Gateway where
  getObservedConfig : Option RouterConfig
  pushTrafficAllocation : Push → Except PushError Unit

/-! ## 4. The tick -/

structure ReconcileResult where
  reconciled : Bool
  reason : String
  deploymentId : Option String := none
  fromRevision : Option Int := none
  toRevision : Option Nat := none
  deriving DecidableEq, Repr

/-- The tick's result, the tables after it, and the push it sent. -/
structure Tick where
  result : ReconcileResult
  db : Db
  sent : Option Push := none

/-- `_all_authoritative_deployments`. -/
def Db.allAuthoritativeDeployments (db : Db) : List Deployment :=
  (db.deployments.rows.map Deployment.modelName).dedup.filterMap db.getAuthoritativeAllocation

/-- A router that does not answer: every model's authoritative deployment is told. -/
def Db.markUnreachable (db : Db) (clock : Clock) : Db :=
  db.allAuthoritativeDeployments.zipIdx.foldl
    (fun db d => recordRouterReachabilityChange (clock.event d.2) db d.1.id false) db

/-- The router already holds the allocation `a` of `d`. -/
def RouterConfig.InSync (observed : RouterConfig) (d : Deployment) (a : TrafficAllocation) : Prop :=
  observed.deploymentId = some d.id ∧ observed.revision = a.revision

instance (observed : RouterConfig) (d : Deployment) (a : TrafficAllocation) :
    Decidable (observed.InSync d a) :=
  inferInstanceAs (Decidable (_ ∧ _))

/-- The push of an allocation. -/
def pushOfAllocation (d : Deployment) (a : TrafficAllocation) : Push :=
  ⟨d.modelName, d.id, a.revision, a.targets⟩

/-- What is written once the push was answered. -/
def finishTick (clock : Clock) (db : Db) (observed : RouterConfig) (d : Deployment)
    (a : TrafficAllocation) : Except PushError Unit → ReconcileResult × Db
  | .error .staleRevision => (⟨false, "already in sync (race)", none, none, none⟩, db)
  | .error .routerUpdate =>
      (⟨false, "router unreachable", none, none, none⟩,
        recordRouterReachabilityChange (clock.event 1) db d.id false)
  | .ok () =>
      (⟨true, "corrected drift", some d.id, some observed.revision, some a.revision⟩,
        db.noted [⟨d.id, .routerReconciled observed.deploymentId observed.revision d.id a.revision,
          clock.event 1⟩])

/-- `reconcile_router_state`. -/
def reconcileRouterState (clock : Clock) (db : Db) (g : Gateway) : Tick :=
  match g.getObservedConfig with
  | none => { result := ⟨false, "router unreachable", none, none, none⟩, db := db.markUnreachable clock }
  | some observed =>
      if observed.modelName = "" then
        { result := ⟨false, "router reported no model_name", none, none, none⟩, db := db }
      else
        match db.getAuthoritativeAllocation observed.modelName with
        | none => { result := ⟨false, "no authoritative allocation", none, none, none⟩, db := db }
        | some d =>
            match db.trafficAllocation? d.id with
            | none => { result := ⟨false, "no authoritative allocation", none, none, none⟩, db := db }
            | some a =>
                -- the GET was answered, whatever becomes of the push
                let db := recordRouterReachabilityChange (clock.event 0) db d.id true
                if observed.InSync d a then
                  { result := ⟨false, "already in sync", none, none, none⟩, db := db }
                else
                  let push := pushOfAllocation d a
                  let (result, db) :=
                    finishTick clock db observed d a (g.pushTrafficAllocation push)
                  { result := result, db := db, sent := some push }

section Tick

variable {clock : Clock} {db : Db} {g : Gateway} {observed : RouterConfig} {d : Deployment}
  {a : TrafficAllocation}

/-- The tick where the router reports a model that has an authoritative allocation. -/
theorem reconcile_authoritative (hg : g.getObservedConfig = some observed)
    (hm : observed.modelName ≠ "")
    (hd : db.getAuthoritativeAllocation observed.modelName = some d)
    (ha : db.trafficAllocation? d.id = some a) :
    reconcileRouterState clock db g =
      (let db' := recordRouterReachabilityChange (clock.event 0) db d.id true
       if observed.InSync d a then
         { result := ⟨false, "already in sync", none, none, none⟩, db := db' }
       else
         let answer := finishTick clock db' observed d a
           (g.pushTrafficAllocation (pushOfAllocation d a))
         { result := answer.1, db := answer.2, sent := some (pushOfAllocation d a) }) := by
  unfold reconcileRouterState
  simp only [hg, if_neg hm, hd, ha]

/-- **A router in sync gets nothing**, and the tables get at most one `router_recovered`. -/
theorem reconcile_inSync (hg : g.getObservedConfig = some observed) (hm : observed.modelName ≠ "")
    (hd : db.getAuthoritativeAllocation observed.modelName = some d)
    (ha : db.trafficAllocation? d.id = some a) (hsync : observed.InSync d a) :
    reconcileRouterState clock db g =
      { result := ⟨false, "already in sync", none, none, none⟩
        db := recordRouterReachabilityChange (clock.event 0) db d.id true } := by
  rw [reconcile_authoritative hg hm hd ha]
  exact if_pos hsync

/-- **A router that drifted gets the authoritative allocation.** -/
theorem reconcile_drift (hg : g.getObservedConfig = some observed) (hm : observed.modelName ≠ "")
    (hd : db.getAuthoritativeAllocation observed.modelName = some d)
    (ha : db.trafficAllocation? d.id = some a) (hsync : ¬observed.InSync d a)
    (hput : g.pushTrafficAllocation (pushOfAllocation d a) = .ok ()) :
    reconcileRouterState clock db g =
      { result := ⟨true, "corrected drift", some d.id, some observed.revision, some a.revision⟩
        db := (recordRouterReachabilityChange (clock.event 0) db d.id true).noted
          [⟨d.id, .routerReconciled observed.deploymentId observed.revision d.id a.revision,
            clock.event 1⟩]
        sent := some (pushOfAllocation d a) } := by
  rw [reconcile_authoritative hg hm hd ha]
  simp only [if_neg hsync, hput]
  rfl

/-- The tables grew by events about the router, at readings of the clock. -/
def GrownBy (clock : Clock) (db db' : Db) : Prop :=
  ∃ events, db' = db.noted events ∧
    ∀ e ∈ events, e.createdAt ∈ clock.readings ∧ e.body.aboutRouter = true

theorem grownBy_self (clock : Clock) (db : Db) : GrownBy clock db db :=
  ⟨[], noted_nil.symm, fun _ he => (List.not_mem_nil he).elim⟩

theorem GrownBy.event {db' : Db} (h : GrownBy clock db db') (i : Nat) (id : String)
    {body : EventBody} (hb : body.aboutRouter = true) :
    GrownBy clock db (db'.noted [⟨id, body, clock.event i⟩]) := by
  obtain ⟨events, rfl, he⟩ := h
  refine ⟨_, noted_noted _, ?_⟩
  intro e hmem
  rcases List.mem_append.mp hmem with hmem | hmem
  · exact he e hmem
  · rw [List.mem_singleton.mp hmem]
    exact ⟨clock_event_mem clock i, hb⟩

theorem GrownBy.record {db' : Db} (h : GrownBy clock db db') (i : Nat) (id : String)
    (reachable : Bool) :
    GrownBy clock db (recordRouterReachabilityChange (clock.event i) db' id reachable) := by
  rcases record_cases (clock.event i) db' id reachable with he | he
  · rw [he]
    exact h
  · rw [he]
    exact h.event i id (by cases reachable <;> rfl)

/-- **A tick writes events and nothing else.** -/
theorem reconcile_grown (clock : Clock) (db : Db) (g : Gateway) :
    GrownBy clock db (reconcileRouterState clock db g).db := by
  have hself := grownBy_self clock db
  unfold reconcileRouterState
  split
  · -- one deployment after the other
    show GrownBy clock db (db.markUnreachable clock)
    unfold Db.markUnreachable
    refine List.foldlRecOn (motive := fun db' => GrownBy clock db db') _ _ hself ?_
    intro db' h d _
    exact h.record d.2 d.1.id false
  · split
    · exact hself
    · split
      · exact hself
      · split
        · exact hself
        · rename_i d _ _ a _
          have hreach := hself.record 0 d.id true
          dsimp only
          split
          · exact hreach
          · unfold finishTick
            split
            · exact hreach
            · exact hreach.record 1 d.id false
            · exact hreach.event 1 d.id rfl

/-- What a tick sends is the allocation of a deployment. -/
theorem reconcile_sent {p : Push} (h : (reconcileRouterState clock db g).sent = some p) :
    ∃ d a, db.deployment? p.deploymentId = some d ∧
      db.trafficAllocation? p.deploymentId = some a ∧ p = pushOfAllocation d a := by
  unfold reconcileRouterState at h
  split at h
  · cases h
  · split at h
    · cases h
    · split at h
      · cases h
      · rename_i d hd
        split at h
        · cases h
        · rename_i a ha
          dsimp only at h
          split at h
          · cases h
          · cases h
            exact ⟨d, a, Table.mem_iff_get?.mp (authoritative_mem hd).1, ha, rfl⟩

end Tick

end ModelOps
