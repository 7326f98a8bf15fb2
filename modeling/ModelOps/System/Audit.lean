/-
  File:      ModelOps/System/Audit.lean
  Subject:   The audit trail: a deployment's events, replayed, give its state.

  `follow` reads one event against what the events before it led to, and refuses one that does not
  continue them: a status change from another status or along no edge of `ALLOWED_TRANSITIONS`, a pause
  of what is paused, a resume of what is not, an inconclusive cycle with a wrong number. Everything
  else a deployment's history says (its creation, its traffic, the router, its labels) leaves the state
  alone.

  * `Effect.follows` -- the events of a committing request lead from the row it found to the row it
    leaves;
  * **`audit_replays`** -- after every history, for every deployment.
-/
import ModelOps.System.History

namespace ModelOps

open Relational Labelled

/-! ## 1. Replay -/

/-- What the events of a deployment account for. -/
structure Trail where
  status : DeploymentStatus := .pending
  automationPaused : Bool := false
  inconclusiveRetryCount : Nat := 0
  deriving DecidableEq

/-- The columns of a row that its events account for. -/
def Deployment.trail (d : Deployment) : Trail :=
  ⟨d.status, d.automationPaused, d.inconclusiveRetryCount⟩

/-- The trail after one more event; `none` where the event does not continue it. -/
def follow (t : Trail) : EventBody → Option Trail
  | .statusChanged previous target _ =>
      if previous = t.status ∧ target ∈ ALLOWED_TRANSITIONS t.status then
        some { t with status := target }
      else none
  | .pausedAtCreation | .automationPaused _ =>
      if t.automationPaused then none else some { t with automationPaused := true }
  | .automationResumed _ =>
      if t.automationPaused then some { t with automationPaused := false } else none
  | .inconclusiveCycle attempt _ =>
      if attempt = t.inconclusiveRetryCount + 1 then
        some { t with inconclusiveRetryCount := attempt }
      else none
  | _ => some t

/-- The trail of a deployment's whole history. -/
def replay (events : List EventBody) : Option Trail := run follow {} events

/-- What the events of `id` ought to account for: the row, or nothing where there is none. -/
def Db.trail (db : Db) (id : String) : Trail :=
  ((db.deployment? id).map Deployment.trail).getD {}

/-- Every deployment's events replay to its row. -/
def Audited (db : Db) : Prop := ∀ id, replay (db.eventsOf id) = some (db.trail id)

section Replay

variable {t : Trail} {env : Env} {db db' : Db} {req : Request} {reply : Reply} {row d : Deployment}
  {split : Option (List TargetWeight)} {bodies : List EventBody} {id : String}

theorem follow_status {previous target : DeploymentStatus} {message : String}
    (hp : previous = t.status) (ht : target ∈ ALLOWED_TRANSITIONS t.status) :
    follow t (.statusChanged previous target message) = some { t with status := target } :=
  if_pos ⟨hp, ht⟩

/-- The status changes of a resolution. -/
theorem follow_resolved {r : Resolution} (hr : r.Lawful) (ha : r.Admits t.status)
    (by_ : TriggeredBy) :
    run follow t (resolvedBodies r by_ t.status) = some { t with status := r.settled } := by
  unfold resolvedBodies
  by_cases hc : t.status = .canaryRunning
  · have hjudge : DeploymentStatus.evaluating ∈ ALLOWED_TRANSITIONS t.status := by
      rw [hc]
      decide
    simp only [if_pos hc, List.cons_append, List.nil_append, run_cons, follow_status rfl hjudge,
      Option.bind_some]
    rw [follow_status rfl (by exact hr.enter), Option.bind_some,
      follow_status rfl (by exact hr.leave)]
    rfl
  · have hvia : r.via ∈ ALLOWED_TRANSITIONS t.status := ha.resolve_left hc
    simp only [if_neg hc, List.nil_append, run_cons, follow_status rfl hvia, Option.bind_some]
    rw [follow_status rfl (by exact hr.leave)]
    rfl

/-- The events of a rollout frozen after one cycle too many. -/
theorem follow_frozen (ha : d.status.active = true) (maxRetries : Nat) :
    run follow d.trail (frozenBodies d maxRetries) = some (frozenRow env d).trail := by
  have hfreeze : DeploymentStatus.inconclusive ∈ ALLOWED_TRANSITIONS .evaluating := by decide
  unfold frozenBodies
  rw [List.cons_append, run_cons]
  rw [show follow d.trail (.inconclusiveCycle (d.inconclusiveRetryCount + 1) maxRetries) =
    some (cycledRow env d).trail from if_pos rfl, Option.bind_some]
  by_cases hc : d.status = .canaryRunning
  · have hjudge : DeploymentStatus.evaluating ∈ ALLOWED_TRANSITIONS (cycledRow env d).trail.status := by
      rw [show (cycledRow env d).trail.status = d.status from rfl, hc]
      decide
    simp only [if_pos hc, List.cons_append, List.nil_append, run_cons]
    rw [follow_status (show d.status = (cycledRow env d).trail.status from rfl) hjudge,
      Option.bind_some, follow_status rfl (by exact hfreeze)]
    rfl
  · have hev : d.status = .evaluating := by
      have := judged_of_active ha
      rwa [judged, if_neg hc] at this
    simp only [if_neg hc, List.nil_append, run_cons]
    have hstatus : (cycledRow env d).trail.status = .evaluating := hev
    rw [follow_status hstatus.symm (by rw [hstatus]; exact hfreeze)]
    rfl

/-- The events of a creation. -/
theorem follow_created (p : CreateDeploymentRequest) (key : Option String) :
    run follow {} (createdBodies p) = some (createdRow env p key).trail := by
  have hrow : (createdRow env p key).trail = ⟨.canaryRunning, p.automationPaused, 0⟩ := rfl
  rw [hrow]
  unfold createdBodies
  cases p.automationPaused with
  | false => rfl
  | true => rfl

/-- **The events of a committing request lead from the row it found to the row it leaves.** -/
theorem Effect.follows (h : Effect env db req reply row split bodies) :
    run follow (db.trail row.id) bodies = some row.trail := by
  have hat : ∀ {d : Deployment}, db.deployment? d.id = some d → db.trail d.id = d.trail := by
    intro d hd
    unfold Db.trail
    rw [hd]
    rfl
  cases h with
  | created p key hacc =>
      have habsent : db.trail (createdRow env p key).id = {} := by
        unfold Db.trail
        rw [show db.deployment? (createdRow env p key).id = none from hacc.id_new]
        rfl
      rw [habsent]
      exact follow_created p key
  | @resolved _ r d by_ hreq hd ha =>
      rw [show (resolvedRow r env d).id = d.id from rfl, hat hd]
      exact follow_resolved hreq.lawful ha by_
  | @advanced d w hd ha hw =>
      rw [show (advancedRow env d).id = d.id from rfl, hat hd]
      rfl
  | @cycled d hd ha hn =>
      rw [show (cycledRow env d).id = d.id from rfl, hat hd, run_cons]
      rw [show follow d.trail (.inconclusiveCycle (d.inconclusiveRetryCount + 1)
        (getPolicyConfig env d).maxInconclusiveRetries) = some (cycledRow env d).trail from if_pos rfl]
      rfl
  | @frozen d hd ha hn =>
      rw [show (frozenRow env d).id = d.id from rfl, hat hd]
      exact follow_frozen ha _
  | @flagged _ _ _ d hreq hd ht hp =>
      rw [show (flaggedRow env _ d).id = d.id from rfl, hat hd]
      cases hreq with
      | pause by_ =>
          have hfree : d.automationPaused = false := by simpa using hp
          simp [run, follow, Deployment.trail, flaggedRow, hfree]
      | resume by_ =>
          have hheld : d.automationPaused = true := by simpa using hp
          simp [run, follow, Deployment.trail, flaggedRow, hheld]

end Replay

/-! ## 2. Every history -/

section Histories

variable {db db' : Db} {row : Deployment} {split : Option (List TargetWeight)}
  {bodies : List EventBody} {events : List DeploymentEvent} {id : String}

theorem eventsOf_append (db : Db) (events : List DeploymentEvent) (id : String) :
    (db.noted events).eventsOf id = db.eventsOf id ++
      (events.filter fun e => decide (e.deploymentId = id)).map DeploymentEvent.body := by
  unfold Db.eventsOf
  rw [noted_events, List.filter_append, List.map_append]

/-- The events a request stamps are its deployment's. -/
theorem eventsOf_stamp (c : Clock) (id' : String) (bodies : List EventBody) :
    ((stamp c id' bodies).filter fun e => decide (e.deploymentId = id)).map DeploymentEvent.body =
      if id = id' then bodies else [] := by
  have hid : ∀ e ∈ stamp c id' bodies, e.deploymentId = id' := by
    intro e he
    obtain ⟨i, _, rfl⟩ := List.mem_mapIdx.mp he
    rfl
  split
  · rename_i heq
    have hall : (stamp c id' bodies).filter (fun e => decide (e.deploymentId = id)) =
        stamp c id' bodies := List.filter_eq_self.mpr fun e he => by simp [hid e he, heq]
    rw [hall]
    refine List.ext_getElem (by simp [stamp]) ?_
    intro i h h'
    simp [stamp]
  · rename_i hne
    have hnone : (stamp c id' bodies).filter (fun e => decide (e.deploymentId = id)) = [] :=
      List.filter_eq_nil_iff.mpr fun e he => by simp [hid e he, Ne.symm hne]
    rw [hnone]
    rfl

/-- Events beside the lifecycle leave the trail alone. -/
theorem follow_beside (t : Trail) {body : EventBody} (h : body.beside = true) :
    follow t body = some t := by
  cases body <;> first | rfl | cases h

theorem audited_beside (hb : Beside db db') (h : Audited db) : Audited db' := by
  obtain ⟨events, rfl, hev⟩ := hb
  intro id
  unfold replay
  rw [eventsOf_append, run_append, show run follow {} (db.eventsOf id) = some (db.trail id) from h id,
    Option.bind_some]
  refine run_idle ?_ (db.trail id)
  intro body hbody t
  obtain ⟨e, he, rfl⟩ := List.mem_map.mp hbody
  exact follow_beside t (hev e (List.mem_filter.mp he).1)

/-- **A request keeps every trail.** -/
theorem audited_exec (env : Env) (req : Request) (h : Audited db) :
    Audited (req.exec env db).2 := by
  rcases exec_cases env db req with ⟨x, hx, _⟩ | ⟨_, row, split, bodies, heff, hx⟩
  · rw [hx]
    exact h
  · rw [hx]
    intro id
    have hevents : (db.applied row split (stamp env.clock row.id bodies)).eventsOf id =
        db.eventsOf id ++ if id = row.id then bodies else [] := by
      rw [← eventsOf_stamp env.clock row.id bodies]
      exact eventsOf_append db (stamp env.clock row.id bodies) id
    unfold replay
    rw [hevents, run_append, show run follow {} (db.eventsOf id) = some (db.trail id) from h id,
      Option.bind_some]
    unfold Db.trail
    rw [applied_deployment?]
    by_cases hid : id = row.id
    · subst hid
      rw [if_pos rfl, if_pos rfl]
      exact heff.follows
    · rw [if_neg hid, if_neg hid]
      rfl

/-- **The audit trail replays to the state**: after every history, the events of every deployment, in
    the order they were written, lead from PENDING, unpaused and without an inconclusive cycle to what
    its row says. -/
theorem audit_replays (history : List ApiCall) :
    let db := (Tables.empty.after history).db
    ∀ d ∈ db.deployments, replay (db.eventsOf d.id) =
      some ⟨d.status, d.automationPaused, d.inconclusiveRetryCount⟩ := by
  intro db d hd
  have hempty : Audited Tables.empty.db := fun id => rfl
  have h : Audited db := after_inv (fun env db req h => audited_exec env req h)
    (fun db db' hb h => audited_beside hb h) history hempty
  have hid := h d.id
  unfold Db.trail at hid
  rwa [show db.deployment? d.id = some d from Table.mem_iff_get?.mp hd] at hid

/-- The trail of `d1` in the sample ends where its row does. -/
theorem audit_replays_sample :
    replay ((Tables.empty.after sampleHistory).db.eventsOf "d1") = some ⟨.promoted, false, 0⟩ := by
  have hrow : ((Tables.empty.after sampleHistory).db.deployment? "d1").map Deployment.trail =
      some ⟨.promoted, false, 0⟩ := by decide +kernel
  obtain ⟨d, hd, ht⟩ := Option.map_eq_some_iff.mp hrow
  obtain ⟨hmem, hid⟩ := deployment?_eq_some.mp hd
  have h := audit_replays sampleHistory d hmem
  rw [hid] at h
  exact h.trans (congrArg some ht)

end Histories

end ModelOps
