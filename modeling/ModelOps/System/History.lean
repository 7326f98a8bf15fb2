/-
  File:      ModelOps/System/History.lean
  Subject:   Every history of the API: lifecycle requests, answered pushes, reconcile ticks, metrics,
             labels and evaluations, in any order and number.

  A lifecycle request is taken up to its commit; the record `_push_best_effort` makes of the router's
  answer afterwards is a call of its own, so that others may come between the two. Requests whose
  sessions overlap leave what a serial history leaves (`interleave_after`).

  * `ApiCall.exec`, `Tables.after` -- one call, and a history of them;
  * `call_cases` -- to the deployments a call is a lifecycle request, or it writes events beside it;
  * **`committed_shape`** -- the shape of every deployment in every state some history leads to;
  * **`terminal_final`** -- what is promoted or rolled back stays as it is;
  * `answered` -- what the end of a request's session surfaces as.
-/
import ModelOps.Policy.Evaluate
import ModelOps.ControlPlane.Concurrency
import ModelOps.System.Joint

namespace ModelOps

open Relational Transact

/-! ## 1. Calls -/

/-- The calls that write. -/
inductive ApiCall where
  /-- a lifecycle request, up to its commit -/
  | lifecycle (env : Env) (req : Request)
  /-- the end of `_push_best_effort`, with what the router answered -/
  | pushed (now : Time) (deploymentId : String) (answer : Except PushError Unit)
  | reconcile (clock : Clock) (g : Gateway)
  | recordMetric (now : Time) (deploymentId : String) (payload : MetricIn)
  | ingestLabel (now : Time) (payload : LabelIn)
  | evaluate (env : EvaluationEnv) (r : EvaluateRequest)

/-- What `_push_best_effort` writes: a router that is ahead has answered, too. -/
def recordPushed (now : Time) (db : Db) (deploymentId : String) : Except PushError Unit → Db
  | .ok () => recordRouterReachabilityChange now db deploymentId true
  | .error .staleRevision => recordRouterReachabilityChange now db deploymentId true
  | .error .routerUpdate => recordRouterReachabilityChange now db deploymentId false

/-- The tables after a call. -/
def ApiCall.exec : ApiCall → Tables → Tables
  | .lifecycle env req, t => { t with db := (req.exec env t.db).2 }
  | .pushed now id answer, t => { t with db := recordPushed now t.db id answer }
  | .reconcile clock g, t => { t with db := (reconcileRouterState clock t.db g).db }
  | .recordMetric now id payload, t =>
      -- an unknown deployment is a 404, a known `prediction_id` an IntegrityError
      if (t.db.deployment? id).isSome then
        { t with predictionMetrics :=
            (ModelOps.recordMetric now id payload t.predictionMetrics).getD t.predictionMetrics }
      else t
  | .ingestLabel now payload, t =>
      let (_, labels, events) :=
        ModelOps.ingestLabel now t.predictionMetrics payload t.groundTruthLabels
      { t with db := t.db.noted events, groundTruthLabels := labels }
  | .evaluate env r, t => (r.exec env t).2

/-- The tables after a history. -/
def Tables.after (t : Tables) (calls : List ApiCall) : Tables :=
  calls.foldl (fun t c => c.exec t) t

theorem after_append (t : Tables) (calls calls' : List ApiCall) :
    t.after (calls ++ calls') = (t.after calls).after calls' := by
  unfold Tables.after
  exact List.foldl_append

/-- An event that no lifecycle operation writes. -/
def EventBody.beside : EventBody → Bool
  | .labelConflict .. => true
  | body => body.aboutRouter

section Calls

variable {db : Db} {now : Time} {id : String}

theorem beside_of_aboutRouter {body : EventBody} (h : body.aboutRouter = true) :
    body.beside = true := by
  cases body <;> first | rfl | exact h

/-- The tables grew by events that no lifecycle operation writes. -/
def Beside (db db' : Db) : Prop :=
  ∃ events, db' = db.noted events ∧ ∀ e ∈ events, e.body.beside = true

theorem beside_self (db : Db) : Beside db db :=
  ⟨[], noted_nil.symm, fun _ he => (List.not_mem_nil he).elim⟩

/-- What an answer of the router leaves: at most an event about the router, now. -/
theorem recordPushed_notes (now : Time) (db : Db) (id : String) (answer : Except PushError Unit) :
    ∃ events, recordPushed now db id answer = db.noted events ∧
      ∀ e ∈ events, e.createdAt = now ∧ e.body.aboutRouter = true := by
  have hrecord : ∀ reachable, ∃ events, recordRouterReachabilityChange now db id reachable =
      db.noted events ∧ ∀ e ∈ events, e.createdAt = now ∧ e.body.aboutRouter = true := by
    intro reachable
    rcases record_cases now db id reachable with h | h
    · exact ⟨[], h.trans noted_nil.symm, fun e he => (List.not_mem_nil he).elim⟩
    · refine ⟨_, h, ?_⟩
      intro e he
      rw [List.mem_singleton.mp he]
      exact ⟨rfl, by cases reachable <;> rfl⟩
  cases answer with
  | ok _ => exact hrecord true
  | error e =>
      cases e with
      | staleRevision => exact hrecord true
      | routerUpdate => exact hrecord false

theorem ingestLabel_notes (now : Time) (metrics : List MetricRow) (payload : LabelIn)
    (labels : Table GroundTruthLabel.predictionId) :
    ∀ e ∈ (ingestLabel now metrics payload labels).2.2,
      e.createdAt = now ∧ e.body.beside = true := by
  unfold ingestLabel resolveExisting
  intro e he
  cases hl : labels.get? payload.predictionId with
  | none => simp [hl] at he
  | some existing =>
      simp only [hl] at he
      split at he
      · cases he
      · obtain ⟨_, _, rfl⟩ := List.mem_map.mp he
        exact ⟨rfl, rfl⟩

/-- **What a call does to the deployments**: it is a lifecycle request, or it writes events beside
    them. -/
theorem call_cases (c : ApiCall) (t : Tables) :
    (∃ env req, c = .lifecycle env req) ∨ Beside t.db (c.exec t).db := by
  cases c with
  | lifecycle env req => exact Or.inl ⟨env, req, rfl⟩
  | pushed now id answer =>
      right
      obtain ⟨events, h, hev⟩ := recordPushed_notes now t.db id answer
      exact ⟨events, h, fun e he => beside_of_aboutRouter (hev e he).2⟩
  | reconcile clock g =>
      right
      obtain ⟨events, h, hev⟩ := reconcile_grown clock t.db g
      exact ⟨events, h, fun e he => beside_of_aboutRouter (hev e he).2⟩
  | recordMetric now id payload =>
      right
      have hdb : ((ApiCall.recordMetric now id payload).exec t).db = t.db := by
        simp only [ApiCall.exec]
        split <;> rfl
      rw [hdb]
      exact beside_self t.db
  | ingestLabel now payload =>
      exact Or.inr ⟨_, rfl, fun e he =>
        (ingestLabel_notes now t.predictionMetrics payload t.groundTruthLabels e he).2⟩
  | evaluate env r =>
      right
      have hdb : (r.exec env t).2.db = t.db := by
        rcases evaluate_cases env r t with ⟨e, h⟩ | ⟨d, _, _, h⟩ <;> rw [h]
        rfl
      show Beside t.db (r.exec env t).2.db
      rw [hdb]
      exact beside_self t.db

/-- **What requests and events beside them keep, every history keeps.** -/
theorem after_inv {P : Db → Prop} (hexec : ∀ env db (req : Request), P db → P (req.exec env db).2)
    (hbeside : ∀ db db', Beside db db' → P db → P db') (calls : List ApiCall) {t : Tables}
    (h : P t.db) : P (t.after calls).db := by
  induction calls generalizing t with
  | nil => exact h
  | cons c calls ih =>
      show P ((c.exec t).after calls).db
      apply ih
      rcases call_cases c t with ⟨env, req, rfl⟩ | hb
      · exact hexec env t.db req h
      · exact hbeside t.db _ hb h

/-- The same for what only depends on the rows: a history that leaves all tables but the events. -/
theorem after_inv_rows {P : Db → Prop} (hexec : ∀ env db (req : Request), P db → P (req.exec env db).2)
    (hnoted : ∀ db events, P db → P (db.noted events)) (calls : List ApiCall) {t : Tables}
    (h : P t.db) : P (t.after calls).db := by
  refine after_inv hexec ?_ calls h
  rintro db db' ⟨events, rfl, _⟩ hP
  exact hnoted db events hP

end Calls

/-! ## 2. The shape of every committed deployment -/

/-- The split of a deployment, by its status; weights are whole millionths. -/
inductive Deployment.Routes (d : Deployment) : List TargetWeight → Prop where
  | split (k : Nat) (hk : k ≤ 10 ^ 6) (hs : d.status = .canaryRunning ∨ d.status = .inconclusive) :
      Routes d [⟨d.stableVersion, 1 - k / 10 ^ 6⟩, ⟨d.canaryVersion, k / 10 ^ 6⟩]
  | promoted (hs : d.status = .promoted) : Routes d [⟨d.canaryVersion, 1⟩]
  | rolledBack (hs : d.status = .rolledBack) : Routes d [⟨d.stableVersion, 1⟩]

/-- A row as it is ever committed. -/
structure CommittedRow (db : Db) (d : Deployment) : Prop where
  status : d.status ∈ [DeploymentStatus.canaryRunning, .inconclusive, .promoted, .rolledBack]
  allocation : ∃! a, a ∈ db.trafficAllocations ∧ a.deploymentId = d.id
  routes : ∀ a ∈ db.trafficAllocations, a.deploymentId = d.id → d.Routes a.targets
  total : ∀ a ∈ db.trafficAllocations, a.deploymentId = d.id →
    (a.targets.map TargetWeight.weight).sum = 1
  /-- the router takes it, under any revision -/
  routable : ∀ a ∈ db.trafficAllocations, a.deploymentId = d.id → ∀ revision,
    ∃ config, RouterConfig.validate d.modelName a.targets (some d.id) revision = .ok config
  completed : d.completedAt.isSome = true ↔ d.status ≠ .canaryRunning
  retries : ∃ p, d.policyConfig = some p ∧
    (d.status = .canaryRunning → d.inconclusiveRetryCount ≤ p.maxInconclusiveRetries) ∧
    (d.status = .inconclusive → d.inconclusiveRetryCount = p.maxInconclusiveRetries + 1)

section Shapes

variable {db : Db} {d : Deployment} {targets : List TargetWeight}

/-- A weight rounded to six decimals is a whole number of millionths. -/
theorem round_millionths {w : ℚ} (h0 : 0 ≤ w) (h1 : w ≤ 1) :
    ∃ k : Nat, k ≤ 10 ^ 6 ∧ Decimal.round 6 w = k / 10 ^ 6 := by
  have hn : 0 ≤ Decimal.round 6 w := Decimal.round_nonneg h0
  have hle : Decimal.round 6 w ≤ 1 := Decimal.round_le_one h1
  unfold Decimal.round at hn hle ⊢
  have hpos : (0 : ℚ) < 10 ^ 6 := by norm_num
  have hk : 0 ≤ Decimal.roundHalfEven (w * 10 ^ 6) := by
    have := (le_div_iff₀ hpos).mp hn
    rw [zero_mul] at this
    exact_mod_cast this
  have hk' : Decimal.roundHalfEven (w * 10 ^ 6) ≤ 10 ^ 6 := by
    have := (div_le_iff₀ hpos).mp hle
    rw [one_mul] at this
    exact_mod_cast this
  obtain ⟨k, hk0⟩ := Int.eq_ofNat_of_zero_le hk
  refine ⟨k, ?_, ?_⟩
  · omega
  · rw [hk0, Int.cast_natCast]

theorem Fits.routes (h : Fits d targets) : d.Routes targets := by
  have hsplit : ∀ w, 0 ≤ w → w ≤ 1 → (d.status = .canaryRunning ∨ d.status = .inconclusive) →
      d.Routes (canarySplit d.stableVersion d.canaryVersion w) := by
    intro w h0 h1 hs
    obtain ⟨k, hk, hw⟩ := round_millionths h0 h1
    have hcompl := Decimal.round_compl (d := 6) (by omega) w
    have hstable : Decimal.round 6 (1 - w) = 1 - k / 10 ^ 6 := by linarith
    unfold canarySplit
    rw [hstable, hw]
    exact .split k hk hs
  unfold Fits at h
  split at h
  · rename_i hs
    obtain ⟨w, h0, h1, rfl⟩ := h
    exact hsplit w h0 h1 (Or.inl hs)
  · rename_i hs
    obtain ⟨w, h0, h1, rfl⟩ := h
    exact hsplit w h0 h1 (Or.inr hs)
  · rename_i hs
    rw [h]
    exact .promoted hs
  · rename_i hs
    rw [h]
    exact .rolledBack hs
  · exact h.elim

theorem Deployment.Routes.total (h : d.Routes targets) :
    (targets.map TargetWeight.weight).sum = 1 := by
  cases h with
  | split k hk hs => simp
  | promoted hs => simp
  | rolledBack hs => simp

theorem Shape.committed (h : Shape db d) : CommittedRow db d := by
  obtain ⟨a, ha, hfits⟩ := h.split
  obtain ⟨hmem, hid⟩ := Table.get?_eq_some.mp ha
  have honly : ∀ a' ∈ db.trafficAllocations, a'.deploymentId = d.id → a' = a :=
    fun a' ha' hid' => Table.eq_of_key ha' hmem (hid'.trans hid.symm)
  refine ⟨?_, ⟨a, ⟨hmem, hid⟩, fun a' ha' => honly a' ha'.1 ha'.2⟩, ?_, ?_, ?_, ?_, h.policy⟩
  · have := h.status_cases
    simp only [List.mem_cons, List.not_mem_nil, or_false]
    exact this
  · intro a' ha' hid'
    rw [honly a' ha' hid']
    exact hfits.routes
  · intro a' ha' hid'
    rw [honly a' ha' hid']
    exact hfits.routes.total
  · intro a' ha' hid' revision
    rw [honly a' ha' hid']
    exact ⟨_, validate_of_valid (hfits.valid h.versions_ne)⟩
  · rw [Option.isSome_iff_ne_none, ne_eq, h.completed]

end Shapes

/-- A history keeps the unique indexes and the shapes. -/
theorem after_shaped (calls : List ApiCall) {t : Tables} (h : Schema t.db ∧ Shaped t.db) :
    Schema (t.after calls).db ∧ Shaped (t.after calls).db := by
  refine after_inv_rows (P := fun db => Schema db ∧ Shaped db) ?_ ?_ calls h
  · intro env db req h
    exact ⟨schema_exec env req h.1, shaped_exec env req h.2⟩
  · rintro db events ⟨hschema, hshaped⟩
    refine ⟨hschema, ?_⟩
    intro d hd
    obtain ⟨hv, hsplit, hc, hp⟩ := hshaped d hd
    exact ⟨hv, hsplit, hc, hp⟩

/-- **Overlapping requests leave what some history leaves**: the committed ones, in commit order. -/
theorem interleave_after {ι : Type} [DecidableEq ι] [Fintype ι] (t : Tables) (hs : Schema t.db)
    (requests : ι → Env × Request) (schedule : List ι) :
    ∃ calls, (interleave requests t.db schedule).store = (t.after calls).db := by
  have hserially : ∀ (order : List ι) (t : Tables), serially requests t.db order =
      (t.after (order.map fun i => .lifecycle (requests i).1 (requests i).2)).db := by
    intro order
    induction order with
    | nil => exact fun t => rfl
    | cons i order ih =>
        exact fun t => ih ((ApiCall.lifecycle (requests i).1 (requests i).2).exec t)
  refine ⟨_, Eq.trans ?_ (hserially (interleave requests t.db schedule).log t)⟩
  rw [serially_eq_runAll]
  exact (interleave_serial requests hs schedule).order

/-- **The shape of every committed deployment**, whatever calls were made since the tables were
    empty. -/
theorem committed_shape (calls : List ApiCall) :
    ∀ d ∈ (Tables.empty.after calls).db.deployments,
      CommittedRow (Tables.empty.after calls).db d := by
  intro d hd
  have h : Shaped (Tables.empty.after calls).db :=
    (after_shaped calls (t := Tables.empty) ⟨schema_empty, shaped_empty⟩).2
  exact (h d hd).committed

/-- A run of the API over `d1`: it is promoted, and the model's next rollout is created. -/
def sampleHistory : List ApiCall :=
  [.lifecycle (Env.after 0 "d1") (.create (sampleCreate "fraud-model") none),
    .pushed 5 "d1" (.error .routerUpdate),
    .lifecycle (Env.after 10 "unused") (.promote "d1" .manual),
    .pushed 15 "d1" (.ok ()),
    .lifecycle (Env.after 20 "d2") (.create (sampleCreate "fraud-model") none)]

theorem committed_shape_sample : ∃ d, (Tables.empty.after sampleHistory).db.deployment? "d2" = some d ∧
    CommittedRow (Tables.empty.after sampleHistory).db d := by
  have hsome : ((Tables.empty.after sampleHistory).db.deployment? "d2").isSome = true := by
    decide +kernel
  obtain ⟨d, hd⟩ := Option.isSome_iff_exists.mp hsome
  exact ⟨d, hd, committed_shape sampleHistory d (deployment?_eq_some.mp hd).1⟩

/-! ## 3. Terminal is final -/

/-- The row of a deployment and its allocation. -/
def Holds (db : Db) (d : Deployment) (a : Option TrafficAllocation) : Prop :=
  db.deployment? d.id = some d ∧ db.trafficAllocation? d.id = a

/-- **No request writes to a terminal deployment.** -/
theorem terminal_exec {db : Db} {d : Deployment} {a : Option TrafficAllocation}
    (ht : d.status.terminal = true) (env : Env) (req : Request) (h : Holds db d a) :
    Holds (req.exec env db).2 d a := by
  obtain ⟨hd, ha⟩ := h
  rcases exec_turns env req hd with ⟨hd', ha'⟩ | ⟨row, split, events, hturn, _, _⟩
  · exact ⟨hd', ha'.trans ha⟩
  · -- the row would have been open
    have hopen := hturn.amends.was_open
    rw [Deployment.Open, ht] at hopen
    cases hopen

/-- **Terminal is final**: after any history, whatever is called next, the row of a promoted or rolled
    back deployment and its allocation stay as they are, in every column. -/
theorem terminal_final (history later : List ApiCall) (d : Deployment)
    (hd : d ∈ (Tables.empty.after history).db.deployments)
    (hs : d.status = .promoted ∨ d.status = .rolledBack) :
    let before := (Tables.empty.after history).db
    let after := (Tables.empty.after (history ++ later)).db
    after.deployment? d.id = some d ∧ after.trafficAllocation? d.id = before.trafficAllocation? d.id := by
  intro before after
  have ht : d.status.terminal = true := by
    rcases hs with hs | hs <;> rw [hs] <;> rfl
  show Holds (Tables.empty.after (history ++ later)).db d (before.trafficAllocation? d.id)
  rw [after_append]
  exact after_inv_rows (P := fun db => Holds db d (before.trafficAllocation? d.id))
    (fun env db req h => terminal_exec ht env req h) (fun db events h => h) later
    ⟨Table.mem_iff_get?.mp hd, rfl⟩

/-- The promoted `d1` of the sample is the same after the next rollout of its model. -/
theorem terminal_final_sample :
    ∃ d, (Tables.empty.after sampleHistory).db.deployment? "d1" = some d ∧ d.status = .promoted := by
  let later := sampleHistory.drop 4
  have hsplit : sampleHistory.take 4 ++ later = sampleHistory := List.take_append_drop 4 sampleHistory
  have hstatus : ((Tables.empty.after (sampleHistory.take 4)).db.deployment? "d1").map
      Deployment.status = some .promoted := by decide +kernel
  obtain ⟨d, hd, hs⟩ := Option.map_eq_some_iff.mp hstatus
  obtain ⟨hmem, hid⟩ := deployment?_eq_some.mp hd
  have hfinal := (terminal_final (sampleHistory.take 4) later d hmem (Or.inl hs)).1
  rw [hsplit, hid] at hfinal
  exact ⟨d, hfinal, hs⟩

/-! ## 4. How a session ends -/

/-- What a session's end surfaces as. -/
def answered : Outcome sql ServiceError Reply → Except ServiceError Reply
  | .replied reply => .ok reply
  | .failed e => .error e
  | .refused reply why => .error (why.surface reply.deployment.id)

/-- Alone, a request answers how its session ends. -/
theorem exec_answered (env : Env) (req : Request) (db : Db) :
    (req.exec env db).1 = answered (Transact.run database db (req.program env)).1 := by
  unfold Request.exec
  split <;> (rename_i h; rw [h]; rfl)

/-- The error a session has ended in. -/
def failure : Proc sql ServiceError Reply → Option ServiceError
  | .running _ _ => none
  | .finished _ outcome =>
      match answered outcome with
      | .ok _ => none
      | .error e => some e

theorem failure_eq_some {p : Proc sql ServiceError Reply} {e : ServiceError}
    (h : failure p = some e) :
    ∃ committed outcome, p = .finished committed outcome ∧ outcome.IsError ∧
      answered outcome = .error e := by
  cases p with
  | running held code => cases h
  | finished committed outcome =>
      cases outcome with
      | replied reply => cases h
      | failed e' =>
          cases h
          exact ⟨committed, _, rfl, trivial, rfl⟩
      | refused reply why =>
          cases h
          exact ⟨committed, _, rfl, trivial, rfl⟩

end ModelOps
