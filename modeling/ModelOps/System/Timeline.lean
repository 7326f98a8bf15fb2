/-
  File:      ModelOps/System/Timeline.lean
  Subject:   The timeline of a deployment, and that its past never changes (app/control_plane/timeline.py).

  The explanation of a policy check is derived again at every read, with the present allocation at hand.
  What keeps the past as it was is that every evaluation has a snapshot of the canary's weight: only an
  active rollout is evaluated, and an active rollout has the canary in its split.

  * `buildTimeline` -- events and checks, merged by their time;
  * `call_adds` -- a call adds events and evaluations at readings of its clock, each with its snapshot;
  * **`past_explanations_stay`** -- a later timeline begins with the earlier one, item for item.

  The primary keys of the rows are left out: a row is where it stands in its table.
-/
import ModelOps.Lib.Sorting
import ModelOps.Policy.Explain
import ModelOps.System.History

namespace ModelOps

open Relational Sorting

/-! ## 1. The timeline -/

/-- `TimelineEventItem` and `TimelinePolicyItem`. -/
inductive TimelineItem where
  | event (timestamp : Time) (eventType message : String)
  | policyEvaluation (timestamp : Time) (check : PolicyCheckResult) (explanation : String)
      (isEstimated : Bool)
  deriving DecidableEq

def TimelineItem.timestamp : TimelineItem → Time
  | .event timestamp _ _ => timestamp
  | .policyEvaluation timestamp _ _ _ => timestamp

/-- The order of the items. -/
def TimelineItem.NotAfter (x y : TimelineItem) : Prop := x.timestamp ≤ y.timestamp

instance : DecidableRel TimelineItem.NotAfter := fun x y =>
  inferInstanceAs (Decidable (x.timestamp ≤ y.timestamp))

def DeploymentEvent.item (e : DeploymentEvent) : TimelineItem :=
  .event e.createdAt e.body.eventType e.body.message

/-- The item of a check; `current` is the canary's present weight. -/
def PolicyEvaluation.item (current : Option ℚ) (row : PolicyEvaluation) : TimelineItem :=
  let hasSnapshot := row.canaryWeight.isSome
  let weightForExplanation := if hasSnapshot then row.canaryWeight else current
  .policyEvaluation row.evaluatedAt row.toPolicyCheckResult
    (explainPolicyCheck row.toPolicyCheckResult weightForExplanation (!hasSnapshot)
      row.labeledSampleCount)
    (!hasSnapshot)

/-- `deployment.events`, in the order of their times. -/
def Db.events (db : Db) (deploymentId : String) : List DeploymentEvent :=
  (db.deploymentEvents.filter fun e => decide (e.deploymentId = deploymentId)).insertionSort
    fun e e' => e.createdAt ≤ e'.createdAt

/-- `build_timeline`. -/
def buildTimeline (t : Tables) (d : Deployment) : List TimelineItem :=
  let currentCanaryWeight := weightFor (t.db.trafficAllocation? d.id) d.canaryVersion
  ((t.db.events d.id).map DeploymentEvent.item ++
    (t.listPolicyEvaluations d.id).map (PolicyEvaluation.item currentCanaryWeight)).insertionSort
      TimelineItem.NotAfter

/-- GET /api/deployments/{id}/timeline. -/
def getDeploymentTimeline (t : Tables) (id : String) : Except ServiceError (List TimelineItem) :=
  match t.db.deployment? id with
  | none => .error (.deploymentNotFound id)
  | some d => .ok (buildTimeline t d)

/-- The item says that its explanation is an estimate. -/
def TimelineItem.estimated : TimelineItem → Bool
  | .event .. => false
  | .policyEvaluation _ _ _ isEstimated => isEstimated

/-! ## 2. What a call adds -/

/-- The readings of a call's clocks. -/
def ApiCall.readings : ApiCall → List Time
  | .lifecycle env _ => env.clock.readings
  | .pushed now _ _ => [now]
  | .reconcile clock _ => clock.readings
  | .recordMetric now _ _ => [now]
  | .ingestLabel now _ => [now]
  | .evaluate env _ => env.clock.readings

/-- The calls are made one at a time: what a later one reads of the clock is later. -/
def OneAtATime (calls : List ApiCall) : Prop :=
  calls.Pairwise fun c c' => ∀ τ ∈ c.readings, ∀ τ' ∈ c'.readings, τ < τ'

/-- `t'` has more events and evaluations than `t`, at these times, each check with its snapshot. -/
structure Adds (times : List Time) (t t' : Tables) (events : List DeploymentEvent)
    (rows : List PolicyEvaluation) : Prop where
  events_eq : t'.db.deploymentEvents = t.db.deploymentEvents ++ events
  rows_eq : t'.policyEvaluations = t.policyEvaluations ++ rows
  event_times : ∀ e ∈ events, e.createdAt ∈ times
  row_times : ∀ r ∈ rows, r.evaluatedAt ∈ times
  snapshot : ∀ r ∈ rows, r.canaryWeight.isSome

section Calls

variable {t t' t'' : Tables} {times times' : List Time} {events events' : List DeploymentEvent}
  {rows rows' : List PolicyEvaluation}

theorem Adds.refl (t : Tables) (times : List Time) : Adds times t t [] [] where
  events_eq := (List.append_nil _).symm
  rows_eq := (List.append_nil _).symm
  event_times _ he := (List.not_mem_nil he).elim
  row_times _ hr := (List.not_mem_nil hr).elim
  snapshot _ hr := (List.not_mem_nil hr).elim

theorem Adds.trans (h : Adds times t t' events rows) (h' : Adds times' t' t'' events' rows') :
    Adds (times ++ times') t t'' (events ++ events') (rows ++ rows') where
  events_eq := by rw [h'.events_eq, h.events_eq, List.append_assoc]
  rows_eq := by rw [h'.rows_eq, h.rows_eq, List.append_assoc]
  event_times e he := List.mem_append.mpr ((List.mem_append.mp he).imp (h.event_times e) (h'.event_times e))
  row_times r hr := List.mem_append.mpr ((List.mem_append.mp hr).imp (h.row_times r) (h'.row_times r))
  snapshot r hr := (List.mem_append.mp hr).elim (h.snapshot r) (h'.snapshot r)

/-- A call that only writes events. -/
theorem adds_events (hevents : t'.db.deploymentEvents = t.db.deploymentEvents ++ events)
    (hrows : t'.policyEvaluations = t.policyEvaluations) (htimes : ∀ e ∈ events, e.createdAt ∈ times) :
    Adds times t t' events [] where
  events_eq := hevents
  rows_eq := by rw [hrows, List.append_nil]
  event_times := htimes
  row_times _ hr := (List.not_mem_nil hr).elim
  snapshot _ hr := (List.not_mem_nil hr).elim

/-- The canary is in the split of an active rollout. -/
theorem Shape.canary_weight {db : Db} {d : Deployment} (h : Shape db d)
    (ha : d.status.active = true) :
    (weightFor (db.trafficAllocation? d.id) d.canaryVersion).isSome := by
  obtain ⟨a, hsplit, hfits⟩ := h.split
  unfold Fits at hfits
  rw [h.running_of_active ha] at hfits
  obtain ⟨w, -, -, htargets⟩ := hfits
  rw [hsplit]
  simp [weightFor, htargets, canarySplit, h.versions_ne]

theorem stamp_times (c : Clock) (id : String) (bodies : List EventBody) :
    ∀ e ∈ stamp c id bodies, e.createdAt ∈ c.readings := by
  intro e he
  obtain ⟨i, hi, rfl⟩ := List.mem_mapIdx.mp he
  exact clock_event_mem c i

/-- **What a call adds**, where every committed row has its shape. -/
theorem call_adds (c : ApiCall) (hsh : Shaped t.db) :
    ∃ events rows, Adds c.readings t (c.exec t) events rows := by
  cases c with
  | lifecycle env req =>
      rcases exec_cases env t.db req with ⟨x, hx, -⟩ | ⟨reply, row, split, bodies, -, hx⟩
      · refine ⟨[], [], adds_events ?_ rfl fun e he => (List.not_mem_nil he).elim⟩
        show (req.exec env t.db).2.deploymentEvents = _
        rw [hx, List.append_nil]
      · refine ⟨stamp env.clock row.id bodies, [], adds_events ?_ rfl (stamp_times _ _ _)⟩
        show (req.exec env t.db).2.deploymentEvents = _
        rw [hx]
        rfl
  | pushed now id answer =>
      obtain ⟨events, hdb, hev⟩ := recordPushed_notes now t.db id answer
      refine ⟨events, [], adds_events ?_ rfl fun e he => List.mem_singleton.mpr (hev e he).1⟩
      show (recordPushed now t.db id answer).deploymentEvents = _
      rw [hdb]
      rfl
  | reconcile clock g =>
      obtain ⟨events, hdb, htimes⟩ := reconcile_grown clock t.db g
      refine ⟨events, [], adds_events ?_ rfl fun e he => (htimes e he).1⟩
      show (reconcileRouterState clock t.db g).db.deploymentEvents = _
      rw [hdb]
      rfl
  | recordMetric now id payload =>
      refine ⟨[], [], adds_events ?_ ?_ fun e he => (List.not_mem_nil he).elim⟩
      · simp only [ApiCall.exec, List.append_nil]
        split <;> rfl
      · simp only [ApiCall.exec]
        split <;> rfl
  | ingestLabel now payload =>
      exact ⟨_, [], adds_events rfl rfl fun e he => List.mem_singleton.mpr
        (ingestLabel_notes now t.predictionMetrics payload t.groundTruthLabels e he).1⟩
  | evaluate env r =>
      show ∃ events rows, Adds env.clock.readings t (r.exec env t).2 events rows
      rcases evaluate_cases env r t with ⟨e, h⟩ | ⟨d, hd, ha, h⟩
      · rw [h]
        exact ⟨[], [], .refl t _⟩
      · rw [h]
        refine ⟨[], _, (List.append_nil _).symm, rfl, fun e he => (List.not_mem_nil he).elim,
          fun r hr => (evaluationRows_mem hr).2, ?_⟩
        intro row hrow
        obtain ⟨i, _, rfl⟩ := List.mem_mapIdx.mp hrow
        exact (hsh d (deployment?_eq_some.mp hd).1).canary_weight ha

/-- **What a history adds.** -/
theorem after_adds (calls : List ApiCall) (h : Schema t.db ∧ Shaped t.db) :
    ∃ events rows, Adds (calls.flatMap ApiCall.readings) t (t.after calls) events rows := by
  induction calls generalizing t with
  | nil => exact ⟨[], [], .refl t _⟩
  | cons c calls ih =>
      obtain ⟨events, rows, hfirst⟩ := call_adds c h.2
      obtain ⟨events', rows', hrest⟩ := ih (t := c.exec t) (after_shaped [c] h)
      exact ⟨_, _, hfirst.trans hrest⟩

end Calls

/-! ## 3. The past stays -/

section Past

variable {t t' : Tables} {times : List Time} {events : List DeploymentEvent}
  {rows : List PolicyEvaluation}

/-- What is on record is older than what is added. -/
structure Older (t : Tables) (times : List Time) : Prop where
  events : ∀ e ∈ t.db.deploymentEvents, ∀ τ ∈ times, e.createdAt < τ
  rows : ∀ r ∈ t.policyEvaluations, ∀ τ ∈ times, r.evaluatedAt < τ

/-- A check with a snapshot is explained by it, whatever the present split. -/
theorem item_snapshot {row : PolicyEvaluation} (h : row.canaryWeight.isSome) (w w' : Option ℚ) :
    row.item w = row.item w' := by
  simp only [PolicyEvaluation.item, h, if_true]

theorem events_grow (h : Adds times t t' events rows) (ho : Older t times) (id : String) :
    t'.db.events id = t.db.events id ++
      (events.filter fun e => decide (e.deploymentId = id)).insertionSort
        fun e e' => e.createdAt ≤ e'.createdAt := by
  have hsort := insertionSort_insert (r := fun e e' : DeploymentEvent => e.createdAt ≤ e'.createdAt)
    (t.db.deploymentEvents.filter fun e => decide (e.deploymentId = id))
    (events.filter fun e => decide (e.deploymentId = id)) [] (by
      intro e he e' he'
      rw [List.append_nil] at he
      have hlt := ho.events e (List.mem_filter.mp he).1 _
        (h.event_times e' (List.mem_filter.mp he').1)
      exact ⟨hlt.le, not_le.mpr hlt⟩)
  rw [List.append_nil, List.append_nil] at hsort
  unfold Db.events
  rw [h.events_eq, List.filter_append, hsort]

theorem evaluations_grow (h : Adds times t t' events rows) (ho : Older t times) (id : String) :
    t'.listPolicyEvaluations id =
      (rows.filter fun r => decide (r.deploymentId = id)).insertionSort
        (fun r r' => r'.evaluatedAt ≤ r.evaluatedAt) ++ t.listPolicyEvaluations id := by
  -- the newest come first
  have hsort := insertionSort_insert
    (r := fun r r' : PolicyEvaluation => r'.evaluatedAt ≤ r.evaluatedAt) []
    (t.policyEvaluations.filter fun r => decide (r.deploymentId = id))
    (rows.filter fun r => decide (r.deploymentId = id)) (by
      intro r hr r' hr'
      rw [List.nil_append] at hr
      have hlt := ho.rows r' (List.mem_filter.mp hr').1 _ (h.row_times r (List.mem_filter.mp hr).1)
      exact ⟨hlt.le, not_le.mpr hlt⟩)
  unfold Tables.listPolicyEvaluations
  rw [h.rows_eq, List.filter_append]
  exact hsort

/-- An item of the timeline is an event or a check on record. -/
theorem item_times {d : Deployment} {x : TimelineItem} {w : Option ℚ}
    (h : x ∈ (t.db.events d.id).map DeploymentEvent.item ++
      (t.listPolicyEvaluations d.id).map (PolicyEvaluation.item w)) :
    (∃ e ∈ t.db.deploymentEvents, x.timestamp = e.createdAt) ∨
      ∃ r ∈ t.policyEvaluations, x = r.item w := by
  rcases List.mem_append.mp h with h | h
  · obtain ⟨e, he, rfl⟩ := List.mem_map.mp h
    have hmem := (List.mem_insertionSort _).mp he
    exact Or.inl ⟨e, (List.mem_filter.mp hmem).1, rfl⟩
  · obtain ⟨r, hr, rfl⟩ := List.mem_map.mp h
    have hmem := (List.mem_insertionSort _).mp hr
    exact Or.inr ⟨r, (List.mem_filter.mp hmem).1, rfl⟩

/-- **A timeline grows at its end.** -/
theorem timeline_grows (h : Adds times t t' events rows) (ho : Older t times)
    (hsnap : ∀ r ∈ t.policyEvaluations, r.canaryWeight.isSome) {d d' : Deployment}
    (hid : d'.id = d.id) : buildTimeline t d <+: buildTimeline t' d' := by
  have hitems : (t.listPolicyEvaluations d.id).map
      (PolicyEvaluation.item (weightFor (t'.db.trafficAllocation? d.id) d'.canaryVersion)) =
      (t.listPolicyEvaluations d.id).map
        (PolicyEvaluation.item (weightFor (t.db.trafficAllocation? d.id) d.canaryVersion)) := by
    refine List.map_congr_left fun r hr => item_snapshot (hsnap r ?_) _ _
    exact (List.mem_filter.mp ((List.mem_insertionSort _).mp hr)).1
  unfold buildTimeline
  rw [hid, events_grow h ho, evaluations_grow h ho]
  simp only [List.map_append]
  rw [hitems, List.append_assoc, ← List.append_assoc (List.map _ _) (List.map _ _) (List.map _ _),
    insertionSort_insert]
  · exact List.prefix_append _ _
  · intro x hx y hy
    have hold : ∀ τ ∈ times, x.timestamp < τ := by
      rcases item_times hx with ⟨e, he, hxe⟩ | ⟨r, hr, rfl⟩
      · rw [hxe]
        exact ho.events e he
      · exact ho.rows r hr
    have hnew : y.timestamp ∈ times := by
      rcases List.mem_append.mp hy with hy | hy
      · obtain ⟨e, he, rfl⟩ := List.mem_map.mp hy
        exact h.event_times e (List.mem_filter.mp ((List.mem_insertionSort _).mp he)).1
      · obtain ⟨r, hr, rfl⟩ := List.mem_map.mp hy
        exact h.row_times r (List.mem_filter.mp ((List.mem_insertionSort _).mp hr)).1
    have hlt := hold _ hnew
    exact ⟨hlt.le, not_le.mpr hlt⟩

/-- No check of a timeline is an estimate. -/
theorem timeline_exact (hsnap : ∀ r ∈ t.policyEvaluations, r.canaryWeight.isSome) (d : Deployment) :
    ∀ x ∈ buildTimeline t d, x.estimated = false := by
  intro x hx
  rcases List.mem_append.mp ((List.mem_insertionSort _).mp hx) with hx | hx
  · obtain ⟨e, he, rfl⟩ := List.mem_map.mp hx
    rfl
  · obtain ⟨r, hr, rfl⟩ := List.mem_map.mp hx
    have hsome := hsnap r (List.mem_filter.mp ((List.mem_insertionSort _).mp hr)).1
    simp [PolicyEvaluation.item, TimelineItem.estimated, hsome]

/-- What is on record was recorded at a reading of one of the calls, each check with its snapshot. -/
theorem recorded_by (calls : List ApiCall) :
    (∀ e ∈ (Tables.empty.after calls).db.deploymentEvents,
      e.createdAt ∈ calls.flatMap ApiCall.readings) ∧
    ∀ r ∈ (Tables.empty.after calls).policyEvaluations,
      r.evaluatedAt ∈ calls.flatMap ApiCall.readings ∧ r.canaryWeight.isSome := by
  obtain ⟨events, rows, h⟩ := after_adds (t := .empty) calls ⟨schema_empty, shaped_empty⟩
  have hevents : (Tables.empty.after calls).db.deploymentEvents = events :=
    h.events_eq.trans (List.nil_append _)
  have hrows : (Tables.empty.after calls).policyEvaluations = rows :=
    h.rows_eq.trans (List.nil_append _)
  rw [hevents, hrows]
  exact ⟨h.event_times, fun r hr => ⟨h.row_times r hr, h.snapshot r hr⟩⟩

/-- What later calls read of the clock is later. -/
theorem readings_later {calls more : List ApiCall} (h : OneAtATime (calls ++ more)) :
    ∀ τ ∈ calls.flatMap ApiCall.readings, ∀ τ' ∈ more.flatMap ApiCall.readings, τ < τ' := by
  intro τ hτ τ' hτ'
  obtain ⟨c, hc, hτ⟩ := List.mem_flatMap.mp hτ
  obtain ⟨c', hc', hτ'⟩ := List.mem_flatMap.mp hτ'
  exact (List.pairwise_append.mp h).2.2 c hc c' hc' τ hτ τ' hτ'

end Past

/-- A deployment that is there stays there. -/
theorem deployment_stays {t : Tables} {id : String} (more : List ApiCall) {d : Deployment}
    (hd : t.db.deployment? id = some d) : ∃ d', (t.after more).db.deployment? id = some d' := by
  have hsome : ((t.after more).db.deployment? id).isSome := by
    refine after_inv_rows (P := fun db => (db.deployment? id).isSome) ?_ (fun _ _ h => h) more
      (by rw [hd]; rfl)
    intro env db req h
    obtain ⟨d, hd⟩ := Option.isSome_iff_exists.mp h
    obtain ⟨-, rfl⟩ := deployment?_eq_some.mp hd
    rcases exec_turns env req hd with ⟨hd', -⟩ | ⟨row, split, events, hturn, -, hx⟩
    · rw [hd']
      rfl
    · rw [hx]
      have hput : (db.applied row split events).deployment? row.id = some row :=
        Table.get?_put_self db.deployments row
      rw [hturn.amends.id_eq] at hput
      rw [hput]
      rfl
  exact Option.isSome_iff_exists.mp hsome

/-- **Past explanations never change**: after any further calls, the timeline of a deployment begins with
    its earlier timeline, item for item, and no check in it is an estimate. -/
theorem past_explanations_stay (calls more : List ApiCall) (h : OneAtATime (calls ++ more))
    (id : String) (earlier : List TimelineItem)
    (he : getDeploymentTimeline (Tables.empty.after calls) id = .ok earlier) :
    ∃ later, getDeploymentTimeline (Tables.empty.after (calls ++ more)) id = .ok later ∧
      earlier <+: later ∧ ∀ x ∈ later, x.estimated = false := by
  have hshaped := after_shaped (t := .empty) calls ⟨schema_empty, shaped_empty⟩
  obtain ⟨events, rows, hrest⟩ := after_adds more hshaped
  have holder : Older (Tables.empty.after calls) (more.flatMap ApiCall.readings) := by
    have hlater := readings_later h
    constructor
    · intro e hmem
      exact hlater _ ((recorded_by calls).1 e hmem)
    · intro r hmem
      exact hlater _ ((recorded_by calls).2 r hmem).1
  have hsnap : ∀ r ∈ (Tables.empty.after calls).policyEvaluations, r.canaryWeight.isSome :=
    fun r hmem => ((recorded_by calls).2 r hmem).2
  have hsnap' : ∀ r ∈ (Tables.empty.after (calls ++ more)).policyEvaluations,
      r.canaryWeight.isSome :=
    fun r hmem => ((recorded_by (calls ++ more)).2 r hmem).2
  unfold getDeploymentTimeline at he ⊢
  cases hd : (Tables.empty.after calls).db.deployment? id with
  | none =>
      rw [hd] at he
      cases he
  | some d =>
      rw [hd] at he
      cases he
      obtain ⟨d', hd'⟩ := deployment_stays more hd
      rw [after_append] at hsnap' ⊢
      rw [hd']
      have hid : d'.id = d.id :=
        (deployment?_eq_some.mp hd').2.trans (deployment?_eq_some.mp hd).2.symm
      exact ⟨_, rfl, timeline_grows hrest holder hsnap hid, timeline_exact hsnap' d'⟩

/-- A rollout that was evaluated with a tenth of the traffic. -/
def sampleJudged : List ApiCall :=
  [.lifecycle (Env.after 0 "d1") (.create (sampleCreate "fraud-model") none),
    .evaluate ⟨⟨10, 11, 12, 13, [14]⟩, (Env.after 0 "").policyDefaults⟩ { deploymentId := "d1" }]

/-- It gets more traffic, is evaluated again and is promoted. -/
def sampleContinuation : List ApiCall :=
  [.lifecycle (Env.after 20 "unused") (.advanceTraffic "d1"),
    .evaluate ⟨⟨30, 31, 32, 33, [34]⟩, (Env.after 0 "").policyDefaults⟩ { deploymentId := "d1" },
    .lifecycle (Env.after 40 "unused") (.promote "d1" .manual)]

/-- The earlier timeline has a policy check in it, and keeps it. -/
theorem past_explanations_stay_sample : ∃ earlier later,
    getDeploymentTimeline (Tables.empty.after sampleJudged) "d1" = .ok earlier ∧
      getDeploymentTimeline (Tables.empty.after (sampleJudged ++ sampleContinuation)) "d1" =
        .ok later ∧ earlier <+: later ∧ (∀ x ∈ later, x.estimated = false) ∧
      ∃ current row, PolicyEvaluation.item current row ∈ earlier := by
  have hsome : ((Tables.empty.after sampleJudged).db.deployment? "d1").isSome = true := by
    decide +kernel
  obtain ⟨d, hd⟩ := Option.isSome_iff_exists.mp hsome
  have hearlier : getDeploymentTimeline (Tables.empty.after sampleJudged) "d1" =
      .ok (buildTimeline (Tables.empty.after sampleJudged) d) := by
    unfold getDeploymentTimeline
    rw [hd]
  have horder : OneAtATime (sampleJudged ++ sampleContinuation) := by
    unfold OneAtATime
    decide
  obtain ⟨later, hlater, hprefix, hexact⟩ :=
    past_explanations_stay sampleJudged sampleContinuation horder "d1" _ hearlier
  have hrows : (Tables.empty.after sampleJudged).listPolicyEvaluations d.id ≠ [] := by
    rw [(deployment?_eq_some.mp hd).2]
    decide +kernel
  obtain ⟨row, hrow⟩ := List.exists_mem_of_ne_nil _ hrows
  have hitem := List.mem_map_of_mem (f := PolicyEvaluation.item (weightFor
    ((Tables.empty.after sampleJudged).db.trafficAllocation? d.id) d.canaryVersion)) hrow
  have hmem := (List.mem_insertionSort TimelineItem.NotAfter).mpr (List.mem_append_right
    (((Tables.empty.after sampleJudged).db.events d.id).map DeploymentEvent.item) hitem)
  exact ⟨_, later, hearlier, hlater, hprefix, hexact, _, row, hmem⟩

end ModelOps
