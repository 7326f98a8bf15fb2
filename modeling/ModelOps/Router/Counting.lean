/-
  File:      ModelOps/Router/Counting.lean
  Subject:   The metrics of POST /router/predict on record: the body that `send_metric` posts
             (app/router/metrics.py), the endpoint that stores it (`record_metric` of
             app/control_plane/api.py and metrics_service.py), and the error rate of the rows.

  A body whose `prediction_id` is no UTF-8 is never sent. The endpoint refuses a deployment that it
  does not know (`known`), values that the database does not take (`takes`), and a `prediction_id`
  that is on record.

  * `stored_iff` -- which requests leave a row with the client's status;
  * `recorded_rows` -- a run of such requests leaves a row for each, one after another;
  * **`predict_counted`** -- so over such a run the control plane's error rate is the one the clients
    saw; `predict_uncounted`: the other failures are not counted.
-/
import ModelOps.ControlPlane.Metrics
import ModelOps.Router.Predict

namespace ModelOps

open Relational Python

/-! ## 1. From the metric to its row -/

/-- The body of `send_metric`; a `prediction_id` that is no UTF-8 raises before anything is sent. -/
def Metric.payload (m : Metric) (latencyMs : {q : ℚ // 0 ≤ q}) : Option MetricIn :=
  let payload (predictionId : Option String) : MetricIn :=
    ⟨m.modelVersion, latencyMs.1, m.statusCode, m.prediction, predictionId, latencyMs.2⟩
  match m.predictionId with
  | none => some (payload none)
  | some text => text.decode.map fun id => payload (some id)

/-- POST /api/deployments/{id}/metrics: a 404 for an unknown deployment, and an error for values that
    the database does not take or a `prediction_id` that is on record. -/
def postMetric (known : String → Bool) (takes : Option Int → Option String → Bool) (now : Time)
    (deploymentId : String) (payload : MetricIn) (metrics : List MetricRow) : List MetricRow :=
  if known deploymentId && takes payload.prediction payload.predictionId then
    (recordMetric now deploymentId payload metrics).getD metrics
  else metrics

/-- A request, how long its forward took, and when its metric arrives. -/
structure Forwarding where
  visit : Visit
  latencyMs : {q : ℚ // 0 ≤ q}
  now : Time

/-- The rows once the metrics of a request have arrived. -/
def Forwarding.record (s : RouterSettings) (known : String → Bool)
    (takes : Option Int → Option String → Bool) (metrics : List MetricRow) (e : Forwarding) :
    List MetricRow :=
  (routePredict s e.visit).2.foldl (fun metrics m =>
    match m.payload e.latencyMs with
    | none => metrics
    | some payload => postMetric known takes e.now m.deploymentId payload metrics) metrics

/-- The rows after a run in which every metric post arrives, in the order of arrival. -/
def recorded (s : RouterSettings) (known : String → Bool)
    (takes : Option Int → Option String → Bool) (metrics : List MetricRow) (run : List Forwarding) :
    List MetricRow :=
  run.foldl (Forwarding.record s known takes) metrics

/-- What the clients saw of a version. -/
def clientErrorRate (s : RouterSettings) (run : List Forwarding) (version : String) (w : Window) :
    Option ℚ :=
  errorRate ((run.filter fun e =>
    decide (e.visit.pickedVersion = some version) && w.contains e.now).map fun e =>
      (routePredict s e.visit).1.statusCode)

/-! ## 2. Which requests leave a row -/

/-- The answer of /predict, decoded. -/
def Visit.answer (v : Visit) : Option Json :=
  match v.predict with
  | .answered _ body => body.decoded
  | .requestError _ | .raised => none

def Visit.prediction (v : Visit) : Option Int := asInt (v.answer.bind (memberOf "prediction"))

def Visit.predictionId (v : Visit) : Option Text :=
  asStr (v.answer.bind (memberOf "prediction_id"))

/-- What a `prediction_id` is stored as, if it is UTF-8. -/
def storedId : Option Text → Option (Option String)
  | none => some none
  | some text => text.decode.map some

/-- The answer's `prediction_id` is UTF-8, and the database takes it and the `prediction`. -/
def Visit.Storable (takes : Option Int → Option String → Bool) (v : Visit) : Prop :=
  ∃ id, storedId v.predictionId = some id ∧ takes v.prediction id = true

/-- The answer's `prediction_id` is on no row. -/
def Visit.Fresh (metrics : List MetricRow) (v : Visit) : Prop :=
  ∀ r ∈ metrics, ∀ id ∈ r.predictionId, v.predictionId ≠ some (.ofString id)

/-- The row of a request: for the picked version of the deployment, with the client's status. -/
structure Tells (s : RouterSettings) (id : String) (e : Forwarding) (row : MetricRow) : Prop where
  deploymentId : row.deploymentId = id
  version : e.visit.pickedVersion = some row.modelVersion
  statusCode : row.statusCode = (routePredict s e.visit).1.statusCode
  createdAt : row.createdAt = e.now
  predictionId : row.predictionId.map Text.ofString = e.visit.predictionId

/-- The request leaves exactly one row, and that is its own. -/
def Forwarding.Stored (s : RouterSettings) (known : String → Bool)
    (takes : Option Int → Option String → Bool) (metrics : List MetricRow) (id : String)
    (e : Forwarding) : Prop :=
  ∃ row, e.record s known takes metrics = metrics ++ [row] ∧ Tells s id e row

section Storing

variable {s : RouterSettings} {known : String → Bool} {takes : Option Int → Option String → Bool}
  {metrics : List MetricRow} {e : Forwarding} {v : Visit} {id : String}

/-- A text that decodes is the text of its string. -/
theorem ofString_of_decode {t : Text} {x : String} (h : t.decode = some x) : Text.ofString x = t := by
  unfold Text.decode at h
  split at h
  · rename_i hvalid
    cases h
    unfold Text.ofString
    rw [String.toList_ofList, List.map_map]
    conv_rhs => rw [← List.map_id t]
    refine List.map_congr_left fun c hc => ?_
    have hc : c.isValidChar := of_decide_eq_true (List.all_eq_true.mp hvalid c hc)
    show (Char.ofNat c).toNat = c
    unfold Char.ofNat
    rw [dif_pos hc]
    rfl
  · cases h

/-- Naming the version hides no other member. -/
theorem memberOf_routedTo {key : String} (hkey : key ≠ "routed_to") (version : String) (body : Json) :
    memberOf key (routedTo version body) = memberOf key body := by
  cases body with
  | obj members =>
      show (setDefault members (.ofString "routed_to") _).lookup (.ofString key) =
        members.lookup (.ofString key)
      unfold setDefault
      split
      · rfl
      · have hne : (Text.ofString key == Text.ofString "routed_to") = false :=
          beq_false_of_ne fun h => hkey (ofString_injective h)
        rw [List.lookup_append]
        simp [List.lookup, hne]
  | _ => rfl

/-- **What a request that forwards emits**: the values of its answer. -/
theorem route_forwarded (hid : id ≠ "") (hurl : s.hasControlPlane = true)
    (hdep : v.config.deploymentId = some id) (h : v.Forwards s) :
    ∃ t, chooseTarget v.config v.draw = some t ∧ (routePredict s v).2 =
      [⟨id, t.version, (routePredict s v).1.statusCode, v.prediction, v.predictionId⟩] := by
  obtain ⟨⟨t, ht, hk⟩, hprobe, n, body, hpredict, hpass⟩ := h
  obtain ⟨value, hbody, hpass⟩ := passable_iff.mp hpass
  have hroute := route_answered ht hk hprobe hpredict hbody
  have hanswer : v.answer = some value := by
    unfold Visit.answer
    rw [hpredict]
    exact hbody
  have hstatus : (render n (routedTo t.version value)).statusCode = n := by
    rw [render_statusCode, routedTo_renders]
    exact hpass
  refine ⟨t, ht, ?_⟩
  rw [hroute, metricsOf_deployment hid hurl hdep]
  dsimp only
  rw [hstatus, memberOf_routedTo (by decide), memberOf_routedTo (by decide)]
  unfold Visit.prediction Visit.predictionId
  rw [hanswer]
  rfl

/-- Posting one metric adds its row, where the endpoint takes it. -/
theorem postMetric_cases (known : String → Bool) (takes : Option Int → Option String → Bool)
    (metrics : List MetricRow) (id : String) (now : Time) (payload : MetricIn) :
    (postMetric known takes now id payload metrics = metrics ++ [payload.row id now] ∧
      known id = true ∧ takes payload.prediction payload.predictionId = true ∧
        ∀ x ∈ payload.predictionId, ∀ r ∈ metrics, r.predictionId ≠ some x) ∨
    (postMetric known takes now id payload metrics = metrics ∧
      (known id = true → takes payload.prediction payload.predictionId = true →
        ∃ x ∈ payload.predictionId, ∃ r ∈ metrics, r.predictionId = some x)) := by
  unfold postMetric
  by_cases htakes : known id = true ∧ takes payload.prediction payload.predictionId = true
  · rw [if_pos (by rw [htakes.1, htakes.2]; rfl)]
    unfold recordMetric
    split
    · rename_i hon
      obtain ⟨hsome, hany⟩ := Bool.and_eq_true_iff.mp hon
      obtain ⟨x, hx⟩ := Option.isSome_iff_exists.mp hsome
      obtain ⟨r, hr, hrx⟩ := List.any_eq_true.mp hany
      exact Or.inr ⟨rfl, fun _ _ => ⟨x, hx, r, hr, (of_decide_eq_true hrx).trans hx⟩⟩
    · rename_i hoff
      refine Or.inl ⟨rfl, htakes.1, htakes.2, fun x hx r hr hrx => hoff ?_⟩
      rw [Bool.and_eq_true]
      refine ⟨Option.isSome_iff_exists.mpr ⟨x, hx⟩, List.any_eq_true.mpr ⟨r, hr, ?_⟩⟩
      exact decide_eq_true (hrx.trans hx.symm)
  · rw [if_neg (by rw [Bool.and_eq_true]; exact htakes)]
    exact Or.inr ⟨rfl, fun hk ht => absurd ⟨hk, ht⟩ htakes⟩

/-- The body that is sent has the id as it is stored. -/
theorem payload_eq (m : Metric) (latencyMs : {q : ℚ // 0 ≤ q}) :
    m.payload latencyMs = (storedId m.predictionId).map fun predictionId =>
      ⟨m.modelVersion, latencyMs.1, m.statusCode, m.prediction, predictionId, latencyMs.2⟩ := by
  unfold Metric.payload storedId
  cases m.predictionId with
  | none => rfl
  | some text =>
      dsimp only
      rw [Option.map_map]
      rfl

theorem storedId_map {t : Option Text} {x : Option String} (h : storedId t = some x) :
    x.map Text.ofString = t := by
  cases t with
  | none =>
      cases h
      rfl
  | some text =>
      obtain ⟨y, hy, rfl⟩ := Option.map_eq_some_iff.mp h
      exact congrArg some (ofString_of_decode hy)

/-- An id is on a row as its text is. -/
theorem fresh_iff {x : Option String} (h : storedId v.predictionId = some x) :
    v.Fresh metrics ↔ ∀ y ∈ x, ∀ r ∈ metrics, r.predictionId ≠ some y := by
  have hx := storedId_map h
  unfold Visit.Fresh
  constructor
  · intro hfresh y hy r hr hrx
    refine hfresh r hr y hrx ?_
    rw [← hx, Option.mem_def.mp hy]
    rfl
  · intro hfresh r hr y hy hv
    rw [← hx] at hv
    obtain ⟨z, hz, hzy⟩ := Option.map_eq_some_iff.mp hv
    rw [← ofString_injective hzy] at hy
    exact hfresh z hz r hr hy

/-- **A request that forwards leaves its row** exactly if its answer can be stored and its id is new. -/
theorem stored_forwarded (hid : id ≠ "") (hurl : s.hasControlPlane = true) (hknown : known id = true)
    (hdep : e.visit.config.deploymentId = some id) (h : e.visit.Forwards s) :
    e.Stored s known takes metrics id ↔ e.visit.Storable takes ∧ e.visit.Fresh metrics := by
  obtain ⟨t, ht, hm⟩ := route_forwarded hid hurl hdep h
  have hgrown : ∀ row, metrics ≠ metrics ++ [row] := fun row h => by simp at h
  have hrecord : e.record s known takes metrics =
      match storedId e.visit.predictionId with
      | none => metrics
      | some predictionId => postMetric known takes e.now id
          ⟨t.version, e.latencyMs.1, (routePredict s e.visit).1.statusCode, e.visit.prediction,
            predictionId, e.latencyMs.2⟩ metrics := by
    unfold Forwarding.record
    rw [hm, List.foldl_cons, List.foldl_nil, payload_eq]
    cases storedId e.visit.predictionId <;> rfl
  unfold Forwarding.Stored Visit.Storable
  rw [hrecord]
  cases hstored : storedId e.visit.predictionId with
  | none => exact iff_of_false (fun ⟨row, h, _⟩ => hgrown row h) (fun ⟨⟨_, h, _⟩, _⟩ => by cases h)
  | some x =>
      have hkey := storedId_map hstored
      have hfresh : e.visit.Fresh metrics ↔ _ := fresh_iff hstored
      rcases postMetric_cases known takes metrics id e.now
        ⟨t.version, e.latencyMs.1, (routePredict s e.visit).1.statusCode, e.visit.prediction, x,
          e.latencyMs.2⟩ with ⟨hadded, _, htakes, hnew⟩ | ⟨hsame, hwhy⟩
      · refine iff_of_true ⟨_, hadded, ?_⟩ ⟨⟨x, rfl, htakes⟩, hfresh.mpr hnew⟩
        refine ⟨rfl, ?_, rfl, rfl, hkey⟩
        unfold Visit.pickedVersion
        rw [ht]
        rfl
      · refine iff_of_false (fun ⟨row, h, _⟩ => hgrown row (hsame.symm.trans h)) ?_
        rintro ⟨⟨y, hy, htakes⟩, hfresh'⟩
        cases hy
        obtain ⟨z, hz, r, hr, hrz⟩ := hwhy hknown htakes
        exact hfresh.mp hfresh' z hz r hr hrz

/-- What leaves its own row has forwarded: the row has the client's status. -/
theorem stored_forwards (hid : id ≠ "") (hurl : s.hasControlPlane = true)
    (hdep : e.visit.config.deploymentId = some id) (h : e.Stored s known takes metrics id) :
    e.visit.Forwards s := by
  obtain ⟨row, hrow, htells⟩ := h
  have hgrown : metrics ≠ metrics ++ [row] := fun h => by simp at h
  unfold Forwarding.record at hrow
  rcases route_cases s e.visit with hnone | ⟨t, n, body, value, ht, hk, hprobe, hpredict, hbody, hroute⟩
  · rw [hnone] at hrow
    exact absurd hrow hgrown
  · refine (counted_iff hid hurl hdep).mp ⟨t, _, ht, by rw [hroute, metricsOf_deployment hid hurl hdep],
      rfl, rfl, ?_⟩
    rw [hroute, metricsOf_deployment hid hurl hdep, List.foldl_cons, List.foldl_nil, payload_eq] at hrow
    cases hstored : storedId (asStr (memberOf "prediction_id" (routedTo t.version value))) with
    | none =>
        rw [hstored] at hrow
        exact absurd hrow hgrown
    | some x =>
        rw [hstored] at hrow
        simp only [Option.map_some] at hrow
        rcases postMetric_cases known takes metrics id e.now
          ⟨t.version, e.latencyMs.1, n, asInt (memberOf "prediction" (routedTo t.version value)), x,
            e.latencyMs.2⟩ with ⟨hadded, _⟩ | ⟨hsame, _⟩
        · have hlast := List.append_cancel_left (hadded.symm.trans hrow)
          have hn : (n : Int) = row.statusCode := congrArg MetricRow.statusCode (List.head_eq_of_cons_eq hlast)
          exact_mod_cast hn.trans htells.statusCode
        · exact absurd (hsame.symm.trans hrow) hgrown

/-- **Which requests leave a row with the client's status.** -/
theorem stored_iff (hid : id ≠ "") (hurl : s.hasControlPlane = true) (hknown : known id = true)
    (hdep : e.visit.config.deploymentId = some id) :
    e.Stored s known takes metrics id ↔
      e.visit.Forwards s ∧ e.visit.Storable takes ∧ e.visit.Fresh metrics := by
  constructor
  · intro h
    have hforwards := stored_forwards hid hurl hdep h
    exact ⟨hforwards, (stored_forwarded hid hurl hknown hdep hforwards).mp h⟩
  · rintro ⟨hforwards, h⟩
    exact (stored_forwarded hid hurl hknown hdep hforwards).mpr h

/-- **A run of such requests leaves a row for each**, in the order in which the metrics arrive. -/
theorem recorded_rows (hid : id ≠ "") (hurl : s.hasControlPlane = true) (hknown : known id = true) :
    ∀ (run : List Forwarding) (metrics : List MetricRow),
      (∀ e ∈ run, e.visit.config.deploymentId = some id ∧ e.visit.Forwards s ∧
        e.visit.Storable takes ∧ e.visit.Fresh metrics) →
      (run.filterMap fun e => e.visit.predictionId).Nodup →
      ∃ rows, recorded s known takes metrics run = metrics ++ rows ∧ List.Forall₂ (Tells s id) run rows
  | [], metrics, _, _ => ⟨[], (List.append_nil metrics).symm, .nil⟩
  | e :: run, metrics, hrun, hnodup => by
      obtain ⟨hdep, hforwards, hstorable, hfresh⟩ := hrun e List.mem_cons_self
      have hstored : e.Stored s known takes metrics id :=
        (stored_iff hid hurl hknown hdep).mpr ⟨hforwards, hstorable, hfresh⟩
      obtain ⟨row, hrow, htells⟩ := hstored
      -- the ids that follow are not the id of this row
      have hlater : ∀ e' ∈ run, e'.visit.Fresh (metrics ++ [row]) := by
        intro e' he' r hr x hx hid'
        rcases List.mem_append.mp hr with hr | hr
        · exact (hrun e' (List.mem_cons_of_mem e he')).2.2.2 r hr x hx hid'
        · rw [List.mem_singleton.mp hr] at hx
          have hsame : e.visit.predictionId = some (.ofString x) := by
            rw [← htells.predictionId, Option.mem_def.mp hx]
            rfl
          rw [List.filterMap_cons, hsame] at hnodup
          exact (List.nodup_cons.mp hnodup).1 (List.mem_filterMap.mpr ⟨e', he', hid'⟩)
      have hrest : (run.filterMap fun e => e.visit.predictionId).Nodup := by
        rw [List.filterMap_cons] at hnodup
        cases hp : e.visit.predictionId with
        | none => rwa [hp] at hnodup
        | some x =>
            rw [hp] at hnodup
            exact (List.nodup_cons.mp hnodup).2
      obtain ⟨rows, hrows, hall⟩ := recorded_rows hid hurl hknown run (metrics ++ [row])
        (fun e' he' =>
          have h := hrun e' (List.mem_cons_of_mem e he')
          ⟨h.1, h.2.1, h.2.2.1, hlater e' he'⟩) hrest
      refine ⟨row :: rows, ?_, .cons htells hall⟩
      show recorded s known takes (e.record s known takes metrics) run = _
      rw [hrow, hrows, List.append_assoc]
      rfl

/-- The rows of a version are the requests that picked it, with the status the clients saw. -/
theorem tells_statusCodes {run : List Forwarding} {rows : List MetricRow} (version : String) (w : Window)
    (h : List.Forall₂ (Tells s id) run rows) :
    (rows.filter fun r => decide (r.deploymentId = id) && decide (r.modelVersion = version) &&
        w.contains r.createdAt).map (fun r => r.statusCode.toNat) =
      (run.filter fun e => decide (e.visit.pickedVersion = some version) && w.contains e.now).map
        fun e => (routePredict s e.visit).1.statusCode := by
  induction h with
  | nil => rfl
  | @cons e row run rows htells _ ih =>
      have hpicked : decide (e.visit.pickedVersion = some version) =
          decide (row.modelVersion = version) := by
        rw [htells.version, decide_eq_decide]
        exact Option.some_inj
      rw [List.filter_cons, List.filter_cons, hpicked, ← htells.createdAt]
      simp only [htells.deploymentId, decide_true, Bool.true_and]
      split
      · rw [List.map_cons, List.map_cons, ih, htells.statusCode, Int.toNat_natCast]
      · exact ih

/-- The error rate of a summary is that of the rows in its window. -/
theorem versionSummary_errorRate (metrics : List MetricRow)
    (labels : Table GroundTruthLabel.predictionId) (id version : String) (w : Window) :
    (versionSummary metrics labels id version w).errorRate =
      errorRate ((metrics.filter fun r => decide (r.deploymentId = id) &&
        decide (r.modelVersion = version) && w.contains r.createdAt).map fun r =>
          r.statusCode.toNat) := by
  show errorRate ((joinedRows metrics labels id version w).map _) = _
  unfold joinedRows
  rw [List.map_map]
  rfl

end Storing

/-! ## 3. Every request, every run -/

/-- **Which canary failures are counted.** Under a config with a deployment that the control plane
    knows: a request has exactly one metric, for the picked version and with the client's status, if and
    only if the router knows where the version runs, found it ready, and got an answer of /predict that
    can be passed on; the metric leaves its row if and only if, besides, the answer's values can be
    stored and its `prediction_id` is new; and over a run of such requests, whose ids are pairwise
    different, the error rate that the control plane computes for a version is the one the clients saw. -/
theorem predict_counted (s : RouterSettings) (known : String → Bool)
    (takes : Option Int → Option String → Bool) (id : String) (hid : id ≠ "")
    (hurl : s.hasControlPlane = true) (hknown : known id = true) :
    (∀ v : Visit, v.config.deploymentId = some id → (v.Counted s id ↔ v.Forwards s)) ∧
    (∀ (metrics : List MetricRow) (e : Forwarding), e.visit.config.deploymentId = some id →
      (e.Stored s known takes metrics id ↔
        e.visit.Forwards s ∧ e.visit.Storable takes ∧ e.visit.Fresh metrics)) ∧
    ∀ (metrics : List MetricRow) (labels : Table GroundTruthLabel.predictionId) (run : List Forwarding)
      (version : String) (w : Window), (∀ r ∈ metrics, r.deploymentId ≠ id) →
      (∀ e ∈ run, e.visit.config.deploymentId = some id ∧ e.visit.Forwards s ∧
        e.visit.Storable takes ∧ e.visit.Fresh metrics) →
      (run.filterMap fun e => e.visit.predictionId).Nodup →
        (versionSummary (recorded s known takes metrics run) labels id version w).errorRate =
          clientErrorRate s run version w := by
  refine ⟨fun v hdep => counted_iff hid hurl hdep,
    fun metrics e hdep => stored_iff hid hurl hknown hdep, ?_⟩
  intro metrics labels run version w hothers hrun hnodup
  obtain ⟨rows, hrows, htells⟩ := recorded_rows hid hurl hknown run metrics hrun hnodup
  have hnone : metrics.filter (fun r => decide (r.deploymentId = id) &&
      decide (r.modelVersion = version) && w.contains r.createdAt) = [] := by
    rw [List.filter_eq_nil_iff]
    intro r hr
    simp [hothers r hr]
  rw [versionSummary_errorRate, hrows, List.filter_append, hnone, List.nil_append,
    tells_statusCodes version w htells]
  rfl

/-- A prediction the canary makes, and one at which it fails. -/
def sampleAnswers : List Forwarding :=
  [⟨sampleVisit (.answered 200 (.json (.obj [(.ofString "prediction", .int 1),
      (.ofString "prediction_id", .str (.ofString "p1"))]))), ⟨14, by decide⟩, 1⟩,
    ⟨sampleVisit (.answered 500 (.json (.obj [(.ofString "prediction_id",
      .str (.ofString "p2"))]))), ⟨30, by decide⟩, 2⟩]

/-- Both are counted, so half of the canary's requests failed. -/
theorem predict_counted_sample :
    let takes := fun (_ : Option Int) (_ : Option String) => true
    (∀ e ∈ sampleAnswers, e.visit.Counted sampleRouter "d1") ∧
    (versionSummary (recorded sampleRouter (· = "d1") takes [] sampleAnswers) (.empty _) "d1" "v2"
      ⟨2, 300, 0⟩).errorRate = clientErrorRate sampleRouter sampleAnswers "v2" ⟨2, 300, 0⟩ ∧
    clientErrorRate sampleRouter sampleAnswers "v2" ⟨2, 300, 0⟩ = some (1 / 2) := by
  intro takes
  obtain ⟨hiff, _, hrate⟩ := predict_counted sampleRouter (· = "d1") takes "d1" (by decide) (by decide)
    (by decide)
  have hchosen : ∀ predict, chooseTarget (sampleVisit predict).config (sampleVisit predict).draw =
      some ⟨"v2", 1⟩ := fun _ => rfl
  have hknown : sampleRouter.Knows "v2" := by decide +kernel
  have hall : ∀ e ∈ sampleAnswers, e.visit.config.deploymentId = some "d1" ∧
      e.visit.Forwards sampleRouter ∧ e.visit.Storable takes ∧ e.visit.Fresh [] := by
    intro e he
    simp only [sampleAnswers, List.mem_cons, List.not_mem_nil, or_false] at he
    rcases he with rfl | rfl
    · exact ⟨rfl, ⟨⟨_, hchosen _, hknown⟩, rfl, 200, _, rfl, Or.inl (by decide +kernel)⟩,
        ⟨some "p1", by decide +kernel, rfl⟩, fun r hr => (List.not_mem_nil hr).elim⟩
    · exact ⟨rfl, ⟨⟨_, hchosen _, hknown⟩, rfl, 500, _, rfl, Or.inr rfl⟩,
        ⟨some "p2", by decide +kernel, rfl⟩, fun r hr => (List.not_mem_nil hr).elim⟩
  exact ⟨fun e he => (hiff e.visit (hall e he).1).mpr (hall e he).2.1,
    hrate [] (.empty _) sampleAnswers "v2" ⟨2, 300, 0⟩ (fun r hr => (List.not_mem_nil hr).elim) hall
      (by decide +kernel), by decide +kernel⟩

/-- **A canary that times out is not counted.** -/
theorem predict_uncounted :
    ¬∀ (s : RouterSettings) (id : String) (v : Visit), id ≠ "" → s.hasControlPlane = true →
      v.config.deploymentId = some id → v.Counted s id := by
  intro h
  obtain ⟨_, m, _, hm, _⟩ := h sampleRouter "d1" (sampleVisit (.requestError "timed out"))
    (by decide) (by decide) rfl
  have hnone : (routePredict sampleRouter (sampleVisit (.requestError "timed out"))).2 = [] := rfl
  rw [hnone] at hm
  cases hm

/-- Nor is a failure that comes with the `prediction_id` of a success. -/
example :
    let answers := [200, 500].map fun n => Forwarding.mk (sampleVisit (.answered n (.json (.obj
      [(.ofString "prediction_id", .str (.ofString "p1"))])))) ⟨14, by decide⟩ n
    (recorded sampleRouter (· = "d1") (fun _ _ => true) [] answers).map MetricRow.statusCode = [200] ∧
      answers.map (fun e => (routePredict sampleRouter e.visit).1.statusCode) = [200, 500] := by
  decide +kernel

end ModelOps
