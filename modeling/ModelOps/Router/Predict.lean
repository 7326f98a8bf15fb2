/-
  File:      ModelOps/Router/Predict.lean
  Subject:   POST /router/predict and the metric it emits (`route_predict` of app/router/main.py,
             app/router/client.py, app/router/metrics.py), and the error rate computed from the
             metrics (`compute_version_summary` of app/control_plane/metrics_service.py).

  A `Visit` is one request: the config it read, the number `random.choices` drew, and what the picked
  upstream did. `routePredict` is the answer to the client with the metrics that were emitted; where
  an exception leaves the endpoint the client gets a 500.

  * **`counted_iff`** -- the metric is emitted, with the client's status, exactly for the visits whose
    upstream was found ready and answered /predict with something that can be passed on. What becomes
    of the metric is Router/Counting.lean.
-/
import ModelOps.Lib.Json
import ModelOps.Router.Config

namespace ModelOps

open Python

/-! ## 1. The draw -/

/-- `random.choices(.., k=1)`: the first target whose cumulative weight exceeds `x`, and the last one
    if none before it does. -/
def pick (t : TargetWeight) : List TargetWeight → (cumulative x : ℚ) → TargetWeight
  | [], _, _ => t
  | t' :: ts, cumulative, x =>
      if x < cumulative + t.weight then t else pick t' ts (cumulative + t.weight) x

theorem pick_mem (t : TargetWeight) (ts : List TargetWeight) (cumulative x : ℚ) :
    pick t ts cumulative x ∈ t :: ts := by
  induction ts generalizing t cumulative with
  | nil => exact List.mem_singleton.mpr rfl
  | cons t' ts ih =>
      unfold pick
      split
      · exact List.mem_cons_self
      · exact List.mem_cons_of_mem _ (ih t' _)

/-- `choose_target`, where `random()` returned `draw`. -/
def chooseTarget (config : RouterConfig) (draw : ℚ) : Option TargetWeight :=
  match config.targets with
  | [] => none
  | t :: ts => some (pick t ts 0 (draw * (config.targets.map TargetWeight.weight).sum))

/-- A config always has a target to choose. -/
theorem chooseTarget_some (config : RouterConfig) (draw : ℚ) :
    ∃ t ∈ config.targets, chooseTarget config draw = some t := by
  unfold chooseTarget
  cases h : config.targets with
  | nil => exact absurd h config.valid.nonempty
  | cons t ts => exact ⟨_, pick_mem t ts _ _, rfl⟩

/-! ## 2. The upstream -/

/-- How the readiness probe ends. -/
inductive Probe where
  | answered (statusCode : Nat)
  /-- `httpx.RequestError`: refused, unreachable or timed out -/
  | requestError
  /-- any other exception -/
  | raised
  deriving DecidableEq

/-- The body of an answer, under `response.json()`. -/
inductive Body where
  | json (value : Json)
  /-- a ValueError: the text of the answer -/
  | invalid (text : Text)
  /-- any other exception -/
  | raised

/-- How the forwarded /predict ends. -/
inductive Forwarded where
  | answered (statusCode : Nat) (body : Body)
  | requestError (reason : String)
  | raised

/-- One request, and what the picked upstream did. -/
structure Visit where
  config : RouterConfig
  draw : ℚ
  probe : Probe
  predict : Forwarded

/-! ## 3. The endpoint -/

/-- The answer to the client. -/
inductive Response where
  | json (statusCode : Nat) (content : Json)
  /-- `HTTPException` -/
  | refused (statusCode : Nat) (detail : String)
  /-- an exception left the endpoint -/
  | internalError

def Response.statusCode : Response → Nat
  | .json n _ => n
  | .refused n _ => n
  | .internalError => 500

/-- What `send_metric` posts. -/
structure Metric where
  deploymentId : String
  modelVersion : String
  statusCode : Nat
  prediction : Option Int
  predictionId : Option Text

/-- `check_ready`; `none` where the probe raised. -/
def Probe.ready : Probe → Option Bool
  | .answered n => some (decide (n = 200))
  | .requestError => some false
  | .raised => none

/-- `response.json()`, or the text of the answer under `detail`. -/
def Body.decoded : Body → Option Json
  | .json value => some value
  | .invalid text => some (.obj [(.ofString "detail", .str text)])
  | .raised => none

/-- `body.setdefault("routed_to", version)`, if it is a dict. -/
def routedTo (version : String) : Json → Json
  | .obj members => .obj (setDefault members (.ofString "routed_to") (.str (.ofString version)))
  | body => body

/-- `body.get(key)`, if it is a dict. -/
def memberOf (key : String) : Json → Option Json
  | .obj members => members.lookup (.ofString key)
  | _ => none

/-- `prediction if isinstance(prediction, int) else None`; a bool is an int. -/
def asInt : Option Json → Option Int
  | some (.int n) => some n
  | some (.bool b) => some (if b then 1 else 0)
  | _ => none

/-- `prediction_id if isinstance(prediction_id, str) else None`. -/
def asStr : Option Json → Option Text
  | some (.str t) => some t
  | _ => none

/-- `_emit_metric`. -/
def emitMetric (s : RouterSettings) (deploymentId version : String) (statusCode : Nat)
    (prediction predictionId : Option Json) : List Metric :=
  if s.hasControlPlane then
    [⟨deploymentId, version, statusCode, asInt prediction, asStr predictionId⟩]
  else []

/-- `if config.deployment_id:`, the metric of an answer. -/
def metricsOf (s : RouterSettings) (config : RouterConfig) (version : String) (statusCode : Nat)
    (body : Json) : List Metric :=
  match config.deploymentId with
  | none => []
  | some id =>
      if id = "" then []
      else emitMetric s id version statusCode (memberOf "prediction" body)
        (memberOf "prediction_id" body)

/-- `JSONResponse(..)`: rendering is the last step, after the metric. -/
def render (statusCode : Nat) (body : Json) : Response :=
  if body.renders then .json statusCode body else .internalError

def routePredict (s : RouterSettings) (v : Visit) : Response × List Metric :=
  match chooseTarget v.config v.draw with
  | none => (.internalError, [])
  | some target =>
      let version := target.version
      match s.resolveBaseUrl version with
      | none =>
          (.refused 400 (s!"No host:port mapping for version '{version}' " ++
            "(router doesn't know where it runs)"), [])
      | some baseUrl =>
          match v.probe.ready with
          | none => (.internalError, [])
          | some false => (.refused 503 s!"Target '{version}' is not ready", [])
          | some true =>
              match v.predict with
              | .raised => (.internalError, [])
              | .requestError reason =>
                  (.refused 503 s!"{version} ({baseUrl}) unreachable: {reason}", [])
              | .answered statusCode body =>
                  match body.decoded with
                  | none => (.internalError, [])
                  | some body =>
                      let body := routedTo version body
                      (render statusCode body, metricsOf s v.config version statusCode body)

/-! ## 4. The error rate -/

/-- A recorded metric. -/
structure PredictionMetric extends Metric where
  createdAt : Time

/-- The fields of `MetricsSummary` that tell how often a version failed. -/
structure MetricsSummary where
  version : String
  sampleCount : Nat
  errorRate : Option ℚ

/-- The share of the status codes from 400 on. -/
def errorRate (statusCodes : List Nat) : Option ℚ :=
  if statusCodes = [] then none
  else some ((statusCodes.countP fun n => decide (400 ≤ n)) / statusCodes.length)

/-- A window of time that ends `offset` before `now`, in seconds. -/
structure Window where
  now : Time
  windowSeconds : Nat
  windowEndOffsetSeconds : Nat

def Window.contains (w : Window) (t : Time) : Bool :=
  decide (t + w.windowEndOffsetSeconds * 10 ^ 6 ≤ w.now) &&
    decide (w.now ≤ t + w.windowEndOffsetSeconds * 10 ^ 6 + w.windowSeconds * 10 ^ 6)

/-- `compute_version_summary`, as far as it counts failures. -/
def computeVersionSummary (rows : List PredictionMetric) (deploymentId version : String)
    (w : Window) : MetricsSummary :=
  let rows := rows.filter fun r =>
    decide (r.deploymentId = deploymentId) && decide (r.modelVersion = version) &&
      w.contains r.createdAt
  ⟨version, rows.length, errorRate (rows.map fun r => r.statusCode)⟩

/-- The version the draw picked. -/
def Visit.pickedVersion (v : Visit) : Option String :=
  (chooseTarget v.config v.draw).map TargetWeight.version

/-! ## 5. Which failures are counted -/

/-- Exactly one metric, for the picked version of the deployment, with the client's status. -/
def Visit.Counted (s : RouterSettings) (id : String) (v : Visit) : Prop :=
  ∃ t m, chooseTarget v.config v.draw = some t ∧ (routePredict s v).2 = [m] ∧
    m.deploymentId = id ∧ m.modelVersion = t.version ∧
      m.statusCode = (routePredict s v).1.statusCode

/-- The body can be passed on, or it makes no difference to the status. -/
def Body.Passable (statusCode : Nat) : Body → Prop
  | .json value => value.renders = true ∨ statusCode = 500
  | .invalid text => text.encodable = true ∨ statusCode = 500
  | .raised => False

/-- The router knows where the picked version runs, found it ready, and got an answer of /predict that
    can be passed on. -/
def Visit.Forwards (s : RouterSettings) (v : Visit) : Prop :=
  (∃ t, chooseTarget v.config v.draw = some t ∧ s.Knows t.version) ∧
    v.probe = .answered 200 ∧
      ∃ statusCode body, v.predict = .answered statusCode body ∧ body.Passable statusCode

section Counting

variable {s : RouterSettings} {v : Visit} {id : String}

/-- Naming the version does not make a body unfit to be passed on. -/
theorem routedTo_renders (version : String) (body : Json) :
    (routedTo version body).renders = body.renders := by
  cases body with
  | obj members => exact renders_setDefault (encodable_ofString _) (encodable_ofString _)
  | _ => rfl

theorem render_statusCode (n : Nat) (body : Json) :
    (render n body).statusCode = n ↔ body.renders = true ∨ n = 500 := by
  unfold render
  cases body.renders with
  | true => simp [Response.statusCode]
  | false =>
      simp only [Bool.false_eq_true, if_false, false_or, Response.statusCode]
      exact eq_comm

theorem passable_iff {n : Nat} {body : Body} :
    body.Passable n ↔ ∃ value, body.decoded = some value ∧ (value.renders = true ∨ n = 500) := by
  cases body with
  | json value => simp [Body.Passable, Body.decoded]
  | invalid text =>
      have h : (Json.obj [(.ofString "detail", .str text)]).renders = text.encodable := by
        rw [renders_obj]
        simp [encodable_ofString, Json.renders]
      simp [Body.Passable, Body.decoded, h]
  | raised => simp [Body.Passable, Body.decoded]

/-- **What a request emits**: nothing, or the metric of an answer of /predict. -/
theorem route_cases (s : RouterSettings) (v : Visit) :
    (routePredict s v).2 = [] ∨
    ∃ t n body value, chooseTarget v.config v.draw = some t ∧ s.Knows t.version ∧
      v.probe = .answered 200 ∧ v.predict = .answered n body ∧ body.decoded = some value ∧
      routePredict s v = (render n (routedTo t.version value),
        metricsOf s v.config t.version n (routedTo t.version value)) := by
  unfold routePredict
  split
  · exact Or.inl rfl
  · rename_i t ht
    dsimp only
    split
    · exact Or.inl rfl
    · rename_i url hurl
      split
      · exact Or.inl rfl
      · exact Or.inl rfl
      · rename_i hready
        split
        · exact Or.inl rfl
        · exact Or.inl rfl
        · rename_i n body hpredict
          split
          · exact Or.inl rfl
          · rename_i value hbody
            right
            have hprobe : v.probe = .answered 200 := by
              cases hp : v.probe with
              | answered k =>
                  rw [hp] at hready
                  simp only [Probe.ready, Option.some.injEq, decide_eq_true_eq] at hready
                  rw [hready]
              | requestError =>
                  rw [hp] at hready
                  cases hready
              | raised =>
                  rw [hp] at hready
                  cases hready
            exact ⟨t, n, body, value, ht, Option.isSome_iff_exists.mpr ⟨url, hurl⟩, hprobe,
              hpredict, hbody, rfl⟩

/-- A request that was forwarded and answered. -/
theorem route_answered {t : TargetWeight} {n : Nat} {body : Body} {value : Json}
    (ht : chooseTarget v.config v.draw = some t) (hk : s.Knows t.version)
    (hprobe : v.probe = .answered 200) (hpredict : v.predict = .answered n body)
    (hbody : body.decoded = some value) :
    routePredict s v = (render n (routedTo t.version value),
      metricsOf s v.config t.version n (routedTo t.version value)) := by
  obtain ⟨url, hurl⟩ := Option.isSome_iff_exists.mp hk
  unfold routePredict
  simp only [ht, hurl, hprobe, Probe.ready, decide_true, hpredict, hbody]

/-- Under a deployment, an answer has one metric. -/
theorem metricsOf_deployment (hid : id ≠ "") (hurl : s.hasControlPlane = true)
    (hdep : v.config.deploymentId = some id) (version : String) (n : Nat) (body : Json) :
    metricsOf s v.config version n body =
      [⟨id, version, n, asInt (memberOf "prediction" body), asStr (memberOf "prediction_id" body)⟩] := by
  unfold metricsOf emitMetric
  simp only [hdep, if_neg hid, hurl, if_true]

/-- **A request is counted exactly if it forwards.** -/
theorem counted_iff (hid : id ≠ "") (hurl : s.hasControlPlane = true)
    (hdep : v.config.deploymentId = some id) : v.Counted s id ↔ v.Forwards s := by
  constructor
  · rintro ⟨t, m, ht, hm, _, _, hstatus⟩
    rcases route_cases s v with hnone | ⟨t', n, body, value, ht', hk, hprobe, hpredict, hbody, h⟩
    · rw [hnone] at hm
      cases hm
    · rw [h] at hm hstatus
      rw [metricsOf_deployment hid hurl hdep] at hm
      cases hm
      have hpass := (render_statusCode n _).mp hstatus.symm
      rw [routedTo_renders] at hpass
      exact ⟨⟨t', ht', hk⟩, hprobe, n, body, hpredict, passable_iff.mpr ⟨value, hbody, hpass⟩⟩
  · rintro ⟨⟨t, ht, hk⟩, hprobe, n, body, hpredict, hpass⟩
    obtain ⟨value, hbody, hpass⟩ := passable_iff.mp hpass
    have h := route_answered ht hk hprobe hpredict hbody
    rw [metricsOf_deployment hid hurl hdep] at h
    refine ⟨t, _, ht, by rw [h], rfl, rfl, ?_⟩
    rw [h]
    refine ((render_statusCode n _).mpr ?_).symm
    rw [routedTo_renders]
    exact hpass

end Counting

/-- A request that picks the canary of `d1`, which is ready. -/
def sampleVisit (predict : Forwarded) : Visit where
  config := { sampleConfig 2 with targets := [⟨"v2", 1⟩], valid := valid_single "v2" }
  draw := 0
  probe := .answered 200
  predict := predict

end ModelOps
