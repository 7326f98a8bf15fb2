/-
  File:      ModelOps/Serving/App.lean
  Subject:   A serving container: its settings, its model, and what it answers (app/serving/main.py,
             app/serving/config.py, app/serving/fault_injection.py, app/serving/schemas.py).

  The model is loaded once, when the app is made; a load that fails is reported by /ready instead. The
  faults it injects may be set while it runs, but not in production.

  * `ServingSettings` -- with its guard: in production, no fault is in force;
  * `ServingApp.handle`, `ServingApp.serve` -- the endpoints, and a run of requests;
  * `serve_settings` -- after a run, the faults of the last accepted PUT are in force;
  * **`container_serves`** -- a container started while its version is published is not ready for the
    whole of its life, or it serves exactly what is published, on rows of exactly its features.
-/
import ModelOps.Benchmarks.Scenario
import ModelOps.Registry.Publish

namespace ModelOps

open FileTree Python

/-! ## 1. Settings -/

/-- What the environment says. -/
structure ServingValues where
  modelName : Segment
  modelVersion : Segment
  artifactsDir : List String
  environment : String
  injected : FaultSetting

/-- `is_production`. -/
def ServingValues.isProduction (v : ServingValues) : Bool := decide (v.environment.toLower = "production")

structure ServingSettings extends ServingValues where
  guarded : toServingValues.isProduction = true → injected = .off

/-- `_disable_fault_injection_in_production`. -/
def ServingValues.settings (v : ServingValues) : ServingSettings :=
  if h : v.isProduction = true then { v with injected := .off, guarded := fun _ => rfl }
  else { v with guarded := fun h' => absurd h' h }

/-- `FaultInjectionIn`. -/
structure FaultInjectionIn where
  latencyMs : Int
  errorRate : ℚ
  latency_nonneg : 0 ≤ latencyMs
  rate_nonneg : 0 ≤ errorRate
  rate_le_one : errorRate ≤ 1

def FaultInjectionIn.setting (p : FaultInjectionIn) : FaultSetting := ⟨p.latencyMs, p.errorRate⟩

/-- `set_fault_injection`. -/
def ServingSettings.setFaultInjection (s : ServingSettings) (f : FaultSetting) : ServingSettings :=
  if h : s.isProduction = true then { s with injected := .off, guarded := fun _ => rfl }
  else { s with injected := f, guarded := fun h' => absurd h' h }

/-! ## 2. Requests -/

/-- `_feature_type`. -/
inductive FeatureType where
  | float
  | str
  | int
  deriving DecidableEq

def businessFeatureTypes : List (String × FeatureType) :=
  [("amount", .float), ("merchant_category", .str), ("transaction_hour", .int),
    ("device_risk_score", .float), ("customer_age_days", .int), ("previous_declines", .int),
    ("country_mismatch", .int), ("is_new_customer", .int)]

/-- `feature_0` and so on are numeric. -/
def featureType (name : String) : FeatureType := (businessFeatureTypes.lookup name).getD .float

/-- `metadata["features"]`, where it is a list of strings. -/
def featuresOf (metadata : Json) : Option (List String) :=
  match metadata with
  | .obj members =>
      match members.lookup (.ofString "features") with
      | some (.arr items) => items.mapM fun
          | .str t => t.decode
          | _ => none
      | _ => none
  | _ => none

/-- What a request brings; `none` is a body that FastAPI refuses. -/
inductive ServingRequest where
  | health
  | ready
  | getFaultInjection
  | putFaultInjection (payload : Option FaultInjectionIn)
  /-- with the `random()` that the request draws, and the id it is given -/
  | predict (payload : Option (List (String × Json))) (draw : ℚ) (predictionId : String)

inductive ServingDetail where
  /-- "Model not loaded: {load_error}" -/
  | notLoaded (e : LoadError)
  /-- "Fault injection is disabled in production" -/
  | disabledInProduction
  /-- "Injected fault (INJECTED_ERROR_RATE)" -/
  | injectedFault
  /-- `exc.errors()`: the fields that are missing or do not validate -/
  | invalid (fields : List String)
  | unprocessable
  /-- an exception of the pipeline -/
  | internal

structure PredictionResponse where
  predictionId : String
  prediction : Int
  fraudProbability : ℚ
  modelName : String
  modelVersion : String
  deriving DecidableEq

inductive ServingResponse where
  | health (modelName modelVersion : String)
  | ready (modelName modelVersion : String) (features : List String)
  | faultInjection (setting : FaultSetting) (environment : String)
  | prediction (response : PredictionResponse)
  | failed (statusCode : Nat) (detail : ServingDetail)

/-- What is answered, and for how long the request slept before. -/
structure ServingAnswer where
  response : ServingResponse
  sleptMs : Int := 0

/-! ## 3. The app -/

/-- `pydantic` and the pipeline: a value of a type, and what is predicted for a row of columns. -/
structure Predictor (π ν : Type) where
  validate : FeatureType → Json → Option ν
  predict : π → List (String × ν) → Option (Int × ℚ)

/-- What `create_app` closes over. -/
structure ServingApp (π : Type) where
  settings : ServingSettings
  loaded : Except LoadError (LoadedModel π × List String)

section App

variable {π ν : Type} (p : Predictor π ν)

/-- `create_app`, from what `load_model` has come to; metadata without features make it raise. -/
def createApp (settings : ServingSettings) (loaded : Except LoadError (LoadedModel π)) :
    Option (ServingApp π) :=
  match loaded with
  | .error e => some ⟨settings, .error e⟩
  | .ok m => (featuresOf m.metadata).map fun features => ⟨settings, .ok (m, features)⟩

/-- `apply_fault_injection`: for how long it sleeps, and whether it raises. -/
def applyFaultInjection (v : ServingValues) (draw : ℚ) : Int × Bool :=
  if v.isProduction then (0, false)
  else
    (if 0 < v.injected.latencyMs then v.injected.latencyMs else 0,
      decide (0 < v.injected.errorRate) && decide (draw < v.injected.errorRate))

/-- A field of the request model: its name and what validation makes of the payload's value. -/
def validateField (payload : List (String × Json)) (name : String) : Option (String × ν) :=
  ((payload.lookup name).bind (p.validate (featureType name))).map fun v => (name, v)

/-- `pd.DataFrame([validated.model_dump()])[features]`: the columns in the order of the features; a
    feature named twice is one field, and two columns. -/
def rowOf (payload : List (String × Json)) (features : List String) :
    Except (List String) (List (String × ν)) :=
  match features.mapM (validateField p payload) with
  | some row => .ok row
  | none => .error (features.dedup.filter fun name => (validateField p payload name).isNone)

/-- `predict`, where the model is loaded. -/
def predictLoaded (v : ServingValues) (m : LoadedModel π) (features : List String)
    (payload : List (String × Json)) (draw : ℚ) (predictionId : String) : ServingAnswer :=
  match rowOf p payload features with
  | .error fields => { response := .failed 422 (.invalid fields) }
  | .ok row =>
      let (sleptMs, raised) := applyFaultInjection v draw
      if raised then { response := .failed 500 .injectedFault, sleptMs := sleptMs }
      else
        match p.predict m.pipeline row with
        | some (prediction, probability) =>
            { response := .prediction
                ⟨predictionId, prediction, probability, v.modelName.text, v.modelVersion.text⟩
              sleptMs := sleptMs }
        | none => { response := .failed 500 .internal, sleptMs := sleptMs }

/-- One request. -/
def ServingApp.handle (app : ServingApp π) : ServingRequest → ServingAnswer × ServingApp π
  | .health => (⟨.health app.settings.modelName.text app.settings.modelVersion.text, 0⟩, app)
  | .ready =>
      match app.loaded with
      | .error e => (⟨.failed 503 (.notLoaded e), 0⟩, app)
      | .ok (_, features) =>
          (⟨.ready app.settings.modelName.text app.settings.modelVersion.text features, 0⟩, app)
  | .getFaultInjection => (⟨.faultInjection app.settings.injected app.settings.environment, 0⟩, app)
  | .putFaultInjection none => (⟨.failed 422 .unprocessable, 0⟩, app)
  | .putFaultInjection (some payload) =>
      if app.settings.isProduction then (⟨.failed 403 .disabledInProduction, 0⟩, app)
      else
        let settings := app.settings.setFaultInjection payload.setting
        (⟨.faultInjection settings.injected settings.environment, 0⟩, { app with settings := settings })
  | .predict none _ _ => (⟨.failed 422 .unprocessable, 0⟩, app)
  | .predict (some payload) draw predictionId =>
      match app.loaded with
      | .error e => (⟨.failed 503 (.notLoaded e), 0⟩, app)
      | .ok (m, features) =>
          (predictLoaded p app.settings.toServingValues m features payload draw predictionId, app)

/-- The answers to requests one after the other, and the app behind them. -/
def ServingApp.serve (app : ServingApp π) : List ServingRequest → List ServingAnswer × ServingApp π
  | [] => ([], app)
  | r :: rs =>
      let (answer, app) := app.handle p r
      let (answers, app) := ServingApp.serve app rs
      (answer :: answers, app)

end App

/-! ## 4. A run of requests -/

/-- The faults a PUT asks for. -/
def ServingRequest.asks : ServingRequest → Option FaultSetting
  | .putFaultInjection (some payload) => some payload.setting
  | _ => none

/-- The settings after requests: the faults of the last PUT are in force, in production none. -/
def ServingValues.behind (v : ServingValues) (requests : List ServingRequest) : ServingValues :=
  { v with injected :=
      if v.isProduction then .off else requests.foldl (fun f r => r.asks.getD f) v.injected }

section Runs

variable {π ν : Type} {p : Predictor π ν} {app : ServingApp π} {m : LoadedModel π}
  {features : List String} {e : LoadError}

theorem behind_idle (s : ServingSettings) {requests : List ServingRequest}
    (h : ∀ r ∈ requests, r.asks = none) : s.toServingValues.behind requests = s.toServingValues := by
  have hfold : ∀ f, requests.foldl (fun f r => r.asks.getD f) f = f := by
    intro f
    induction requests with
    | nil => rfl
    | cons r rs ih =>
        rw [List.foldl_cons, h r List.mem_cons_self]
        exact ih fun r' hr' => h r' (List.mem_cons_of_mem r hr')
  unfold ServingValues.behind
  rw [hfold]
  split
  · rename_i hproduction
    rw [← s.guarded hproduction]
  · rfl

theorem behind_append (v : ServingValues) (rs rs' : List ServingRequest) :
    (v.behind rs).behind rs' = v.behind (rs ++ rs') := by
  unfold ServingValues.behind ServingValues.isProduction
  rw [List.foldl_append]
  cases decide (v.environment.toLower = "production") <;> rfl

theorem settings_values (v : ServingValues) : v.settings.toServingValues = v.behind [] := by
  unfold ServingValues.settings ServingValues.behind
  split <;> rfl

theorem setFaultInjection_values (s : ServingSettings) (f : FaultSetting)
    (h : s.isProduction = false) :
    (s.setFaultInjection f).toServingValues = { s.toServingValues with injected := f } := by
  unfold ServingSettings.setFaultInjection
  rw [dif_neg (by rw [h]; decide)]

/-- A request leaves the model alone, and the settings but for what it asks for. -/
theorem handle_step (app : ServingApp π) (r : ServingRequest) :
    (app.handle p r).2.loaded = app.loaded ∧
      (app.handle p r).2.settings.toServingValues = app.settings.toServingValues.behind [r] := by
  have hidle : r.asks = none → app.settings.toServingValues.behind [r] = app.settings.toServingValues :=
    fun h => behind_idle app.settings (by simpa using h)
  unfold ServingApp.handle
  cases r with
  | health => exact ⟨rfl, (hidle rfl).symm⟩
  | ready =>
      rw [hidle rfl]
      dsimp only
      split <;> exact ⟨rfl, rfl⟩
  | getFaultInjection => exact ⟨rfl, (hidle rfl).symm⟩
  | putFaultInjection payload =>
      cases payload with
      | none => exact ⟨rfl, (hidle rfl).symm⟩
      | some payload =>
          dsimp only
          cases hproduction : app.settings.isProduction with
          | true =>
              refine ⟨rfl, ?_⟩
              rw [if_pos rfl]
              unfold ServingValues.behind
              rw [if_pos hproduction, ← app.settings.guarded hproduction]
          | false =>
              rw [if_neg (by decide)]
              refine ⟨rfl, (setFaultInjection_values _ _ hproduction).trans ?_⟩
              unfold ServingValues.behind
              rw [if_neg (by rw [hproduction]; decide)]
              rfl
  | predict payload draw predictionId =>
      rw [hidle rfl]
      cases payload with
      | none => exact ⟨rfl, rfl⟩
      | some payload =>
          dsimp only
          split <;> exact ⟨rfl, rfl⟩

/-- **A run of requests** leaves the model alone, and the faults of the last PUT in force. -/
theorem serve_settings (app : ServingApp π) (requests : List ServingRequest) :
    (app.serve p requests).2.loaded = app.loaded ∧
      (app.serve p requests).2.settings.toServingValues = app.settings.toServingValues.behind requests := by
  induction requests generalizing app with
  | nil => exact ⟨rfl, (behind_idle app.settings fun _ h => absurd h List.not_mem_nil).symm⟩
  | cons r rs ih =>
      obtain ⟨hloaded, hvalues⟩ := handle_step app r
      obtain ⟨hloaded', hvalues'⟩ := ih (app.handle p r).2
      rw [hloaded] at hloaded'
      rw [hvalues, behind_append] at hvalues'
      exact ⟨hloaded', hvalues'⟩

/-- The columns of a row are the features. -/
theorem rowOf_columns {payload : List (String × Json)} {row : List (String × ν)}
    (h : rowOf p payload features = .ok row) : row.map Prod.fst = features := by
  have hcolumns : ∀ (features : List String) (row : List (String × ν)),
      features.mapM (validateField p payload) = some row → row.map Prod.fst = features := by
    intro features
    induction features with
    | nil =>
        intro row h
        cases h
        rfl
    | cons name names ih =>
        intro row h
        rw [List.mapM_cons] at h
        obtain ⟨field, hfield, h⟩ := Option.bind_eq_some_iff.mp h
        obtain ⟨fields, hfields, h⟩ := Option.bind_eq_some_iff.mp h
        cases h
        obtain ⟨v, _, rfl⟩ := Option.map_eq_some_iff.mp hfield
        rw [List.map_cons, ih fields hfields]
  unfold rowOf at h
  split at h
  · rename_i hrow
    cases h
    exact hcolumns _ _ hrow
  · cases h

/-- **In production no fault is injected.** -/
theorem handle_production (hproduction : app.settings.isProduction = true) (r : ServingRequest) :
    (app.handle p r).1.sleptMs = 0 ∧ (app.handle p r).1.response ≠ .failed 500 .injectedFault := by
  have hoff : ∀ draw, applyFaultInjection app.settings.toServingValues draw = (0, false) :=
    fun draw => if_pos hproduction
  unfold ServingApp.handle
  cases r with
  | health => exact ⟨rfl, nofun⟩
  | ready =>
      dsimp only
      split <;> exact ⟨rfl, nofun⟩
  | getFaultInjection => exact ⟨rfl, nofun⟩
  | putFaultInjection payload =>
      cases payload with
      | none => exact ⟨rfl, nofun⟩
      | some payload =>
          dsimp only
          rw [if_pos hproduction]
          exact ⟨rfl, nofun⟩
  | predict payload draw predictionId =>
      cases payload with
      | none => exact ⟨rfl, nofun⟩
      | some payload =>
          dsimp only
          split
          · exact ⟨rfl, nofun⟩
          · dsimp only
            unfold predictLoaded
            rw [hoff]
            split
            · exact ⟨rfl, nofun⟩
            · dsimp only
              rw [if_neg (by decide)]
              split <;> exact ⟨rfl, nofun⟩

end Runs

/-! ## 5. A container started during a publication -/

/-- **A container serves what is published, or nothing.** Whenever its load looks at the tree while its
    version is published for the first time, and whatever it is asked after that: it is not ready for
    the whole of its life, every prediction refused; or it is ready with the published features, and
    predicts by the published model, on rows of exactly these features, under the faults of the last
    PUT. In production, no fault is ever injected. -/
theorem container_serves {π ν : Type} (p : Predictor π ν) (loads : String → Except (Option String) Json)
    (unpickle : ByteArray → Option π) (root : Node ByteArray) (top : List Name)
    (modelName version : Name) (a : Artifact) (environment : String) (injected : FaultSetting)
    (hnew : root.content (top ++ [modelName, version] ++ [evaluationFile]) = none)
    (hwhole : ∀ n < a.evaluation.size, parse loads (a.evaluation.extract 0 n) = none)
    (looks : Nat → Nat) (hlooks : Monotone looks) (app : ServingApp π)
    (happ : createApp
      (ServingValues.mk (.ofName modelName) (.ofName version) (top.map Name.text) environment
        injected).settings
      (loadModel (fun i => published root (top ++ [modelName, version]) a (looks i)) loads
        (top.map Name.text) (.ofName modelName) (.ofName version) unpickle) = some app) :
    let values : ServingValues :=
      ⟨.ofName modelName, .ofName version, top.map Name.text, environment, injected⟩
    let now := fun before : List ServingRequest => (app.serve p before).2
    ((∃ e, ∀ before, ((now before).handle p .ready).1 = ⟨.failed 503 (.notLoaded e), 0⟩ ∧
        ∀ payload draw predictionId, ((now before).handle p (.predict (some payload) draw predictionId)).1 =
          ⟨.failed 503 (.notLoaded e), 0⟩) ∨
      ∃ loaded features, a.Gives loads unpickle loaded ∧ featuresOf loaded.metadata = some features ∧
        (∀ before, ((now before).handle p .ready).1 = ⟨.ready modelName.text version.text features, 0⟩ ∧
          ∀ payload draw predictionId,
            ((now before).handle p (.predict (some payload) draw predictionId)).1 =
              predictLoaded p (values.behind before) loaded features payload draw predictionId) ∧
        ∀ payload row, rowOf p payload features = .ok row → row.map Prod.fst = features) ∧
    (values.isProduction = true → ∀ before request,
      ((now before).handle p request).1.sleptMs = 0 ∧
        ((now before).handle p request).1.response ≠ .failed 500 .injectedFault) := by
  intro values now
  have hsettings : app.settings = values.settings := by
    unfold createApp at happ
    split at happ
    · cases happ
      rfl
    · obtain ⟨_, _, rfl⟩ := Option.map_eq_some_iff.mp happ
      rfl
  have hvalues : ∀ before, (now before).settings.toServingValues = values.behind before := by
    intro before
    rw [show (now before).settings.toServingValues = _ from (serve_settings app before).2, hsettings,
      settings_values, behind_append]
    rfl
  have hloaded : ∀ before, (now before).loaded = app.loaded := fun before => (serve_settings app before).1
  constructor
  · unfold createApp at happ
    split at happ
    · rename_i e _
      cases happ
      refine Or.inl ⟨e, fun before => ⟨?_, fun payload draw predictionId => ?_⟩⟩
      all_goals
        unfold ServingApp.handle
        dsimp only
        rw [hloaded]
    · rename_i loaded hload
      obtain ⟨features, hfeatures, rfl⟩ := Option.map_eq_some_iff.mp happ
      have hgives := (load_published loads unpickle root top modelName version a hnew hwhole looks
        hlooks).1 loaded hload
      refine Or.inr ⟨loaded, features, hgives, hfeatures, fun before => ⟨?_, ?_⟩, fun _ _ => rowOf_columns⟩
      · unfold ServingApp.handle
        dsimp only
        rw [hloaded, hvalues]
        rfl
      · intro payload draw predictionId
        unfold ServingApp.handle
        dsimp only
        rw [hloaded, hvalues]
  · intro hproduction before request
    refine handle_production ?_ request
    rw [hvalues]
    exact hproduction

/-- A number is a value, and the model of `n` bytes predicts `n`. -/
def samplePredictor : Predictor Nat Int where
  validate := fun
    | .float, .int n => some n
    | _, _ => none
  predict n _ := some (n, 1 / 2)

/-- Started behind the last step of the publication. -/
def sampleApp : ServingApp Nat where
  settings := (ServingValues.mk (.ofName fraudModelName) (.ofName versionName) ["artifacts"]
    "development" .off).settings
  loaded := .ok
    (⟨1, .obj [(.ofString "features", .arr [.str (.ofString "amount")])], .obj []⟩, ["amount"])

/-- Told to wait, it is ready, and predicts on rows of its only feature. -/
theorem container_serves_sample :
    let slow : List ServingRequest :=
      [.putFaultInjection (some ⟨40, 0, by decide, by decide +kernel, by decide +kernel⟩)]
    ((sampleApp.serve samplePredictor slow).2.handle samplePredictor .ready).1 =
        ⟨.ready "fraud-model" "v1" ["amount"], 0⟩ ∧
      ∀ payload row, rowOf samplePredictor payload ["amount"] = .ok row → row.map Prod.fst = ["amount"] := by
  intro slow
  have happ : createApp sampleApp.settings (loadModel (fun i => published (.dir [])
      [artifactsName, fraudModelName, versionName] sampleArtifact (33 + i)) sampleLoads ["artifacts"]
      (.ofName fraudModelName) (.ofName versionName) fun content => some content.size) =
        some sampleApp := rfl
  rcases (container_serves samplePredictor sampleLoads (fun content => some content.size) (.dir [])
    [artifactsName] fraudModelName versionName sampleArtifact "development" .off rfl
    sampleArtifact_whole (fun i => 33 + i) (fun _ _ h => Nat.add_le_add_left h 33) sampleApp happ).1 with
    ⟨e, hfailed⟩ | ⟨loaded, features, _, _, hserves, hcolumns⟩
  · cases (hfailed []).1
  · have hfeatures : features = ["amount"] := by
      have hready : ServingAnswer.mk (.ready sampleApp.settings.modelName.text
          sampleApp.settings.modelVersion.text ["amount"]) 0 = ⟨.ready "fraud-model" "v1" features, 0⟩ :=
        (hserves []).1
      injection hready with hready
      injection hready with _ _ hfeatures
      exact hfeatures.symm
    subst hfeatures
    exact ⟨(hserves slow).1, hcolumns⟩

end ModelOps
