/-
  File:      ModelOps/System/Startup.lean
  Subject:   The three ways a config gets into the router's store: settings, startup sync and PUT
             (`lifespan`, `_fetch_control_plane_allocation` and `put_config` of app/router/main.py).

  A PUT is refused where it names a version without a host; the startup sync takes whatever is a valid
  config. What pydantic reads of a body is a parameter, `readFields`; weights are finite.

  * `fetch_controlPlane` -- of the control plane's own answer the sync makes what System/Joint.lean says;
  * `installs_resolvable_iff` -- a sync admits what PUT admits exactly if the answer is admissible;
  * **`store_resolvable`** -- over any starts and puts, if every answer to a sync is admissible the
    router has a host for each target of its store, and no predict is refused for the want of one.
-/
import ModelOps.Lib.Http
import ModelOps.Router.Predict
import ModelOps.System.Joint
import ModelOps.ControlPlane.Reachability

namespace ModelOps

open Python Relational

/-! ## 1. The startup sync -/

/-- The fields of a `RouterConfig` before its validation. -/
structure RouterFields where
  modelName : String
  targets : List TargetWeight
  deploymentId : Option String := none
  revision : Int := 0
  deriving DecidableEq

def RouterFields.validate (f : RouterFields) : Except ConfigError RouterConfig :=
  RouterConfig.validate f.modelName f.targets f.deploymentId f.revision

/-- `_fetch_control_plane_allocation`: nothing after an HTTPError or a ValueError; `none` is any other
    exception. -/
def fetchAllocation (readFields : Json → Option RouterFields) (answer : Http.Answer Body) :
    Option (Option RouterConfig) :=
  match answer.checked with
  | none => some none
  | some .raised => none
  | some (.invalid _) => some none
  | some (.json value) =>
      match readFields value with
      | none => some none
      | some fields => some fields.validate.toOption

/-- The store when `lifespan` has yielded; `none` where the router does not come up. -/
def lifespan (s : RouterSettings) (readFields : Json → Option RouterFields)
    (answer : Http.Answer Body) : Option RouterConfig :=
  if s.hasControlPlane then
    (fetchAllocation readFields answer).map fun synced => synced.getD s.toRouterConfig
  else some s.toRouterConfig

/-! ## 2. The router over its lives -/

/-- A start, with what its sync is answered, or a PUT. -/
inductive RouterEvent where
  | start (answer : Http.Answer Body)
  | put (config : RouterConfig)

/-- The store after the event; there is none while the router is down. -/
def RouterEvent.apply (s : RouterSettings) (readFields : Json → Option RouterFields)
    (store : Option RouterConfig) : RouterEvent → Option RouterConfig
  | .start answer => lifespan s readFields answer
  | .put config => store.map fun current =>
      match putConfig s config current with
      | .ok config => config
      | .error _ => current

def storeAfter (s : RouterSettings) (readFields : Json → Option RouterFields)
    (events : List RouterEvent) : Option RouterConfig :=
  events.foldl (RouterEvent.apply s readFields) none

/-! ## 3. What a sync admits -/

/-- The router has a host for every target of the config. -/
def RouterSettings.Resolves (s : RouterSettings) (config : RouterConfig) : Prop :=
  ∀ t ∈ config.targets, s.Knows t.version

instance (s : RouterSettings) (config : RouterConfig) : Decidable (s.Resolves config) :=
  inferInstanceAs (Decidable (∀ _ ∈ _, _))

/-- The answer is a success and its body reads as fields of a valid config. -/
def Carries (readFields : Json → Option RouterFields) (answer : Http.Answer Body)
    (fields : RouterFields) : Prop :=
  ∃ statusCode value, answer = .answered statusCode (.json value) ∧
    Http.isSuccess statusCode = true ∧ readFields value = some fields ∧ ValidTargets fields.targets

/-- A valid config in the answer names no version without a host. -/
def Admissible (s : RouterSettings) (readFields : Json → Option RouterFields)
    (answer : Http.Answer Body) : Prop :=
  ∀ fields, Carries readFields answer fields → ∀ t ∈ fields.targets, s.Knows t.version

section Sync

variable {s : RouterSettings} {readFields : Json → Option RouterFields} {answer : Http.Answer Body}
  {config : RouterConfig} {fields : RouterFields}

theorem validate_eq_ok_iff : fields.validate = .ok config ↔
    ∃ h : ValidTargets fields.targets,
      config = ⟨fields.modelName, fields.targets, fields.deploymentId, fields.revision, h⟩ := by
  constructor
  · intro h
    obtain ⟨hmodel, htargets, hid, hrevision⟩ := validate_eq_ok h
    have hvalid : ValidTargets fields.targets := htargets ▸ config.valid
    exact ⟨hvalid, RouterConfig.ext hmodel htargets hid hrevision⟩
  · rintro ⟨h, rfl⟩
    exact validate_of_valid h

/-- **What a sync installs** is the valid config that the answer carries. -/
theorem fetch_eq_some : fetchAllocation readFields answer = some (some config) ↔
    ∃ fields, Carries readFields answer fields ∧ fields.validate = .ok config := by
  unfold fetchAllocation
  constructor
  · intro h
    split at h
    · cases h
    · cases h
    · cases h
    · rename_i value hbody
      split at h
      · cases h
      · rename_i fields hread
        injection h with h
        have hok : fields.validate = .ok config := by
          cases hv : fields.validate with
          | error e =>
              rw [hv] at h
              cases h
          | ok c =>
              rw [hv] at h
              cases h
              rfl
        obtain ⟨statusCode, hanswer, hs⟩ := Http.checked_eq_some.mp hbody
        obtain ⟨hvalid, _⟩ := validate_eq_ok_iff.mp hok
        exact ⟨fields, ⟨statusCode, value, hanswer, hs, hread, hvalid⟩, hok⟩
  · rintro ⟨fields, ⟨statusCode, value, hanswer, hs, hread, _⟩, hok⟩
    rw [Http.checked_eq_some.mpr ⟨statusCode, hanswer, hs⟩]
    simp only [hread, hok]
    rfl

/-- **A sync admits what PUT admits**, exactly if its answer is admissible. -/
theorem installs_resolvable_iff :
    (∀ config, fetchAllocation readFields answer = some (some config) → s.Resolves config) ↔
      Admissible s readFields answer := by
  constructor
  · intro h fields hcarries
    have hvalid : ValidTargets fields.targets := by
      obtain ⟨_, _, _, _, _, hvalid⟩ := hcarries
      exact hvalid
    obtain ⟨config, hconfig⟩ : ∃ config, fields.validate = .ok config :=
      ⟨_, validate_eq_ok_iff.mpr ⟨hvalid, rfl⟩⟩
    have hresolves := h config (fetch_eq_some.mpr ⟨fields, hcarries, hconfig⟩)
    obtain ⟨_, rfl⟩ := validate_eq_ok_iff.mp hconfig
    exact hresolves
  · intro h config hfetch
    obtain ⟨fields, hcarries, hok⟩ := fetch_eq_some.mp hfetch
    obtain ⟨_, rfl⟩ := validate_eq_ok_iff.mp hok
    exact h fields hcarries

/-- A config with hosts for all its targets serves every predict. -/
theorem predict_resolves {v : Visit} (h : s.Resolves v.config) (detail : String) :
    (routePredict s v).1 ≠ .refused 400 detail := by
  obtain ⟨t, ht, htarget⟩ := chooseTarget_some v.config v.draw
  obtain ⟨baseUrl, hurl⟩ := Option.isSome_iff_exists.mp (h t ht)
  unfold routePredict
  simp only [htarget, hurl]
  cases v.probe.ready with
  | none => exact fun h => by cases h
  | some ready =>
      cases ready with
      | false => exact fun h => by cases h
      | true =>
          cases v.predict with
          | raised => exact fun h => by cases h
          | requestError reason => exact fun h => by cases h
          | answered statusCode body =>
              dsimp only
              cases body.decoded with
              | none => exact fun h => by cases h
              | some value =>
                  dsimp only
                  unfold render
                  split <;> exact fun h => by cases h

end Sync

/-! ## 4. Every reachable store -/

section Run

variable {s : RouterSettings} {readFields : Json → Option RouterFields}

/-- A start leaves a store that resolves, if its answer is admissible. -/
theorem lifespan_resolves (hinitial : s.Resolves s.toRouterConfig) {answer : Http.Answer Body}
    (h : s.hasControlPlane = true → Admissible s readFields answer) {store : RouterConfig}
    (hup : lifespan s readFields answer = some store) : s.Resolves store := by
  unfold lifespan at hup
  by_cases hsync : s.hasControlPlane = true
  · rw [if_pos hsync] at hup
    obtain ⟨synced, hfetch, rfl⟩ := Option.map_eq_some_iff.mp hup
    cases synced with
    | none => exact hinitial
    | some config => exact installs_resolvable_iff.mpr (h hsync) config hfetch
  · rw [if_neg hsync] at hup
    cases hup
    exact hinitial

/-- A put leaves one, whatever it brings. -/
theorem put_resolves {config current : RouterConfig} (h : s.Resolves current) :
    s.Resolves (match putConfig s config current with
      | .ok config => config
      | .error _ => current) := by
  unfold putConfig
  cases hcheck : putCheck s config current with
  | error e => exact h
  | ok u => exact (putCheck_ok.mp hcheck).1

/-- The answer to a start's sync is admissible, where there is one. -/
def RouterEvent.Admissible (s : RouterSettings) (readFields : Json → Option RouterFields) :
    RouterEvent → Prop
  | .start answer => s.hasControlPlane = true → ModelOps.Admissible s readFields answer
  | .put _ => True

theorem apply_resolves (hinitial : s.Resolves s.toRouterConfig) {e : RouterEvent}
    (he : e.Admissible s readFields) {before : Option RouterConfig}
    (h : ∀ store ∈ before, s.Resolves store) :
    ∀ store ∈ e.apply s readFields before, s.Resolves store := by
  intro store hstore
  cases e with
  | start answer => exact lifespan_resolves hinitial he hstore
  | put config =>
      obtain ⟨current, hcurrent, rfl⟩ := Option.map_eq_some_iff.mp hstore
      exact put_resolves (h current hcurrent)

theorem stores_resolve (hinitial : s.Resolves s.toRouterConfig) (events : List RouterEvent)
    (h : ∀ e ∈ events, e.Admissible s readFields) :
    ∀ store ∈ storeAfter s readFields events, s.Resolves store := by
  induction events using List.reverseRecOn with
  | nil =>
      intro store hstore
      cases hstore
  | append_singleton events e ih =>
      have hbefore := ih fun e' he' => h e' (List.mem_append_left _ he')
      unfold storeAfter at hbefore ⊢
      rw [List.foldl_append]
      exact apply_resolves hinitial (h e (by simp)) hbefore

end Run

/-! ## 5. The control plane's own answers -/

/-- A target in the body of GET /api/router-config/{model_name}. -/
def targetBody (t : TargetWeight) : Json :=
  .obj [(.ofString "version", .str (.ofString t.version)), (.ofString "weight", .float (.finite t.weight))]

/-- The body. -/
def routerConfigBody (modelName deploymentId : String) (targets : List TargetWeight) : Json :=
  .obj [(.ofString "model_name", .str (.ofString modelName)),
    (.ofString "deployment_id", .str (.ofString deploymentId)),
    (.ofString "targets", .arr (targets.map targetBody))]

/-- What the endpoint answers. -/
def routerConfigAnswer (db : Db) (modelName : String) : Http.Answer Body :=
  match getRouterConfig db modelName with
  | .ok (deploymentId, targets) =>
      .answered 200 (.json (routerConfigBody modelName deploymentId targets))
  | .error detail => .answered 404 (.json (.obj [(.ofString "detail", .str (.ofString detail))]))

/-- The reader takes the endpoint's body for what was written. -/
def ReadsBack (readFields : Json → Option RouterFields) : Prop :=
  ∀ modelName deploymentId targets, readFields (routerConfigBody modelName deploymentId targets) =
    some ⟨modelName, targets, some deploymentId, 0⟩

/-- **Of the control plane's own answer** the sync makes what its allocation is. -/
theorem fetch_controlPlane {readFields : Json → Option RouterFields} (h : ReadsBack readFields)
    (db : Db) (modelName : String) :
    fetchAllocation readFields (routerConfigAnswer db modelName) =
      some (fetchControlPlaneAllocation db modelName) := by
  unfold routerConfigAnswer fetchControlPlaneAllocation
  cases getRouterConfig db modelName with
  | error detail => rfl
  | ok found =>
      have hok : (Http.Answer.answered 200
          (Body.json (routerConfigBody modelName found.1 found.2))).checked =
          some (.json (routerConfigBody modelName found.1 found.2)) := rfl
      unfold fetchAllocation
      simp only [hok, h modelName found.1 found.2]
      rfl

/-! ## 6. A reader -/

def textOf : Json → Option String
  | .str t => t.decode
  | _ => none

def weightOf : Json → Option ℚ
  | .int n => some n
  | .float (.finite q) => some q
  | _ => none

def targetOf : Json → Option TargetWeight
  | .obj members => do
      let version ← (members.lookup (.ofString "version")).bind textOf
      let weight ← (members.lookup (.ofString "weight")).bind weightOf
      pure ⟨version, weight⟩
  | _ => none

/-- What is of the declared types already, read as it is. -/
def plainFields : Json → Option RouterFields
  | .obj members => do
      let modelName ← (members.lookup (.ofString "model_name")).bind textOf
      let targets ← match members.lookup (.ofString "targets") with
        | some (.arr items) => items.mapM targetOf
        | _ => none
      let deploymentId ← match members.lookup (.ofString "deployment_id") with
        | none | some .null => some none
        | some value => (textOf value).map some
      let revision ← match members.lookup (.ofString "revision") with
        | none => some 0
        | some (.int n) => some n
        | _ => none
      pure ⟨modelName, targets, deploymentId, revision⟩
  | _ => none

theorem targetOf_targetBody (t : TargetWeight) : targetOf (targetBody t) = some t := by
  have hversion : textOf (.str (.ofString t.version)) = some t.version := decode_ofString t.version
  show (textOf (.str (.ofString t.version))).bind _ = _
  rw [hversion]
  rfl

theorem mapM_targetBody (targets : List TargetWeight) :
    (targets.map targetBody).mapM targetOf = some targets := by
  induction targets with
  | nil => rfl
  | cons t targets ih =>
      rw [List.map_cons, List.mapM_cons, targetOf_targetBody, ih]
      rfl

theorem plainFields_readsBack : ReadsBack plainFields := by
  intro modelName deploymentId targets
  have hmodel : textOf (.str (.ofString modelName)) = some modelName := decode_ofString modelName
  have hid : textOf (.str (.ofString deploymentId)) = some deploymentId := decode_ofString deploymentId
  show ((textOf (.str (.ofString modelName))).bind fun modelName =>
    ((targets.map targetBody).mapM targetOf).bind fun targets =>
      ((textOf (.str (.ofString deploymentId))).map some).bind fun deploymentId =>
        some (RouterFields.mk modelName targets deploymentId 0)) = _
  rw [hmodel, hid, mapM_targetBody]
  rfl

/-! ## 7. Startup sync beside PUT -/

/-- **Startup sync admits what PUT admits**, exactly if the answer it gets is admissible; and over any
    starts and puts whose answers all are, the router has a host for each target of its store, and no
    predict is refused for the want of one. -/
theorem store_resolvable (s : RouterSettings) (readFields : Json → Option RouterFields)
    (hinitial : ∀ t ∈ s.initialTargets, s.Knows t.version) :
    (∀ answer, (∀ config, fetchAllocation readFields answer = some (some config) →
        s.Resolves config) ↔ Admissible s readFields answer) ∧
      ∀ events : List RouterEvent, (∀ e ∈ events, e.Admissible s readFields) →
        ∀ store, storeAfter s readFields events = some store →
          s.Resolves store ∧ ∀ v : Visit, v.config = store → ∀ detail,
            (routePredict s v).1 ≠ .refused 400 detail := by
  refine ⟨fun answer => installs_resolvable_iff, fun events hevents store hstore => ?_⟩
  have hresolves := stores_resolve hinitial events hevents store hstore
  refine ⟨hresolves, fun v hv => predict_resolves ?_⟩
  rw [hv]
  exact hresolves

/-- A router that knows both versions comes up without an answer, takes a push, and comes up again with
    the control plane's answer: it holds the rollout, and has a host for each side of it. -/
theorem store_resolvable_sample : ∃ store, storeAfter sampleRouter plainFields
      [.start .httpError, .put (sampleConfig 2),
        .start (routerConfigAnswer sampleCreated "fraud-model")] = some store ∧
    store.targets.map TargetWeight.version = ["v1", "v2"] ∧ sampleRouter.Resolves store := by
  have hresolvable := store_resolvable sampleRouter plainFields (by decide +kernel)
  have hknown : ∀ config ∈ (fetchAllocation plainFields
      (routerConfigAnswer sampleCreated "fraud-model")).join, sampleRouter.Resolves config := by
    decide +kernel
  have hsync : Admissible sampleRouter plainFields (routerConfigAnswer sampleCreated "fraud-model") :=
    (hresolvable.1 _).mp fun config h => hknown config (by rw [h]; rfl)
  have hsilent : Admissible sampleRouter plainFields .httpError := by
    rintro fields ⟨_, _, hanswer, _⟩
    cases hanswer
  have hadmissible : ∀ e ∈ [RouterEvent.start .httpError, .put (sampleConfig 2),
      .start (routerConfigAnswer sampleCreated "fraud-model")],
      e.Admissible sampleRouter plainFields := by
    intro e he
    simp only [List.mem_cons, List.not_mem_nil, or_false] at he
    rcases he with rfl | rfl | rfl
    · exact fun _ => hsilent
    · trivial
    · exact fun _ => hsync
  have hup : (storeAfter sampleRouter plainFields [.start .httpError, .put (sampleConfig 2),
      .start (routerConfigAnswer sampleCreated "fraud-model")]).map
        (fun store => store.targets.map TargetWeight.version) = some ["v1", "v2"] := by decide +kernel
  obtain ⟨store, hstore, hversions⟩ := Option.map_eq_some_iff.mp hup
  exact ⟨store, hstore, hversions, (hresolvable.2 _ hadmissible store hstore).1⟩

/-- A router that knows the first version only. -/
def sampleNarrow : RouterSettings :=
  { sampleRouter with versionHosts := [("v1", "serving-v1:8000")] }

/-- **A sync installs what PUT refuses**: the control plane answers with a rollout to a version that the
    router does not know, and the router starts with it. -/
theorem sync_unresolvable :
    ¬∀ (s : RouterSettings) (readFields : Json → Option RouterFields), ReadsBack readFields →
      (∀ t ∈ s.initialTargets, s.Knows t.version) → ∀ (events : List RouterEvent) (store : RouterConfig),
      storeAfter s readFields events = some store → s.Resolves store := by
  intro h
  have hup : (storeAfter sampleNarrow plainFields
      [.start (routerConfigAnswer sampleCreated "fraud-model")]).isSome = true := by decide +kernel
  have hunknown : ∀ store ∈ storeAfter sampleNarrow plainFields
      [.start (routerConfigAnswer sampleCreated "fraud-model")], ¬sampleNarrow.Resolves store := by
    decide +kernel
  obtain ⟨store, hstore⟩ := Option.isSome_iff_exists.mp hup
  exact hunknown store hstore (h sampleNarrow plainFields plainFields_readsBack (by decide +kernel) _
    store hstore)

end ModelOps
