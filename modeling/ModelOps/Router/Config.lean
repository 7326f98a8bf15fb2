/-
  File:      ModelOps/Router/Config.lean
  Subject:   The traffic router's configuration and its PUT endpoint (app/router/config.py,
             `put_config` of app/router/main.py).

  * `RouterConfig` -- a split the validator let through: the validator's conditions are a field, so
    a config with no targets, a duplicate version or no weight cannot be built;
  * `RouterConfig.validate` -- the validator, with its errors in the order it raises them;
  * `putCheck`, `putConfig` -- what `put_config` decides from the config it read, and the endpoint as
    one step. Its two halves, a read and a write of the store, are told apart in Router/Race.lean.

  Revisions are integers, as in the schema: only the control plane's own pushes are known to be
  positive.
-/
import ModelOps.ControlPlane.Models

namespace ModelOps

/-! ## 1. Configurations -/

/-- The conditions on `targets`. -/
structure ValidTargets (targets : List TargetWeight) : Prop where
  weights_nonneg : ∀ t ∈ targets, 0 ≤ t.weight
  nonempty : targets ≠ []
  versions_nodup : (targets.map TargetWeight.version).Nodup
  weight_pos : 0 < (targets.map TargetWeight.weight).sum

@[ext] structure RouterConfig where
  modelName : String
  targets : List TargetWeight
  deploymentId : Option String := none
  revision : Int := 0
  valid : ValidTargets targets
  deriving DecidableEq

inductive ConfigError where
  | negativeWeight
  | noTargets
  | duplicateVersions
  | noWeight
  deriving DecidableEq, Repr

def ConfigError.message : ConfigError → String
  | .negativeWeight => "Input should be greater than or equal to 0"
  | .noTargets => "targets must not be empty"
  | .duplicateVersions => "duplicate versions in targets"
  | .noWeight => "sum of target weights must be > 0"

/-- `RouterConfig.model_validate`. -/
def RouterConfig.validate (modelName : String) (targets : List TargetWeight)
    (deploymentId : Option String := none) (revision : Int := 0) :
    Except ConfigError RouterConfig :=
  if h : ∀ t ∈ targets, 0 ≤ t.weight then
    if h1 : targets = [] then .error .noTargets
    else if h2 : (targets.map TargetWeight.version).Nodup then
      if h3 : 0 < (targets.map TargetWeight.weight).sum then
        .ok ⟨modelName, targets, deploymentId, revision, ⟨h, h1, h2, h3⟩⟩
      else .error .noWeight
    else .error .duplicateVersions
  else .error .negativeWeight

theorem validate_of_valid {modelName : String} {targets : List TargetWeight}
    {deploymentId : Option String} {revision : Int} (h : ValidTargets targets) :
    RouterConfig.validate modelName targets deploymentId revision =
      .ok ⟨modelName, targets, deploymentId, revision, h⟩ := by
  unfold RouterConfig.validate
  rw [dif_pos h.weights_nonneg, dif_neg h.nonempty, dif_pos h.versions_nodup, dif_pos h.weight_pos]

/-- A config is what was validated. -/
theorem validate_eq_ok {modelName : String} {targets : List TargetWeight}
    {deploymentId : Option String} {revision : Int} {c : RouterConfig}
    (h : RouterConfig.validate modelName targets deploymentId revision = .ok c) :
    c.modelName = modelName ∧ c.targets = targets ∧ c.deploymentId = deploymentId ∧
      c.revision = revision := by
  unfold RouterConfig.validate at h
  split at h
  · split at h
    · cases h
    · split at h
      · split at h
        · cases h
          exact ⟨rfl, rfl, rfl, rfl⟩
        · cases h
      · cases h
  · cases h

/-! ## 2. Settings -/

/-- The static deployment topology and the split to boot with. -/
structure RouterSettings where
  modelName : String := "fraud-model"
  versionHosts : List (String × String) :=
    [("v1", "model-serving-v1:8000"), ("v2-good", "model-serving-v2-good:8000"),
      ("v2-quality-bad", "model-serving-v2-quality-bad:8000")]
  initialTargets : List TargetWeight := [⟨"v1", 9 / 10⟩, ⟨"v2-good", 1 / 10⟩]
  controlPlaneUrl : Option String := none
  initial_valid : ValidTargets initialTargets

namespace RouterSettings

def toRouterConfig (s : RouterSettings) : RouterConfig :=
  { modelName := s.modelName, targets := s.initialTargets, valid := s.initial_valid }

def resolveBaseUrl (s : RouterSettings) (version : String) : Option String :=
  match s.versionHosts.lookup version with
  | none => none
  | some hostPort => some s!"http://{hostPort}"

/-- `if settings.control_plane_url:`. -/
def hasControlPlane (s : RouterSettings) : Bool :=
  s.controlPlaneUrl.any fun url => decide (url ≠ "")

/-- The router knows where the version runs. -/
def Knows (s : RouterSettings) (version : String) : Prop :=
  (s.resolveBaseUrl version).isSome = true

instance (s : RouterSettings) (version : String) : Decidable (s.Knows version) :=
  inferInstanceAs (Decidable (_ = true))

end RouterSettings

/-! ## 3. PUT /router/config -/

inductive PutError where
  | unknownVersions (versions : List String)
  | staleRevision (revision : Int) (modelName : String) (current : Int)
  deriving DecidableEq, Repr

def PutError.statusCode : PutError → Nat
  | .unknownVersions _ => 400
  | .staleRevision _ _ _ => 409

/-- The list as Python prints it, for versions without quotes and backslashes. -/
def showVersions (versions : List String) : String :=
  "[" ++ String.intercalate ", " (versions.map fun v => "'" ++ v ++ "'") ++ "]"

def PutError.detail : PutError → String
  | .unknownVersions versions => s!"No host:port mapping for version(s): {showVersions versions}"
  | .staleRevision revision modelName current =>
      s!"stale revision {revision} for model " ++
      s!"{modelName} - router already has revision " ++ s!"{current} applied"

/-- The targets the router has no host for. -/
def unknownVersions (s : RouterSettings) (config : RouterConfig) : List String :=
  (config.targets.map TargetWeight.version).filter fun v => (s.resolveBaseUrl v).isNone

/-- The router already holds this revision of the model, or a later one. -/
def Stale (config current : RouterConfig) : Prop :=
  config.modelName = current.modelName ∧ config.revision ≤ current.revision

instance (config current : RouterConfig) : Decidable (Stale config current) :=
  inferInstanceAs (Decidable (_ ∧ _))

/-- Everything `put_config` decides before its `store.set`. -/
def putCheck (s : RouterSettings) (config current : RouterConfig) : Except PutError Unit :=
  if unknownVersions s config ≠ [] then .error (.unknownVersions (unknownVersions s config))
  else if Stale config current then
    .error (.staleRevision config.revision config.modelName current.revision)
  else .ok ()

/-- `put_config` with nothing between its read and its write: the config stored after it. -/
def putConfig (s : RouterSettings) (config current : RouterConfig) : Except PutError RouterConfig :=
  match putCheck s config current with
  | .error e => .error e
  | .ok () => .ok config

section Put

variable {s : RouterSettings} {config current : RouterConfig}

theorem unknownVersions_eq_nil :
    unknownVersions s config = [] ↔ ∀ t ∈ config.targets, s.Knows t.version := by
  simp [unknownVersions, RouterSettings.Knows, List.filter_eq_nil_iff, Option.isSome_iff_ne_none]

theorem putCheck_ok :
    putCheck s config current = .ok () ↔
      (∀ t ∈ config.targets, s.Knows t.version) ∧ ¬Stale config current := by
  unfold putCheck
  rw [← unknownVersions_eq_nil]
  by_cases hu : unknownVersions s config = []
  · by_cases hs : Stale config current <;> simp [hu, hs]
  · simp [hu]

/-- A newer revision of the same model with known versions is stored. -/
theorem putConfig_newer (hk : ∀ t ∈ config.targets, s.Knows t.version)
    (hrev : current.revision < config.revision) : putConfig s config current = .ok config := by
  have hns : ¬Stale config current := by
    intro h
    have := h.2
    omega
  unfold putConfig
  rw [putCheck_ok.mpr ⟨hk, hns⟩]

end Put

/-! ## 4. A sample router -/

theorem valid_single (version : String) : ValidTargets [⟨version, 1⟩] where
  weights_nonneg := by simp
  nonempty := by simp
  versions_nodup := by simp
  weight_pos := by simp

/-- A router that knows two versions and boots with the first. -/
def sampleRouter : RouterSettings where
  versionHosts := [("v1", "serving-v1:8000"), ("v2", "serving-v2:8000")]
  initialTargets := [⟨"v1", 1⟩]
  controlPlaneUrl := some "http://control-plane:8000"
  initial_valid := valid_single "v1"

/-- All traffic to the first version, under a revision. -/
def sampleConfig (revision : Int) : RouterConfig where
  modelName := "fraud-model"
  targets := [⟨"v1", 1⟩]
  deploymentId := some "d1"
  revision := revision
  valid := valid_single "v1"

end ModelOps
