/-
  File:      ModelOps/Policy/Settings.lean
  Subject:   Where a threshold comes from: the two tables of defaults (app/policy/config.py).

  `PolicySettings.toPolicyConfig` builds a policy from the environment. A request body with some of the
  fields builds one too (`PolicyBody.read`), and takes the others from the defaults `PolicyConfig`
  declares, which the environment does not change.

  * `validated_field` -- what validation builds has the values it was given;
  * `toPolicyConfig_field`, `read_field` -- so each field is the environment's, and the body's or else
    the declared one.
-/
import ModelOps.Policy.Config

namespace ModelOps

/-! ## 1. Building a policy -/

/-- The values a policy is built from, before validation. -/
structure PolicyValues where
  minimumRequests : Int
  evaluationWindowSeconds : Int
  maxInconclusiveRetries : Int
  labelMaturitySeconds : Int
  minimumLabeledSamples : Int
  minimumLabelCoverage : ℚ
  minimumPositiveLabels : Int
  p95MaxIncreasePercent : ℚ
  maxErrorRatePercent : ℚ
  minimumRecall : ℚ

/-- The bounds that the fields of `PolicyConfig` and of its parts declare. -/
structure PolicyValues.Valid (v : PolicyValues) : Prop where
  requests : 0 ≤ v.minimumRequests
  window : 1 ≤ v.evaluationWindowSeconds
  retries : 1 ≤ v.maxInconclusiveRetries
  maturity : 0 ≤ v.labelMaturitySeconds
  samples : 0 ≤ v.minimumLabeledSamples
  coverage : 0 ≤ v.minimumLabelCoverage ∧ v.minimumLabelCoverage ≤ 1
  positives : 0 ≤ v.minimumPositiveLabels
  increase : 0 ≤ v.p95MaxIncreasePercent
  rate : 0 ≤ v.maxErrorRatePercent
  minimum_recall : 0 ≤ v.minimumRecall ∧ v.minimumRecall ≤ 1

theorem PolicyValues.valid_iff (v : PolicyValues) :
    v.Valid ↔ 0 ≤ v.minimumRequests ∧ 1 ≤ v.evaluationWindowSeconds ∧
      1 ≤ v.maxInconclusiveRetries ∧ 0 ≤ v.labelMaturitySeconds ∧ 0 ≤ v.minimumLabeledSamples ∧
      (0 ≤ v.minimumLabelCoverage ∧ v.minimumLabelCoverage ≤ 1) ∧ 0 ≤ v.minimumPositiveLabels ∧
      0 ≤ v.p95MaxIncreasePercent ∧ 0 ≤ v.maxErrorRatePercent ∧
      0 ≤ v.minimumRecall ∧ v.minimumRecall ≤ 1 := by
  constructor
  · intro h
    exact ⟨h.requests, h.window, h.retries, h.maturity, h.samples, h.coverage, h.positives, h.increase,
      h.rate, h.minimum_recall⟩
  · rintro ⟨h1, h2, h3, h4, h5, h6, h7, h8, h9, h10⟩
    exact ⟨h1, h2, h3, h4, h5, h6, h7, h8, h9, h10⟩

instance (v : PolicyValues) : Decidable v.Valid := decidable_of_iff _ v.valid_iff.symm

/-- `PolicyConfig(..)`; `none` is a ValidationError. -/
def PolicyValues.validate (v : PolicyValues) : Option PolicyConfig :=
  if h : v.Valid then
    some
      { minimumRequests := v.minimumRequests.toNat
        evaluationWindowSeconds := v.evaluationWindowSeconds.toNat
        maxInconclusiveRetries := v.maxInconclusiveRetries.toNat
        labelMaturitySeconds := v.labelMaturitySeconds.toNat
        minimumLabeledSamples := v.minimumLabeledSamples.toNat
        minimumLabelCoverage := v.minimumLabelCoverage
        minimumPositiveLabels := v.minimumPositiveLabels.toNat
        latency := ⟨v.p95MaxIncreasePercent, h.increase⟩
        reliability := ⟨v.maxErrorRatePercent, h.rate⟩
        quality := ⟨v.minimumRecall, h.minimum_recall.1, h.minimum_recall.2⟩
        window_pos := Int.le_toNat (Int.le_trans Int.one_nonneg h.window) |>.mpr h.window
        retries_pos := Int.le_toNat (Int.le_trans Int.one_nonneg h.retries) |>.mpr h.retries
        coverage_nonneg := h.coverage.1
        coverage_le_one := h.coverage.2 }
  else none

/-! ## 2. The fields, by name -/

/-- The ten thresholds. -/
inductive PolicyField where
  | minimumRequests | evaluationWindowSeconds | maxInconclusiveRetries | labelMaturitySeconds
  | minimumLabeledSamples | minimumLabelCoverage | minimumPositiveLabels
  | latencyP95MaxIncreasePercent | reliabilityMaxErrorRatePercent | qualityMinimumRecall
  deriving DecidableEq

def PolicyConfig.field (c : PolicyConfig) : PolicyField → ℚ
  | .minimumRequests => c.minimumRequests
  | .evaluationWindowSeconds => c.evaluationWindowSeconds
  | .maxInconclusiveRetries => c.maxInconclusiveRetries
  | .labelMaturitySeconds => c.labelMaturitySeconds
  | .minimumLabeledSamples => c.minimumLabeledSamples
  | .minimumLabelCoverage => c.minimumLabelCoverage
  | .minimumPositiveLabels => c.minimumPositiveLabels
  | .latencyP95MaxIncreasePercent => c.latency.p95MaxIncreasePercent
  | .reliabilityMaxErrorRatePercent => c.reliability.maxErrorRatePercent
  | .qualityMinimumRecall => c.quality.minimumRecall

def PolicyValues.field (v : PolicyValues) : PolicyField → ℚ
  | .minimumRequests => v.minimumRequests
  | .evaluationWindowSeconds => v.evaluationWindowSeconds
  | .maxInconclusiveRetries => v.maxInconclusiveRetries
  | .labelMaturitySeconds => v.labelMaturitySeconds
  | .minimumLabeledSamples => v.minimumLabeledSamples
  | .minimumLabelCoverage => v.minimumLabelCoverage
  | .minimumPositiveLabels => v.minimumPositiveLabels
  | .latencyP95MaxIncreasePercent => v.p95MaxIncreasePercent
  | .reliabilityMaxErrorRatePercent => v.maxErrorRatePercent
  | .qualityMinimumRecall => v.minimumRecall

/-- The default that `PolicyConfig` declares for the field. -/
def PolicyField.declared : PolicyField → ℚ
  | .minimumRequests => 100
  | .evaluationWindowSeconds => 300
  | .maxInconclusiveRetries => 10
  | .labelMaturitySeconds => 60
  | .minimumLabeledSamples => 30
  | .minimumLabelCoverage => 1 / 2
  | .minimumPositiveLabels => 30
  | .latencyP95MaxIncreasePercent => 20
  | .reliabilityMaxErrorRatePercent => 5
  | .qualityMinimumRecall => 4 / 5

/-- **Validation changes no value.** -/
theorem validated_field {v : PolicyValues} {c : PolicyConfig} (h : v.validate = some c)
    (f : PolicyField) : c.field f = v.field f := by
  unfold PolicyValues.validate at h
  split at h
  · rename_i hv
    injection h with h
    subst h
    have hnat : ∀ i : Int, 0 ≤ i → ((i.toNat : Nat) : ℚ) = (i : ℚ) := fun i hi => by
      exact_mod_cast congrArg (fun j : Int => (j : ℚ)) (Int.toNat_of_nonneg hi)
    cases f with
    | minimumRequests => exact hnat _ hv.requests
    | evaluationWindowSeconds => exact hnat _ (Int.le_trans Int.one_nonneg hv.window)
    | maxInconclusiveRetries => exact hnat _ (Int.le_trans Int.one_nonneg hv.retries)
    | labelMaturitySeconds => exact hnat _ hv.maturity
    | minimumLabeledSamples => exact hnat _ hv.samples
    | minimumPositiveLabels => exact hnat _ hv.positives
    | minimumLabelCoverage => rfl
    | latencyP95MaxIncreasePercent => rfl
    | reliabilityMaxErrorRatePercent => rfl
    | qualityMinimumRecall => rfl
  · cases h

/-! ## 3. The environment's defaults -/

/-- The POLICY_* variables, each with its default. -/
structure PolicySettings where
  minimumRequests : Int := 100
  evaluationWindowSeconds : Int := 300
  maxInconclusiveRetries : Int := 10
  labelMaturitySeconds : Int := 60
  minimumLabeledSamples : Int := 30
  minimumLabelCoverage : ℚ := 1 / 2
  minimumPositiveLabels : Int := 30
  latencyP95MaxIncreasePercent : ℚ := 20
  reliabilityMaxErrorRatePercent : ℚ := 5
  qualityMinimumRecall : ℚ := 4 / 5

def PolicySettings.values (s : PolicySettings) : PolicyValues where
  minimumRequests := s.minimumRequests
  evaluationWindowSeconds := s.evaluationWindowSeconds
  maxInconclusiveRetries := s.maxInconclusiveRetries
  labelMaturitySeconds := s.labelMaturitySeconds
  minimumLabeledSamples := s.minimumLabeledSamples
  minimumLabelCoverage := s.minimumLabelCoverage
  minimumPositiveLabels := s.minimumPositiveLabels
  p95MaxIncreasePercent := s.latencyP95MaxIncreasePercent
  maxErrorRatePercent := s.reliabilityMaxErrorRatePercent
  minimumRecall := s.qualityMinimumRecall

def PolicySettings.toPolicyConfig (s : PolicySettings) : Option PolicyConfig := s.values.validate

def PolicySettings.field (s : PolicySettings) : PolicyField → ℚ := s.values.field

theorem toPolicyConfig_field {s : PolicySettings} {c : PolicyConfig} (h : s.toPolicyConfig = some c)
    (f : PolicyField) : c.field f = s.field f :=
  validated_field h f

/-- The two tables agree where the environment sets nothing. -/
theorem settings_unset (f : PolicyField) : ({} : PolicySettings).field f = f.declared := by
  cases f <;> rfl

/-! ## 4. A policy in a request body -/

structure LatencyBody where
  p95MaxIncreasePercent : Option ℚ := none

structure ReliabilityBody where
  maxErrorRatePercent : Option ℚ := none

structure QualityBody where
  minimumRecall : Option ℚ := none

/-- The fields of `policy_config` that a body sets. -/
structure PolicyBody where
  minimumRequests : Option Int := none
  evaluationWindowSeconds : Option Int := none
  maxInconclusiveRetries : Option Int := none
  labelMaturitySeconds : Option Int := none
  minimumLabeledSamples : Option Int := none
  minimumLabelCoverage : Option ℚ := none
  minimumPositiveLabels : Option Int := none
  latency : Option LatencyBody := none
  reliability : Option ReliabilityBody := none
  quality : Option QualityBody := none

/-- The body's values, the declared default of `PolicyConfig` for each one it leaves out. -/
def PolicyBody.values (b : PolicyBody) : PolicyValues where
  minimumRequests := b.minimumRequests.getD 100
  evaluationWindowSeconds := b.evaluationWindowSeconds.getD 300
  maxInconclusiveRetries := b.maxInconclusiveRetries.getD 10
  labelMaturitySeconds := b.labelMaturitySeconds.getD 60
  minimumLabeledSamples := b.minimumLabeledSamples.getD 30
  minimumLabelCoverage := b.minimumLabelCoverage.getD (1 / 2)
  minimumPositiveLabels := b.minimumPositiveLabels.getD 30
  p95MaxIncreasePercent := (b.latency.bind LatencyBody.p95MaxIncreasePercent).getD 20
  maxErrorRatePercent := (b.reliability.bind ReliabilityBody.maxErrorRatePercent).getD 5
  minimumRecall := (b.quality.bind QualityBody.minimumRecall).getD (4 / 5)

/-- What pydantic makes of the body; `none` is a 422. -/
def PolicyBody.read (b : PolicyBody) : Option PolicyConfig := b.values.validate

/-- `policy_config: PolicyConfig | None = None` -/
def readPolicy : Option PolicyBody → Option (Option PolicyConfig)
  | none => some none
  | some b => b.read.map some

/-- The value the body sets a field to. -/
def PolicyBody.field (b : PolicyBody) : PolicyField → Option ℚ
  | .minimumRequests => b.minimumRequests.map (↑)
  | .evaluationWindowSeconds => b.evaluationWindowSeconds.map (↑)
  | .maxInconclusiveRetries => b.maxInconclusiveRetries.map (↑)
  | .labelMaturitySeconds => b.labelMaturitySeconds.map (↑)
  | .minimumLabeledSamples => b.minimumLabeledSamples.map (↑)
  | .minimumLabelCoverage => b.minimumLabelCoverage
  | .minimumPositiveLabels => b.minimumPositiveLabels.map (↑)
  | .latencyP95MaxIncreasePercent => b.latency.bind LatencyBody.p95MaxIncreasePercent
  | .reliabilityMaxErrorRatePercent => b.reliability.bind ReliabilityBody.maxErrorRatePercent
  | .qualityMinimumRecall => b.quality.bind QualityBody.minimumRecall

/-- **A field of the body's policy** is the body's, or else the declared default. -/
theorem read_field {b : PolicyBody} {c : PolicyConfig} (h : b.read = some c) (f : PolicyField) :
    c.field f = (b.field f).getD f.declared := by
  have hint : ∀ (o : Option Int) (n : Nat), ((o.getD n : Int) : ℚ) = (o.map (↑)).getD (n : ℚ) := by
    intro o n
    cases o with
    | none => exact Rat.intCast_natCast n
    | some i => rfl
  rw [validated_field h f]
  cases f with
  | minimumRequests => exact hint b.minimumRequests 100
  | evaluationWindowSeconds => exact hint b.evaluationWindowSeconds 300
  | maxInconclusiveRetries => exact hint b.maxInconclusiveRetries 10
  | labelMaturitySeconds => exact hint b.labelMaturitySeconds 60
  | minimumLabeledSamples => exact hint b.minimumLabeledSamples 30
  | minimumPositiveLabels => exact hint b.minimumPositiveLabels 30
  | minimumLabelCoverage => rfl
  | latencyP95MaxIncreasePercent => rfl
  | reliabilityMaxErrorRatePercent => rfl
  | qualityMinimumRecall => rfl

/-- A policy that agrees with the body where the body says something, and with the environment where
    it does not. -/
def FilledFrom (c : PolicyConfig) (body : Option PolicyBody) (s : PolicySettings) : Prop :=
  ∀ f, c.field f = (body.bind fun b => b.field f).getD (s.field f)

/-- The environment leaves each field the body does not set at its declared default. -/
def LeftAtDefault (body : Option PolicyBody) (s : PolicySettings) : Prop :=
  ∀ b ∈ body, ∀ f, b.field f = none → s.field f = f.declared

/-- **A body's policy takes the environment's defaults** exactly where these are the declared ones. -/
theorem read_filled_iff {b : PolicyBody} {c : PolicyConfig} {s : PolicySettings}
    (h : b.read = some c) : FilledFrom c (some b) s ↔ LeftAtDefault (some b) s := by
  have hfield : ∀ f, c.field f = (b.field f).getD (s.field f) ↔
      (b.field f = none → s.field f = f.declared) := by
    intro f
    rw [read_field h f]
    cases b.field f with
    | none => exact ⟨fun he _ => he.symm, fun he => (he rfl).symm⟩
    | some q => exact ⟨fun _ he => (by cases he), fun _ => rfl⟩
  constructor
  · intro hr b' hb' f
    cases hb'
    exact (hfield f).mp (hr f)
  · intro hl f
    exact (hfield f).mpr (hl b rfl f)

end ModelOps
