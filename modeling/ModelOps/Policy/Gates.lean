/-
  File:      ModelOps/Policy/Gates.lean
  Subject:   What the verdict of the policy engine means, said without the checks.

  Two gates stand before the findings: the requests of both versions, and the labels of the canary.
  Behind them a measurement can be over its threshold, within it, or missing; only the first two are
  findings, and a missing one never counts as either.

  * `Fails`, `Passes` -- the specification, over the three summaries and the thresholds;
  * **`verdict_spec`** -- the engine's verdict is the specification's, and recall is checked exactly
    behind both gates.
-/
import ModelOps.Policy.Engine

namespace ModelOps

/-! ## 1. The specification -/

section Specification

variable (stable canary canaryQuality : VersionSummary) (config : PolicyConfig)

/-- The request minimum: both versions have answered enough. -/
def EnoughRequests : Prop :=
  config.minimumRequests ≤ min stable.sampleCount canary.sampleCount

/-- The p95 grew by `increase` percent: both are known, and the stable one is not zero. -/
def LatencyIncrease (increase : ℚ) : Prop :=
  ∃ s c, stable.p95LatencyMs = some s ∧ canary.p95LatencyMs = some c ∧ s ≠ 0 ∧
    increase = (c - s) / s * 100

/-- The three label gates: labeled samples, coverage, positive labels. -/
def EnoughLabels : Prop :=
  config.minimumLabeledSamples ≤ canaryQuality.labeledSampleCount ∧
  (∃ coverage, canaryQuality.labelCoverage = some coverage ∧
    config.minimumLabelCoverage ≤ coverage) ∧
  config.minimumPositiveLabels ≤ canaryQuality.positiveLabelCount

def LatencyOver : Prop :=
  ∃ increase, LatencyIncrease stable canary increase ∧
    config.latency.p95MaxIncreasePercent < increase

def LatencyWithin : Prop :=
  ∃ increase, LatencyIncrease stable canary increase ∧
    increase ≤ config.latency.p95MaxIncreasePercent

def ErrorsOver : Prop :=
  ∃ errorRate, canary.errorRate = some errorRate ∧
    config.reliability.maxErrorRatePercent < errorRate * 100

def ErrorsWithin : Prop :=
  ∃ errorRate, canary.errorRate = some errorRate ∧
    errorRate * 100 ≤ config.reliability.maxErrorRatePercent

def RecallBelow : Prop :=
  ∃ r, canaryQuality.recall = some r ∧ r < config.quality.minimumRecall

def RecallReached : Prop :=
  ∃ r, canaryQuality.recall = some r ∧ config.quality.minimumRecall ≤ r

/-- What the evaluation fails on. -/
def Fails : Prop :=
  EnoughRequests stable canary config ∧
    (LatencyOver stable canary config ∨ ErrorsOver canary config ∨
      EnoughLabels canaryQuality config ∧ RecallBelow canaryQuality config)

/-- What it takes to pass. -/
def Passes : Prop :=
  EnoughRequests stable canary config ∧ LatencyWithin stable canary config ∧
    ErrorsWithin canary config ∧ EnoughLabels canaryQuality config ∧
    RecallReached canaryQuality config

end Specification

/-! ## 2. One check at a time -/

section Checks

variable {stable canary canaryQuality : VersionSummary} {config : PolicyConfig}

theorem minimumRequests_pass :
    (evaluateMinimumRequests stable canary config.minimumRequests).result = .pass ↔
      EnoughRequests stable canary config := by
  simp [evaluateMinimumRequests, EnoughRequests]

theorem minimumRequests_ne_fail :
    (evaluateMinimumRequests stable canary config.minimumRequests).result ≠ .fail := by
  simp only [evaluateMinimumRequests]
  split <;> simp

/-- The latency check compares the increase, where there is one. -/
theorem latency_result (stable canary : VersionSummary) (config : PolicyConfig) :
    (∃ increase, LatencyIncrease stable canary increase ∧
      (evaluateLatency stable canary config.latency).result =
        if config.latency.p95MaxIncreasePercent < increase then .fail else .pass) ∨
    ((¬ ∃ increase, LatencyIncrease stable canary increase) ∧
      (evaluateLatency stable canary config.latency).result = .inconclusive) := by
  unfold evaluateLatency LatencyIncrease
  cases hs : stable.p95LatencyMs with
  | none => exact Or.inr ⟨fun ⟨_, _, _, h, _⟩ => (nomatch h), rfl⟩
  | some s =>
      cases hc : canary.p95LatencyMs with
      | none => exact Or.inr ⟨fun ⟨_, _, _, _, h, _⟩ => (nomatch h), rfl⟩
      | some c =>
          by_cases hz : s = 0
          · refine Or.inr ⟨?_, by simp [hz]⟩
            rintro ⟨_, s', c', h, _, hne, _⟩
            cases h
            exact hne hz
          · exact Or.inl ⟨_, ⟨s, c, rfl, rfl, hz, rfl⟩, by simp [hz]⟩

/-- There is one increase at most. -/
theorem LatencyIncrease.eq {x y : ℚ} (hx : LatencyIncrease stable canary x)
    (hy : LatencyIncrease stable canary y) : x = y := by
  obtain ⟨s, c, hs, hc, _, rfl⟩ := hx
  obtain ⟨s', c', hs', hc', _, rfl⟩ := hy
  cases hs.symm.trans hs'
  cases hc.symm.trans hc'
  rfl

theorem latency_fail :
    (evaluateLatency stable canary config.latency).result = .fail ↔
      LatencyOver stable canary config := by
  rcases latency_result stable canary config with
    ⟨x, hx, h⟩ | ⟨hno, h⟩
  · rw [h]
    constructor
    · intro hf
      by_cases hlt : config.latency.p95MaxIncreasePercent < x
      · exact ⟨x, hx, hlt⟩
      · simp [hlt] at hf
    · rintro ⟨y, hy, hlt⟩
      rw [hx.eq hy, if_pos hlt]
  · rw [h]
    constructor
    · intro hf
      cases hf
    · rintro ⟨y, hy, _⟩
      exact absurd ⟨y, hy⟩ hno

theorem latency_pass :
    (evaluateLatency stable canary config.latency).result = .pass ↔
      LatencyWithin stable canary config := by
  rcases latency_result stable canary config with
    ⟨x, hx, h⟩ | ⟨hno, h⟩
  · rw [h]
    constructor
    · intro hp
      by_cases hlt : config.latency.p95MaxIncreasePercent < x
      · simp [hlt] at hp
      · exact ⟨x, hx, not_lt.mp hlt⟩
    · rintro ⟨y, hy, hle⟩
      rw [hx.eq hy, if_neg (not_lt.mpr hle)]
  · rw [h]
    constructor
    · intro hp
      cases hp
    · rintro ⟨y, hy, _⟩
      exact absurd ⟨y, hy⟩ hno

theorem reliability_fail :
    (evaluateReliability canary config.reliability).result = .fail ↔ ErrorsOver canary config := by
  unfold evaluateReliability ErrorsOver
  cases canary.errorRate with
  | none => simp
  | some e => simp

theorem reliability_pass :
    (evaluateReliability canary config.reliability).result = .pass ↔
      ErrorsWithin canary config := by
  unfold evaluateReliability ErrorsWithin
  cases canary.errorRate with
  | none => simp
  | some e => simp

theorem quality_fail :
    (evaluateQuality canaryQuality config.quality).result = .fail ↔
      RecallBelow canaryQuality config := by
  unfold evaluateQuality RecallBelow
  cases canaryQuality.recall with
  | none => simp
  | some r => simp

theorem quality_pass :
    (evaluateQuality canaryQuality config.quality).result = .pass ↔
      RecallReached canaryQuality config := by
  unfold evaluateQuality RecallReached
  cases canaryQuality.recall with
  | none => simp
  | some r => simp

/-- A gate never fails an evaluation. -/
theorem qualityGate_ne_fail {check : PolicyCheckResult}
    (h : check ∈ qualityGate canaryQuality config) : check.result ≠ .fail := by
  simp only [qualityGate, List.mem_cons, List.not_mem_nil, or_false] at h
  obtain rfl | rfl | rfl := h
  · simp only [evaluateMinimumLabeledSamples]
    split <;> simp
  · simp only [evaluateMinimumLabelCoverage]
    cases canaryQuality.labelCoverage with
    | none => simp
    | some coverage =>
        dsimp only
        split <;> simp
  · simp only [evaluateMinimumPositiveLabels]
    split <;> simp

theorem qualityGate_pass :
    (∀ check ∈ qualityGate canaryQuality config, check.result = .pass) ↔
      EnoughLabels canaryQuality config := by
  unfold EnoughLabels qualityGate
  simp only [List.forall_mem_cons, List.not_mem_nil, false_implies, implies_true, and_true]
  refine and_congr (by simp [evaluateMinimumLabeledSamples]) (and_congr ?_
    (by simp [evaluateMinimumPositiveLabels]))
  unfold evaluateMinimumLabelCoverage
  cases canaryQuality.labelCoverage with
  | none => simp
  | some coverage => simp

end Checks

/-! ## 3. The verdict -/

theorem overallResult_fail {checks : List PolicyCheckResult} :
    overallResult checks = .fail ↔ ∃ check ∈ checks, check.result = .fail := by
  unfold overallResult
  by_cases hf : ∃ check ∈ checks, check.result = .fail
  · rw [if_pos (by simpa using hf)]
    simpa using hf
  · rw [if_neg (by simpa using hf)]
    split <;> simpa using hf

theorem overallResult_pass {checks : List PolicyCheckResult} :
    overallResult checks = .pass ↔ ∀ check ∈ checks, check.result = .pass := by
  unfold overallResult
  by_cases hf : ∃ check ∈ checks, check.result = .fail
  · rw [if_pos (by simpa using hf)]
    obtain ⟨check, hmem, h⟩ := hf
    refine ⟨fun hp => (nomatch hp), fun hall => ?_⟩
    rw [hall check hmem] at h
    cases h
  · rw [if_neg (by simpa using hf)]
    by_cases hi : ∃ check ∈ checks, check.result = .inconclusive
    · rw [if_pos (by simpa using hi)]
      obtain ⟨check, hmem, h⟩ := hi
      refine ⟨fun hp => (nomatch hp), fun hall => ?_⟩
      rw [hall check hmem] at h
      cases h
    · rw [if_neg (by simpa using hi)]
      refine ⟨fun _ check hmem => ?_, fun _ => rfl⟩
      cases h : check.result with
      | pass => rfl
      | fail => exact absurd ⟨check, hmem, h⟩ hf
      | inconclusive => exact absurd ⟨check, hmem, h⟩ hi

section Verdict

variable {stable canary canaryQuality : VersionSummary} {config : PolicyConfig}

/-- The quality checks: the gates, and behind them the recall. -/
theorem qualityPolicies_open (h : EnoughLabels canaryQuality config) :
    evaluateQualityPolicies canaryQuality config =
      qualityGate canaryQuality config ++ [evaluateQuality canaryQuality config.quality] := by
  have hpass := qualityGate_pass.mpr h
  unfold evaluateQualityPolicies
  dsimp only
  rw [if_neg]
  simpa using hpass

theorem qualityPolicies_shut (h : ¬ EnoughLabels canaryQuality config) :
    evaluateQualityPolicies canaryQuality config = qualityGate canaryQuality config := by
  have hpass := mt qualityGate_pass.mp h
  unfold evaluateQualityPolicies
  dsimp only
  rw [if_pos]
  simpa using hpass

theorem quality_fails :
    (∃ check ∈ evaluateQualityPolicies canaryQuality config, check.result = .fail) ↔
      EnoughLabels canaryQuality config ∧ RecallBelow canaryQuality config := by
  have hgate : ¬ ∃ check ∈ qualityGate canaryQuality config, check.result = .fail :=
    fun ⟨_, hmem, h⟩ => qualityGate_ne_fail hmem h
  by_cases h : EnoughLabels canaryQuality config
  · rw [qualityPolicies_open h]
    simp only [List.mem_append, or_and_right, exists_or, List.mem_singleton, exists_eq_left,
      quality_fail, h, true_and]
    exact or_iff_right hgate
  · rw [qualityPolicies_shut h]
    exact iff_of_false hgate fun hr => h hr.1

theorem quality_passes :
    (∀ check ∈ evaluateQualityPolicies canaryQuality config, check.result = .pass) ↔
      EnoughLabels canaryQuality config ∧ RecallReached canaryQuality config := by
  by_cases h : EnoughLabels canaryQuality config
  · rw [qualityPolicies_open h, List.forall_mem_append, qualityGate_pass, List.forall_mem_singleton,
      quality_pass]
  · rw [qualityPolicies_shut h, qualityGate_pass]
    exact iff_of_false h fun hr => h hr.1

/-- Behind the request minimum, the latency, the errors and the quality are looked at. -/
theorem evaluatePolicies_open (h : EnoughRequests stable canary config) :
    evaluatePolicies stable canary canaryQuality config =
      [evaluateMinimumRequests stable canary config.minimumRequests,
        evaluateLatency stable canary config.latency,
        evaluateReliability canary config.reliability] ++
      evaluateQualityPolicies canaryQuality config := by
  unfold evaluatePolicies
  rw [if_neg (not_not.mpr (minimumRequests_pass.mpr h))]

theorem evaluatePolicies_shut (h : ¬ EnoughRequests stable canary config) :
    evaluatePolicies stable canary canaryQuality config =
      [evaluateMinimumRequests stable canary config.minimumRequests] := by
  unfold evaluatePolicies
  rw [if_pos (mt minimumRequests_pass.mp h)]

theorem verdict_fail :
    overallResult (evaluatePolicies stable canary canaryQuality config) = .fail ↔
      Fails stable canary canaryQuality config := by
  rw [overallResult_fail]
  unfold Fails
  by_cases h : EnoughRequests stable canary config
  · rw [evaluatePolicies_open h]
    simp only [List.mem_append, or_and_right, exists_or, quality_fails]
    simp only [List.mem_cons, List.not_mem_nil, or_false, or_and_right, exists_or, exists_eq_left,
      latency_fail, reliability_fail, minimumRequests_ne_fail, false_or, h, true_and, or_assoc]
  · rw [evaluatePolicies_shut h]
    simp only [List.mem_singleton, exists_eq_left, minimumRequests_ne_fail, h, false_and]

theorem verdict_pass :
    overallResult (evaluatePolicies stable canary canaryQuality config) = .pass ↔
      Passes stable canary canaryQuality config := by
  rw [overallResult_pass]
  unfold Passes
  by_cases h : EnoughRequests stable canary config
  · rw [evaluatePolicies_open h, List.forall_mem_append, quality_passes]
    simp only [List.forall_mem_cons, List.not_mem_nil, false_implies, implies_true, and_true,
      minimumRequests_pass, latency_pass, reliability_pass, and_assoc]
  · rw [evaluatePolicies_shut h]
    simp only [List.forall_mem_singleton, minimumRequests_pass, h, false_and]

/-- Recall is checked behind both gates only. -/
theorem recall_checked :
    (∃ check ∈ evaluatePolicies stable canary canaryQuality config,
      check.policyName = "minimum_recall") ↔
      EnoughRequests stable canary config ∧ EnoughLabels canaryQuality config := by
  have hgate : ¬ ∃ check ∈ qualityGate canaryQuality config,
      check.policyName = "minimum_recall" := by
    simp [qualityGate, evaluateMinimumLabeledSamples, evaluateMinimumLabelCoverage,
      evaluateMinimumPositiveLabels]
  have hlat : (evaluateLatency stable canary config.latency).policyName =
      "latency_p95_increase" := by
    unfold evaluateLatency
    dsimp only
    split
    · split <;> rfl
    · rfl
  have hrel : (evaluateReliability canary config.reliability).policyName = "max_error_rate" := by
    unfold evaluateReliability
    dsimp only
    split <;> rfl
  by_cases h : EnoughRequests stable canary config
  · rw [evaluatePolicies_open h]
    by_cases hl : EnoughLabels canaryQuality config
    · rw [qualityPolicies_open hl]
      exact iff_of_true ⟨evaluateQuality canaryQuality config.quality, by simp, rfl⟩ ⟨h, hl⟩
    · rw [qualityPolicies_shut hl]
      refine iff_of_false ?_ fun hb => hl hb.2
      simp only [List.mem_append, or_and_right, exists_or, hgate, or_false]
      simp [hlat, hrel, evaluateMinimumRequests]
  · rw [evaluatePolicies_shut h]
    refine iff_of_false ?_ fun hb => h hb.1
    simp [evaluateMinimumRequests]

end Verdict

/-- **The verdict is the specification's**, and recall is checked exactly behind both gates. -/
theorem verdict_spec (stable canary canaryQuality : VersionSummary) (config : PolicyConfig) :
    (overallResult (evaluatePolicies stable canary canaryQuality config) = .fail ↔
      Fails stable canary canaryQuality config) ∧
    (overallResult (evaluatePolicies stable canary canaryQuality config) = .pass ↔
      Passes stable canary canaryQuality config) ∧
    (overallResult (evaluatePolicies stable canary canaryQuality config) = .inconclusive ↔
      ¬ Fails stable canary canaryQuality config ∧ ¬ Passes stable canary canaryQuality config) ∧
    ((∃ check ∈ evaluatePolicies stable canary canaryQuality config,
        check.policyName = "minimum_recall") ↔
      EnoughRequests stable canary config ∧ EnoughLabels canaryQuality config) := by
  refine ⟨verdict_fail, verdict_pass, ?_, recall_checked⟩
  rw [← verdict_fail, ← verdict_pass]
  cases overallResult (evaluatePolicies stable canary canaryQuality config) with
  | pass => simp
  | fail => simp
  | inconclusive => simp

end ModelOps
