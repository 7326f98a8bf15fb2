/-
  File:      ModelOps/ControlPlane/Create.lean
  Subject:   What `create_deployment` stores, beside what the request asked for.

  * `exec_create` -- a create that starts a rollout puts the row and the split of the request;
  * **`real_canary_iff`** -- both versions get traffic exactly if the canary's weight and its complement
    survive the rounding to six decimals: validation looks at the weight before it is rounded;
  * **`stored_policy_iff`** -- the fields the request leaves out are the environment's exactly if the
    environment leaves them at the defaults of `PolicyConfig`, or the whole policy is left out.
-/
import ModelOps.Policy.Settings
import ModelOps.ControlPlane.ServiceSpec

namespace ModelOps

open Relational

/-! ## 1. A create that starts a rollout -/

section Created

variable {env : Env} {db : Db} {p : CreateDeploymentRequest} {key : Option String} {reply : Reply}

/-- **A create that starts a rollout** stores the created row and the split of its weight. -/
theorem exec_create (h : ((Request.create p key).exec env db).1 = .ok reply)
    (hnew : reply.created = true) :
    reply.deployment = createdRow env p key ∧
      ((Request.create p key).exec env db).2.deployment? reply.deployment.id =
        some (createdRow env p key) ∧
      ∃ revision, ((Request.create p key).exec env db).2.trafficAllocation? reply.deployment.id =
        some ⟨reply.deployment.id, createdTargets p, revision⟩ := by
  rcases exec_cases env db (.create p key) with ⟨x, hexec, hquiet⟩ | ⟨r, row, split, bodies, heff, hexec⟩
  · rw [hexec] at h
    have hold := (hquiet reply h).2
    rw [hnew] at hold
    cases hold
  · rw [hexec] at h ⊢
    injection h with h
    subst h
    cases heff with
    | created _ _ hacc =>
        refine ⟨rfl, ?_, db.generation p.modelName + 1, ?_⟩
        · rw [applied_deployment?, if_pos rfl]
        · rw [applied_some_trafficAllocation?, if_pos rfl]
          rfl
    | resolved hreq => cases hreq
    | flagged hreq => cases hreq

/-! ## 2. The split it starts with -/

/-- The allocation sends the version some of the traffic. -/
def TrafficAllocation.Serves (a : TrafficAllocation) (version : String) : Prop :=
  ∃ t ∈ a.targets, t.version = version ∧ 0 < t.weight

/-- The weight and its complement are more than half a unit of the sixth decimal. -/
def SurvivesRounding (w : ℚ) : Prop := 1 / 2 / 10 ^ 6 < w ∧ w < 1 - 1 / 2 / 10 ^ 6

instance (w : ℚ) : Decidable (SurvivesRounding w) := inferInstanceAs (Decidable (_ ∧ _))

theorem serves_split {stable canary : String} {w : ℚ} (hne : stable ≠ canary) (id : String)
    (revision : Nat) :
    let a : TrafficAllocation := ⟨id, canarySplit stable canary w, revision⟩
    (a.Serves stable ↔ 0 < Decimal.round 6 (1 - w)) ∧ (a.Serves canary ↔ 0 < Decimal.round 6 w) := by
  intro a
  have hsplit : ∀ version, a.Serves version ↔
      (stable = version ∧ 0 < Decimal.round 6 (1 - w)) ∨
        (canary = version ∧ 0 < Decimal.round 6 w) := by
    intro version
    unfold TrafficAllocation.Serves
    simp [a, canarySplit]
  refine ⟨(hsplit stable).trans ?_, (hsplit canary).trans ?_⟩
  · simp [Ne.symm hne]
  · simp [hne]

theorem survives_iff (w : ℚ) :
    SurvivesRounding w ↔ 0 < Decimal.round 6 (1 - w) ∧ 0 < Decimal.round 6 w := by
  unfold SurvivesRounding
  rw [Decimal.round_pos_iff, Decimal.round_pos_iff]
  constructor
  · rintro ⟨hlow, hhigh⟩
    constructor <;> linarith
  · rintro ⟨hhigh, hlow⟩
    constructor <;> linarith

/-- **Both versions of a new rollout get traffic** exactly if the canary's weight and its complement
    survive the rounding to six decimals, whatever the request allowed. -/
theorem real_canary_iff (env : Env) (db : Db) (p : CreateDeploymentRequest) (key : Option String)
    (reply : Reply) (hok : ((Request.create p key).exec env db).1 = .ok reply)
    (hnew : reply.created = true) :
    (∃ a, ((Request.create p key).exec env db).2.trafficAllocation? reply.deployment.id = some a ∧
        a.Serves p.stableVersion ∧ a.Serves p.canaryVersion) ↔
      SurvivesRounding p.canaryWeight := by
  obtain ⟨_, _, revision, ha⟩ := exec_create hok hnew
  obtain ⟨hstable, hcanary⟩ := serves_split (w := p.canaryWeight) p.versions_ne
    reply.deployment.id revision
  rw [ha, survives_iff]
  constructor
  · rintro ⟨a, heq, hs, hc⟩
    cases heq
    exact ⟨hstable.mp hs, hcanary.mp hc⟩
  · rintro ⟨hs, hc⟩
    exact ⟨_, rfl, hstable.mpr hs, hcanary.mpr hc⟩

/-- The default weight. -/
theorem real_canary_iff_sample :
    ∃ a, ((Request.create (sampleCreate "fraud-model") none).exec (Env.after 0 "d1")
        .empty).2.trafficAllocation? "d1" = some a ∧ a.Serves "v1" ∧ a.Serves "v2" :=
  (real_canary_iff (Env.after 0 "d1") .empty (sampleCreate "fraud-model") none _ rfl rfl).mpr
    (by decide +kernel)

/-- A canary of one request in ten million. -/
def sampleFaint (m : String) : CreateDeploymentRequest :=
  { sampleCreate m with
    canaryWeight := 1 / 10 ^ 7
    weight_nonneg := by decide +kernel
    weight_le_one := by decide +kernel
    weight_proper := Or.inr (by decide +kernel) }

/-- **It is accepted as a real canary and gets nothing.** -/
theorem faint_canary_unserved :
    ¬∀ (env : Env) (db : Db) (p : CreateDeploymentRequest) (key : Option String) (reply : Reply),
      p.allowDegenerateCanaryWeight = false →
      ((Request.create p key).exec env db).1 = .ok reply → reply.created = true →
      ∃ a, ((Request.create p key).exec env db).2.trafficAllocation? reply.deployment.id = some a ∧
        a.Serves p.stableVersion ∧ a.Serves p.canaryVersion := by
  intro h
  obtain ⟨a, ha, _, t, ht, hversion, hweight⟩ := h (Env.after 0 "d1") .empty
    (sampleFaint "fraud-model") none _ rfl rfl rfl
  have htargets : ∀ a ∈ ((Request.create (sampleFaint "fraud-model") none).exec (Env.after 0 "d1")
      .empty).2.trafficAllocation? "d1", ∀ t ∈ a.targets, t.version = "v2" → t.weight = 0 := by
    decide +kernel
  rw [htargets a ha t ht hversion] at hweight
  exact absurd hweight (by decide)

/-! ## 3. The policy it is judged by -/

/-- **A new deployment's policy is the request's, filled up from the environment**, exactly if the
    request leaves the policy out, or the environment leaves each field the request does not set at the
    default that `PolicyConfig` declares. -/
theorem stored_policy_iff (settings : PolicySettings) (defaults : PolicyConfig)
    (hdefaults : settings.toPolicyConfig = some defaults) (body : Option PolicyBody)
    (p : CreateDeploymentRequest) (hbody : readPolicy body = some p.policyConfig) (env : Env)
    (henv : env.policyDefaults = defaults) (db : Db) (key : Option String) (reply : Reply)
    (hok : ((Request.create p key).exec env db).1 = .ok reply) (hnew : reply.created = true) :
    (∃ d c, ((Request.create p key).exec env db).2.deployment? reply.deployment.id = some d ∧
        d.policyConfig = some c ∧ FilledFrom c body settings) ↔
      LeftAtDefault body settings := by
  obtain ⟨_, hd, _⟩ := exec_create hok hnew
  have hstored : (createdRow env p key).policyConfig = some (p.policyConfig.getD defaults) := by
    rw [← henv]
    rfl
  have hfilled : FilledFrom (p.policyConfig.getD defaults) body settings ↔
      LeftAtDefault body settings := by
    cases body with
    | none =>
        injection hbody with hsent
        rw [← hsent]
        exact iff_of_true (toPolicyConfig_field hdefaults) fun b hb => by cases hb
    | some b =>
        obtain ⟨c, hread, hsent⟩ := Option.map_eq_some_iff.mp hbody
        rw [← hsent]
        exact read_filled_iff hread
  rw [hd, ← hfilled]
  constructor
  · rintro ⟨d, c, heq, hc, h⟩
    cases heq
    rw [hstored] at hc
    cases hc
    exact h
  · intro h
    exact ⟨_, _, rfl, hstored, h⟩

/-- A request that sets one field. -/
def sampleStrict (m : String) : CreateDeploymentRequest :=
  { sampleCreate m with policyConfig := some samplePolicy }

/-- An environment that sets another. -/
def sampleSettings : PolicySettings := { minimumRequests := 500 }

theorem sampleSettings_valid : ∃ c, sampleSettings.toPolicyConfig = some c :=
  Option.isSome_iff_exists.mp (by decide +kernel)

/-- The defaults of `PolicyConfig` are what it declares, and an environment without variables. -/
theorem policyDefaults_declared (n : Time) (id : String) :
    ({} : PolicySettings).toPolicyConfig = some (Env.after n id).policyDefaults ∧
      ∀ f, (Env.after n id).policyDefaults.field f = f.declared := by
  have hunset : ({} : PolicySettings).toPolicyConfig = some (Env.after 0 "").policyDefaults := by
    decide +kernel
  exact ⟨hunset, fun f => (toPolicyConfig_field hunset f).trans (settings_unset f)⟩

/-- An environment that sets the field of the request, to another value. -/
def sampleOverridden : PolicySettings := { maxInconclusiveRetries := 3 }

/-- The request's value is stored, and the fields it leaves out are as the environment leaves them. -/
theorem stored_policy_iff_sample : ∃ defaults,
    sampleOverridden.toPolicyConfig = some defaults ∧ defaults.maxInconclusiveRetries = 3 ∧
    ∃ d c, ((Request.create (sampleStrict "fraud-model") none).exec
        { Env.after 0 "d1" with policyDefaults := defaults } .empty).2.deployment? "d1" = some d ∧
      d.policyConfig = some c ∧ c.field .maxInconclusiveRetries = 1 ∧
      FilledFrom c (some { maxInconclusiveRetries := some 1 }) sampleOverridden := by
  have hsome : (sampleOverridden.toPolicyConfig.map PolicyConfig.maxInconclusiveRetries) = some 3 := by
    decide +kernel
  obtain ⟨defaults, hdefaults, hretries⟩ := Option.map_eq_some_iff.mp hsome
  have hleft : LeftAtDefault (some { maxInconclusiveRetries := some 1 }) sampleOverridden := by
    intro b hb f hf
    cases hb
    cases f <;> first | rfl | cases hf
  obtain ⟨d, c, hd, hc, hfilled⟩ := (stored_policy_iff sampleOverridden defaults hdefaults
    (some { maxInconclusiveRetries := some 1 }) (sampleStrict "fraud-model") (by decide +kernel)
    { Env.after 0 "d1" with policyDefaults := defaults } rfl .empty none _ rfl rfl).mpr hleft
  exact ⟨defaults, hdefaults, hretries, d, c, hd, hc, hfilled .maxInconclusiveRetries, hfilled⟩

/-- **A request that sets one field undoes what the environment set of another.** -/
theorem environment_undone :
    ¬∀ (settings : PolicySettings) (defaults : PolicyConfig),
      settings.toPolicyConfig = some defaults → ∀ (body : Option PolicyBody)
      (p : CreateDeploymentRequest), readPolicy body = some p.policyConfig → ∀ env : Env,
      env.policyDefaults = defaults → ∀ (db : Db) (key : Option String) (reply : Reply),
      ((Request.create p key).exec env db).1 = .ok reply → reply.created = true →
      ∃ d c, ((Request.create p key).exec env db).2.deployment? reply.deployment.id = some d ∧
        d.policyConfig = some c ∧ FilledFrom c body settings := by
  intro h
  obtain ⟨defaults, hdefaults⟩ := sampleSettings_valid
  obtain ⟨d, c, hd, hc, hfilled⟩ := h sampleSettings defaults hdefaults
    (some { maxInconclusiveRetries := some 1 }) (sampleStrict "fraud-model") (by decide +kernel)
    { Env.after 0 "d1" with policyDefaults := defaults } rfl .empty none _ rfl rfl
  have hstored : d.policyConfig = some samplePolicy := by
    cases hd
    rfl
  rw [hstored] at hc
  cases hc
  exact absurd (hfilled .minimumRequests) (by decide +kernel)

end Created

end ModelOps
