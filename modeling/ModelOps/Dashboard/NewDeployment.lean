/-
  File:      ModelOps/Dashboard/NewDeployment.lean
  Subject:   The form that starts a deployment (components/NewDeploymentForm.tsx), from its first fetch to
             the rollout it creates.

  The form fetches the versions of the model that is selected (`useAsync`), and takes the first two where
  none were chosen. `useAsync` keeps its data while a fetch is under way, and neither the fields nor
  `canSubmit` ask whether one is: behind a change of the model, the versions are the model's of before.

  * `NewDeploymentForm.next` -- what is chosen, answered and submitted;
  * `chosen_step`, `listed_run` -- where nothing is chosen while a fetch is under way, the versions are the
    selected model's once it has been answered;
  * **`form_submits`** -- what such a form submits is created as it stands, or refused for its model;
  * `hasty_submit` -- and one that is submitted earlier creates a rollout of versions of another model.
-/
import ModelOps.Lib.Transition
import ModelOps.System.Idempotency
import ModelOps.ControlPlane.Create

namespace ModelOps

open Relational Labelled

/-! ## 1. The form -/

/-- The body of POST /api/deployments, as it arrives. -/
structure CreatePayload where
  modelName : String
  stableVersion : String
  canaryVersion : String
  canaryWeight : ℚ := 1 / 10
  policyConfig : Option PolicyConfig := none
  allowDegenerateCanaryWeight : Bool := false
  automationPaused : Bool := false

/-- The validation of `CreateDeploymentRequest`; `none` is the 422. -/
def CreatePayload.validate (c : CreatePayload) : Option CreateDeploymentRequest :=
  if hweight : 0 ≤ c.canaryWeight ∧ c.canaryWeight ≤ 1 then
    if hversions : c.stableVersion = c.canaryVersion then none
    else if hproper : c.allowDegenerateCanaryWeight = true ∨ (0 < c.canaryWeight ∧ c.canaryWeight < 1) then
      some
        { modelName := c.modelName
          stableVersion := c.stableVersion
          canaryVersion := c.canaryVersion
          canaryWeight := c.canaryWeight
          policyConfig := c.policyConfig
          allowDegenerateCanaryWeight := c.allowDegenerateCanaryWeight
          automationPaused := c.automationPaused
          weight_nonneg := hweight.1
          weight_le_one := hweight.2
          versions_ne := hversions
          weight_proper := hproper }
    else none
  else none

structure NewDeploymentForm where
  modelName : String
  /-- `null`: no choice of the user yet -/
  stableOverride : Option String := none
  canaryOverride : Option String := none
  canaryWeightPercent : Nat := 10
  /-- the range input -/
  percent_range : 1 ≤ canaryWeightPercent ∧ canaryWeightPercent ≤ 50 := by decide
  /-- the data of `useAsync` -/
  versions : Option (List String) := none
  /-- the request of its last effect is unanswered -/
  fetching : Bool := true
  submitting : Bool := false

namespace NewDeploymentForm

/-- The form as it opens. -/
def start (modelNames : List String) : NewDeploymentForm := { modelName := modelNames.headD "" }

def stableVersion (form : NewDeploymentForm) : String :=
  form.stableOverride.getD ((form.versions.bind (·[0]?)).getD "")

def canaryVersion (form : NewDeploymentForm) : String :=
  form.canaryOverride.getD
    (((form.versions.bind (·[1]?)).or (form.versions.bind (·[0]?))).getD "")

/-- What `createDeployment` is called with. -/
def payload (form : NewDeploymentForm) : CreatePayload where
  modelName := form.modelName
  stableVersion := form.stableVersion
  canaryVersion := form.canaryVersion
  canaryWeight := form.canaryWeightPercent / 100

def canSubmit (form : NewDeploymentForm) : Bool :=
  decide (0 < form.modelName.length) && decide (0 < form.stableVersion.length) &&
    decide (0 < form.canaryVersion.length) && decide (form.stableVersion ≠ form.canaryVersion) &&
    !form.submitting

/-- `handleModelChange`; the effect runs again where the name is another. -/
def handleModelChange (form : NewDeploymentForm) (nextModelName : String) : NewDeploymentForm :=
  { form with
    modelName := nextModelName
    stableOverride := none
    canaryOverride := none
    fetching := form.fetching || decide (nextModelName ≠ form.modelName) }

inductive Label where
  | model (name : String)
  | stable (version : String)
  | canary (version : String)
  | weight (percent : Nat)
  /-- the request of the last effect is answered; the answers to those before are dropped -/
  | answered
  | failed
  | submit
  /-- the POST of a submit is answered, or lost -/
  | settled

/-- The fetcher: a model's versions, as GET /api/models/{model_name}/versions answers. -/
def fetch {ε : Type} (versionsOf : String → Except ε (List String)) (modelName : String) :
    Except ε (List String) :=
  if modelName = "" then .ok [] else versionsOf modelName

/-- A step of the form. -/
def next {ε : Type} (versionsOf : String → Except ε (List String)) (modelNames : List String)
    (form : NewDeploymentForm) : Label → Option NewDeploymentForm
  | .model name => if name ∈ modelNames then some (form.handleModelChange name) else none
  | .stable version =>
      -- disabled while there are none
      if version ∈ form.versions.getD [] then some { form with stableOverride := some version } else none
  | .canary version =>
      if version ∈ form.versions.getD [] then some { form with canaryOverride := some version } else none
  | .weight percent =>
      if h : 1 ≤ percent ∧ percent ≤ 50 then
        some { form with canaryWeightPercent := percent, percent_range := h }
      else none
  | .answered =>
      if form.fetching then
        some { form with versions := (fetch versionsOf form.modelName).toOption, fetching := false }
      else none
  | .failed => if form.fetching then some { form with versions := none, fetching := false } else none
  | .submit => if form.canSubmit then some { form with submitting := true } else none
  | .settled => if form.submitting then some { form with submitting := false } else none

/-- No version is chosen while a fetch is under way. -/
def Patient (form : NewDeploymentForm) (l : Label) (_ : NewDeploymentForm) : Prop :=
  match l with
  | .stable _ | .canary _ => form.fetching = false
  | .model _ | .weight _ | .answered | .failed | .submit | .settled => True

instance (form form' : NewDeploymentForm) (l : Label) : Decidable (Patient form l form') :=
  match l with
  | .stable _ | .canary _ => inferInstanceAs (Decidable (_ = _))
  | .model _ | .weight _ | .answered | .failed | .submit | .settled => isTrue trivial

end NewDeploymentForm

/-! ## 2. The versions it submits -/

section Versions

open NewDeploymentForm

variable {ε : Type} {versionsOf : String → Except ε (List String)} {modelNames : List String}
  {form form' : NewDeploymentForm} {l : NewDeploymentForm.Label} {ls : List NewDeploymentForm.Label}

/-- GET /api/models/{model_name}/versions names the version. -/
def Offers (versionsOf : String → Except ε (List String)) (modelName version : String) : Prop :=
  ∃ versions, fetch versionsOf modelName = .ok versions ∧ version ∈ versions

/-- What was chosen, and what was answered, are the selected model's. -/
structure Listed (versionsOf : String → Except ε (List String)) (form : NewDeploymentForm) : Prop where
  stable : ∀ version ∈ form.stableOverride, Offers versionsOf form.modelName version
  canary : ∀ version ∈ form.canaryOverride, Offers versionsOf form.modelName version
  versions : form.fetching = false →
    ∀ version ∈ form.versions.getD [], Offers versionsOf form.modelName version

theorem listed_start (modelNames : List String) :
    Listed versionsOf (NewDeploymentForm.start modelNames) where
  stable _ h := nomatch h
  canary _ h := nomatch h
  versions h := nomatch h

/-- **A choice that waits for the versions is one of the model's.** -/
theorem chosen_step (h : Listed versionsOf form) (hp : Patient form l form')
    (hn : next versionsOf modelNames form l = some form') : Listed versionsOf form' := by
  cases l with
  | model name =>
      obtain ⟨_, h'⟩ := Option.ite_none_right_eq_some.mp hn
      cases h'
      refine ⟨fun _ h => (nomatch h), fun _ h => (nomatch h), fun hdone version hv => ?_⟩
      -- the effect has not run again
      obtain ⟨hdone, hname⟩ := Bool.or_eq_false_iff.mp hdone
      have hsame : name = form.modelName := of_not_not (of_decide_eq_false hname)
      show Offers versionsOf name version
      rw [hsame]
      exact h.versions hdone version hv
  | stable version =>
      obtain ⟨hmem, h'⟩ := Option.ite_none_right_eq_some.mp hn
      cases h'
      exact ⟨fun v hv => Option.some.inj hv ▸ h.versions hp version hmem, h.canary, h.versions⟩
  | canary version =>
      obtain ⟨hmem, h'⟩ := Option.ite_none_right_eq_some.mp hn
      cases h'
      exact ⟨h.stable, fun v hv => Option.some.inj hv ▸ h.versions hp version hmem, h.versions⟩
  | weight percent =>
      simp only [next] at hn
      split at hn
      · cases hn
        exact ⟨h.stable, h.canary, h.versions⟩
      · cases hn
  | answered =>
      obtain ⟨_, h'⟩ := Option.ite_none_right_eq_some.mp hn
      cases h'
      refine ⟨h.stable, h.canary, fun _ version hv => ?_⟩
      cases hf : fetch versionsOf form.modelName with
      | error e =>
          rw [hf] at hv
          cases hv
      | ok versions =>
          rw [hf] at hv
          exact ⟨versions, hf, hv⟩
  | failed =>
      obtain ⟨_, h'⟩ := Option.ite_none_right_eq_some.mp hn
      cases h'
      exact ⟨h.stable, h.canary, fun _ _ hv => nomatch hv⟩
  | submit | settled =>
      obtain ⟨_, h'⟩ := Option.ite_none_right_eq_some.mp hn
      cases h'
      exact ⟨h.stable, h.canary, h.versions⟩

theorem listed_run (hpatient : Along (next versionsOf modelNames) Patient (.start modelNames) ls)
    (hrun : run (next versionsOf modelNames) (.start modelNames) ls = some form) :
    Listed versionsOf form := by
  have hstep : ∀ form l form', Listed versionsOf form → Patient form l form' →
      next versionsOf modelNames form l = some form' → Listed versionsOf form' :=
    fun _ _ _ h hp hn => chosen_step h hp hn
  exact run_inv_along hstep (listed_start modelNames) hpatient hrun

/-- A field that is not empty was chosen or is the default. -/
theorem picked {P : String → Prop} {chosen default : Option String} (hchosen : ∀ v ∈ chosen, P v)
    (hdefault : ∀ v ∈ default, P v) (h : 0 < (chosen.getD (default.getD "")).length) :
    P (chosen.getD (default.getD "")) := by
  cases chosen with
  | some version => exact hchosen version rfl
  | none =>
      cases default with
      | some version => exact hdefault version rfl
      | none => exact absurd h (by decide)

/-- **What is submitted behind the answer** are two versions of the model. -/
theorem listed_submit (h : Listed versionsOf form) (hdone : form.fetching = false)
    (hcan : form.canSubmit = true) :
    Offers versionsOf form.modelName form.stableVersion ∧
      Offers versionsOf form.modelName form.canaryVersion ∧ form.stableVersion ≠ form.canaryVersion := by
  unfold canSubmit at hcan
  simp only [Bool.and_eq_true, decide_eq_true_eq] at hcan
  obtain ⟨⟨⟨⟨_, hstable⟩, hcanary⟩, hne⟩, _⟩ := hcan
  have hlisted : ∀ i : Nat, ∀ version ∈ form.versions.bind fun versions => versions[i]?,
      Offers versionsOf form.modelName version := by
    intro i version hv
    obtain ⟨versions, hvs, hv⟩ := Option.bind_eq_some_iff.mp hv
    exact h.versions hdone version (hvs ▸ List.mem_of_getElem? hv)
  refine ⟨picked h.stable (hlisted 0) hstable, picked h.canary (fun version hv => ?_) hcanary, hne⟩
  rcases Option.or_eq_some_iff.mp hv with hv | ⟨_, hv⟩
  · exact hlisted 1 version hv
  · exact hlisted 0 version hv

end Versions

/-! ## 3. The rollout it starts -/

/-- A weight in whole percent is stored as it is. -/
theorem round_percent (percent : Nat) : Decimal.round 6 ((percent : ℚ) / 100) = percent / 100 ∧
    Decimal.round 6 (1 - (percent : ℚ) / 100) = 1 - percent / 100 := by
  refine ⟨Decimal.round_of_int (n := (percent : ℤ) * 10 ^ 4) ?_,
    Decimal.round_of_int (n := 10 ^ 6 - (percent : ℤ) * 10 ^ 4) ?_⟩
  · push_cast
    ring
  · push_cast
    ring

/-- What can be submitted passes the validation. -/
theorem payload_valid {form : NewDeploymentForm} (hne : form.stableVersion ≠ form.canaryVersion) :
    ∃ p, form.payload.validate = some p ∧ p.modelName = form.modelName ∧
      p.stableVersion = form.stableVersion ∧ p.canaryVersion = form.canaryVersion ∧
      p.canaryWeight = form.canaryWeightPercent / 100 ∧ p.policyConfig = none ∧
      p.automationPaused = false := by
  obtain ⟨hlow, hhigh⟩ := form.percent_range
  have hpos : (0 : ℚ) < form.canaryWeightPercent / 100 := by
    have : (0 : ℚ) < form.canaryWeightPercent := by exact_mod_cast hlow
    positivity
  have hhalf : (form.canaryWeightPercent : ℚ) / 100 ≤ 1 / 2 := by
    have : (form.canaryWeightPercent : ℚ) ≤ 50 := by exact_mod_cast hhigh
    linarith
  have hone : (form.canaryWeightPercent : ℚ) / 100 < 1 := hhalf.trans_lt (by norm_num)
  unfold CreatePayload.validate
  rw [dif_pos (show 0 ≤ form.payload.canaryWeight ∧ form.payload.canaryWeight ≤ 1 from
      ⟨hpos.le, hone.le⟩), dif_neg (show form.payload.stableVersion ≠ form.payload.canaryVersion from hne),
    dif_pos (show form.payload.allowDegenerateCanaryWeight = true ∨
      (0 < form.payload.canaryWeight ∧ form.payload.canaryWeight < 1) from Or.inr ⟨hpos, hone⟩)]
  exact ⟨_, rfl, rfl, rfl, rfl, rfl, rfl, rfl⟩

/-- **What the form submits, it gets.** After any run of the form in which versions are chosen only while
    no fetch is under way, when it can be submitted and the versions have been answered, its request is
    valid and names two versions of the selected model. If the model has a rollout that is not settled, it
    is refused for that model, with nothing changed; otherwise the rollout is created, takes traffic in
    exactly the percentages of the form, and both versions get some. -/
theorem form_submits {ε : Type} (versionsOf : String → Except ε (List String)) (modelNames : List String)
    (ls : List NewDeploymentForm.Label) (form : NewDeploymentForm)
    (hrun : run (NewDeploymentForm.next versionsOf modelNames) (.start modelNames) ls = some form)
    (hpatient : Along (NewDeploymentForm.next versionsOf modelNames) NewDeploymentForm.Patient
      (.start modelNames) ls)
    (hdone : form.fetching = false) (hcan : form.canSubmit = true) (db : Db) (env : Env) (key : String)
    (hid : db.deployment? env.newId = none) (hkey : KeyNew db (some key)) :
    ∃ p, form.payload.validate = some p ∧
      Offers versionsOf form.modelName form.stableVersion ∧
      Offers versionsOf form.modelName form.canaryVersion ∧
      let answer := (Request.create p (some key)).exec env db
      (Occupied db form.modelName → ∃ id,
        answer = (.error (.activeDeploymentExists form.modelName id), db)) ∧
      (¬Occupied db form.modelName → ∃ reply row a, answer.1 = .ok reply ∧ reply.created = true ∧
        answer.2.deployment? env.newId = some row ∧ row.modelName = form.modelName ∧
        row.status = .canaryRunning ∧ row.policyConfig = some env.policyDefaults ∧
        row.automationPaused = false ∧ answer.2.trafficAllocation? env.newId = some a ∧
        a.targets = [⟨form.stableVersion, 1 - (form.canaryWeightPercent : ℚ) / 100⟩,
          ⟨form.canaryVersion, (form.canaryWeightPercent : ℚ) / 100⟩] ∧
        a.Serves form.stableVersion ∧ a.Serves form.canaryVersion) := by
  obtain ⟨hstable, hcanary, hne⟩ := listed_submit (listed_run hpatient hrun) hdone hcan
  obtain ⟨p, hp, hmodel, hs, hc, hweight, hpolicy, hpaused⟩ := payload_valid hne
  refine ⟨p, hp, hstable, hcanary, ?_⟩
  rw [← hmodel, ← hs, ← hc]
  intro answer
  refine ⟨fun hocc => ?_, fun hfree => ?_⟩
  · obtain ⟨id, herr⟩ := exec_create_occupied (p := p) hid hkey hocc
    refine ⟨id, ?_⟩
    rcases exec_cases env db (.create p (some key)) with ⟨x, hexec, _⟩ | ⟨r, row, split, bodies, _, hexec⟩
    · rw [hexec] at herr
      exact hexec.trans (by rw [show x = _ from herr])
    · rw [hexec] at herr
      cases herr
  · have hok := exec_create_free (p := p) hid hkey hfree
    obtain ⟨_, hrow, revision, ha⟩ := exec_create hok rfl
    have hpercent := round_percent form.canaryWeightPercent
    have hweights : 0 < Decimal.round 6 (1 - p.canaryWeight) ∧ 0 < Decimal.round 6 p.canaryWeight := by
      obtain ⟨hlow, hhigh⟩ := form.percent_range
      have hlow : (1 : ℚ) ≤ form.canaryWeightPercent := by exact_mod_cast hlow
      have hhigh : (form.canaryWeightPercent : ℚ) ≤ 50 := by exact_mod_cast hhigh
      rw [hweight, hpercent.1, hpercent.2]
      constructor <;> linarith
    obtain ⟨hserves, hserves'⟩ := serves_split (w := p.canaryWeight) p.versions_ne env.newId revision
    have hdefaults : (createdRow env p (some key)).policyConfig = some env.policyDefaults := by
      show some (p.policyConfig.getD env.policyDefaults) = _
      rw [hpolicy]
      rfl
    refine ⟨_, _, _, hok, rfl, hrow, rfl, rfl, hdefaults, hpaused, ha, ?_, hserves.mpr hweights.1,
      hserves'.mpr hweights.2⟩
    unfold createdTargets canarySplit
    rw [hweight, hpercent.1, hpercent.2]

/-- A registry of two models. -/
def sampleVersions (modelName : String) : Except Unit (List String) :=
  if modelName = "fraud-model" then .ok ["v1", "v2"]
  else if modelName = "churn-model" then .ok ["2024-01", "2024-02"] else .error ()

def sampleModels : List String := ["fraud-model", "churn-model"]

/-- Another model is selected, answered and given a quarter of its traffic to the older version. -/
def sampleClicks : List NewDeploymentForm.Label :=
  [.answered, .model "churn-model", .weight 25, .answered, .canary "2024-01", .stable "2024-02"]

theorem form_submits_sample :
    ∃ form p, run (NewDeploymentForm.next sampleVersions sampleModels) (.start sampleModels) sampleClicks =
        some form ∧
      form.payload.validate = some p ∧ ∃ a : TrafficAllocation,
        ((Request.create p (some "key")).exec (Env.after 0 "d1") .empty).2.trafficAllocation? "d1" = some a ∧
        a.targets = [⟨"2024-02", 3 / 4⟩, ⟨"2024-01", 1 / 4⟩] := by
  have hvisit : (run (NewDeploymentForm.next sampleVersions sampleModels) (.start sampleModels)
      sampleClicks).map (fun form => (form.fetching, form.canSubmit, form.modelName, form.stableVersion,
        form.canaryVersion, form.canaryWeightPercent)) =
      some (false, true, "churn-model", "2024-02", "2024-01", 25) := by decide +kernel
  have hpatient : Along (NewDeploymentForm.next sampleVersions sampleModels) NewDeploymentForm.Patient
      (.start sampleModels) sampleClicks := by decide +kernel
  obtain ⟨form, hrun, h⟩ := Option.map_eq_some_iff.mp hvisit
  simp only [Prod.mk.injEq] at h
  obtain ⟨hdone, hcan, _, hs, hc, hpercent⟩ := h
  obtain ⟨p, hp, _, _, _, hcreated⟩ := form_submits sampleVersions sampleModels sampleClicks form hrun
    hpatient hdone hcan .empty (Env.after 0 "d1") "key" rfl fun _ h => absurd h List.not_mem_nil
  obtain ⟨_, _, a, _, _, _, _, _, _, _, ha, htargets, _⟩ :=
    hcreated fun ⟨_, h, _⟩ => absurd h List.not_mem_nil
  refine ⟨form, p, hrun, hp, a, ha, ?_⟩
  rw [htargets, hs, hc, hpercent]
  norm_num

/-- **A submit that does not wait** creates a rollout of versions that the model does not have. -/
theorem hasty_submit :
    ¬∀ (ls : List NewDeploymentForm.Label) (form : NewDeploymentForm),
      run (NewDeploymentForm.next sampleVersions sampleModels) (.start sampleModels) ls = some form →
      form.canSubmit = true → Offers sampleVersions form.modelName form.canaryVersion := by
  intro h
  have hhasty : (run (NewDeploymentForm.next sampleVersions sampleModels) (.start sampleModels)
      (sampleClicks.take 2)).map (fun form => (form.canSubmit, form.modelName, form.canaryVersion)) =
      some (true, "churn-model", "v2") := by decide +kernel
  obtain ⟨form, hrun, hform⟩ := Option.map_eq_some_iff.mp hhasty
  simp only [Prod.mk.injEq] at hform
  obtain ⟨hcan, hmodel, hversion⟩ := hform
  have hoffers := h _ form hrun hcan
  rw [hmodel, hversion] at hoffers
  obtain ⟨versions, hversions, hmem⟩ := hoffers
  cases hversions
  exact absurd hmem (by decide)

end ModelOps
