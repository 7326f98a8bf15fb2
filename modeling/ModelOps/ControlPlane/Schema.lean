/-
  File:      ModelOps/ControlPlane/Schema.lean
  Subject:   The unique indexes as an invariant, and the shape of every committed deployment.

  * `Amends` -- how an operation on an existing rollout changes its row: the identity columns stay,
    the version grows by one, and the row it started from was open. `Effect.creates_or_amends` is
    the case split the later modules use instead of the seven requests;
  * `Turns` -- the effects on one row that is there; `exec_turns`: a request leaves it, or turns it;
  * `Schema` -- no two rows share an idempotency key, no two open rollouts share a model;
    `schema_exec`: every request keeps it;
  * `Shape` -- status, split, completion time and retry counter of a committed row fit together;
    `shaped_exec`: every request keeps it for every row.
-/
import ModelOps.ControlPlane.ServiceSpec

namespace ModelOps

open Relational

/-! ## 1. Rows created and rows amended -/

/-- A rollout nobody has resolved. -/
def Deployment.Open (d : Deployment) : Prop := d.status.terminal = false

/-- `row` replaces the open row `d`. -/
structure Amends (d row : Deployment) : Prop where
  was_open : d.Open
  id_eq : row.id = d.id
  modelName_eq : row.modelName = d.modelName
  stableVersion_eq : row.stableVersion = d.stableVersion
  canaryVersion_eq : row.canaryVersion = d.canaryVersion
  idempotencyKey_eq : row.idempotencyKey = d.idempotencyKey
  policyConfig_eq : row.policyConfig = d.policyConfig
  createdAt_eq : row.createdAt = d.createdAt
  versionId_eq : row.versionId = d.versionId + 1

theorem open_of_active {d : Deployment} (h : d.status.active = true) : d.Open :=
  DeploymentStatus.not_terminal_of_active h

/-- Only an open rollout can be promoted or rolled back. -/
theorem open_of_admits {r : Resolution} {d : Deployment} (h : r.Admits d.status) : d.Open := by
  cases hs : d.status.terminal with
  | false => exact hs
  | true =>
      rcases h with h | h
      · rw [h] at hs
        cases hs
      · rw [terminal_stuck hs] at h
        cases h

section Effects

variable {env : Env} {db : Db} {req : Request} {reply : Reply} {row : Deployment}
  {split : Option (List TargetWeight)} {bodies : List EventBody}

/-- **What a request makes of `d`**: the row it leaves in its place, and the targets it publishes. -/
inductive Turns (env : Env) (db : Db) (d : Deployment) : Request → Deployment →
    Option (List TargetWeight) → Prop where
  | resolved {req : Request} {r : Resolution} {by_ : TriggeredBy} (hreq : req.Resolves r d.id by_)
      (ha : r.Admits d.status) :
      Turns env db d req (resolvedRow r env d) (some (resolvedTargets r d))
  | advanced {w : ℚ} (ha : d.status.active = true) (hw : nextStage (db.canaryWeight d) = some w) :
      Turns env db d (.advanceTraffic d.id) (advancedRow env d) (some (advancedTargets d w))
  | cycled (ha : d.status.active = true)
      (hn : d.inconclusiveRetryCount + 1 ≤ (getPolicyConfig env d).maxInconclusiveRetries) :
      Turns env db d (.recordInconclusive d.id) (cycledRow env d) none
  | frozen (ha : d.status.active = true)
      (hn : (getPolicyConfig env d).maxInconclusiveRetries < d.inconclusiveRetryCount + 1) :
      Turns env db d (.recordInconclusive d.id) (frozenRow env d) none
  | flagged {req : Request} {paused : Bool} {event : EventBody} (hreq : req.Flags paused event d.id)
      (ht : d.status.terminal = false) (hp : d.automationPaused ≠ paused) :
      Turns env db d req (flaggedRow env paused d) none

/-- A turn amends the row. -/
theorem Turns.amends {d : Deployment} (h : Turns env db d req row split) : Amends d row := by
  cases h with
  | resolved hreq ha => exact ⟨open_of_admits ha, rfl, rfl, rfl, rfl, rfl, rfl, rfl, rfl⟩
  | advanced ha hw => exact ⟨open_of_active ha, rfl, rfl, rfl, rfl, rfl, rfl, rfl, rfl⟩
  | cycled ha hn => exact ⟨open_of_active ha, rfl, rfl, rfl, rfl, rfl, rfl, rfl, rfl⟩
  | frozen ha hn => exact ⟨open_of_active ha, rfl, rfl, rfl, rfl, rfl, rfl, rfl, rfl⟩
  | flagged hreq ht hp => exact ⟨ht, rfl, rfl, rfl, rfl, rfl, rfl, rfl, rfl⟩

/-- **A request that commits creates an open row or amends one.** -/
theorem Effect.creates_or_amends (h : Effect env db req reply row split bodies) :
    (∃ p key, req = .create p key ∧ db.Accepts (newDeployment env p key) ∧
      row = createdRow env p key ∧ split = some (createdTargets p)) ∨
    ∃ d, db.deployment? row.id = some d ∧ Amends d row := by
  have hturn : ∀ {req d row split}, Turns env db d req row split → Amends d row := Turns.amends
  cases h with
  | created p key hacc => exact Or.inl ⟨p, key, rfl, hacc, rfl, rfl⟩
  | resolved hreq hd ha => exact Or.inr ⟨_, hd, hturn (.resolved hreq ha)⟩
  | advanced hd ha hw => exact Or.inr ⟨_, hd, hturn (.advanced ha hw)⟩
  | cycled hd ha hn => exact Or.inr ⟨_, hd, hturn (.cycled ha hn)⟩
  | frozen hd ha hn => exact Or.inr ⟨_, hd, hturn (.frozen ha hn)⟩
  | flagged hreq hd ht hp => exact Or.inr ⟨_, hd, hturn (.flagged hreq ht hp)⟩

/-- A request that puts a row which is there amends it. -/
theorem Effect.amends (h : Effect env db req reply row split bodies) {d : Deployment}
    (hd : db.deployment? row.id = some d) : Amends d row := by
  rcases h.creates_or_amends with ⟨p, key, _, hacc, rfl, _⟩ | ⟨d0, hd0, ha⟩
  · exact (hacc.absent hd).elim
  · rw [hd0] at hd
    cases hd
    exact ha

theorem mem_applied {events : List DeploymentEvent} {d : Deployment} :
    d ∈ (db.applied row split events).deployments ↔
      d = row ∨ (d ∈ db.deployments ∧ d.id ≠ row.id) :=
  Table.mem_put

/-- An effect on a row that is there is a turn of it. -/
theorem Effect.turns (h : Effect env db req reply row split bodies) {d : Deployment}
    (hd : db.deployment? row.id = some d) : Turns env db d req row split := by
  have hsame : ∀ {d' : Deployment}, db.deployment? d'.id = some d' → d'.id = row.id → d' = d := by
    intro d' hd' hid
    rw [hid, hd] at hd'
    exact (Option.some.inj hd').symm
  cases h with
  | created p key hacc => exact (hacc.absent hd).elim
  | resolved hreq hd' ha =>
      cases hsame hd' rfl
      exact .resolved hreq ha
  | advanced hd' ha hw =>
      cases hsame hd' rfl
      exact .advanced ha hw
  | cycled hd' ha hn =>
      cases hsame hd' rfl
      exact .cycled ha hn
  | frozen hd' ha hn =>
      cases hsame hd' rfl
      exact .frozen ha hn
  | flagged hreq hd' ht hp =>
      cases hsame hd' rfl
      exact .flagged hreq ht hp

/-- **What a request leaves of a deployment**: the row and its allocation as they were, or a turn of
    it. -/
theorem exec_turns (env : Env) (req : Request) {db : Db} {d : Deployment}
    (hd : db.deployment? d.id = some d) :
    ((req.exec env db).2.deployment? d.id = some d ∧
      (req.exec env db).2.trafficAllocation? d.id = db.trafficAllocation? d.id) ∨
    ∃ row split events, Turns env db d req row split ∧ row.id = d.id ∧
      (req.exec env db).2 = db.applied row split events := by
  rcases exec_cases env db req with ⟨x, hx, _⟩ | ⟨_, row, split, bodies, heff, hx⟩
  · rw [hx]
    exact Or.inl ⟨hd, rfl⟩
  · rw [hx]
    by_cases hid : d.id = row.id
    · exact Or.inr ⟨row, split, _, heff.turns (hid ▸ hd), hid.symm, rfl⟩
    · left
      rw [applied_deployment?, if_neg hid, applied_trafficAllocation?_ne hid]
      exact ⟨hd, rfl⟩

/-! ## 2. The unique indexes -/

/-- Two rows one of the unique indexes forbids side by side. -/
def Deployment.Collides (d d' : Deployment) : Prop :=
  (d.idempotencyKey.isSome ∧ d.idempotencyKey = d'.idempotencyKey) ∨
  (d.Open ∧ d'.Open ∧ d.modelName = d'.modelName)

theorem collides_symm {d d' : Deployment} (h : d.Collides d') : d'.Collides d := by
  rcases h with ⟨hk, he⟩ | ⟨ho, ho', hm⟩
  · exact Or.inl ⟨he ▸ hk, he.symm⟩
  · exact Or.inr ⟨ho', ho, hm.symm⟩

/-- The unique indexes hold of the committed rows. -/
def Schema (db : Db) : Prop :=
  ∀ d ∈ db.deployments, ∀ d' ∈ db.deployments, d.Collides d' → d = d'

theorem Schema.open_unique (hs : Schema db) {d d' : Deployment} (hd : d ∈ db.deployments)
    (hd' : d' ∈ db.deployments) (ho : d.Open) (ho' : d'.Open) (hm : d.modelName = d'.modelName) :
    d = d' :=
  hs d hd d' hd' (Or.inr ⟨ho, ho', hm⟩)

theorem schema_empty : Schema .empty := fun d hd => (Table.not_mem_empty d hd).elim

theorem find_eq_none {k : String} :
    db.findByIdempotencyKey k = none ↔ ∀ d ∈ db.deployments, d.idempotencyKey ≠ some k := by
  simp [Db.findByIdempotencyKey, Table.mem_rows]

/-- A row the indexes accept collides with none that is there. -/
theorem accepts_apart {d0 d : Deployment} (hacc : db.Accepts d0) (hd : d ∈ db.deployments) :
    ¬d0.Collides d := by
  intro h
  rcases h with ⟨hk, he⟩ | ⟨ho, ho', hm⟩
  · obtain ⟨k, hk⟩ := Option.isSome_iff_exists.mp hk
    exact find_eq_none.mp (hacc.key_new k hk) d hd (he ▸ hk)
  · have := hacc.model_free ho d hd hm.symm
    rw [ho'] at this
    cases this

/-- An amended row collides with no more rows than before. -/
theorem amends_apart (hs : Schema db) {d x : Deployment} (hd : d ∈ db.deployments)
    (ha : Amends d row) (hx : x ∈ db.deployments) (hne : x.id ≠ row.id) : ¬row.Collides x := by
  intro h
  have hdx : d = x := by
    refine hs d hd x hx ?_
    rcases h with ⟨hk, he⟩ | ⟨_, ho', hm⟩
    · rw [ha.idempotencyKey_eq] at hk he
      exact Or.inl ⟨hk, he⟩
    · exact Or.inr ⟨ha.was_open, ho', ha.modelName_eq.symm.trans hm⟩
  exact hne (hdx ▸ ha.id_eq.symm)

theorem Effect.schema (h : Effect env db req reply row split bodies) (hs : Schema db)
    (events : List DeploymentEvent) : Schema (db.applied row split events) := by
  refine Table.unique_put (fun _ _ => collides_symm) hs ?_
  rcases h.creates_or_amends with ⟨p, key, _, hacc, rfl, _⟩ | ⟨d, hd, ha⟩
  · intro x hx _
    -- the row that was accepted is still PENDING; open as both are, they collide with the same rows
    have hapart := accepts_apart hacc hx
    exact hapart
  · intro x hx hne
    exact amends_apart hs (deployment?_eq_some.mp hd).1 ha hx hne

/-- The rows of a committing request's model, before it: the row itself or closed ones. -/
theorem Effect.others_closed (h : Effect env db req reply row split bodies) (hs : Schema db)
    {d : Deployment} (hd : d ∈ db.deployments) (hm : d.modelName = row.modelName)
    (hne : d.id ≠ row.id) : ¬d.Open := by
  intro ho
  rcases h.creates_or_amends with ⟨p, key, _, hacc, rfl, _⟩ | ⟨d0, hd0, ha⟩
  · exact accepts_apart hacc hd (Or.inr ⟨rfl, ho, hm.symm⟩)
  · have h0 := (deployment?_eq_some.mp hd0).1
    have heq := hs.open_unique h0 hd ha.was_open ho (ha.modelName_eq.symm.trans hm.symm)
    exact hne (heq ▸ ha.id_eq.symm)

/-- The model of a row never changes. -/
theorem Effect.modelName_stays (h : Effect env db req reply row split bodies) {d : Deployment}
    (hd : d ∈ db.deployments) (hid : d.id = row.id) : d.modelName = row.modelName :=
  (h.amends (deployment?_eq_some.mpr ⟨hd, hid⟩)).modelName_eq.symm

end Effects

/-- **Every request keeps the unique indexes.** -/
theorem schema_exec (env : Env) {db : Db} (req : Request) (hs : Schema db) :
    Schema (req.exec env db).2 := by
  rcases exec_cases env db req with ⟨x, h, _⟩ | ⟨reply, row, split, bodies, heff, h⟩
  · rw [h]
    exact hs
  · rw [h]
    exact heff.schema hs _

/-- **What creation and amendment keep of a row, every request keeps of every row.** -/
theorem rows_exec {P : Deployment → Prop} {env : Env} {db : Db} {req : Request}
    (hcreate : ∀ p key, req = .create p key → P (createdRow env p key))
    (hamend : ∀ d row, Amends d row → P d → P row) (h : ∀ d ∈ db.deployments, P d) :
    ∀ d ∈ (req.exec env db).2.deployments, P d := by
  rcases exec_cases env db req with ⟨x, hx, _⟩ | ⟨_, row, split, bodies, heff, hx⟩
  · rw [hx]
    exact h
  · rw [hx]
    intro d hd
    rcases mem_applied.mp hd with rfl | ⟨hd, _⟩
    · rcases heff.creates_or_amends with ⟨p, key, hreq, _, rfl, _⟩ | ⟨d0, hd0, ha⟩
      · exact hcreate p key hreq
      · exact hamend d0 d ha (h d0 (deployment?_eq_some.mp hd0).1)
    · exact h d hd

/-! ## 3. The shape of a committed deployment -/

/-- The targets fit the status: a split while the rollout is open, one version at 100% after it. -/
def Fits (d : Deployment) (targets : List TargetWeight) : Prop :=
  match d.status with
  | .canaryRunning | .inconclusive =>
      ∃ w, 0 ≤ w ∧ w ≤ 1 ∧ targets = canarySplit d.stableVersion d.canaryVersion w
  | .promoted => targets = [⟨d.canaryVersion, 1⟩]
  | .rolledBack => targets = [⟨d.stableVersion, 1⟩]
  | _ => False

structure Shape (db : Db) (d : Deployment) : Prop where
  versions_ne : d.stableVersion ≠ d.canaryVersion
  split : ∃ a, db.trafficAllocation? d.id = some a ∧ Fits d a.targets
  completed : d.completedAt = none ↔ d.status = .canaryRunning
  policy : ∃ p, d.policyConfig = some p ∧
    (d.status = .canaryRunning → d.inconclusiveRetryCount ≤ p.maxInconclusiveRetries) ∧
    (d.status = .inconclusive → d.inconclusiveRetryCount = p.maxInconclusiveRetries + 1)

/-- Every committed row has its shape. -/
def Shaped (db : Db) : Prop := ∀ d ∈ db.deployments, Shape db d

theorem shaped_empty : Shaped .empty := fun d hd => (Table.not_mem_empty d hd).elim

section Shapes

variable {env : Env} {db : Db} {req : Request} {reply : Reply} {row d : Deployment}
  {split : Option (List TargetWeight)} {bodies : List EventBody}

/-- Transient statuses are never committed. -/
theorem Shape.status_cases (h : Shape db d) :
    d.status = .canaryRunning ∨ d.status = .inconclusive ∨ d.status = .promoted ∨
      d.status = .rolledBack := by
  obtain ⟨a, _, hf⟩ := h.split
  unfold Fits at hf
  cases hs : d.status <;> simp_all

theorem Shape.running_of_active (h : Shape db d) (ha : d.status.active = true) :
    d.status = .canaryRunning := by
  rcases h.status_cases with hs | hs | hs | hs <;> rw [hs] at ha ⊢ <;> cases ha

theorem Shape.running_or_frozen (h : Shape db d) (ho : d.Open) :
    d.status = .canaryRunning ∨ d.status = .inconclusive := by
  rcases h.status_cases with hs | hs | hs | hs
  · exact Or.inl hs
  · exact Or.inr hs
  · rw [Deployment.Open, hs] at ho
    cases ho
  · rw [Deployment.Open, hs] at ho
    cases ho

theorem nextStage_mem {w w' : ℚ} (h : nextStage w = some w') :
    w' ∈ TRAFFIC_STAGES ∧ w + 1 / 10 ^ 9 < w' := by
  refine ⟨List.mem_of_find?_eq_some h, ?_⟩
  simpa using List.find?_some h

theorem stage_bounds : ∀ w ∈ TRAFFIC_STAGES, 0 ≤ w ∧ w ≤ 1 ∧ Decimal.round 6 w = w := by
  decide +kernel

/-- The row a request leaves behind has its shape. -/
theorem Effect.shape_row (h : Effect env db req reply row split bodies)
    (hs : ∀ d ∈ db.deployments, Shape db d) (events : List DeploymentEvent) :
    Shape (db.applied row split events) row := by
  have hold : ∀ {d : Deployment}, db.deployment? d.id = some d → Shape db d :=
    fun hd => hs _ (deployment?_eq_some.mp hd).1
  have hput : ∀ targets, ∃ a,
      (db.applied row (some targets) events).trafficAllocation? row.id = some a ∧
        a.targets = targets := by
    intro targets
    refine ⟨⟨row.id, targets, db.generation row.modelName + 1⟩, ?_, rfl⟩
    rw [applied_some_trafficAllocation?, if_pos rfl]
  cases h with
  | created p key hacc =>
      obtain ⟨a, ha, ht⟩ := hput (createdTargets p)
      refine ⟨p.versions_ne, ⟨a, ha, ?_⟩, ?_, ⟨_, rfl, ?_, ?_⟩⟩
      · rw [ht]
        exact ⟨p.canaryWeight, p.weight_nonneg, p.weight_le_one, rfl⟩
      · simp [createdRow, newDeployment]
      · simp [createdRow, newDeployment]
      · simp [createdRow]
  | @resolved _ r d by_ hreq hd hadm =>
      obtain ⟨a, ha, ht⟩ := hput (resolvedTargets r d)
      obtain ⟨hne, _, _, p, hp, _⟩ := hold hd
      have hfits : Fits (resolvedRow r env d) (resolvedTargets r d) ∧
          r.settled ≠ .canaryRunning ∧ r.settled ≠ .inconclusive := by
        cases hreq with
        | promote => exact ⟨rfl, by decide, by decide⟩
        | rollback => exact ⟨rfl, by decide, by decide⟩
      refine ⟨hne, ⟨a, ha, ?_⟩, ?_, ⟨p, hp, ?_, ?_⟩⟩
      · rw [ht]
        exact hfits.1
      · simp [resolvedRow, hfits.2.1]
      · intro h
        exact absurd h hfits.2.1
      · intro h
        exact absurd h hfits.2.2
  | @advanced d w hd hact hw =>
      obtain ⟨a, ha, ht⟩ := hput (advancedTargets d w)
      have hsh := hold hd
      have hrun := hsh.running_of_active hact
      obtain ⟨hw0, hw1, _⟩ := stage_bounds w (nextStage_mem hw).1
      refine ⟨hsh.versions_ne, ⟨a, ha, ?_⟩, hsh.completed, hsh.policy⟩
      rw [ht]
      simp only [Fits, advancedRow, hrun]
      exact ⟨w, hw0, hw1, rfl⟩
  | @cycled d hd hact hn =>
      have hsh := hold hd
      obtain ⟨p, hp, hcount, _⟩ := hsh.policy
      have hrun := hsh.running_of_active hact
      refine ⟨hsh.versions_ne, hsh.split, hsh.completed, p, hp, ?_, ?_⟩
      · intro _
        simp only [getPolicyConfig, hp, Option.getD_some] at hn
        exact hn
      · intro h
        rw [show (cycledRow env d).status = d.status from rfl, hrun] at h
        cases h
  | @frozen d hd hact hn =>
      have hsh := hold hd
      obtain ⟨p, hp, hcount, _⟩ := hsh.policy
      have hrun := hsh.running_of_active hact
      obtain ⟨a, ha, hf⟩ := hsh.split
      refine ⟨hsh.versions_ne, ⟨a, ha, ?_⟩, ?_, p, hp, ?_, ?_⟩
      · simp only [Fits, hrun] at hf
        exact hf
      · simp [frozenRow]
      · intro h
        cases h
      · intro _
        have hle := hcount hrun
        simp only [getPolicyConfig, hp, Option.getD_some] at hn
        show d.inconclusiveRetryCount + 1 = _
        omega
  | @flagged _ _ _ d hreq hd ht hp =>
      have hsh := hold hd
      exact ⟨hsh.versions_ne, hsh.split, hsh.completed, hsh.policy⟩

theorem Effect.shaped (h : Effect env db req reply row split bodies) (hs : Shaped db)
    (events : List DeploymentEvent) : Shaped (db.applied row split events) := by
  intro d hd
  rcases mem_applied.mp hd with rfl | ⟨hd, hne⟩
  · exact h.shape_row hs events
  · obtain ⟨hv, ⟨a, ha, hf⟩, hc, hp⟩ := hs d hd
    exact ⟨hv, ⟨a, (applied_trafficAllocation?_ne hne).trans ha, hf⟩, hc, hp⟩

end Shapes

/-- **Every request keeps every row in shape.** -/
theorem shaped_exec (env : Env) {db : Db} (req : Request) (hs : Shaped db) :
    Shaped (req.exec env db).2 := by
  rcases exec_cases env db req with ⟨x, h, _⟩ | ⟨reply, row, split, bodies, heff, h⟩
  · rw [h]
    exact hs
  · rw [h]
    exact heff.shaped hs _

end ModelOps
