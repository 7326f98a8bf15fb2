/-
  File:      ModelOps/Worker/Fleet.lean
  Subject:   Any number of workers over the same tables, with any other requests between their calls.

  Each process stands somewhere in a sweep of its own (`Sweep`, Hold.lean). A GET of a deployment reads
  the row and, some time later, its allocation (`FleetLabel.load`); the weight that `process_deployment`
  compares is as old as that read, and the promote endpoint looks at no weight. Requests stand at their
  commits: sessions that overlap leave what their commits leave one by one (`lifecycle_serializable`).

  * `weight_exec` -- while a rollout is open its canary's share never decreases, whatever request runs;
  * `full_weight` -- a share within 1e-9 of 1 is 1: shares are whole millionths;
  * **`promotes_full`** -- a promote of a worker that commits finds the canary at 100%.
-/
import ModelOps.System.History
import ModelOps.Worker.Hold

namespace ModelOps

open Relational Labelled

/-! ## 1. The fleet -/

/-- The tables, and where each worker stands in its list. -/
structure Fleet (ω : Type) where
  db : Db
  task : ω → Option Task
  remaining : ω → List String

/-- No worker has begun. -/
def Fleet.start (ω : Type) (db : Db) : Fleet ω := ⟨db, fun _ => none, fun _ => []⟩

def Fleet.sweep {ω : Type} (f : Fleet ω) (i : ω) : Sweep := ⟨f.db, f.task i, f.remaining i⟩

inductive FleetLabel (ω : Type) where
  /-- a call of one worker; a `request` is somebody else's -/
  | sweep (i : ω) (l : SweepLabel)
  /-- the GET of one worker reads the allocation -/
  | load (i : ω)

/-- The allocation as it is now, under the row read before. -/
def DeploymentOut.reload (out : DeploymentOut) (db : Db) : DeploymentOut :=
  { out with trafficAllocation := db.trafficAllocation? out.deployment.id }

section Next

variable {ω : Type} [DecidableEq ω]

def Fleet.next (f : Fleet ω) : FleetLabel ω → Option (Fleet ω)
  | .sweep i l =>
      (Sweep.next (f.sweep i) l).map fun w =>
        ⟨w.db, Function.update f.task i w.task, Function.update f.remaining i w.remaining⟩
  | .load i =>
      match f.task i with
      | some (.fetched out) =>
          some { f with task := Function.update f.task i (some (.fetched (out.reload f.db))) }
      | _ => none

/-- If the action that is next is a promote and commits, the canary has all the traffic. -/
def CommitsFull (db : Db) (env : Env) : Option Task → Prop
  | some (.decided id .promote) =>
      ((WorkerAction.promote.request id).exec env db).1.isOk = true →
        ∀ d ∈ db.deployment? id, db.canaryWeight d = 1
  | some (.decided _ .advanceTraffic) | some (.decided _ .rollback)
  | some (.decided _ .recordInconclusive) | some (.fetched _) | some (.due _) | none => True

/-- A promote of a worker that commits finds the canary with all the traffic. -/
def PromotesFull (f : Fleet ω) (l : FleetLabel ω) (_ : Fleet ω) : Prop :=
  match l with
  | .sweep i (.act env) => CommitsFull f.db env (f.task i)
  | .sweep _ (.request _ _) | .sweep _ .list | .sweep _ .fetch | .sweep _ (.checkDue _)
  | .sweep _ (.evaluate _) | .sweep _ .skip | .sweep _ .restart | .load _ => True

end Next

/-! ## 2. The canary's share -/

section Weight

variable {db : Db} {env : Env} {req : Request} {reply : Reply} {row d : Deployment}
  {split : Option (List TargetWeight)} {bodies : List EventBody} {id : String}

/-- The share of an open rollout is a whole number of millionths, at most all of them. -/
theorem Shape.weight (hsh : Shape db d) (ho : d.Open) :
    ∃ k : Nat, k ≤ 10 ^ 6 ∧ db.canaryWeight d = k / 10 ^ 6 := by
  obtain ⟨a, ha, hf⟩ := hsh.split
  have hsplit : ∃ w, 0 ≤ w ∧ w ≤ 1 ∧
      a.targets = canarySplit d.stableVersion d.canaryVersion w := by
    rcases hsh.running_or_frozen ho with hs | hs
    · simpa only [Fits, hs] using hf
    · simpa only [Fits, hs] using hf
  obtain ⟨w, h0, h1, ht⟩ := hsplit
  rw [canaryWeight_of_split ha ht hsh.versions_ne]
  exact round_millionths h0 h1

theorem Shape.weight_le_one (hsh : Shape db d) (ho : d.Open) : db.canaryWeight d ≤ 1 := by
  obtain ⟨k, hk, hw⟩ := hsh.weight ho
  rw [hw, div_le_one (by norm_num)]
  exact_mod_cast hk

/-- **A share within the tolerance of 1 is 1.** -/
theorem Shape.full_weight (hsh : Shape db d) (ho : d.Open) (h : 1 - 1 / 10 ^ 9 ≤ db.canaryWeight d) :
    db.canaryWeight d = 1 := by
  obtain ⟨k, hk, hw⟩ := hsh.weight ho
  rw [hw] at h ⊢
  have hge : (10 : ℚ) ^ 6 - 1 < k := by linarith
  have hk' : 10 ^ 6 ≤ k := by
    have hnat : 10 ^ 6 < k + 1 := by exact_mod_cast (sub_lt_iff_lt_add.mp hge)
    omega
  rw [show k = 10 ^ 6 by omega]
  norm_num

/-- What `_canary_at_full_traffic` compares is the canary's share. -/
theorem canaryAtFullTraffic_iff {out : DeploymentOut}
    (hv : d.canaryVersion = out.deployment.canaryVersion)
    (ha : out.trafficAllocation = db.trafficAllocation? d.id) :
    canaryAtFullTraffic out = true ↔ 1 - 1 / 10 ^ 9 ≤ db.canaryWeight d := by
  unfold canaryAtFullTraffic Db.canaryWeight currentCanaryWeight
  rw [ha, ← hv]
  have hpos : ¬(1 : ℚ) - 1 / 10 ^ 9 ≤ 0 := by norm_num
  cases db.trafficAllocation? d.id with
  | none => simpa using hpos
  | some a =>
      dsimp only
      cases a.targets.find? fun t => decide (t.version = d.canaryVersion) with
      | none => simpa using hpos
      | some t => exact decide_eq_true_iff

/-- The share of a row put with a split. -/
theorem applied_canaryWeight {w : ℚ} (hv : row.stableVersion ≠ row.canaryVersion)
    (events : List DeploymentEvent) :
    (db.applied row (some (canarySplit row.stableVersion row.canaryVersion w)) events).canaryWeight
      row = Decimal.round 6 w := by
  refine canaryWeight_of_split (a := ⟨row.id, _, db.generation row.modelName + 1⟩) ?_ rfl hv
  rw [applied_some_trafficAllocation?, if_pos rfl]
  rfl

/-- The share of a row that was advanced is the stage it was advanced to. -/
theorem advanced_canaryWeight {w : ℚ} (hv : d.stableVersion ≠ d.canaryVersion)
    (hmem : w ∈ TRAFFIC_STAGES) {events : List DeploymentEvent} :
    (db.applied (advancedRow env d) (some (advancedTargets d w)) events).canaryWeight
      (advancedRow env d) = w := by
  refine Eq.trans (applied_canaryWeight hv events) ?_
  exact (stage_bounds w hmem).2.2

/-- A turn that leaves the rollout open leaves the canary its share, or more. -/
theorem Turns.weight_le (h : Turns env db d req row split) (hsh : Shape db d) (ho : row.Open)
    (events : List DeploymentEvent) :
    db.canaryWeight d ≤ (db.applied row split events).canaryWeight row := by
  cases h with
  | resolved hreq ha =>
      -- the rollout is over
      cases hreq with
      | promote => cases ho
      | rollback => cases ho
  | @advanced w ha hw =>
      obtain ⟨hmem, hlt⟩ := nextStage_mem hw
      rw [advanced_canaryWeight hsh.versions_ne hmem]
      have hpos : (0 : ℚ) < 1 / 10 ^ 9 := by norm_num
      linarith
  | cycled | frozen | flagged => exact le_refl (db.canaryWeight d)

/-- **The share of an open rollout never decreases**, whatever request runs. -/
theorem weight_exec (env : Env) (req : Request) (hsh : Shaped db) (hd : db.deployment? id = some d) :
    ∃ d', (req.exec env db).2.deployment? id = some d' ∧ d'.canaryVersion = d.canaryVersion ∧
      (d'.Open → d.Open ∧ db.canaryWeight d ≤ (req.exec env db).2.canaryWeight d') := by
  obtain ⟨rfl, hd⟩ := found hd
  rcases exec_turns env req hd with ⟨hd', ha'⟩ | ⟨row, split, events, hturn, hid, hdb⟩
  · refine ⟨d, hd', rfl, fun ho => ⟨ho, ?_⟩⟩
    unfold Db.canaryWeight
    rw [ha']
  · have hshape := hsh d (deployment?_eq_some.mp hd).1
    rw [hdb]
    refine ⟨row, by rw [applied_deployment?, if_pos hid.symm], hturn.amends.canaryVersion_eq, fun ho => ?_⟩
    exact ⟨hturn.amends.was_open, hturn.weight_le hshape ho events⟩

/-- A resolution that commits finds the rollout open. -/
theorem open_of_resolved {r : Resolution} {by_ : TriggeredBy} (hreq : req.Resolves r id by_)
    (hd : db.deployment? id = some d) (hok : (req.exec env db).1.isOk = true) : d.Open := by
  by_cases ha : r.Admits d.status
  · exact open_of_admits ha
  · have he := eval_resolves env db hreq
    rw [hd] at he
    rw [exec_of_error (he.trans (eval_resolve_error ha by_))] at hok
    cases hok

end Weight

/-! ## 3. What the workers know -/

/-- The deployment is there, and while it is open its canary has all the traffic. -/
def Full (db : Db) (id : String) : Prop :=
  ∃ d, db.deployment? id = some d ∧ (d.Open → db.canaryWeight d = 1)

/-- A row fetched before is still there, and what was seen of its share still holds. -/
def Observed (db : Db) (out : DeploymentOut) : Prop :=
  ∃ d, db.deployment? out.deployment.id = some d ∧
    d.canaryVersion = out.deployment.canaryVersion ∧
    (canaryAtFullTraffic out = true → d.Open → db.canaryWeight d = 1)

/-- What a worker has read and decided is backed by the tables. -/
def Task.Backed (db : Db) : Task → Prop
  | .fetched out | .due out => Observed db out
  | .decided id .promote => Full db id
  | .decided _ .advanceTraffic | .decided _ .rollback | .decided _ .recordInconclusive => True

section Knowledge

variable {db db' : Db} {env : Env} {req : Request} {id : String} {out : DeploymentOut} {t t' : Task}
  {w w' : Sweep} {l : SweepLabel} {d : Deployment}

theorem share_exec (env : Env) (req : Request) (hsh : Shaped db) (hd : db.deployment? id = some d) :
    ∃ d', (req.exec env db).2.deployment? id = some d' ∧ d'.canaryVersion = d.canaryVersion ∧
      ((d.Open → db.canaryWeight d = 1) → d'.Open → (req.exec env db).2.canaryWeight d' = 1) := by
  obtain ⟨d', hd', hv, hmono⟩ := weight_exec env req hsh hd
  refine ⟨d', hd', hv, ?_⟩
  intro hfull ho'
  obtain ⟨ho, hle⟩ := hmono ho'
  rw [hfull ho] at hle
  have hshape := shaped_exec env req hsh d' (deployment?_eq_some.mp hd').1
  exact le_antisymm (hshape.weight_le_one ho') hle

/-- **No request takes away what a worker knows.** -/
theorem backed_exec (env : Env) (req : Request) (hsh : Shaped db) (h : t.Backed db) :
    t.Backed (req.exec env db).2 := by
  have hobserved : ∀ {out : DeploymentOut}, Observed db out → Observed (req.exec env db).2 out := by
    rintro out ⟨d, hd, hv, hfull⟩
    obtain ⟨d', hd', hv', hkeep⟩ := share_exec env req hsh hd
    exact ⟨d', hd', hv'.trans hv, fun hcan => hkeep (hfull hcan)⟩
  cases t with
  | fetched out => exact hobserved h
  | due out => exact hobserved h
  | decided id action =>
      cases action with
      | promote =>
          obtain ⟨d, hd, hfull⟩ := h
          obtain ⟨d', hd', _, hkeep⟩ := share_exec env req hsh hd
          exact ⟨d', hd', hkeep hfull⟩
      | advanceTraffic => trivial
      | rollback => trivial
      | recordInconclusive => trivial

/-- The allocation that a GET reads tells of the tables as they are then. -/
theorem observed_reload (hsh : Shaped db) (hd : db.deployment? out.deployment.id = some d)
    (hv : d.canaryVersion = out.deployment.canaryVersion) : Observed db (out.reload db) := by
  refine ⟨d, hd, hv, ?_⟩
  intro hcan ho
  have hshape := hsh d (deployment?_eq_some.mp hd).1
  have hversion : d.canaryVersion = (out.reload db).deployment.canaryVersion := hv
  have hsplit : (out.reload db).trafficAllocation = db.trafficAllocation? d.id := by
    show db.trafficAllocation? out.deployment.id = _
    rw [(found hd).1]
  exact hshape.full_weight ho ((canaryAtFullTraffic_iff hversion hsplit).mp hcan)

theorem observed_fetch (hsh : Shaped db) (hout : db.deploymentOut? id = some out) :
    Observed db out := by
  obtain ⟨d, hd, rfl⟩ := Option.map_eq_some_iff.mp hout
  obtain ⟨rfl, hd⟩ := found hd
  exact show Observed db ((⟨d, none⟩ : DeploymentOut).reload db) from observed_reload hsh hd rfl

/-- **Where a worker's task comes from.** -/
inductive Task.Follows (db : Db) : Option Task → Task → Prop where
  | stays (t : Task) : Follows db (some t) t
  | fetched {id : String} {out : DeploymentOut} (hout : db.deploymentOut? id = some out) :
      Follows db none (.fetched out)
  | due (out : DeploymentOut) : Follows db (some (.fetched out)) (.due out)
  | decided (out : DeploymentOut) (overallResult : OverallResult) :
      Follows db (some (.due out)) (.decided out.deployment.id
        (decideAction overallResult (canaryAtFullTraffic out)))

theorem task_follows (h : Sweep.next w l = some w') (ht : w'.task = some t) :
    Task.Follows w.db w.task t := by
  cases l with
  | request env req =>
      cases h
      rw [show w.task = some t from ht]
      exact .stays t
  | list =>
      simp only [Sweep.next] at h
      split at h
      · rename_i hnone _
        cases h
        rw [show w.task = some t from ht] at hnone
        cases hnone
      · cases h
  | fetch =>
      simp only [Sweep.next] at h
      split at h
      · rename_i hnone hr
        split at h
        · rename_i out hout
          split at h
          · cases h
            cases ht
            rw [hnone]
            exact .fetched hout
          · cases h
            rw [hnone] at ht
            cases ht
        · cases h
          rw [hnone] at ht
          cases ht
      · cases h
  | checkDue c =>
      simp only [Sweep.next] at h
      split at h
      · rename_i out hfetched
        split at h
        · cases h
          cases ht
          rw [hfetched]
          exact .due out
        · cases h
          cases ht
      · cases h
  | evaluate overallResult =>
      simp only [Sweep.next] at h
      split at h
      · rename_i out hdue
        split at h
        · cases h
          cases ht
          rw [hdue]
          exact .decided out _
        · cases h
          cases ht
      · cases h
  | act env =>
      simp only [Sweep.next] at h
      split at h
      · cases h
        cases ht
      · cases h
  | skip =>
      cases h
      cases ht
  | restart =>
      cases h
      cases ht

theorem follows_backed {old : Option Task} (h : Task.Follows db old t) (hsh : Shaped db)
    (hold : ∀ t' ∈ old, t'.Backed db) : t.Backed db := by
  cases h with
  | stays => exact hold t rfl
  | fetched hout => exact observed_fetch hsh hout
  | due out =>
      have hbacked : (Task.fetched out).Backed db := hold _ rfl
      exact hbacked
  | decided out overallResult =>
      have hbacked : Observed db out := hold _ rfl
      cases overallResult with
      | fail => trivial
      | inconclusive => trivial
      | pass =>
          cases hcan : canaryAtFullTraffic out with
          | false => trivial
          | true =>
              obtain ⟨d, hd, _, hfull⟩ := hbacked
              exact ⟨d, hd, hfull hcan⟩

/-- A step of a sweep leaves the tables alone, or they are what one request leaves. -/
theorem sweep_db (h : Sweep.next w l = some w') :
    w'.db = w.db ∨ ∃ env req, w'.db = (Request.exec env req w.db).2 := by
  cases sweep_cases h with
  | request env req => exact Or.inr ⟨env, req, rfl⟩
  | list ht => exact Or.inl rfl
  | act ht => exact Or.inr ⟨_, _, rfl⟩
  | move hact hdb hsub => exact Or.inl hdb

end Knowledge

/-! ## 4. Every run -/

section Run

variable {ω : Type} [DecidableEq ω] {f f' : Fleet ω} {l : FleetLabel ω}

/-- The rows have their shape, and every worker's task is backed. -/
structure FleetInv (f : Fleet ω) : Prop where
  shaped : Shaped f.db
  backed : ∀ i, ∀ t ∈ f.task i, t.Backed f.db

omit [DecidableEq ω] in
theorem fleetInv_start : FleetInv (Fleet.start ω .empty) where
  shaped := shaped_empty
  backed _ _ ht := nomatch ht

/-- One worker's new task, among the others' old ones. -/
theorem FleetInv.update {db : Db} {i : ω} {task : Option Task} (hsh : Shaped db)
    (hothers : ∀ j, ∀ t ∈ f.task j, t.Backed db) (htask : ∀ t ∈ task, t.Backed db)
    (remaining : ω → List String) :
    FleetInv ⟨db, Function.update f.task i task, remaining⟩ := by
  refine ⟨hsh, ?_⟩
  intro j t (ht : t ∈ Function.update f.task i task j)
  by_cases hj : j = i
  · subst hj
    rw [Function.update_self] at ht
    exact htask t ht
  · rw [Function.update_of_ne hj] at ht
    exact hothers j t ht

theorem fleet_inv_step (hi : FleetInv f) (hn : Fleet.next f l = some f') : FleetInv f' := by
  cases l with
  | load i =>
      simp only [Fleet.next] at hn
      split at hn
      · rename_i out hout
        cases hn
        refine FleetInv.update hi.shaped hi.backed ?_ _
        intro t ht
        cases ht
        obtain ⟨d, hd, hv, _⟩ : Observed f.db out := hi.backed i _ hout
        exact observed_reload hi.shaped hd hv
      · cases hn
  | sweep i l =>
      obtain ⟨w, hw, rfl⟩ := Option.map_eq_some_iff.mp hn
      have hnew : ∀ t ∈ w.task, t.Backed f.db := fun t ht =>
        follows_backed (task_follows hw ht) hi.shaped (hi.backed i)
      rcases sweep_db hw with hdb | ⟨env, req, hdb⟩
      · rw [hdb]
        exact FleetInv.update hi.shaped hi.backed hnew _
      · rw [hdb]
        refine FleetInv.update (shaped_exec env req hi.shaped) ?_ ?_ _
        · exact fun j t ht => backed_exec env req hi.shaped (hi.backed j t ht)
        · exact fun t ht => backed_exec env req hi.shaped (hnew t ht)

omit [DecidableEq ω] in
theorem fleet_commits_full (hi : FleetInv f) (i : ω) (env : Env) :
    CommitsFull f.db env (f.task i) := by
  cases ht : f.task i with
  | none => trivial
  | some t =>
      have hbacked := hi.backed i t ht
      cases t with
      | fetched out => trivial
      | due out => trivial
      | decided id action =>
          cases action with
          | promote =>
              intro hok d hd
              obtain ⟨d', hd', hfull⟩ := hbacked
              rw [Option.mem_def.mp hd] at hd'
              cases hd'
              exact hfull (open_of_resolved (.promote id .automatic) hd hok)
          | advanceTraffic => trivial
          | rollback => trivial
          | recordInconclusive => trivial

/-- **A worker promotes only a canary that has all the traffic**, in every run of any number of workers
    and of any requests of others, from the empty tables. -/
theorem promotes_full (ω : Type) [DecidableEq ω] (ls : List (FleetLabel ω)) :
    Along Fleet.next PromotesFull (Fleet.start ω .empty) ls := by
  refine (along_run (along_true _ ls) fleetInv_start ?_).1
  intro f l f' hi _ hn
  refine ⟨fleet_inv_step hi hn, ?_⟩
  cases l with
  | load i => trivial
  | sweep i l =>
      cases l with
      | act env => exact fleet_commits_full hi i env
      | request | list | fetch | checkDue | evaluate | skip | restart => trivial

end Run

/-- A rollout that begins with all the traffic. -/
def sampleFull : CreateDeploymentRequest :=
  { sampleCreate "fraud-model" with
    canaryWeight := 1
    allowDegenerateCanaryWeight := true
    weight_nonneg := zero_le_one
    weight_le_one := le_refl 1
    weight_proper := Or.inl rfl }

/-- Two workers take it up at the same time, one with a verdict and one without. -/
def sampleFleet : List (FleetLabel (Fin 2)) :=
  [.sweep 0 (.request (Env.after 0 "d1") (.create sampleFull none)),
    .sweep 0 .list, .sweep 1 .list, .sweep 0 .fetch, .sweep 1 .fetch, .load 0, .load 1,
    .sweep 0 (.checkDue ⟨none, 10, 300, .pass, Env.after 10 "unused"⟩),
    .sweep 1 (.checkDue ⟨none, 10, 300, .pass, Env.after 10 "unused"⟩),
    .sweep 0 (.evaluate .pass), .sweep 1 (.evaluate .inconclusive),
    .sweep 1 (.act (Env.after 20 "unused")), .sweep 0 (.act (Env.after 30 "unused"))]

example : (run Fleet.next (Fleet.start (Fin 2) .empty) sampleFleet).map
    (fun f => (f.db.deployment? "d1").map Deployment.status) = some (some .promoted) := by
  decide +kernel

end ModelOps
