/-
  File:      ModelOps/System/Blocker.lean
  Subject:   Which deployment a refused create names (`ActiveDeploymentExistsError`,
             `get_active_deployment` and `create_deployment` of app/control_plane/service.py).

  The index on the model is about every status that is not terminal, the lookup of the winner about
  CANARY_RUNNING and EVALUATING; a frozen rollout is in the first and not in the second.

  * `Names` -- a create raises the conflict straight after a query for the active deployment, and names
    what it found;
  * `rejection_step` -- the step that rejects a create is that query;
  * **`conflict_names_iff`** -- the conflict names a deployment that blocks exactly if one is running
    when it is raised; for a create run alone, exactly if the model has no frozen rollout.
-/
import ModelOps.System.Idempotency
import ModelOps.System.Twins

namespace ModelOps

open Transact Relational

/-! ## 1. What a conflict names -/

/-- What stands for the id of a winner that was not found. -/
def UNKNOWN_WINNER : String := "<unknown - lost the race>"

/-- The deployment `id` of the model blocks a create: it is not terminal. -/
def Blocks (db : Db) (modelName id : String) : Prop :=
  ∃ d ∈ db.deployments, d.id = id ∧ d.modelName = modelName ∧ d.Open

/-- The model has a rollout in CANARY_RUNNING or EVALUATING. -/
def Running (db : Db) (modelName : String) : Prop :=
  ∃ d ∈ db.deployments, d.modelName = modelName ∧ d.status.active = true

/-- The model has a rollout that waits for a manual decision. -/
def FrozenRollout (db : Db) (modelName : String) : Prop :=
  ∃ d ∈ db.deployments, d.modelName = modelName ∧ d.status = .inconclusive

/-- No deployment has the id that stands for none. -/
def IdsKnown (db : Db) : Prop := ∀ d ∈ db.deployments, d.id ≠ UNKNOWN_WINNER

/-- The id that the lookup of the winner comes to. -/
def winnerId (winner : Option Deployment) : String := (winner.map Deployment.id).getD UNKNOWN_WINNER

section Winner

variable {db : Db} {m x : String}

theorem getActive_some {d : Deployment} (h : db.getActiveDeployment m = some d) :
    d ∈ db.deployments ∧ d.modelName = m ∧ d.status.active = true := by
  obtain ⟨hmem, hp, _⟩ := latestBy_mem h
  rw [Bool.and_eq_true, decide_eq_true_eq] at hp
  exact ⟨hmem, hp.1, hp.2⟩

theorem getActive_none (h : db.getActiveDeployment m = none) : ¬Running db m := by
  rintro ⟨d, hd, hm, ha⟩
  have hp := latestBy_eq_none.mp h d hd
  rw [hm, ha] at hp
  simp at hp

/-- **The winner blocks exactly if there is one.** -/
theorem winner_blocks_iff (hids : IdsKnown db) :
    Blocks db m (winnerId (db.getActiveDeployment m)) ↔ Running db m := by
  cases h : db.getActiveDeployment m with
  | some d =>
      obtain ⟨hmem, hm, ha⟩ := getActive_some h
      exact iff_of_true ⟨d, hmem, rfl, hm, open_of_active ha⟩ ⟨d, hmem, hm, ha⟩
  | none =>
      refine iff_of_false ?_ (getActive_none h)
      rintro ⟨d, hd, hid, _⟩
      exact hids d hd hid

end Winner

/-! ## 2. Ids -/

/-- A request adds no id but the one it brings. -/
theorem idsKnown_exec {env : Env} {req : Request} {db : Db}
    (hnew : ∀ p key, req = .create p key → env.newId ≠ UNKNOWN_WINNER) (h : IdsKnown db) :
    IdsKnown (req.exec env db).2 := by
  rcases exec_cases env db req with ⟨x, hexec, _⟩ | ⟨reply, row, split, bodies, heff, hexec⟩
  · rw [hexec]
    exact h
  · rw [hexec]
    intro d hd
    rcases mem_applied.mp hd with rfl | ⟨hd, _⟩
    · rcases heff.creates_or_amends with ⟨p, key, hreq, _, rfl, _⟩ | ⟨old, hold, _⟩
      · exact hnew p key hreq
      · obtain ⟨hmem, hid⟩ := deployment?_eq_some.mp hold
        exact hid ▸ h old hmem
    · exact h d hd

/-- What `uuid4` grants: no create of the history brings that text as an id. -/
def KnownIds (calls : List ApiCall) : Prop :=
  ∀ env p key, ApiCall.lifecycle env (.create p key) ∈ calls → env.newId ≠ UNKNOWN_WINNER

theorem idsKnown_after {calls : List ApiCall} (h : KnownIds calls) : IdsKnown (dbAfter calls) := by
  induction calls using List.reverseRecOn with
  | nil => exact fun d hd => (Table.not_mem_empty d hd).elim
  | append_singleton calls c ih =>
      have hbefore := ih fun env p key hmem => h env p key (List.mem_append_left _ hmem)
      unfold dbAfter at hbefore ⊢
      rw [after_append]
      show IdsKnown (c.exec (Tables.empty.after calls)).db
      rcases call_cases c (Tables.empty.after calls) with ⟨env, req, rfl⟩ | ⟨events, hdb, _⟩
      · refine idsKnown_exec ?_ hbefore
        rintro p key rfl
        exact h env p key (by simp)
      · rw [hdb]
        exact hbefore

section Serially

variable {ι : Type} {requests : ι → Env × Request}

theorem idsKnown_serially (hids : ∀ i, (requests i).1.newId ≠ UNKNOWN_WINNER) (order : List ι) {db : Db}
    (h : IdsKnown db) : IdsKnown (serially requests db order) := by
  induction order generalizing db with
  | nil => exact h
  | cons i order ih => exact ih (idsKnown_exec (fun _ _ _ => hids i) h)

end Serially

/-! ## 3. Where a conflict is raised -/

/-- The error is no conflict. -/
def NoConflict (e : ServiceError) : Prop := ∀ m x, e ≠ .activeDeploymentExists m x

/-- The query and its answer are what the conflict is raised over. -/
def RaisedOver (modelName m x : String) : (q : Query) → q.Answer → Prop
  | .activeDeployment m', winner => m' = modelName ∧ m = modelName ∧ x = winnerId winner
  | .deployment _, _ | .findByIdempotencyKey _, _ | .routingGeneration _, _ | .trafficAllocation _, _ =>
      False

/-- Where it is raised over what the tables answer, it names their winner. -/
theorem RaisedOver.winner {modelName m x : String} {db : Db} {q : Query}
    (h : RaisedOver modelName m x q (db.answer q)) :
    m = modelName ∧ x = winnerId (db.getActiveDeployment modelName) := by
  cases q with
  | activeDeployment m' =>
      obtain ⟨rfl, hm, hx⟩ := h
      exact ⟨hm, hx⟩
  | deployment id => exact h.elim
  | findByIdempotencyKey k => exact h.elim
  | routingGeneration m' => exact h.elim
  | trafficAllocation id => exact h.elim

/-- **A conflict is raised straight after a query for the active deployment**, and names its answer. -/
def Names (modelName : String) : Service Plan → Prop
  | .done _ | .fail _ => True
  | .read q k => ∀ a, Names modelName (k a) ∧
      ∀ m x, k a = .fail (.activeDeploymentExists m x) → RaisedOver modelName m x q a
  | .reserve _ k => ∀ v, Names modelName (k v) ∧ ∀ m x, k v ≠ .fail (.activeDeploymentExists m x)

section Errors

variable {s : Session}

theorem errors_transition (target : DeploymentStatus) (message : String) :
    Errors NoConflict (s.transition target message) := by
  unfold Session.transition
  split
  · exact fun m x h => by cases h
  · trivial

theorem errors_nextRoutingGeneration (modelName : String) :
    Errors NoConflict (s.nextRoutingGeneration modelName) := by
  intro row
  cases row with
  | none => trivial
  | some row => trivial

theorem errors_trafficAllocation : Errors NoConflict s.trafficAllocation := by
  unfold Session.trafficAllocation
  split
  · trivial
  · exact fun allocation => trivial

theorem errors_setTrafficAllocation (targets : List TargetWeight) :
    Errors NoConflict (s.setTrafficAllocation targets) := by
  unfold Session.setTrafficAllocation
  refine (errors_nextRoutingGeneration _).bind ?_
  rintro ⟨generation, s1⟩
  refine errors_trafficAllocation.bind ?_
  rintro ⟨allocation, s2⟩
  cases allocation with
  | none => trivial
  | some allocation => trivial

/-- Past its INSERT a create raises no conflict. -/
theorem errors_startRollout (env : Env) (p : CreateDeploymentRequest) (d : Deployment) :
    Errors NoConflict (startRollout env p d) := by
  unfold startRollout
  refine (errors_transition _ _).bind ?_
  intro s1
  refine (errors_setTrafficAllocation _).bind ?_
  rintro ⟨revision, s2⟩
  refine (errors_transition _ _).bind ?_
  intro s3
  trivial

end Errors

section Codes

variable {env : Env} {p : CreateDeploymentRequest} {key : Option String}

theorem errors_ne {c : Service Plan} (h : Errors NoConflict c) (m x : String) :
    c ≠ .fail (.activeDeploymentExists m x) := by
  rintro rfl
  exact h m x rfl

theorem names_of_errors {modelName : String} {c : Service Plan} (h : Errors NoConflict c) :
    Names modelName c := by
  induction c with
  | done a => trivial
  | fail e => trivial
  | read q k ih => exact fun a => ⟨ih a (h a), fun m x hk => absurd hk (errors_ne (h a) m x)⟩
  | reserve r k ih => exact fun v => ⟨ih v (h v), errors_ne (h v)⟩

/-- The lookup of the winner, after a refused INSERT. -/
theorem names_insert (d : Deployment) : Names p.modelName (insertDeployment env p d) := by
  rw [insert_eq]
  intro v
  cases v with
  | none =>
      have hno := errors_startRollout env p d
      exact ⟨names_of_errors hno, errors_ne hno⟩
  | some c =>
      have hwinner : Names p.modelName (.read (.activeDeployment p.modelName) fun winner =>
          .fail (.activeDeploymentExists p.modelName (winnerId winner))) := by
        refine fun winner => ⟨trivial, fun m x hk => ?_⟩
        cases hk
        exact ⟨rfl, rfl, rfl⟩
      cases c with
      | idempotencyKey => exact ⟨trivial, fun m x h => by cases h⟩
      | primaryKey => exact ⟨hwinner, fun m x h => by cases h⟩
      | activePerModel => exact ⟨hwinner, fun m x h => by cases h⟩

theorem insert_ne_fail (d : Deployment) (e : ServiceError) : insertDeployment env p d ≠ .fail e := by
  rw [insert_eq]
  exact fun h => by cases h

/-- The pre-check. -/
theorem names_createFresh : Names p.modelName (createFresh env p key) := by
  rw [createFresh_eq]
  intro existing
  cases existing with
  | none => exact ⟨names_insert _, fun m x h => absurd h (insert_ne_fail _ _)⟩
  | some d =>
      refine ⟨trivial, fun m x h => ?_⟩
      cases h
      exact ⟨rfl, rfl, rfl⟩

/-- **The code of a create.** -/
theorem names_create (p : CreateDeploymentRequest) (key : Option String) :
    Names p.modelName (createDeployment env p key) := by
  rcases createDeployment_eq env p key with he | ⟨k, _, he⟩
  · rw [he]
    exact names_createFresh
  · rw [he]
    intro existing
    cases existing with
    | none => exact ⟨names_createFresh, fun m x h => by rw [createFresh_eq] at h; cases h⟩
    | some d => exact ⟨trivial, fun m x h => by cases h⟩

theorem create_ne_fail (e : ServiceError) : createDeployment env p key ≠ .fail e := by
  rcases createDeployment_eq env p key with he | ⟨k, _, he⟩
  · rw [he, createFresh_eq]
    exact fun h => by cases h
  · rw [he]
    exact fun h => by cases h

end Codes

/-! ## 4. Among other sessions -/

section Interleaved

variable {ι : Type} [DecidableEq ι] [Fintype ι] {requests : ι → Env × Request} {db : Db} {i : ι}
  {p : CreateDeploymentRequest} {key : Option String} {m x : String}

/-- The session has raised the conflict. -/
def Rejected (m x : String) (proc : Proc sql ServiceError Reply) : Prop :=
  (∃ held, proc = .running held (.fail (.activeDeploymentExists m x))) ∨
    ∃ committed, proc = .finished committed (.failed (.activeDeploymentExists m x))

/-- The step of session `i` that comes after `l` raises it. -/
def RaisedBy (requests : ι → Env × Request) (db : Db) (i : ι) (l : List ι) (m x : String) : Prop :=
  ¬Rejected m x ((interleave requests db l).proc i) ∧
    Rejected m x ((interleave requests db (l ++ [i])).proc i)

/-- A session that ended in a conflict raised it at some step of its own. -/
theorem conflict_raised (hreq : (requests i).2 = .create p key) {schedule : List ι}
    (h : failure ((interleave requests db schedule).proc i) = some (.activeDeploymentExists m x)) :
    ∃ l l', schedule = l ++ i :: l' ∧ RaisedBy requests db i l m x := by
  refine Config.steps_moment (Q := Rejected m x) ?_ ?_
  · rintro (⟨held, hp⟩ | ⟨committed, hp⟩)
    · have hcode : (requests i).2.program (requests i).1 = .fail (.activeDeploymentExists m x) := by
        injection hp
      rw [hreq] at hcode
      exact create_ne_fail _ hcode
    · cases hp
  · obtain ⟨committed, outcome, hend, _, herr⟩ := failure_eq_some h
    right
    refine ⟨committed, hend.trans ?_⟩
    cases outcome with
    | replied reply => cases herr
    | failed e =>
        cases herr
        rfl
    | refused reply why => cases why <;> cases herr

/-- **The step that rejects a create** is a query for the active deployment of its model. -/
theorem rejection_step (hreq : (requests i).2 = .create p key) {l : List ι}
    (h : RaisedBy requests db i l m x) : m = p.modelName ∧
      x = winnerId ((interleave requests db l).store.getActiveDeployment p.modelName) := by
  obtain ⟨hbefore, hafter⟩ := h
  have hnames : ∀ held code, (interleave requests db l).proc i = .running held code →
      Names p.modelName code := by
    refine Config.steps_code (fun q k hk a => (hk a).1) (fun r k hk v => (hk v).1) ?_ l
    intro held code hcode
    have hprogram : (requests i).2.program (requests i).1 = code := by injection hcode
    rw [← hprogram, hreq]
    exact names_create p key
  rw [interleave_snoc] at hafter
  rcases hafter with ⟨held, hp⟩ | ⟨committed, hp⟩
  · rcases Config.step_running hp with hp | ⟨q, k, hp, hk⟩ | ⟨held', r, k, hp, hk⟩
    · exact absurd (Or.inl ⟨held, hp⟩) hbefore
    · exact ((hnames held _ hp _).2 m x hk.symm).winner
    · exact absurd hk.symm ((hnames held' _ hp _).2 m x)
  · -- it would have raised it before
    rcases Config.step_failed hp with hp | ⟨held, hp⟩
    · exact absurd (Or.inr ⟨committed, hp⟩) hbefore
    · exact absurd (Or.inl ⟨held, hp⟩) hbefore

end Interleaved

/-! ## 5. Alone -/

section Alone

variable {env : Env} {db : Db} {p : CreateDeploymentRequest} {key : Option String} {m x : String}

/-- A program that names, run alone, names what the tables hold. -/
theorem names_eval {modelName : String} {c : Service Plan} (h : Names modelName c)
    (hne : c ≠ .fail (.activeDeploymentExists m x))
    (heval : c.eval database db = .error (.activeDeploymentExists m x)) :
    m = modelName ∧ x = winnerId (db.getActiveDeployment modelName) := by
  induction c with
  | done a => cases heval
  | fail e =>
      cases heval
      exact absurd rfl hne
  | read q k ih =>
      obtain ⟨hnames, hover⟩ := h (database.answer db q)
      by_cases hk : k (database.answer db q) = .fail (.activeDeploymentExists m x)
      · exact (hover m x hk).winner
      · exact ih _ hnames hk heval
  | reserve r k ih =>
      obtain ⟨hnames, hno⟩ := h (database.probe db r)
      exact ih _ hnames (hno m x) heval

/-- A request that ends in the conflict raised it: a refused commit surfaces otherwise. -/
theorem eval_of_conflict {req : Request}
    (h : (req.exec env db).1 = .error (.activeDeploymentExists m x)) :
    (req.program env).eval database db = .error (.activeDeploymentExists m x) := by
  cases heval : (req.program env).eval database db with
  | error e =>
      rw [exec_of_error heval] at h
      cases h
      rfl
  | ok plan =>
      obtain ⟨change, reply⟩ := plan
      rw [exec_answered] at h
      unfold Transact.run at h
      rw [heval] at h
      cases change with
      | none => cases h
      | some w =>
          dsimp only at h
          split at h
          · cases h
          · rename_i why _
            cases why <;> cases h

theorem probe_mem {d : Deployment} {named c : UniqueConstraint} (h : db.probe ⟨d, named⟩ = some c) :
    c ∈ db.violations d := by
  unfold Db.probe at h
  split at h
  · rename_i hn
    cases h
    exact hn
  · exact List.mem_of_mem_head? h

/-- An INSERT that ends in the conflict met the index on the model. -/
theorem insert_occupied (hnew : db.deployment? env.newId = none)
    (h : (insertDeployment env p (newDeployment env p key)).eval database db =
      .error (.activeDeploymentExists m x)) : Occupied db p.modelName := by
  rw [insert_eq] at h
  cases hprobe : db.probe ⟨newDeployment env p key, env.named⟩ with
  | none =>
      have hprobe' : database.probe db ⟨newDeployment env p key, env.named⟩ = none := hprobe
      have hcommits : Commits env db (startRollout env p (newDeployment env p key)) _ _ _ _ :=
        commits_startRollout hnew
      obtain ⟨w, heval, _⟩ := hcommits
      rw [Txn.eval, hprobe', afterFlush, heval] at h
      cases h
  | some c =>
      have hmem := probe_mem hprobe
      have hprobe' : database.probe db ⟨newDeployment env p key, env.named⟩ = some c := hprobe
      rw [Txn.eval, hprobe'] at h
      unfold Db.violations at hmem
      simp only [List.mem_append, List.mem_ite_nil_right, List.mem_singleton] at hmem
      rcases hmem with (⟨hid, _⟩ | ⟨_, rfl⟩) | ⟨hopen, _⟩
      · have hid : (db.deployment? env.newId).isSome = true := hid
        rw [hnew] at hid
        cases hid
      · cases h
      · rw [Bool.and_eq_true, List.any_eq_true] at hopen
        obtain ⟨_, d, hd, hd'⟩ := hopen
        rw [Bool.and_eq_true, decide_eq_true_eq, Bool.not_eq_true'] at hd'
        exact ⟨d, hd, hd'.1, hd'.2⟩

/-- **A create that is refused alone** was refused for an open rollout of its model. -/
theorem conflict_occupied (hnew : db.deployment? env.newId = none)
    (h : ((Request.create p key).exec env db).1 = .error (.activeDeploymentExists m x)) :
    Occupied db p.modelName := by
  have hfresh : (createFresh env p key).eval database db = .error (.activeDeploymentExists m x) := by
    have heval := eval_of_conflict h
    rcases createDeployment_eq env p key with he | ⟨k, _, he⟩
    · exact he ▸ heval
    · have heval : (createDeployment env p key).eval database db = _ := heval
      rw [he, Txn.eval_read] at heval
      cases hfound : database.answer db (.findByIdempotencyKey k) with
      | none =>
          rw [hfound] at heval
          exact heval
      | some existing =>
          rw [hfound] at heval
          cases heval
  rw [createFresh_eq, Txn.eval_read] at hfresh
  cases hactive : db.getActiveDeployment p.modelName with
  | some d =>
      obtain ⟨hmem, hm, ha⟩ := getActive_some hactive
      exact ⟨d, hmem, hm, open_of_active ha⟩
  | none =>
      rw [show database.answer db (.activeDeployment p.modelName) = none from hactive] at hfresh
      exact insert_occupied hnew hfresh

end Alone

/-! ## 6. The conflict error names the deployment that blocks -/

/-- An occupied model is running or frozen, and not both. -/
theorem running_iff_not_frozen {db : Db} {modelName : String} (hs : Schema db) (hsh : Shaped db)
    (hocc : Occupied db modelName) : Running db modelName ↔ ¬FrozenRollout db modelName := by
  obtain ⟨d, hd, hm, ho⟩ := hocc
  constructor
  · rintro ⟨d1, hd1, hm1, ha1⟩ ⟨d2, hd2, hm2, hi2⟩
    have ho2 : d2.Open := by
      rw [Deployment.Open, hi2]
      rfl
    have heq := hs.open_unique hd1 hd2 (open_of_active ha1) ho2 (hm1.trans hm2.symm)
    rw [heq, hi2] at ha1
    cases ha1
  · intro hfrozen
    rcases (hsh d hd).running_or_frozen ho with hstatus | hstatus
    · refine ⟨d, hd, hm, ?_⟩
      rw [hstatus]
      rfl
    · exact absurd ⟨d, hd, hm, hstatus⟩ hfrozen

/-- **The conflict error names a deployment that blocks** exactly if the model has a running rollout
    when it is raised. Whatever sessions run beside a create that ends in the conflict, that is the case
    at the step that raises it; for a create run alone, where no rollout of the model is frozen. -/
theorem conflict_names_iff {ι : Type} [DecidableEq ι] [Fintype ι] (history : List ApiCall)
    (hids : KnownIds history) :
    (∀ requests : ι → Env × Request, (∀ i, (requests i).1.newId ≠ UNKNOWN_WINNER) →
      ∀ schedule i p key m x, (requests i).2 = .create p key →
      failure ((interleave requests (dbAfter history) schedule).proc i) =
        some (.activeDeploymentExists m x) →
      ∃ l l', schedule = l ++ i :: l' ∧ RaisedBy requests (dbAfter history) i l m x ∧
        m = p.modelName ∧
        (Blocks (interleave requests (dbAfter history) l).store p.modelName x ↔
          Running (interleave requests (dbAfter history) l).store p.modelName)) ∧
    ∀ env p key m x, (dbAfter history).deployment? env.newId = none →
      ((Request.create p key).exec env (dbAfter history)).1 = .error (.activeDeploymentExists m x) →
      m = p.modelName ∧
        (Blocks (dbAfter history) p.modelName x ↔ ¬FrozenRollout (dbAfter history) p.modelName) := by
  have hknown := idsKnown_after hids
  have hshaped := after_shaped history (t := Tables.empty) ⟨schema_empty, shaped_empty⟩
  refine ⟨?_, ?_⟩
  · intro requests hnew schedule i p key m x hreq hfail
    obtain ⟨l, l', hl, hraised⟩ := conflict_raised hreq hfail
    obtain ⟨hm, hx⟩ := rejection_step hreq hraised
    refine ⟨l, l', hl, hraised, hm, ?_⟩
    have hstore : IdsKnown (interleave requests (dbAfter history) l).store := by
      rw [(lifecycle_serializable requests _ hshaped.1 l).1]
      exact idsKnown_serially hnew _ hknown
    rw [hx]
    exact winner_blocks_iff hstore
  · intro env p key m x hnew hfail
    obtain ⟨hm, hx⟩ := names_eval (names_create p key) (create_ne_fail _) (eval_of_conflict hfail)
    refine ⟨hm, ?_⟩
    rw [hx, winner_blocks_iff hknown]
    exact running_iff_not_frozen hshaped.1 hshaped.2 (conflict_occupied hnew hfail)

/-- A rollout that tolerates one inconclusive cycle, after `n` of them. -/
def sampleCycles (n : Nat) : List ApiCall :=
  .lifecycle (Env.after 0 "d1")
    (.create { sampleCreate "fraud-model" with policyConfig := some samplePolicy } none) ::
  (List.range n).map fun i => .lifecycle (Env.after (10 * (i + 1)) "unused") (.recordInconclusive "d1")

theorem sampleCycles_known (n : Nat) : KnownIds (sampleCycles n) := by
  intro env p key hmem
  rcases List.mem_cons.mp hmem with heq | hmem
  · cases heq
    decide
  · obtain ⟨i, _, heq⟩ := List.mem_map.mp hmem
    cases heq

/-- The second rollout of a model is refused in the name of the first. -/
theorem conflict_names_iff_running : Blocks (dbAfter (sampleCycles 0)) "fraud-model" "d1" := by
  have hnofrozen : ¬FrozenRollout (dbAfter (sampleCycles 0)) "fraud-model" := by
    have hall : ∀ d ∈ (dbAfter (sampleCycles 0)).deployments.rows, d.status ≠ .inconclusive := by
      decide +kernel
    rintro ⟨d, hd, _, hstatus⟩
    exact hall d hd hstatus
  exact (((conflict_names_iff (ι := Unit) (sampleCycles 0) (sampleCycles_known 0)).2
    (Env.after 90 "d2") (sampleCreate "fraud-model") none "fraud-model" "d1" (by decide +kernel)
    rfl).2).mpr hnofrozen

/-- **A frozen rollout blocks and is not named.** -/
theorem frozen_unnamed :
    ¬∀ (history : List ApiCall), KnownIds history → ∀ env p key m x,
      (dbAfter history).deployment? env.newId = none →
      ((Request.create p key).exec env (dbAfter history)).1 = .error (.activeDeploymentExists m x) →
      Blocks (dbAfter history) p.modelName x := by
  intro h
  obtain ⟨d, hd, hid, _⟩ := h (sampleCycles 2) (sampleCycles_known 2) (Env.after 90 "d2")
    (sampleCreate "fraud-model") none "fraud-model" UNKNOWN_WINNER (by decide +kernel) rfl
  exact idsKnown_after (sampleCycles_known 2) d hd hid

end ModelOps
