/-
  File:      ModelOps/ControlPlane/Concurrency.lean
  Subject:   Concurrent lifecycle requests are serializable in commit order.

  Only the deployment's row is version-checked; the allocation and the model's counter are read
  later and written unguarded. That this is enough is the content of `commitOrder`:

  * `Reads`, `Updates` -- after loading row `d` an operation reads only the counter of `d`'s model
    and `d`'s allocation, and can commit only an UPDATE of `d` guarded by the version it read;
  * `Stage` -- where a session stands: on the row as it still is (`live`), on a row that changed
    under it (`stale`, its commit will fail), before or after the flush of its INSERT (`checking`,
    `inserting`), or past any change (`idle`);
  * a commit of one session moves no other out of its stage, except from `live` to `stale`: an open
    row is the only open row of its model, so another session's commit writes the counter of that
    model only by writing that row.

  **`lifecycle_serializable`**: every interleaving of any requests leaves the tables as the
  committed ones do, run one after another in commit order.
-/
import ModelOps.ControlPlane.Schema

namespace ModelOps

open Transact Relational

/-! ## 1. What an operation reads and commits -/

/-- The queries of an operation that works on row `d`. -/
def Reads (d : Deployment) : Query → Prop
  | .routingGeneration m => m = d.modelName
  | .trafficAllocation id => id = d.id
  | _ => False

/-- The session works on the row `d`, as it was read or as it was inserted. -/
structure Works (d : Deployment) (inserted : Bool) (s : Session) : Prop where
  id_eq : s.deployment.id = d.id
  modelName_eq : s.deployment.modelName = d.modelName
  versionId_eq : s.deployment.versionId = d.versionId
  inserted_eq : s.inserted = inserted

/-- Whatever the plan commits, it commits on row `d`. -/
def Updates (d : Deployment) (inserted : Bool) (p : Plan) : Prop :=
  ∀ w, p.1 = some w → Works d inserted w

section Reading

variable {d : Deployment} {i : Bool} {s : Session}

theorem Works.only_transition (h : Works d i s) (target : DeploymentStatus) (message : String) :
    Only (Reads d) (Works d i) (s.transition target message) := by
  unfold Session.transition
  cases validateTransition s.deployment.status target with
  | error e => trivial
  | ok u => exact ⟨h.id_eq, h.modelName_eq, h.versionId_eq, h.inserted_eq⟩

theorem Works.only_evaluate (h : Works d i s) (message : String) :
    Only (Reads d) (Works d i) (s.evaluate message) := by
  unfold Session.evaluate
  split
  · exact h.only_transition _ _
  · exact h

theorem Works.only_nextRoutingGeneration (h : Works d i s) :
    Only (Reads d) (fun x => Works d i x.2) (s.nextRoutingGeneration s.deployment.modelName) := by
  refine ⟨h.modelName_eq, ?_⟩
  intro a
  cases a with
  | none => exact ⟨h.id_eq, h.modelName_eq, h.versionId_eq, h.inserted_eq⟩
  | some row => exact ⟨h.id_eq, h.modelName_eq, h.versionId_eq, h.inserted_eq⟩

theorem Works.only_trafficAllocation (h : Works d i s) :
    Only (Reads d) (fun x => Works d i x.2) s.trafficAllocation := by
  unfold Session.trafficAllocation
  cases s.loaded with
  | some a => exact h
  | none =>
      refine ⟨h.id_eq, ?_⟩
      intro a
      exact ⟨h.id_eq, h.modelName_eq, h.versionId_eq, h.inserted_eq⟩

theorem Works.only_setTrafficAllocation (h : Works d i s) (targets : List TargetWeight) :
    Only (Reads d) (fun x => Works d i x.2) (s.setTrafficAllocation targets) := by
  unfold Session.setTrafficAllocation
  refine h.only_nextRoutingGeneration.bind ?_
  intro x hx
  refine hx.only_trafficAllocation.bind ?_
  intro y hy
  obtain ⟨allocation, s2⟩ := y
  cases allocation with
  | none => exact ⟨hy.id_eq, hy.modelName_eq, hy.versionId_eq, hy.inserted_eq⟩
  | some a => exact ⟨hy.id_eq, hy.modelName_eq, hy.versionId_eq, hy.inserted_eq⟩

theorem Works.commit (h : Works d i s) (push : Option Push) (created : Bool) :
    Only (Reads d) (Updates d i) (s.commit push created) := by
  intro w hw
  cases hw
  exact h

theorem only_resolveDeployment (r : Resolution) (by_ : TriggeredBy) (h : Works d i s) :
    Only (Reads d) (Updates d i) (resolveDeployment r s by_) := by
  have h0 : Works d i s.touch := ⟨h.id_eq, h.modelName_eq, h.versionId_eq, h.inserted_eq⟩
  unfold resolveDeployment
  refine (h0.only_evaluate _).bind ?_
  intro s1 h1
  refine (h1.only_transition _ _).bind ?_
  intro s2 h2
  refine (h2.only_setTrafficAllocation _).bind ?_
  intro x h3
  refine (h3.only_transition _ _).bind ?_
  intro s4 h4
  refine Works.commit ?_ _ _
  exact ⟨h4.id_eq, h4.modelName_eq, h4.versionId_eq, h4.inserted_eq⟩

theorem only_requireActive (d' : Deployment) : Only (Reads d) (fun _ => True) (requireActive d') := by
  unfold requireActive
  split <;> trivial

theorem only_advanceTraffic (h : Works d i s) :
    Only (Reads d) (Updates d i) (advanceTraffic s) := by
  have h0 : Works d i s.touch := ⟨h.id_eq, h.modelName_eq, h.versionId_eq, h.inserted_eq⟩
  unfold advanceTraffic
  refine (only_requireActive _).bind ?_
  intro _ _
  refine h0.only_trafficAllocation.bind ?_
  intro x hx
  obtain ⟨allocation, s1⟩ := x
  dsimp only
  split
  · trivial
  · refine (hx.only_setTrafficAllocation _).bind ?_
    intro y hy
    refine Works.commit ?_ _ _
    exact ⟨hy.id_eq, hy.modelName_eq, hy.versionId_eq, hy.inserted_eq⟩

theorem only_recordInconclusive (maxRetries : Nat) (h : Works d i s) :
    Only (Reads d) (Updates d i) (recordInconclusive s maxRetries) := by
  unfold recordInconclusive
  refine (only_requireActive _).bind ?_
  intro _ _
  show Only _ _ (if maxRetries < s.deployment.inconclusiveRetryCount + 1 then _ else _)
  split
  · refine (Works.only_evaluate (?_ : Works d i _) _).bind ?_
    · exact ⟨h.id_eq, h.modelName_eq, h.versionId_eq, h.inserted_eq⟩
    intro s1 h1
    refine (h1.only_transition _ _).bind ?_
    intro s2 h2
    refine Works.commit ?_ _ _
    exact ⟨h2.id_eq, h2.modelName_eq, h2.versionId_eq, h2.inserted_eq⟩
  · refine Works.commit ?_ _ _
    exact ⟨h.id_eq, h.modelName_eq, h.versionId_eq, h.inserted_eq⟩

theorem only_setAutomation (paused : Bool) (event : EventBody) (h : Works d i s) :
    Only (Reads d) (Updates d i) (setAutomation paused event s) := by
  unfold setAutomation requireNotTerminal
  split
  · trivial
  · split
    · intro w hw
      cases hw
    · refine Works.commit ?_ _ _
      exact ⟨h.id_eq, h.modelName_eq, h.versionId_eq, h.inserted_eq⟩

theorem only_startRollout (env : Env) (p : CreateDeploymentRequest) (d : Deployment) :
    Only (Reads d) (Updates d true) (startRollout env p d) := by
  have hwork : ∀ s : Session, s.deployment = d → s.inserted = true → Works d true s := by
    intro s hd hi
    exact ⟨by rw [hd], by rw [hd], by rw [hd], hi⟩
  unfold startRollout
  refine (Works.only_transition (hwork _ ?_ ?_) _ _).bind ?_
  · split <;> rfl
  · split <;> rfl
  intro s1 h1
  refine (Works.only_setTrafficAllocation (?_ : Works d true _) _).bind ?_
  · exact ⟨h1.id_eq, h1.modelName_eq, h1.versionId_eq, h1.inserted_eq⟩
  intro x hx
  refine (hx.only_transition _ _).bind ?_
  intro s2 h2
  exact h2.commit _ _

end Reading

/-! ## 2. Endpoints -/

/-- A closed row is refused before anything else is read. -/
theorem resolve_closed (r : Resolution) (by_ : TriggeredBy) {env : Env} {d : Deployment}
    (hd : ¬d.Open) :
    ∃ e, resolveDeployment r { clock := env.clock, deployment := d } by_ = .fail e := by
  have ht : d.status.terminal = true := by simpa [Deployment.Open] using hd
  have hc : d.status ≠ .canaryRunning := by
    intro h
    rw [h] at ht
    cases ht
  have hvia : r.via ∉ ALLOWED_TRANSITIONS d.status := by
    rw [terminal_stuck ht]
    exact List.not_mem_nil
  unfold resolveDeployment
  simp only [evaluate_eq, Txn.done_bind]
  rw [evaluated_other (by exact hc), transition_error (by exact hvia)]
  exact ⟨_, rfl⟩

theorem active_closed {d : Deployment} (hd : ¬d.Open) : d.status.active = false := by
  cases ha : d.status.active with
  | false => rfl
  | true => exact absurd (open_of_active ha) hd

/-- An endpoint that works on an existing row: it loads the row and hands it to `f`. -/
structure Endpoint (env : Env) (o : Service Plan) (id : String) (f : Session → Service Plan) :
    Prop where
  code_eq : o = (getDeployment env id >>= f)
  reads : ∀ d, Only (Reads d) (Updates d false) (f { clock := env.clock, deployment := d })
  closed : ∀ d : Deployment, ¬d.Open → ∃ e, f { clock := env.clock, deployment := d } = .fail e

theorem works_start (env : Env) (d : Deployment) :
    Works d false { clock := env.clock, deployment := d } :=
  ⟨rfl, rfl, rfl, rfl⟩

/-- Every request but create is such an endpoint. -/
theorem endpoint (env : Env) (req : Request) :
    (∃ p key, req = .create p key) ∨ ∃ id f, Endpoint env (req.program env) id f := by
  have hflag : ∀ paused event d, ¬d.Open →
      ∃ e, setAutomation paused event { clock := env.clock, deployment := d } = .fail e := by
    intro paused event d hd
    have ht : d.status.terminal = true := by simpa [Deployment.Open] using hd
    unfold setAutomation requireNotTerminal
    simp only [ht, if_true]
    exact ⟨_, rfl⟩
  cases req with
  | create p key => exact Or.inl ⟨p, key, rfl⟩
  | promote id by_ =>
      exact Or.inr ⟨id, _, rfl, fun d => only_resolveDeployment _ _ (works_start env d),
        fun d => resolve_closed _ _⟩
  | rollback id by_ =>
      exact Or.inr ⟨id, _, rfl, fun d => only_resolveDeployment _ _ (works_start env d),
        fun d => resolve_closed _ _⟩
  | advanceTraffic id =>
      refine Or.inr ⟨id, _, rfl, fun d => only_advanceTraffic (works_start env d), ?_⟩
      intro d hd
      unfold advanceTraffic requireActive
      simp only [active_closed hd, Bool.false_eq_true, if_false]
      exact ⟨_, rfl⟩
  | recordInconclusive id =>
      refine Or.inr ⟨id, _, rfl, fun d => only_recordInconclusive _ (works_start env d), ?_⟩
      intro d hd
      unfold recordInconclusive requireActive
      simp only [active_closed hd, Bool.false_eq_true, if_false]
      exact ⟨_, rfl⟩
  | pauseAutomation id by_ =>
      exact Or.inr ⟨id, _, rfl, fun d => only_setAutomation _ _ (works_start env d), hflag _ _⟩
  | resumeAutomation id by_ =>
      exact Or.inr ⟨id, _, rfl, fun d => only_setAutomation _ _ (works_start env d), hflag _ _⟩

theorem getDeployment_eq (env : Env) (id : String) (f : Session → Service Plan) :
    (getDeployment env id >>= f) = .read (.deployment id) fun
      | some d => f { clock := env.clock, deployment := d }
      | none => .fail (.deploymentNotFound id) := by
  show Txn.read _ _ = _
  congr 1
  funext a
  cases a <;> rfl

theorem createFresh_eq (env : Env) (p : CreateDeploymentRequest) (key : Option String) :
    createFresh env p key = .read (.activeDeployment p.modelName) fun
      | some existing => .fail (.activeDeploymentExists p.modelName existing.id)
      | none => insertDeployment env p (newDeployment env p key) := rfl

theorem createDeployment_eq (env : Env) (p : CreateDeploymentRequest) (key : Option String) :
    createDeployment env p key = createFresh env p key ∨
    ∃ k, key = some k ∧ createDeployment env p key = .read (.findByIdempotencyKey k) fun
      | some existing => .done (none, ⟨existing, false, none⟩)
      | none => createFresh env p key := by
  unfold createDeployment
  cases key with
  | none => exact Or.inl rfl
  | some k =>
      unfold lookupKey
      by_cases hk : k = ""
      · left
        simp [hk]
      · right
        refine ⟨k, rfl, ?_⟩
        simp only [hk, if_false]
        rfl

/-! ## 3. Where a session stands -/

/-- No change is committed any more. -/
abbrev Idle (c : Service Plan) : Prop := Only (fun _ => True) (fun p : Plan => p.1 = none) c

/-- The session of `req` stands at `c` and holds `h`, against the tables `db`; the row it loaded, if
    that still is as it was, satisfies `P`. -/
inductive Stage (P : Deployment → Prop) (env : Env) (req : Request) (db : Db) :
    Option Insertion → Service Plan → Prop where
  /-- nothing was read yet -/
  | fresh : Stage P env req db none (req.program env)
  | idle (h : Option Insertion) (c : Service Plan) (hc : Idle c) : Stage P env req db h c
  /-- the row it loaded is still there, and all it read since is still so -/
  | live (d : Deployment) (c0 c : Service Plan) (hd : db.deployment? d.id = some d) (ho : d.Open)
      (hP : P d)
      (heval : ∀ db', db'.deployment? d.id = some d →
        (req.program env).eval database db' = c0.eval database db')
      (hc0 : Only (Reads d) (Updates d false) c0) (hf : Follows database db c0 c) :
      Stage P env req db none c
  /-- the row it loaded was written since -/
  | stale (d d' : Deployment) (c : Service Plan) (hd : db.deployment? d.id = some d')
      (hv : d.versionId < d'.versionId) (hc : Only (Reads d) (Updates d false) c) :
      Stage P env req db none c
  | checking (p : CreateDeploymentRequest) (key : Option String) (c : Service Plan)
      (hreq : req = .create p key)
      (hc : c = createFresh env p key ∨ c = insertDeployment env p (newDeployment env p key)) :
      Stage P env req db none c
  /-- the INSERT was flushed: the indexes hold its row -/
  | inserting (p : CreateDeploymentRequest) (key : Option String) (c : Service Plan)
      (hreq : req = .create p key) (hacc : db.Accepts (newDeployment env p key))
      (hf : Follows database db (startRollout env p (newDeployment env p key)) c) :
      Stage P env req db (some ⟨newDeployment env p key, env.named⟩) c

section Stages

variable {P : Deployment → Prop} {env : Env} {req : Request} {db : Db} {c : Service Plan}
  {h : Option Insertion}

theorem idle_fail (e : ServiceError) : Idle (.fail e) := trivial

theorem stage_checking_read {p : CreateDeploymentRequest} {key : Option String}
    (hreq : req = .create p key) {q : Query} {k : q.Answer → Service Plan}
    (hc : createFresh env p key = .read q k) : Stage P env req db none (k (db.answer q)) := by
  rw [createFresh_eq] at hc
  cases hc
  rw [answer_activeDeployment]
  cases db.getActiveDeployment p.modelName with
  | some existing => exact .idle _ _ (idle_fail _)
  | none => exact .checking p key _ hreq (Or.inr rfl)

/-- One read moves a session on, within its stage or into the next one. -/
theorem stage_read {q : Query} {k : q.Answer → Service Plan}
    (hP : ∀ id d, q = .deployment id → db.deployment? id = some d → P d)
    (hs : Stage P env req db h (.read q k)) :
    Stage P env req db h (k (db.answer q)) := by
  generalize hcode : (Txn.read q k : Service Plan) = c at hs
  cases hs with
  | fresh =>
      rcases endpoint env req with ⟨p, key, rfl⟩ | ⟨id, f, hend⟩
      · have hcode' : createDeployment env p key = .read q k := hcode.symm
        rcases createDeployment_eq env p key with he | ⟨k', _, he⟩
        · exact stage_checking_read rfl (he ▸ hcode')
        · rw [he] at hcode'
          cases hcode'
          rw [answer_findByIdempotencyKey]
          cases db.findByIdempotencyKey k' with
          | some existing => exact .idle _ _ rfl
          | none => exact .checking p key _ rfl (Or.inl rfl)
      · have hcode' := hcode.symm
        rw [hend.code_eq, getDeployment_eq] at hcode'
        cases hcode'
        rw [answer_deployment]
        cases hd : db.deployment? id with
        | none => exact .idle _ _ (idle_fail _)
        | some d =>
            obtain ⟨rfl, hd⟩ := found hd
            by_cases ho : d.Open
            · refine .live d _ _ hd ho (hP d.id d rfl hd) ?_ (hend.reads d) (.here _)
              intro db' hd'
              rw [hend.code_eq, eval_getDeployment, hd']
            · obtain ⟨e, he⟩ := hend.closed d ho
              exact .idle _ _ (by simp only [he]; exact idle_fail e)
  | idle h c hc =>
      subst hcode
      exact .idle _ _ (hc.2 _)
  | live d c0 c hd ho hPd heval hc0 hf =>
      subst hcode
      exact .live d c0 _ hd ho hPd heval hc0 hf.snoc
  | stale d d' c hd hv hc =>
      subst hcode
      exact .stale d d' _ hd hv (hc.2 _)
  | checking p key c hreq hc =>
      rcases hc with hc | hc
      · exact stage_checking_read hreq (hc.symm.trans hcode.symm)
      · rw [hc] at hcode
        cases hcode
  | inserting p key c hreq hacc hf =>
      subst hcode
      exact .inserting p key _ hreq hacc hf.snoc

/-- An endpoint starts with a read. -/
theorem program_reads (env : Env) (req : Request) : ∃ q k, req.program env = .read q k := by
  rcases endpoint env req with ⟨p, key, rfl⟩ | ⟨id, f, hend⟩
  · rcases createDeployment_eq env p key with he | ⟨k, _, he⟩
    · exact ⟨_, _, he.trans (createFresh_eq env p key)⟩
    · exact ⟨_, _, he⟩
  · exact ⟨_, _, hend.code_eq.trans (getDeployment_eq env id f)⟩

/-- The flush of the INSERT: granted, the session holds the row; refused, it is idle. -/
theorem stage_reserve {r : Insertion} {k : Option UniqueConstraint → Service Plan}
    (hs : Stage P env req db h (.reserve r k)) :
    Stage P env req db (if (db.probe r).isNone then some r else h) (k (db.probe r)) := by
  generalize hcode : (Txn.reserve r k : Service Plan) = c at hs
  cases hs with
  | fresh =>
      obtain ⟨q, k', he⟩ := program_reads env req
      rw [he] at hcode
      cases hcode
  | idle h c hc =>
      subst hcode
      exact hc.elim
  | live d c0 c hd ho hPd heval hc0 hf =>
      subst hcode
      exact (hf.only hc0).elim
  | stale d d' c hd hv hc =>
      subst hcode
      exact hc.elim
  | checking p key c hreq hc =>
      rcases hc with hc | hc
      · rw [hc, createFresh_eq] at hcode
        cases hcode
      · rw [hc] at hcode
        cases hcode
        cases hv : db.probe ⟨newDeployment env p key, env.named⟩ with
        | none =>
            have hacc := violations_eq_nil.mp (probe_eq_none.mp hv)
            exact .inserting p key _ hreq hacc (.here _)
        | some v =>
            refine .idle _ _ ?_
            cases v with
            | idempotencyKey => exact idle_fail _
            | primaryKey => exact ⟨trivial, fun _ => idle_fail _⟩
            | activePerModel => exact ⟨trivial, fun _ => idle_fail _⟩
  | inserting p key c hreq hacc hf =>
      subst hcode
      exact (hf.only (only_startRollout env p _)).elim

/-- Run alone against the tables that still accept its row, a create inserts it. -/
theorem eval_create_accepts {env : Env} {p : CreateDeploymentRequest} {key : Option String}
    (hacc : db.Accepts (newDeployment env p key)) :
    (createDeployment env p key).eval database db =
      (startRollout env p (newDeployment env p key)).eval database db := by
  have hactive : db.getActiveDeployment p.modelName = none := by
    refine latestBy_eq_none.mpr ?_
    intro d hd
    by_contra hp
    simp only [Bool.not_eq_false, Bool.and_eq_true, decide_eq_true_eq] at hp
    exact accepts_apart hacc hd (Or.inr ⟨rfl, open_of_active hp.2, hp.1.symm⟩)
  have hfresh : (createFresh env p key).eval database db =
      (startRollout env p (newDeployment env p key)).eval database db := by
    unfold createFresh
    rw [eval_select_bind, answer_activeDeployment, hactive]
    show (insertDeployment env p (newDeployment env p key)).eval database db = _
    unfold insertDeployment
    rw [eval_insertRow_bind, probe_eq_none.mpr (violations_eq_nil.mpr hacc)]
  rcases createDeployment_eq env p key with he | ⟨k, hk, he⟩
  · rw [he, hfresh]
  · have hnone : db.findByIdempotencyKey k = none := hacc.key_new k hk
    rw [he, Txn.eval_read, show database.answer db (.findByIdempotencyKey k) = none from hnone]
    exact hfresh

/-- A program that commits when run alone has one of the effects. -/
theorem effect_of_eval {w : Session} {x : Reply}
    (he : (req.program env).eval database db = .ok (some w, x)) :
    ∃ row split bodies, Effect env db req x row split bodies ∧ w.row = row ∧
      db.flush w = .ok (db.applied row split (stamp env.clock row.id bodies)) := by
  rcases acts env db req with (⟨e, h⟩ | ⟨reply, h, _⟩) | ⟨reply, row, split, bodies, heff, w', h, hw, hc⟩
  · rw [he] at h
    cases h
  · rw [he] at h
    cases h
  · rw [he] at h
    cases h
    exact ⟨row, split, bodies, heff, hw.row_eq, by rw [hw.flush, hc]⟩

/-- What a session that commits has done: it inserted the row it held, or amended the one it had
    loaded. -/
inductive Committed (P : Deployment → Prop) (db : Db) : Option Insertion → Deployment → Prop where
  | inserted (env : Env) (p : CreateDeploymentRequest) (key : Option String)
      (hacc : db.Accepts (newDeployment env p key)) :
      Committed P db (some ⟨newDeployment env p key, env.named⟩) (createdRow env p key)
  | amended (d row : Deployment) (hd : db.deployment? row.id = some d) (ha : Amends d row)
      (hP : P d) : Committed P db none row

/-- **A session whose commit goes through would have committed the same, run alone.** -/
theorem stage_commit {db' : Db} {w : Session} {x : Reply}
    (hs : Stage P env req db h (.done (some w, x))) (hw : db.flush w = .ok db') :
    (req.program env).eval database db = .ok (some w, x) ∧
    ∃ reply row split bodies, Effect env db req reply row split bodies ∧
      db' = db.applied row split (stamp env.clock row.id bodies) ∧ Committed P db h row := by
  have hflushed : (req.program env).eval database db = .ok (some w, x) →
      ∃ row split bodies, Effect env db req x row split bodies ∧ w.row = row ∧
        db' = db.applied row split (stamp env.clock row.id bodies) := by
    intro hrun
    obtain ⟨row, split, bodies, heff, hrow, hflush⟩ := effect_of_eval hrun
    rw [hw] at hflush
    exact ⟨row, split, bodies, heff, hrow, Except.ok.inj hflush⟩
  generalize hcode : (Txn.done (some w, x) : Service Plan) = c at hs
  cases hs with
  | fresh =>
      obtain ⟨q, k, he⟩ := program_reads env req
      rw [he] at hcode
      cases hcode
  | idle h c hc =>
      subst hcode
      cases hc
  | live d c0 c hd _ hPd heval hc0 hf =>
      subst hcode
      have hrun : (req.program env).eval database db = .ok (some w, x) :=
        (heval db hd).trans hf.eval_eq
      have hworks : Works d false w := hf.only hc0 w rfl
      obtain ⟨row, split, bodies, heff, hrow, hdb⟩ := hflushed hrun
      have hid : row.id = d.id := by
        rw [← hrow]
        exact hworks.id_eq
      have hrow' : db.deployment? row.id = some d := by
        rw [hid]
        exact hd
      exact ⟨hrun, x, row, split, bodies, heff, hdb, .amended d row hrow' (heff.amends hrow') hPd⟩
  | stale d d' c hd hv hc =>
      subst hcode
      have hworks : Works d false w := hc w rfl
      -- the UPDATE matches no row
      have hst : w.stale db = true := by
        unfold Session.stale
        rw [hworks.inserted_eq, hworks.id_eq, hworks.versionId_eq, hd]
        simp only [Option.map_some, Bool.not_false, Bool.true_and, decide_eq_true_eq]
        intro e
        have := Option.some.inj e
        omega
      simp [Db.flush, hst] at hw
  | checking p key c hreq hc =>
      rcases hc with hc | hc <;> rw [hc] at hcode <;> cases hcode
  | inserting p key c hreq hacc hf =>
      subst hcode
      subst hreq
      have hrun : ((Request.create p key).program env).eval database db = .ok (some w, x) :=
        (eval_create_accepts hacc).trans hf.eval_eq
      obtain ⟨row, split, bodies, heff, _, hdb⟩ := hflushed hrun
      refine ⟨hrun, x, row, split, bodies, heff, hdb, ?_⟩
      cases heff with
      | created => exact .inserted env p key hacc
      | resolved hreq => cases hreq
      | flagged hreq => cases hreq

/-- The indexes still accept a row after a row was put that it does not collide with. -/
theorem accepts_applied {d row : Deployment} {split : Option (List TargetWeight)}
    {events : List DeploymentEvent} (hacc : db.Accepts d) (hid : d.id ≠ row.id)
    (hapart : ¬d.Collides row) : (db.applied row split events).Accepts d where
  id_new := by
    rw [applied_deployment?, if_neg hid]
    exact hacc.id_new
  key_new k hk := by
    refine find_eq_none.mpr ?_
    intro d' hd' hk'
    rcases mem_applied.mp hd' with rfl | ⟨hd', _⟩
    · exact hapart (Or.inl ⟨by rw [hk]; rfl, hk.trans hk'.symm⟩)
    · exact find_eq_none.mp (hacc.key_new k hk) d' hd' hk'
  model_free ho d' hd' hm := by
    rcases mem_applied.mp hd' with rfl | ⟨hd', _⟩
    · by_contra ht
      exact hapart (Or.inr ⟨ho, by simpa [Deployment.Open] using ht, hm.symm⟩)
    · exact hacc.model_free ho d' hd' hm

/-- The queries of a session on row `d`, after a commit that wrote neither `d` nor its model's
    counter. -/
theorem answer_applied {d row : Deployment} {split : Option (List TargetWeight)}
    {events : List DeploymentEvent} (hid : d.id ≠ row.id) (hm : d.modelName ≠ row.modelName)
    {q : Query} (hq : Reads d q) : (db.applied row split events).answer q = db.answer q := by
  cases q with
  | routingGeneration m =>
      have hq' : m = d.modelName := hq
      subst hq'
      exact applied_routingGeneration?_ne hm
  | trafficAllocation id =>
      have hq' : id = d.id := hq
      subst hq'
      exact applied_trafficAllocation?_ne hid
  | deployment id => exact hq.elim
  | findByIdempotencyKey key => exact hq.elim
  | activeDeployment m => exact hq.elim

/-- What a commit has to do with a row that another session inserts: another key, another model. -/
theorem committed_apart {d row : Deployment} {h : Option Insertion}
    (hc : Committed P db h row) (hacc : db.Accepts d) (hopen : d.Open) {named : UniqueConstraint}
    (hclash : ∀ r ∈ h, r.clash ⟨d, named⟩ = false) :
    d.id ≠ row.id ∧ d.modelName ≠ row.modelName ∧ ¬d.Collides row := by
  cases hc with
  | inserted env p key hacc' =>
      have hno := hclash _ rfl
      simp only [Insertion.clash, Bool.or_eq_false_iff, decide_eq_false_iff_not,
        Bool.and_eq_false_iff] at hno
      obtain ⟨⟨hid, hkey⟩, hmodel⟩ := hno
      have hm : d.modelName ≠ p.modelName := by
        intro e
        rcases hmodel with (h | h) | h
        · cases h
        · rw [show d.status.terminal = false from hopen] at h
          cases h
        · exact h e.symm
      refine ⟨fun e => hid e.symm, hm, ?_⟩
      intro hcol
      rcases hcol with ⟨hk, he⟩ | ⟨_, _, he⟩
      · have he' : d.idempotencyKey = (newDeployment env p key).idempotencyKey := he
        rcases hkey with h | h
        · rw [← he', hk] at h
          cases h
        · exact h he'.symm
      · exact hm he
  | amended d' row hd ha _ =>
      have hmem := (deployment?_eq_some.mp hd).1
      have hfar := accepts_apart hacc hmem
      refine ⟨?_, ?_, ?_⟩
      · intro e
        exact hacc.absent (e ▸ hd)
      · intro e
        exact hfar (Or.inr ⟨hopen, ha.was_open, e.trans ha.modelName_eq⟩)
      · intro hcol
        rcases hcol with ⟨hk, he⟩ | ⟨_, _, he⟩
        · exact hfar (Or.inl ⟨hk, he.trans ha.idempotencyKey_eq⟩)
        · exact hfar (Or.inr ⟨hopen, ha.was_open, he.trans ha.modelName_eq⟩)

/-- **A commit moves another session at most from `live` to `stale`.** -/
theorem stage_others {P' : Deployment → Prop} {env' : Env} {req' : Request} {reply : Reply}
    {row : Deployment} {split : Option (List TargetWeight)} {bodies : List EventBody}
    {events : List DeploymentEvent} {h0 : Option Insertion} (hg : Schema db)
    (heff : Effect env db req reply row split bodies) (hcom : Committed P db h0 row)
    (hclash : ∀ r ∈ h0, ∀ r' ∈ h, r.clash r' = false) (hs : Stage P' env' req' db h c) :
    Stage P' env' req' (db.applied row split events) h c := by
  have hamend : ∀ {d : Deployment}, db.deployment? row.id = some d →
      row.versionId = d.versionId + 1 := fun hd => (heff.amends hd).versionId_eq
  cases hs with
  | fresh => exact .fresh
  | idle h c hc => exact .idle h c hc
  | live d c0 c hd ho hPd heval hc0 hf =>
      by_cases hid : d.id = row.id
      · refine .stale d row c ?_ ?_ (hf.only hc0)
        · rw [applied_deployment?, if_pos hid]
        · have := hamend (hid ▸ hd)
          omega
      · have hm : d.modelName ≠ row.modelName := by
          intro e
          exact heff.others_closed hg (deployment?_eq_some.mp hd).1 e hid ho
        refine .live d c0 c ?_ ho hPd heval hc0 ?_
        · rw [applied_deployment?, if_neg hid]
          exact hd
        · exact hf.transport hc0 fun q hq => answer_applied hid hm hq
  | stale d d' c hd hv hc =>
      by_cases hid : d.id = row.id
      · refine .stale d row c ?_ ?_ hc
        · rw [applied_deployment?, if_pos hid]
        · have := hamend (hid ▸ hd)
          omega
      · refine .stale d d' c ?_ hv hc
        rw [applied_deployment?, if_neg hid]
        exact hd
  | checking p key c hreq hc => exact .checking p key c hreq hc
  | inserting p key c hreq hacc hf =>
      obtain ⟨hid, hm, hapart⟩ := committed_apart hcom hacc rfl fun r hr => hclash r hr _ rfl
      refine .inserting p key c hreq (accepts_applied hacc hid hapart) ?_
      exact hf.transport (only_startRollout env' p _) fun q hq => answer_applied hid hm hq

end Stages

/-! ## 4. Serializability -/

/-- The lifecycle requests meet the premises of commit-order serializability, also where a run lets
    session `i` load only rows that satisfy `P i`. -/
theorem commitOrder {ι : Type} (requests : ι → Env × Request) (P : ι → Deployment → Prop) :
    CommitOrder database Schema
      (fun i db c => ∀ id k, c = .read (.deployment id) k → ∀ d, db.deployment? id = some d → P i d)
      (fun i db h c => Stage (P i) (requests i).1 (requests i).2 db h c)
      (fun i => (requests i).2.program (requests i).1) where
  start i db _ := .fresh
  read i db h q k _ hmay hs := by
    refine stage_read ?_ hs
    rintro id d rfl
    exact hmay id k rfl d
  reserve i db h r k _ hs := stage_reserve hs
  commit i db db' h w x _ hs hw := (stage_commit hs hw).1
  good i db db' h w x hg hs hw := by
    obtain ⟨_, reply, row, split, bodies, heff, rfl, _⟩ := stage_commit hs hw
    exact heff.schema hg _
  others i db db' h w x j h' c' hg hs hw hclash hs' := by
    obtain ⟨_, reply, row, split, bodies, heff, rfl, hcom⟩ := stage_commit hs hw
    exact stage_others hg heff hcom hclash hs'

section Interleavings

variable {ι : Type}

/-- The requests of `order`, each run alone on what the one before it left. -/
def serially (requests : ι → Env × Request) (db : Db) (order : List ι) : Db :=
  order.foldl (fun db i => ((requests i).2.exec (requests i).1 db).2) db

theorem exec_snd (env : Env) (req : Request) (db : Db) :
    (req.exec env db).2 = (Transact.run database db (req.program env)).2 := by
  unfold Request.exec
  split <;> (rename_i h; rw [h])

theorem serially_eq_runAll (requests : ι → Env × Request) (db : Db) (order : List ι) :
    serially requests db order =
      runAll database (fun i => (requests i).2.program (requests i).1) db order := by
  unfold serially runAll
  congr 1
  funext db i
  exact exec_snd _ _ _

variable [DecidableEq ι] [Fintype ι]

/-- The sessions of `requests` against `db`, after the reads, flushes and commits of `schedule`. -/
def interleave (requests : ι → Env × Request) (db : Db) (schedule : List ι) :
    Config sql ServiceError Reply Db ι :=
  (Config.start db fun i => (requests i).2.program (requests i).1).steps database schedule

/-- Interleaved requests meet the commit-order rule, with nothing asked of what they load. -/
theorem interleave_serial (requests : ι → Env × Request) {db : Db} (hs : Schema db)
    (schedule : List ι) :
    Serial database Schema
      (fun i db h c => Stage (fun _ => True) (requests i).1 (requests i).2 db h c)
      (fun i => (requests i).2.program (requests i).1) db (interleave requests db schedule) :=
  serial_of_commitOrder (commitOrder requests fun _ _ => True) hs schedule
    fun _ _ _ _ _ _ _ _ _ _ _ _ _ => trivial

/-- **Serializability of the lifecycle**: after any steps of any requests' sessions, the tables are
    those that the committed requests, each once and in commit order, leave when they run alone. -/
theorem lifecycle_serializable (requests : ι → Env × Request) (db : Db) (hs : Schema db)
    (schedule : List ι) :
    (interleave requests db schedule).store =
      serially requests db (interleave requests db schedule).log ∧
    (interleave requests db schedule).log.Nodup ∧
    ∀ i, i ∈ (interleave requests db schedule).log ↔
      ∃ outcome, (interleave requests db schedule).proc i = .finished true outcome := by
  have h := interleave_serial requests hs schedule
  rw [serially_eq_runAll]
  exact ⟨h.order, h.once, h.logged⟩

end Interleavings

/-- A rollout, and the requests to promote it and to roll it back. -/
def sampleRace : Fin 2 → Env × Request
  | 0 => (Env.after 10 "d2", .promote "d1" .manual)
  | 1 => (Env.after 20 "d3", .rollback "d1" .manual)

/-- Read by turns, the first to commit wins and the other changes nothing. -/
theorem lifecycle_serializable_race :
    let db := ((Request.create (sampleCreate "fraud-model") none).exec (Env.after 0 "d1") .empty).2
    let c := interleave sampleRace db [0, 1, 1, 0, 1, 0, 1, 0]
    c.store = serially sampleRace db c.log ∧ c.log = [1] := by
  refine ⟨(lifecycle_serializable sampleRace _ (schema_exec _ _ schema_empty) _).1, ?_⟩
  decide +kernel

end ModelOps
