/-
  File:      ModelOps/Worker/RunOnce.lean
  Subject:   The worker's loop as its client sees it (app/worker/loop.py, app/worker/client.py):
             `process_deployment`, `run_once` and `run_forever`, over any client.

  A call of the client has an answer, or it raises: `ActionConflictError` for a 409, another `Exception`
  for the rest, or what no handler of the loop catches. What it does to the world is the client's
  business (`WorkerClient σ`).

  * `WorkerClient.processDeployment`, `runOnce`, `runForever` -- what the code leaves behind where only
    `Exception`s are raised; `forever`: with what leaves the loop;
  * `forever_returns` -- so no `Exception` ever leaves it;
  * `httpClient` -- the client of the program: its calls reach the control plane among those of others,
    or they do not, or their answer gets lost;
  * **`forever_run`** -- whatever becomes of its calls, the loop never ends by an exception, and what it
    does is a run of `WorkerState.next`, from one start of a sweep to the next.
-/
import ModelOps.Worker.Crash

namespace ModelOps

open Relational Labelled

/-! ## 1. The client -/

/-- What a call raises. -/
inductive Raised where
  /-- `ActionConflictError` -/
  | conflict
  | other
  /-- no `Exception`: the task is cancelled, or the interpreter exits -/
  | exit
  deriving DecidableEq, Repr

/-- A call: its answer, or what it raises, and the world after it. -/
abbrev ClientCall (σ α : Type) := σ → Except Raised α × σ

/-- What the loop needs of its client, and of the clock. -/
structure WorkerClient (σ : Type) where
  listDeployments : ClientCall σ (List Deployment)
  getDeployment : String → ClientCall σ DeploymentOut
  /-- `evaluated_at` of each, in the order of the answer -/
  getPolicyEvaluations : String → ClientCall σ (List Time)
  evaluate : String → ClientCall σ OverallResult
  /-- `advance_traffic`, `promote`, `rollback` and `record_inconclusive` -/
  act : String → WorkerAction → ClientCall σ Unit
  reconcile : ClientCall σ Unit
  now : σ → Time

namespace WorkerClient

variable {σ : Type} (client : WorkerClient σ) (defaultWindowSeconds : Nat)

/-- `_is_due_for_evaluation`. -/
def isDue (out : DeploymentOut) : ClientCall σ Bool := fun s =>
  match client.getPolicyEvaluations out.deployment.id s with
  | (.error e, s) => (.error e, s)
  | (.ok evaluations, s) =>
      (.ok (isDueForEvaluation evaluations.head? (client.now s)
        (evaluationWindowSeconds out defaultWindowSeconds)), s)

/-- `process_deployment` from the evaluation on. -/
def settle (out : DeploymentOut) (id : String) : ClientCall σ (Option WorkerAction) := fun s =>
  match client.evaluate id s with
  | (.error .conflict, s) => (.ok none, s)
  | (.error e, s) => (.error e, s)
  | (.ok overallResult, s) =>
      let action := decideAction overallResult (canaryAtFullTraffic out)
      match client.act id action s with
      | (.error .conflict, s) => (.ok none, s)
      | (.error e, s) => (.error e, s)
      | (.ok _, s) => (.ok (some action), s)

/-- `process_deployment` of a deployment that is active. -/
def judge (out : DeploymentOut) (id : String) : ClientCall σ (Option WorkerAction) := fun s =>
  match client.isDue defaultWindowSeconds out s with
  | (.error e, s) => (.error e, s)
  | (.ok false, s) => (.ok none, s)
  | (.ok true, s) => client.settle out id s

/-- `process_deployment`. -/
def processDeployment (id : String) : ClientCall σ (Option WorkerAction) := fun s =>
  match client.getDeployment id s with
  | (.error e, s) => (.error e, s)
  | (.ok out, s) =>
      if !out.deployment.status.active then (.ok none, s)
      else client.judge defaultWindowSeconds out id s

/-- The `for` of `run_once`: what a deployment raises is logged, and the next one is taken up. -/
def processAll : List String → σ → σ
  | [], s => s
  | id :: ids, s => processAll ids (client.processDeployment defaultWindowSeconds id s).2

/-- `run_once`; a reconcile call that raises is logged. -/
def runOnce : ClientCall σ Unit := fun s =>
  match client.listDeployments (client.reconcile s).2 with
  | (.error e, s) => (.error e, s)
  | (.ok deployments, s) =>
      let activeIds := (deployments.filter fun d => d.status.active && !d.automationPaused).map
        Deployment.id
      (.ok (), client.processAll defaultWindowSeconds activeIds s)

/-- `run_forever`, for so many rounds: a sweep that raises is logged, and the next one begins. -/
def runForever : Nat → σ → σ
  | 0, s => s
  | rounds + 1, s => runForever rounds (client.runOnce defaultWindowSeconds s).2

/-! The same with what leaves each of them. -/

/-- `try: .. except Exception: logger.exception(..)`. -/
def logged {α : Type} (call : ClientCall σ α) : ClientCall σ Unit := fun s =>
  match call s with
  | (.error .exit, s) => (.error .exit, s)
  | (_, s) => (.ok (), s)

/-- The `for` of `run_once`. -/
def eachLogged : List String → ClientCall σ Unit
  | [], s => (.ok (), s)
  | id :: ids, s =>
      match logged (client.processDeployment defaultWindowSeconds id) s with
      | (.error e, s) => (.error e, s)
      | (.ok _, s) => eachLogged ids s

/-- `run_once`. -/
def once : ClientCall σ Unit := fun s =>
  match logged client.reconcile s with
  | (.error e, s) => (.error e, s)
  | (.ok _, s) =>
      match client.listDeployments s with
      | (.error e, s) => (.error e, s)
      | (.ok deployments, s) =>
          client.eachLogged defaultWindowSeconds
            ((deployments.filter fun d => d.status.active && !d.automationPaused).map Deployment.id) s

/-- `run_forever`, for so many rounds. -/
def forever : Nat → ClientCall σ Unit
  | 0, s => (.ok (), s)
  | rounds + 1, s =>
      match logged (client.once defaultWindowSeconds) s with
      | (.error e, s) => (.error e, s)
      | (.ok _, s) => forever rounds s

/-- A call that raises `Exception`s only. -/
def Excepts {α : Type} (call : ClientCall σ α) : Prop := ∀ s s', call s ≠ (.error .exit, s')

/-- Every call of the client does. -/
structure RaisesExceptions : Prop where
  listDeployments : Excepts client.listDeployments
  getDeployment : ∀ id, Excepts (client.getDeployment id)
  getPolicyEvaluations : ∀ id, Excepts (client.getPolicyEvaluations id)
  evaluate : ∀ id, Excepts (client.evaluate id)
  act : ∀ id action, Excepts (client.act id action)
  reconcile : Excepts client.reconcile

section Returns

variable {client} {defaultWindowSeconds : Nat}

theorem logged_eq {α : Type} {call : ClientCall σ α} (h : Excepts call) (s : σ) :
    logged call s = (.ok (), (call s).2) := by
  unfold logged
  rcases hx : call s with ⟨e | a, s'⟩
  · cases e with
    | conflict => rfl
    | other => rfl
    | exit => exact absurd hx (h s s')
  · rfl

theorem settle_excepts (h : client.RaisesExceptions) (out : DeploymentOut) (id : String) :
    Excepts (client.settle out id) := by
  intro s s''
  unfold settle
  rcases hevaluate : client.evaluate id s with ⟨e | v, s'⟩
  · cases e with
    | exit => exact absurd hevaluate (h.evaluate id s s')
    | conflict => exact fun hx => by cases hx
    | other => exact fun hx => by cases hx
  · dsimp only
    rcases hact : client.act id (decideAction v (canaryAtFullTraffic out)) s' with ⟨e | a, t⟩
    · cases e with
      | exit => exact absurd hact (h.act id _ s' t)
      | conflict => exact fun hx => by cases hx
      | other => exact fun hx => by cases hx
    · exact fun hx => by cases hx

theorem judge_excepts (h : client.RaisesExceptions) (out : DeploymentOut) (id : String) :
    Excepts (client.judge defaultWindowSeconds out id) := by
  intro s s''
  unfold judge isDue
  rcases hread : client.getPolicyEvaluations out.deployment.id s with ⟨e | evaluations, s'⟩
  · intro hx
    cases hx
    exact h.getPolicyEvaluations _ _ _ hread
  · dsimp only
    cases isDueForEvaluation evaluations.head? (client.now s')
      (evaluationWindowSeconds out defaultWindowSeconds) with
    | false => exact fun hx => by cases hx
    | true => exact settle_excepts h out id s' s''

theorem process_excepts (h : client.RaisesExceptions) (id : String) :
    Excepts (client.processDeployment defaultWindowSeconds id) := by
  intro s s''
  unfold processDeployment
  rcases hget : client.getDeployment id s with ⟨e | out, s'⟩
  · intro hx
    cases hx
    exact h.getDeployment _ _ _ hget
  · dsimp only
    split
    · exact fun hx => by cases hx
    · exact judge_excepts h out id s' s''

theorem eachLogged_eq (h : client.RaisesExceptions) (ids : List String) (s : σ) :
    client.eachLogged defaultWindowSeconds ids s =
      (.ok (), client.processAll defaultWindowSeconds ids s) := by
  induction ids generalizing s with
  | nil => rfl
  | cons id ids ih =>
      unfold eachLogged
      rw [logged_eq (process_excepts h id)]
      exact ih _

theorem once_eq (h : client.RaisesExceptions) (s : σ) :
    client.once defaultWindowSeconds s = client.runOnce defaultWindowSeconds s := by
  unfold once runOnce
  rw [logged_eq h.reconcile]
  dsimp only
  rcases client.listDeployments (client.reconcile s).2 with ⟨e | deployments, s'⟩
  · rfl
  · exact eachLogged_eq h _ s'

theorem once_excepts (h : client.RaisesExceptions) : Excepts (client.once defaultWindowSeconds) := by
  intro s s''
  rw [once_eq h]
  unfold runOnce
  rcases hlist : client.listDeployments (client.reconcile s).2 with ⟨e | deployments, s'⟩
  · intro hx
    cases hx
    exact h.listDeployments _ _ hlist
  · exact fun hx => by cases hx

/-- **No `Exception` leaves the loop**: as long as nothing else is raised it returns from every round. -/
theorem forever_returns (h : client.RaisesExceptions) (rounds : Nat) (s : σ) :
    client.forever defaultWindowSeconds rounds s =
      (.ok (), client.runForever defaultWindowSeconds rounds s) := by
  induction rounds generalizing s with
  | zero => rfl
  | succ rounds ih =>
      unfold forever
      rw [logged_eq (once_excepts h), once_eq h]
      exact ih _

end Returns

/-! What each step leaves, by the answer of its call. -/

section Steps

variable (client : WorkerClient σ) {defaultWindowSeconds : Nat} {out : DeploymentOut} {id : String}
  {e : Raised} {s s' : σ}

/-- An evaluation that raises ends the matter, a conflict too. -/
theorem settle_error (h : client.evaluate id s = (.error e, s')) : (client.settle out id s).2 = s' := by
  unfold settle
  rw [h]
  cases e <;> rfl

theorem settle_ok {overallResult : OverallResult} (h : client.evaluate id s = (.ok overallResult, s')) :
    (client.settle out id s).2 =
      (client.act id (decideAction overallResult (canaryAtFullTraffic out)) s').2 := by
  unfold settle
  rw [h]
  dsimp only
  rcases client.act id (decideAction overallResult (canaryAtFullTraffic out)) s' with ⟨e | a, s''⟩
  · cases e <;> rfl
  · rfl

theorem judge_error (h : client.getPolicyEvaluations out.deployment.id s = (.error e, s')) :
    (client.judge defaultWindowSeconds out id s).2 = s' := by
  unfold judge isDue
  rw [h]

theorem judge_ok {evaluations : List Time}
    (h : client.getPolicyEvaluations out.deployment.id s = (.ok evaluations, s')) :
    client.judge defaultWindowSeconds out id s =
      if isDueForEvaluation evaluations.head? (client.now s')
        (evaluationWindowSeconds out defaultWindowSeconds) then client.settle out id s'
      else (.ok none, s') := by
  unfold judge isDue
  rw [h]
  dsimp only
  cases isDueForEvaluation evaluations.head? (client.now s')
    (evaluationWindowSeconds out defaultWindowSeconds) <;> rfl

theorem process_error (h : client.getDeployment id s = (.error e, s')) :
    (client.processDeployment defaultWindowSeconds id s).2 = s' := by
  unfold processDeployment
  rw [h]

theorem process_ok (h : client.getDeployment id s = (.ok out, s')) :
    client.processDeployment defaultWindowSeconds id s =
      if out.deployment.status.active then client.judge defaultWindowSeconds out id s'
      else (.ok none, s') := by
  unfold processDeployment
  rw [h]
  dsimp only
  cases out.deployment.status.active <;> rfl

theorem processAll_cons (ids : List String) : client.processAll defaultWindowSeconds (id :: ids) s =
    client.processAll defaultWindowSeconds ids (client.processDeployment defaultWindowSeconds id s).2 :=
  rfl

end Steps

end WorkerClient

/-! ## 2. The client of the program -/

/-- What becomes of a request. -/
inductive Fate where
  | answered
  /-- it takes effect, and its answer gets lost -/
  | unanswered
  /-- it does not reach the control plane -/
  | unsent
  deriving DecidableEq, Repr

/-- What one call meets. -/
structure Moment where
  /-- what others called before it -/
  others : List ApiCall
  fate : Fate
  now : Time
  clock : Clock
  gateway : Gateway
  evaluation : EvaluationEnv
  env : Env

/-- The status an endpoint answers an error with. -/
def ServiceError.statusCode : ServiceError → Nat
  | .deploymentNotFound _ => 404
  | .integrityError => 500
  | .invalidTransition _ | .deploymentNotActive .. | .alreadyAtFinalStage _ | .concurrentUpdate _
  | .deploymentTerminal .. | .activeDeploymentExists .. => 409

/-- What `_get` and `_post` make of an error. -/
def raisedBy (e : ServiceError) : Raised := if e.statusCode = 409 then .conflict else .other

/-- The tables, and how many calls the worker has made. -/
structure World where
  tables : Tables
  calls : Nat

/-- A request of the worker. -/
def request {α : Type} (oracle : Nat → Moment)
    (effect : Moment → Tables → Except ServiceError α × Tables) : ClientCall World α := fun w =>
  let m := oracle w.calls
  let t := w.tables.after m.others
  match m.fate with
  | .unsent => (.error .other, ⟨t, w.calls + 1⟩)
  | .unanswered => (.error .other, ⟨(effect m t).2, w.calls + 1⟩)
  | .answered =>
      match effect m t with
      | (.ok a, t) => (.ok a, ⟨t, w.calls + 1⟩)
      | (.error e, t) => (.error (raisedBy e), ⟨t, w.calls + 1⟩)

/-- `list_deployments`: the newest first. -/
def Db.listDeployments (db : Db) : List Deployment :=
  db.deployments.rows.insertionSort fun d d' => d'.createdAt ≤ d.createdAt

/-- GET of a deployment's own data. -/
def Tables.ofDeployment {α : Type} (t : Tables) (id : String) (read : DeploymentOut → α) :
    Except ServiceError α × Tables :=
  match t.db.deploymentOut? id with
  | none => (.error (.deploymentNotFound id), t)
  | some out => (.ok (read out), t)

/-- `HttpWorkerClient` at the control plane. -/
def httpClient (oracle : Nat → Moment) : WorkerClient World where
  listDeployments := request oracle fun _ t => (.ok t.db.listDeployments, t)
  getDeployment id := request oracle fun _ t => t.ofDeployment id fun out => out
  getPolicyEvaluations id := request oracle fun _ t =>
    t.ofDeployment id fun _ => (t.listPolicyEvaluations id).map PolicyEvaluation.evaluatedAt
  evaluate id := request oracle fun m t =>
    match (workerEvaluate id).exec m.evaluation t with
    | (.ok response, t) => (.ok response.overallResult, t)
    | (.error e, t) => (.error e, t)
  act id action := request oracle fun m t =>
    match (action.request id).exec m.env t.db with
    | (.ok _, db) => (.ok (), { t with db := db })
    | (.error e, db) => (.error e, { t with db := db })
  reconcile := request oracle fun m t =>
    (.ok (), { t with db := (reconcileRouterState m.clock t.db m.gateway).db })
  now w := (oracle w.calls).now

/-! ## 3. The loop is a run -/

/-- What may stand between the worker's own steps: the calls of others, and the reconcile call that opens
    a sweep. The process does not start again. -/
def Given (oracle : Nat → Moment) : WorkerLabel → Prop
  | .call c => (∃ i, c ∈ (oracle i).others) ∨ ∃ i, c = .reconcile (oracle i).clock (oracle i).gateway
  | .crash => False
  | _ => True

/-- Steps of the worker, among what is given, lead from `w` to `w'`. -/
def Reaches (oracle : Nat → Moment) (w w' : WorkerState) : Prop :=
  ∃ ls, run WorkerState.next w ls = some w' ∧ ∀ l ∈ ls, Given oracle l

section Loop

variable {oracle : Nat → Moment} {w w' w'' : WorkerState} {world : World} {out : DeploymentOut}
  {id : String} {rest : List String} {l : WorkerLabel}

theorem reaches_refl (w : WorkerState) : Reaches oracle w w :=
  ⟨[], rfl, fun _ h => (List.not_mem_nil h).elim⟩

theorem Reaches.trans (h : Reaches oracle w w') (h' : Reaches oracle w' w'') :
    Reaches oracle w w'' := by
  obtain ⟨ls, hls, hc⟩ := h
  obtain ⟨ls', hls', hc'⟩ := h'
  refine ⟨ls ++ ls', ?_, ?_⟩
  · rw [run_append, hls]
    exact hls'
  · intro l h
    rcases List.mem_append.mp h with h | h
    · exact hc l h
    · exact hc' l h

/-- One more step. -/
theorem Reaches.next (h : Reaches oracle w w') (hl : Given oracle l)
    (hn : WorkerState.next w' l = some w'') : Reaches oracle w w'' := by
  refine h.trans ⟨[l], ?_, fun l' hl' => ?_⟩
  · rw [run_cons, hn]
    rfl
  · rw [List.mem_singleton.mp hl']
    exact hl

/-- What others do first. -/
theorem reaches_others (oracle : Nat → Moment) (w : WorkerState) (i : Nat) :
    Reaches oracle w { w with tables := w.tables.after (oracle i).others } := by
  have hall : ∀ (calls : List ApiCall) (w : WorkerState), (∀ c ∈ calls, c ∈ (oracle i).others) →
      Reaches oracle w { w with tables := w.tables.after calls } := by
    intro calls
    induction calls with
    | nil => exact fun w _ => reaches_refl w
    | cons c calls ih =>
        intro w hmem
        have hcall : WorkerState.next w (.call c) = some { w with tables := c.exec w.tables } := rfl
        have hgiven : Given oracle (.call c) := Or.inl ⟨i, hmem c List.mem_cons_self⟩
        exact ((reaches_refl w).next hgiven hcall).trans
          (ih { w with tables := c.exec w.tables } fun c' hc' => hmem c' (List.mem_cons_of_mem c hc'))
  exact hall _ w fun c hc => hc

/-- **What becomes of a request**: it is not sent, or it takes effect; and an answer is that of its
    effect. -/
theorem request_cases {α : Type} (oracle : Nat → Moment)
    (effect : Moment → Tables → Except ServiceError α × Tables) (world : World) :
    let m := oracle world.calls
    let t := world.tables.after m.others
    (∃ e, request oracle effect world = (.error e, ⟨t, world.calls + 1⟩)) ∨
    (∃ e, request oracle effect world = (.error e, ⟨(effect m t).2, world.calls + 1⟩)) ∨
    ∃ a t', effect m t = (.ok a, t') ∧ request oracle effect world = (.ok a, ⟨t', world.calls + 1⟩) := by
  intro m t
  have hrequest : request oracle effect world = match m.fate with
      | .unsent => (.error .other, ⟨t, world.calls + 1⟩)
      | .unanswered => (.error .other, ⟨(effect m t).2, world.calls + 1⟩)
      | .answered =>
          match effect m t with
          | (.ok a, t) => (.ok a, ⟨t, world.calls + 1⟩)
          | (.error e, t) => (.error (raisedBy e), ⟨t, world.calls + 1⟩) := rfl
  rw [hrequest]
  cases m.fate with
  | unsent => exact Or.inl ⟨_, rfl⟩
  | unanswered => exact Or.inr (Or.inl ⟨_, rfl⟩)
  | answered =>
      rcases effect m t with ⟨e | a, t'⟩
      · exact Or.inr (Or.inl ⟨_, rfl⟩)
      · exact Or.inr (Or.inr ⟨a, t', rfl, rfl⟩)

/-- A GET leaves the tables alone. -/
theorem ofDeployment_state {α : Type} (t : Tables) (id : String) (read : DeploymentOut → α) :
    (t.ofDeployment id read).2 = t := by
  unfold Tables.ofDeployment
  split <;> rfl

theorem ofDeployment_ok {α : Type} {t t' : Tables} {read : DeploymentOut → α} {a : α}
    (h : t.ofDeployment id read = (.ok a, t')) :
    t' = t ∧ ∃ out, t.db.deploymentOut? id = some out ∧ a = read out := by
  unfold Tables.ofDeployment at h
  split at h
  · cases h
  · rename_i out hout
    cases h
    exact ⟨rfl, out, hout, rfl⟩

/-- The worker in its sweep. -/
def sweepingAt (t : Tables) (task : Option Task) (remaining : List String) : WorkerState where
  tables := t
  sweeping := true
  task := task
  remaining := remaining

/-- What the request does to the tables, the label of its action does. -/
theorem act_tables (m : Moment) (t : Tables) (id : String) (action : WorkerAction) :
    (match (action.request id).exec m.env t.db with
      | (.ok _, db) => ((.ok () : Except ServiceError Unit), { t with db := db })
      | (.error e, db) => (.error e, { t with db := db })).2 =
      (ApiCall.lifecycle m.env (action.request id)).exec t := by
  show _ = { t with db := ((action.request id).exec m.env t.db).2 }
  split <;> (rename_i h; rw [h])

theorem reaches_act (oracle : Nat → Moment) (world : World) (id : String) (action : WorkerAction)
    (rest : List String) :
    Reaches oracle (sweepingAt world.tables (some (.decided id action)) rest)
      (sweepingAt ((httpClient oracle).act id action world).2.tables none rest) := by
  let m := oracle world.calls
  let t := world.tables.after m.others
  have hothers : Reaches oracle (sweepingAt world.tables (some (.decided id action)) rest)
      (sweepingAt t (some (.decided id action)) rest) := reaches_others oracle _ world.calls
  have hact : WorkerState.next (sweepingAt t (some (.decided id action)) rest) (.act m.env true) =
      some (sweepingAt ((ApiCall.lifecycle m.env (action.request id)).exec t) none rest) := rfl
  have hraise : WorkerState.next (sweepingAt t (some (.decided id action)) rest) .raise =
      some (sweepingAt t none rest) := rfl
  rcases request_cases oracle (fun m t => match (action.request id).exec m.env t.db with
      | (.ok _, db) => (.ok (), { t with db := db })
      | (.error e, db) => (.error e, { t with db := db })) world with
    ⟨e, hx⟩ | ⟨e, hx⟩ | ⟨a, t', ht', hx⟩
  · refine hothers.next (l := .raise) trivial (hraise.trans ?_)
    show _ = some (sweepingAt (request oracle _ world).2.tables none rest)
    rw [hx]
  · refine hothers.next (l := .act m.env true) trivial (hact.trans ?_)
    show _ = some (sweepingAt (request oracle _ world).2.tables none rest)
    rw [hx, ← act_tables]
  · refine hothers.next (l := .act m.env true) trivial (hact.trans ?_)
    show _ = some (sweepingAt (request oracle _ world).2.tables none rest)
    rw [hx, ← act_tables]
    exact congrArg (fun x => some (sweepingAt x.2 none rest)) ht'

/-- The evaluation as the worker sends it. -/
def evaluateEffect (id : String) (m : Moment) (t : Tables) : Except ServiceError OverallResult × Tables :=
  match (workerEvaluate id).exec m.evaluation t with
  | (.ok response, t) => (.ok response.overallResult, t)
  | (.error e, t) => (.error e, t)

/-- Its answer may get lost. -/
theorem next_evaluate_lost (m : Moment) (t : Tables) (out : DeploymentOut) (rest : List String) :
    WorkerState.next (sweepingAt t (some (.due out)) rest) (.evaluate m.evaluation false) =
      some (sweepingAt (evaluateEffect out.deployment.id m t).2 none rest) := by
  simp only [WorkerState.next, sweepingAt, evaluateEffect]
  rcases (workerEvaluate out.deployment.id).exec m.evaluation t with ⟨e | response, t'⟩ <;> rfl

theorem next_evaluate {m : Moment} {t t' : Tables} {out : DeploymentOut} {overallResult : OverallResult}
    (h : evaluateEffect out.deployment.id m t = (.ok overallResult, t')) (rest : List String) :
    WorkerState.next (sweepingAt t (some (.due out)) rest) (.evaluate m.evaluation true) =
      some (sweepingAt t' (some (.decided out.deployment.id
        (decideAction overallResult (canaryAtFullTraffic out)))) rest) := by
  rcases hx : (workerEvaluate out.deployment.id).exec m.evaluation t with ⟨e | response, t''⟩
  · have herror : evaluateEffect out.deployment.id m t = (.error e, t'') := by
      unfold evaluateEffect
      rw [hx]
    rw [herror] at h
    cases h
  · have hok : evaluateEffect out.deployment.id m t = (.ok response.overallResult, t'') := by
      unfold evaluateEffect
      rw [hx]
    rw [hok] at h
    cases h
    show (match (workerEvaluate out.deployment.id).exec m.evaluation t with
      | (.ok response, t) => some (sweepingAt t (some (.decided out.deployment.id
          (decideAction response.overallResult (canaryAtFullTraffic out)))) rest)
      | (.error _, t) => some (sweepingAt t none rest)) = _
    rw [hx]

theorem reaches_settle (oracle : Nat → Moment) (world : World) (out : DeploymentOut)
    (rest : List String) :
    Reaches oracle (sweepingAt world.tables (some (.due out)) rest)
      (sweepingAt ((httpClient oracle).settle out out.deployment.id world).2.tables none rest) := by
  let m := oracle world.calls
  let t := world.tables.after m.others
  have hothers : Reaches oracle (sweepingAt world.tables (some (.due out)) rest)
      (sweepingAt t (some (.due out)) rest) := reaches_others oracle _ world.calls
  rcases request_cases oracle (evaluateEffect out.deployment.id) world with
    ⟨e, hx⟩ | ⟨e, hx⟩ | ⟨overallResult, t', ht', hx⟩
  · rw [(httpClient oracle).settle_error hx]
    exact hothers.next (l := .raise) trivial rfl
  · rw [(httpClient oracle).settle_error hx]
    exact hothers.next (l := .evaluate m.evaluation false) trivial (next_evaluate_lost m t out rest)
  · have hact := reaches_act oracle ⟨t', world.calls + 1⟩ out.deployment.id
      (decideAction overallResult (canaryAtFullTraffic out)) rest
    rw [(httpClient oracle).settle_ok hx]
    exact (hothers.next (l := .evaluate m.evaluation true) trivial (next_evaluate ht' rest)).trans hact

theorem reaches_judge (oracle : Nat → Moment) (defaultWindowSeconds : Nat) (world : World)
    (out : DeploymentOut) (rest : List String) :
    Reaches oracle (sweepingAt world.tables (some (.fetched out)) rest)
      (sweepingAt ((httpClient oracle).judge defaultWindowSeconds out out.deployment.id world).2.tables
        none rest) := by
  let m := oracle world.calls
  let t := world.tables.after m.others
  have hothers : Reaches oracle (sweepingAt world.tables (some (.fetched out)) rest)
      (sweepingAt t (some (.fetched out)) rest) := reaches_others oracle _ world.calls
  rcases request_cases oracle (fun _ t => t.ofDeployment out.deployment.id fun _ =>
      (t.listPolicyEvaluations out.deployment.id).map PolicyEvaluation.evaluatedAt) world with
    ⟨e, hx⟩ | ⟨e, hx⟩ | ⟨evaluations, t', ht', hx⟩
  · rw [(httpClient oracle).judge_error hx]
    exact hothers.next (l := .raise) trivial rfl
  · rw [(httpClient oracle).judge_error hx, ofDeployment_state]
    exact hothers.next (l := .raise) trivial rfl
  · obtain ⟨rfl, _, _, rfl⟩ := ofDeployment_ok ht'
    let world' : World := ⟨t, world.calls + 1⟩
    let now := (httpClient oracle).now world'
    have hlast : ((t.listPolicyEvaluations out.deployment.id).map PolicyEvaluation.evaluatedAt).head? =
        t.lastEvaluatedAt out.deployment.id := List.head?_map ..
    have hcheck : WorkerState.next (sweepingAt t (some (.fetched out)) rest)
        (.checkDue now defaultWindowSeconds) =
          if t.due out now defaultWindowSeconds then some (sweepingAt t (some (.due out)) rest)
          else some (sweepingAt t none rest) := rfl
    have hjudge : (httpClient oracle).judge defaultWindowSeconds out out.deployment.id world =
        if t.due out now defaultWindowSeconds then (httpClient oracle).settle out out.deployment.id world'
        else (.ok none, world') := by
      rw [(httpClient oracle).judge_ok hx, hlast]
      rfl
    rw [hjudge]
    cases hd : t.due out now defaultWindowSeconds with
    | false =>
        rw [hd] at hcheck
        exact hothers.next (l := .checkDue now defaultWindowSeconds) trivial hcheck
    | true =>
        rw [hd] at hcheck
        exact (hothers.next (l := .checkDue now defaultWindowSeconds) trivial hcheck).trans
          (reaches_settle oracle world' out rest)

/-- **The calls for one deployment are steps of the worker.** -/
theorem reaches_process (oracle : Nat → Moment) (defaultWindowSeconds : Nat) (world : World)
    (id : String) (rest : List String) :
    Reaches oracle (sweepingAt world.tables none (id :: rest))
      (sweepingAt ((httpClient oracle).processDeployment defaultWindowSeconds id world).2.tables none
        rest) := by
  let m := oracle world.calls
  let t := world.tables.after m.others
  have hothers : Reaches oracle (sweepingAt world.tables none (id :: rest)) (sweepingAt t none (id :: rest)) :=
    reaches_others oracle _ world.calls
  have hread : ((t.ofDeployment id fun out => out).2) = t := ofDeployment_state _ _ _
  rcases request_cases oracle (fun _ t => t.ofDeployment id fun out => out) world with
    ⟨e, hx⟩ | ⟨e, hx⟩ | ⟨out, t', ht', hx⟩
  · rw [(httpClient oracle).process_error hx]
    exact hothers.next (l := .raise) trivial rfl
  · rw [(httpClient oracle).process_error hx, hread]
    exact hothers.next (l := .raise) trivial rfl
  · obtain ⟨rfl, out', hout, rfl⟩ := ofDeployment_ok ht'
    have hid : out.deployment.id = id := by
      obtain ⟨d, hd, rfl⟩ := Option.map_eq_some_iff.mp hout
      exact (found hd).1.symm
    have hfetch : WorkerState.next (sweepingAt t none (id :: rest)) .fetch =
        if out.deployment.status.active then some (sweepingAt t (some (.fetched out)) rest)
        else some (sweepingAt t none rest) := by
      simp only [WorkerState.next, sweepingAt]
      rw [show t.db.deploymentOut? id = some out from hout]
    rw [(httpClient oracle).process_ok hx]
    cases ha : out.deployment.status.active with
    | false =>
        rw [ha] at hfetch
        exact hothers.next (l := .fetch) trivial hfetch
    | true =>
        rw [ha] at hfetch
        subst hid
        exact (hothers.next (l := .fetch) trivial hfetch).trans
          (reaches_judge oracle defaultWindowSeconds ⟨t, world.calls + 1⟩ out rest)

theorem reaches_all (oracle : Nat → Moment) (defaultWindowSeconds : Nat) (world : World)
    (ids : List String) :
    Reaches oracle (sweepingAt world.tables none ids)
      (sweepingAt ((httpClient oracle).processAll defaultWindowSeconds ids world).tables none []) := by
  induction ids generalizing world with
  | nil => exact reaches_refl _
  | cons id ids ih =>
      exact (reaches_process oracle defaultWindowSeconds world id ids).trans (ih _)

/-- The reconcile call that opens a sweep, whatever becomes of it. -/
theorem reaches_reconcile (oracle : Nat → Moment) (world : World) :
    Reaches oracle { tables := world.tables }
      { tables := ((httpClient oracle).reconcile world).2.tables } := by
  have hothers := reaches_others oracle { tables := world.tables } world.calls
  have hgiven : Given oracle (.call (.reconcile (oracle world.calls).clock
      (oracle world.calls).gateway)) := Or.inr ⟨world.calls, rfl⟩
  rcases request_cases oracle (fun m t => ((.ok () : Except ServiceError Unit),
      { t with db := (reconcileRouterState m.clock t.db m.gateway).db })) world with
    ⟨e, hx⟩ | ⟨e, hx⟩ | ⟨a, t', ht', hx⟩
  · rw [show (httpClient oracle).reconcile world = _ from hx]
    exact hothers
  · rw [show (httpClient oracle).reconcile world = _ from hx]
    exact hothers.next hgiven rfl
  · rw [show (httpClient oracle).reconcile world = _ from hx]
    refine hothers.next hgiven ?_
    cases ht'
    rfl

/-- **A sweep is a run of the worker**, from rest to rest. -/
theorem reaches_once (oracle : Nat → Moment) (defaultWindowSeconds : Nat) (world : World) :
    Reaches oracle { tables := world.tables }
      { tables := ((httpClient oracle).runOnce defaultWindowSeconds world).2.tables } := by
  let world' := ((httpClient oracle).reconcile world).2
  let m := oracle world'.calls
  let t := world'.tables.after m.others
  have hothers := (reaches_reconcile oracle world).trans
    (reaches_others oracle { tables := world'.tables } world'.calls)
  unfold WorkerClient.runOnce
  rcases request_cases oracle (fun _ t => ((.ok t.db.listDeployments :
      Except ServiceError (List Deployment)), t)) world' with ⟨e, hx⟩ | ⟨e, hx⟩ | ⟨ds, t', ht', hx⟩
  · rw [show (httpClient oracle).listDeployments ((httpClient oracle).reconcile world).2 = _ from hx]
    exact hothers
  · rw [show (httpClient oracle).listDeployments ((httpClient oracle).reconcile world).2 = _ from hx]
    exact hothers
  · rw [show (httpClient oracle).listDeployments ((httpClient oracle).reconcile world).2 = _ from hx]
    cases ht'
    have hlist : WorkerState.next { tables := t } .list = some (sweepingAt t none t.db.activeIds) := rfl
    have hall := reaches_all oracle defaultWindowSeconds ⟨t, world'.calls + 1⟩ t.db.activeIds
    exact ((hothers.next (l := .list) trivial hlist).trans hall).next (l := .finish) trivial rfl

end Loop

theorem raisedBy_ne_exit (e : ServiceError) : raisedBy e ≠ .exit := by
  unfold raisedBy
  split <;> exact fun h => by cases h

/-- The client of the program raises an `Exception` where it raises. -/
theorem request_excepts {α : Type} (oracle : Nat → Moment)
    (effect : Moment → Tables → Except ServiceError α × Tables) :
    WorkerClient.Excepts (request oracle effect) := by
  intro world world' hx
  unfold request at hx
  dsimp only at hx
  split at hx
  · cases hx
  · cases hx
  · split at hx
    · cases hx
    · exact raisedBy_ne_exit _ (Except.error.inj (Prod.mk.inj hx).1)

theorem httpClient_excepts (oracle : Nat → Moment) : (httpClient oracle).RaisesExceptions := by
  constructor <;> intros <;> dsimp only [httpClient] <;> apply request_excepts

/-- **The loop goes on**: whatever becomes of its calls and whatever others call between them,
    `run_forever` returns from every round, and all of them together are a run of the worker, from rest
    to rest, among nothing but the given calls. -/
theorem forever_run (oracle : Nat → Moment) (defaultWindowSeconds rounds : Nat) (world : World) :
    ∃ world', (httpClient oracle).forever defaultWindowSeconds rounds world = (.ok (), world') ∧
      ∃ ls, run WorkerState.next { tables := world.tables } ls = some { tables := world'.tables } ∧
        ∀ l ∈ ls, Given oracle l := by
  refine ⟨_, WorkerClient.forever_returns (httpClient_excepts oracle) rounds world, ?_⟩
  suffices h : Reaches oracle { tables := world.tables }
      { tables := ((httpClient oracle).runForever defaultWindowSeconds rounds world).tables } from h
  induction rounds generalizing world with
  | zero => exact reaches_refl _
  | succ rounds ih => exact (reaches_once oracle defaultWindowSeconds world).trans (ih _)

end ModelOps
