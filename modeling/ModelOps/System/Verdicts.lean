/-
  File:      ModelOps/System/Verdicts.lean
  Subject:   Evaluations beside other calls: at which status their rows are committed.

  `evaluate_deployment` checks the status once, at its first read. What follows, three summaries, the
  allocation and the commit of the rows, looks at the deployment no more, and no optimistic lock covers
  rows of another table.

  * `Judging` -- a session after its check, until it ends;
  * `Request.retires` -- the requests that take an active deployment out of evaluation;
  * **`verdicts_timely`** -- where no such request commits while a session judges its deployment, no row
    is recorded for a deployment that is decided or frozen;
  * `verdict_late` -- and otherwise it is.
-/
import ModelOps.System.History

namespace ModelOps

open Transact Relational Labelled

/-! ## 1. Evaluations and other calls -/

abbrev Evaluations (κ : Type) := Config policySql ServiceError EvaluateResponse Tables κ

inductive EvaluationLabel (κ : Type) where
  /-- the next read, or the commit, of evaluation `i` -/
  | step (i : κ)
  | call (c : ApiCall)

/-- Past its check, and not at its end. -/
def judges : Code policySql ServiceError EvaluateResponse → Bool
  | .read (.deployment _) _ => false
  | .fail _ => false
  | _ => true

/-- Session `p` judges a deployment it found active. -/
def Judging : Proc policySql ServiceError EvaluateResponse → Prop
  | .running _ code => judges code = true
  | .finished _ _ => False

/-- The deployment that the request takes out of evaluation, if it is active. -/
def Request.retires (env : Env) (db : Db) : Request → Option String
  | .promote id _ => some id
  | .rollback id _ => some id
  | .recordInconclusive id =>
      (db.deployment? id).bind fun d =>
        if (getPolicyConfig env d).maxInconclusiveRetries < d.inconclusiveRetryCount + 1 then some id
        else none
  | .create _ _ | .advanceTraffic _ | .pauseAutomation _ _ | .resumeAutomation _ _ => none

def ApiCall.retires (db : Db) : ApiCall → Option String
  | .lifecycle env req => req.retires env db
  | _ => none

/-- The statuses in which there is nothing left to evaluate. -/
def DeploymentStatus.decided (s : DeploymentStatus) : Bool :=
  s.terminal || decide (s = .inconclusive)

section Sessions

variable {κ : Type} [DecidableEq κ] [Fintype κ]

/-- Every evaluation at the start of its code. -/
def evaluations (requests : κ → EvaluationEnv × EvaluateRequest) (t : Tables) : Evaluations κ :=
  Config.start t fun i => (requests i).2.program (requests i).1

def Evaluations.next (c : Evaluations κ) : EvaluationLabel κ → Option (Evaluations κ)
  | .step i => some (Config.step tables c i)
  | .call call => some { c with store := call.exec c.store }

/-- No call retires a deployment that an evaluation is judging. -/
def NotRetired (requests : κ → EvaluationEnv × EvaluateRequest) (c : Evaluations κ)
    (l : EvaluationLabel κ) (_ : Evaluations κ) : Prop :=
  match l with
  | .step _ => True
  | .call call => ∀ i, Judging (c.proc i) →
      call.retires c.store.db ≠ some (requests i).2.deploymentId

/-- Every row the step records is for a deployment that is neither decided nor frozen. -/
def RecordsUndecided (c : Evaluations κ) (_ : EvaluationLabel κ) (c' : Evaluations κ) : Prop :=
  ∀ row ∈ c'.store.policyEvaluations.drop c.store.policyEvaluations.length,
    ∀ d ∈ c'.store.db.deployment? row.deploymentId, d.status.decided = false

instance (p : Proc policySql ServiceError EvaluateResponse) : Decidable (Judging p) :=
  match p with
  | .running _ _ => inferInstanceAs (Decidable (_ = true))
  | .finished _ _ => isFalse id

instance (requests : κ → EvaluationEnv × EvaluateRequest) (c : Evaluations κ)
    (l : EvaluationLabel κ) (c' : Evaluations κ) : Decidable (NotRetired requests c l c') :=
  match l with
  | .step _ => isTrue trivial
  | .call _ => inferInstanceAs (Decidable (∀ _, _ → _))

instance (c : Evaluations κ) (l : EvaluationLabel κ) (c' : Evaluations κ) :
    Decidable (RecordsUndecided c l c') :=
  inferInstanceAs (Decidable (∀ _ ∈ _, ∀ _ ∈ _, _))

end Sessions

/-! ## 2. One step -/

/-- The deployment is there and active. -/
def Active (db : Db) (id : String) : Prop :=
  ∃ d, db.deployment? id = some d ∧ d.status.active = true

theorem undecided_of_active {s : DeploymentStatus} (h : s.active = true) : s.decided = false := by
  cases s <;> first | rfl | cases h

section Active

variable {db db' : Db} {id : String}

/-- **Only a request that retires it takes a deployment out of evaluation.** -/
theorem active_exec {env : Env} {req : Request} (h : Active db id)
    (hno : req.retires env db ≠ some id) : Active (req.exec env db).2 id := by
  obtain ⟨d, hd, ha⟩ := h
  obtain ⟨rfl, hd⟩ := found hd
  rcases exec_turns env req hd with ⟨hd', _⟩ | ⟨row, split, events, hturn, hid, hdb⟩
  · exact ⟨d, hd', ha⟩
  · refine ⟨row, by rw [hdb, applied_deployment?, if_pos hid.symm], ?_⟩
    cases hturn with
    | resolved hreq =>
        cases hreq with
        | promote => exact absurd rfl hno
        | rollback => exact absurd rfl hno
    | advanced | cycled | flagged => exact ha
    | frozen _ hn =>
        refine absurd ?_ hno
        show (db.deployment? d.id).bind _ = _
        rw [hd, Option.bind_some, if_pos hn]

theorem active_call {c : ApiCall} {t : Tables} (h : Active t.db id)
    (hno : c.retires t.db ≠ some id) : Active (c.exec t).db id := by
  rcases call_cases c t with ⟨env, req, rfl⟩ | ⟨events, he, _⟩
  · exact active_exec h hno
  · rw [he]
    exact h

end Active

/-- All the rows to commit are the deployment's. -/
def RowsOf (id : String) (x : Evaluation) : Prop :=
  ∀ rows, x.1 = some rows → ∀ row ∈ rows, row.deploymentId = id

/-- What an evaluation reads after its check. -/
def PolicyQuery.Later : PolicyQuery → Prop
  | .deployment _ => False
  | .versionSummary .. => True
  | .trafficAllocation _ => True

/-- The session of `r` has its reads and its end before it, or it has found its deployment active and
    only has rows of that deployment to commit. -/
inductive Stands (env : EvaluationEnv) (r : EvaluateRequest) (t : Tables) :
    Code policySql ServiceError EvaluateResponse → Prop where
  | start : Stands env r t (r.program env)
  | failed (e : ServiceError) : Stands env r t (.fail e)
  | judging (code : Code policySql ServiceError EvaluateResponse) (ha : Active t.db r.deploymentId)
      (ho : Only PolicyQuery.Later (RowsOf r.deploymentId) code) :
      Stands env r t code

section Stands

variable {env : EvaluationEnv} {r : EvaluateRequest} {t t' : Tables}
  {code : Code policySql ServiceError EvaluateResponse}

theorem only_runEvaluation (c : EvaluationClock) (d : Deployment) (config : PolicyConfig) :
    Only PolicyQuery.Later (RowsOf d.id) (runEvaluation c d config) := by
  refine ⟨trivial, fun stable => ⟨trivial, fun canary => ⟨trivial, fun canaryQuality =>
    ⟨trivial, fun allocation => ?_⟩⟩⟩⟩
  intro rows hrows row hrow
  cases hrows
  obtain ⟨i, _, rfl⟩ := List.mem_mapIdx.mp hrow
  rfl

/-- The check: what it lets through is active. -/
theorem stands_judge (env : EvaluationEnv) (r : EvaluateRequest) (t : Tables) :
    Stands env r t (r.judge env (t.db.deployment? r.deploymentId)) := by
  cases hd : t.db.deployment? r.deploymentId with
  | none => exact .failed _
  | some d =>
      cases ha : d.status.active with
      | false =>
          rw [judge_inactive ha]
          exact .failed _
      | true =>
          rw [judge_active ha]
          refine .judging _ ⟨d, hd, ha⟩ ?_
          rw [← (deployment?_eq_some.mp hd).2]
          exact only_runEvaluation _ _ _

/-- A read leaves the session standing. -/
theorem stands_read {q : PolicyQuery}
    {k : q.Answer → Code policySql ServiceError EvaluateResponse}
    (h : Stands env r t (.read q k)) : Stands env r t (k (t.answer q)) := by
  generalize hcode : (Txn.read q k : Code policySql ServiceError EvaluateResponse) = code at h
  cases h with
  | start =>
      cases hcode
      exact stands_judge env r t
  | failed e => cases hcode
  | judging code ha ho =>
      subst hcode
      exact .judging _ ha (ho.2 _)

/-- Where no call retires what it judges, it goes on standing. -/
theorem stands_call {c : ApiCall} (h : Stands env r t code)
    (hno : judges code = true → c.retires t.db ≠ some r.deploymentId) :
    Stands env r (c.exec t) code := by
  cases h with
  | start => exact .start
  | failed e => exact .failed e
  | judging code ha ho =>
      have hkeep : judges code = true → Stands env r (c.exec t) code := fun hj =>
        .judging code (active_call ha (hno hj)) ho
      cases code with
      | done x => exact hkeep rfl
      | fail e => exact .failed e
      | reserve row k => exact row.elim
      | read q k =>
          cases q with
          | deployment id => exact ho.1.elim
          | versionSummary id version w => exact hkeep rfl
          | trafficAllocation id => exact hkeep rfl

theorem stands_recorded (h : Stands env r t code) (rows : List PolicyEvaluation) :
    Stands env r (t.recorded rows) code := by
  cases h with
  | start => exact .start
  | failed e => exact .failed e
  | judging code ha ho => exact .judging code ha ho

end Stands

section Step

variable {κ : Type} [DecidableEq κ] [Fintype κ]
  {requests : κ → EvaluationEnv × EvaluateRequest} {c c' : Evaluations κ} {l : EvaluationLabel κ}

/-- Every running evaluation stands. -/
def AllStand (requests : κ → EvaluationEnv × EvaluateRequest) (c : Evaluations κ) : Prop :=
  ∀ i h code, c.proc i = .running h code →
    Stands (requests i).1 (requests i).2 c.store code

omit [Fintype κ] in
theorem AllStand.set (hi : AllStand requests c) {i : κ}
    {p : Proc policySql ServiceError EvaluateResponse}
    (hp : ∀ h code, p = .running h code → Stands (requests i).1 (requests i).2 c.store code) :
    AllStand requests (c.set i p) := by
  intro j h code hj
  by_cases hji : j = i
  · subst hji
    rw [c.set_proc_self] at hj
    exact hp h code hj
  · rw [c.set_proc_ne p hji] at hj
    exact hi j h code hj

omit [DecidableEq κ] [Fintype κ] in
/-- A step that records nothing. -/
theorem records_nothing (h : c'.store.policyEvaluations = c.store.policyEvaluations) :
    RecordsUndecided c l c' := by
  intro row hrow
  rw [h, List.drop_length] at hrow
  cases hrow

/-- **A step of an evaluation** keeps all evaluations standing and records rows of an active deployment,
    if any. -/
theorem evaluation_step (hi : AllStand requests c) (i : κ) :
    AllStand requests (Config.step tables c i) ∧
      RecordsUndecided c (.step i) (Config.step tables c i) := by
  cases hp : c.proc i with
  | finished b o =>
      have hstep : Config.step tables c i = c := by simp [Config.step, hp]
      rw [hstep]
      exact ⟨hi, records_nothing rfl⟩
  | running h code =>
      have hstands := hi i h code hp
      have hend : ∀ b o, AllStand requests (c.set i (.finished b o)) := fun b o =>
        hi.set (by simp)
      cases code with
      | fail e =>
          rw [show Config.step tables c i = c.set i (.finished false (.failed e)) by
            simp [Config.step, hp]]
          exact ⟨hend _ _, records_nothing rfl⟩
      | reserve row k => exact row.elim
      | read q k =>
          rw [show Config.step tables c i = c.set i (.running h (k (c.store.answer q))) by
            simp [Config.step, hp, tables]]
          refine ⟨hi.set ?_, records_nothing rfl⟩
          intro h' code' he
          cases he
          exact stands_read hstands
      | done evaluation =>
          obtain ⟨recorded, x⟩ := evaluation
          cases recorded with
          | none =>
              rw [show Config.step tables c i = c.set i (.finished false (.replied x)) by
                simp [Config.step, hp]]
              exact ⟨hend _ _, records_nothing rfl⟩
          | some rows =>
              rw [show Config.step tables c i = { c.set i (.finished true (.replied x)) with
                  store := c.store.recorded rows, log := c.log ++ [i] } by
                simp [Config.step, hp, tables]]
              refine ⟨?_, ?_⟩
              · intro j h' code' hj
                exact stands_recorded (hend true (.replied x) j h' code' hj) rows
              · intro row hrow d hd
                have hrow' : row ∈ (c.store.policyEvaluations ++ rows).drop
                  c.store.policyEvaluations.length := hrow
                rw [List.drop_left] at hrow'
                cases hstands with
                | judging _ ha ho =>
                    have hid : row.deploymentId = (requests i).2.deploymentId := ho rows rfl row hrow'
                    obtain ⟨d', hd', hactive⟩ := ha
                    have hsame : c.store.db.deployment? row.deploymentId = some d := hd
                    rw [hid, hd'] at hsame
                    cases hsame
                    exact undecided_of_active hactive

omit [DecidableEq κ] [Fintype κ] in
/-- **A call that retires nothing under judgement** does the same. -/
theorem call_step (hi : AllStand requests c) (call : ApiCall)
    (hno : NotRetired requests c (.call call) { c with store := call.exec c.store }) :
    AllStand requests { c with store := call.exec c.store } ∧
      RecordsUndecided c (.call call) { c with store := call.exec c.store } := by
  refine ⟨?_, ?_⟩
  · intro i h code hp
    refine stands_call (hi i h code hp) ?_
    intro hj
    refine hno i ?_
    rw [show c.proc i = .running h code from hp]
    exact hj
  · cases call with
    | evaluate env r =>
        rcases evaluate_cases env r c.store with ⟨e, he⟩ | ⟨d, hd, ha, he⟩
        · exact records_nothing (by
            show ((r.exec env c.store).2).policyEvaluations = _
            rw [he])
        · intro row hrow d' hd'
          have hrow' : row ∈ ((r.exec env c.store).2).policyEvaluations.drop
            c.store.policyEvaluations.length := hrow
          have hdb : ((r.exec env c.store).2).db.deployment? row.deploymentId = some d' := hd'
          rw [he] at hrow' hdb
          rw [show (c.store.recorded _).policyEvaluations = c.store.policyEvaluations ++ _ from rfl,
            List.drop_left] at hrow'
          rw [(evaluationRows_mem hrow').1] at hdb
          have hsame : c.store.db.deployment? d.id = some d' := hdb
          rw [(found hd).2] at hsame
          cases hsame
          exact undecided_of_active ha
    | recordMetric now id payload =>
        refine records_nothing ?_
        show ((ApiCall.recordMetric now id payload).exec c.store).policyEvaluations = _
        simp only [ApiCall.exec]
        split <;> rfl
    | lifecycle env req => exact records_nothing rfl
    | pushed now id answer => exact records_nothing rfl
    | reconcile clock g => exact records_nothing rfl
    | ingestLabel now payload => exact records_nothing rfl

theorem verdicts_step (hi : AllStand requests c) (hno : NotRetired requests c l c')
    (hn : c.next l = some c') : AllStand requests c' ∧ RecordsUndecided c l c' := by
  cases l with
  | step i =>
      cases hn
      exact evaluation_step hi i
  | call call =>
      cases hn
      exact call_step hi call hno

/-! ## 3. Every run -/

/-- **Verdicts in time**: in every run of any evaluations with any other calls in which no promote,
    rollback or last inconclusive cycle commits on a deployment between an evaluation's check of it and
    that evaluation's end, no row is committed for a deployment that is decided or frozen. -/
theorem verdicts_timely (requests : κ → EvaluationEnv × EvaluateRequest) (t : Tables)
    (ls : List (EvaluationLabel κ))
    (hno : Along Evaluations.next (NotRetired requests) (evaluations requests t) ls) :
    Along Evaluations.next RecordsUndecided (evaluations requests t) ls := by
  refine (along_run hno ?_ verdicts_step).1
  intro i h code hp
  cases hp
  exact .start

end Step

/-- One evaluation of `d1`. -/
def sampleEvaluation (_ : Fin 1) : EvaluationEnv × EvaluateRequest :=
  (⟨⟨11, 12, 13, 14, []⟩, (Env.after 0 "").policyDefaults⟩, ⟨"d1", none⟩)

/-- The tables after a create. -/
def sampleTables : Tables := Tables.empty.after (sampleHistory.take 1)

/-- The evaluation's six steps, with a request after the check. -/
def sampleJudgement (req : Request) : List (EvaluationLabel (Fin 1)) :=
  [.step 0, .step 0, .call (.lifecycle (Env.after 20 "unused") req), .step 0, .step 0, .step 0, .step 0]

/-- An advance does not disturb it: it leaves the rollout active. -/
theorem verdicts_timely_sample :
    ((run Evaluations.next (evaluations sampleEvaluation sampleTables)
        (sampleJudgement (.advanceTraffic "d1"))).map fun c => c.store.policyEvaluations.length) =
        some 1 ∧
      Along Evaluations.next RecordsUndecided (evaluations sampleEvaluation sampleTables)
        (sampleJudgement (.advanceTraffic "d1")) := by
  refine ⟨by decide +kernel, verdicts_timely sampleEvaluation sampleTables _ ?_⟩
  decide +kernel

/-- **A promote between the check and the commit does not stop the verdict.** -/
theorem verdict_late :
    ¬∀ (requests : Fin 1 → EvaluationEnv × EvaluateRequest) (t : Tables)
      (ls : List (EvaluationLabel (Fin 1))),
      Along Evaluations.next RecordsUndecided (evaluations requests t) ls := by
  intro h
  have hlate : ¬Along Evaluations.next RecordsUndecided (evaluations sampleEvaluation sampleTables)
      (sampleJudgement (.promote "d1" .manual)) := by decide +kernel
  exact hlate (h _ _ _)

end ModelOps
