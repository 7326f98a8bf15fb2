/-
  File:      ModelOps/Worker/Crash.lean
  Subject:   One worker whose process crashes and whose requests get lost, and the verdicts it owes.

  `WorkerState.next` is one API call of `run_once` and `process_deployment`, over all tables. A call may
  take effect and its answer get lost (`answered`), it may not reach the control plane (`raise`), and
  the process may start again at any point (`crash`); a call takes effect before the worker goes on, or
  not at all. The worker remembers nothing: an evaluation on record is its only mark, and it reads
  "already handled" whether or not an action followed.

  * `Ledger` -- an observer's book of verdicts recorded and actions that reached the control plane;
  * **`verdicts_settled`** -- where every check that meets an owed verdict finds the window over and its
    evaluation comes to that verdict again, a clean sweep issues the action of every verdict owed;
  * `verdict_lost` -- a crash behind a FAIL, and a clean sweep within the window that does not roll back.
-/
import ModelOps.System.History
import ModelOps.Worker.Hold

namespace ModelOps

open Relational Labelled

/-! ## 1. The worker -/

/-- The tables, and where the worker stands. -/
structure WorkerState where
  tables : Tables
  /-- `run_once` is under way -/
  sweeping : Bool := false
  task : Option Task := none
  remaining : List String := []

/-- What the sweep has listed and not finished. -/
def WorkerState.listed (w : WorkerState) : List String :=
  (w.task.map Task.id).toList ++ w.remaining

theorem mem_listed {w : WorkerState} {id : String} :
    id ∈ w.listed ↔ (∃ t ∈ w.task, t.id = id) ∨ id ∈ w.remaining := by
  unfold WorkerState.listed
  rw [List.mem_append, Option.mem_toList, Option.map_eq_some_iff]
  rfl

/-- While a task is on, it is the first on the list. -/
theorem mem_listed_task {w : WorkerState} {t : Task} {id : String} (ht : w.task = some t) :
    id ∈ w.listed ↔ id = t.id ∨ id ∈ w.remaining := by
  rw [mem_listed, ht]
  simp [eq_comm]

theorem mem_listed_none {w : WorkerState} {id : String} (ht : w.task = none) :
    id ∈ w.listed ↔ id ∈ w.remaining := by
  rw [mem_listed, ht]
  simp

inductive WorkerLabel where
  /-- a call of somebody else, or a reconcile call -/
  | call (c : ApiCall)
  | list
  | fetch
  | checkDue (now : Time) (defaultWindowSeconds : Nat)
  | evaluate (env : EvaluationEnv) (answered : Bool)
  | act (env : Env) (answered : Bool)
  /-- a request does not reach the control plane: the sweep goes on with the next deployment -/
  | raise
  /-- the process starts again -/
  | crash
  /-- the sweep is through -/
  | finish

/-- `_is_due_for_evaluation`. -/
def Tables.due (t : Tables) (out : DeploymentOut) (now : Time) (defaultWindowSeconds : Nat) : Bool :=
  isDueForEvaluation (t.lastEvaluatedAt out.deployment.id) now
    (evaluationWindowSeconds out defaultWindowSeconds)

/-- The worker's POST /evaluate has no body. -/
def workerEvaluate (id : String) : EvaluateRequest := { deploymentId := id }

def WorkerState.next (w : WorkerState) : WorkerLabel → Option WorkerState
  | .call c => some { w with tables := c.exec w.tables }
  | .list =>
      if w.sweeping then none
      else some { w with sweeping := true, task := none, remaining := w.tables.db.activeIds }
  | .fetch =>
      match w.task, w.remaining with
      | none, id :: rest =>
          match w.tables.db.deploymentOut? id with
          | some out =>
              if out.deployment.status.active then
                some { w with task := some (.fetched out), remaining := rest }
              else some { w with remaining := rest }
          | none => some { w with remaining := rest }
      | _, _ => none
  | .checkDue now defaultWindowSeconds =>
      match w.task with
      | some (.fetched out) =>
          if w.tables.due out now defaultWindowSeconds then some { w with task := some (.due out) }
          else some { w with task := none }
      | _ => none
  | .evaluate env answered =>
      match w.task with
      | some (.due out) =>
          match (workerEvaluate out.deployment.id).exec env w.tables with
          | (.ok response, t) =>
              some { w with
                tables := t
                task := if answered then some (.decided out.deployment.id
                  (decideAction response.overallResult (canaryAtFullTraffic out))) else none }
          | (.error _, t) => some { w with tables := t, task := none }
      | _ => none
  | .act env _ =>
      match w.task with
      | some (.decided id action) =>
          some { w with
            tables := (ApiCall.lifecycle env (action.request id)).exec w.tables, task := none }
      | _ => none
  | .raise =>
      match w.task, w.remaining with
      | some _, _ => some { w with task := none }
      | none, _ :: rest => some { w with remaining := rest }
      | none, [] => none
  | .crash => some { w with sweeping := false, task := none, remaining := [] }
  | .finish =>
      match w.task, w.remaining with
      | none, [] => if w.sweeping then some { w with sweeping := false } else none
      | _, _ => none

/-! ## 2. The book -/

/-- The verdict an action belongs to. -/
def WorkerAction.verdict : WorkerAction → OverallResult
  | .advanceTraffic | .promote => .pass
  | .rollback => .fail
  | .recordInconclusive => .inconclusive

theorem decideAction_verdict (v : OverallResult) (full : Bool) : (decideAction v full).verdict = v := by
  cases v with
  | pass => cases full <;> rfl
  | fail => rfl
  | inconclusive => rfl

/-- The verdicts of the worker's evaluations, and what became of them. -/
structure Ledger where
  /-- recorded, and the action has not reached the control plane -/
  owed : List (String × OverallResult) := []
  /-- a FAIL recorded, and no rollback attempted since -/
  unattempted : List String := []
  /-- owed as this sweep listed the deployment -/
  obliged : List (String × OverallResult) := []
  /-- the action reached the control plane in this sweep -/
  issued : List (String × OverallResult) := []
  /-- a request of this sweep failed -/
  failed : Bool := false

def Ledger.fails (g : Ledger) (b : Bool) : Ledger := { g with failed := g.failed || b }

def Ledger.list (g : Ledger) (ids : List String) : Ledger :=
  { g with obliged := g.owed.filter (fun y => decide (y.1 ∈ ids)), issued := [], failed := false }

def Ledger.record (g : Ledger) (id : String) (v : OverallResult) : Ledger :=
  { g with
    owed := (id, v) :: g.owed
    unattempted := if v = .fail then id :: g.unattempted else g.unattempted }

def Ledger.attempt (g : Ledger) (id : String) (action : WorkerAction) : Ledger :=
  { g with
    unattempted := if action = .rollback then g.unattempted.filter (fun id' => decide (id' ≠ id))
      else g.unattempted }

def Ledger.issue (g : Ledger) (id : String) (action : WorkerAction) : Ledger :=
  { g.attempt id action with
    owed := g.owed.filter (fun y => decide (y ≠ (id, action.verdict)))
    issued := (id, action.verdict) :: g.issued }

/-- The request that was next did not reach the control plane. -/
def Ledger.drop (g : Ledger) : Option Task → Ledger
  | some (.decided id action) => (g.attempt id action).fails true
  | some (.fetched _) | some (.due _) | none => g.fails true

/-- The request is answered with 404, which raises; a 409 does not. -/
def Db.missing (db : Db) (id : String) : Bool := (db.deployment? id).isNone

/-- The book after a step. -/
def Ledger.note (w : WorkerState) (l : WorkerLabel) (g : Ledger) : Ledger :=
  match l, w.task with
  | .list, _ => g.list w.tables.db.activeIds
  | .fetch, _ => g.fails (w.remaining.head?.any w.tables.db.missing)
  | .evaluate env answered, some (.due out) =>
      match ((workerEvaluate out.deployment.id).exec env w.tables).1 with
      | .ok response => (g.record out.deployment.id response.overallResult).fails !answered
      | .error _ => g.fails (w.tables.db.missing out.deployment.id || !answered)
  | .act _ answered, some (.decided id action) =>
      (g.issue id action).fails (w.tables.db.missing id || !answered)
  | .raise, task => g.drop task
  | _, _ => g

/-- The worker and the book, step by step. -/
def WorkerState.watched : WorkerState × Ledger → WorkerLabel → Option (WorkerState × Ledger) :=
  observed WorkerState.next Ledger.note

/-! ## 3. What is asked of the worker -/

/-- The rollout was taken out of evaluation. -/
def Left (db : Db) (id : String) : Prop := ∃ d ∈ db.deployment? id, d.status.active = false

/-- A sweep without failures has issued the action of every verdict that was owed as it began, for
    every rollout it listed that is still under evaluation. -/
def Settled (x : WorkerState × Ledger) : Prop :=
  x.2.failed = false → ∀ y ∈ x.2.obliged, y ∈ x.2.issued ∨ Left x.1.tables.db y.1

/-- No advance or promote is next for a rollout with a FAIL that no rollback was attempted for. -/
def RollsBackFirst (g : Ledger) : Option Task → Prop
  | some (.decided id action) => action.verdict = .pass → id ∉ g.unattempted
  | some (.fetched _) | some (.due _) | none => True

/-- No verdict is lost. -/
def Settles (x : WorkerState × Ledger) (l : WorkerLabel) (_ : WorkerState × Ledger) : Prop :=
  match l with
  | .finish => Settled x
  | .act _ _ => RollsBackFirst x.2 x.1.task
  | .call _ | .list | .fetch | .checkDue _ _ | .evaluate _ _ | .raise | .crash => True

/-- In a sweep without failures, a rollout with a verdict owed is found due. -/
def WindowOver (t : Tables) (g : Ledger) (now : Time) (defaultWindowSeconds : Nat) :
    Option Task → Prop
  | some (.fetched out) =>
      g.failed = false → (∃ y ∈ g.owed, y.1 = out.deployment.id) →
        t.due out now defaultWindowSeconds = true
  | some (.due _) | some (.decided _ _) | none => True

/-- The metrics are such that an evaluation comes to the verdict owed. -/
def SameVerdict (t : Tables) (g : Ledger) (env : EvaluationEnv) : Option Task → Prop
  | some (.due out) =>
      ∀ d ∈ t.db.deployment? out.deployment.id, d.status.active = true →
        ∀ y ∈ g.owed, y.1 = out.deployment.id →
          overallResult (t.checks env.clock d ((workerEvaluate d.id).effectiveConfig env d)) = y.2
  | some (.fetched _) | some (.decided _ _) | none => True

/-- A check that meets an owed verdict finds the window over, and the evaluation behind it comes to
    that verdict again. -/
def Rechecks (x : WorkerState × Ledger) (l : WorkerLabel) (_ : WorkerState × Ledger) : Prop :=
  match l with
  | .checkDue now defaultWindowSeconds =>
      WindowOver x.1.tables x.2 now defaultWindowSeconds x.1.task
  | .evaluate env _ => SameVerdict x.1.tables x.2 env x.1.task
  | .call _ | .list | .fetch | .act _ _ | .raise | .crash | .finish => True

section Decide

variable (x x' : WorkerState × Ledger) (l : WorkerLabel) (t : Tables) (g : Ledger)
  (task : Option Task)

instance : Decidable (Settled x) := inferInstanceAs (Decidable (_ → ∀ _ ∈ _, _ ∨ ∃ _ ∈ _, _))

instance : Decidable (RollsBackFirst g task) :=
  match task with
  | some (.decided _ _) => inferInstanceAs (Decidable (_ → _))
  | some (.fetched _) | some (.due _) | none => isTrue trivial

instance : Decidable (Settles x l x') :=
  match l with
  | .finish => inferInstanceAs (Decidable (Settled x))
  | .act _ _ => inferInstanceAs (Decidable (RollsBackFirst x.2 x.1.task))
  | .call _ | .list | .fetch | .checkDue _ _ | .evaluate _ _ | .raise | .crash => isTrue trivial

instance (now : Time) (window : Nat) : Decidable (WindowOver t g now window task) :=
  match task with
  | some (.fetched _) => inferInstanceAs (Decidable (_ → _ → _))
  | some (.due _) | some (.decided _ _) | none => isTrue trivial

instance (env : EvaluationEnv) : Decidable (SameVerdict t g env task) :=
  match task with
  | some (.due _) => inferInstanceAs (Decidable (∀ _ ∈ _, _ → ∀ _ ∈ _, _ → _))
  | some (.fetched _) | some (.decided _ _) | none => isTrue trivial

instance : Decidable (Rechecks x l x') :=
  match l with
  | .checkDue now window => inferInstanceAs (Decidable (WindowOver x.1.tables x.2 now window x.1.task))
  | .evaluate env _ => inferInstanceAs (Decidable (SameVerdict x.1.tables x.2 env x.1.task))
  | .call _ | .list | .fetch | .act _ _ | .raise | .crash | .finish => isTrue trivial

end Decide

/-! ## 4. One step -/

section Left

variable {db : Db} {t : Tables} {id : String}

/-- **A rollout that left evaluation stays out of it.** -/
theorem left_exec (env : Env) (req : Request) (h : Left db id) : Left (req.exec env db).2 id := by
  obtain ⟨d, hd, ha⟩ := h
  obtain ⟨rfl, hd⟩ := found (Option.mem_def.mp hd)
  rcases exec_turns env req hd with ⟨hd', _⟩ | ⟨row, split, events, hturn, hid, hdb⟩
  · exact ⟨d, hd', ha⟩
  · refine ⟨row, ?_, ?_⟩
    · rw [hdb, Option.mem_def, applied_deployment?, if_pos hid.symm]
    · cases hturn with
      | resolved hreq =>
          cases hreq with
          | promote => rfl
          | rollback => rfl
      | advanced hactive => exact absurd ha (by simp [hactive])
      | cycled hactive => exact absurd ha (by simp [hactive])
      | frozen hactive => exact absurd ha (by simp [hactive])
      | flagged => exact ha

theorem left_call (c : ApiCall) (h : Left t.db id) : Left (c.exec t).db id := by
  rcases call_cases c t with ⟨env, req, rfl⟩ | ⟨events, he, _⟩
  · exact left_exec env req h
  · rw [he]
    exact h

/-- A rollout that a call finds neither missing nor under evaluation has left it. -/
theorem missing_or_left (h : ∀ d, db.deployment? id = some d → d.status.active = false) :
    db.missing id = true ∨ Left db id := by
  unfold Db.missing
  cases hd : db.deployment? id with
  | none => exact Or.inl rfl
  | some d => exact Or.inr ⟨d, hd, h d hd⟩

end Left

section Book

variable {g : Ledger} {id : String} {action : WorkerAction} {v : OverallResult}

@[simp] theorem fails_false : g.fails false = g := by simp [Ledger.fails]

theorem drop_owed (task : Option Task) : (g.drop task).owed = g.owed := by
  unfold Ledger.drop
  split <;> rfl

theorem drop_failed (task : Option Task) : (g.drop task).failed = true := by
  unfold Ledger.drop Ledger.fails
  split <;> simp

theorem drop_obliged (task : Option Task) : (g.drop task).obliged = g.obliged := by
  unfold Ledger.drop
  split <;> rfl

theorem drop_issued (task : Option Task) : (g.drop task).issued = g.issued := by
  unfold Ledger.drop
  split <;> rfl

theorem mem_attempt {id' : String} (h : id' ∈ (g.attempt id action).unattempted) :
    id' ∈ g.unattempted ∧ (action = .rollback → id' ≠ id) := by
  unfold Ledger.attempt at h
  dsimp only at h
  split at h
  · obtain ⟨hmem, hne⟩ := List.mem_filter.mp h
    exact ⟨hmem, fun _ => by simpa using hne⟩
  · rename_i hne
    exact ⟨h, fun heq => absurd heq hne⟩

theorem mem_drop {task : Option Task} {id' : String} (h : id' ∈ (g.drop task).unattempted) :
    id' ∈ g.unattempted := by
  unfold Ledger.drop at h
  split at h
  · exact (mem_attempt h).1
  · exact h
  · exact h
  · exact h

end Book

/-- **What a step of the worker does**, to its position and to the book. -/
inductive WorkerState.Moves (w : WorkerState) (g : Ledger) :
    WorkerLabel → WorkerState × Ledger → Prop where
  | call (c : ApiCall) : Moves w g (.call c) ({ w with tables := c.exec w.tables }, g)
  | list (hs : w.sweeping = false) :
      Moves w g .list ({ w with
          sweeping := true, task := none, remaining := w.tables.db.activeIds },
        g.list w.tables.db.activeIds)
  | passed {id : String} {rest : List String} (ht : w.task = none) (hr : w.remaining = id :: rest)
      (hout : w.tables.db.missing id = true ∨ Left w.tables.db id) :
      Moves w g .fetch ({ w with remaining := rest }, g.fails (w.tables.db.missing id))
  | fetched {out : DeploymentOut} {rest : List String} (ht : w.task = none)
      (hr : w.remaining = out.deployment.id :: rest) :
      Moves w g .fetch ({ w with task := some (.fetched out), remaining := rest }, g)
  | early {out : DeploymentOut} {now : Time} {window : Nat} (ht : w.task = some (.fetched out))
      (hdue : w.tables.due out now window = false) :
      Moves w g (.checkDue now window) ({ w with task := none }, g)
  | due {out : DeploymentOut} {now : Time} {window : Nat} (ht : w.task = some (.fetched out)) :
      Moves w g (.checkDue now window) ({ w with task := some (.due out) }, g)
  | judged {out : DeploymentOut} {env : EvaluationEnv} {answered : Bool} {d : Deployment}
      {t : Tables} {v : OverallResult} (ht : w.task = some (.due out))
      (hd : w.tables.db.deployment? out.deployment.id = some d) (ha : d.status.active = true)
      (hdb : t.db = w.tables.db)
      (hv : v = overallResult (w.tables.checks env.clock d
        ((workerEvaluate d.id).effectiveConfig env d))) :
      Moves w g (.evaluate env answered) ({ w with
          tables := t
          task := if answered then some (.decided out.deployment.id
            (decideAction v (canaryAtFullTraffic out))) else none },
        (g.record out.deployment.id v).fails !answered)
  | unjudged {out : DeploymentOut} {env : EvaluationEnv} {answered : Bool}
      (ht : w.task = some (.due out))
      (hout : w.tables.db.missing out.deployment.id = true ∨ Left w.tables.db out.deployment.id) :
      Moves w g (.evaluate env answered) ({ w with task := none },
        g.fails (w.tables.db.missing out.deployment.id || !answered))
  | acted {id : String} {action : WorkerAction} {env : Env} {answered : Bool}
      (ht : w.task = some (.decided id action)) :
      Moves w g (.act env answered) ({ w with
          tables := (ApiCall.lifecycle env (action.request id)).exec w.tables, task := none },
        (g.issue id action).fails (w.tables.db.missing id || !answered))
  | dropped (rest : List String) :
      Moves w g .raise ({ w with task := none, remaining := rest }, g.drop w.task)
  | crashed : Moves w g .crash ({ w with sweeping := false, task := none, remaining := [] }, g)
  | finished (hs : w.sweeping = true) (ht : w.task = none) (hr : w.remaining = []) :
      Moves w g .finish ({ w with sweeping := false }, g)

section Moves

variable {w : WorkerState} {g : Ledger} {l : WorkerLabel} {x' : WorkerState × Ledger}

theorem fetch_moves (h : WorkerState.watched (w, g) .fetch = some x') : w.Moves g .fetch x' := by
  obtain ⟨w', g'⟩ := x'
  obtain ⟨hn, hg⟩ := observed_eq_some.mp h
  simp only [WorkerState.next] at hn
  split at hn
  · rename_i id rest ht hr
    have hnote : Ledger.note w .fetch g = g.fails (w.tables.db.missing id) := by
      simp [Ledger.note, hr]
    dsimp only at hg
    rw [hg, hnote]
    cases hd : w.tables.db.deployment? id with
    | none =>
        simp only [Db.deploymentOut?, hd, Option.map_none] at hn
        cases hn
        exact .passed ht hr (missing_or_left (by simp [hd]))
    | some d =>
        obtain ⟨rfl, hd⟩ := found hd
        simp only [Db.deploymentOut?, hd, Option.map_some] at hn
        split at hn
        · cases hn
          have hthere : w.tables.db.missing d.id = false := by simp [Db.missing, hd]
          rw [hthere, fails_false]
          exact .fetched ht hr
        · rename_i hinactive
          cases hn
          exact .passed ht hr (Or.inr ⟨d, hd, by simpa using hinactive⟩)
  · cases hn

theorem evaluate_moves {env : EvaluationEnv} {answered : Bool}
    (h : WorkerState.watched (w, g) (.evaluate env answered) = some x') :
    w.Moves g (.evaluate env answered) x' := by
  obtain ⟨w', g'⟩ := x'
  obtain ⟨hn, hg⟩ := observed_eq_some.mp h
  simp only [WorkerState.next] at hn
  split at hn
  · rename_i out ht
    have hnote : Ledger.note w (.evaluate env answered) g =
        match ((workerEvaluate out.deployment.id).exec env w.tables).1 with
        | .ok response => (g.record out.deployment.id response.overallResult).fails !answered
        | .error _ => g.fails (w.tables.db.missing out.deployment.id || !answered) := by
      simp only [Ledger.note, ht]
    dsimp only at hg
    rw [hg, hnote]
    by_cases hlive : ∃ d, w.tables.db.deployment? out.deployment.id = some d ∧
        d.status.active = true
    · obtain ⟨d, hd, ha⟩ := hlive
      have hid : workerEvaluate d.id = workerEvaluate out.deployment.id := by
        rw [(found hd).1]
      have hexec := exec_evaluated env (workerEvaluate out.deployment.id) hd ha
      rw [hexec] at hn ⊢
      cases hn
      exact .judged ht hd ha rfl (by rw [hid])
    · have hdead : ∀ d, w.tables.db.deployment? out.deployment.id = some d →
          d.status.active = false := by
        intro d hd
        by_contra ha
        exact hlive ⟨d, hd, by simpa using ha⟩
      obtain ⟨e, hexec⟩ := exec_unevaluated env (workerEvaluate out.deployment.id) hdead
      rw [hexec] at hn ⊢
      cases hn
      exact .unjudged ht (missing_or_left hdead)
  · cases hn

theorem watched_moves (h : WorkerState.watched (w, g) l = some x') : w.Moves g l x' := by
  obtain ⟨w', g'⟩ := x'
  obtain ⟨hn, hg⟩ := observed_eq_some.mp h
  dsimp only at hn hg
  cases l with
  | fetch => exact fetch_moves h
  | evaluate env answered => exact evaluate_moves h
  | call c =>
      cases hn
      rw [hg]
      exact .call c
  | list =>
      simp only [WorkerState.next] at hn
      split at hn
      · cases hn
      · rename_i hs
        cases hn
        rw [hg]
        exact .list (by simpa using hs)
  | checkDue now window =>
      simp only [WorkerState.next] at hn
      split at hn
      · rename_i out ht
        split at hn
        · cases hn
          rw [hg]
          exact .due ht
        · rename_i hdue
          cases hn
          rw [hg]
          exact .early ht (by simpa using hdue)
      · cases hn
  | act env answered =>
      simp only [WorkerState.next] at hn
      split at hn
      · rename_i id action ht
        cases hn
        have hnote : Ledger.note w (.act env answered) g =
            (g.issue id action).fails (w.tables.db.missing id || !answered) := by
          simp only [Ledger.note, ht]
        rw [hg, hnote]
        exact .acted ht
      · cases hn
  | raise =>
      simp only [WorkerState.next] at hn
      split at hn
      · cases hn
        rw [hg]
        exact .dropped w.remaining
      · rename_i id rest ht hr
        cases hn
        have hw : ({ w with remaining := rest } : WorkerState) =
            { w with task := none, remaining := rest } := by rw [ht]
        rw [hg, hw]
        exact .dropped rest
      · cases hn
  | crash =>
      cases hn
      rw [hg]
      exact .crashed
  | finish =>
      simp only [WorkerState.next] at hn
      split at hn
      · rename_i ht hr
        split at hn
        · rename_i hs
          cases hn
          rw [hg]
          exact .finished hs ht hr
        · cases hn
      · cases hn

end Moves

/-! ## 5. Every run -/

/-- What is owed is kept until its action is issued, or the rollout has left, or the sweep still has it
    on its list. -/
structure Kept (x : WorkerState × Ledger) : Prop where
  owed : ∀ y ∈ x.2.obliged, y ∈ x.2.issued ∨ y ∈ x.2.owed
  waiting : x.2.failed = false → x.1.sweeping = true → ∀ y ∈ x.2.obliged,
    y ∈ x.2.issued ∨ Left x.1.tables.db y.1 ∨ y.1 ∈ x.1.listed
  /-- the action that is next belongs to every verdict owed -/
  verdict : ∀ id action, x.1.task = some (.decided id action) →
    ∀ y ∈ x.2.owed, y.1 = id → y.2 = action.verdict
  fails : ∀ id ∈ x.2.unattempted, (id, .fail) ∈ x.2.owed

section Run

variable {w : WorkerState} {g : Ledger} {x x' : WorkerState × Ledger} {l : WorkerLabel}

theorem fails_eq_false {b : Bool} : (g.fails b).failed = false ↔ g.failed = false ∧ b = false :=
  Bool.or_eq_false_iff

/-- A call of somebody else takes nothing away from what is waited for. -/
theorem Kept.call (hi : Kept (w, g)) (c : ApiCall) :
    Kept ({ w with tables := c.exec w.tables }, g) where
  owed := hi.owed
  waiting hf hs y hy := by
    rcases hi.waiting hf hs y hy with h | h | h
    · exact Or.inl h
    · exact Or.inr (Or.inl (left_call c h))
    · exact Or.inr (Or.inr h)
  verdict := hi.verdict
  fails := hi.fails

theorem Kept.list (hi : Kept (w, g)) :
    Kept ({ w with sweeping := true, task := none, remaining := w.tables.db.activeIds },
      g.list w.tables.db.activeIds) where
  owed y hy := Or.inr (List.mem_filter.mp hy).1
  waiting _ _ y hy := by
    have hlisted : y.1 ∈ w.tables.db.activeIds := by simpa using (List.mem_filter.mp hy).2
    exact Or.inr (Or.inr ((mem_listed_none rfl).mpr hlisted))
  verdict _ _ ht := nomatch ht
  fails := hi.fails

/-- The sweep goes on with its task for the same deployment. -/
theorem Kept.goOn {t t' : Task} (hi : Kept (w, g)) (ht : w.task = some t) (hid : t'.id = t.id)
    (hdec : ∀ id action, t' ≠ .decided id action) : Kept ({ w with task := some t' }, g) where
  owed := hi.owed
  waiting hf hs y hy := by
    rcases hi.waiting hf hs y hy with h | h | h
    · exact Or.inl h
    · exact Or.inr (Or.inl h)
    · refine Or.inr (Or.inr ((mem_listed_task rfl).mpr ?_))
      rw [hid]
      exact (mem_listed_task ht).mp h
  verdict id action h := absurd (Option.some.inj h) (hdec id action)
  fails := hi.fails

/-- The sweep is through with its task. -/
theorem Kept.through {t : Task} {b : Bool} (hi : Kept (w, g)) (ht : w.task = some t)
    (hdone : g.failed = false → b = false → ∀ y ∈ g.obliged, y.1 = t.id →
      y ∈ g.issued ∨ Left w.tables.db y.1) :
    Kept ({ w with task := none }, g.fails b) where
  owed := hi.owed
  waiting hf hs y hy := by
    obtain ⟨hf, hb⟩ := fails_eq_false.mp hf
    rcases hi.waiting hf hs y hy with h | h | h
    · exact Or.inl h
    · exact Or.inr (Or.inl h)
    · rcases (mem_listed_task ht).mp h with hid | h
      · exact (hdone hf hb y hy hid).imp_right Or.inl
      · exact Or.inr (Or.inr ((mem_listed_none rfl).mpr h))
  verdict _ _ h := nomatch h
  fails := hi.fails

/-- The sweep passes over a deployment. -/
theorem Kept.passed {id : String} {rest : List String} {b : Bool} (hi : Kept (w, g))
    (ht : w.task = none) (hr : w.remaining = id :: rest)
    (hleft : b = false → Left w.tables.db id) :
    Kept ({ w with remaining := rest }, g.fails b) where
  owed := hi.owed
  waiting hf hs y hy := by
    obtain ⟨hf, hb⟩ := fails_eq_false.mp hf
    rcases hi.waiting hf hs y hy with h | h | h
    · exact Or.inl h
    · exact Or.inr (Or.inl h)
    · have hmem := (mem_listed_none ht).mp h
      rw [hr] at hmem
      rcases List.mem_cons.mp hmem with heq | hmem
      · rw [heq]
        exact Or.inr (Or.inl (hleft hb))
      · exact Or.inr (Or.inr ((mem_listed_none (w := { w with remaining := rest }) ht).mpr hmem))
  verdict := hi.verdict
  fails := hi.fails

/-- The sweep takes up the next deployment of its list. -/
theorem Kept.fetched {out : DeploymentOut} {rest : List String} (hi : Kept (w, g))
    (ht : w.task = none) (hr : w.remaining = out.deployment.id :: rest) :
    Kept ({ w with task := some (.fetched out), remaining := rest }, g) where
  owed := hi.owed
  waiting hf hs y hy := by
    rcases hi.waiting hf hs y hy with h | h | h
    · exact Or.inl h
    · exact Or.inr (Or.inl h)
    · have hmem := (mem_listed_none ht).mp h
      rw [hr] at hmem
      have hcases : y.1 = out.deployment.id ∨ y.1 ∈ rest := List.mem_cons.mp hmem
      exact Or.inr (Or.inr ((mem_listed_task (t := .fetched out) rfl).mpr hcases))
  verdict _ _ h := nomatch h
  fails := hi.fails

theorem mem_record {id : String} {v : OverallResult} {y : String × OverallResult} :
    y ∈ (g.record id v).owed ↔ y = (id, v) ∨ y ∈ g.owed := List.mem_cons

/-- **A verdict is recorded**: one more is owed, and the action that is next belongs to it, as it does to
    those owed before. -/
theorem Kept.judged {out : DeploymentOut} {answered : Bool} {t : Tables} {v : OverallResult}
    (hi : Kept (w, g)) (ht : w.task = some (.due out)) (hdb : t.db = w.tables.db)
    (hsame : ∀ y ∈ g.owed, y.1 = out.deployment.id → v = y.2) :
    Kept ({ w with
        tables := t
        task := if answered then some (.decided out.deployment.id
          (decideAction v (canaryAtFullTraffic out))) else none },
      (g.record out.deployment.id v).fails !answered) where
  owed y hy := (hi.owed y hy).imp_right fun h => mem_record.mpr (Or.inr h)
  waiting hf hs y hy := by
    obtain ⟨hf, ha⟩ := fails_eq_false.mp hf
    rcases hi.waiting hf hs y hy with h | h | h
    · exact Or.inl h
    · refine Or.inr (Or.inl ?_)
      show Left t.db y.1
      rw [hdb]
      exact h
    · have hanswered : answered = true := by simpa using ha
      rw [hanswered]
      have hcases : y.1 = out.deployment.id ∨ y.1 ∈ w.remaining := (mem_listed_task ht).mp h
      exact Or.inr (Or.inr ((mem_listed_task
        (t := .decided out.deployment.id (decideAction v (canaryAtFullTraffic out))) rfl).mpr hcases))
  verdict id action h y hy hid := by
    cases answered with
    | false => cases h
    | true =>
        cases h
        rw [decideAction_verdict]
        rcases mem_record.mp hy with rfl | hy
        · rfl
        · exact (hsame y hy hid).symm
  fails id hid := by
    have hrecorded : id ∈ (g.record out.deployment.id v).unattempted := hid
    refine mem_record.mpr ?_
    unfold Ledger.record at hrecorded
    dsimp only at hrecorded
    split at hrecorded
    · rename_i hv
      rcases List.mem_cons.mp hrecorded with rfl | hrecorded
      · exact Or.inl (by rw [hv])
      · exact Or.inr (hi.fails id hrecorded)
    · exact Or.inr (hi.fails id hrecorded)

theorem mem_issue {id : String} {action : WorkerAction} {y : String × OverallResult} :
    y ∈ (g.issue id action).owed ↔ y ∈ g.owed ∧ y ≠ (id, action.verdict) := by
  unfold Ledger.issue
  rw [List.mem_filter, decide_eq_true_iff]

/-- **An action reaches the control plane**: its verdict is no longer owed. -/
theorem Kept.acted {id : String} {action : WorkerAction} {b : Bool} (hi : Kept (w, g))
    (ht : w.task = some (.decided id action)) (env : Env) :
    Kept ({ w with
        tables := (ApiCall.lifecycle env (action.request id)).exec w.tables, task := none },
      (g.issue id action).fails b) where
  owed y hy := by
    by_cases heq : y = (id, action.verdict)
    · exact Or.inl (List.mem_cons.mpr (Or.inl heq))
    · exact (hi.owed y hy).imp (fun h => List.mem_cons_of_mem _ h) fun h => mem_issue.mpr ⟨h, heq⟩
  waiting hf hs y hy := by
    obtain ⟨hf, _⟩ := fails_eq_false.mp hf
    rcases hi.waiting hf hs y hy with h | h | h
    · exact Or.inl (List.mem_cons_of_mem _ h)
    · exact Or.inr (Or.inl (left_exec env _ h))
    · rcases (mem_listed_task ht).mp h with hid | h
      · -- this is the action it was waiting for
        left
        rcases hi.owed y hy with h | h
        · exact List.mem_cons_of_mem _ h
        · have hv := hi.verdict id action ht y h hid
          exact List.mem_cons.mpr (Or.inl (Prod.ext hid hv))
      · exact Or.inr (Or.inr ((mem_listed_none rfl).mpr h))
  verdict _ _ h := nomatch h
  fails id' hid' := by
    obtain ⟨hmem, hne⟩ := mem_attempt hid'
    refine mem_issue.mpr ⟨hi.fails id' hmem, ?_⟩
    intro heq
    cases action with
    | rollback => exact hne rfl (congrArg Prod.fst heq)
    | advanceTraffic => cases congrArg Prod.snd heq
    | promote => cases congrArg Prod.snd heq
    | recordInconclusive => cases congrArg Prod.snd heq

theorem Kept.dropped (hi : Kept (w, g)) (rest : List String) :
    Kept ({ w with task := none, remaining := rest }, g.drop w.task) where
  owed := by
    rw [drop_obliged, drop_issued, drop_owed]
    exact hi.owed
  waiting hf := by
    rw [drop_failed] at hf
    cases hf
  verdict _ _ h := nomatch h
  fails id hid := by
    rw [drop_owed]
    exact hi.fails id (mem_drop hid)

/-- Between two sweeps nothing is waited for. -/
theorem Kept.idle (hi : Kept (w, g)) {task : Option Task} {remaining : List String}
    (ht : task = none) :
    Kept ({ w with sweeping := false, task := task, remaining := remaining }, g) where
  owed := hi.owed
  waiting _ hs := nomatch hs
  verdict _ _ h := by
    rw [show task = _ from h] at ht
    cases ht
  fails := hi.fails

theorem kept_start (t : Tables) : Kept ({ tables := t }, {}) where
  owed _ hy := nomatch hy
  waiting _ hs := nomatch hs
  verdict _ _ h := nomatch h
  fails _ hid := nomatch hid

/-- **A step that rechecks what is owed keeps the rest of it, and settles.** -/
theorem kept_step (hi : Kept x) (hc : Rechecks x l x') (hn : WorkerState.watched x l = some x') :
    Kept x' ∧ Settles x l x' := by
  obtain ⟨w, g⟩ := x
  cases watched_moves hn with
  | call c => exact ⟨hi.call c, trivial⟩
  | list hs => exact ⟨hi.list, trivial⟩
  | passed ht hr hout =>
      refine ⟨hi.passed ht hr ?_, trivial⟩
      intro hthere
      exact hout.resolve_left (by simp [hthere])
  | fetched ht hr => exact ⟨hi.fetched ht hr, trivial⟩
  | @early out now window ht hdue =>
      have hthrough := hi.through (b := false) ht ?_
      · rw [fails_false] at hthrough
        exact ⟨hthrough, trivial⟩
      · intro hf _ y hy hid
        rcases hi.owed y hy with h | h
        · exact Or.inl h
        · -- a verdict owed is found due
          have hover : WindowOver w.tables g now window w.task := hc
          rw [ht] at hover
          rw [hover hf ⟨y, h, hid⟩] at hdue
          cases hdue
  | due ht => exact ⟨hi.goOn ht rfl (fun _ _ => nofun), trivial⟩
  | @judged out env answered d t v ht hd ha hdb hv =>
      have hsame : SameVerdict w.tables g env w.task := hc
      rw [ht] at hsame
      refine ⟨hi.judged ht hdb ?_, trivial⟩
      intro y hy hid
      rw [hv]
      exact hsame d hd ha y hy hid
  | unjudged ht hout =>
      refine ⟨hi.through ht ?_, trivial⟩
      intro _ hthere y _ hid
      obtain ⟨hthere, _⟩ := Bool.or_eq_false_iff.mp hthere
      rw [hid]
      exact Or.inr (hout.resolve_left (by simp [hthere]))
  | @acted id action env answered ht =>
      refine ⟨hi.acted ht env, ?_⟩
      show RollsBackFirst g w.task
      rw [ht]
      intro hpass hfail
      have hv := hi.verdict id action ht _ (hi.fails id hfail) rfl
      rw [hpass] at hv
      cases hv
  | dropped rest => exact ⟨hi.dropped rest, trivial⟩
  | crashed => exact ⟨hi.idle rfl, trivial⟩
  | finished hs ht hr =>
      refine ⟨hi.idle ht, ?_⟩
      intro hf y hy
      rcases hi.waiting hf hs y hy with h | h | h
      · exact Or.inl h
      · exact Or.inr h
      · have hmem := (mem_listed_none ht).mp h
        rw [hr] at hmem
        cases hmem

/-- **No crash loses a verdict**, in every run of the worker with crashes, lost requests and lost answers
    and with any calls of others, in which each check of a deployment with a verdict owed finds its
    window over and the evaluation behind it comes to that verdict again. -/
theorem verdicts_settled (t : Tables) (ls : List WorkerLabel)
    (h : Along WorkerState.watched Rechecks ({ tables := t }, {}) ls) :
    Along WorkerState.watched Settles ({ tables := t }, {}) ls :=
  (along_run h (kept_start t) kept_step).1

end Run

/-- One request of each version is enough for a verdict. -/
def sampleEager : CreateDeploymentRequest :=
  { sampleCreate "fraud-model" with policyConfig := some { samplePolicy with minimumRequests := 1 } }

/-- A request served in 10 ms, well or not. -/
def sampleMetric (version : String) (statusCode : Int) : MetricIn where
  modelVersion := version
  latencyMs := 10
  statusCode := statusCode
  latency_nonneg := Nat.cast_nonneg 10

/-- One request of each version at `now`; the canary's is an error. -/
def sampleTraffic (now : Time) : List WorkerLabel :=
  [.call (.recordMetric now "d1" (sampleMetric "v1" 200)),
    .call (.recordMetric now "d1" (sampleMetric "v2" 500))]

/-- An evaluation right after `now`. -/
def sampleVerdict (now : Time) : WorkerLabel :=
  .evaluate ⟨⟨now + 1, now + 2, now + 3, now + 4, []⟩, samplePolicy⟩ true

/-- A FAIL of `d1` is recorded, the worker crashes, and its next sweep checks `d1` at `now`. -/
def sampleCrash (now : Time) (rest : List WorkerLabel) : List WorkerLabel :=
  .call (.lifecycle (Env.after 0 "d1") (.create sampleEager none)) :: sampleTraffic 10 ++
    [.list, .fetch, .checkDue 20 300, sampleVerdict 20, .crash] ++ sampleTraffic now ++
    [.list, .fetch, .checkDue now 300] ++ rest

def sampleWorker : WorkerState × Ledger := ({ tables := .empty }, {})

/-- Behind the window, the sweep rolls back. -/
theorem verdicts_settled_sample :
    ((run WorkerState.watched sampleWorker (sampleCrash 400000000
        [sampleVerdict 400000000, .act (Env.after 400000010 "unused") true, .finish])).map
        fun x => (x.2.obliged, x.2.issued)) = some ([("d1", .fail)], [("d1", .fail)]) ∧
      Along WorkerState.watched Settles sampleWorker (sampleCrash 400000000
        [sampleVerdict 400000000, .act (Env.after 400000010 "unused") true, .finish]) := by
  refine ⟨by decide +kernel, verdicts_settled .empty _ ?_⟩
  decide +kernel

/-- **A crash loses a FAIL**: within the window, the sweep passes the deployment over. -/
theorem verdict_lost :
    ¬∀ (t : Tables) (ls : List WorkerLabel),
      Along WorkerState.watched Settles ({ tables := t }, {}) ls := by
  intro h
  have hlost : ¬Along WorkerState.watched Settles sampleWorker (sampleCrash 1000 [.finish]) := by
    decide +kernel
  exact hlost (h _ _)

end ModelOps
