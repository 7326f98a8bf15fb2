/-
  File:      ModelOps/Dashboard/Actions.lean
  Subject:   The buttons under a deployment (components/DeploymentActions.tsx), pressed on a page that may
             be behind the control plane.

  The component decides from the row on the page what can be pressed; the control plane decides from its
  own row what it answers.

  * `deploymentActions` -- the warning, and the buttons that can be pressed;
  * `press_answered` -- what the control plane makes of a press;
  * **`buttons_answered`** -- a button that is on is refused only for a rollout settled since the page read
    it, and on a page that is up to date the buttons that are on are the ones that change something.
-/
import ModelOps.Dashboard.Page
import ModelOps.Worker.Hold

namespace ModelOps

open Relational Labelled LatestWins

/-! ## 1. The component -/

def ACTIONABLE_STATUSES : List String := ["CANARY_RUNNING", "EVALUATING", "INCONCLUSIVE"]

/-- "Mirrors the worker's own ACTIVE_STATUSES". -/
def WORKER_MANAGED_STATUSES : List String := ["CANARY_RUNNING", "EVALUATING"]

/-- "Mirrors backend/app/control_plane/models.py's TERMINAL_STATUSES". -/
def TERMINAL_STATUSES : List String := ["PROMOTED", "ROLLED_BACK", "FAILED"]

inductive Button where
  | promote
  | rollback
  | pause
  | resume
  deriving DecidableEq

/-- The POST behind a button. -/
def Button.request (id : String) : Button → Request
  | .promote => .promote id .manual
  | .rollback => .rollback id .manual
  | .pause => .pauseAutomation id .manual
  | .resume => .resumeAutomation id .manual

def Button.successMessage : Button → String
  | .promote => "Promoted to 100% canary."
  | .rollback => "Rolled back to 100% stable."
  | .pause => "Automation paused."
  | .resume => "Automation resumed."

/-- What the component renders, beside its texts. -/
structure ActionsView where
  warns : Bool
  on : List Button

/-- `DeploymentActions`; `busy` where one of its requests is under way. -/
def deploymentActions (d : Deployment) (busy : Bool) : ActionsView :=
  let canAct := decide (d.status.value ∈ ACTIONABLE_STATUSES)
  let canPauseOrResume := !decide (d.status.value ∈ TERMINAL_STATUSES)
  let workerManaged := decide (d.status.value ∈ WORKER_MANAGED_STATUSES) && !d.automationPaused
  { warns := workerManaged
    on :=
      (if canPauseOrResume && !busy then [if d.automationPaused then .resume else .pause] else []) ++
        if !canAct || busy then [] else [.promote, .rollback] }

/-- The line that a mutation leaves under the buttons (`useMutation`, lib/useMutation.ts). -/
inductive MutationResult where
  | success (message : String)
  | error (message : String)
  deriving DecidableEq

def API_BASE_URL : String := "http://localhost:8000"

/-- The message of what `request` throws. -/
def ApiError.message : ApiError → String
  | .unreachable => s!"Could not reach the control plane at {API_BASE_URL}"
  -- a 500 has no JSON body
  | .refused .integrityError => "Internal Server Error"
  | .refused e => e.message

def mutationResult {α : Type} (successMessage : String) : Except ApiError α → MutationResult
  | .ok _ => .success successMessage
  | .error e => .error e.message

/-- What a button leaves where its request is answered. -/
def Button.line (b : Button) (answer : Except ServiceError Reply) : MutationResult :=
  mutationResult b.successMessage (answer.mapError .refused)

/-! ## 2. A press -/

/-- The error of a button whose deployment is settled. -/
def Button.refusal (d : Deployment) : Button → ServiceError
  | .promote => .invalidTransition ⟨d.status, .promoting⟩
  | .rollback => .invalidTransition ⟨d.status, .rollingBack⟩
  | .pause | .resume => .deploymentTerminal d.id d.status

/-- What the button is there for. -/
def Button.Done (row : Deployment) : Button → Prop
  | .promote => row.status = .promoted
  | .rollback => row.status = .rolledBack
  | .pause => row.automationPaused = true
  | .resume => row.automationPaused = false

section Press

variable {env : Env} {db : Db} {d : Deployment} {b : Button}

theorem terminal_value (s : DeploymentStatus) : s.value ∈ TERMINAL_STATUSES ↔ s.terminal = true := by
  cases s <;> decide

theorem workerManaged_value (s : DeploymentStatus) :
    s.value ∈ WORKER_MANAGED_STATUSES ↔ s.active = true := by
  cases s <;> decide

/-- Of a committed row, what can be acted on is what is not settled. -/
theorem actionable_iff (hsh : Shape db d) : d.status.value ∈ ACTIONABLE_STATUSES ↔ d.Open := by
  unfold Deployment.Open
  rcases hsh.status_cases with hs | hs | hs | hs <;> rw [hs] <;> decide

/-- **The buttons of a row that is not settled**: all but the one that would leave it as it is. -/
theorem on_iff (hsh : Shape db d) (b : Button) :
    b ∈ (deploymentActions d false).on ↔ d.Open ∧ ¬b.Done d := by
  have hterminal : d.status.value ∈ TERMINAL_STATUSES ↔ ¬d.Open := by
    rw [terminal_value]
    unfold Deployment.Open
    simp
  unfold deploymentActions
  by_cases ho : d.Open
  · have hact : decide (d.status.value ∈ ACTIONABLE_STATUSES) = true :=
      decide_eq_true ((actionable_iff hsh).mpr ho)
    have hmay : decide (d.status.value ∈ TERMINAL_STATUSES) = false :=
      decide_eq_false fun h => hterminal.mp h ho
    have hpromoted : d.status ≠ .promoted := fun h => by rw [Deployment.Open, h] at ho; cases ho
    have hrolledBack : d.status ≠ .rolledBack := fun h => by rw [Deployment.Open, h] at ho; cases ho
    rw [hact, hmay]
    cases hp : d.automationPaused <;> cases b <;> simp [ho, Button.Done, hp, hpromoted, hrolledBack]
  · have hact : decide (d.status.value ∈ ACTIONABLE_STATUSES) = false :=
      decide_eq_false fun h => ho ((actionable_iff hsh).mp h)
    have hmay : decide (d.status.value ∈ TERMINAL_STATUSES) = true := decide_eq_true (hterminal.mpr ho)
    rw [hact, hmay]
    simp [ho]

/-- Promote and rollback. -/
theorem resolve_answered {res : Resolution} {req : Request} (hres : res = promotion ∨ res = rollback)
    (hreq : req.Resolves res d.id .manual) (hd : db.deployment? d.id = some d) (hsh : Shape db d)
    (env : Env) :
    (d.Open → ∃ reply row, (req.exec env db).1 = .ok reply ∧
      (req.exec env db).2.deployment? d.id = some row ∧ row.status = res.settled) ∧
    (¬d.Open → req.exec env db = (.error (.invalidTransition ⟨d.status, res.via⟩), db)) := by
  refine ⟨fun ho => ?_, fun ho => ?_⟩
  · rw [exec_resolved hreq hd ((admits_iff hres hsh).mpr ho)]
    exact ⟨_, resolvedRow res env d, rfl, (applied_deployment? ..).trans (if_pos rfl), rfl⟩
  · have heval := eval_resolves env db hreq
    rw [hd] at heval
    have hno : ¬res.Admits d.status := fun h => ho ((admits_iff hres hsh).mp h)
    exact exec_of_error (heval.trans (eval_resolve_error hno .manual))

/-- Pause and resume. -/
theorem flag_answered {paused : Bool} {event : EventBody} {req : Request}
    (hreq : req.Flags paused event d.id) (hd : db.deployment? d.id = some d) (env : Env) :
    (d.Open → ∃ reply row, (req.exec env db).1 = .ok reply ∧
      (req.exec env db).2.deployment? d.id = some row ∧ row.automationPaused = paused) ∧
    (¬d.Open → req.exec env db = (.error (.deploymentTerminal d.id d.status), db)) := by
  have heval := eval_flags env db hreq
  rw [hd] at heval
  refine ⟨fun ho => ?_, fun ho => ?_⟩
  · by_cases hp : d.automationPaused = paused
    · rw [exec_of_reply (heval.trans (eval_setAutomation_same ho hp))]
      exact ⟨_, d, rfl, hd, hp⟩
    · rw [exec_of_commits ((commits_flag hd ho hp).congr heval)]
      exact ⟨_, flaggedRow env paused d, rfl, (applied_deployment? ..).trans (if_pos rfl), rfl⟩
  · exact exec_of_error (heval.trans (eval_setAutomation_error (Bool.not_eq_false _ ▸ ho)))

/-- **What the control plane makes of a press**: of a deployment that is not settled, what the button is
    there for, and of a settled one, nothing. -/
theorem press_answered (hd : db.deployment? d.id = some d) (hsh : Shape db d) (env : Env) (b : Button) :
    (d.Open → ∃ reply row, ((b.request d.id).exec env db).1 = .ok reply ∧
      ((b.request d.id).exec env db).2.deployment? d.id = some row ∧ b.Done row) ∧
    (¬d.Open → (b.request d.id).exec env db = (.error (b.refusal d), db)) := by
  cases b with
  | promote => exact resolve_answered (Or.inl rfl) (.promote d.id .manual) hd hsh env
  | rollback => exact resolve_answered (Or.inr rfl) (.rollback d.id .manual) hd hsh env
  | pause => exact flag_answered (.pause d.id .manual) hd env
  | resume => exact flag_answered (.resume d.id .manual) hd env

/-- **A press leaves the row as it is** exactly if the deployment is settled or held as asked for. -/
theorem press_idle_iff (hd : db.deployment? d.id = some d) (hsh : Shape db d) (env : Env) (b : Button) :
    ((b.request d.id).exec env db).2.deployment? d.id = some d ↔ ¬d.Open ∨ b.Done d := by
  obtain ⟨hdone, hrefused⟩ := press_answered hd hsh env b
  constructor
  · intro hsame
    by_cases ho : d.Open
    · obtain ⟨_, row, _, hrow, hd'⟩ := hdone ho
      rw [hsame] at hrow
      cases hrow
      exact Or.inr hd'
    · exact Or.inl ho
  · rintro (ho | hheld)
    · rw [hrefused ho]
      exact hd
    · by_cases ho : d.Open
      · have heval : ∀ {paused event}, (b.request d.id).Flags paused event d.id →
            d.automationPaused = paused → ((b.request d.id).exec env db).2.deployment? d.id = some d := by
          intro paused event hreq hp
          have heval := eval_flags env db hreq
          rw [hd] at heval
          rw [exec_of_reply (heval.trans (eval_setAutomation_same ho hp))]
          exact hd
        cases b with
        | promote | rollback =>
            unfold Button.Done at hheld
            rw [Deployment.Open, hheld] at ho
            cases ho
        | pause => exact heval (.pause d.id .manual) hheld
        | resume => exact heval (.resume d.id .manual) hheld
      · rw [hrefused ho]
        exact hd

/-- **The warning stands where the next sweep lists the deployment.** -/
theorem warns_iff (hd : db.deployment? d.id = some d) (busy : Bool) :
    (deploymentActions d busy).warns = true ↔ d.id ∈ db.activeIds := by
  have hwarns : (deploymentActions d busy).warns = (d.status.active && !d.automationPaused) := by
    show (decide (d.status.value ∈ WORKER_MANAGED_STATUSES) && !d.automationPaused) = _
    congr 1
    rw [Bool.eq_iff_iff, decide_eq_true_iff]
    exact workerManaged_value d.status
  rw [hwarns]
  unfold Db.activeIds
  simp only [List.mem_map, List.mem_filter, List.mem_insertionSort]
  constructor
  · exact fun h => ⟨d, ⟨Table.mem_rows.mpr (deployment?_eq_some.mp hd).1, h⟩, rfl⟩
  · rintro ⟨d', ⟨hmem, h⟩, hid⟩
    -- the key has one row
    have hd' : db.deployment? d'.id = some d' := Table.mem_iff_get?.mp (Table.mem_rows.mp hmem)
    rw [hid, hd] at hd'
    cases hd'
    exact h

end Press

/-! ## 3. A page behind the control plane -/

/-- **The buttons of the page**: whatever is called, refetched and answered in any order, before a button
    is pressed and from then until its request is served,

    * it does what it is for, or is refused, with nothing changed, because the rollout is settled;
    * one that was on is refused only where the rollout was settled after the page had read it;
    * and if the page shows the row as it is, then the buttons that are on are those that change it, and
      the warning stands exactly if the worker's next sweep lists the deployment. -/
theorem buttons_answered (id : String) (history : List ApiCall)
    (ls ls' : List (LatestWins.Label ApiCall ApiError)) (x x' : Page)
    (hrun : run (Page.next id) (.start (Tables.empty.after history)) ls = some x)
    (hrun' : run (Page.next id) x ls' = some x') (d : Deployment) (hd : x.shown = some d) :
    ∃ d', x'.server.db.deployment? id = some d' ∧ Newer d d' ∧ ∀ (env : Env) (b : Button),
      let answer := (b.request id).exec env x'.server.db
      (d'.Open ∧ b.line answer.1 = .success b.successMessage ∧
          (∃ row, answer.2.deployment? id = some row ∧ b.Done row) ∨
        ¬d'.Open ∧ b.line answer.1 = .error (b.refusal d').message ∧ answer.2 = x'.server.db) ∧
      (b ∈ (deploymentActions d false).on → ¬d'.Open → d.Open ∧ d.versionId < d'.versionId) ∧
      (d' = d → (b ∈ (deploymentActions d false).on ↔ answer.2.deployment? id ≠ some d) ∧
        ∀ busy, (deploymentActions d busy).warns = true ↔ id ∈ x'.server.db.activeIds) := by
  have hknown : KnownRow id x'.server d :=
    run_inv (I := fun y : Page => KnownRow id y.server d) (fun _ _ _ h hn => known_step (rows_age id) h hn)
      ((run_fresh (rows_age id) hrun).shown d hd).1 hrun'
  obtain ⟨d', hd', hnewer⟩ := hknown
  have hshaped : Schema x'.server.db ∧ Shaped x'.server.db := by
    have hstep : ∀ (y : Page) l y', Schema y.server.db ∧ Shaped y.server.db →
        Page.next id y l = some y' → Schema y'.server.db ∧ Shaped y'.server.db := by
      intro y l y' h hn
      rcases reader_cases hn with ⟨c, _, rfl⟩ | ⟨_, rfl⟩ | ⟨n, a, _, rfl, _⟩ | ⟨n, a, _, rfl⟩
      · exact after_shaped [c] h
      · exact h
      · exact h
      · exact (deliver_cases y n a).1 ▸ h
    exact run_inv hstep (run_inv hstep (reached_shaped history) hrun) hrun'
  obtain ⟨rfl, hrow⟩ := found hd'
  have hsh := hshaped.2 d' (deployment?_eq_some.mp hd').1
  refine ⟨d', hrow, hnewer, fun env b => ?_⟩
  intro answer
  obtain ⟨hdone, hrefused⟩ := press_answered hrow hsh env b
  refine ⟨?_, fun hon => ?_, ?_⟩
  · by_cases ho : d'.Open
    · obtain ⟨reply, row, hok, hrow', hdone'⟩ := hdone ho
      exact Or.inl ⟨ho, by rw [show answer.1 = .ok reply from hok]; rfl, row, hrow', hdone'⟩
    · refine Or.inr ⟨ho, ?_, congrArg Prod.snd (hrefused ho)⟩
      rw [show answer.1 = .error (b.refusal d') from congrArg Prod.fst (hrefused ho)]
      cases b <;> rfl
  · intro ho
    rcases hnewer with rfl | hlater
    · exact absurd ((on_iff hsh b).mp hon).1 ho
    · exact hlater
  · rintro rfl
    refine ⟨?_, warns_iff hrow⟩
    rw [on_iff hsh, ne_eq, press_idle_iff hrow hsh env b]
    tauto

/-- The page is open when somebody rolls the rollout back; then Promote is pressed. -/
theorem buttons_answered_sample :
    ∃ x x' : Page, ∃ d, x.shown = some d ∧ d.status = .canaryRunning ∧
      Button.promote.line ((Button.promote.request "d1").exec (Env.after 20 "unused") x'.server.db).1 =
        .error "Cannot transition deployment from ROLLED_BACK to PROMOTING" := by
  let rollback := ApiCall.lifecycle (Env.after 10 "unused") (.rollback "d1" .manual)
  have hpage : ((run (Page.next "d1") (.start (Tables.empty.after (sampleHistory.take 1)))
      [.serve 0, .deliver 0]).bind fun x => (run (Page.next "d1") x [.server rollback]).bind fun x' =>
        x.shown.bind fun d => (x'.server.db.deployment? "d1").map fun d' => (d.status, d'.status)) =
      some (.canaryRunning, .rolledBack) := by decide +kernel
  obtain ⟨x, hx, h⟩ := Option.bind_eq_some_iff.mp hpage
  obtain ⟨x', hx', h⟩ := Option.bind_eq_some_iff.mp h
  obtain ⟨d, hd, h⟩ := Option.bind_eq_some_iff.mp h
  obtain ⟨d', hd', h⟩ := Option.map_eq_some_iff.mp h
  obtain ⟨hrunning, hrolledBack⟩ := Prod.mk.inj h
  refine ⟨x, x', d, hd, hrunning, ?_⟩
  obtain ⟨d'', hd'', _, hanswers⟩ := buttons_answered "d1" (sampleHistory.take 1) _ _ x x' hx hx' d hd
  rw [hd'] at hd''
  cases hd''
  rcases (hanswers (Env.after 20 "unused") .promote).1 with ⟨ho, _⟩ | ⟨_, hline, _⟩
  · rw [Deployment.Open, hrolledBack] at ho
    cases ho
  · rw [hline, Button.refusal, hrolledBack]
    rfl

end ModelOps
