/-
  File:      ModelOps/Worker/Spacing.lean
  Subject:   One automatic step per evaluation window: how far apart the actions of the worker of
             Worker/Crash.lean are.

  The worker remembers nothing. What spaces its actions is on record: before it evaluates, it asks for
  the newest row, and the rows of its own last evaluation are among those the newest is newest of.
  Manual evaluations add rows and so only make it wait longer; a crash forgets an evaluation, but not
  its rows.

  * `Diary` -- an observer's list of the worker's evaluations and of its actions, each with the number of
    the evaluation it follows;
  * `Spacing` -- the invariant: two evaluations of a deployment are a window apart;
  * **`one_step_per_window`** -- every action has an evaluation of its own, a window after the last one.
-/
import ModelOps.Worker.Crash

namespace ModelOps

open Relational Labelled

/-! ## 1. The observer -/

/-- An evaluation of the worker's: its verdict, and the times of the rows it recorded. -/
structure Judgement where
  deploymentId : String
  verdict : OverallResult
  evaluatedAt : List Time
  deriving DecidableEq

/-- An action of the worker's that reached the control plane, and which of its evaluations came before. -/
structure Deed where
  deploymentId : String
  action : WorkerAction
  basis : Nat
  deriving DecidableEq

structure Diary where
  judged : List Judgement := []
  deeds : List Deed := []
  deriving DecidableEq

def Diary.judge (g : Diary) (j : Judgement) : Diary := { g with judged := g.judged ++ [j] }

/-- The action follows the worker's last evaluation. -/
def Diary.act (g : Diary) (id : String) (action : WorkerAction) : Diary :=
  { g with deeds := g.deeds ++ [⟨id, action, g.judged.length - 1⟩] }

/-- The times of the rows that `t'` has and `t` has not. -/
def Tables.newTimes (t t' : Tables) : List Time :=
  (t'.policyEvaluations.drop t.policyEvaluations.length).map PolicyEvaluation.evaluatedAt

/-- The diary after a step. -/
def Diary.note (w : WorkerState) (l : WorkerLabel) (g : Diary) : Diary :=
  match l, w.task with
  | .evaluate env _, some (.due out) =>
      match (workerEvaluate out.deployment.id).exec env w.tables with
      | (.ok response, t) =>
          g.judge ⟨out.deployment.id, response.overallResult, w.tables.newTimes t⟩
      | (.error _, _) => g
  | .act _ _, some (.decided id action) => g.act id action
  | _, _ => g

/-- The worker and the diary, step by step. -/
def WorkerState.recorded : WorkerState × Diary → WorkerLabel → Option (WorkerState × Diary) :=
  observed WorkerState.next Diary.note

/-- What the worker's checks and its evaluations read of the clock. -/
def WorkerLabel.readings : WorkerLabel → List Time
  | .checkDue now _ => [now]
  | .evaluate env _ => env.clock.readings
  | .call _ | .list | .fetch | .act _ _ | .raise | .crash | .finish => []

/-- The clock does not run backwards. -/
def ClockMonotone (ls : List WorkerLabel) : Prop :=
  ls.Pairwise fun l l' => ∀ τ ∈ l.readings, ∀ τ' ∈ l'.readings, τ ≤ τ'

/-! ## 2. The stored window -/

/-- `evaluation_window_seconds` of the deployment's stored `policy_config`. -/
def Db.window (db : Db) (id : String) : Option Nat :=
  (db.deployment? id).bind fun d => d.policyConfig.map PolicyConfig.evaluationWindowSeconds

section Windows

variable {db : Db} {t : Tables} {id : String} {n : Nat}

theorem window_eq_some : db.window id = some n ↔
    ∃ d p, db.deployment? id = some d ∧ d.policyConfig = some p ∧ p.evaluationWindowSeconds = n := by
  unfold Db.window
  rw [Option.bind_eq_some_iff]
  constructor
  · intro h
    obtain ⟨d, hd, h⟩ := h
    obtain ⟨p, hp, h⟩ := Option.map_eq_some_iff.mp h
    exact ⟨d, p, hd, hp, h⟩
  · intro h
    obtain ⟨d, p, hd, hp, h⟩ := h
    exact ⟨d, hd, Option.map_eq_some_iff.mpr ⟨p, hp, h⟩⟩

/-- No request changes a stored window. -/
theorem window_exec (env : Env) (req : Request) (h : db.window id = some n) :
    (req.exec env db).2.window id = some n := by
  obtain ⟨d, p, hd, hp, hn⟩ := window_eq_some.mp h
  obtain ⟨rfl, hd⟩ := found hd
  refine window_eq_some.mpr ?_
  rcases exec_turns env req hd with ⟨hd', -⟩ | ⟨row, split, events, hturn, hid, hdb⟩
  · exact ⟨d, p, hd', hp, hn⟩
  · refine ⟨row, p, ?_, hturn.amends.policyConfig_eq.trans hp, hn⟩
    rw [hdb, applied_deployment?, if_pos hid.symm]

theorem window_call (c : ApiCall) (h : t.db.window id = some n) :
    (c.exec t).db.window id = some n := by
  rcases call_cases c t with ⟨env, req, rfl⟩ | ⟨events, he, -⟩
  · exact window_exec env req h
  · rw [he]
    exact h

/-- **A deployment that is due has no row within its window.** -/
theorem due_rows {out : DeploymentOut} {now : Time} {default : Nat}
    (h : t.due out now default = true) :
    ∀ r ∈ t.policyEvaluations, r.deploymentId = out.deployment.id →
      r.evaluatedAt + evaluationWindowSeconds out default * 10 ^ 6 ≤ now := by
  intro r hr hid
  have hlisted : r ∈ t.listPolicyEvaluations out.deployment.id :=
    (List.mem_insertionSort _).mpr (List.mem_filter.mpr ⟨hr, decide_eq_true hid⟩)
  have hsorted : (t.listPolicyEvaluations out.deployment.id).Pairwise
      fun r r' => r'.evaluatedAt ≤ r.evaluatedAt := List.pairwise_insertionSort _ _
  unfold Tables.due Tables.lastEvaluatedAt isDueForEvaluation at h
  cases hl : t.listPolicyEvaluations out.deployment.id with
  | nil =>
      rw [hl] at hlisted
      cases hlisted
  | cons newest rest =>
      rw [hl] at h hlisted hsorted
      have hnewest : newest.evaluatedAt + evaluationWindowSeconds out default * 10 ^ 6 ≤ now :=
        of_decide_eq_true h
      have hle : r.evaluatedAt ≤ newest.evaluatedAt := by
        rcases List.mem_cons.mp hlisted with rfl | hrest
        · exact le_refl _
        · exact (List.pairwise_cons.mp hsorted).1 r hrest
      exact (Nat.add_le_add_right hle _).trans hnewest

end Windows

/-! ## 3. The invariant -/

/-- Evaluations of one deployment are its window apart. -/
def WindowApart (db : Db) (j j' : Judgement) : Prop :=
  j.deploymentId = j'.deploymentId → ∀ n, db.window j.deploymentId = some n →
    ∀ τ ∈ j.evaluatedAt, ∀ τ' ∈ j'.evaluatedAt, τ + n * 10 ^ 6 ≤ τ'

/-- The evaluation an action is to follow, or followed. -/
def Judgement.Warrants (j : Judgement) (id : String) (action : WorkerAction) : Prop :=
  j.deploymentId = id ∧ action.verdict = j.verdict

/-- **What is on record spaces the worker's evaluations**; `past` is what its checks and evaluations have
    read of the clock. -/
structure Spacing (past : List Time) (t : Tables) (task : Option Task) (g : Diary) : Prop where
  shaped : Schema t.db ∧ Shaped t.db
  /-- an evaluation is on record, of a deployment with a window -/
  onRecord : ∀ j ∈ g.judged, j.evaluatedAt ≠ [] ∧ (∃ n, t.db.window j.deploymentId = some n) ∧
    ∀ τ ∈ j.evaluatedAt, ∃ r ∈ t.policyEvaluations, r.deploymentId = j.deploymentId ∧
      r.evaluatedAt = τ
  /-- the window that was fetched is the stored one -/
  fetched : ∀ out, task = some (.fetched out) ∨ task = some (.due out) →
    ∃ p, out.deployment.policyConfig = some p ∧
      t.db.window out.deployment.id = some p.evaluationWindowSeconds
  /-- behind a check, the window of every evaluation is over -/
  waited : ∀ out, task = some (.due out) → ∃ c ∈ past, ∀ j ∈ g.judged,
    j.deploymentId = out.deployment.id → ∀ n, t.db.window j.deploymentId = some n →
      ∀ τ ∈ j.evaluatedAt, τ + n * 10 ^ 6 ≤ c
  /-- the action that is next follows the last evaluation, which no action has followed yet -/
  decided : ∀ id action, task = some (.decided id action) →
    (∃ j, g.judged.getLast? = some j ∧ j.Warrants id action) ∧
      ∀ deed ∈ g.deeds, deed.basis + 1 < g.judged.length
  warranted : ∀ deed ∈ g.deeds, ∃ j, g.judged[deed.basis]? = some j ∧
    j.Warrants deed.deploymentId deed.action
  once : g.deeds.Pairwise fun deed deed' => deed.basis < deed'.basis
  apart : g.judged.Pairwise (WindowApart t.db)

section Steps

variable {past : List Time} {t : Tables} {task : Option Task} {g : Diary}

theorem spacing_start : Spacing [] .empty none {} where
  shaped := ⟨schema_empty, shaped_empty⟩
  onRecord _ hj := (List.not_mem_nil hj).elim
  fetched _ h := by rcases h with h | h <;> cases h
  waited _ h := nomatch h
  decided _ _ h := nomatch h
  warranted _ hd := (List.not_mem_nil hd).elim
  once := List.Pairwise.nil
  apart := List.Pairwise.nil

/-- The worker drops its task. -/
theorem Spacing.idle (h : Spacing past t task g) : Spacing past t none g where
  shaped := h.shaped
  onRecord := h.onRecord
  fetched _ ht := by rcases ht with ht | ht <;> cases ht
  waited _ ht := nomatch ht
  decided _ _ ht := nomatch ht
  warranted := h.warranted
  once := h.once
  apart := h.apart

theorem Spacing.later (h : Spacing past t task g) (times : List Time) :
    Spacing (past ++ times) t task g where
  shaped := h.shaped
  onRecord := h.onRecord
  fetched := h.fetched
  waited out ht := by
    obtain ⟨c, hc, hw⟩ := h.waited out ht
    exact ⟨c, List.mem_append_left times hc, hw⟩
  decided := h.decided
  warranted := h.warranted
  once := h.once
  apart := h.apart

/-- The window of a deployment that was evaluated is what it was. -/
theorem window_back {t' : Tables} {id : String} {n n' : Nat}
    (hwindow : ∀ id n, t.db.window id = some n → t'.db.window id = some n)
    (h : t.db.window id = some n) (h' : t'.db.window id = some n') : n' = n :=
  Option.some.inj (h'.symm.trans (hwindow id n h))

/-- Whatever leaves the windows and only adds rows. -/
theorem Spacing.grow {t' : Tables} (h : Spacing past t task g)
    (hshaped : Schema t'.db ∧ Shaped t'.db)
    (hwindow : ∀ id n, t.db.window id = some n → t'.db.window id = some n)
    (hrows : ∀ r ∈ t.policyEvaluations, r ∈ t'.policyEvaluations) : Spacing past t' task g where
  shaped := hshaped
  onRecord j hj := by
    obtain ⟨hne, ⟨n, hn⟩, htimes⟩ := h.onRecord j hj
    refine ⟨hne, ⟨n, hwindow _ _ hn⟩, ?_⟩
    intro τ hτ
    obtain ⟨r, hr, hid, hat⟩ := htimes τ hτ
    exact ⟨r, hrows r hr, hid, hat⟩
  fetched out ht := by
    obtain ⟨p, hp, hn⟩ := h.fetched out ht
    exact ⟨p, hp, hwindow _ _ hn⟩
  waited out ht := by
    obtain ⟨c, hc, hw⟩ := h.waited out ht
    refine ⟨c, hc, ?_⟩
    intro j hj hid n' hn' τ hτ
    obtain ⟨-, ⟨n, hn⟩, -⟩ := h.onRecord j hj
    rw [window_back hwindow hn hn']
    exact hw j hj hid n hn τ hτ
  decided := h.decided
  warranted := h.warranted
  once := h.once
  apart := by
    refine h.apart.imp_of_mem ?_
    intro j j' hj _ hapart hid n' hn' τ hτ
    obtain ⟨-, ⟨n, hn⟩, -⟩ := h.onRecord j hj
    rw [window_back hwindow hn hn']
    exact hapart hid n hn τ hτ

theorem exec_rows (c : ApiCall) : ∀ r ∈ t.policyEvaluations, r ∈ (c.exec t).policyEvaluations := by
  intro r hr
  cases c with
  | lifecycle env req => exact hr
  | pushed now id answer => exact hr
  | reconcile clock gateway => exact hr
  | recordMetric now id payload =>
      simp only [ApiCall.exec]
      split <;> exact hr
  | ingestLabel now payload => exact hr
  | evaluate env req =>
      show r ∈ (req.exec env t).2.policyEvaluations
      rcases evaluate_cases env req t with ⟨e, h⟩ | ⟨d, _, _, h⟩
      · rw [h]
        exact hr
      · rw [h]
        exact List.mem_append_left _ hr

/-- A call of somebody else, a manual evaluation among them. -/
theorem Spacing.call (h : Spacing past t task g) (c : ApiCall) : Spacing past (c.exec t) task g :=
  h.grow (after_shaped [c] h.shaped) (fun _ _ => window_call c) (exec_rows c)

theorem Spacing.fetch {id : String} {out : DeploymentOut} (h : Spacing past t none g)
    (hout : t.db.deploymentOut? id = some out) : Spacing past t (some (.fetched out)) g where
  shaped := h.shaped
  onRecord := h.onRecord
  fetched out' ht := by
    obtain ⟨d, hd, rfl⟩ := Option.map_eq_some_iff.mp hout
    obtain ⟨rfl, hd⟩ := found hd
    rcases ht with ht | ht
    · cases ht
      obtain ⟨p, hp, -⟩ := (h.shaped.2 d (deployment?_eq_some.mp hd).1).policy
      exact ⟨p, hp, window_eq_some.mpr ⟨d, p, hd, hp, rfl⟩⟩
    · cases ht
  waited _ ht := nomatch ht
  decided _ _ ht := nomatch ht
  warranted := h.warranted
  once := h.once
  apart := h.apart

/-- **A check that finds the deployment due** finds every evaluation of it a window ago. -/
theorem Spacing.check {out : DeploymentOut} {now : Time} {default : Nat}
    (h : Spacing past t (some (.fetched out)) g) (hdue : t.due out now default = true) :
    Spacing (past ++ [now]) t (some (.due out)) g where
  shaped := h.shaped
  onRecord := h.onRecord
  fetched out' ht := by
    rcases ht with ht | ht
    · cases ht
    · cases ht
      exact h.fetched out (Or.inl rfl)
  waited out' ht := by
    cases ht
    obtain ⟨p, hp, hwindow⟩ := h.fetched out (Or.inl rfl)
    refine ⟨now, List.mem_append_right _ (List.mem_singleton_self now), ?_⟩
    intro j hj hid n hn τ hτ
    obtain ⟨-, -, htimes⟩ := h.onRecord j hj
    obtain ⟨r, hr, hrid, rfl⟩ := htimes τ hτ
    have hover := due_rows hdue r hr (hrid.trans hid)
    rw [hid, hwindow] at hn
    cases hn
    simpa only [evaluationWindowSeconds, hp] using hover
  decided _ _ ht := nomatch ht
  warranted := h.warranted
  once := h.once
  apart := h.apart

/-- A deed's evaluation is one of those on the list. -/
theorem Spacing.basis_lt (h : Spacing past t task g) {deed : Deed} (hd : deed ∈ g.deeds) :
    deed.basis < g.judged.length := by
  obtain ⟨j, hj, -⟩ := h.warranted deed hd
  exact (List.getElem?_eq_some_iff.mp hj).1

/-- **An evaluation behind its check** is a window after every earlier one. -/
theorem Spacing.judge {out : DeploymentOut} {d : Deployment} {c : EvaluationClock}
    {config : PolicyConfig} {v : OverallResult} {task' : Option Task}
    (h : Spacing past t (some (.due out)) g) (hid : d.id = out.deployment.id)
    (hclock : ∀ τ ∈ past, ∀ τ' ∈ c.readings, τ ≤ τ')
    (htask : task' = none ∨ ∃ full, task' = some (.decided out.deployment.id (decideAction v full))) :
    Spacing (past ++ c.readings) (t.recorded (t.evaluationRows c d config)) task'
      (g.judge ⟨out.deployment.id, v,
        (t.evaluationRows c d config).map PolicyEvaluation.evaluatedAt⟩) := by
  have hgrown : Spacing past (t.recorded (t.evaluationRows c d config)) (some (.due out)) g :=
    h.grow h.shaped (fun _ _ hn => hn) (fun r hr => List.mem_append_left _ hr)
  obtain ⟨p, hp, hwindow⟩ := h.fetched out (Or.inr rfl)
  constructor
  · exact h.shaped
  · intro j hj
    rcases List.mem_append.mp hj with hj | hj
    · exact hgrown.onRecord j hj
    · rw [List.mem_singleton.mp hj]
      refine ⟨?_, ⟨_, hwindow⟩, ?_⟩
      · intro hnil
        exact evaluationRows_ne_nil (List.map_eq_nil_iff.mp hnil)
      · intro τ hτ
        obtain ⟨r, hr, rfl⟩ := List.mem_map.mp hτ
        exact ⟨r, List.mem_append_right _ hr, (evaluationRows_mem hr).1.trans hid, rfl⟩
  · intro out' ht
    rcases htask with rfl | ⟨full, rfl⟩ <;> rcases ht with ht | ht <;> cases ht
  · intro out' ht
    rcases htask with rfl | ⟨full, rfl⟩ <;> cases ht
  · intro id action ht
    rcases htask with rfl | ⟨full, rfl⟩
    · cases ht
    · cases ht
      refine ⟨⟨_, List.getLast?_concat, rfl, decideAction_verdict v full⟩, ?_⟩
      intro deed hdeed
      have hlt := h.basis_lt hdeed
      show deed.basis + 1 < (g.judged ++ [_]).length
      rw [List.length_append, List.length_singleton]
      omega
  · intro deed hdeed
    obtain ⟨j, hj, hw⟩ := h.warranted deed hdeed
    exact ⟨j, (List.getElem?_append_left (h.basis_lt hdeed)).trans hj, hw⟩
  · exact h.once
  · refine List.pairwise_append.mpr ⟨h.apart, List.pairwise_singleton _ _, ?_⟩
    intro j hj j' hj' hsame n hn τ hτ τ' hτ'
    rw [List.mem_singleton.mp hj'] at hsame hτ'
    obtain ⟨checked, hchecked, hover⟩ := h.waited out rfl
    obtain ⟨r, hr, rfl⟩ := List.mem_map.mp hτ'
    exact (hover j hj hsame n hn τ hτ).trans (hclock checked hchecked _ (evaluationRows_mem hr).2)

/-- An action follows an evaluation that none has followed. -/
theorem Spacing.act {id : String} {action : WorkerAction}
    (h : Spacing past t (some (.decided id action)) g) : Spacing past t none (g.act id action) := by
  obtain ⟨⟨j, hj, hwarrants⟩, hnew⟩ := h.decided id action rfl
  have hidle := h.idle
  constructor
  · exact hidle.shaped
  · exact hidle.onRecord
  · exact hidle.fetched
  · exact hidle.waited
  · exact fun _ _ ht => nomatch ht
  · intro deed hdeed
    rcases List.mem_append.mp hdeed with hdeed | hdeed
    · exact h.warranted deed hdeed
    · rw [List.mem_singleton.mp hdeed]
      exact ⟨j, List.getLast?_eq_getElem?.symm.trans hj, hwarrants⟩
  · refine List.pairwise_append.mpr ⟨h.once, List.pairwise_singleton _ _, ?_⟩
    intro deed hdeed deed' hdeed'
    have hlt := hnew deed hdeed
    rw [List.mem_singleton.mp hdeed']
    show deed.basis < g.judged.length - 1
    omega
  · exact hidle.apart

end Steps

/-! ## 4. Every run -/

section Run

variable {past : List Time} {w : WorkerState} {g : Diary} {l : WorkerLabel}
  {x' : WorkerState × Diary}

/-- The invariant of the worker and its diary. -/
def SpacedOut (past : List Time) (x : WorkerState × Diary) : Prop :=
  Spacing past x.1.tables x.1.task x.2

/-- The times of the rows an evaluation has recorded. -/
theorem newTimes_recorded (t : Tables) (rows : List PolicyEvaluation) :
    t.newTimes (t.recorded rows) = rows.map PolicyEvaluation.evaluatedAt := by
  unfold Tables.newTimes Tables.recorded
  rw [List.drop_left]

theorem spacing_evaluate {env : EvaluationEnv} {answered : Bool} (h : SpacedOut past (w, g))
    (hclock : ∀ τ ∈ past, ∀ τ' ∈ env.clock.readings, τ ≤ τ')
    (hn : WorkerState.recorded (w, g) (.evaluate env answered) = some x') :
    SpacedOut (past ++ env.clock.readings) x' := by
  obtain ⟨w', g'⟩ := x'
  obtain ⟨hn, hg⟩ := observed_eq_some.mp hn
  dsimp only at hg
  simp only [WorkerState.next] at hn
  split at hn
  · rename_i out ht
    have hdue : Spacing past w.tables (some (.due out)) g := ht ▸ h
    rcases evaluate_cases env (workerEvaluate out.deployment.id) w.tables with
      ⟨e, hexec⟩ | ⟨d, hd, ha, hexec⟩
    · rw [hexec] at hn
      cases hn
      have hnote : Diary.note w (.evaluate env answered) g = g := by
        simp only [Diary.note, ht, hexec]
      rw [hg, hnote]
      exact hdue.idle.later _
    · rw [hexec] at hn
      cases hn
      have hid : d.id = out.deployment.id := (found hd).1.symm
      rw [hg]
      simp only [Diary.note, ht, hexec, newTimes_recorded]
      refine hdue.judge hid hclock ?_
      cases answered with
      | false => exact Or.inl rfl
      | true => exact Or.inr ⟨_, rfl⟩
  · cases hn

/-- **A step of the worker, or of anybody else, keeps the evaluations spaced.** -/
theorem spacing_step (h : SpacedOut past (w, g)) (hclock : ∀ τ ∈ past, ∀ τ' ∈ l.readings, τ ≤ τ')
    (hx : WorkerState.recorded (w, g) l = some x') : SpacedOut (past ++ l.readings) x' := by
  obtain ⟨w', g'⟩ := x'
  obtain ⟨hn, hg⟩ := observed_eq_some.mp hx
  dsimp only at hn hg
  rw [hg]
  cases l with
  | evaluate env answered => exact hg ▸ spacing_evaluate h hclock hx
  | checkDue now default =>
      simp only [WorkerState.next] at hn
      split at hn
      · rename_i out ht
        have hfetched : Spacing past w.tables (some (.fetched out)) g := ht ▸ h
        split at hn
        · rename_i hdue
          cases hn
          exact hfetched.check hdue
        · cases hn
          exact hfetched.idle.later [now]
      · cases hn
  | act env answered =>
      simp only [WorkerState.next] at hn
      split at hn
      · rename_i id action ht
        have hdecided : Spacing past w.tables (some (.decided id action)) g := ht ▸ h
        cases hn
        simp only [Diary.note, ht]
        exact (hdecided.act.call (.lifecycle env (action.request id))).later []
      · cases hn
  | fetch =>
      simp only [WorkerState.next] at hn
      split at hn
      · rename_i id rest ht hr
        have hnone : Spacing past w.tables none g := ht ▸ h
        cases hout : w.tables.db.deploymentOut? id with
        | none =>
            rw [hout] at hn
            cases hn
            exact h.later []
        | some out =>
            rw [hout] at hn
            dsimp only at hn
            split at hn
            · cases hn
              exact (hnone.fetch hout).later []
            · cases hn
              exact h.later []
      · cases hn
  | call c =>
      cases hn
      exact (Spacing.call h c).later []
  | list =>
      simp only [WorkerState.next] at hn
      split at hn
      · cases hn
      · cases hn
        exact (Spacing.idle h).later []
  | raise =>
      simp only [WorkerState.next] at hn
      split at hn
      · cases hn
        exact (Spacing.idle h).later []
      · cases hn
        exact Spacing.later h []
      · cases hn
  | crash =>
      cases hn
      exact (Spacing.idle h).later []
  | finish =>
      simp only [WorkerState.next] at hn
      split at hn
      · split at hn
        · cases hn
          exact Spacing.later h []
        · cases hn
      · cases hn

theorem spacing_run (ls : List WorkerLabel) {x : WorkerState × Diary} (h : SpacedOut past x)
    (hpast : ∀ τ ∈ past, ∀ l ∈ ls, ∀ τ' ∈ l.readings, τ ≤ τ') (hclock : ClockMonotone ls)
    (hr : run WorkerState.recorded x ls = some x') :
    SpacedOut (past ++ ls.flatMap WorkerLabel.readings) x' := by
  induction ls generalizing past x with
  | nil =>
      cases hr
      exact h.later []
  | cons l ls ih =>
      rw [run_cons] at hr
      obtain ⟨hfirst, hrest⟩ := List.pairwise_cons.mp hclock
      cases hn : WorkerState.recorded x l with
      | none =>
          rw [hn] at hr
          cases hr
      | some x1 =>
          rw [hn] at hr
          have hstep : SpacedOut (past ++ l.readings) x1 :=
            spacing_step h (fun τ hτ => hpast τ hτ l List.mem_cons_self) hn
          rw [List.flatMap_cons, ← List.append_assoc]
          refine ih hstep ?_ hrest hr
          intro τ hτ l' hl' τ' hτ'
          rcases List.mem_append.mp hτ with hτ | hτ
          · exact hpast τ hτ l' (List.mem_cons_of_mem l hl') τ' hτ'
          · exact hfirst l' hl' τ hτ τ' hτ'

/-- What the diary of a run shows: every action follows an evaluation with the matching verdict, no two
    follow the same, and those of one deployment are its stored window apart. -/
structure OnePerWindow (x : WorkerState × Diary) : Prop where
  own : ∀ deed ∈ x.2.deeds, ∃ j, x.2.judged[deed.basis]? = some j ∧
    j.Warrants deed.deploymentId deed.action ∧ j.evaluatedAt ≠ []
  stored : ∀ deed ∈ x.2.deeds, ∃ d p, x.1.tables.db.deployment? deed.deploymentId = some d ∧
    d.policyConfig = some p
  once : x.2.deeds.Pairwise fun deed deed' => deed.basis < deed'.basis
  spaced : x.2.deeds.Pairwise fun deed deed' => deed.deploymentId = deed'.deploymentId →
    ∀ d p, x.1.tables.db.deployment? deed.deploymentId = some d → d.policyConfig = some p →
      ∀ j j', x.2.judged[deed.basis]? = some j → x.2.judged[deed'.basis]? = some j' →
        ∀ τ ∈ j.evaluatedAt, ∀ τ' ∈ j'.evaluatedAt,
          τ + p.evaluationWindowSeconds * 10 ^ 6 ≤ τ'

/-- The evaluation behind a deed has rows, and its deployment a window. -/
theorem Spacing.basis {task : Option Task} {t : Tables} (h : Spacing past t task g) {deed : Deed}
    (hdeed : deed ∈ g.deeds) : ∃ j, g.judged[deed.basis]? = some j ∧
      j.Warrants deed.deploymentId deed.action ∧ j.evaluatedAt ≠ [] ∧
      ∃ n, t.db.window deed.deploymentId = some n := by
  obtain ⟨j, hj, hwarrants⟩ := h.warranted deed hdeed
  obtain ⟨hne, hwindow, -⟩ := h.onRecord j (List.mem_of_getElem? hj)
  rw [hwarrants.1] at hwindow
  exact ⟨j, hj, hwarrants, hne, hwindow⟩

/-- Of two evaluations, the later one on the list is the window later. -/
theorem Spacing.apart_at {task : Option Task} {t : Tables} (h : Spacing past t task g) {i i' : Nat}
    {j j' : Judgement} (hlt : i < i') (hj : g.judged[i]? = some j) (hj' : g.judged[i']? = some j') :
    WindowApart t.db j j' := by
  obtain ⟨hi, rfl⟩ := List.getElem?_eq_some_iff.mp hj
  obtain ⟨hi', rfl⟩ := List.getElem?_eq_some_iff.mp hj'
  exact List.pairwise_iff_getElem.mp h.apart i i' hi hi' hlt

theorem spacing_onePerWindow {x : WorkerState × Diary} (h : SpacedOut past x) : OnePerWindow x where
  own deed hdeed := by
    obtain ⟨j, hj, hwarrants, hne, -⟩ := Spacing.basis h hdeed
    exact ⟨j, hj, hwarrants, hne⟩
  stored deed hdeed := by
    obtain ⟨-, -, -, -, n, hn⟩ := Spacing.basis h hdeed
    obtain ⟨d, p, hd, hp, -⟩ := window_eq_some.mp hn
    exact ⟨d, p, hd, hp⟩
  once := h.once
  spaced := by
    refine h.once.imp_of_mem ?_
    intro deed deed' hdeed hdeed' hlt hsame d p hd hp j j' hj hj' τ hτ τ' hτ'
    obtain ⟨k, hk, hwarrants, -⟩ := Spacing.basis h hdeed
    obtain ⟨k', hk', hwarrants', -⟩ := Spacing.basis h hdeed'
    cases hj.symm.trans hk
    cases hj'.symm.trans hk'
    have hid : j.deploymentId = j'.deploymentId :=
      hwarrants.1.trans (hsame.trans hwarrants'.1.symm)
    have hwindow : x.1.tables.db.window j.deploymentId = some p.evaluationWindowSeconds :=
      window_eq_some.mpr ⟨d, p, hwarrants.1 ▸ hd, hp, rfl⟩
    exact Spacing.apart_at h hlt hj hj' hid _ hwindow τ hτ τ' hτ'

/-- **One automatic step per evaluation window**, in every run of the worker with crashes, lost requests
    and lost answers, and with any calls of others, manual evaluations among them. -/
theorem one_step_per_window (ls : List WorkerLabel) (hclock : ClockMonotone ls)
    (x : WorkerState × Diary)
    (hrun : run WorkerState.recorded ({ tables := .empty }, {}) ls = some x) : OnePerWindow x := by
  have hstart : SpacedOut [] ({ tables := .empty }, {}) := spacing_start
  have hnone : ∀ τ ∈ ([] : List Time), ∀ l ∈ ls, ∀ τ' ∈ l.readings, τ ≤ τ' :=
    fun _ hτ => (List.not_mem_nil hτ).elim
  exact spacing_onePerWindow (spacing_run ls hstart hnone hclock hrun)

end Run

/-- `d1` is judged without any request served, at 20 and again behind its window; the worker crashes in
    between, and an operator evaluates `d1` by hand. -/
def sampleSweeps : List WorkerLabel :=
  [.call (.lifecycle (Env.after 0 "d1") (.create (sampleCreate "fraud-model") none)),
    .list, .fetch, .checkDue 20 300, sampleVerdict 20, .act (Env.after 30 "unused") true, .crash,
    .call (.evaluate ⟨⟨41, 42, 43, 44, []⟩, samplePolicy⟩ (workerEvaluate "d1")),
    .list, .fetch, .checkDue 400000000 300, sampleVerdict 400000000,
    .act (Env.after 400000010 "unused") true, .finish]

theorem one_step_per_window_sample :
    ∃ x, run WorkerState.recorded ({ tables := .empty }, {}) sampleSweeps = some x ∧
      x.2.deeds.length = 2 ∧ OnePerWindow x := by
  have hrun : ((run WorkerState.recorded ({ tables := .empty }, {}) sampleSweeps).map
      fun x => x.2.deeds.length) = some 2 := by decide +kernel
  obtain ⟨x, hx, hdeeds⟩ := Option.map_eq_some_iff.mp hrun
  have hclock : ClockMonotone sampleSweeps := by
    unfold ClockMonotone
    decide
  exact ⟨x, hx, hdeeds, one_step_per_window sampleSweeps hclock x hx⟩

end ModelOps
