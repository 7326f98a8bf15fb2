/-
  File:      ModelOps/Worker/Hold.lean
  Subject:   The automation hold, over a worker whose API calls interleave with other requests.

  `run_once` reads `automation_paused` in its listing and never again; `process_deployment` then makes
  up to four calls for each deployment listed, and no endpoint it calls looks at the flag.
  `Sweep.next` is one of these calls, or one request of somebody else; `Posts.next` adds the POST of an
  action that takes effect when its client has given up on it or has died. The reconcile call that
  opens a sweep writes events only (`reconcile_grown`) and is left out here.

  * `process_run` -- the calls for one deployment, made without a break, are `processDeployment`;
  * **`hold_respected`** -- where no pause commits on a deployment that a sweep has listed and not
    finished, or that a POST of the worker is still on its way to, no action of the worker commits on a
    paused one;
  * `hold_missed` -- and otherwise it does.
-/
import ModelOps.Lib.Transition
import ModelOps.Worker.Loop
import Mathlib.Data.List.Sort

namespace ModelOps

open Relational Labelled

/-! ## 1. A sweep -/

/-- The next call of `process_deployment`. -/
inductive Task where
  /-- the deployment was fetched and is active: GET policy-evaluations -/
  | fetched (out : DeploymentOut)
  /-- it is due: POST evaluate -/
  | due (out : DeploymentOut)
  /-- the action is chosen: its POST -/
  | decided (id : String) (action : WorkerAction)

def Task.id : Task → String
  | .fetched out => out.deployment.id
  | .due out => out.deployment.id
  | .decided id _ => id

/-- The tables, and where `run_once` stands in its list. -/
structure Sweep where
  db : Db
  task : Option Task := none
  remaining : List String := []

/-- What the sweep has listed and not finished. -/
def Sweep.listed (w : Sweep) : List String := (w.task.map Task.id).toList ++ w.remaining

/-- `list_deployments`, and the filter of `run_once`. -/
def Db.activeIds (db : Db) : List String :=
  ((db.deployments.rows.insertionSort fun d d' => d'.createdAt ≤ d.createdAt).filter fun d =>
    d.status.active && !d.automationPaused).map Deployment.id

inductive SweepLabel where
  /-- a request of somebody else -/
  | request (env : Env) (req : Request)
  | list
  | fetch
  | checkDue (c : Cycle)
  | evaluate (overallResult : OverallResult)
  | act (env : Env)
  /-- a call raised: the sweep goes on with the next deployment -/
  | skip
  /-- the worker's process starts again -/
  | restart

/-- A request, or a call of the worker that takes effect before the worker goes on. -/
def Sweep.next (w : Sweep) : SweepLabel → Option Sweep
  | .request env req => some { w with db := (req.exec env w.db).2 }
  | .list =>
      match w.task, w.remaining with
      | none, [] => some { w with remaining := w.db.activeIds }
      | _, _ => none
  | .fetch =>
      match w.task, w.remaining with
      | none, id :: rest =>
          match w.db.deploymentOut? id with
          | some out =>
              if out.deployment.status.active then
                some { w with task := some (.fetched out), remaining := rest }
              else some { w with remaining := rest }
          | none => some { w with remaining := rest }
      | _, _ => none
  | .checkDue c =>
      match w.task with
      | some (.fetched out) =>
          if c.due out then some { w with task := some (.due out) } else some { w with task := none }
      | _ => none
  | .evaluate overallResult =>
      match w.task with
      | some (.due out) =>
          match evaluateDeployment w.db out.deployment.id overallResult with
          | .ok overallResult =>
              some { w with task := some (.decided out.deployment.id
                (decideAction overallResult (canaryAtFullTraffic out))) }
          | .error _ => some { w with task := none }
      | _ => none
  | .act env =>
      match w.task with
      | some (.decided id action) =>
          some { w with db := ((action.request id).exec env w.db).2, task := none }
      | _ => none
  | .skip => some { w with task := none }
  | .restart => some { w with task := none, remaining := [] }

/-- A sweep, and the POSTs of its actions that nobody waits for any more and that have not taken effect:
    each with its deployment. -/
structure Posts extends Sweep where
  late : List (String × WorkerAction) := []

/-- What the worker may still act on. -/
def Posts.pending (w : Posts) : List String := w.listed ++ w.late.map Prod.fst

inductive PostsLabel where
  | sweep (l : SweepLabel)
  /-- the client's time-out, or the end of the worker's process: the action's POST is still on its way -/
  | giveUp
  /-- a POST that nobody waits for takes effect; one that never does is lost -/
  | arrive (i : Nat) (env : Env)

def Posts.next (w : Posts) : PostsLabel → Option Posts
  | .sweep l => (w.toSweep.next l).map fun s => { w with toSweep := s }
  | .giveUp =>
      match w.task with
      | some (.decided id action) =>
          some { w with task := none, late := w.late ++ [(id, action)] }
      | _ => none
  | .arrive i env =>
      (w.late[i]?).map fun post =>
        { w with db := ((post.2.request post.1).exec env w.db).2, late := w.late.eraseIdx i }

/-- The deployment a pause request is about. -/
def Request.pauses : Request → Option String
  | .pauseAutomation id _ => some id
  | _ => none

def PostsLabel.pauses : PostsLabel → Option String
  | .sweep (.request _ req) => req.pauses
  | _ => none

/-- No pause commits on a deployment that the worker may still act on. -/
def PausesApart (w : Posts) (l : PostsLabel) (_ : Posts) : Prop :=
  ∀ id ∈ l.pauses, ∀ d ∈ w.db.deployment? id, d.status.terminal = false → id ∉ w.pending

/-- The worker's POST that takes effect in the step. -/
def Posts.acting (w : Posts) : PostsLabel → Option (Env × String × WorkerAction)
  | .sweep (.act env) =>
      match w.task with
      | some (.decided id action) => some (env, id, action)
      | _ => none
  | .arrive i env => (w.late[i]?).map fun post => (env, post)
  | _ => none

/-- If the action commits, its deployment is not paused. -/
def CommitsUnpaused (db : Db) (env : Env) (post : String × WorkerAction) : Prop :=
  ((post.2.request post.1).exec env db).1.isOk = true →
    ∀ d ∈ db.deployment? post.1, d.automationPaused = false

/-- An action of the worker that commits finds its deployment unpaused. -/
def ActsUnpaused (w : Posts) (l : PostsLabel) (_ : Posts) : Prop :=
  ∀ x ∈ w.acting l, CommitsUnpaused w.db x.1 x.2

section Decide

variable (w : Posts) (l : PostsLabel) (w' : Posts)

instance : Decidable (PausesApart w l w') :=
  inferInstanceAs (Decidable (∀ _ ∈ _, ∀ _ ∈ _, _ → _))

instance (db : Db) (env : Env) (post : String × WorkerAction) :
    Decidable (CommitsUnpaused db env post) :=
  inferInstanceAs (Decidable (_ → ∀ _ ∈ _, _))

instance : Decidable (ActsUnpaused w l w') :=
  inferInstanceAs (Decidable (∀ _ ∈ _, _))

end Decide

/-! ## 2. One step -/

/-- The deployment is there and not paused. -/
def Unpaused (db : Db) (id : String) : Prop :=
  ∃ d, db.deployment? id = some d ∧ d.automationPaused = false

section Step

variable {w w' : Sweep} {l : SweepLabel} {db : Db} {id : String}

/-- **Only a pause pauses**: any other request leaves an unpaused deployment unpaused. -/
theorem unpaused_exec {env : Env} {req : Request} (h : Unpaused db id)
    (hno : req.pauses = some id → ∀ d, db.deployment? id = some d → d.status.terminal = true) :
    Unpaused (req.exec env db).2 id := by
  obtain ⟨d, hd, hp⟩ := h
  obtain ⟨rfl, hd⟩ := found hd
  rcases exec_turns env req hd with ⟨hd', _⟩ | ⟨row, split, events, hturn, hid, hdb⟩
  · exact ⟨d, hd', hp⟩
  · refine ⟨row, by rw [hdb, applied_deployment?, if_pos hid.symm], ?_⟩
    cases hturn with
    | resolved | advanced | cycled | frozen => exact hp
    | flagged hreq ht hflag =>
        cases hreq with
        | resume => rfl
        | pause =>
            have hterminal := hno rfl _ hd
            rw [ht] at hterminal
            cases hterminal

theorem unpaused_of_listed (h : id ∈ db.activeIds) : Unpaused db id := by
  obtain ⟨d, hd, rfl⟩ := List.mem_map.mp h
  obtain ⟨hmem, hp⟩ := List.mem_filter.mp hd
  simp only [Bool.and_eq_true, Bool.not_eq_true'] at hp
  exact ⟨d, Table.mem_iff_get?.mp ((List.mem_insertionSort _).mp hmem), hp.2⟩

/-- **What a step of the sweep does**: a request, a listing, an action, or a call that changes nothing
    but where the sweep stands. -/
inductive Sweep.Step (w : Sweep) : SweepLabel → Sweep → Prop where
  | request (env : Env) (req : Request) :
      Step w (.request env req) { w with db := (req.exec env w.db).2 }
  | list (ht : w.task = none) : Step w .list { w with remaining := w.db.activeIds }
  | act {env : Env} {id : String} {action : WorkerAction} (ht : w.task = some (.decided id action)) :
      Step w (.act env) { w with db := ((action.request id).exec env w.db).2, task := none }
  | move {l : SweepLabel} {w' : Sweep} (hact : ∀ env, l ≠ .act env) (hdb : w'.db = w.db)
      (hsub : ∀ id ∈ w'.listed, id ∈ w.listed) : Step w l w'

/-- A sweep that gives up its task, and perhaps more, has less to finish. -/
theorem listed_dropped {db : Db} {rest : List String} (hrest : ∀ id ∈ rest, id ∈ w.remaining) :
    ∀ id ∈ (Sweep.mk db none rest).listed, id ∈ w.listed := by
  intro id hid
  exact List.mem_append.mpr (Or.inr (hrest id hid))

/-- A sweep that goes on with its deployment has the same to finish. -/
theorem listed_kept {t t' : Task} (ht : w.task = some t) (hid : t'.id = t.id) :
    ∀ id ∈ ({ w with task := some t' } : Sweep).listed, id ∈ w.listed := by
  intro id h
  unfold Sweep.listed at h ⊢
  rw [ht]
  simp only [Option.map_some, hid] at h
  exact h

theorem sweep_cases (h : Sweep.next w l = some w') : Sweep.Step w l w' := by
  have hsame : ∀ id ∈ w.remaining, id ∈ w.remaining := fun _ h => h
  cases l with
  | request env req =>
      cases h
      exact .request env req
  | list =>
      simp only [Sweep.next] at h
      split at h
      · rename_i ht hr
        cases h
        exact .list ht
      · cases h
  | fetch =>
      simp only [Sweep.next] at h
      split at h
      · rename_i id rest ht hr
        have hrest : ∀ id' ∈ rest, id' ∈ w.remaining := by
          intro id' hid
          rw [hr]
          exact List.mem_cons_of_mem id hid
        split at h
        · rename_i out hout
          split at h
          · cases h
            refine .move (by simp) rfl ?_
            obtain ⟨d, hd, rfl⟩ := Option.map_eq_some_iff.mp hout
            intro id' hid
            rcases List.mem_append.mp hid with hid | hid
            · have hfirst : id' = d.id := by simpa [Task.id] using hid
              refine List.mem_append.mpr (Or.inr ?_)
              rw [hr, hfirst, (found hd).1]
              exact List.mem_cons_self
            · exact List.mem_append.mpr (Or.inr (hrest id' hid))
          · cases h
            rw [ht]
            exact .move (by simp) rfl (listed_dropped hrest)
        · cases h
          rw [ht]
          exact .move (by simp) rfl (listed_dropped hrest)
      · cases h
  | checkDue c =>
      simp only [Sweep.next] at h
      split at h
      · rename_i out ht
        split at h
        · cases h
          exact .move (by simp) rfl (listed_kept ht rfl)
        · cases h
          exact .move (by simp) rfl (listed_dropped hsame)
      · cases h
  | evaluate overallResult =>
      simp only [Sweep.next] at h
      split at h
      · rename_i out ht
        split at h
        · cases h
          exact .move (by simp) rfl (listed_kept ht rfl)
        · cases h
          exact .move (by simp) rfl (listed_dropped hsame)
      · cases h
  | act env =>
      simp only [Sweep.next] at h
      split at h
      · rename_i id action ht
        cases h
        exact .act ht
      · cases h
  | skip =>
      cases h
      exact .move (by simp) rfl (listed_dropped hsame)
  | restart =>
      cases h
      exact .move (by simp) rfl (listed_dropped fun id hid => (List.not_mem_nil hid).elim)

/-- Everything the worker may still act on is unpaused. -/
def AllUnpaused (w : Posts) : Prop := ∀ id ∈ w.pending, Unpaused w.db id

/-- The worker's own requests pause nothing. -/
theorem worker_pauses (action : WorkerAction) (id : String) : (action.request id).pauses = none := by
  cases action <;> rfl

/-- A worker's action leaves unpaused what is. -/
theorem unpaused_act (env : Env) (post : String × WorkerAction) (h : Unpaused db id) :
    Unpaused ((post.2.request post.1).exec env db).2 id := by
  refine unpaused_exec h ?_
  intro hpauses
  rw [worker_pauses] at hpauses
  cases hpauses

/-- An action on what is unpaused. -/
theorem commits_unpaused {env : Env} {post : String × WorkerAction} (h : Unpaused db post.1) :
    CommitsUnpaused db env post := by
  intro _ d hd
  obtain ⟨d', hd', hp⟩ := h
  rw [Option.mem_def.mp hd] at hd'
  cases hd'
  exact hp

section Pending

variable {w w' : Posts} {l : PostsLabel} {s : Sweep}

theorem mem_pending : id ∈ w.pending ↔ id ∈ w.listed ∨ ∃ post ∈ w.late, post.1 = id := by
  unfold Posts.pending
  rw [List.mem_append, List.mem_map]

/-- The steps of the sweep, while its late POSTs stay as they are. -/
theorem sweeping_step {l : SweepLabel} (hi : AllUnpaused w) (hapart : PausesApart w (.sweep l) w')
    (hn : w.toSweep.next l = some s) :
    AllUnpaused { w with toSweep := s } ∧ ActsUnpaused w (.sweep l) w' := by
  have hlate : ∀ post ∈ w.late, Unpaused w.db post.1 := fun post hpost =>
    hi _ (mem_pending.mpr (Or.inr ⟨post, hpost, rfl⟩))
  have hlisted : ∀ id ∈ w.listed, Unpaused w.db id := fun id hid =>
    hi id (mem_pending.mpr (Or.inl hid))
  cases sweep_cases hn with
  | request env req =>
      refine ⟨?_, fun x hx => by cases hx⟩
      intro id hid
      refine unpaused_exec (hi id hid) ?_
      intro hpauses d hd
      -- a pause of a listed rollout would have committed
      by_contra hopen
      exact hapart id hpauses d hd (by simpa using hopen) hid
  | list ht =>
      refine ⟨?_, fun x hx => by cases hx⟩
      intro id hid
      rcases mem_pending.mp hid with hid | ⟨post, hpost, rfl⟩
      · rcases List.mem_append.mp hid with hid | hid
        · rw [ht] at hid
          cases hid
        · exact unpaused_of_listed hid
      · exact hlate post hpost
  | @act env id action ht =>
      refine ⟨?_, ?_⟩
      · intro id' hid
        rcases mem_pending.mp hid with hid | ⟨post, hpost, rfl⟩
        · exact unpaused_act env (id, action) (hlisted id' (listed_dropped (fun _ h => h) id' hid))
        · exact unpaused_act env (id, action) (hlate post hpost)
      · intro x hx
        simp only [Posts.acting, ht, Option.mem_some_iff] at hx
        subst hx
        refine commits_unpaused (hlisted id ?_)
        unfold Sweep.listed
        rw [ht]
        exact List.mem_cons_self
  | move hact hdb hsub =>
      refine ⟨?_, ?_⟩
      · intro id hid
        show Unpaused s.db id
        rw [hdb]
        rcases mem_pending.mp hid with hid | ⟨post, hpost, rfl⟩
        · exact hlisted id (hsub id hid)
        · exact hlate post hpost
      · intro x hx
        cases l with
        | act env => exact absurd rfl (hact env)
        | _ => cases hx

/-- **A step without such a pause keeps what is pending unpaused, and acts on nothing paused.** -/
theorem posts_step (hi : AllUnpaused w) (hapart : PausesApart w l w')
    (hn : Posts.next w l = some w') : AllUnpaused w' ∧ ActsUnpaused w l w' := by
  cases l with
  | sweep l =>
      obtain ⟨s, hs, rfl⟩ := Option.map_eq_some_iff.mp hn
      exact sweeping_step hi hapart hs
  | giveUp =>
      simp only [Posts.next] at hn
      split at hn
      · rename_i id action ht
        cases hn
        refine ⟨?_, fun x hx => by cases hx⟩
        intro id' hid
        refine hi id' (mem_pending.mpr ?_)
        -- what was decided is late now
        rcases mem_pending.mp hid with hid | ⟨post, hpost, rfl⟩
        · exact Or.inl (listed_dropped (fun _ h => h) id' hid)
        · rcases List.mem_append.mp hpost with hpost | hpost
          · exact Or.inr ⟨post, hpost, rfl⟩
          · rw [List.mem_singleton.mp hpost]
            refine Or.inl ?_
            unfold Sweep.listed
            rw [ht]
            exact List.mem_cons_self
      · cases hn
  | arrive i env =>
      obtain ⟨post, hpost, rfl⟩ := Option.map_eq_some_iff.mp hn
      have hunpaused : Unpaused w.db post.1 :=
        hi _ (mem_pending.mpr (Or.inr ⟨post, List.mem_of_getElem? hpost, rfl⟩))
      refine ⟨?_, ?_⟩
      · intro id hid
        refine unpaused_act _ _ (hi id (mem_pending.mpr ?_))
        rcases mem_pending.mp hid with hid | ⟨post', hpost', rfl⟩
        · exact Or.inl hid
        · exact Or.inr ⟨post', List.mem_of_mem_eraseIdx hpost', rfl⟩
      · intro x hx
        simp only [Posts.acting, hpost, Option.map_some, Option.mem_some_iff] at hx
        subst hx
        exact commits_unpaused hunpaused

end Pending

end Step

/-! ## 3. Every run -/

/-- **The automation hold holds**, in every run of the worker with other requests in which no pause
    commits on a deployment between the listing of a sweep and the sweep's last call for it, or while a
    POST of the worker is on its way to it, however late that takes effect. -/
theorem hold_respected (db : Db) (ls : List PostsLabel)
    (hapart : Along Posts.next PausesApart { db := db } ls) :
    Along Posts.next ActsUnpaused { db := db } ls :=
  (along_run hapart (fun _ hid => (List.not_mem_nil hid).elim) posts_step).1

/-- **The calls for one deployment, made without a break, are one cycle.** -/
theorem process_run (c : Cycle) (db : Db) (id : String) (rest : List String) :
    ∃ ls, run Sweep.next ⟨db, none, id :: rest⟩ ls =
      some ⟨(processDeployment c db id).2, none, rest⟩ := by
  unfold processDeployment
  cases hout : db.deploymentOut? id with
  | none => exact ⟨[.fetch], by simp [run, Sweep.next, hout]⟩
  | some out =>
      obtain ⟨d, hd, rfl⟩ := Option.map_eq_some_iff.mp hout
      obtain ⟨rfl, _⟩ := found hd
      cases ha : d.status.active with
      | false => exact ⟨[.fetch], by simp [run, Sweep.next, hout, ha]⟩
      | true =>
          cases hdue : c.due ⟨d, db.trafficAllocation? d.id⟩ with
          | false => exact ⟨[.fetch, .checkDue c], by simp [run, Sweep.next, hout, ha, hdue]⟩
          | true =>
              cases he : evaluateDeployment db d.id c.overallResult with
              | error e =>
                  exact ⟨[.fetch, .checkDue c, .evaluate c.overallResult],
                    by simp [run, Sweep.next, hout, ha, hdue, he]⟩
              | ok overallResult =>
                  refine ⟨[.fetch, .checkDue c, .evaluate c.overallResult, .act c.env], ?_⟩
                  simp only [run, Sweep.next, hout, ha, hdue, he, if_true, Option.bind_some,
                    Bool.not_true, Bool.false_eq_true, if_false]
                  split
                  · rename_i h
                    rw [h]
                  · rename_i h
                    rw [h]

/-- The tables after a create. -/
def sampleDb : Db :=
  ((Request.create (sampleCreate "fraud-model") none).exec (Env.after 0 "d1") .empty).2

/-- A cycle of the worker over `d1`, up to its action. -/
def sampleDecided : List PostsLabel :=
  [.sweep .list, .sweep .fetch, .sweep (.checkDue ⟨none, 10, 300, .pass, Env.after 10 "unused"⟩),
    .sweep (.evaluate .pass)]

/-- The cycle, with one request of an operator before its last call. -/
def sampleSweep (req : Request) : List PostsLabel :=
  sampleDecided ++ [.sweep (.request (Env.after 20 "unused") req), .sweep (.act (Env.after 30 "unused"))]

/-- The cycle, whose last call takes effect after the client's time-out and an operator's request. -/
def sampleLate (req : Request) : List PostsLabel :=
  sampleDecided ++ [.giveUp, .sweep (.request (Env.after 20 "unused") req),
    .arrive 0 (Env.after 30 "unused")]

/-- A resume disturbs neither. -/
theorem hold_respected_sample :
    let swept := sampleSweep (.resumeAutomation "d1" .manual)
    let late := sampleLate (.resumeAutomation "d1" .manual)
    ((run Posts.next { db := sampleDb } swept).isSome = true ∧
      Along Posts.next ActsUnpaused { db := sampleDb } swept) ∧
    (run Posts.next { db := sampleDb } late).isSome = true ∧
      Along Posts.next ActsUnpaused { db := sampleDb } late := by
  intro swept late
  have hswept := hold_respected sampleDb swept (by decide +kernel)
  have hlate := hold_respected sampleDb late (by decide +kernel)
  exact ⟨⟨by decide +kernel, hswept⟩, by decide +kernel, hlate⟩

/-- **A pause before the last call does not stop it.** -/
theorem hold_missed :
    ¬∀ (db : Db) (ls : List PostsLabel), Along Posts.next ActsUnpaused { db := db } ls := by
  intro h
  have hmissed : ¬Along Posts.next ActsUnpaused { db := sampleDb }
      (sampleSweep (.pauseAutomation "d1" .manual)) := by decide +kernel
  exact hmissed (h sampleDb _)

/-- Nor does one that commits while the last call is on its way. -/
example : ¬Along Posts.next ActsUnpaused { db := sampleDb }
    (sampleLate (.pauseAutomation "d1" .manual)) := by decide +kernel

end ModelOps
