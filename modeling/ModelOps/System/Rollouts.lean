/-
  File:      ModelOps/System/Rollouts.lean
  Subject:   The control plane refines the abstract rollout, in every history and under every
             interleaving of sessions; so every rollout comes to an end.

  Seen through `Db.rollout?`, a deployment knows nothing but the requests addressed to it: other
  deployments, router answers, reconcile ticks, metrics, labels and evaluations leave it alone, and so
  do the clock and the policy defaults.

  * **`rollout_refines`** -- after any history a deployment stands where `Rollout.next` takes it, and a
    request to it is answered as the abstract rollout says;
  * **`sessions_refine`** -- so it does when the sessions of the requests overlap, for the requests that
    commit, in commit order;
  * **`rollout_ends`** -- at most `max_inconclusive_retries + 6` requests that move it succeed;
  * **`worker_settles`** -- of the cycles of workers that run without a break, at most
    `max_inconclusive_retries + 5` evaluate it, whatever operators do in between, and each of them brings
    it closer to its end;
  * **`version_identifies`** -- a version that is read again is the same row and the same split.
-/
import ModelOps.ControlPlane.Rollout

namespace ModelOps

open Relational Refinement Transact

/-! ## 1. Histories -/

/-- The move a call makes of `id`. -/
def ApiCall.move (id : String) : ApiCall → Option Move
  | .lifecycle _ req => req.move id
  | .pushed .. | .reconcile .. | .recordMetric .. | .ingestLabel .. | .evaluate .. => none

/-- A request that moves `id`, other than by a hold, and is answered with success. -/
def ApiCall.moves (id : String) (t : Tables) : ApiCall → Bool
  | .lifecycle env req => (req.move id).any Move.costly && (req.exec env t.db).1.isOk
  | .pushed .. | .reconcile .. | .recordMetric .. | .ingestLabel .. | .evaluate .. => false

section Histories

variable {db db' : Db} {t : Tables} {id : String} {r : Rollout}

/-- What requests leave when they run one after another. -/
theorem requests_refine {ι : Type} (requests : ι → Env × Request) (id : String) :
    Refines (fun db i => ((requests i).2.exec (requests i).1 db).2) Shaped (fun db => db.rollout? id)
      (fun _ i => (requests i).2.move id) Rollout.next where
  keeps _ hsh := shaped_exec _ _ hsh
  stutters _ hr hm := rollout_stutters _ hr hm
  moves hsh hr hm := (simulates_exec _ hsh hr hm).1

/-- A call other than a lifecycle request leaves every rollout as it is. -/
theorem beside_rollout (h : Beside db db') (id : String) : db'.rollout? id = db.rollout? id := by
  obtain ⟨events, rfl, _⟩ := h
  exact rollout_unchanged rfl rfl

/-- **Every history refines the abstract rollout.** -/
theorem history_refines (id : String) :
    Refines (fun t c => ApiCall.exec c t) (fun t => Schema t.db ∧ Shaped t.db)
      (fun t => t.db.rollout? id) (fun _ c => c.move id) Rollout.next where
  keeps c h := after_shaped [c] h
  stutters {t r c} h hr hm := by
    rcases call_cases c t with ⟨env, req, rfl⟩ | hb
    · exact rollout_stutters env hr hm
    · rw [beside_rollout hb id, hr]
  moves {t r c m} h hr hm := by
    cases c with
    | lifecycle env req => exact (simulates_exec env h.2 hr hm).1
    | pushed | reconcile | recordMetric | ingestLabel | evaluate => cases hm

theorem after_rollout (h : Schema t.db ∧ Shaped t.db) (hr : t.db.rollout? id = some r)
    (calls : List ApiCall) :
    (t.after calls).db.rollout? id =
      some (proceedAll Rollout.next r (calls.filterMap fun c => c.move id)) := by
  rw [← moves_of_labels (fun t c => ApiCall.exec c t) (fun c => c.move id) t calls]
  exact (history_refines id).run calls h hr

/-- A call that moves the rollout makes a costly move that is enabled. -/
theorem moves_enabled {c : ApiCall} (hsh : Shaped t.db) (hr : t.db.rollout? id = some r)
    (hc : c.moves id t = true) :
    ∃ m, c.move id = some m ∧ (r.next m).isSome = true ∧ m.costly = true := by
  cases c with
  | lifecycle env req =>
      simp only [ApiCall.moves, Bool.and_eq_true, Option.any_eq_true] at hc
      obtain ⟨⟨m, hm, hcostly⟩, hok⟩ := hc
      have hanswer := (simulates_exec env hsh hr hm).2
      rw [hok, answers_costly r hcostly] at hanswer
      exact ⟨m, hm, hanswer.symm, hcostly⟩
  | pushed | reconcile | recordMetric | ingestLabel | evaluate => cases hc

theorem shows_of_rollout {d : Deployment} (hd : db.deployment? d.id = some d)
    (hr : db.rollout? d.id = some r) : Shows db d r := by
  obtain ⟨d', hd', hs⟩ := rollout?_eq_some.mp hr
  rw [hd] at hd'
  cases hd'
  exact hs

end Histories

/-- The tables that a history leads to. -/
theorem reached_shaped (history : List ApiCall) :
    Schema (Tables.empty.after history).db ∧ Shaped (Tables.empty.after history).db :=
  after_shaped history ⟨schema_empty, shaped_empty⟩

/-- **A deployment is its rollout**: whatever calls were made and are made, in any order, it stands where
    the requests addressed to it alone take the abstract rollout, and a request to it succeeds where the
    abstract rollout says. -/
theorem rollout_refines (history later : List ApiCall) (d : Deployment)
    (hd : d ∈ (Tables.empty.after history).db.deployments) :
    let now := Tables.empty.after (history ++ later)
    ∃ r r', (Tables.empty.after history).db.rollout? d.id = some r ∧
      r' = proceedAll Rollout.next r (later.filterMap fun c => c.move d.id) ∧
      now.db.rollout? d.id = some r' ∧
      ∀ env req m, Request.move d.id req = some m →
        (req.exec env now.db).1.isOk = r'.answers m ∧
        (req.exec env now.db).2.rollout? d.id = some (proceed Rollout.next r' m) := by
  intro now
  have hshaped := reached_shaped history
  obtain ⟨r, hr⟩ := rollout_of_shape (hshaped.2 d hd) (Table.mem_iff_get?.mp hd)
  have hnow : now.db.rollout? d.id =
      some (proceedAll Rollout.next r (later.filterMap fun c => c.move d.id)) := by
    rw [show now = (Tables.empty.after history).after later from after_append _ _ _]
    exact after_rollout hshaped hr later
  refine ⟨r, _, hr, rfl, hnow, ?_⟩
  intro env req m hm
  exact (simulates_exec env (reached_shaped (history ++ later)).2 hnow hm).symm

/-- The first request of the sample has created it. -/
theorem sampleRow_mem : createdRow (Env.after 0 "d1") (sampleCreate "fraud-model") none ∈
    (Tables.empty.after (sampleHistory.take 1)).db.deployments := by
  decide +kernel

/-- The `d1` of the sample was promoted, and there is nothing left to do. -/
theorem rollout_refines_sample :
    (Tables.empty.after sampleHistory).db.rollout? "d1" =
      some { phase := .promoted, retries := 0, maxRetries := 10, paused := false } := by
  obtain ⟨r, r', hr, rfl, hnow, _⟩ :=
    rollout_refines (sampleHistory.take 1) (sampleHistory.drop 1) _ sampleRow_mem
  have hfirst : (Tables.empty.after (sampleHistory.take 1)).db.rollout? "d1" = some
      { phase := .running (1 / 10), retries := 0, maxRetries := 10, paused := false } := by
    decide +kernel
  have hsame : r = { phase := .running (1 / 10), retries := 0, maxRetries := 10, paused := false } :=
    Option.some.inj (hr.symm.trans hfirst)
  rw [hsame] at hnow
  exact hnow

/-! ## 2. Overlapping sessions -/

/-- **Sessions that overlap refine the abstract rollout**: after any steps of any requests' sessions the
    deployment stands where the requests that committed, in commit order, take it. -/
theorem sessions_refine {ι : Type} [DecidableEq ι] [Fintype ι] (history : List ApiCall)
    (requests : ι → Env × Request) (schedule : List ι) (d : Deployment)
    (hd : d ∈ (Tables.empty.after history).db.deployments) :
    let t := Tables.empty.after history
    let sessions := interleave requests t.db schedule
    ∃ r, t.db.rollout? d.id = some r ∧
      sessions.store.rollout? d.id =
        some (proceedAll Rollout.next r (sessions.log.filterMap fun i => (requests i).2.move d.id)) ∧
      sessions.log.Nodup ∧ ∀ i, i ∈ sessions.log ↔ ∃ o, sessions.proc i = .finished true o := by
  intro t sessions
  have hshaped : Schema t.db ∧ Shaped t.db := reached_shaped history
  obtain ⟨r, hr⟩ := rollout_of_shape (hshaped.2 d hd) (Table.mem_iff_get?.mp hd)
  have hserial := interleave_serial requests hshaped.1 schedule
  refine ⟨r, hr, ?_, hserial.once, hserial.logged⟩
  have hstore : sessions.store = serially requests t.db sessions.log := by
    rw [serially_eq_runAll]
    exact hserial.order
  rw [hstore, ← moves_of_labels (fun db i => ((requests i).2.exec (requests i).1 db).2)
    (fun i => (requests i).2.move d.id) t.db sessions.log]
  exact (requests_refine requests d.id).run sessions.log hshaped.2 hr

/-- The promote of the race loses to the rollback, so the rollout is rolled back. -/
theorem sessions_refine_sample :
    ((interleave sampleRace (Tables.empty.after (sampleHistory.take 1)).db
      [0, 1, 1, 0, 1, 0, 1, 0]).store.rollout? "d1").map Rollout.phase = some .rolledBack := by
  obtain ⟨r, hr, hstore, _, _⟩ := sessions_refine (sampleHistory.take 1) sampleRace
    [0, 1, 1, 0, 1, 0, 1, 0] _ sampleRow_mem
  have hlog : (interleave sampleRace (Tables.empty.after (sampleHistory.take 1)).db
      [0, 1, 1, 0, 1, 0, 1, 0]).log = [1] := by decide +kernel
  have hfirst : (Tables.empty.after (sampleHistory.take 1)).db.rollout? "d1" = some
      { phase := .running (1 / 10), retries := 0, maxRetries := 10, paused := false } := by
    decide +kernel
  have hsame : r = { phase := .running (1 / 10), retries := 0, maxRetries := 10, paused := false } :=
    Option.some.inj (hr.symm.trans hfirst)
  rw [hlog, hsame] at hstore
  exact congrArg (Option.map Rollout.phase) hstore

/-! ## 3. Every rollout ends -/

theorem rank_le (r : Rollout) : r.rank ≤ r.maxRetries + 6 := by
  unfold Rollout.rank
  cases r.phase with
  | running share =>
      have hstages := stagesAbove_le share
      dsimp only
      omega
  | frozen share =>
      dsimp only
      omega
  | promoted | rolledBack => exact Nat.zero_le _

/-- **Every rollout ends**: whatever is called after a history, the requests that move a deployment and
    succeed -- advances, inconclusive cycles, promote, rollback -- are paid for out of its stages, its
    tolerated verdicts and its two ends. -/
theorem rollout_ends (history later : List ApiCall) (d : Deployment)
    (hd : d ∈ (Tables.empty.after history).db.deployments) :
    let t := Tables.empty.after history
    ∃ r r' p, t.db.rollout? d.id = some r ∧
      (Tables.empty.after (history ++ later)).db.rollout? d.id = some r' ∧
      d.policyConfig = some p ∧
      countSteps (fun t c => ApiCall.exec c t) (fun t c => c.moves d.id t) t later + r'.rank ≤ r.rank ∧
      r.rank ≤ p.maxInconclusiveRetries + 6 := by
  intro t
  have hshaped : Schema t.db ∧ Shaped t.db := reached_shaped history
  have hget : t.db.deployment? d.id = some d := Table.mem_iff_get?.mp hd
  obtain ⟨r, hr⟩ := rollout_of_shape (hshaped.2 d hd) hget
  obtain ⟨p, hp, hmax⟩ := (shows_of_rollout hget hr).policy
  refine ⟨r, proceedAll Rollout.next r (later.filterMap fun c => c.move d.id), p, hr, ?_, hp, ?_,
    hmax ▸ rank_le r⟩
  · rw [after_append]
    exact after_rollout hshaped hr later
  · rw [← moves_of_labels (fun t c => ApiCall.exec c t) (fun c => c.move d.id) t later]
    exact (history_refines d.id).pays rollout_ranked (fun h hr hc => moves_enabled h.2 hr hc) later
      hshaped hr

/-- In the sample one request moves `d1`, and it has no move left. -/
theorem rollout_ends_sample : ∃ r', (Tables.empty.after sampleHistory).db.rollout? "d1" = some r' ∧
    1 + r'.rank ≤ 16 := by
  obtain ⟨r, r', p, _, hr', hp, hpaid, hle⟩ :=
    rollout_ends (sampleHistory.take 1) (sampleHistory.drop 1) _ sampleRow_mem
  have hcount : countSteps (fun t c => ApiCall.exec c t) (fun t c => c.moves "d1" t)
      (Tables.empty.after (sampleHistory.take 1)) (sampleHistory.drop 1) = 1 := by decide +kernel
  have hmax : p.maxInconclusiveRetries = 10 := by
    rw [show p = {} from (Option.some.inj hp).symm]
  have hpaid' : countSteps (fun t c => ApiCall.exec c t) (fun t c => c.moves "d1" t)
      (Tables.empty.after (sampleHistory.take 1)) (sampleHistory.drop 1) + r'.rank ≤ r.rank := hpaid
  exact ⟨r', hr', by omega⟩

/-! ## 4. Workers among the calls -/

/-- A call of somebody, or a cycle of a worker over one deployment: its calls are all answered, with
    nothing between them. -/
inductive WorkStep where
  | call (c : ApiCall)
  | cycle (c : Cycle) (id : String)

def WorkStep.exec (t : Tables) : WorkStep → Tables
  | .call c => c.exec t
  | .cycle c id => { t with db := (processDeployment c t.db id).2 }

/-- The move the action asks for. -/
def WorkerAction.move : WorkerAction → Move
  | .advanceTraffic => .advance
  | .promote => .promote
  | .rollback => .rollback
  | .recordInconclusive => .cycle

def WorkStep.move (id : String) (t : Tables) : WorkStep → Option Move
  | .call c => c.move id
  | .cycle c id' =>
      if id' = id then (processDeployment c t.db id').1.map WorkerAction.move else none

/-- The step is a cycle that evaluates `id`: the rollout is active, and due. -/
def WorkStep.evaluates (id : String) (t : Tables) : WorkStep → Bool
  | .call _ => false
  | .cycle c id' => decide (id' = id) &&
      (t.db.deploymentOut? id').any fun out => out.deployment.status.active && c.due out

/-- The stages and the verdicts that are left to a rollout that is running. -/
def Rollout.work (r : Rollout) : Nat :=
  match r.phase with
  | .running share => stagesAbove share + (r.maxRetries - r.retries) + 1
  | .frozen _ | .promoted | .rolledBack => 0

/-- A move other than a hold, of a rollout that is running. -/
def Rollout.works (r : Rollout) (m : Move) : Bool :=
  match r.phase with
  | .running _ => m.costly
  | .frozen _ | .promoted | .rolledBack => false

section Workers

variable {c : Cycle} {db : Db} {t : Tables} {id : String} {r : Rollout} {m : Move}

theorem work_ranked : Ranked Rollout.next Rollout.works Rollout.work := by
  have hstep : ∀ {r m r'}, Rollout.next r m = some r' → r'.work + (r.works m).toNat ≤ r.work := by
    intro r m r' h
    cases m with
    | advance =>
        simp only [Rollout.next] at h
        split at h
        · rename_i share hp
          obtain ⟨stage, hs, rfl⟩ := Option.map_eq_some_iff.mp h
          obtain ⟨hmem, hlt⟩ := stageAbove_mem hs
          have hless := stagesAbove_lt hmem hlt
          simp only [Rollout.work, Rollout.works, hp, Move.costly, Bool.toNat_true]
          omega
        all_goals cases h
    | cycle =>
        simp only [Rollout.next] at h
        split at h
        · rename_i share hp
          split at h
          · cases h
            simp only [Rollout.work, Rollout.works, hp, Move.costly, Bool.toNat_true]
            omega
          · cases h
            simp only [Rollout.work, Rollout.works, hp, Move.costly, Bool.toNat_true]
            omega
        all_goals cases h
    | promote | rollback =>
        simp only [Rollout.next] at h
        split at h
        · cases h
          cases hp : r.phase <;> simp [Rollout.work, Rollout.works, hp, Move.costly]
        · cases h
    | hold paused =>
        simp only [Rollout.next] at h
        split at h
        · cases h
          cases hp : r.phase <;> simp [Rollout.work, Rollout.works, hp, Move.costly]
        · cases h
  refine ⟨fun h => ?_, fun h hc => ?_⟩
  · exact Nat.le_trans (Nat.le_add_right _ _) (hstep h)
  · have hpaid := hstep h
    rw [hc] at hpaid
    exact hpaid

/-- **A cycle is the request of its action**, or it leaves the tables alone. -/
theorem process_requests (c : Cycle) (db : Db) (id : String) :
    processDeployment c db id = (none, db) ∨
    ∃ action, processDeployment c db id = (some action, ((action.request id).exec c.env db).2) ∧
      ((action.request id).exec c.env db).1.isOk = true := by
  unfold processDeployment
  split
  · exact Or.inl rfl
  · rename_i out _
    split
    · exact Or.inl rfl
    · split
      · exact Or.inl rfl
      · split
        · exact Or.inl rfl
        · rename_i overallResult _
          dsimp only
          split
          · rename_i h
            right
            refine ⟨decideAction overallResult (canaryAtFullTraffic out), ?_⟩
            rw [h]
            exact ⟨rfl, rfl⟩
          · rename_i e db' h
            -- what is refused leaves the tables alone
            left
            rcases exec_cases c.env db ((decideAction overallResult
              (canaryAtFullTraffic out)).request id) with ⟨x, hx, _⟩ | ⟨_, _, _, _, _, hx⟩
            · rw [hx] at h
              cases h
              rfl
            · rw [hx] at h
              cases h

theorem action_move (action : WorkerAction) (id id' : String) :
    (action.request id').move id = if id' = id then some action.move else none := by
  cases action <;> rfl

theorem action_costly (action : WorkerAction) : action.move.costly = true := by
  cases action <;> rfl

/-- **Workers beside the calls refine the abstract rollout.** -/
theorem work_refines (id : String) :
    Refines WorkStep.exec (fun t => Schema t.db ∧ Shaped t.db) (fun t => t.db.rollout? id)
      (WorkStep.move id) Rollout.next where
  keeps {t} l h := by
    cases l with
    | call c => exact after_shaped [c] h
    | cycle c id' =>
        rcases process_requests c t.db id' with hx | ⟨action, hx, _⟩
        · simpa only [WorkStep.exec, hx] using h
        · simp only [WorkStep.exec, hx]
          exact ⟨schema_exec _ _ h.1, shaped_exec _ _ h.2⟩
  stutters {t r l} h hr hm := by
    cases l with
    | call c => exact (history_refines id).stutters h hr hm
    | cycle c id' =>
        rcases process_requests c t.db id' with hx | ⟨action, hx, _⟩
        · simpa only [WorkStep.exec, hx] using hr
        · simp only [WorkStep.exec, hx]
          refine rollout_stutters c.env hr ?_
          rw [action_move]
          simpa only [WorkStep.move, hx, Option.map_some] using hm
  moves {t r l m} h hr hm := by
    cases l with
    | call c => exact (history_refines id).moves h hr hm
    | cycle c id' =>
        rcases process_requests c t.db id' with hx | ⟨action, hx, _⟩
        · simp [WorkStep.move, hx] at hm
        · simp only [WorkStep.exec, hx]
          refine (simulates_exec c.env h.2 hr ?_).1
          rw [action_move]
          simpa only [WorkStep.move, hx, Option.map_some] using hm

/-- A cycle that evaluates takes the rollout a move further. -/
theorem evaluates_works {l : WorkStep} (h : Schema t.db ∧ Shaped t.db)
    (hr : t.db.rollout? id = some r) (hl : l.evaluates id t = true) :
    ∃ m, l.move id t = some m ∧ (r.next m).isSome = true ∧ r.works m = true := by
  cases l with
  | call c => cases hl
  | cycle c id' =>
      simp only [WorkStep.evaluates, Bool.and_eq_true, decide_eq_true_eq, Option.any_eq_true] at hl
      obtain ⟨rfl, out, hout, ha, hdue⟩ := hl
      obtain ⟨d, hd, rfl⟩ := Option.map_eq_some_iff.mp hout
      obtain ⟨rfl, hd⟩ := found hd
      -- what is evaluated is acted upon
      have hacts : (processDeployment c t.db d.id).1.isSome = true := by
        rcases process_cases c h.2 hd with ⟨_, action, row, split, bodies, _, hx⟩ | ⟨hno, _⟩
        · rw [hx]
          rfl
        · exact absurd ⟨ha, hdue⟩ hno
      have hs := shows_of_rollout hd hr
      rcases process_requests c t.db d.id with hx | ⟨action, hx, hok⟩
      · rw [hx] at hacts
        cases hacts
      · have hmove : (action.request d.id).move d.id = some action.move := by
          rw [action_move, if_pos rfl]
        have hanswer := (simulates_exec c.env h.2 hr hmove).2
        rw [hok, answers_costly r (action_costly action)] at hanswer
        refine ⟨action.move, ?_, hanswer.symm, ?_⟩
        · simp only [WorkStep.move, hx, if_true, Option.map_some]
        · rcases shows_running hs (h.2 d (deployment?_eq_some.mp hd).1) with ⟨_, hrun⟩ | ⟨hno, _⟩
          · simp only [Rollout.works, hrun, action_costly]
          · rw [hno] at ha
            cases ha

theorem work_le (r : Rollout) : r.work ≤ r.maxRetries + 5 := by
  unfold Rollout.work
  cases r.phase with
  | running share =>
      have hstages := stagesAbove_le share
      dsimp only
      omega
  | frozen _ | promoted | rolledBack => exact Nat.zero_le _

/-- Work is left exactly to what is active. -/
theorem work_pos {d : Deployment} (hs : Shows db d r) (hsh : Shape db d) :
    0 < r.work ↔ d.status.active = true := by
  rcases shows_running hs hsh with ⟨ha, hrun⟩ | ⟨ha, hrun⟩
  · refine iff_of_true ?_ ha
    simp only [Rollout.work, hrun]
    omega
  · refine iff_of_false ?_ (by simp [ha])
    unfold Rollout.work
    split
    · rename_i share hp
      exact absurd hp (hrun share)
    all_goals exact Nat.lt_irrefl 0

end Workers

/-- **Workers settle every rollout**: among any calls of others, the cycles that evaluate a deployment are
    paid for out of its stages and its tolerated verdicts; what is left is left to an active rollout
    only. -/
theorem worker_settles (history : List ApiCall) (steps : List WorkStep) (d : Deployment)
    (hd : d ∈ (Tables.empty.after history).db.deployments) :
    let t := Tables.empty.after history
    let t' := steps.foldl WorkStep.exec t
    ∃ r r' p, t.db.rollout? d.id = some r ∧ t'.db.rollout? d.id = some r' ∧
      d.policyConfig = some p ∧
      countSteps WorkStep.exec (fun t l => l.evaluates d.id t) t steps + r'.work ≤ r.work ∧
      r.work ≤ p.maxInconclusiveRetries + 5 ∧
      ∀ d', t'.db.deployment? d.id = some d' → (0 < r'.work ↔ d'.status.active = true) := by
  intro t t'
  have hshaped : Schema t.db ∧ Shaped t.db := reached_shaped history
  have hget : t.db.deployment? d.id = some d := Table.mem_iff_get?.mp hd
  obtain ⟨r, hr⟩ := rollout_of_shape (hshaped.2 d hd) hget
  obtain ⟨p, hp, hmax⟩ := (shows_of_rollout hget hr).policy
  have hr' : t'.db.rollout? d.id = some (proceedAll Rollout.next r _) :=
    (work_refines d.id).run steps hshaped hr
  refine ⟨r, _, p, hr, hr', hp, ?_, hmax ▸ work_le r, ?_⟩
  · exact (work_refines d.id).pays work_ranked (fun h hr hl => evaluates_works h hr hl) steps hshaped hr
  · intro d' hd'
    obtain ⟨hid, hd'⟩ := found hd'
    exact work_pos (shows_of_rollout hd' (by rw [← hid]; exact hr'))
      (((work_refines d.id).keeps_run steps hshaped).2 d' (deployment?_eq_some.mp hd').1)

/-- Four cycles that pass take the canary from a tenth of the traffic to its promotion. -/
def sampleShift : List WorkStep :=
  (List.range 4).map fun n => .cycle ⟨none, 10 * n, 300, .pass, Env.after (10 * n + 10) "unused"⟩ "d1"

theorem worker_settles_sample : ∃ r', ((sampleShift.foldl WorkStep.exec
    (Tables.empty.after (sampleHistory.take 1))).db.rollout? "d1") = some r' ∧ 4 + r'.work ≤ 15 := by
  obtain ⟨r, r', p, _, hr', hp, hpaid, hle, _⟩ :=
    worker_settles (sampleHistory.take 1) sampleShift _ sampleRow_mem
  have hcount : countSteps WorkStep.exec (fun t l => l.evaluates "d1" t)
      (Tables.empty.after (sampleHistory.take 1)) sampleShift = 4 := by decide +kernel
  have hmax : p.maxInconclusiveRetries = 10 := by
    rw [show p = {} from (Option.some.inj hp).symm]
  refine ⟨r', hr', ?_⟩
  have hpaid' : countSteps WorkStep.exec (fun t l => l.evaluates "d1" t)
      (Tables.empty.after (sampleHistory.take 1)) sampleShift + r'.work ≤ r.work := hpaid
  omega

/-! ## 5. The version is the state -/

/-- **A version that is read again is the same row and the same split**: the allocation has no version of
    its own, but it never changes under the version of its deployment. -/
theorem version_identifies (history later : List ApiCall) (d : Deployment)
    (hd : d ∈ (Tables.empty.after history).db.deployments) :
    let before := (Tables.empty.after history).db
    let after := (Tables.empty.after (history ++ later)).db
    ∃ d', after.deployment? d.id = some d' ∧ d.versionId ≤ d'.versionId ∧
      (d'.versionId = d.versionId →
        d' = d ∧ after.trafficAllocation? d.id = before.trafficAllocation? d.id) := by
  intro before after
  let Kept (db : Db) : Prop := ∃ d', db.deployment? d.id = some d' ∧
    ((d' = d ∧ db.trafficAllocation? d.id = before.trafficAllocation? d.id) ∨
      d.versionId < d'.versionId)
  have hstart : Kept before := ⟨d, Table.mem_iff_get?.mp hd, Or.inl ⟨rfl, rfl⟩⟩
  have hkept : Kept after := by
    show Kept (Tables.empty.after (history ++ later)).db
    rw [after_append]
    refine after_inv_rows (P := Kept) ?_ (fun db events h => h) later hstart
    rintro env db req ⟨d', hd', hcase⟩
    obtain ⟨hid, hd'⟩ := found hd'
    rcases exec_turns env req hd' with ⟨hrow, halloc⟩ | ⟨row, split, events, hturn, hrow, hdb⟩
    · rw [← hid] at hrow halloc
      refine ⟨d', hrow, ?_⟩
      rw [halloc]
      exact hcase
    · -- a turn raises the version
      refine ⟨row, by rw [hdb, applied_deployment?, if_pos (hid.trans hrow.symm)], Or.inr ?_⟩
      have hnext := hturn.amends.versionId_eq
      rcases hcase with ⟨rfl, _⟩ | hlt <;> omega
  obtain ⟨d', hd', hsame | hlt⟩ := hkept
  · exact ⟨d', hd', by rw [hsame.1], fun _ => hsame⟩
  · exact ⟨d', hd', Nat.le_of_lt hlt, fun h => absurd h (Nat.ne_of_gt hlt)⟩

/-- An answer of the router does not touch it. -/
theorem version_identifies_sample :
    ((Tables.empty.after (sampleHistory.take 2)).db.deployment? "d1").map Deployment.versionId =
        some 2 ∧
      (Tables.empty.after (sampleHistory.take 2)).db.trafficAllocation? "d1" =
        (Tables.empty.after (sampleHistory.take 1)).db.trafficAllocation? "d1" := by
  have hversion : ((Tables.empty.after (sampleHistory.take 2)).db.deployment? "d1").map
      Deployment.versionId = some 2 := by decide +kernel
  obtain ⟨d', hd', _, hsame⟩ :=
    version_identifies (sampleHistory.take 1) (sampleHistory.drop 1 |>.take 1) _ sampleRow_mem
  have hd'' : (Tables.empty.after (sampleHistory.take 2)).db.deployment? "d1" = some d' := hd'
  have hsplit := (hsame (by
    rw [hd''] at hversion
    exact Option.some.inj hversion)).2
  exact ⟨hversion, hsplit⟩

end ModelOps
