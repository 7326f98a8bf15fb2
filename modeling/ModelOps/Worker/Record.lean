/-
  File:      ModelOps/Worker/Record.lean
  Subject:   What the evaluations on record say became of a rollout.

  A worker whose calls are answered works among any calls of others that neither move a rollout nor
  evaluate it (`Tended`). Every evaluation stays on record, row by row, and what the worker does next is
  decided by these rows: read from the first to the last, the record is the rollout's history.

  * `turn_judged` -- in its turn a rollout is judged by the rows that its turn adds, or it adds none;
  * `sweep_judged` -- so in a sweep, and where its window is over the sweep adds some;
  * **`record_explains`** -- sweep after sweep, the rollout stands where its record takes it;
  * **`rolledBack_iff`** -- it is rolled back exactly if a FAIL is on record;
  * **`passing_promoted`** -- and where all of them PASS, it is promoted in as many sweeps as there are
    stages above its share and one more, and in no fewer.
-/
import ModelOps.Worker.Finish

namespace ModelOps

open Relational Labelled Refinement

/-! ## 1. The record of a rollout -/

/-- The rows of `id`, in the order they were written. -/
def Tables.recordOf (t : Tables) (id : String) : List PolicyEvaluation :=
  t.policyEvaluations.filter fun row => decide (row.deploymentId = id)

/-- The verdict that rows of one evaluation were recorded for. -/
def verdictOf (rows : List PolicyEvaluation) : OverallResult :=
  overallResult (rows.map PolicyEvaluation.toPolicyCheckResult)

/-- The move a verdict asks for: a PASS asks for the next stage, and without one for the promotion. -/
def Rollout.asked (r : Rollout) : OverallResult → Move
  | .fail => .rollback
  | .inconclusive => .cycle
  | .pass => if (r.next .advance).isSome then .advance else .promote

/-- What the rows of one sweep make of a rollout; none make nothing of it. -/
def Rollout.judged (r : Rollout) (rows : List PolicyEvaluation) : Rollout :=
  if rows = [] then r else proceed Rollout.next r (r.asked (verdictOf rows))

/-- The worker watches it: it is running and not on hold. -/
def Rollout.Watched (r : Rollout) : Prop := (∃ share, r.phase = .running share) ∧ r.paused = false

/-- `id` stands at `r`, and these rows are on record. -/
structure OnRecord (id : String) (r : Rollout) (rows : List PolicyEvaluation) (t : Tables) : Prop where
  shaped : Schema t.db ∧ Shaped t.db
  rollout : t.db.rollout? id = some r
  record : t.recordOf id = rows

/-- From `w` to `w'` the rollout was judged by the rows that were added to its record: none where it was
    not `watched`, and some where it was and its window was over. -/
def Judges (oracle : Nat → Moment) (id : String) (r : Rollout) (rows : List PolicyEvaluation)
    (watched : Prop) (w w' : World) : Prop :=
  ∃ new, OnRecord id (r.judged new) (rows ++ new) w'.tables ∧ (new ≠ [] → watched) ∧
    ∀ n, w.tables.db.window id = some n → Over oracle n id w → watched → new ≠ []

/-- A call that neither moves nor evaluates `id`. -/
def ApiCall.Spares (id : String) (c : ApiCall) : Prop :=
  c.move id = none ∧ ∀ env req, c = .evaluate env req → req.deploymentId ≠ id

/-- Every call of the worker is answered, and others spare `id`. -/
def Tended (oracle : Nat → Moment) (id : String) : Prop :=
  ∀ i, (oracle i).fate = .answered ∧ ∀ c ∈ (oracle i).others, c.Spares id

section Spared

variable {t : Tables} {id : String} {r : Rollout} {rows : List PolicyEvaluation}

theorem judged_nil (r : Rollout) : r.judged [] = r := if_pos rfl

theorem judged_rows (r : Rollout) (h : rows ≠ []) :
    r.judged rows = proceed Rollout.next r (r.asked (verdictOf rows)) := if_neg h

/-- Rows of others are not on its record. -/
theorem recordOf_recorded_ne {new : List PolicyEvaluation} (h : ∀ row ∈ new, row.deploymentId ≠ id) :
    (t.recorded new).recordOf id = t.recordOf id := by
  have hnone : new.filter (fun row => decide (row.deploymentId = id)) = [] :=
    List.filter_eq_nil_iff.mpr fun row hrow => by simpa using h row hrow
  show (t.policyEvaluations ++ new).filter _ = _
  rw [List.filter_append, hnone, List.append_nil]
  rfl

theorem recordOf_recorded {new : List PolicyEvaluation} (h : ∀ row ∈ new, row.deploymentId = id) :
    (t.recorded new).recordOf id = t.recordOf id ++ new := by
  have hall : new.filter (fun row => decide (row.deploymentId = id)) = new :=
    List.filter_eq_self.mpr fun row hrow => decide_eq_true (h row hrow)
  show (t.policyEvaluations ++ new).filter _ = _
  rw [List.filter_append, hall]
  rfl

/-- Where the record is the same, there are no new rows. -/
theorem OnRecord.rows_old {t' : Tables} {r' : Rollout} (h : OnRecord id r rows t)
    (h' : OnRecord id r' rows t') :
    ∀ row ∈ t'.policyEvaluations, row.deploymentId = id → row ∈ t.policyEvaluations := by
  intro row hrow hid
  have hmem : row ∈ t'.recordOf id := List.mem_filter.mpr ⟨hrow, decide_eq_true hid⟩
  rw [h'.record, ← h.record] at hmem
  exact (List.mem_filter.mp hmem).1

/-- **A call that spares a rollout leaves its record alone**, too. -/
theorem OnRecord.call {c : ApiCall} (h : OnRecord id r rows t) (hc : c.Spares id) :
    OnRecord id r rows (c.exec t) := by
  refine ⟨after_shaped [c] h.shaped, (history_refines id).stutters h.shaped h.rollout hc.1, ?_⟩
  rw [← h.record]
  cases c with
  | evaluate env req =>
      show (req.exec env t).2.recordOf id = _
      rcases evaluate_cases env req t with ⟨e, hx⟩ | ⟨d, hd, _, hx⟩
      · rw [hx]
      · rw [hx]
        refine recordOf_recorded_ne fun row hrow => ?_
        rw [(evaluationRows_mem hrow).1, ← (found hd).1]
        exact hc.2 env req rfl
  | recordMetric now id' payload =>
      simp only [ApiCall.exec]
      split <;> rfl
  | lifecycle | pushed | reconcile | ingestLabel => rfl

theorem OnRecord.after {calls : List ApiCall} (h : OnRecord id r rows t)
    (hcalls : ∀ c ∈ calls, c.Spares id) : OnRecord id r rows (t.after calls) := by
  induction calls generalizing t with
  | nil => exact h
  | cons c calls ih =>
      exact ih (h.call (hcalls c List.mem_cons_self)) fun c' hc' => hcalls c' (List.mem_cons_of_mem c hc')

/-- An evaluation of it adds to its record. -/
theorem OnRecord.recorded {new : List PolicyEvaluation} (h : OnRecord id r rows t)
    (hnew : ∀ row ∈ new, row.deploymentId = id) : OnRecord id r (rows ++ new) (t.recorded new) where
  shaped := h.shaped
  rollout := h.rollout
  record := by rw [recordOf_recorded hnew, h.record]

theorem next_advance {share : ℚ} (hrun : r.phase = .running share) :
    r.next .advance = (stageAbove share).map fun stage => { r with phase := .running stage } := by
  simp only [Rollout.next, hrun]

/-- The worker sees full traffic exactly where no stage is left. -/
theorem full_iff {db : Db} {d : Deployment} {share : ℚ} (hsh : Shape db d) (hs : Shows db d r)
    (ha : d.status.active = true) (hrun : r.phase = .running share) :
    canaryAtFullTraffic ⟨d, db.trafficAllocation? d.id⟩ = true ↔ r.next .advance = none := by
  have hshare : db.canaryWeight d = share := by
    rcases shows_running hs hsh with ⟨_, hp⟩ | ⟨hidle, _⟩
    · rw [hrun] at hp
      exact (Phase.running.inj hp).symm
    · rw [ha] at hidle
      cases hidle
  have hstage := nextStage_eq ((hsh.weight (open_of_active ha)).imp fun _ hk => hk.2)
  rw [canaryAtFullTraffic_iff rfl rfl, ← nextStage_none, hstage, hshare, next_advance hrun,
    Option.map_eq_none_iff]

theorem activeIds_nodup (db : Db) : db.activeIds.Nodup := by
  have hperm := (List.perm_insertionSort (fun d d' : Deployment => d'.createdAt ≤ d.createdAt)
    db.deployments.rows).map Deployment.id
  exact (hperm.nodup_iff.mpr db.deployments.keys_nodup).sublist (List.filter_sublist.map _)

/-- A sweep lists what the worker watches. -/
theorem listed_iff (h : OnRecord id r rows t) : id ∈ t.db.activeIds ↔ r.Watched := by
  obtain ⟨d, hd, hs⟩ := rollout?_eq_some.mp h.rollout
  obtain ⟨rfl, hd⟩ := found hd
  have hmem := (deployment?_eq_some.mp hd).1
  have hrun := shows_running hs (h.shaped.2 d hmem)
  constructor
  · intro hlisted
    obtain ⟨d', hd', hid⟩ := List.mem_map.mp hlisted
    obtain ⟨hd', hactive⟩ := List.mem_filter.mp hd'
    have hget : t.db.deployment? d'.id = some d' :=
      Table.mem_iff_get?.mp ((List.mem_insertionSort _).mp hd')
    rw [hid, hd] at hget
    cases hget
    simp only [Bool.and_eq_true, Bool.not_eq_true'] at hactive
    rcases hrun with ⟨_, hp⟩ | ⟨hidle, _⟩
    · exact ⟨⟨_, hp⟩, hs.paused.symm.trans hactive.2⟩
    · rw [hactive.1] at hidle
      cases hidle
  · rintro ⟨⟨share, hp⟩, hpaused⟩
    rcases hrun with ⟨ha, _⟩ | ⟨_, hnot⟩
    · exact List.mem_map_of_mem (List.mem_filter.mpr
        ⟨(List.mem_insertionSort _).mpr hmem, by rw [ha, hs.paused, hpaused]; rfl⟩)
    · exact absurd hp (hnot share)

end Spared

/-! ## 2. The turns of the others -/

section Aside

variable {σ : Type} {P : σ → Prop} (client : WorkerClient σ) (defaultWindowSeconds : Nat) {id : String}

/-- What every call that `process_deployment` makes keeps, `process_deployment` keeps. -/
theorem process_keeps (hget : ∀ s, P s → P (client.getDeployment id s).2)
    (hlist : ∀ id' s, P s → P (client.getPolicyEvaluations id' s).2)
    (hevaluate : ∀ s, P s → P (client.evaluate id s).2)
    (hact : ∀ action s, P s → P (client.act id action s).2) {s : σ} (h : P s) :
    P (client.processDeployment defaultWindowSeconds id s).2 := by
  have hsettle : ∀ out s, P s → P (client.settle out id s).2 := by
    intro out s hs
    have hevaluated := hevaluate s hs
    rcases hx : client.evaluate id s with ⟨e | overallResult, s'⟩
    · rw [client.settle_error hx]
      rwa [hx] at hevaluated
    · rw [client.settle_ok hx]
      rw [hx] at hevaluated
      exact hact _ s' hevaluated
  have hgot := hget s h
  rcases hx : client.getDeployment id s with ⟨e | out, s'⟩
  · rw [client.process_error hx]
    rwa [hx] at hgot
  · rw [client.process_ok hx]
    rw [hx] at hgot
    split
    · have hlisted := hlist out.deployment.id s' hgot
      rcases hy : client.getPolicyEvaluations out.deployment.id s' with ⟨e | evaluations, s''⟩
      · rw [client.judge_error hy]
        rwa [hy] at hlisted
      · rw [client.judge_ok hy]
        rw [hy] at hlisted
        split
        · exact hsettle out s'' hlisted
        · exact hlisted
    · exact hgot

end Aside

section Turns

variable {oracle : Nat → Moment} {world : World} {id : String} {r : Rollout} {n : Nat}
  {rows : List PolicyEvaluation} (htended : Tended oracle id)

include htended

/-- What a request finds. -/
theorem OnRecord.found (h : OnRecord id r rows world.tables) :
    OnRecord id r rows (world.tables.after (oracle world.calls).others) :=
  h.after (htended world.calls).2

/-- A request whose effect spares a rollout leaves it and its record. -/
theorem OnRecord.request {α : Type} (effect : Moment → Tables → Except ServiceError α × Tables)
    (heffect : ∀ m t, OnRecord id r rows t → OnRecord id r rows (effect m t).2)
    (h : OnRecord id r rows world.tables) :
    OnRecord id r rows (request oracle effect world).2.tables := by
  rw [request_state effect (htended world.calls).1]
  exact heffect _ _ (h.found htended)

theorem OnRecord.read {α : Type} (read : DeploymentOut → α) (id' : String)
    (h : OnRecord id r rows world.tables) :
    OnRecord id r rows (ModelOps.request oracle (fun _ t => t.ofDeployment id' read) world).2.tables :=
  h.request htended _ fun _ t ht => by rwa [ofDeployment_state]

/-- **The turn of another deployment** leaves a rollout and its record. -/
theorem OnRecord.aside {id' : String} (hne : id' ≠ id) (defaultWindowSeconds : Nat)
    (h : OnRecord id r rows world.tables) :
    OnRecord id r rows ((httpClient oracle).processDeployment defaultWindowSeconds id' world).2.tables := by
  refine process_keeps (P := fun w : World => OnRecord id r rows w.tables) (httpClient oracle)
    defaultWindowSeconds (fun _ hs => hs.read htended _ id') (fun id'' _ hs => ?_) (fun _ hs => ?_)
    (fun action _ hs => ?_) h
  · exact hs.request htended _ fun _ t ht => by rwa [ofDeployment_state]
  · refine hs.request htended (evaluateEffect id') fun m t ht => ?_
    have hcall : OnRecord id r rows ((ApiCall.evaluate m.evaluation (workerEvaluate id')).exec t) :=
      ht.call ⟨rfl, fun _ _ he => by cases he; exact hne⟩
    have hsame : (evaluateEffect id' m t).2 = ((workerEvaluate id').exec m.evaluation t).2 := by
      unfold evaluateEffect
      split <;> (rename_i hx; rw [hx])
    rw [hsame]
    exact hcall
  · refine hs.request htended _ fun m t ht => ?_
    rw [act_tables]
    refine ht.call ⟨?_, fun _ _ he => nomatch he⟩
    exact (action_move action id id').trans (if_neg hne)

/-! ## 3. Its own turn -/

/-- **From the evaluation on**: the rows are recorded, and their verdict is acted upon. -/
theorem settle_judged {out : DeploymentOut} {share : ℚ} (h : OnRecord id r rows world.tables)
    (hrun : r.phase = .running share)
    (hfull : canaryAtFullTraffic out = true ↔ r.next .advance = none) :
    ∃ new ≠ [], OnRecord id (r.judged new) (rows ++ new)
      ((httpClient oracle).settle out id world).2.tables := by
  have hfound := h.found htended
  let m := oracle world.calls
  let t := world.tables.after m.others
  obtain ⟨d, hd, hs⟩ := rollout?_eq_some.mp hfound.rollout
  obtain ⟨rfl, hd⟩ := ModelOps.found hd
  have ha : d.status.active = true := by
    rcases shows_running hs (hfound.shaped.2 d (deployment?_eq_some.mp hd).1) with ⟨ha, _⟩ | ⟨_, hnot⟩
    · exact ha
    · exact absurd hrun (hnot share)
  let config := (workerEvaluate d.id).effectiveConfig m.evaluation d
  let new := t.evaluationRows m.evaluation.clock d config
  let v := overallResult (t.checks m.evaluation.clock d config)
  have hne : new ≠ [] := evaluationRows_ne_nil
  have hverdict : verdictOf new = v := congrArg overallResult evaluationRows_checks
  have heffect : evaluateEffect d.id m t = (.ok v, t.recorded new) := by
    unfold evaluateEffect
    rw [exec_evaluated m.evaluation (workerEvaluate d.id) hd ha]
  have hevaluate : (httpClient oracle).evaluate d.id world =
      (.ok v, ⟨t.recorded new, world.calls + 1⟩) :=
    request_ok (evaluateEffect d.id) (htended world.calls).1 heffect
  rw [(httpClient oracle).settle_ok hevaluate]
  -- others may call before the action, but it finds the rollout as it was judged
  let m' := oracle (world.calls + 1)
  let t' := (t.recorded new).after m'.others
  have hacting : OnRecord d.id r (rows ++ new) t' :=
    (hfound.recorded fun row hrow => (evaluationRows_mem hrow).1).after (htended _).2
  let action := decideAction v (canaryAtFullTraffic out)
  have hasked : action.move = r.asked v := by
    show (decideAction v (canaryAtFullTraffic out)).move = _
    cases v with
    | fail => rfl
    | inconclusive => rfl
    | pass =>
        cases hcan : canaryAtFullTraffic out with
        | true => simp [Rollout.asked, hfull.mp hcan, decideAction, WorkerAction.move]
        | false =>
            have hsome : (r.next .advance).isSome = true :=
              Option.isSome_iff_ne_none.mpr fun hnone => by
                rw [hfull.mpr hnone] at hcan
                cases hcan
            simp [Rollout.asked, hsome, decideAction, WorkerAction.move]
  have hacted : ((httpClient oracle).act d.id action ⟨t.recorded new, world.calls + 1⟩).2.tables =
      (ApiCall.lifecycle m'.env (action.request d.id)).exec t' := by
    rw [← act_tables]
    exact congrArg World.tables (request_state _ (htended (world.calls + 1)).1)
  refine ⟨new, hne, ?_⟩
  rw [hacted, judged_rows r hne, hverdict, ← hasked]
  exact ⟨after_shaped [.lifecycle m'.env (action.request d.id)] hacting.shaped,
    (history_refines d.id).moves hacting.shaped hacting.rollout
      ((action_move action d.id d.id).trans (if_pos rfl)), hacting.record⟩

/-- **In its turn a rollout is judged**, if it is running. -/
theorem turn_judged (h : OnRecord id r rows world.tables) (defaultWindowSeconds : Nat) :
    Judges oracle id r rows (∃ share, r.phase = .running share) world
      ((httpClient oracle).processDeployment defaultWindowSeconds id world).2 := by
  have hfound := h.found htended
  let t := world.tables.after (oracle world.calls).others
  obtain ⟨d, hd, hs⟩ := rollout?_eq_some.mp hfound.rollout
  obtain ⟨rfl, hd⟩ := ModelOps.found hd
  have hshape := hfound.shaped.2 d (deployment?_eq_some.mp hd).1
  let out : DeploymentOut := ⟨d, t.db.trafficAllocation? d.id⟩
  have hread : t.ofDeployment d.id (fun out => out) = (.ok out, t) := by
    unfold Tables.ofDeployment Db.deploymentOut?
    rw [hd]
    rfl
  have hget : (httpClient oracle).getDeployment d.id world = (.ok out, ⟨t, world.calls + 1⟩) :=
    request_ok (fun _ t => t.ofDeployment d.id fun out => out) (htended world.calls).1 hread
  rw [(httpClient oracle).process_ok hget]
  have hnone : OnRecord d.id (r.judged []) (rows ++ []) t := by
    rwa [judged_nil, List.append_nil]
  rcases shows_running hs hshape with ⟨ha, hrun⟩ | ⟨ha, hnot⟩
  · let t' := t.after (oracle (world.calls + 1)).others
    have hlater : OnRecord d.id r rows t' := hfound.after (htended (world.calls + 1)).2
    obtain ⟨d', hd', _⟩ := rollout?_eq_some.mp hlater.rollout
    have hread' : t'.ofDeployment d.id
        (fun _ => (t'.listPolicyEvaluations d.id).map PolicyEvaluation.evaluatedAt) =
          (.ok ((t'.listPolicyEvaluations d.id).map PolicyEvaluation.evaluatedAt), t') := by
      unfold Tables.ofDeployment Db.deploymentOut?
      rw [hd']
      rfl
    have hlist : (httpClient oracle).getPolicyEvaluations d.id ⟨t, world.calls + 1⟩ =
        (.ok ((t'.listPolicyEvaluations d.id).map PolicyEvaluation.evaluatedAt),
          ⟨t', world.calls + 1 + 1⟩) :=
      request_ok (fun _ t => t.ofDeployment d.id fun _ =>
        (t.listPolicyEvaluations d.id).map PolicyEvaluation.evaluatedAt) (htended (world.calls + 1)).1
        hread'
    rw [if_pos ha, (httpClient oracle).judge_ok hlist]
    split
    · have hsettling : OnRecord d.id r rows (⟨t', world.calls + 1 + 1⟩ : World).tables := hlater
      obtain ⟨new, hne, hjudged⟩ := settle_judged htended hsettling hrun
        (full_iff hshape hs ha hrun)
      exact ⟨new, hjudged, fun _ => ⟨_, hrun⟩, fun _ _ _ _ => hne⟩
    · rename_i hwaits
      refine ⟨[], ?_, fun hne => absurd rfl hne, fun n hwindow hover _ => absurd ?_ hwaits⟩
      · rwa [judged_nil, List.append_nil]
      · -- a rollout whose rows are a window old is due
        have hdue : t'.due out (oracle (world.calls + 1 + 1)).now defaultWindowSeconds = true := by
          refine due_of_over fun row hrow hid => ?_
          have hold := h.rows_old hlater row hrow hid
          have hseconds : evaluationWindowSeconds out defaultWindowSeconds = n := by
            obtain ⟨d'', p, hd'', hp, hn⟩ :=
              window_eq_some.mp (window_after (oracle world.calls).others hwindow)
            rw [hd] at hd''
            cases hd''
            simp only [out, evaluationWindowSeconds, hp, hn]
          rw [hseconds]
          exact hover row hold hid _ (Nat.le_add_right world.calls 2)
        rw [List.head?_map]
        exact hdue
  · rw [if_neg (by simp [out, ha])]
    exact ⟨[], hnone, fun hne => absurd rfl hne, fun _ _ _ hrun => absurd hrun (not_exists.mpr hnot)⟩

/-! ## 4. Its sweep -/

/-- The worker has called in between. -/
theorem process_calls (id' : String) (defaultWindowSeconds : Nat) :
    world.calls ≤ ((httpClient oracle).processDeployment defaultWindowSeconds id' world).2.calls := by
  have hrequest : ∀ {α : Type} (effect : Moment → Tables → Except ServiceError α × Tables) (w : World),
      world.calls ≤ w.calls → world.calls ≤ (request oracle effect w).2.calls := by
    intro α effect w hle
    rw [request_state effect (htended w.calls).1]
    exact hle.trans (Nat.le_add_right w.calls 1)
  exact process_keeps (P := fun w : World => world.calls ≤ w.calls) (httpClient oracle)
    defaultWindowSeconds (hrequest _) (fun _ => hrequest _) (hrequest _) (fun _ => hrequest _)
    (Nat.le_refl _)

/-- A sweep that does not list it. -/
theorem OnRecord.unlisted {ids : List String} (hid : id ∉ ids) (defaultWindowSeconds : Nat)
    (h : OnRecord id r rows world.tables) :
    OnRecord id r rows ((httpClient oracle).processAll defaultWindowSeconds ids world).tables := by
  induction ids generalizing world with
  | nil => exact h
  | cons id' ids ih =>
      rw [(httpClient oracle).processAll_cons]
      exact ih (List.not_mem_of_not_mem_cons hid)
        (h.aside htended (Ne.symm (List.ne_of_not_mem_cons hid)) defaultWindowSeconds)

/-- A sweep that lists it has one turn for it. -/
theorem all_judged {ids : List String} (hnodup : ids.Nodup) (hid : id ∈ ids)
    (h : OnRecord id r rows world.tables) (defaultWindowSeconds : Nat) :
    Judges oracle id r rows (∃ share, r.phase = .running share) world
      ((httpClient oracle).processAll defaultWindowSeconds ids world) := by
  induction ids generalizing world with
  | nil => cases hid
  | cons id' ids ih =>
      obtain ⟨hnot, hnodup⟩ := List.nodup_cons.mp hnodup
      rw [(httpClient oracle).processAll_cons]
      by_cases hsame : id = id'
      · subst hsame
        obtain ⟨new, hjudged, hadded⟩ := turn_judged htended h defaultWindowSeconds
        exact ⟨new, hjudged.unlisted htended hnot defaultWindowSeconds, hadded⟩
      · have haside := h.aside htended (Ne.symm hsame) defaultWindowSeconds
        obtain ⟨new, hjudged, hwatched, hsome⟩ :=
          ih hnodup ((List.mem_cons.mp hid).resolve_left hsame) haside
        refine ⟨new, hjudged, hwatched, fun n hwindow hover => hsome n ?_ ?_⟩
        · exact window_reaches (reaches_process oracle defaultWindowSeconds world id' ids) hwindow
        · exact hover.later (process_calls htended id' defaultWindowSeconds) (h.rows_old haside)

/-- **A sweep judges what it watches**, and nothing else. -/
theorem sweep_judged (h : OnRecord id r rows world.tables) (defaultWindowSeconds : Nat) :
    Judges oracle id r rows r.Watched world ((httpClient oracle).runOnce defaultWindowSeconds world).2 := by
  let world' := ((httpClient oracle).reconcile world).2
  have hreconciled : OnRecord id r rows world'.tables :=
    h.request htended _ fun m t ht =>
      ht.call (c := .reconcile m.clock m.gateway) ⟨rfl, fun _ _ he => nomatch he⟩
  let listing : World := ⟨world'.tables.after (oracle world'.calls).others, world'.calls + 1⟩
  have hlisting : OnRecord id r rows listing.tables := hreconciled.found htended
  have hlist : (httpClient oracle).listDeployments world' =
      (.ok listing.tables.db.listDeployments, listing) :=
    request_ok (fun _ t => (.ok t.db.listDeployments, t)) (htended world'.calls).1 rfl
  have hsweep : ((httpClient oracle).runOnce defaultWindowSeconds world).2 =
      (httpClient oracle).processAll defaultWindowSeconds listing.tables.db.activeIds listing := by
    unfold WorkerClient.runOnce
    rw [hlist]
    rfl
  rw [hsweep]
  have hcalls : world.calls ≤ listing.calls := by
    have hfirst : world'.calls = world.calls + 1 := by
      show (request oracle _ world).2.calls = _
      rw [request_state _ (htended world.calls).1]
    show world.calls ≤ world'.calls + 1
    omega
  by_cases hwatched : r.Watched
  · obtain ⟨new, hjudged, _, hsome⟩ := all_judged htended (activeIds_nodup _)
      ((listed_iff hlisting).mpr hwatched) hlisting defaultWindowSeconds
    refine ⟨new, hjudged, fun _ => hwatched, fun n hwindow hover _ => hsome n ?_ ?_ hwatched.1⟩
    · exact window_reaches ((reaches_reconcile oracle world).trans (reaches_others oracle _ _)) hwindow
    · exact hover.later hcalls (h.rows_old hlisting)
  · have hunlisted := hlisting.unlisted htended (fun hid => hwatched ((listed_iff hlisting).mp hid))
      defaultWindowSeconds
    refine ⟨[], ?_, fun hne => absurd rfl hne, fun _ _ _ hw => absurd hw hwatched⟩
    rwa [judged_nil, List.append_nil]

end Turns

/-! ## 5. Sweep after sweep -/

section Sweeps

variable {oracle : Nat → Moment} {world : World} {id : String} {r : Rollout} {n : Nat}
  {rows : List PolicyEvaluation}

/-- `blocks` are the rows that the sweeps from `world` on have added, sweep by sweep, and each finds the
    rollout where those before have taken it. -/
structure SweepsAdd (oracle : Nat → Moment) (defaultWindowSeconds : Nat) (id : String) (r : Rollout)
    (rows : List PolicyEvaluation) (world : World) (blocks : List (List PolicyEvaluation)) : Prop where
  stands : ∀ k ≤ blocks.length, OnRecord id ((blocks.take k).foldl Rollout.judged r)
    (rows ++ (blocks.take k).flatten)
    ((httpClient oracle).runForever defaultWindowSeconds k world).tables
  watched : ∀ k block, blocks[k]? = some block → block ≠ [] →
    ((blocks.take k).foldl Rollout.judged r).Watched
  due : ∀ k block, blocks[k]? = some block → ∀ n,
    ((httpClient oracle).runForever defaultWindowSeconds k world).tables.db.window id = some n →
      Over oracle n id ((httpClient oracle).runForever defaultWindowSeconds k world) →
        ((blocks.take k).foldl Rollout.judged r).Watched → block ≠ []

/-- The sweeps add blocks, one each. -/
theorem sweeps_judged (htended : Tended oracle id) (defaultWindowSeconds rounds : Nat) (world : World)
    (h : OnRecord id r rows world.tables) :
    ∃ blocks, blocks.length = rounds ∧ SweepsAdd oracle defaultWindowSeconds id r rows world blocks := by
  induction rounds generalizing world r rows with
  | zero =>
      refine ⟨[], rfl, fun k hk => ?_, fun _ _ hk => by simp at hk, fun _ _ hk => by simp at hk⟩
      obtain rfl := Nat.le_zero.mp hk
      rwa [← List.append_nil rows] at h
  | succ rounds ih =>
      obtain ⟨new, hjudged, hwatched, hsome⟩ := sweep_judged htended h defaultWindowSeconds
      obtain ⟨blocks, hlength, hrest⟩ := ih _ hjudged
      refine ⟨new :: blocks, by rw [List.length_cons, hlength], fun k hk => ?_, fun k block hk => ?_,
        fun k block hk => ?_⟩
      · cases k with
        | zero => rwa [← List.append_nil rows] at h
        | succ k =>
            have hstands := hrest.stands k (Nat.le_of_succ_le_succ hk)
            rw [List.append_assoc] at hstands
            exact hstands
      · cases k with
        | zero =>
            cases hk
            exact hwatched
        | succ k => exact hrest.watched k block hk
      · cases k with
        | zero =>
            cases hk
            exact hsome
        | succ k => exact hrest.due k block hk

/-- Where a history led, before anybody tends it. -/
theorem onRecord_after (history : List ApiCall) {d : Deployment}
    (hd : d ∈ (Tables.empty.after history).db.deployments) :
    ∃ r, OnRecord d.id r ((Tables.empty.after history).recordOf d.id) (Tables.empty.after history) := by
  have hshaped := reached_shaped history
  obtain ⟨r, hr⟩ := rollout_of_shape (hshaped.2 d hd) (Table.mem_iff_get?.mp hd)
  exact ⟨r, hshaped, hr, rfl⟩

end Sweeps

/-- **The record explains the rollout.** Where every call of the worker is answered and nobody else moves
    or evaluates a rollout, whatever they do otherwise and to other rollouts: each sweep adds rows to its
    record, or none, and after every number of sweeps the rollout stands where the verdicts of these rows
    take it, sweep by sweep. Rows are added only while it runs and is not on hold. -/
theorem record_explains (oracle : Nat → Moment) (history : List ApiCall)
    (calls defaultWindowSeconds rounds : Nat) (d : Deployment)
    (hd : d ∈ (Tables.empty.after history).db.deployments) (htended : Tended oracle d.id) :
    let world : World := ⟨Tables.empty.after history, calls⟩
    ∃ (r : Rollout) (blocks : List (List PolicyEvaluation)),
      world.tables.db.rollout? d.id = some r ∧ blocks.length = rounds ∧
      (∀ k ≤ rounds,
        let after := (httpClient oracle).runForever defaultWindowSeconds k world
        after.tables.recordOf d.id = world.tables.recordOf d.id ++ (blocks.take k).flatten ∧
          after.tables.db.rollout? d.id = some ((blocks.take k).foldl Rollout.judged r)) ∧
      ∀ k block, blocks[k]? = some block → block ≠ [] →
        ((blocks.take k).foldl Rollout.judged r).Watched := by
  intro world
  obtain ⟨r, hr⟩ := onRecord_after history hd
  obtain ⟨blocks, hlength, hadd⟩ := sweeps_judged htended defaultWindowSeconds rounds world hr
  refine ⟨r, blocks, hr.rollout, hlength, fun k hk => ?_, hadd.watched⟩
  have hstands := hadd.stands k (hk.trans (Nat.le_of_eq hlength.symm))
  exact ⟨hstands.record, hstands.rollout⟩

/-- The worker's first six calls are made at 20, the others three seconds later; `others` call before each
    sweep. -/
def sampleTended (others : Time → String → List ApiCall) (i : Nat) : Moment :=
  let now := if i < 6 then 20 else 3000000
  { sampleMoment with
    others := if i % 6 = 0 then others now (if i < 6 then "p1" else "p2") else []
    now := now
    evaluation := ⟨⟨now + 1, now + 2, now + 3, now + 4, []⟩, samplePolicy⟩
    env := Env.after (now + 10) "unused" }

theorem sampleTended_tended {others : Time → String → List ApiCall} {id : String}
    (h : ∀ now predictionId, ∀ c ∈ others now predictionId, c.Spares id) :
    Tended (sampleTended others) id := by
  refine fun i => ⟨rfl, fun c hc => ?_⟩
  simp only [sampleTended] at hc
  split at hc
  · exact h _ _ c hc
  · cases hc

/-- A request of each version at `now`; the canary's is a fraud that it found. -/
def sampleCaught (now : Time) (predictionId : String) : List ApiCall :=
  [.recordMetric now "d1" (sampleMetric "v1" 200),
    .recordMetric now "d1" { sampleMetric "v2" 200 with
      prediction := some 1, predictionId := some predictionId },
    .ingestLabel now ⟨predictionId, true.toNat, now, true.toNat_le⟩]

theorem sampleCaught_spares :
    ∀ now predictionId, ∀ c ∈ sampleCaught now predictionId, c.Spares "d1" := by
  intro now predictionId c hc
  simp only [sampleCaught, List.mem_cons, List.not_mem_nil, or_false] at hc
  rcases hc with rfl | rfl | rfl
  all_goals
    refine ⟨rfl, ?_⟩
    intro env req he
    cases he

/-- The rollout, before the worker's first sweep. -/
def sampleShortWorld : World :=
  ⟨Tables.empty.after [.lifecycle (Env.after 0 "d1") (.create sampleShort none)], 0⟩

theorem sampleShortWorld_row : ∃ d ∈ sampleShortWorld.tables.db.deployments, d.id = "d1" ∧
    d.policyConfig = sampleShort.policyConfig ∧ d.status = .canaryRunning ∧ d.automationPaused = false ∧
      sampleShortWorld.tables.db.canaryWeight d = 3 / 5 := by
  have h : (sampleShortWorld.tables.db.deployment? "d1").any (fun d =>
      decide (d.policyConfig = sampleShort.policyConfig) && decide (d.status = .canaryRunning) &&
        !d.automationPaused && decide (sampleShortWorld.tables.db.canaryWeight d = 3 / 5)) = true := by
    decide +kernel
  simp only [Option.any_eq_true, Bool.and_eq_true, Bool.not_eq_true', decide_eq_true_eq] at h
  obtain ⟨d, hd, ⟨⟨hp, hs⟩, hpaused⟩, hshare⟩ := h
  obtain ⟨hid, hd⟩ := found hd
  exact ⟨d, (deployment?_eq_some.mp hd).1, hid.symm, hp, hs, hpaused, hshare⟩

/-- Two sweeps, two evaluations. -/
theorem record_explains_sample :
    let after := (httpClient (sampleTended sampleCaught)).runForever 300 2 sampleShortWorld
    ∃ first second, after.tables.recordOf "d1" = first ++ second ∧
      after.tables.db.rollout? "d1" = some
        (((⟨.running (3 / 5), 0, 1, false⟩ : Rollout).judged first).judged second) := by
  intro after
  obtain ⟨d, hd, hid, _⟩ := sampleShortWorld_row
  have htended := sampleTended_tended sampleCaught_spares
  rw [← hid] at htended
  obtain ⟨r, blocks, hr, hlength, hstands, _⟩ := record_explains (sampleTended sampleCaught)
    [.lifecycle (Env.after 0 "d1") (.create sampleShort none)] 0 300 2 d hd htended
  obtain ⟨first, second, rfl⟩ := List.length_eq_two.mp hlength
  obtain ⟨hrecord, hrollout⟩ := hstands 2 (Nat.le_refl 2)
  have hfirst : sampleShortWorld.tables.db.rollout? "d1" = some ⟨.running (3 / 5), 0, 1, false⟩ := by
    decide +kernel
  have hnone : sampleShortWorld.tables.recordOf "d1" = [] := by decide +kernel
  rw [hid] at hr hrecord hrollout
  refine ⟨first, second, ?_, ?_⟩
  · refine hrecord.trans ?_
    rw [show (⟨Tables.empty.after [.lifecycle (Env.after 0 "d1") (.create sampleShort none)], 0⟩ :
      World).tables.recordOf "d1" = [] from hnone]
    simp
  · have hsame : r = ⟨.running (3 / 5), 0, 1, false⟩ := Option.some.inj (hr.symm.trans hfirst)
    rw [hsame] at hrollout
    exact hrollout

/-! ## 6. What the verdicts come to -/

section Verdicts

variable {r : Rollout} {rows : List PolicyEvaluation} {blocks : List (List PolicyEvaluation)}
  {share stage : ℚ}

theorem verdictOf_fail : verdictOf rows = .fail ↔ ∃ row ∈ rows, row.result = .fail := by
  unfold verdictOf overallResult
  split
  · rename_i hfail
    obtain ⟨check, hcheck, hresult⟩ := List.any_eq_true.mp hfail
    obtain ⟨row, hrow, rfl⟩ := List.mem_map.mp hcheck
    exact iff_of_true rfl ⟨row, hrow, of_decide_eq_true hresult⟩
  · rename_i hno
    refine iff_of_false (by split <;> decide) ?_
    rintro ⟨row, hrow, hresult⟩
    exact hno (List.any_eq_true.mpr
      ⟨row.toPolicyCheckResult, List.mem_map_of_mem hrow, decide_eq_true hresult⟩)

theorem verdictOf_pass (h : ∀ row ∈ rows, row.result = .pass) : verdictOf rows = .pass := by
  have hnone : ∀ result, result ≠ .pass →
      ((rows.map PolicyEvaluation.toPolicyCheckResult).any fun check => decide (check.result = result)) =
        false := by
    intro result hne
    rw [List.any_eq_false]
    intro check hcheck
    obtain ⟨row, hrow, rfl⟩ := List.mem_map.mp hcheck
    simp [h row hrow, Ne.symm hne]
  unfold verdictOf overallResult
  rw [hnone .fail (by decide), hnone .inconclusive (by decide)]
  rfl

/-- What is settled is judged no more. -/
theorem judged_settled (h : r.phase.open = false) (rows : List PolicyEvaluation) : r.judged rows = r := by
  unfold Rollout.judged
  split
  · rfl
  · exact proceed_disabled (next_settled h _)

theorem judged_all_settled (h : r.phase.open = false) (blocks : List (List PolicyEvaluation)) :
    blocks.foldl Rollout.judged r = r := by
  induction blocks with
  | nil => rfl
  | cons rows blocks ih => rw [List.foldl_cons, judged_settled h, ih]

/-- What a PASS makes of a rollout that is running. -/
theorem proceed_pass (hrun : r.phase = .running share) :
    proceed Rollout.next r (r.asked .pass) = { r with
      phase := match stageAbove share with
        | some stage => .running stage
        | none => .promoted } := by
  have hadvance := next_advance hrun
  unfold Rollout.asked
  cases hstage : stageAbove share with
  | some stage =>
      rw [hstage, Option.map_some] at hadvance
      rw [hadvance]
      exact proceed_enabled hadvance
  | none =>
      rw [hstage, Option.map_none] at hadvance
      rw [hadvance]
      exact proceed_enabled (by simp [Rollout.next, hrun, Phase.open])

/-- What an inconclusive verdict makes of it. -/
theorem proceed_inconclusive (hrun : r.phase = .running share) :
    (proceed Rollout.next r (r.asked .inconclusive)).phase = .running share ∨
      (proceed Rollout.next r (r.asked .inconclusive)).phase = .frozen share := by
  by_cases hlimit : r.retries < r.maxRetries
  · have hcycle : r.next .cycle = some { r with retries := r.retries + 1 } := by
      simp only [Rollout.next, hrun, if_pos hlimit]
    exact Or.inl ((congrArg Rollout.phase (proceed_enabled hcycle)).trans hrun)
  · have hfreeze : r.next .cycle =
        some { r with phase := .frozen share, retries := r.retries + 1 } := by
      simp only [Rollout.next, hrun, if_neg hlimit]
    exact Or.inr (congrArg Rollout.phase (proceed_enabled hfreeze))

/-- How a settled rollout shows. -/
theorem settled_shows {db : Db} {d : Deployment} (hs : Shows db d r) (hsh : Shape db d) :
    (r.phase = .rolledBack ↔ d.status = .rolledBack) ∧ (r.phase = .promoted ↔ d.status = .promoted) := by
  have hphase := hs.phase
  rcases hsh.status_cases with h | h | h | h <;> rw [h] at hphase ⊢ <;>
    rw [← Option.some.inj hphase] <;> simp

/-- **Only a FAIL rolls back.** -/
theorem judged_rolledBack (h : rows ≠ [] → r.Watched) :
    (r.judged rows).phase = .rolledBack ↔
      r.phase = .rolledBack ∨ ∃ row ∈ rows, row.result = .fail := by
  by_cases hnone : rows = []
  · subst hnone
    simp [judged_nil]
  · obtain ⟨⟨share, hrun⟩, _⟩ := h hnone
    have hnot : r.phase ≠ .rolledBack := by
      rw [hrun]
      intro h
      cases h
    rw [judged_rows r hnone, ← verdictOf_fail]
    cases hv : verdictOf rows with
    | fail =>
        have hback : r.next .rollback = some { r with phase := .rolledBack } := by
          simp [Rollout.next, hrun, Phase.open]
        exact iff_of_true (congrArg Rollout.phase (proceed_enabled hback)) (Or.inr rfl)
    | inconclusive =>
        refine iff_of_false ?_ (by simp [hnot])
        rcases proceed_inconclusive hrun with hp | hp
        all_goals
          rw [hp]
          intro h
          cases h
    | pass =>
        refine iff_of_false ?_ (by simp [hnot])
        rw [proceed_pass hrun]
        intro h
        cases hstage : stageAbove share with
        | some stage =>
            rw [hstage] at h
            cases h
        | none =>
            rw [hstage] at h
            cases h

/-- So it does over all the blocks that were added while it was watched. -/
theorem judged_all_rolledBack (blocks : List (List PolicyEvaluation))
    (h : ∀ k block, blocks[k]? = some block → block ≠ [] →
      ((blocks.take k).foldl Rollout.judged r).Watched) :
    (blocks.foldl Rollout.judged r).phase = .rolledBack ↔
      r.phase = .rolledBack ∨ ∃ row ∈ blocks.flatten, row.result = .fail := by
  induction blocks generalizing r with
  | nil => simp
  | cons rows blocks ih =>
      have hfirst : rows ≠ [] → r.Watched := h 0 rows rfl
      rw [List.foldl_cons, ih fun k block hk => h (k + 1) block hk, judged_rolledBack hfirst,
        List.flatten_cons]
      simp only [List.mem_append, or_and_right, exists_or, or_assoc]

theorem stagesAbove_stage (h : stageAbove share = some stage) :
    stagesAbove stage + 1 = stagesAbove share :=
  Nat.le_antisymm (stagesAbove_lt (stageAbove_mem h).1 (stageAbove_mem h).2) (stagesAbove_step h)

theorem stagesAbove_none (h : stageAbove share = none) : stagesAbove share = 0 :=
  List.countP_eq_zero.mpr fun s hs => List.find?_eq_none.mp h s hs

/-- **A rollout that only passes** climbs a stage with every evaluation, and is promoted with one more. -/
theorem judged_all_pass (blocks : List (List PolicyEvaluation)) (hrun : r.phase = .running share)
    (hpaused : r.paused = false) (hpass : ∀ row ∈ blocks.flatten, row.result = .pass)
    (hdue : ∀ k block, blocks[k]? = some block →
      ((blocks.take k).foldl Rollout.judged r).Watched → block ≠ []) :
    (blocks.length ≤ stagesAbove share ∧ ∃ share',
      (blocks.foldl Rollout.judged r).phase = .running share' ∧
        stagesAbove share' + blocks.length = stagesAbove share) ∨
    (stagesAbove share < blocks.length ∧ (blocks.foldl Rollout.judged r).phase = .promoted) := by
  induction blocks generalizing r share with
  | nil => exact Or.inl ⟨Nat.zero_le _, share, hrun, rfl⟩
  | cons rows blocks ih =>
      rw [List.flatten_cons] at hpass
      have hne : rows ≠ [] := hdue 0 rows rfl ⟨⟨share, hrun⟩, hpaused⟩
      have hverdict := verdictOf_pass fun row hrow => hpass row (List.mem_append_left _ hrow)
      have hjudged : r.judged rows = _ :=
        (judged_rows r hne).trans ((congrArg _ (congrArg _ hverdict)).trans (proceed_pass hrun))
      rw [List.foldl_cons, List.length_cons]
      cases hstage : stageAbove share with
      | some stage =>
          rw [hstage] at hjudged
          have hstages := stagesAbove_stage hstage
          have hclimbed : (r.judged rows).phase = .running stage := by rw [hjudged]
          have hrest := ih hclimbed (by rw [hjudged]; exact hpaused)
            (fun row hrow => hpass row (List.mem_append_right rows hrow)) fun k block hk =>
              hdue (k + 1) block hk
          rcases hrest with ⟨hle, share', hp, hleft⟩ | ⟨hlt, hp⟩
          · exact Or.inl ⟨by omega, share', hp, by omega⟩
          · exact Or.inr ⟨by omega, hp⟩
      | none =>
          rw [hstage] at hjudged
          refine Or.inr ⟨by rw [stagesAbove_none hstage]; exact Nat.succ_pos _, ?_⟩
          rw [judged_all_settled (by rw [hjudged]; rfl), hjudged]

end Verdicts

/-- The rows that sweeps have added to the record of `id`. -/
def Tables.addedSince (t' t : Tables) (id : String) : List PolicyEvaluation :=
  (t'.recordOf id).drop (t.recordOf id).length

section Since

variable {oracle : Nat → Moment} {world : World} {id : String} {r : Rollout}
  {defaultWindowSeconds n : Nat} {blocks : List (List PolicyEvaluation)} {rows : List PolicyEvaluation}

/-- All the sweeps at once. -/
theorem SweepsAdd.last (h : SweepsAdd oracle defaultWindowSeconds id r rows world blocks)
    (hrows : world.tables.recordOf id = rows) :
    let after := (httpClient oracle).runForever defaultWindowSeconds blocks.length world
    OnRecord id (blocks.foldl Rollout.judged r) (rows ++ blocks.flatten) after.tables ∧
      after.tables.addedSince world.tables id = blocks.flatten := by
  have hstands := h.stands blocks.length (Nat.le_refl _)
  rw [List.take_length] at hstands
  refine ⟨hstands, ?_⟩
  unfold Tables.addedSince
  rw [hstands.record, hrows, List.drop_left]

theorem window_forever (oracle : Nat → Moment) (defaultWindowSeconds rounds : Nat) {world : World}
    (h : world.tables.db.window id = some n) :
    ((httpClient oracle).runForever defaultWindowSeconds rounds world).tables.db.window id = some n := by
  induction rounds generalizing world with
  | zero => exact h
  | succ rounds ih => exact ih (window_reaches (reaches_once oracle defaultWindowSeconds world) h)

end Since

/-- **A rollout is rolled back exactly if a FAIL is on record.** Under the worker's watch, whatever others
    do besides: a rollout that was not rolled back before is rolled back after any number of sweeps if
    and only if one of the rows that they have added is a FAIL. -/
theorem rolledBack_iff (oracle : Nat → Moment) (history : List ApiCall)
    (calls defaultWindowSeconds rounds : Nat) (d : Deployment)
    (hd : d ∈ (Tables.empty.after history).db.deployments) (htended : Tended oracle d.id)
    (hbefore : d.status ≠ .rolledBack) :
    let world : World := ⟨Tables.empty.after history, calls⟩
    let after := (httpClient oracle).runForever defaultWindowSeconds rounds world
    ∃ d', after.tables.db.deployment? d.id = some d' ∧
      (d'.status = .rolledBack ↔
        ∃ row ∈ after.tables.addedSince world.tables d.id, row.result = .fail) := by
  intro world after
  obtain ⟨r, hr⟩ := onRecord_after history hd
  obtain ⟨blocks, rfl, hadd⟩ := sweeps_judged htended defaultWindowSeconds rounds world hr
  obtain ⟨hafter, hadded⟩ := hadd.last rfl
  obtain ⟨d', hd', hs'⟩ := rollout?_eq_some.mp hafter.rollout
  have hshape' := hafter.shaped.2 d' (deployment?_eq_some.mp hd').1
  have hnot : r.phase ≠ .rolledBack := fun hp =>
    hbefore ((settled_shows (shows_of_rollout (Table.mem_iff_get?.mp hd) hr.rollout)
      (hr.shaped.2 d hd)).1.mp hp)
  refine ⟨d', hd', ?_⟩
  rw [← (settled_shows hs' hshape').1, judged_all_rolledBack blocks hadd.watched]
  show _ ↔ ∃ row ∈ after.tables.addedSince world.tables d.id, _
  rw [hadded]
  exact or_iff_right hnot

/-- A request of each version at `now`; the canary's is an error. -/
def sampleFailed (now : Time) (_ : String) : List ApiCall :=
  [.recordMetric now "d1" (sampleMetric "v1" 200), .recordMetric now "d1" (sampleMetric "v2" 500)]

theorem sampleFailed_spares :
    ∀ now predictionId, ∀ c ∈ sampleFailed now predictionId, c.Spares "d1" := by
  intro now _ c hc
  simp only [sampleFailed, List.mem_cons, List.not_mem_nil, or_false] at hc
  rcases hc with rfl | rfl
  all_goals
    refine ⟨rfl, ?_⟩
    intro env req he
    cases he

/-- The first sweep rolls it back. -/
theorem rolledBack_iff_sample :
    ∃ d, ((httpClient (sampleTended sampleFailed)).runForever 300 1
      sampleShortWorld).tables.db.deployment? "d1" = some d ∧ d.status = .rolledBack := by
  obtain ⟨d, hd, hid, _, hrunning, _⟩ := sampleShortWorld_row
  have htended := sampleTended_tended sampleFailed_spares
  rw [← hid] at htended
  obtain ⟨d', hd', hiff⟩ := rolledBack_iff (sampleTended sampleFailed)
    [.lifecycle (Env.after 0 "d1") (.create sampleShort none)] 0 300 1 d hd htended
    (by rw [hrunning]; decide)
  have hfail : ((((httpClient (sampleTended sampleFailed)).runForever 300 1
      sampleShortWorld).tables.addedSince sampleShortWorld.tables "d1").any fun row =>
        decide (row.result = .fail)) = true := by decide +kernel
  obtain ⟨row, hrow, hresult⟩ := List.any_eq_true.mp hfail
  rw [hid] at hd' hiff
  exact ⟨d', hd', hiff.mpr ⟨row, hrow, of_decide_eq_true hresult⟩⟩

/-- **A canary that passes is promoted on schedule.** Under the worker's watch, whatever others do
    besides: where every sweep begins when the windows of what is on record are over, and every row that
    the sweeps add is a PASS, each sweep takes a rollout up one stage, and the one after the last stage
    promotes it. -/
theorem passing_promoted (oracle : Nat → Moment) (history : List ApiCall)
    (calls defaultWindowSeconds rounds : Nat) (d : Deployment) (p : PolicyConfig)
    (hd : d ∈ (Tables.empty.after history).db.deployments) (hp : d.policyConfig = some p)
    (hrunning : d.status = .canaryRunning) (hpaused : d.automationPaused = false)
    (htended : Tended oracle d.id)
    (hover : ∀ k < rounds, Over oracle p.evaluationWindowSeconds d.id
      ((httpClient oracle).runForever defaultWindowSeconds k ⟨Tables.empty.after history, calls⟩))
    (hpass : ∀ row ∈ ((httpClient oracle).runForever defaultWindowSeconds rounds
      ⟨Tables.empty.after history, calls⟩).tables.addedSince (Tables.empty.after history) d.id,
        row.result = .pass) :
    let stages := stagesAbove ((Tables.empty.after history).db.canaryWeight d)
    let after := ((httpClient oracle).runForever defaultWindowSeconds rounds
      ⟨Tables.empty.after history, calls⟩).tables.db
    ∃ d', after.deployment? d.id = some d' ∧
      ((rounds ≤ stages ∧ d'.status = .canaryRunning ∧
          stagesAbove (after.canaryWeight d') + rounds = stages) ∨
        (stages < rounds ∧ d'.status = .promoted)) := by
  intro stages after
  have hget := Table.mem_iff_get?.mp hd
  obtain ⟨r, hr⟩ := onRecord_after history hd
  obtain ⟨blocks, rfl, hadd⟩ := sweeps_judged htended defaultWindowSeconds rounds
    ⟨Tables.empty.after history, calls⟩ hr
  obtain ⟨hafter, hadded⟩ := hadd.last rfl
  obtain ⟨d', hd', hs'⟩ := rollout?_eq_some.mp hafter.rollout
  have hshape' := hafter.shaped.2 d' (deployment?_eq_some.mp hd').1
  have hs := shows_of_rollout hget hr.rollout
  have hrun : r.phase = .running ((Tables.empty.after history).db.canaryWeight d) := by
    have hphase := hs.phase
    rw [hrunning] at hphase
    exact (Option.some.inj hphase).symm
  have hwindow := window_eq_some.mpr ⟨d, p, hget, hp, rfl⟩
  have hdue : ∀ k block, blocks[k]? = some block →
      ((blocks.take k).foldl Rollout.judged r).Watched → block ≠ [] := by
    intro k block hk
    obtain ⟨hlt, _⟩ := List.getElem?_eq_some_iff.mp hk
    exact hadd.due k block hk _ (window_forever oracle defaultWindowSeconds k hwindow) (hover k hlt)
  refine ⟨d', hd', ?_⟩
  have hrows : ∀ row ∈ blocks.flatten, row.result = .pass := fun row hrow =>
    hpass row (by rw [hadded]; exact hrow)
  rcases judged_all_pass blocks hrun (hs.paused.symm.trans hpaused) hrows hdue with
    ⟨hle, share', hp', hleft⟩ | ⟨hlt, hp'⟩
  · left
    rcases shows_running hs' hshape' with ⟨ha, hphase⟩ | ⟨_, hnot⟩
    · rw [hp'] at hphase
      rw [Phase.running.inj hphase] at hleft
      exact ⟨hle, hshape'.running_of_active ha, hleft⟩
    · exact absurd hp' (hnot share')
  · exact Or.inr ⟨hlt, (settled_shows hs' hshape').2.mp hp'⟩

theorem sampleCaught_over : ∀ k < 2, Over (sampleTended sampleCaught) 2 "d1"
    ((httpClient (sampleTended sampleCaught)).runForever 300 k sampleShortWorld) := by
  have hfirst : sampleShortWorld.tables.policyEvaluations = [] := by decide +kernel
  have hsecond : 6 ≤ ((httpClient (sampleTended sampleCaught)).runForever 300 1 sampleShortWorld).calls ∧
      ∀ row ∈ ((httpClient (sampleTended sampleCaught)).runForever 300 1
        sampleShortWorld).tables.policyEvaluations, row.evaluatedAt ≤ 100 := by decide +kernel
  intro k hk row hrow _ i hi
  rcases Nat.lt_succ_iff_lt_or_eq.mp hk with hk | rfl
  · obtain rfl := Nat.lt_one_iff.mp hk
    rw [show ((httpClient (sampleTended sampleCaught)).runForever 300 0
      sampleShortWorld).tables.policyEvaluations = [] from hfirst] at hrow
    cases hrow
  · have hearly := hsecond.2 row hrow
    have hnow : (sampleTended sampleCaught i).now = 3000000 :=
      if_neg (Nat.not_lt.mpr (hsecond.1.trans hi))
    rw [hnow]
    exact (Nat.add_le_add_right hearly _).trans (by decide)

/-- From three fifths, the second sweep promotes. -/
theorem passing_promoted_sample :
    ∃ d, ((httpClient (sampleTended sampleCaught)).runForever 300 2
      sampleShortWorld).tables.db.deployment? "d1" = some d ∧ d.status = .promoted := by
  obtain ⟨d, hd, hid, hp, hrunning, hpaused, hshare⟩ := sampleShortWorld_row
  have htended := sampleTended_tended sampleCaught_spares
  have hover := sampleCaught_over
  have hpass : ((((httpClient (sampleTended sampleCaught)).runForever 300 2
      sampleShortWorld).tables.addedSince sampleShortWorld.tables "d1").all fun row =>
        decide (row.result = .pass)) = true := by decide +kernel
  rw [← hid] at htended hover hpass
  obtain ⟨d', hd', h⟩ := passing_promoted (sampleTended sampleCaught)
    [.lifecycle (Env.after 0 "d1") (.create sampleShort none)] 0 300 2 d _ hd hp hrunning hpaused htended
    hover fun row hrow => of_decide_eq_true (List.all_eq_true.mp hpass row hrow)
  rw [show (Tables.empty.after [.lifecycle (Env.after 0 "d1") (.create sampleShort none)]).db.canaryWeight
    d = 3 / 5 from hshare] at h
  have hstages : stagesAbove (3 / 5) = 1 := by decide +kernel
  rw [hid] at hd'
  refine ⟨d', hd', ?_⟩
  rcases h with ⟨hle, _⟩ | ⟨_, hpromoted⟩
  · rw [hstages] at hle
    exact absurd hle (by decide)
  · exact hpromoted

end ModelOps
