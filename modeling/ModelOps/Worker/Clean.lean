/-
  File:      ModelOps/Worker/Clean.lean
  Subject:   A sweep of `run_once` whose calls are all answered: it passes nothing over.

  Whatever others call meanwhile, a deployment that the sweep listed has, at its end, left evaluation or
  a row within its window of the time the sweep began (`Handled`): one that was there already, or one the
  sweep has had recorded.

  * `handled_reaches` -- what is handled stays handled;
  * `handled_process` -- `process_deployment` handles its deployment;
  * **`sweep_settles`** -- so nothing the sweep listed is due at the time it began.
-/
import ModelOps.Worker.Pace
import ModelOps.Worker.RunOnce

namespace ModelOps

open Relational Labelled

/-- The rollout left evaluation, or it has a row within its window of `start`; the window is `n` seconds. -/
def Handled (start : Time) (n : Nat) (id : String) (t : Tables) : Prop :=
  Left t.db id ∨
    ∃ r ∈ t.policyEvaluations, r.deploymentId = id ∧ start < r.evaluatedAt + n * 10 ^ 6

section Stays

variable {start : Time} {n : Nat} {id : String} {t : Tables} {w w' : WorkerState} {l : WorkerLabel}

theorem handled_call (c : ApiCall) (h : Handled start n id t) : Handled start n id (c.exec t) := by
  rcases h with h | ⟨r, hr, hid, hlate⟩
  · exact Or.inl (left_call c h)
  · exact Or.inr ⟨r, exec_rows c r hr, hid, hlate⟩

theorem handled_after (calls : List ApiCall) (h : Handled start n id t) :
    Handled start n id (t.after calls) := by
  induction calls generalizing t with
  | nil => exact h
  | cons c calls ih => exact ih (handled_call c h)

/-- A deployment has its window as long as it runs. -/
theorem window_next (hn : WorkerState.next w l = some w') (h : w.tables.db.window id = some n) :
    w'.tables.db.window id = some n := by
  rcases worker_cases hn with ⟨rows, hrows, _⟩ | ⟨c, _, rfl⟩ | ⟨env, _, id', action, _, _, rfl⟩
  · rw [hrows]
    exact h
  · exact window_call c h
  · exact window_call (.lifecycle env (action.request id')) h

theorem handled_next (hn : WorkerState.next w l = some w') (h : Handled start n id w.tables) :
    Handled start n id w'.tables := by
  rcases worker_cases hn with ⟨rows, hrows, _⟩ | ⟨c, _, rfl⟩ | ⟨env, _, id', action, _, _, rfl⟩
  · rw [hrows]
    rcases h with h | ⟨r, hr, hid, hlate⟩
    · exact Or.inl h
    · exact Or.inr ⟨r, List.mem_append_left rows hr, hid, hlate⟩
  · exact handled_call c h
  · exact handled_call (.lifecycle env (action.request id')) h

variable {oracle : Nat → Moment}

theorem grounded_rest (history : List ApiCall) : Grounded { tables := Tables.empty.after history } where
  shaped := reached_shaped history
  backed _ ht := nomatch ht

theorem grounded_reaches (hr : Reaches oracle w w') (h : Grounded w) : Grounded w' := by
  obtain ⟨ls, hrun, _⟩ := hr
  exact run_inv (I := Grounded) (fun _ _ _ h hn => grounded_step h hn) h hrun

theorem window_reaches (hr : Reaches oracle w w') (h : w.tables.db.window id = some n) :
    w'.tables.db.window id = some n := by
  obtain ⟨ls, hrun, _⟩ := hr
  exact run_inv (I := fun w : WorkerState => w.tables.db.window id = some n)
    (fun _ _ _ h hn => window_next hn h) h hrun

/-- **What is handled stays handled.** -/
theorem handled_reaches (hr : Reaches oracle w w') (h : Handled start n id w.tables) :
    Handled start n id w'.tables := by
  obtain ⟨ls, hrun, _⟩ := hr
  exact run_inv (I := fun w : WorkerState => Handled start n id w.tables)
    (fun _ _ _ h hn => handled_next hn h) h hrun

theorem window_after (calls : List ApiCall) (h : t.db.window id = some n) :
    (t.after calls).db.window id = some n := by
  induction calls generalizing t with
  | nil => exact h
  | cons c calls ih => exact ih (window_call c h)

/-- What is handled is not due at `start`. -/
theorem handled_due {out : DeploymentOut} {default : Nat} (h : Handled start n id t)
    (hwindow : t.db.window id = some n) (hout : t.db.deploymentOut? id = some out)
    (ha : out.deployment.status.active = true) : t.due out start default = false := by
  obtain ⟨d, hd, rfl⟩ := Option.map_eq_some_iff.mp hout
  obtain ⟨d', p, hd', hp, hn⟩ := window_eq_some.mp hwindow
  rw [hd] at hd'
  cases hd'
  rcases h with ⟨d', hd', hleft⟩ | ⟨r, hr, hid, hlate⟩
  · rw [Option.mem_def, hd] at hd'
    cases hd'
    exact absurd ha (by simp [hleft])
  · by_contra hdue
    have hover := due_rows (Bool.not_eq_false _ ▸ hdue) r hr (hid.trans (found hd).1)
    have hsame : evaluationWindowSeconds (⟨d, t.db.trafficAllocation? d.id⟩ : DeploymentOut) default =
        n := by
      simp only [evaluationWindowSeconds, hp, hn]
    rw [show evaluationWindowSeconds _ default = n from hsame] at hover
    exact absurd hover (Nat.not_le.mpr hlate)

end Stays

/-! ## 2. One deployment -/

section Process

variable {oracle : Nat → Moment} {start : Time} {n : Nat} {id : String}

/-- A request that is answered takes effect. -/
theorem request_state {α : Type} (effect : Moment → Tables → Except ServiceError α × Tables)
    {world : World} (h : (oracle world.calls).fate = .answered) :
    (request oracle effect world).2 =
      ⟨(effect (oracle world.calls) (world.tables.after (oracle world.calls).others)).2,
        world.calls + 1⟩ := by
  unfold request
  simp only [h]
  split <;> (rename_i h'; rw [h'])

/-- And its answer is that of its effect. -/
theorem request_ok {α : Type} (effect : Moment → Tables → Except ServiceError α × Tables)
    {world : World} (h : (oracle world.calls).fate = .answered) {a : α} {t' : Tables}
    (hx : effect (oracle world.calls) (world.tables.after (oracle world.calls).others) = (.ok a, t')) :
    request oracle effect world = (.ok a, ⟨t', world.calls + 1⟩) := by
  unfold request
  simp only [h, hx]

/-- A deployment with a window is found. -/
theorem ofDeployment_found {α : Type} {t : Tables} (read : DeploymentOut → α)
    (h : t.db.window id = some n) :
    ∃ out, t.db.deploymentOut? id = some out ∧ out.deployment.id = id ∧
      (∀ default, evaluationWindowSeconds out default = n) ∧
      t.ofDeployment id read = (.ok (read out), t) := by
  obtain ⟨d, p, hd, hp, hn⟩ := window_eq_some.mp h
  have hout : t.db.deploymentOut? id = some ⟨d, t.db.trafficAllocation? d.id⟩ := by
    unfold Db.deploymentOut?
    rw [hd]
    rfl
  refine ⟨_, hout, (found hd).1.symm, fun default => ?_, ?_⟩
  · simp only [evaluationWindowSeconds, hp, hn]
  · unfold Tables.ofDeployment
    rw [hout]

variable (hanswered : ∀ i, (oracle i).fate = .answered)
  (hclock : ∀ i, start ≤ (oracle i).now ∧ ∀ τ ∈ (oracle i).evaluation.clock.readings, start ≤ τ)
  {world : World} {out : DeploymentOut}

include hanswered hclock

/-- The evaluation records rows of its own, or finds that the deployment has left. -/
theorem handled_evaluate (hn : 1 ≤ n) (hwindow : world.tables.db.window id = some n) :
    Handled start n id ((httpClient oracle).evaluate id world).2.tables := by
  let m := oracle world.calls
  let t := world.tables.after m.others
  have hx : ((httpClient oracle).evaluate id world).2 = ⟨(evaluateEffect id m t).2, world.calls + 1⟩ :=
    request_state (evaluateEffect id) (hanswered world.calls)
  rw [hx]
  obtain ⟨d, p, hd, _, _⟩ := window_eq_some.mp (window_after m.others hwindow)
  cases ha : d.status.active with
  | true =>
      have hrecorded : (evaluateEffect id m t).2 =
          t.recorded (t.evaluationRows m.evaluation.clock d
            ((workerEvaluate id).effectiveConfig m.evaluation d)) := by
        unfold evaluateEffect
        rw [exec_evaluated m.evaluation (workerEvaluate id) hd ha]
      let config := (workerEvaluate id).effectiveConfig m.evaluation d
      have hne : t.evaluationRows m.evaluation.clock d config ≠ [] := evaluationRows_ne_nil
      obtain ⟨r, hr⟩ := List.exists_mem_of_ne_nil _ hne
      obtain ⟨hrid, hread⟩ := evaluationRows_mem hr
      have hpos : 0 < n * 10 ^ 6 := Nat.mul_pos hn (by norm_num)
      have hlate : start < r.evaluatedAt + n * 10 ^ 6 :=
        lt_of_le_of_lt ((hclock world.calls).2 _ hread) (Nat.lt_add_of_pos_right hpos)
      rw [hrecorded]
      exact Or.inr ⟨r, List.mem_append_right _ hr, hrid.trans (found hd).1.symm, hlate⟩
  | false =>
      obtain ⟨e, he⟩ := exec_unevaluated (t := t) m.evaluation (workerEvaluate id) fun d' hd' => by
        rw [show t.db.deployment? id = some d' from hd'] at hd
        cases hd
        exact ha
      have hsame : (evaluateEffect id m t).2 = t := by
        unfold evaluateEffect
        rw [he]
      rw [hsame]
      exact Or.inl ⟨d, hd, ha⟩

theorem handled_settle (hn : 1 ≤ n) (hwindow : world.tables.db.window id = some n) :
    Handled start n id ((httpClient oracle).settle out id world).2.tables := by
  have hhandled := handled_evaluate hanswered hclock hn hwindow
  rcases hx : (httpClient oracle).evaluate id world with ⟨e | overallResult, world'⟩
  · rw [(httpClient oracle).settle_error hx]
    rw [hx] at hhandled
    exact hhandled
  · rw [(httpClient oracle).settle_ok hx]
    rw [hx] at hhandled
    exact handled_reaches (reaches_act oracle world' id _ []) hhandled

/-- **Its turn in the sweep handles a deployment.** -/
theorem handled_process {defaultWindowSeconds : Nat} (hn : 1 ≤ n)
    (hwindow : world.tables.db.window id = some n) :
    Handled start n id
      ((httpClient oracle).processDeployment defaultWindowSeconds id world).2.tables := by
  let t := world.tables.after (oracle world.calls).others
  have hw : t.db.window id = some n := window_after _ hwindow
  obtain ⟨out, hout, hid, hseconds, hfound⟩ := ofDeployment_found (fun out => out) hw
  have hget : (httpClient oracle).getDeployment id world = (.ok out, ⟨t, world.calls + 1⟩) :=
    request_ok (fun _ t => t.ofDeployment id fun out => out) (hanswered world.calls) hfound
  rw [(httpClient oracle).process_ok hget]
  cases ha : out.deployment.status.active with
  | false =>
      obtain ⟨d, hd, rfl⟩ := Option.map_eq_some_iff.mp hout
      exact Or.inl ⟨d, hd, ha⟩
  | true =>
      let t' := t.after (oracle (world.calls + 1)).others
      have hw' : t'.db.window id = some n := window_after _ hw
      obtain ⟨out', _, _, _, hfound'⟩ := ofDeployment_found
        (fun _ => (t'.listPolicyEvaluations id).map PolicyEvaluation.evaluatedAt) hw'
      have hlist : (httpClient oracle).getPolicyEvaluations out.deployment.id ⟨t, world.calls + 1⟩ =
          (.ok ((t'.listPolicyEvaluations id).map PolicyEvaluation.evaluatedAt),
            ⟨t', world.calls + 1 + 1⟩) := by
        rw [hid]
        exact request_ok (fun _ t => t.ofDeployment id fun _ =>
          (t.listPolicyEvaluations id).map PolicyEvaluation.evaluatedAt) (hanswered _) hfound'
      rw [if_pos rfl, (httpClient oracle).judge_ok hlist, hseconds]
      split
      · exact handled_settle hanswered hclock hn hw'
      · -- a row within the window is on record already
        rename_i hdue
        have hnow := (hclock (world.calls + 1 + 1)).1
        cases hl : t'.listPolicyEvaluations id with
        | nil =>
            rw [hl] at hdue
            exact absurd rfl hdue
        | cons r rest =>
            rw [hl] at hdue
            have hlate : ¬r.evaluatedAt + n * 10 ^ 6 ≤ (oracle (world.calls + 1 + 1)).now := fun h =>
              hdue (decide_eq_true h)
            have hr : r ∈ t'.listPolicyEvaluations id := by
              rw [hl]
              exact List.mem_cons_self
            obtain ⟨hmem, hrid⟩ := List.mem_filter.mp ((List.mem_insertionSort _).mp hr)
            exact Or.inr ⟨r, hmem, of_decide_eq_true hrid,
              lt_of_le_of_lt hnow (Nat.lt_of_not_le hlate)⟩

/-- Every deployment on the list has its turn. -/
theorem handled_all (defaultWindowSeconds : Nat) (hn : 1 ≤ n) {ids : List String} (hid : id ∈ ids)
    (hwindow : world.tables.db.window id = some n) :
    Handled start n id ((httpClient oracle).processAll defaultWindowSeconds ids world).tables := by
  induction ids generalizing world with
  | nil => cases hid
  | cons id' ids ih =>
      have hturn := reaches_process oracle defaultWindowSeconds world id' ids
      rw [(httpClient oracle).processAll_cons]
      by_cases hlater : id ∈ ids
      · exact ih hlater (window_reaches hturn hwindow)
      · obtain rfl : id = id' := (List.mem_cons.mp hid).resolve_right hlater
        exact handled_reaches (reaches_all oracle defaultWindowSeconds _ ids)
          (handled_process hanswered hclock hn hwindow)

end Process

/-- **A sweep whose calls are answered passes nothing over**: whatever others call meanwhile, a deployment
    it listed for evaluation is not due, at its end, at the time it began, unless it has left
    evaluation. -/
theorem sweep_settles (oracle : Nat → Moment) (history : List ApiCall) (calls : Nat) (start : Time)
    (defaultWindowSeconds : Nat) (hanswered : ∀ i, (oracle i).fate = .answered)
    (hclock : ∀ i, start ≤ (oracle i).now ∧ ∀ τ ∈ (oracle i).evaluation.clock.readings, start ≤ τ) :
    let client := httpClient oracle
    let world : World := ⟨Tables.empty.after history, calls⟩
    let t := (client.runOnce defaultWindowSeconds world).2.tables
    ∃ listed listing, client.listDeployments (client.reconcile world).2 = (.ok listed, listing) ∧
      ∀ d ∈ listed, d.status.active = true → d.automationPaused = false →
        ∀ out, t.db.deploymentOut? d.id = some out → out.deployment.status.active = true →
          t.due out start defaultWindowSeconds = false := by
  intro client world t
  let world' := (client.reconcile world).2
  let listing : World := ⟨world'.tables.after (oracle world'.calls).others, world'.calls + 1⟩
  have hlisted : client.listDeployments world' = (.ok listing.tables.db.listDeployments, listing) :=
    request_ok (fun _ t => (.ok t.db.listDeployments, t)) (hanswered _) rfl
  refine ⟨_, listing, hlisted, ?_⟩
  have hsweep : t = (client.processAll defaultWindowSeconds listing.tables.db.activeIds listing).tables := by
    show (client.runOnce defaultWindowSeconds world).2.tables = _
    unfold WorkerClient.runOnce
    rw [hlisted]
    rfl
  have hrows : Grounded { tables := listing.tables } :=
    grounded_reaches ((reaches_reconcile oracle world).trans (reaches_others oracle _ _)) (grounded_rest history)
  intro d hd ha hpaused out hout hactive
  have hmem : d ∈ listing.tables.db.deployments := (List.mem_insertionSort _).mp hd
  have hid : d.id ∈ listing.tables.db.activeIds :=
    List.mem_map_of_mem (List.mem_filter.mpr ⟨hd, by rw [ha, hpaused]; rfl⟩)
  obtain ⟨p, hp, _⟩ := (hrows.shaped.2 d hmem).policy
  have hwindow : listing.tables.db.window d.id = some p.evaluationWindowSeconds :=
    window_eq_some.mpr ⟨d, p, Table.mem_iff_get?.mp hmem, hp, rfl⟩
  have hhandled := handled_all hanswered hclock defaultWindowSeconds
    p.window_pos hid hwindow
  rw [hsweep] at hout ⊢
  exact handled_due hhandled (window_reaches (reaches_all oracle defaultWindowSeconds listing _) hwindow)
    hout hactive

/-- Nobody else calls, every call is answered, and the router cannot be reached. -/
def sampleMoment : Moment where
  others := []
  fate := .answered
  now := 100
  clock := ⟨100, 100, []⟩
  gateway := ⟨none, fun _ => .error .routerUpdate⟩
  evaluation := ⟨⟨101, 102, 103, 104, []⟩, samplePolicy⟩
  env := Env.after 110 "unused"

/-- `d1` stays under evaluation, and has had its turn. -/
theorem sweep_settles_sample :
    let t := ((httpClient fun _ => sampleMoment).runOnce 300
      ⟨Tables.empty.after (sampleHistory.take 1), 0⟩).2.tables
    ∃ out, t.db.deploymentOut? "d1" = some out ∧ out.deployment.status.active = true ∧
      t.due out 100 300 = false := by
  intro t
  have hclock : ∀ _ : Nat, 100 ≤ sampleMoment.now ∧
      ∀ τ ∈ sampleMoment.evaluation.clock.readings, 100 ≤ τ := fun _ => by decide
  obtain ⟨listed, listing, hlist, hsettled⟩ := sweep_settles (fun _ => sampleMoment)
    (sampleHistory.take 1) 0 100 300 (fun _ => rfl) hclock
  have hd1 : (((httpClient fun _ => sampleMoment).listDeployments
      ((httpClient fun _ => sampleMoment).reconcile
        ⟨Tables.empty.after (sampleHistory.take 1), 0⟩).2).1.toOption.any fun listed =>
      listed.any fun d => decide (d.id = "d1") && d.status.active && !d.automationPaused) = true := by
    decide +kernel
  have hstays : (t.db.deploymentOut? "d1").any (fun out => out.deployment.status.active) = true := by
    decide +kernel
  rw [hlist] at hd1
  obtain ⟨d, hd, hfits⟩ := List.any_eq_true.mp hd1
  simp only [Bool.and_eq_true, decide_eq_true_eq, Bool.not_eq_true'] at hfits
  obtain ⟨⟨hid, ha⟩, hpaused⟩ := hfits
  simp only [Option.any_eq_true] at hstays
  obtain ⟨out, hout, hactive⟩ := hstays
  exact ⟨out, hout, hactive, hsettled d hd ha hpaused out (by rw [hid]; exact hout) hactive⟩

end ModelOps
