/-
  File:      ModelOps/Worker/Finish.lean
  Subject:   A worker left alone finishes what it watches: `run_forever`, sweep after sweep.

  Nobody else calls, every call is answered, and each sweep begins when the windows of what is on record
  are over (`Alone`). Then a call by call `process_deployment` is the cycle of Worker/Loop.lean, a cycle
  of the abstract rollout, and each sweep takes a rollout at least one step of its work further.

  * `process_alone` -- the calls for one deployment leave what its cycle leaves;
  * `sweep_works` -- a sweep takes work off every rollout it watches;
  * **`rollouts_finish`** -- so after as many sweeps as there is work, nobody's rollout is left running.
-/
import ModelOps.Worker.Clean

namespace ModelOps

open Relational Labelled Refinement

/-! ## 1. One deployment, call by call -/

/-- The worker is left alone. -/
def Alone (oracle : Nat → Moment) : Prop :=
  ∀ i, (oracle i).others = [] ∧ (oracle i).fate = .answered

/-- What `process_deployment` finds when it begins at `w`. -/
def cycleAt (oracle : Nat → Moment) (defaultWindowSeconds : Nat) (w : World) (id : String) : Cycle where
  lastEvaluatedAt := w.tables.lastEvaluatedAt id
  now := (oracle (w.calls + 2)).now
  defaultWindowSeconds := defaultWindowSeconds
  overallResult :=
    match evaluateEffect id (oracle (w.calls + 2)) w.tables with
    | (.ok overallResult, _) => overallResult
    | (.error _, _) => .inconclusive
  env := (oracle (w.calls + 3)).env

section One

variable {oracle : Nat → Moment} {world : World} {id : String} {defaultWindowSeconds : Nat}

/-- A request of a worker left alone. -/
theorem request_alone {α : Type} (effect : Moment → Tables → Except ServiceError α × Tables)
    (h : Alone oracle) (world : World) :
    request oracle effect world =
      ((effect (oracle world.calls) world.tables).1.mapError raisedBy,
        ⟨(effect (oracle world.calls) world.tables).2, world.calls + 1⟩) := by
  obtain ⟨hothers, hfate⟩ := h world.calls
  unfold request
  simp only [hothers, hfate]
  rcases hx : effect (oracle world.calls) world.tables with ⟨e | a, t⟩
  · simp only [Tables.after, List.foldl_nil, hx]
    rfl
  · simp only [Tables.after, List.foldl_nil, hx]
    rfl

/-- What the calls for `id` leave: the rows of `db`, and evaluations of `id` beside those on record. -/
structure Leaves (w w' : World) (id : String) (db : Db) : Prop where
  db_eq : w'.tables.db = db
  calls_le : w.calls ≤ w'.calls
  rows : ∀ r ∈ w'.tables.policyEvaluations, r ∈ w.tables.policyEvaluations ∨ r.deploymentId = id

/-- What an action leaves, answered with success or not. -/
theorem act_alone (h : Alone oracle) (world : World) (action : WorkerAction) :
    ((httpClient oracle).act id action world).2 =
      ⟨(ApiCall.lifecycle (oracle world.calls).env (action.request id)).exec world.tables,
        world.calls + 1⟩ := by
  rw [← act_tables]
  exact congrArg Prod.snd (request_alone _ h world)

/-- The evaluation of an active deployment, and the action behind it. -/
theorem settle_alone (h : Alone oracle) {out : DeploymentOut}
    (hd : world.tables.db.deployment? out.deployment.id = some out.deployment)
    (ha : out.deployment.status.active = true) :
    ∃ v rows, evaluateEffect out.deployment.id (oracle world.calls) world.tables =
        (.ok v, world.tables.recorded rows) ∧
      (∀ r ∈ rows, r.deploymentId = out.deployment.id) ∧
      ((httpClient oracle).settle out out.deployment.id world).2 =
        ⟨(ApiCall.lifecycle (oracle (world.calls + 1)).env
          ((decideAction v (canaryAtFullTraffic out)).request out.deployment.id)).exec
            (world.tables.recorded rows), world.calls + 2⟩ := by
  let env := (oracle world.calls).evaluation
  have hexec := exec_evaluated env (workerEvaluate out.deployment.id) hd ha
  have heffect : evaluateEffect out.deployment.id (oracle world.calls) world.tables =
      (.ok (overallResult (world.tables.checks env.clock out.deployment
          ((workerEvaluate out.deployment.id).effectiveConfig env out.deployment))),
        world.tables.recorded (world.tables.evaluationRows env.clock out.deployment
          ((workerEvaluate out.deployment.id).effectiveConfig env out.deployment))) := by
    unfold evaluateEffect
    rw [hexec]
  have hevaluate := request_alone (evaluateEffect out.deployment.id) h world
  rw [heffect] at hevaluate
  refine ⟨_, _, heffect, fun r hr => (evaluationRows_mem hr).1, ?_⟩
  rw [(httpClient oracle).settle_ok hevaluate, act_alone h]

/-- A cycle that evaluates leaves what its action leaves. -/
theorem cycle_due {c : Cycle} {db : Db} {out : DeploymentOut} (hout : db.deploymentOut? id = some out)
    (ha : out.deployment.status.active = true) (hdue : c.due out = true) :
    (processDeployment c db id).2 =
      (((decideAction c.overallResult (canaryAtFullTraffic out)).request id).exec c.env db).2 := by
  obtain ⟨d, hd, rfl⟩ := Option.map_eq_some_iff.mp hout
  have hevaluates : evaluateDeployment db id c.overallResult = .ok c.overallResult := by
    unfold evaluateDeployment
    rw [hd]
    exact if_pos ha
  let action := decideAction c.overallResult (canaryAtFullTraffic ⟨d, db.trafficAllocation? d.id⟩)
  unfold processDeployment
  rw [hout]
  dsimp only
  rw [ha, hdue, hevaluates]
  dsimp only
  generalize (action.request id).exec c.env db = x
  rcases x with ⟨e | reply, db'⟩ <;> rfl

theorem cycle_idle {c : Cycle} {db : Db} {out : DeploymentOut} (hout : db.deploymentOut? id = some out)
    (h : out.deployment.status.active = false ∨ c.due out = false) :
    (processDeployment c db id).2 = db := by
  unfold processDeployment
  rw [hout]
  dsimp only
  rcases h with h | h
  · rw [h]
    rfl
  · rw [h]
    split <;> rfl

/-- **Call by call, `process_deployment` is its cycle.** -/
theorem process_alone (h : Alone oracle) (defaultWindowSeconds : Nat) (world : World) (id : String) :
    Leaves world ((httpClient oracle).processDeployment defaultWindowSeconds id world).2 id
      (processDeployment (cycleAt oracle defaultWindowSeconds world id) world.tables.db id).2 := by
  have hget : (httpClient oracle).getDeployment id world =
      ((world.tables.ofDeployment id fun out => out).1.mapError raisedBy,
        ⟨(world.tables.ofDeployment id fun out => out).2, world.calls + 1⟩) :=
    request_alone (fun _ t => t.ofDeployment id fun out => out) h world
  rw [ofDeployment_state] at hget
  have hidle : ∀ n, Leaves world ⟨world.tables, world.calls + n⟩ id world.tables.db := fun n =>
    ⟨rfl, Nat.le_add_right _ _, fun _ hr => Or.inl hr⟩
  cases hout : world.tables.db.deploymentOut? id with
  | none =>
      have hmissing : (world.tables.ofDeployment id fun out => out).1 =
          .error (.deploymentNotFound id) := by
        unfold Tables.ofDeployment
        rw [hout]
      rw [hmissing] at hget
      rw [(httpClient oracle).process_error hget]
      unfold processDeployment
      rw [hout]
      exact hidle 1
  | some out =>
      have hread : ∀ {α : Type} (read : DeploymentOut → α),
          world.tables.ofDeployment id read = (.ok (read out), world.tables) := by
        intro α read
        unfold Tables.ofDeployment
        rw [hout]
      rw [hread] at hget
      rw [(httpClient oracle).process_ok hget]
      cases ha : out.deployment.status.active with
      | false =>
          rw [cycle_idle hout (Or.inl ha)]
          exact hidle 1
      | true =>
          obtain ⟨d, hd, rfl⟩ := Option.map_eq_some_iff.mp hout
          obtain ⟨rfl, hd⟩ := found hd
          let c := cycleAt oracle defaultWindowSeconds world d.id
          let out : DeploymentOut := ⟨d, world.tables.db.trafficAllocation? d.id⟩
          have hlist : (httpClient oracle).getPolicyEvaluations d.id ⟨world.tables, world.calls + 1⟩ =
              (.ok ((world.tables.listPolicyEvaluations d.id).map PolicyEvaluation.evaluatedAt),
                ⟨world.tables, world.calls + 2⟩) := by
            have hx := request_alone (fun _ t => t.ofDeployment d.id fun _ =>
              (t.listPolicyEvaluations d.id).map PolicyEvaluation.evaluatedAt) h
              ⟨world.tables, world.calls + 1⟩
            dsimp only at hx
            rw [hread] at hx
            exact hx
          -- both ask whether the last evaluation is a window ago
          have hjudge : (httpClient oracle).judge defaultWindowSeconds out d.id
              ⟨world.tables, world.calls + 1⟩ =
                if c.due out then (httpClient oracle).settle out d.id ⟨world.tables, world.calls + 2⟩
                else (.ok none, ⟨world.tables, world.calls + 2⟩) := by
            rw [(httpClient oracle).judge_ok hlist,
              List.head?_map]
            rfl
          show Leaves world ((httpClient oracle).judge defaultWindowSeconds out d.id _).2 d.id _
          rw [hjudge]
          cases hdue : c.due out with
          | false =>
              rw [cycle_idle hout (Or.inr hdue)]
              exact hidle 2
          | true =>
              let deciding : World := ⟨world.tables, world.calls + 2⟩
              have hfound : deciding.tables.db.deployment? out.deployment.id = some out.deployment := hd
              obtain ⟨v, rows, heffect, hrows, hsettle⟩ := settle_alone h hfound ha
              have hverdict : c.overallResult = v := by
                show (match evaluateEffect d.id (oracle (world.calls + 2)) world.tables with
                  | (.ok overallResult, _) => overallResult
                  | (.error _, _) => .inconclusive) = v
                rw [show evaluateEffect d.id (oracle (world.calls + 2)) world.tables = _ from heffect]
              rw [cycle_due hout ha hdue, hverdict, if_pos rfl,
                show ((httpClient oracle).settle out d.id _).2 = _ from hsettle]
              refine ⟨rfl, Nat.le_add_right _ 4, fun r hr => ?_⟩
              rcases List.mem_append.mp hr with hr | hr
              · exact Or.inl hr
              · exact Or.inr (hrows r hr)

end One

/-! ## 2. One sweep -/

/-- From `w` on, the window of every row on record for `id` is over; it is `n` seconds. -/
def Over (oracle : Nat → Moment) (n : Nat) (id : String) (w : World) : Prop :=
  ∀ row ∈ w.tables.policyEvaluations, row.deploymentId = id →
    ∀ i, w.calls ≤ i → row.evaluatedAt + n * 10 ^ 6 ≤ (oracle i).now

/-- The rollout of `id` stands at `r`. -/
structure StandsAt (w : World) (id : String) (r : Rollout) : Prop where
  shaped : Schema w.tables.db ∧ Shaped w.tables.db
  rollout : w.tables.db.rollout? id = some r

/-- It stands no further from its end than `r`, and is as much on hold. -/
structure Ahead (w : World) (id : String) (r r' : Rollout) : Prop where
  stands : StandsAt w id r'
  paused : r'.paused = r.paused
  work_le : r'.work ≤ r.work

section Sweeps

variable {oracle : Nat → Moment} {world w w' : World} {id id' : String} {r r' r'' : Rollout} {n : Nat}
  {defaultWindowSeconds : Nat}

theorem StandsAt.ahead (h : StandsAt w id r) : Ahead w id r r := ⟨h, rfl, Nat.le_refl _⟩

theorem Ahead.trans (h : Ahead w id r r') (h' : Ahead w' id r' r'') : Ahead w' id r r'' where
  stands := h'.stands
  paused := h'.paused.trans h.paused
  work_le := h'.work_le.trans h.work_le

/-- What costs is no hold. -/
theorem proceed_paused {m : Move} (h : m.costly = true) : (proceed Rollout.next r m).paused = r.paused := by
  cases hn : r.next m with
  | none => rw [proceed_disabled hn]
  | some r' =>
      rw [proceed_enabled hn]
      cases m with
      | hold paused => cases h
      | advance =>
          simp only [Rollout.next] at hn
          split at hn
          · obtain ⟨stage, _, rfl⟩ := Option.map_eq_some_iff.mp hn
            rfl
          all_goals cases hn
      | cycle =>
          simp only [Rollout.next] at hn
          split at hn
          · split at hn <;> cases hn <;> rfl
          all_goals cases hn
      | promote | rollback =>
          simp only [Rollout.next] at hn
          split at hn <;> cases hn
          rfl

/-- A deployment whose rows are a window old is due. -/
theorem due_of_over {t : Tables} {out : DeploymentOut} {now : Time} {default : Nat}
    (h : ∀ row ∈ t.policyEvaluations, row.deploymentId = out.deployment.id →
      row.evaluatedAt + evaluationWindowSeconds out default * 10 ^ 6 ≤ now) :
    t.due out now default = true := by
  unfold Tables.due Tables.lastEvaluatedAt isDueForEvaluation
  cases hl : t.listPolicyEvaluations out.deployment.id with
  | nil => rfl
  | cons row rest =>
      have hmem : row ∈ t.listPolicyEvaluations out.deployment.id := by
        rw [hl]
        exact List.mem_cons_self
      obtain ⟨hrow, hid⟩ := List.mem_filter.mp ((List.mem_insertionSort _).mp hmem)
      exact decide_eq_true (h row hrow (of_decide_eq_true hid))

/-- Somebody's turn. -/
theorem turn_ahead (h : Alone oracle) (defaultWindowSeconds : Nat) (hs : StandsAt world id r) (id' : String) :
    ∃ r', Ahead ((httpClient oracle).processDeployment defaultWindowSeconds id' world).2 id r r' := by
  have hleaves := process_alone h defaultWindowSeconds world id'
  let l := WorkStep.cycle (cycleAt oracle defaultWindowSeconds world id') id'
  have hdb : (WorkStep.exec world.tables l).db =
      ((httpClient oracle).processDeployment defaultWindowSeconds id' world).2.tables.db :=
    hleaves.db_eq.symm
  have hshaped := (work_refines id).keeps l hs.shaped
  rw [hdb] at hshaped
  cases hm : l.move id world.tables with
  | none =>
      have hr := (work_refines id).stutters hs.shaped hs.rollout hm
      rw [hdb] at hr
      exact ⟨r, ⟨hshaped, hr⟩, rfl, Nat.le_refl _⟩
  | some m =>
      have hr := (work_refines id).moves hs.shaped hs.rollout hm
      rw [hdb] at hr
      have hcostly : m.costly = true := by
        simp only [l, WorkStep.move] at hm
        split at hm
        · obtain ⟨action, _, rfl⟩ := Option.map_eq_some_iff.mp hm
          exact action_costly action
        · cases hm
      exact ⟨_, ⟨hshaped, hr⟩, proceed_paused hcostly, work_ranked.proceed_le r m⟩

/-- **Its own turn takes work off a rollout** that is running and whose window is over. -/
theorem turn_works (h : Alone oracle) (defaultWindowSeconds : Nat) (hs : StandsAt world id r)
    (hover : Over oracle n id world)
    (hwindow : world.tables.db.window id = some n) (hwork : 0 < r.work) :
    ∃ r', Ahead ((httpClient oracle).processDeployment defaultWindowSeconds id world).2 id r r' ∧
      r'.work < r.work := by
  obtain ⟨r', hahead⟩ := turn_ahead h defaultWindowSeconds hs id
  refine ⟨r', hahead, ?_⟩
  have hleaves := process_alone h defaultWindowSeconds world id
  let c := cycleAt oracle defaultWindowSeconds world id
  obtain ⟨d, hd, hshows⟩ := rollout?_eq_some.mp hs.rollout
  obtain ⟨rfl, hd⟩ := found hd
  have hactive : d.status.active = true :=
    (work_pos hshows (hs.shaped.2 d (deployment?_eq_some.mp hd).1)).mp hwork
  obtain ⟨out, hout, hid, hseconds, _⟩ := ofDeployment_found (fun out => out) hwindow
  have hdue : c.due out = true := by
    have hrows : world.tables.due out c.now defaultWindowSeconds = true := by
      refine due_of_over fun row hrow hrid => ?_
      rw [hseconds]
      exact hover row hrow (hrid.trans hid) _ (Nat.le_add_right _ 2)
    unfold Tables.due at hrows
    rw [hid] at hrows
    exact hrows
  have hevaluates : (WorkStep.cycle c d.id).evaluates d.id world.tables = true := by
    have hstatus : out.deployment.status.active = true := by
      obtain ⟨d', hd', rfl⟩ := Option.map_eq_some_iff.mp hout
      rw [hd] at hd'
      cases hd'
      exact hactive
    simp only [WorkStep.evaluates, hout, Option.any_some, hstatus, hdue, decide_true, Bool.and_self]
  obtain ⟨m, hm, hsome, hworks⟩ := evaluates_works hs.shaped hs.rollout hevaluates
  have hmoved := (work_refines d.id).moves hs.shaped hs.rollout hm
  obtain ⟨r1, hn⟩ := Option.isSome_iff_exists.mp hsome
  rw [proceed_enabled hn] at hmoved
  have hsame : r' = r1 := by
    have hr' := hahead.stands.rollout
    rw [hleaves.db_eq] at hr'
    exact Option.some.inj (hr'.symm.trans hmoved)
  rw [hsame]
  exact work_ranked.falls hn hworks

theorem Over.later (hover : Over oracle n id w) (hcalls : w.calls ≤ w'.calls)
    (hrows : ∀ row ∈ w'.tables.policyEvaluations, row.deploymentId = id →
      row ∈ w.tables.policyEvaluations) : Over oracle n id w' :=
  fun row hrow hid i hi => hover row (hrows row hrow hid) hid i (hcalls.trans hi)

theorem all_ahead (h : Alone oracle) (defaultWindowSeconds : Nat) (ids : List String) (hs : StandsAt world id r) :
    ∃ r', Ahead ((httpClient oracle).processAll defaultWindowSeconds ids world) id r r' := by
  induction ids generalizing world r with
  | nil => exact ⟨r, hs.ahead⟩
  | cons id' ids ih =>
      obtain ⟨r1, h1⟩ := turn_ahead h defaultWindowSeconds hs id'
      obtain ⟨r', h'⟩ := ih h1.stands
      exact ⟨r', h1.trans h'⟩

/-- The turns of the others leave a rollout its own. -/
theorem all_works (h : Alone oracle) {ids : List String} (hid : id ∈ ids) (hs : StandsAt world id r)
    (hover : Over oracle n id world) (hwindow : world.tables.db.window id = some n)
    (hwork : 0 < r.work) :
    ∃ r', Ahead ((httpClient oracle).processAll defaultWindowSeconds ids world) id r r' ∧
      r'.work < r.work := by
  induction ids generalizing world r with
  | nil => cases hid
  | cons id' ids ih =>
      rw [(httpClient oracle).processAll_cons]
      by_cases hsame : id = id'
      · subst hsame
        obtain ⟨r1, h1, hlt⟩ :=
          turn_works h defaultWindowSeconds hs hover hwindow hwork
        obtain ⟨r', h'⟩ := all_ahead h defaultWindowSeconds ids h1.stands
        exact ⟨r', h1.trans h', Nat.lt_of_le_of_lt h'.work_le hlt⟩
      · obtain ⟨r1, h1⟩ := turn_ahead h defaultWindowSeconds hs id'
        have hleaves := process_alone h defaultWindowSeconds world id'
        have hover1 := hover.later hleaves.calls_le fun row hrow hrid =>
          (hleaves.rows row hrow).resolve_right fun h' => hsame (hrid.symm.trans h')
        have hwindow1 := window_reaches (reaches_process oracle defaultWindowSeconds world id' ids) hwindow
        rcases Nat.eq_zero_or_pos r1.work with hzero | hpos
        · obtain ⟨r', h'⟩ := all_ahead h defaultWindowSeconds ids h1.stands
          refine ⟨r', h1.trans h', Nat.lt_of_le_of_lt h'.work_le ?_⟩
          rw [hzero]
          exact hwork
        · have hlisted := (List.mem_cons.mp hid).resolve_left hsame
          obtain ⟨r', h', hlt⟩ := ih hlisted h1.stands hover1 hwindow1 hpos
          exact ⟨r', h1.trans h', Nat.lt_of_lt_of_le hlt h1.work_le⟩

/-- What the sweep lists. -/
def listingAt (oracle : Nat → Moment) (world : World) : World :=
  ⟨(ApiCall.reconcile (oracle world.calls).clock (oracle world.calls).gateway).exec world.tables,
    world.calls + 2⟩

theorem once_alone (h : Alone oracle) :
    ((httpClient oracle).runOnce defaultWindowSeconds world).2 =
      (httpClient oracle).processAll defaultWindowSeconds (listingAt oracle world).tables.db.activeIds
        (listingAt oracle world) := by
  have hreconcile : ((httpClient oracle).reconcile world).2 =
      ⟨(listingAt oracle world).tables, world.calls + 1⟩ :=
    congrArg Prod.snd (request_alone (fun m t => (.ok (), { t with
      db := (reconcileRouterState m.clock t.db m.gateway).db })) h world)
  have hlist : (httpClient oracle).listDeployments ⟨(listingAt oracle world).tables, world.calls + 1⟩ =
      (.ok (listingAt oracle world).tables.db.listDeployments, listingAt oracle world) :=
    request_alone (fun _ t => (.ok t.db.listDeployments, t)) h _
  unfold WorkerClient.runOnce
  rw [hreconcile, hlist]
  rfl

theorem StandsAt.listing (oracle : Nat → Moment) (hs : StandsAt world id r) : StandsAt (listingAt oracle world) id r :=
  ⟨after_shaped [.reconcile (oracle world.calls).clock (oracle world.calls).gateway] hs.shaped,
    (history_refines id).stutters hs.shaped hs.rollout rfl⟩

theorem sweep_ahead (h : Alone oracle) (defaultWindowSeconds : Nat) (hs : StandsAt world id r) :
    ∃ r', Ahead ((httpClient oracle).runOnce defaultWindowSeconds world).2 id r r' := by
  rw [once_alone h]
  exact all_ahead h defaultWindowSeconds _ (hs.listing oracle)

/-- **A sweep takes work off every rollout it watches**, where the window is over. -/
theorem sweep_works (h : Alone oracle) (defaultWindowSeconds : Nat) (hs : StandsAt world id r)
    (hover : Over oracle n id world)
    (hwindow : world.tables.db.window id = some n) (hpaused : r.paused = false) (hwork : 0 < r.work) :
    ∃ r', Ahead ((httpClient oracle).runOnce defaultWindowSeconds world).2 id r r' ∧
      r'.work < r.work := by
  rw [once_alone h]
  have hlisting := hs.listing oracle
  obtain ⟨d, hd, hshows⟩ := rollout?_eq_some.mp hlisting.rollout
  obtain ⟨rfl, hd⟩ := found hd
  have hmem := (deployment?_eq_some.mp hd).1
  have hactive : d.status.active = true := (work_pos hshows (hlisting.shaped.2 d hmem)).mp hwork
  have hon : d.automationPaused = false := hshows.paused.trans hpaused
  have hlisted : d.id ∈ (listingAt oracle world).tables.db.activeIds :=
    List.mem_map_of_mem (List.mem_filter.mpr
      ⟨(List.mem_insertionSort _).mpr hmem, by rw [hactive, hon]; rfl⟩)
  exact all_works h hlisted hlisting (hover.later (Nat.le_add_right _ 2) fun _ hrow _ => hrow)
    (window_call _ hwindow) hwork

end Sweeps

/-! ## 3. Sweep after sweep -/

section Rounds

variable {oracle : Nat → Moment} {id : String} {n : Nat} {defaultWindowSeconds : Nat}

theorem rounds_work (h : Alone oracle) (rounds : Nat) {world : World} {r : Rollout}
    (hs : StandsAt world id r) (hwindow : world.tables.db.window id = some n) (hpaused : r.paused = false)
    (hover : ∀ k < rounds, Over oracle n id ((httpClient oracle).runForever defaultWindowSeconds k world))
    (hwork : r.work ≤ rounds) :
    ∃ r', StandsAt ((httpClient oracle).runForever defaultWindowSeconds rounds world) id r' ∧
      r'.work = 0 := by
  induction rounds generalizing world r with
  | zero => exact ⟨r, hs, Nat.le_zero.mp hwork⟩
  | succ rounds ih =>
      have hsweep : ∃ r1, Ahead ((httpClient oracle).runOnce defaultWindowSeconds world).2 id r r1 ∧
          r1.work ≤ rounds := by
        rcases Nat.eq_zero_or_pos r.work with hzero | hpos
        · obtain ⟨r1, h1⟩ := sweep_ahead h defaultWindowSeconds hs
          refine ⟨r1, h1, h1.work_le.trans ?_⟩
          rw [hzero]
          exact Nat.zero_le rounds
        · obtain ⟨r1, h1, hlt⟩ := sweep_works h defaultWindowSeconds hs
            (hover 0 (Nat.succ_pos rounds)) hwindow hpaused hpos
          exact ⟨r1, h1, by omega⟩
      obtain ⟨r1, h1, hle⟩ := hsweep
      exact ih h1.stands (window_reaches (reaches_once oracle defaultWindowSeconds world) hwindow)
        (h1.paused.trans hpaused) (fun k hk => hover (k + 1) (Nat.succ_lt_succ hk)) hle

end Rounds

/-- **A worker left alone finishes what it watches**: where nobody else calls, every call is answered and
    every sweep begins when the windows of what is on record are over, a rollout that is not on hold is
    promoted, rolled back or frozen after as many sweeps as it tolerates inconclusive verdicts and has
    stages. -/
theorem rollouts_finish (oracle : Nat → Moment) (halone : Alone oracle) (history : List ApiCall)
    (calls : Nat) (defaultWindowSeconds rounds : Nat) (d : Deployment) (p : PolicyConfig)
    (hd : d ∈ (Tables.empty.after history).db.deployments) (hp : d.policyConfig = some p)
    (hpaused : d.automationPaused = false)
    (hover : ∀ k < rounds, Over oracle p.evaluationWindowSeconds d.id
      ((httpClient oracle).runForever defaultWindowSeconds k ⟨Tables.empty.after history, calls⟩))
    (hrounds : p.maxInconclusiveRetries + 5 ≤ rounds) :
    ∃ d', ((httpClient oracle).runForever defaultWindowSeconds rounds
        ⟨Tables.empty.after history, calls⟩).tables.db.deployment? d.id = some d' ∧
      (d'.status = .promoted ∨ d'.status = .rolledBack ∨ d'.status = .inconclusive) := by
  have hshaped := reached_shaped history
  have hget : (Tables.empty.after history).db.deployment? d.id = some d := Table.mem_iff_get?.mp hd
  obtain ⟨r, hr⟩ := rollout_of_shape (hshaped.2 d hd) hget
  have hshows := shows_of_rollout hget hr
  obtain ⟨p', hp', hmax⟩ := hshows.policy
  rw [hp] at hp'
  cases hp'
  have hwork : r.work ≤ rounds := (work_le r).trans (by omega)
  have hstands : StandsAt ⟨Tables.empty.after history, calls⟩ d.id r := ⟨hshaped, hr⟩
  obtain ⟨r', hs', hdone⟩ := rounds_work halone rounds hstands
    (window_eq_some.mpr ⟨d, p, hget, hp, rfl⟩) (hshows.paused.symm.trans hpaused) hover hwork
  obtain ⟨d', hd', hshows'⟩ := rollout?_eq_some.mp hs'.rollout
  refine ⟨d', hd', ?_⟩
  have hshape := hs'.shaped.2 d' (deployment?_eq_some.mp hd').1
  have hinactive : ¬d'.status.active = true := fun ha => by
    have hpos := (work_pos hshows' hshape).mpr ha
    omega
  rcases hshape.status_cases with hst | hst | hst | hst <;> rw [hst] at hinactive ⊢
  · exact absurd rfl hinactive
  · exact Or.inr (Or.inr rfl)
  · exact Or.inl rfl
  · exact Or.inr (Or.inl rfl)

/-- The `i`-th call is made at `i` times 400 s. -/
def sampleAlone (i : Nat) : Moment :=
  let now := i * 400000000
  { sampleMoment with
    now := now
    evaluation := ⟨⟨now + 1, now + 2, now + 3, now + 4, []⟩, samplePolicy⟩
    env := Env.after (now + 10) "unused" }

theorem over_sampleAlone {n : Nat} {id : String} {w : World}
    (h : ∀ row ∈ w.tables.policyEvaluations, row.deploymentId = id →
      row.evaluatedAt + n * 10 ^ 6 ≤ w.calls * 400000000) : Over sampleAlone n id w := by
  intro row hrow hid i hi
  exact (h row hrow hid).trans (Nat.mul_le_mul_right _ hi)

/-- `d1` is created, and tolerates one inconclusive verdict. -/
def sampleWatched : List ApiCall :=
  [.lifecycle (Env.after 0 "d1") (.create { sampleCreate "fraud-model" with
    policyConfig := some samplePolicy } none)]

theorem sampleWatched_over : ∀ k < 6, ∀ row ∈ ((httpClient sampleAlone).runForever 300 k
    ⟨Tables.empty.after sampleWatched, 1⟩).tables.policyEvaluations, row.deploymentId = "d1" →
      row.evaluatedAt + 300 * 10 ^ 6 ≤ ((httpClient sampleAlone).runForever 300 k
        ⟨Tables.empty.after sampleWatched, 1⟩).calls * 400000000 := by
  decide +kernel

/-- No request is served, so `d1` is frozen. -/
theorem rollouts_finish_sample :
    ∃ d', ((httpClient sampleAlone).runForever 300 6
        ⟨Tables.empty.after sampleWatched, 1⟩).tables.db.deployment? "d1" = some d' ∧
      (d'.status = .promoted ∨ d'.status = .rolledBack ∨ d'.status = .inconclusive) := by
  have hcreated : ((Tables.empty.after sampleWatched).db.deployment? "d1").any
      (fun d => !d.automationPaused && decide (d.policyConfig = some samplePolicy)) = true := by
    decide +kernel
  simp only [Option.any_eq_true, Bool.and_eq_true, Bool.not_eq_true', decide_eq_true_eq] at hcreated
  obtain ⟨d, hd, hpaused, hp⟩ := hcreated
  obtain ⟨hid, hd⟩ := found hd
  have hover := sampleWatched_over
  rw [hid] at hover ⊢
  exact rollouts_finish sampleAlone (fun _ => ⟨rfl, rfl⟩) sampleWatched 1 300 6 d samplePolicy
    (deployment?_eq_some.mp hd).1 hp hpaused (fun k hk => over_sampleAlone (hover k hk)) (by decide)

end ModelOps
