/-
  File:      ModelOps/Worker/Ramp.lean
  Subject:   The traffic ramp: the worker and the control plane read the same weight, and the ramp ends.

  The worker asks whether the canary is within 1e-9 of all the traffic, the control plane for a stage
  more than 1e-9 above its share. Shares are whole millionths, so both say what they would say without
  the tolerance, and exactly one of the two is true of any share.

  * `nextStage_least`, `nextStage_none` -- the next stage is the least above the share; there is none
    exactly at full traffic;
  * `Db.budget` -- how many advances are left; `budget_exec`: no call raises it, an advance lowers it;
  * **`ramp_agrees`** -- both sides agree, four advances are enough and more are not possible, and what
    the worker decides the control plane accepts.
-/
import ModelOps.Worker.Fleet

namespace ModelOps

open Relational

/-! ## 1. Stages -/

/-- The first stage above a weight is the least. -/
def LeastStage (w stage : ℚ) : Prop :=
  stage ∈ TRAFFIC_STAGES ∧ w < stage ∧ ∀ s ∈ TRAFFIC_STAGES, w < s → stage ≤ s

/-- How many stages are left above a weight. -/
def stagesAbove (w : ℚ) : Nat := TRAFFIC_STAGES.countP fun s => decide (w < s)

theorem stagesAbove_le (w : ℚ) : stagesAbove w ≤ 4 := List.countP_le_length

theorem stagesAbove_anti {w w' : ℚ} (h : w ≤ w') : stagesAbove w' ≤ stagesAbove w := by
  refine List.countP_mono_left ?_
  intro s _ hs
  simp only [decide_eq_true_eq] at hs ⊢
  exact lt_of_le_of_lt h hs

/-- A stage is not above itself, but it is above everything below it. -/
theorem stagesAbove_lt {w stage : ℚ} (hmem : stage ∈ TRAFFIC_STAGES) (h : w < stage) :
    stagesAbove stage + 1 ≤ stagesAbove w := by
  have hself : ∀ s ∈ TRAFFIC_STAGES,
      stagesAbove s + 1 = TRAFFIC_STAGES.countP fun s' => decide (s ≤ s') := by
    unfold stagesAbove
    decide +kernel
  rw [hself stage hmem]
  refine List.countP_mono_left ?_
  intro s _ hs
  simp only [decide_eq_true_eq] at hs ⊢
  exact lt_of_lt_of_le h hs

/-- Between millionths the tolerance is nothing. -/
theorem tolerance_idle {w stage : ℚ} (hw : ∃ k : Nat, w = k / 10 ^ 6)
    (hmem : stage ∈ TRAFFIC_STAGES) : w + 1 / 10 ^ 9 < stage ↔ w < stage := by
  obtain ⟨k, rfl⟩ := hw
  have hstage : ∃ n : Nat, stage = n / 10 ^ 6 := by
    simp only [TRAFFIC_STAGES, List.mem_cons, List.not_mem_nil, or_false] at hmem
    obtain rfl | rfl | rfl | rfl := hmem
    · exact ⟨100000, by norm_num⟩
    · exact ⟨250000, by norm_num⟩
    · exact ⟨500000, by norm_num⟩
    · exact ⟨1000000, by norm_num⟩
  obtain ⟨n, rfl⟩ := hstage
  constructor
  · intro h
    linarith
  · intro h
    have hlt : k < n := by
      rw [div_lt_div_iff_of_pos_right (by norm_num)] at h
      exact_mod_cast h
    have hle : (k : ℚ) + 1 ≤ n := by exact_mod_cast hlt
    linarith

theorem stages_sorted : TRAFFIC_STAGES.Pairwise (· < ·) := by decide +kernel

theorem one_mem_stages : (1 : ℚ) ∈ TRAFFIC_STAGES := by decide +kernel

theorem nextStage_least {w stage : ℚ} (hw : ∃ k : Nat, w = k / 10 ^ 6)
    (h : nextStage w = some stage) : LeastStage w stage := by
  obtain ⟨hmem, hlt⟩ := nextStage_mem h
  refine ⟨hmem, (tolerance_idle hw hmem).mp hlt, ?_⟩
  intro s hs hws
  unfold nextStage at h
  obtain ⟨_, before, after, hsplit, hbefore⟩ := List.find?_eq_some_iff_append.mp h
  have hsorted := stages_sorted
  rw [hsplit] at hsorted hs
  rcases List.mem_append.mp hs with hs | hs
  · -- the stages before it were passed over
    have hno := hbefore s hs
    have hmem' : s ∈ TRAFFIC_STAGES := by
      rw [hsplit]
      exact List.mem_append_left _ hs
    have hyes := (tolerance_idle hw hmem').mpr hws
    rw [decide_eq_true hyes] at hno
    cases hno
  · rcases List.mem_cons.mp hs with rfl | hs
    · exact le_refl s
    · have htail := (List.pairwise_append.mp hsorted).2.1
      exact le_of_lt ((List.pairwise_cons.mp htail).1 s hs)

/-- There is no next stage exactly where the worker sees full traffic. -/
theorem nextStage_none {w : ℚ} : nextStage w = none ↔ 1 - 1 / 10 ^ 9 ≤ w := by
  unfold nextStage
  rw [List.find?_eq_none]
  constructor
  · intro h
    have hone := h 1 one_mem_stages
    simp only [decide_eq_true_eq, not_lt] at hone
    linarith
  · intro h s hs
    have hle := (stage_bounds s hs).2.1
    simp only [decide_eq_true_eq, not_lt]
    linarith

/-! ## 2. Advances -/

section Advances

variable {db : Db} {env : Env} {d : Deployment} {id : String}

theorem exec_final (hd : db.deployment? d.id = some d) (ha : d.status.active = true)
    (hn : nextStage (db.canaryWeight d) = none) :
    (Request.advanceTraffic d.id).exec env db = (.error (.alreadyAtFinalStage d.id), db) := by
  have he : ((Request.advanceTraffic d.id).program env).eval database db = _ :=
    eval_getDeployment env db advanceTraffic d.id
  rw [hd] at he
  refine exec_of_error (he.trans ?_)
  exact eval_advance_final env ha hn

/-- **An advance is refused, or it finds a stage to go to.** -/
theorem advance_cases (env : Env) (db : Db) (id : String) :
    (∃ e, (Request.advanceTraffic id).exec env db = (.error e, db)) ∨
    ∃ d w, d.id = id ∧ db.deployment? d.id = some d ∧ d.status.active = true ∧
      nextStage (db.canaryWeight d) = some w := by
  have he : ((Request.advanceTraffic id).program env).eval database db = _ :=
    eval_getDeployment env db advanceTraffic id
  cases hd : db.deployment? id with
  | none =>
      rw [hd] at he
      exact Or.inl ⟨_, exec_of_error he⟩
  | some d =>
      rw [hd] at he
      obtain ⟨rfl, hd⟩ := found hd
      cases ha : d.status.active with
      | false =>
          obtain ⟨e, h⟩ := eval_advance_error env db (Or.inl ha)
          exact Or.inl ⟨e, exec_of_error (he.trans h)⟩
      | true =>
          cases hw : nextStage (db.canaryWeight d) with
          | none => exact Or.inl ⟨_, exec_final hd ha hw⟩
          | some w => exact Or.inr ⟨d, w, rfl, hd, ha, hw⟩

/-- A turn does not take up a rollout that was not running. -/
theorem Turns.was_active {req : Request} {row : Deployment} {split : Option (List TargetWeight)}
    (h : Turns env db d req row split) (ha : row.status.active = true) : d.status.active = true := by
  cases h with
  | resolved hreq hadm =>
      cases hreq with
      | promote => cases ha
      | rollback => cases ha
  | advanced hact => exact hact
  | cycled hact => exact hact
  | frozen hact => exact hact
  | flagged => exact ha

/-- The advances a deployment has left: all of them before it is created, none once it is over. -/
def Db.budget (db : Db) (id : String) : Nat :=
  match db.deployment? id with
  | none => 4
  | some d => if d.status.active then stagesAbove (db.canaryWeight d) else 0

theorem budget_le (db : Db) (id : String) : db.budget id ≤ 4 := by
  unfold Db.budget
  cases db.deployment? id with
  | none => exact Nat.le_refl 4
  | some d =>
      dsimp only
      split
      · exact stagesAbove_le _
      · exact Nat.zero_le 4

theorem budget_active (hd : db.deployment? d.id = some d) (ha : d.status.active = true) :
    db.budget d.id = stagesAbove (db.canaryWeight d) := by
  unfold Db.budget
  rw [hd]
  exact if_pos ha

/-- No request raises the budget. -/
theorem budget_exec_le (env : Env) (req : Request) (hsh : Shaped db) (id : String) :
    (req.exec env db).2.budget id ≤ db.budget id := by
  cases hd : db.deployment? id with
  | none =>
      have hfull : db.budget id = 4 := by
        unfold Db.budget
        rw [hd]
      rw [hfull]
      exact budget_le _ id
  | some d =>
      obtain ⟨rfl, hd⟩ := found hd
      rcases exec_turns env req hd with ⟨hd', ha'⟩ | ⟨row, split, events, hturn, hid, hdb⟩
      · refine Nat.le_of_eq ?_
        unfold Db.budget Db.canaryWeight
        rw [hd, hd']
        dsimp only
        rw [ha']
      · have hrow : (req.exec env db).2.deployment? row.id = some row := by
          rw [hdb, applied_deployment?, if_pos rfl]
        rw [← hid]
        cases hact : row.status.active with
        | false =>
            unfold Db.budget
            rw [hrow]
            simp [hact]
        | true =>
            have hle := hturn.weight_le (hsh d (deployment?_eq_some.mp hd).1) (open_of_active hact)
              events
            rw [budget_active hrow hact, hid, budget_active hd (hturn.was_active hact), hdb]
            exact stagesAbove_anti hle

/-- The request advances `id`. -/
def Request.advances (env : Env) (db : Db) (id : String) : Request → Bool
  | .advanceTraffic id' =>
      decide (id' = id) && ((Request.advanceTraffic id').exec env db).1.isOk
  | .create .. | .promote .. | .rollback .. | .recordInconclusive _ | .pauseAutomation ..
  | .resumeAutomation .. => false

/-- **No request raises the budget, and an advance takes one off it.** -/
theorem budget_exec (env : Env) (req : Request) (hsh : Shaped db) (id : String) :
    (req.advances env db id).toNat + (req.exec env db).2.budget id ≤ db.budget id := by
  cases hadv : req.advances env db id with
  | false =>
      have hle := budget_exec_le env req hsh id
      simpa using hle
  | true =>
      cases req with
      | create | promote | rollback | recordInconclusive | pauseAutomation | resumeAutomation =>
          cases hadv
      | advanceTraffic id' =>
          simp only [Request.advances, Bool.and_eq_true, decide_eq_true_eq] at hadv
          obtain ⟨rfl, hok⟩ := hadv
          rcases advance_cases env db id' with ⟨e, h⟩ | ⟨d, w, rfl, hd, ha, hw⟩
          · rw [h] at hok
            cases hok
          · obtain ⟨hmem, hlt⟩ := nextStage_mem hw
            have hshape := hsh d (deployment?_eq_some.mp hd).1
            have hafter : ((Request.advanceTraffic d.id).exec env db).2.budget d.id =
                stagesAbove w := by
              rw [exec_advanced hd ha hw]
              refine (budget_active (d := advancedRow env d) ?_ ha).trans ?_
              · rw [applied_deployment?, if_pos rfl]
              · rw [advanced_canaryWeight hshape.versions_ne hmem]
            have hless := stagesAbove_lt (w := db.canaryWeight d) hmem (by linarith)
            rw [hafter, budget_active hd ha]
            show 1 + stagesAbove w ≤ _
            omega

end Advances

/-! ## 3. Histories -/

/-- The advances of `id` in a history. -/
def advancesOf (id : String) : Tables → List ApiCall → Nat
  | _, [] => 0
  | t, c :: calls =>
      (match c with
        | .lifecycle env req => (req.advances env t.db id).toNat
        | .pushed .. | .reconcile .. | .recordMetric .. | .ingestLabel .. | .evaluate .. => 0) +
      advancesOf id (c.exec t) calls

/-- A history spends the budget, and never adds to it. -/
theorem advances_le_budget (id : String) (calls : List ApiCall) {t : Tables} (hs : Schema t.db)
    (hsh : Shaped t.db) : advancesOf id t calls ≤ t.db.budget id := by
  induction calls generalizing t with
  | nil => exact Nat.zero_le _
  | cons c calls ih =>
      obtain ⟨hs', hsh'⟩ := after_shaped [c] ⟨hs, hsh⟩
      have hrest : advancesOf id (c.exec t) calls ≤ (c.exec t).db.budget id := ih hs' hsh'
      unfold advancesOf
      rcases call_cases c t with ⟨env, req, rfl⟩ | ⟨events, hdb, _⟩
      · have hspent := budget_exec env req hsh id
        have hafter : ((ApiCall.lifecycle env req).exec t).db = (req.exec env t.db).2 := rfl
        rw [hafter] at hrest
        dsimp only
        omega
      · have hkeep : (c.exec t).db.budget id = t.db.budget id := by
          rw [hdb]
          rfl
        cases c with
        | lifecycle env req =>
            have hspent := budget_exec env req hsh id
            have hafter : ((ApiCall.lifecycle env req).exec t).db = (req.exec env t.db).2 := rfl
            rw [hafter] at hrest
            dsimp only
            omega
        | pushed | reconcile | recordMetric | ingestLabel | evaluate =>
            dsimp only
            omega

/-- The tables after nothing but attempts to advance `id`. -/
def Db.advanced (db : Db) (id : String) (envs : List Env) : Db :=
  envs.foldl (fun db env => ((Request.advanceTraffic id).exec env db).2) db

section Ramp

variable {db : Db} {d : Deployment}

theorem advanced_cons (id : String) (env : Env) (envs : List Env) :
    db.advanced id (env :: envs) =
      ((Request.advanceTraffic id).exec env db).2.advanced id envs := rfl

/-- As many attempts as there are stages left take the canary to all the traffic. -/
theorem advanced_full (hsh : Shaped db) (hd : db.deployment? d.id = some d)
    (ha : d.status.active = true) {envs : List Env}
    (hn : stagesAbove (db.canaryWeight d) ≤ envs.length) :
    ∃ d', (db.advanced d.id envs).deployment? d.id = some d' ∧
      d'.status = d.status ∧ (db.advanced d.id envs).canaryWeight d' = 1 := by
  induction envs generalizing db d with
  | nil =>
      have hshape := hsh d (deployment?_eq_some.mp hd).1
      have ho := open_of_active ha
      refine ⟨d, hd, rfl, le_antisymm (hshape.weight_le_one ho) ?_⟩
      by_contra hlt
      have habove : stagesAbove 1 + 1 ≤ stagesAbove (db.canaryWeight d) :=
        stagesAbove_lt one_mem_stages (not_le.mp hlt)
      simp only [List.length_nil, Nat.le_zero_eq] at hn
      omega
  | cons env envs ih =>
      have hshape := hsh d (deployment?_eq_some.mp hd).1
      rw [advanced_cons]
      cases hw : nextStage (db.canaryWeight d) with
      | none =>
          have hfull := hshape.full_weight (open_of_active ha) (nextStage_none.mp hw)
          have hleft : stagesAbove (db.canaryWeight d) = 0 := by
            rw [hfull]
            decide +kernel
          rw [exec_final hd ha hw]
          exact ih hsh hd ha (hleft ▸ Nat.zero_le _)
      | some w =>
          obtain ⟨hmem, hlt⟩ := nextStage_mem hw
          have hless := stagesAbove_lt (w := db.canaryWeight d) hmem (by linarith)
          have hsh' := shaped_exec env (.advanceTraffic d.id) hsh
          rw [exec_advanced hd ha hw] at hsh' ⊢
          refine ih (d := advancedRow env d) hsh' ?_ ha ?_
          · rw [applied_deployment?, if_pos rfl]
          · rw [advanced_canaryWeight hshape.versions_ne hmem]
            rw [List.length_cons] at hn
            omega

/-- An advance is refused for want of a stage exactly where there is none. -/
theorem refused_iff (env : Env) (hd : db.deployment? d.id = some d) (ha : d.status.active = true) :
    ((Request.advanceTraffic d.id).exec env db).1 = .error (.alreadyAtFinalStage d.id) ↔
      nextStage (db.canaryWeight d) = none := by
  constructor
  · intro herr
    cases hn : nextStage (db.canaryWeight d) with
    | none => rfl
    | some stage =>
        rw [exec_advanced hd ha hn] at herr
        cases herr
  · intro hn
    rw [exec_final hd ha hn]

/-- Where there is one, the advance goes to it. -/
theorem advance_reaches (env : Env) (hshape : Shape db d) (hd : db.deployment? d.id = some d)
    (ha : d.status.active = true) {stage : ℚ}
    (hstage : nextStage (db.canaryWeight d) = some stage) :
    ((Request.advanceTraffic d.id).exec env db).1.isOk = true ∧
      ∃ d', ((Request.advanceTraffic d.id).exec env db).2.deployment? d.id = some d' ∧
        ((Request.advanceTraffic d.id).exec env db).2.canaryWeight d' = stage := by
  rw [exec_advanced hd ha hstage]
  refine ⟨rfl, advancedRow env d, ?_, ?_⟩
  · rw [applied_deployment?]
    exact if_pos rfl
  · exact advanced_canaryWeight hshape.versions_ne (nextStage_mem hstage).1

/-- What the control plane answers to the action the worker decided. -/
theorem action_accepted (env : Env) (hd : db.deployment? d.id = some d)
    (hs : d.status = .canaryRunning) (overallResult : OverallResult) :
    (((decideAction overallResult (canaryAtFullTraffic ⟨d, db.trafficAllocation? d.id⟩)).request
      d.id).exec env db).1.isOk = true := by
  have ha : d.status.active = true := by
    rw [hs]
    rfl
  obtain ⟨hpromote, hrollback⟩ := admits_of_running hs
  cases overallResult with
  | fail =>
      show ((Request.rollback d.id .automatic).exec env db).1.isOk = true
      rw [exec_resolved (.rollback d.id .automatic) hd hrollback]
      rfl
  | inconclusive =>
      obtain ⟨reply, row, bodies, hexec, _⟩ := exec_recorded env hd ha
      show ((Request.recordInconclusive d.id).exec env db).1.isOk = true
      rw [hexec]
      rfl
  | pass =>
      cases hfull : canaryAtFullTraffic ⟨d, db.trafficAllocation? d.id⟩ with
      | true =>
          show ((Request.promote d.id .automatic).exec env db).1.isOk = true
          rw [exec_resolved (.promote d.id .automatic) hd hpromote]
          rfl
      | false =>
          obtain ⟨w, hw⟩ := nextStage_of_not_full hfull
          show ((Request.advanceTraffic d.id).exec env db).1.isOk = true
          rw [exec_advanced hd ha hw]
          rfl

end Ramp

/-- **Worker and control plane agree on the ramp, and the ramp ends.** Whatever history led to the
    running rollout `d`: an advance is refused for want of a stage exactly where the worker sees full
    traffic, and else goes to the least stage above; no history advances it more than four times, four
    attempts take it to 1; and what the worker decides of the row as it stands is accepted, whatever
    was called in between that left the row and its allocation as they were. -/
theorem ramp_agrees (calls : List ApiCall) (d : Deployment)
    (hd : (Tables.empty.after calls).db.deployment? d.id = some d) (hs : d.status = .canaryRunning) :
    let t := Tables.empty.after calls
    let w := t.db.canaryWeight d
    let out : DeploymentOut := ⟨d, t.db.trafficAllocation? d.id⟩
    (∃ k : Nat, k ≤ 10 ^ 6 ∧ w = k / 10 ^ 6) ∧
    (∀ env, ((Request.advanceTraffic d.id).exec env t.db).1 = .error (.alreadyAtFinalStage d.id) ↔
      canaryAtFullTraffic out = true) ∧
    (canaryAtFullTraffic out = false → ∃ stage, LeastStage w stage ∧ ∀ env,
      ((Request.advanceTraffic d.id).exec env t.db).1.isOk = true ∧
      ∃ d', ((Request.advanceTraffic d.id).exec env t.db).2.deployment? d.id = some d' ∧
        ((Request.advanceTraffic d.id).exec env t.db).2.canaryWeight d' = stage) ∧
    (∀ more, advancesOf d.id t more ≤ 4) ∧
    (∀ envs : List Env, 4 ≤ envs.length →
      ∃ d', (t.db.advanced d.id envs).deployment? d.id = some d' ∧
        d'.status = .canaryRunning ∧ (t.db.advanced d.id envs).canaryWeight d' = 1) ∧
    (∀ between overallResult env,
      (t.after between).db.deploymentOut? d.id = t.db.deploymentOut? d.id →
      (((decideAction overallResult (canaryAtFullTraffic out)).request d.id).exec env
        (t.after between).db).1.isOk = true) := by
  intro t w out
  obtain ⟨hschema, hsh⟩ := after_shaped (t := .empty) calls ⟨schema_empty, shaped_empty⟩
  have hshape := hsh d (deployment?_eq_some.mp hd).1
  have ha : d.status.active = true := by
    rw [hs]
    rfl
  obtain ⟨k, hk, hw⟩ := hshape.weight (open_of_active ha)
  have hfull : canaryAtFullTraffic out = true ↔ nextStage w = none :=
    (canaryAtFullTraffic_iff rfl rfl).trans nextStage_none.symm
  refine ⟨⟨k, hk, hw⟩, ?_, ?_, ?_, ?_, ?_⟩
  · intro env
    exact (refused_iff env hd ha).trans hfull.symm
  · intro hnot
    obtain ⟨stage, hstage⟩ := nextStage_of_not_full hnot
    exact ⟨stage, nextStage_least ⟨k, hw⟩ hstage, fun env => advance_reaches env hshape hd ha hstage⟩
  · intro more
    exact (advances_le_budget d.id more hschema hsh).trans (budget_le _ _)
  · intro envs hlen
    obtain ⟨d', hd', hs', hone⟩ := advanced_full hsh hd ha ((stagesAbove_le _).trans hlen)
    exact ⟨d', hd', hs'.trans hs, hone⟩
  · intro between overallResult env hsame
    have hout : t.db.deploymentOut? d.id = some out := by
      unfold Db.deploymentOut?
      rw [hd]
      rfl
    rw [hout] at hsame
    obtain ⟨d', hd', hsame⟩ := Option.map_eq_some_iff.mp hsame
    rw [show d' = d from congrArg DeploymentOut.deployment hsame] at hd' hsame
    have haccepted := action_accepted env hd' hs overallResult
    rw [hsame] at haccepted
    exact haccepted

/-- Right after a rollout was created. -/
theorem ramp_agrees_sample :
    let calls : List ApiCall := [.lifecycle (Env.after 0 "d1") (.create (sampleCreate "fraud-model") none)]
    ∃ d, (Tables.empty.after calls).db.deployment? "d1" = some d ∧ d.status = .canaryRunning ∧
      (∃ stage, LeastStage ((Tables.empty.after calls).db.canaryWeight d) stage) ∧
      ∀ more, advancesOf "d1" (Tables.empty.after calls) more ≤ 4 := by
  intro calls
  have hd : ((Tables.empty.after calls).db.deployment? "d1").isSome = true := by decide +kernel
  obtain ⟨d, hd⟩ := Option.isSome_iff_exists.mp hd
  have hid := (deployment?_eq_some.mp hd).2
  have hs : ((Tables.empty.after calls).db.deployment? "d1").map Deployment.status =
      some .canaryRunning := by decide +kernel
  have hnot : ((Tables.empty.after calls).db.deploymentOut? "d1").map canaryAtFullTraffic =
      some false := by decide +kernel
  rw [hd] at hs
  have hrow : (Tables.empty.after calls).db.deployment? d.id = some d := by rw [hid, hd]
  have hramp := ramp_agrees calls d hrow (Option.some.inj hs)
  obtain ⟨_, _, hstage, hfour, _⟩ := hramp
  rw [Db.deploymentOut?, hd] at hnot
  obtain ⟨stage, hleast, _⟩ := hstage (Option.some.inj hnot)
  exact ⟨d, hd, Option.some.inj hs, ⟨stage, hleast⟩, hid ▸ hfour⟩

end ModelOps
