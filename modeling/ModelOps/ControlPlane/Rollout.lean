/-
  File:      ModelOps/ControlPlane/Rollout.lean
  Subject:   What a deployment is for: a rollout climbs the stages, is judged, and is settled once.

  `Rollout` is the rollout as its operators see it: where it stands, how many verdicts were
  inconclusive, whether automation is held. `Rollout.next` says what a move makes of it, with no tables,
  no sessions, no clock and no tolerance; `Db.rollout?` reads it off the tables.

  * `simulates_exec` -- **a request to the deployment is its move**, answered with success exactly where
    the move is enabled, or where it is a hold that is as asked for already;
  * `rollout_stutters` -- any other request is none;
  * `rollout_ranked` -- the stages left, the verdicts left and the ends left pay for every move but the
    holds.
-/
import ModelOps.Lib.Refinement
import ModelOps.Worker.Ramp

namespace ModelOps

open Relational Refinement

/-! ## 1. The abstract rollout -/

/-- Where a rollout stands; `share` is the canary's share of the traffic. -/
inductive Phase where
  | running (share : ℚ)
  | frozen (share : ℚ)
  | promoted
  | rolledBack
  deriving DecidableEq

/-- Nobody has settled it. -/
def Phase.open : Phase → Bool
  | .running _ | .frozen _ => true
  | .promoted | .rolledBack => false

structure Rollout where
  phase : Phase
  retries : Nat
  maxRetries : Nat
  paused : Bool
  deriving DecidableEq

inductive Move where
  | advance
  | cycle
  | promote
  | rollback
  | hold (paused : Bool)
  deriving DecidableEq

/-- The first stage above a share. -/
def stageAbove (share : ℚ) : Option ℚ := TRAFFIC_STAGES.find? fun stage => decide (share < stage)

/-- What a move makes of the rollout, where it is enabled. -/
def Rollout.next (r : Rollout) : Move → Option Rollout
  | .advance =>
      match r.phase with
      | .running share => (stageAbove share).map fun stage => { r with phase := .running stage }
      | .frozen _ | .promoted | .rolledBack => none
  | .cycle =>
      match r.phase with
      | .running share =>
          -- one verdict more than is tolerated freezes it where it stands
          if r.retries < r.maxRetries then some { r with retries := r.retries + 1 }
          else some { r with phase := .frozen share, retries := r.retries + 1 }
      | .frozen _ | .promoted | .rolledBack => none
  | .promote => if r.phase.open then some { r with phase := .promoted } else none
  | .rollback => if r.phase.open then some { r with phase := .rolledBack } else none
  | .hold paused =>
      if r.phase.open ∧ r.paused ≠ paused then some { r with paused := paused } else none

/-- The stages, the verdicts and the ends that are left. -/
def Rollout.rank (r : Rollout) : Nat :=
  match r.phase with
  | .running share => stagesAbove share + (r.maxRetries - r.retries) + 2
  | .frozen _ => 1
  | .promoted | .rolledBack => 0

/-- Every move costs but a hold. -/
def Move.costly : Move → Bool
  | .advance | .cycle | .promote | .rollback => true
  | .hold _ => false

/-! ## 2. Its rank -/

section Rank

variable {r r' : Rollout} {m : Move}

theorem stageAbove_mem {share stage : ℚ} (h : stageAbove share = some stage) :
    stage ∈ TRAFFIC_STAGES ∧ share < stage :=
  ⟨List.mem_of_find?_eq_some h, by simpa using List.find?_some h⟩

/-- A settled rollout has no move left. -/
theorem next_settled (h : r.phase.open = false) (m : Move) : r.next m = none := by
  have hclosed : r.phase = .promoted ∨ r.phase = .rolledBack := by
    cases hp : r.phase with
    | running share => rw [hp] at h; cases h
    | frozen share => rw [hp] at h; cases h
    | promoted => exact Or.inl rfl
    | rolledBack => exact Or.inr rfl
  cases m <;> rcases hclosed with hp | hp <;> simp [Rollout.next, hp, Phase.open]

theorem rank_open (h : r.phase.open = true) : 1 ≤ r.rank := by
  unfold Rollout.rank
  cases hp : r.phase with
  | running share => exact Nat.le_add_left 1 _
  | frozen share => exact Nat.le_refl 1
  | promoted => rw [hp] at h; cases h
  | rolledBack => rw [hp] at h; cases h

/-- A settled rollout has rank zero. -/
theorem rank_settled (h : r.phase.open = false) : r.rank = 0 := by
  unfold Rollout.rank
  cases hp : r.phase with
  | running share => rw [hp] at h; cases h
  | frozen share => rw [hp] at h; cases h
  | promoted => rfl
  | rolledBack => rfl

/-- **Every move but a hold is paid for.** -/
theorem rollout_ranked : Ranked Rollout.next (fun _ => Move.costly) Rollout.rank := by
  have hstep : ∀ {r m r'}, Rollout.next r m = some r' → r'.rank + m.costly.toNat ≤ r.rank := by
    intro r m r' h
    have ho : r.phase.open = true := by
      by_contra hc
      rw [next_settled (by simpa using hc) m] at h
      cases h
    cases m with
    | advance =>
        simp only [Rollout.next] at h
        split at h
        · rename_i share hp
          obtain ⟨stage, hs, rfl⟩ := Option.map_eq_some_iff.mp h
          obtain ⟨hmem, hlt⟩ := stageAbove_mem hs
          have hless := stagesAbove_lt hmem hlt
          simp only [Rollout.rank, hp, Move.costly, Bool.toNat_true]
          omega
        all_goals cases h
    | cycle =>
        simp only [Rollout.next] at h
        split at h
        · rename_i share hp
          split at h
          · rename_i hn
            cases h
            simp only [Rollout.rank, hp, Move.costly, Bool.toNat_true]
            omega
          · cases h
            simp only [Rollout.rank, hp, Move.costly, Bool.toNat_true]
            omega
        all_goals cases h
    | promote =>
        simp only [Rollout.next, ho, if_true] at h
        cases h
        exact rank_open ho
    | rollback =>
        simp only [Rollout.next, ho, if_true] at h
        cases h
        exact rank_open ho
    | hold paused =>
        simp only [Rollout.next] at h
        split at h
        · cases h
          exact Nat.le_refl _
        · cases h
  refine ⟨fun h => ?_, fun h hc => ?_⟩
  · exact Nat.le_trans (Nat.le_add_right _ _) (hstep h)
  · have hpaid := hstep h
    rw [hc] at hpaid
    exact hpaid

end Rank

/-! ## 3. The rollout in the tables -/

/-- Where a row stands, with its canary's share. -/
def Phase.of (share : ℚ) : DeploymentStatus → Option Phase
  | .canaryRunning => some (.running share)
  | .inconclusive => some (.frozen share)
  | .promoted => some .promoted
  | .rolledBack => some .rolledBack
  | .pending | .deploying | .evaluating | .promoting | .rollingBack | .failed => none

def Db.rollout? (db : Db) (id : String) : Option Rollout := do
  let d ← db.deployment? id
  let p ← d.policyConfig
  let phase ← Phase.of (db.canaryWeight d) d.status
  pure ⟨phase, d.inconclusiveRetryCount, p.maxInconclusiveRetries, d.automationPaused⟩

/-- The move a request makes of `id`. -/
def Request.move (id : String) : Request → Option Move
  | .create .. => none
  | .promote id' _ => if id' = id then some .promote else none
  | .rollback id' _ => if id' = id then some .rollback else none
  | .advanceTraffic id' => if id' = id then some .advance else none
  | .recordInconclusive id' => if id' = id then some .cycle else none
  | .pauseAutomation id' _ => if id' = id then some (.hold true) else none
  | .resumeAutomation id' _ => if id' = id then some (.hold false) else none

/-- Whether a move is answered with success: a hold also where it is as asked for already. -/
def Rollout.answers (r : Rollout) (m : Move) : Bool :=
  match m with
  | .hold _ => r.phase.open
  | .advance | .cycle | .promote | .rollback => (r.next m).isSome

theorem answers_costly (r : Rollout) {m : Move} (h : m.costly = true) :
    r.answers m = (r.next m).isSome := by
  cases m <;> first | rfl | cases h

/-- `r` is what the tables say of `d`. -/
structure Shows (db : Db) (d : Deployment) (r : Rollout) : Prop where
  phase : Phase.of (db.canaryWeight d) d.status = some r.phase
  retries : d.inconclusiveRetryCount = r.retries
  policy : ∃ p, d.policyConfig = some p ∧ p.maxInconclusiveRetries = r.maxRetries
  paused : d.automationPaused = r.paused

section Shown

variable {env : Env} {db db' : Db} {d row : Deployment} {r : Rollout} {id : String}
  {split : Option (List TargetWeight)} {events : List DeploymentEvent} {share : ℚ} {p : Phase}

theorem rollout?_eq_some :
    db.rollout? id = some r ↔ ∃ d, db.deployment? id = some d ∧ Shows db d r := by
  unfold Db.rollout?
  constructor
  · intro h
    obtain ⟨d, hd, h⟩ := Option.bind_eq_some_iff.mp h
    obtain ⟨p, hp, h⟩ := Option.bind_eq_some_iff.mp h
    obtain ⟨phase, hphase, h⟩ := Option.bind_eq_some_iff.mp h
    cases h
    exact ⟨d, hd, hphase, rfl, ⟨p, hp, rfl⟩, rfl⟩
  · rintro ⟨d, hd, hphase, hretries, ⟨p, hp, hmax⟩, hpaused⟩
    obtain ⟨phase, retries, maxRetries, paused⟩ := r
    simp only at hphase hretries hmax hpaused
    simp [hd, hp, hphase, hretries, hmax, hpaused]

/-- A committed deployment has a rollout. -/
theorem rollout_of_shape (hsh : Shape db d) (hd : db.deployment? d.id = some d) :
    ∃ r, db.rollout? d.id = some r := by
  obtain ⟨p, hp, _⟩ := hsh.policy
  obtain ⟨phase, hphase⟩ : ∃ phase, Phase.of (db.canaryWeight d) d.status = some phase := by
    rcases hsh.status_cases with hs | hs | hs | hs <;> rw [hs] <;> exact ⟨_, rfl⟩
  exact ⟨⟨phase, d.inconclusiveRetryCount, p.maxInconclusiveRetries, d.automationPaused⟩,
    rollout?_eq_some.mpr ⟨d, hd, hphase, rfl, ⟨p, hp, rfl⟩, rfl⟩⟩

/-- Requests that leave the row and its allocation leave the rollout. -/
theorem rollout_unchanged (hd : db'.deployment? id = db.deployment? id)
    (ha : db'.trafficAllocation? id = db.trafficAllocation? id) : db'.rollout? id = db.rollout? id := by
  unfold Db.rollout?
  rw [hd]
  cases h : db.deployment? id with
  | none => rfl
  | some d =>
      obtain ⟨rfl, _⟩ := found h
      have hshare : db'.canaryWeight d = db.canaryWeight d := by
        unfold Db.canaryWeight
        rw [ha]
      simp only [Option.bind_eq_bind, Option.bind_some, hshare]

theorem shows_open (h : Shows db d r) (hsh : Shape db d) : r.phase.open = true ↔ d.Open := by
  have hphase := h.phase
  unfold Deployment.Open
  rcases hsh.status_cases with hs | hs | hs | hs <;> rw [hs] at hphase ⊢ <;>
    rw [← Option.some.inj hphase]
  · exact iff_of_true rfl rfl
  · exact iff_of_true rfl rfl
  · exact iff_of_false Bool.false_ne_true (Bool.false_ne_true ∘ Eq.symm)
  · exact iff_of_false Bool.false_ne_true (Bool.false_ne_true ∘ Eq.symm)

/-- A rollout is running exactly where its row is active. -/
theorem shows_running (h : Shows db d r) (hsh : Shape db d) :
    (d.status.active = true ∧ r.phase = .running (db.canaryWeight d)) ∨
      (d.status.active = false ∧ ∀ share, r.phase ≠ .running share) := by
  have hphase := h.phase
  rcases hsh.status_cases with hs | hs | hs | hs <;> rw [hs] at hphase ⊢ <;> simp only [Phase.of,
    Option.some.injEq] at hphase <;> rw [← hphase]
  · exact Or.inl ⟨rfl, rfl⟩
  all_goals exact Or.inr ⟨rfl, fun _ h => nomatch h⟩

/-- Without its tolerance, `_next_stage` is the first stage above the share. -/
theorem nextStage_eq (hw : ∃ k : Nat, share = k / 10 ^ 6) : nextStage share = stageAbove share := by
  unfold nextStage stageAbove
  refine List.find?_congr fun stage hmem => ?_
  rw [decide_eq_decide]
  exact tolerance_idle hw hmem

/-- An open rollout can be promoted and rolled back, a settled one neither. -/
theorem admits_iff {res : Resolution} (hres : res = promotion ∨ res = rollback) (hsh : Shape db d) :
    res.Admits d.status ↔ d.Open := by
  unfold Deployment.Open
  rcases hsh.status_cases with hs | hs | hs | hs <;> rw [hs] <;> rcases hres with rfl | rfl <;> decide

end Shown

/-! ## 4. One request -/

section Step

variable {env : Env} {db : Db} {d row : Deployment} {r r' : Rollout} {id : String} {req : Request}
  {m : Move} {reply : Reply} {split : Option (List TargetWeight)} {events : List DeploymentEvent}

/-- The request does to the tables what `m` does to the rollout, and is answered accordingly. -/
def Simulates (env : Env) (db : Db) (req : Request) (id : String) (r : Rollout) (m : Move) : Prop :=
  (req.exec env db).2.rollout? id = some (proceed Rollout.next r m) ∧
    (req.exec env db).1.isOk = r.answers m

theorem simulates_idle {x : Except ServiceError Reply} (hr : db.rollout? id = some r)
    (hn : r.next m = none) (hx : req.exec env db = (x, db)) (hok : x.isOk = r.answers m) :
    Simulates env db req id r m := by
  refine ⟨?_, by rw [hx]; exact hok⟩
  rw [hx, proceed_disabled hn]
  exact hr

theorem simulates_put (hn : r.next m = some r')
    (hx : req.exec env db = (.ok reply, db.applied row split events)) (hid : row.id = id)
    (hs : Shows (db.applied row split events) row r') (hok : r.answers m = true) :
    Simulates env db req id r m := by
  refine ⟨?_, by rw [hx, hok]; rfl⟩
  rw [hx, proceed_enabled hn, rollout?_eq_some]
  exact ⟨row, by rw [applied_deployment?, if_pos hid.symm], hs⟩

variable (hd : db.deployment? d.id = some d) (hs : Shows db d r) (hsh : Shape db d)
include hd hs hsh

/-- Promote and rollback: `phase` is where the resolution leaves a rollout. -/
theorem simulates_resolve {res : Resolution} {by_ : TriggeredBy} {phase : Phase}
    (hres : res = promotion ∨ res = rollback) (hreq : req.Resolves res d.id by_)
    (hphase : ∀ share, Phase.of share res.settled = some phase)
    (hnext : r.next m = if r.phase.open then some { r with phase := phase } else none)
    (hcostly : m.costly = true) : Simulates env db req d.id r m := by
  by_cases ho : d.Open
  · have hopen := (shows_open hs hsh).mpr ho
    rw [if_pos hopen] at hnext
    refine simulates_put hnext (exec_resolved hreq hd ((admits_iff hres hsh).mpr ho)) rfl ?_ ?_
    · exact ⟨hphase _, hs.retries, hs.policy, hs.paused⟩
    · rw [answers_costly r hcostly, hnext]
      rfl
  · have hclosed : ¬r.phase.open = true := fun h => ho ((shows_open hs hsh).mp h)
    rw [if_neg hclosed] at hnext
    have heval := eval_resolves env db hreq
    rw [hd] at heval
    have herror := heval.trans (eval_resolve_error (fun h => ho ((admits_iff hres hsh).mp h)) by_)
    refine simulates_idle (rollout?_eq_some.mpr ⟨d, hd, hs⟩) hnext (exec_of_error herror) ?_
    rw [answers_costly r hcostly, hnext]
    rfl

theorem simulates_advance : Simulates env db (.advanceTraffic d.id) d.id r .advance := by
  have hr := rollout?_eq_some.mpr ⟨d, hd, hs⟩
  have hanswers : r.answers .advance = (r.next .advance).isSome := rfl
  have hload : ((Request.advanceTraffic d.id).program env).eval database db =
      (ModelOps.advanceTraffic { clock := env.clock, deployment := d }).eval database db := by
    have he : ((Request.advanceTraffic d.id).program env).eval database db = _ :=
      eval_getDeployment env db ModelOps.advanceTraffic d.id
    rw [hd] at he
    exact he
  rcases shows_running hs hsh with ⟨ha, hrun⟩ | ⟨ha, hrun⟩
  · have hstage := nextStage_eq ((hsh.weight (open_of_active ha)).imp fun k hk => hk.2)
    have hnext : r.next .advance =
        (nextStage (db.canaryWeight d)).map fun stage => { r with phase := .running stage } := by
      rw [hstage]
      simp only [Rollout.next, hrun]
    cases hw : nextStage (db.canaryWeight d) with
    | none =>
        rw [hw] at hnext
        exact simulates_idle hr hnext (exec_final hd ha hw) (by rw [hanswers, hnext]; rfl)
    | some stage =>
        rw [hw] at hnext
        refine simulates_put hnext (exec_advanced hd ha hw) rfl ?_ (by rw [hanswers, hnext]; rfl)
        refine ⟨?_, hs.retries, hs.policy, hs.paused⟩
        rw [advanced_canaryWeight hsh.versions_ne (nextStage_mem hw).1,
          show (advancedRow env d).status = .canaryRunning from hsh.running_of_active ha]
        rfl
  · have hnext : r.next .advance = none := by
      simp only [Rollout.next]
      split
      · rename_i share hp
        exact absurd hp (hrun share)
      all_goals rfl
    obtain ⟨e, he⟩ := eval_advance_error env db (Or.inl ha)
    exact simulates_idle hr hnext (exec_of_error (hload.trans he))
      (by rw [hanswers, hnext]; rfl)

theorem simulates_cycle : Simulates env db (.recordInconclusive d.id) d.id r .cycle := by
  have hr := rollout?_eq_some.mpr ⟨d, hd, hs⟩
  have hanswers : r.answers .cycle = (r.next .cycle).isSome := rfl
  obtain ⟨p, hp, hmax⟩ := hs.policy
  have hbound : (getPolicyConfig env d).maxInconclusiveRetries = r.maxRetries := by
    rw [← hmax, getPolicyConfig, hp]
    rfl
  rcases shows_running hs hsh with ⟨ha, hrun⟩ | ⟨ha, hrun⟩
  · have hnext : r.next .cycle =
        if r.retries < r.maxRetries then some { r with retries := r.retries + 1 }
        else some { r with phase := .frozen (db.canaryWeight d), retries := r.retries + 1 } := by
      simp only [Rollout.next, hrun]
    obtain ⟨reply, row, bodies, hx, ⟨rfl, hn⟩ | ⟨rfl, hn⟩⟩ := exec_recorded env hd ha
    · rw [hbound, hs.retries, Nat.add_one_le_iff] at hn
      rw [if_pos hn] at hnext
      refine simulates_put hnext hx rfl ?_ (by rw [hanswers, hnext]; rfl)
      exact ⟨hs.phase, by rw [← hs.retries]; rfl, hs.policy, hs.paused⟩
    · rw [hbound, hs.retries, Nat.lt_add_one_iff, ← Nat.not_lt] at hn
      rw [if_neg hn] at hnext
      refine simulates_put hnext hx rfl ?_ (by rw [hanswers, hnext]; rfl)
      exact ⟨rfl, by rw [← hs.retries]; rfl, hs.policy, hs.paused⟩
  · have hnext : r.next .cycle = none := by
      simp only [Rollout.next]
      split
      · rename_i share hp
        exact absurd hp (hrun share)
      all_goals rfl
    have herror := (eval_recordInconclusive env hd).trans (eval_recordInconclusive_error ha)
    exact simulates_idle hr hnext (exec_of_error herror) (by rw [hanswers, hnext]; rfl)

theorem simulates_hold {paused : Bool} {event : EventBody} (hreq : req.Flags paused event d.id) :
    Simulates env db req d.id r (.hold paused) := by
  have hr := rollout?_eq_some.mpr ⟨d, hd, hs⟩
  have hanswers : r.answers (.hold paused) = r.phase.open := rfl
  have heval := eval_flags env db hreq
  rw [hd] at heval
  have hnext : r.next (.hold paused) =
      if r.phase.open ∧ r.paused ≠ paused then some { r with paused := paused } else none := rfl
  cases ht : d.status.terminal with
  | true =>
      have hclosed : r.phase.open = false := by
        by_contra hopen
        have ho : d.Open := (shows_open hs hsh).mp (by simpa using hopen)
        rw [Deployment.Open, ht] at ho
        cases ho
      rw [if_neg (by simp [hclosed])] at hnext
      refine simulates_idle hr hnext (exec_of_error (heval.trans (eval_setAutomation_error ht))) ?_
      rw [hanswers, hclosed]
      rfl
  | false =>
      have hopen := (shows_open hs hsh).mpr ht
      by_cases hp : d.automationPaused = paused
      · rw [if_neg (by simp [← hs.paused, hp])] at hnext
        refine simulates_idle hr hnext (exec_of_reply (heval.trans (eval_setAutomation_same ht hp))) ?_
        rw [hanswers, hopen]
        rfl
      · rw [if_pos ⟨hopen, hs.paused ▸ hp⟩] at hnext
        have hx := exec_of_commits ((commits_flag hd ht hp).congr heval)
        refine simulates_put hnext hx rfl ?_ (by rw [hanswers, hopen])
        exact ⟨hs.phase, hs.retries, hs.policy, rfl⟩

end Step

/-- **A request to the deployment is its move.** -/
theorem simulates_exec (env : Env) {db : Db} {id : String} {r : Rollout} {req : Request} {m : Move}
    (hsh : Shaped db) (hr : db.rollout? id = some r) (hm : req.move id = some m) :
    Simulates env db req id r m := by
  obtain ⟨d, hd, hs⟩ := rollout?_eq_some.mp hr
  obtain ⟨rfl, hd⟩ := found hd
  have hshape := hsh d (deployment?_eq_some.mp hd).1
  cases req with
  | create p key => cases hm
  | promote id by_ =>
      obtain ⟨rfl, hmove⟩ := Option.ite_none_right_eq_some.mp hm
      cases hmove
      exact simulates_resolve hd hs hshape (Or.inl rfl) (.promote d.id by_) (fun _ => rfl) rfl rfl
  | rollback id by_ =>
      obtain ⟨rfl, hmove⟩ := Option.ite_none_right_eq_some.mp hm
      cases hmove
      exact simulates_resolve hd hs hshape (Or.inr rfl) (.rollback d.id by_) (fun _ => rfl) rfl rfl
  | advanceTraffic id =>
      obtain ⟨rfl, hmove⟩ := Option.ite_none_right_eq_some.mp hm
      cases hmove
      exact simulates_advance hd hs hshape
  | recordInconclusive id =>
      obtain ⟨rfl, hmove⟩ := Option.ite_none_right_eq_some.mp hm
      cases hmove
      exact simulates_cycle hd hs hshape
  | pauseAutomation id by_ =>
      obtain ⟨rfl, hmove⟩ := Option.ite_none_right_eq_some.mp hm
      cases hmove
      exact simulates_hold hd hs hshape (.pause d.id by_)
  | resumeAutomation id by_ =>
      obtain ⟨rfl, hmove⟩ := Option.ite_none_right_eq_some.mp hm
      cases hmove
      exact simulates_hold hd hs hshape (.resume d.id by_)

/-- **Any other request is none**: it leaves the rollout as it is. -/
theorem rollout_stutters (env : Env) {db : Db} {id : String} {r : Rollout} {req : Request}
    (hr : db.rollout? id = some r) (hm : req.move id = none) :
    (req.exec env db).2.rollout? id = some r := by
  obtain ⟨d, hd, hs⟩ := rollout?_eq_some.mp hr
  obtain ⟨rfl, hd⟩ := found hd
  rcases exec_turns env req hd with ⟨hd', ha'⟩ | ⟨row, split, events, hturn, hid, hdb⟩
  · rw [rollout_unchanged (hd'.trans hd.symm) ha', hr]
  · -- a turn is a request to the deployment
    cases hturn with
    | resolved hreq _ => cases hreq <;> simp [Request.move] at hm
    | advanced _ _ => simp [Request.move] at hm
    | cycled _ _ => simp [Request.move] at hm
    | frozen _ _ => simp [Request.move] at hm
    | flagged hreq _ _ => cases hreq <;> simp [Request.move] at hm

end ModelOps
