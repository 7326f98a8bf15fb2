/-
  File:      ModelOps/System/Outcome.lean
  Subject:   The traffic follows the outcome: what the router does after a rollout has ended.

  A settled rollout leaves one version (`Deployment.outcome`). One call of the reconciler, and every
  request goes to it; and it stays so, whatever is still on its way to the router and whatever is
  called, until the model's next rollout.

  * `settled_split` -- the allocation of a settled rollout is that one version;
  * `Pinned` -- the router holds it, and nobody is left who could publish another one; `pinned_step`
    keeps that;
  * **`outcome_served`** -- so every later draw goes to that version.
-/
import ModelOps.Router.Predict
import ModelOps.System.Convergence

namespace ModelOps

open Relational Publication Labelled

/-! ## 1. What a settled rollout leaves -/

/-- The version that is left when the rollout has ended. -/
def Deployment.outcome (d : Deployment) : Option String :=
  match d.status with
  | .promoted => some d.canaryVersion
  | .rolledBack => some d.stableVersion
  | _ => none

/-- What a config with that one version chooses. -/
theorem chooseTarget_single {config : RouterConfig} {v : String} (h : config.targets = [⟨v, 1⟩])
    (draw : ℚ) : (chooseTarget config draw).map TargetWeight.version = some v := by
  unfold chooseTarget
  rw [h]
  rfl

section Settled

variable {db : Db} {d : Deployment} {v : String} {m : String}

theorem closed_of_outcome (h : d.outcome = some v) : ¬d.Open := by
  intro ho
  unfold Deployment.Open at ho
  unfold Deployment.outcome at h
  split at h
  · rename_i hs
    rw [hs] at ho
    cases ho
  · rename_i hs
    rw [hs] at ho
    cases ho
  · cases h

/-- **The allocation of a settled rollout is its outcome.** -/
theorem settled_split (hsh : Shape db d) (h : d.outcome = some v) {a : TrafficAllocation}
    (ha : db.trafficAllocation? d.id = some a) : a.targets = [⟨v, 1⟩] := by
  obtain ⟨a', ha', hf⟩ := hsh.split
  rw [ha] at ha'
  cases ha'
  unfold Deployment.outcome at h
  split at h
  · rename_i hs
    cases h
    simpa only [Fits, hs] using hf
  · rename_i hs
    cases h
    simpa only [Fits, hs] using hf
  · cases h

/-- Where the authoritative deployment is settled, no rollout of the model is open. -/
theorem closed_of_authoritative (hs : Schema db) (hsh : Shaped db)
    (hd : db.getAuthoritativeAllocation m = some d) (hc : ¬d.Open) :
    ∀ d' ∈ db.deployments, d'.modelName = m → ¬d'.Open := by
  intro d' hd' hm ho
  have hauth := authoritative_open hs hsh hd' ho
  rw [hm, hd] at hauth
  cases hauth
  exact hc ho

end Settled

/-! ## 2. Until the next rollout -/

/-- Neither a rollout of `m` is created nor is the router restarted, and no other model's push arrives. -/
def Label.Undisturbed (m : String) : Label → Prop
  | .request _ (.create p _) _ => p.modelName ≠ m
  | .arrive p => p.modelName = m
  | .restart => False
  | _ => True

/-- The router holds the last allocation of `m`, nothing is between a check and its write, and no
    rollout of `m` is open. -/
structure Pinned (m : String) (config : RouterConfig) (sys : System) : Prop where
  router : sys.router = .running config []
  model : config.modelName = m
  newest : config.revision = sys.db.generation m
  closed : ∀ d ∈ sys.db.deployments, d.modelName = m → ¬d.Open

section Pinned

variable {s : RouterSettings} {log : Log} {sys sys' : System} {m : String} {config : RouterConfig}
  {db : Db} {req : Request}

/-- A request that creates no rollout of `m` leaves a model without an open one as it is. -/
theorem closed_exec (env : Env) (hreq : ∀ p key, req = .create p key → p.modelName ≠ m)
    (hclosed : ∀ d ∈ db.deployments, d.modelName = m → ¬d.Open) :
    (req.exec env db).2.generation m = db.generation m ∧
      ∀ d ∈ (req.exec env db).2.deployments, d.modelName = m → ¬d.Open := by
  rcases exec_cases env db req with ⟨x, hx, _⟩ | ⟨reply, row, split, bodies, heff, hx⟩
  · rw [hx]
    exact ⟨rfl, hclosed⟩
  · rw [hx]
    -- the row that was put is another model's: of this one there is none to amend
    have hother : row.modelName ≠ m := by
      rcases heff.creates_or_amends with ⟨p, key, rfl, _, rfl, _⟩ | ⟨d, hd, hamend⟩
      · exact hreq p key rfl
      · intro hm
        exact hclosed d (deployment?_eq_some.mp hd).1 (hamend.modelName_eq ▸ hm) hamend.was_open
    refine ⟨applied_generation_ne hother.symm, ?_⟩
    intro d hd hm
    rcases mem_applied.mp hd with rfl | ⟨hd, _⟩
    · exact absurd hm hother
    · exact hclosed d hd hm

/-- A push of `m` is not newer than its generation. -/
theorem push_le (hj : Joint log sys) {p : Push} (hp : p ∈ sys.sent) (hm : p.modelName = m) :
    p.revision ≤ sys.db.generation m := by
  have hle := (entryAt_le (hj.sent p hp).entry).2
  rw [hm, ← hj.routed.generation] at hle
  exact hle

/-- **Every undisturbed step leaves the router as it is.** -/
theorem pinned_step {l : Label} (hj : Joint log sys) (hp : Pinned m config sys) (hu : l.Undisturbed m)
    (h : Step s sys l sys') : Pinned m config sys' := by
  have hrunning : ∀ {config' pending}, sys.router = .running config' pending →
      config' = config ∧ pending = [] := by
    intro config' pending hr
    rw [hp.router] at hr
    cases hr
    exact ⟨rfl, rfl⟩
  have hnotStarting : ∀ {f}, sys.router ≠ .starting f := by
    intro f hr
    rw [hp.router] at hr
    cases hr
  cases h with
  | @request env req now' hc =>
      have hcreate : ∀ p key, req = .create p key → p.modelName ≠ m := by
        rintro p key rfl
        exact hu
      obtain ⟨hgen, hclosed⟩ := closed_exec env hcreate hp.closed
      exact ⟨hp.router, hp.model, hp.newest.trans (congrArg _ hgen.symm), hclosed⟩
  | note hle ht => exact ⟨hp.router, hp.model, hp.newest, hp.closed⟩
  | read hd ha => exact ⟨hp.router, hp.model, hp.newest, hp.closed⟩
  | @checked p config' pending c hr hsent hb hk hs =>
      -- whatever is still on its way is not newer than what the router holds
      obtain ⟨rfl, _⟩ := hrunning hr
      have hcarries := carries_of_body hb
      refine absurd ⟨?_, ?_⟩ hs
      · exact hcarries.modelName_eq.trans (hu.trans hp.model.symm)
      · rw [hcarries.revision_eq, hp.newest]
        exact_mod_cast push_le hj hsent hu
  | refused hr hsent hno => exact ⟨hp.router, hp.model, hp.newest, hp.closed⟩
  | settle hr hb hmem =>
      rw [(hrunning hr).2] at hmem
      cases hmem
  | restart => exact hu.elim
  | fetch hr hc => exact absurd hr hnotStarting
  | bootstrap hr => exact absurd hr hnotStarting
  | synced hr => exact absurd hr hnotStarting

/-- So does every undisturbed run. -/
theorem pinned_run {ls : List Label} (hj : Joint log sys) (hp : Pinned m config sys)
    (hu : ∀ l ∈ ls, l.Undisturbed m) (hrun : run (System.next s) sys ls = some sys') :
    Pinned m config sys' := by
  induction ls generalizing log sys with
  | nil =>
      cases hrun
      exact hp
  | cons l ls ih =>
      rw [run_cons] at hrun
      obtain ⟨next, hnext, hrun⟩ := Option.bind_eq_some_iff.mp hrun
      have hstep := step_of_next hnext
      obtain ⟨log', hj', _⟩ := joint_step hj hstep
      exact ih hj' (pinned_step hj hp (hu l List.mem_cons_self) hstep)
        (fun l' hl' => hu l' (List.mem_cons_of_mem l hl')) hrun

end Pinned

/-! ## 3. The call of the reconciler -/

section Tick

variable {s : RouterSettings} {sys : System} {config : RouterConfig} {p : Push}

/-- A push that passes the check is stored. -/
theorem receive_checked (h : System.check s p config = true) : p.body = .ok (config.receive s p) := by
  obtain ⟨c, hb, hk, hs⟩ := check_iff.mp h
  have hput : putConfig s c config = .ok c := by
    unfold putConfig
    rw [putCheck_ok.mpr ⟨hk, hs⟩]
  unfold RouterConfig.receive
  simp only [hb, hput]

/-- One that does not leaves the config. -/
theorem receive_refused (h : System.check s p config = false) : config.receive s p = config := by
  unfold System.check at h
  unfold RouterConfig.receive putConfig
  cases hb : p.body with
  | error e => rfl
  | ok c =>
      simp only [hb] at h ⊢
      cases hp : putCheck s c config with
      | error e => rfl
      | ok u =>
          rw [hp] at h
          cases h

/-- **A call with nothing beside it is a run of the system**: the tick, and the PUT of its push. -/
theorem alone_run (hr : sys.router = .running config []) {clock : Clock} {now' : Time}
    (hc : clock.Within sys.now now') :
    ∃ ls after, run (System.next s) sys ls = some after ∧
      after.db = (reconcileAlone s clock sys.db config).1.db ∧
      after.router = .running (reconcileAlone s clock sys.db config).2 [] ∧ after.now = now' := by
  obtain ⟨ls, told, hrun, hdb, hsent, hrouter, hnow⟩ := tick_run s (.live s config) hc
  rw [alone_tick]
  rw [hr] at hrouter
  unfold reconcileAlone
  dsimp only
  cases hp : (reconcileRouterState clock sys.db (.live s config)).sent with
  | none => exact ⟨ls, told, hrun, hdb, hrouter, hnow⟩
  | some p =>
      have hmem : p ∈ told.sent := by
        rw [hsent, hp]
        simp
      cases hcheck : System.check s p config with
      | false =>
          have harrive : System.next s told (.arrive p) =
              some { told with delivered := p :: told.delivered } := by
            simp only [System.next, hrouter, hmem, not_true, if_false, hcheck, Bool.false_eq_true]
          refine ⟨ls ++ [.arrive p], { told with delivered := p :: told.delivered }, ?_, hdb, ?_, hnow⟩
          · rw [run_append, hrun, Option.bind_some, run_cons, harrive]
            rfl
          · show told.router = .running (config.receive s p) []
            rw [receive_refused hcheck]
            exact hrouter
      | true =>
          have harrive : System.next s told (.arrive p) =
              some { told with router := .running config [p] } := by
            simp only [System.next, hrouter, hmem, not_true, if_false, hcheck, if_true]
          let stored : System :=
            { told with router := .running (config.receive s p) [], delivered := p :: told.delivered }
          have hsettle : System.next s { told with router := .running config [p] } (.settle p) =
              some stored := by
            simp only [System.next, receive_checked hcheck, List.mem_singleton, if_true,
              List.erase_cons_head]
            rfl
          refine ⟨ls ++ [.arrive p, .settle p], stored, ?_, hdb, rfl, hnow⟩
          rw [run_append, hrun, Option.bind_some, run_cons, harrive, Option.bind_some, run_cons, hsettle]
          rfl

end Tick

/-- **The traffic follows the outcome.** In every reachable state in which the rollout that is
    authoritative for the router's model has ended, one call of the reconciler, and from then on every
    request goes to the version that is left: whatever else is called or still on its way, until a
    rollout of the model is created, another model's push arrives or the router starts again. -/
theorem outcome_served (s : RouterSettings) (ls : List Label) (sys : System)
    (hrun : run (System.next s) (System.start s) ls = some sys) (config : RouterConfig)
    (hr : sys.router = .running config []) (hm : config.modelName ≠ "") (d : Deployment) (v : String)
    (hd : sys.db.getAuthoritativeAllocation config.modelName = some d) (hv : d.outcome = some v)
    (hk : s.Knows v) (clock : Clock) (now' : Time) (hc : clock.Within sys.now now') :
    ∃ tick after, run (System.next s) sys tick = some after ∧
      after.db = (reconcileAlone s clock sys.db config).1.db ∧
      after.router = .running (reconcileAlone s clock sys.db config).2 [] ∧ after.now = now' ∧
      ∀ later sys', (∀ l ∈ later, l.Undisturbed config.modelName) →
        run (System.next s) after later = some sys' →
        ∃ served, sys'.router = .running served [] ∧
          ∀ draw, (chooseTarget served draw).map TargetWeight.version = some v := by
  obtain ⟨log, hj⟩ := joint_run hrun
  obtain ⟨hmem, hmodel⟩ := authoritative_mem hd
  obtain ⟨d', a, hd', _, _, ha, hrev, _⟩ := hj.routed.authoritative hmem
  rw [hmodel, hd] at hd'
  cases hd'
  have hsplit := settled_split (hj.routed.shaped d hmem) hv ha
  have hknown : ∀ t ∈ a.targets, s.Knows t.version := by
    rw [hsplit]
    intro t ht
    rw [List.mem_singleton.mp ht]
    exact hk
  obtain ⟨hcarries, _⟩ := alone_corrects hj hr hm hd ha hknown clock
  obtain ⟨tick, after, htick, hdb, hrouter, hnow⟩ := alone_run (s := s) hr hc
  refine ⟨tick, after, htick, hdb, hrouter, hnow, ?_⟩
  intro later sys' hu hlater
  have hbefore := closed_of_authoritative hj.routed.schema hj.routed.shaped hd (closed_of_outcome hv)
  obtain ⟨events, hevents, _⟩ := reconcile_grown clock sys.db (.live s config)
  rw [alone_tick, hevents] at hdb
  have hpinned : Pinned config.modelName (reconcileAlone s clock sys.db config).2 after := by
    refine ⟨hrouter, hcarries.modelName_eq.trans hmodel, ?_, ?_⟩
    · rw [hcarries.revision_eq, hdb]
      show ((a.revision : Nat) : Int) = sys.db.generation config.modelName
      rw [hrev, hmodel]
    · rw [hdb]
      exact hbefore
  have hwhole : run (System.next s) (System.start s) (ls ++ tick) = some after := by
    rw [run_append, hrun]
    exact htick
  obtain ⟨log', hj'⟩ := joint_run hwhole
  have hend := pinned_run hj' hpinned hu hlater
  exact ⟨_, hend.router, fun draw => chooseTarget_single (hcarries.targets_eq.trans hsplit) draw⟩

/-- A rollout that was promoted when only its first push had arrived. -/
def sampleEnded : List Label :=
  sampleDrift "fraud-model" ++ [.request (Env.after 4 "d2") (.promote "d1" .manual) 6]

/-- One call, and the push that comes late does not bring the stable version back. -/
theorem outcome_served_sample :
    ∃ sys tick after, run (System.next sampleRouter) (System.start sampleRouter) sampleEnded = some sys ∧
      sys.router.reports = some ("fraud-model", 1) ∧
      run (System.next sampleRouter) sys tick = some after ∧
      ∀ sys', run (System.next sampleRouter) after [.arrive (samplePush "fraud-model" 2 (1 / 4))] =
          some sys' →
        ∃ served, sys'.router = .running served [] ∧
          ∀ draw, (chooseTarget served draw).map TargetWeight.version = some "v2" := by
  have h : (run (System.next sampleRouter) (System.start sampleRouter) sampleEnded).map (fun sys =>
      (sys.router.reports, sys.router.idle,
        (sys.db.getAuthoritativeAllocation "fraud-model").bind Deployment.outcome, sys.now)) =
      some (some ("fraud-model", 1), true, some "v2", 6) := by decide +kernel
  obtain ⟨sys, hrun, hs⟩ := Option.map_eq_some_iff.mp h
  simp only [Prod.mk.injEq] at hs
  obtain ⟨hreports, hidle, hout, hnow⟩ := hs
  obtain ⟨d, hd, hv⟩ := Option.bind_eq_some_iff.mp hout
  cases hr : sys.router with
  | starting f =>
      rw [hr] at hreports
      cases hreports
  | running config pending =>
      rw [hr] at hreports hidle
      cases pending with
      | cons p ps => cases hidle
      | nil =>
          have hm : config.modelName = "fraud-model" := congrArg Prod.fst (Option.some.inj hreports)
          have hc : (Env.after 6 "").clock.Within sys.now 8 := by
            rw [hnow]
            decide
          obtain ⟨tick, after, htick, _, _, _, hserved⟩ := outcome_served sampleRouter sampleEnded sys hrun
            config hr (by rw [hm]; decide) d "v2" (by rw [hm]; exact hd) hv (by decide +kernel) _ 8 hc
          refine ⟨sys, tick, after, hrun, by rw [hr]; exact hreports, htick, ?_⟩
          intro sys' hlate
          refine hserved _ sys' ?_ hlate
          intro l hl
          rw [List.mem_singleton.mp hl, hm]
          rfl

end ModelOps
