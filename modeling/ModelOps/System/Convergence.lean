/-
  File:      ModelOps/System/Convergence.lean
  Subject:   One tick of the reconciler closes the drift, and the ticks after it are silent.

  `reconcileAlone` is a call of `reconcile_router_state` with nothing beside it: the router that is
  asked is the router that is pushed to. `synced_or_behind` -- in every reachable state the router
  holds the authoritative allocation or an older revision, so the push is never refused as stale.

  * **`reconcile_converges`** -- for a router that reports a model name;
  * `reconcile_unnamed` -- a router that reports an empty one is left alone;
  * **`handover_iff`** -- with rollouts of several models: which of them the router is given back to.
-/
import ModelOps.System.Joint

namespace ModelOps

open Relational Publication Labelled

/-! ## 1. A call with nothing beside it -/

/-- What a router that holds `config` answers. -/
def Gateway.live (s : RouterSettings) (config : RouterConfig) : Gateway where
  getObservedConfig := some config
  pushTrafficAllocation p :=
    match p.body with
    | .error _ => .error .routerUpdate
    | .ok c =>
        match putCheck s c config with
        | .ok () => .ok ()
        | .error e => if e.statusCode = 409 then .error .staleRevision else .error .routerUpdate

/-- The config it holds after the push. -/
def RouterConfig.receive (config : RouterConfig) (s : RouterSettings) (p : Push) : RouterConfig :=
  match p.body with
  | .error _ => config
  | .ok c =>
      match putConfig s c config with
      | .ok c' => c'
      | .error _ => config

/-- The tick, and the router's config after it. -/
def reconcileAlone (s : RouterSettings) (clock : Clock) (db : Db) (config : RouterConfig) :
    Tick × RouterConfig :=
  let tick := reconcileRouterState clock db (.live s config)
  match tick.sent with
  | none => (tick, config)
  | some p => (tick, config.receive s p)

/-- One tick after the other. -/
def ticks (s : RouterSettings) : List Clock → Db → RouterConfig → List Tick
  | [], _, _ => []
  | clock :: clocks, db, config =>
      let (tick, config) := reconcileAlone s clock db config
      tick :: ticks s clocks tick.db config

/-- The tick did nothing. -/
structure Tick.Silent (tick : Tick) (db : Db) : Prop where
  result_eq : tick.result = ⟨false, "already in sync", none, none, none⟩
  sent_eq : tick.sent = none
  db_eq : tick.db = db

theorem ticks_cons (s : RouterSettings) (clock : Clock) (clocks : List Clock) (db : Db)
    (config : RouterConfig) :
    ticks s (clock :: clocks) db config =
      (reconcileAlone s clock db config).1 ::
        ticks s clocks (reconcileAlone s clock db config).1.db
          (reconcileAlone s clock db config).2 := rfl

theorem alone_tick (s : RouterSettings) (clock : Clock) (db : Db) (config : RouterConfig) :
    (reconcileAlone s clock db config).1 = reconcileRouterState clock db (.live s config) := by
  unfold reconcileAlone
  dsimp only
  split <;> rfl

section Alone

variable {s : RouterSettings} {clock : Clock} {db : Db} {config : RouterConfig} {d : Deployment}
  {a : TrafficAllocation} {p : Push}

/-- A newer push with known versions is stored and answered. -/
theorem live_newer (hv : ValidTargets p.targets) (hk : ∀ t ∈ p.targets, s.Knows t.version)
    (hrev : config.revision < p.revision) :
    (Gateway.live s config).pushTrafficAllocation p = .ok () ∧
      config.receive s p = p.config hv := by
  have hput : putConfig s (p.config hv) config = .ok (p.config hv) := putConfig_newer hk hrev
  have hcheck : putCheck s (p.config hv) config = .ok () := by
    unfold putConfig at hput
    split at hput
    · cases hput
    · assumption
  refine ⟨?_, ?_⟩
  · show (match p.body with
      | .error _ => Except.error PushError.routerUpdate
      | .ok c =>
          match putCheck s c config with
          | .ok () => .ok ()
          | .error e => if e.statusCode = 409 then .error .staleRevision else .error .routerUpdate) = _
    rw [body_of_valid hv]
    simp only [hcheck]
  · unfold RouterConfig.receive
    rw [body_of_valid hv]
    simp only [hput]

/-- **In sync and not unreachable, a tick is silent.** -/
theorem alone_silent (s : RouterSettings) (clock : Clock) (hm : config.modelName ≠ "")
    (hd : db.getAuthoritativeAllocation config.modelName = some d)
    (ha : db.trafficAllocation? d.id = some a) (hsync : config.InSync d a)
    (hreach : db.wasUnreachable d.id = false) :
    (reconcileAlone s clock db config).1.Silent db ∧
      (reconcileAlone s clock db config).2 = config := by
  have h : reconcileRouterState clock db (.live s config) = _ :=
    reconcile_inSync rfl hm hd ha hsync
  rw [record_silent hreach] at h
  unfold reconcileAlone
  rw [h]
  exact ⟨⟨rfl, rfl, rfl⟩, rfl⟩

/-- So is every tick after it. -/
theorem ticks_silent (hm : config.modelName ≠ "")
    (hd : db.getAuthoritativeAllocation config.modelName = some d)
    (ha : db.trafficAllocation? d.id = some a) (hsync : config.InSync d a)
    (hreach : db.wasUnreachable d.id = false) :
    ∀ clocks, ∀ tick ∈ ticks s clocks db config, tick.Silent db
  | [], tick, h => by cases h
  | clock :: clocks, tick, h => by
      obtain ⟨hsilent, hconfig⟩ := alone_silent s clock hm hd ha hsync hreach
      have hrest : ticks s (clock :: clocks) db config =
          (reconcileAlone s clock db config).1 :: ticks s clocks db config := by
        rw [ticks_cons, hsilent.db_eq, hconfig]
      rw [hrest] at h
      rcases List.mem_cons.mp h with rfl | h
      · exact hsilent
      · exact ticks_silent hm hd ha hsync hreach clocks tick h

end Alone

/-! ## 2. Reachable routers -/

/-- **A reachable router holds the authoritative allocation, or an older revision.** -/
theorem synced_or_behind {log : Log} {sys : System} (hj : Joint log sys) {config : RouterConfig}
    {pending : List Push} (hr : sys.router = .running config pending) {d : Deployment}
    {a : TrafficAllocation}
    (hd : sys.db.getAuthoritativeAllocation config.modelName = some d)
    (ha : sys.db.trafficAllocation? d.id = some a) :
    (config.InSync d a ∧ config.targets = a.targets) ∨
    (¬config.InSync d a ∧ config.revision < a.revision) := by
  obtain ⟨hmem, hmodel⟩ := authoritative_mem hd
  obtain ⟨d0, a0, hd0, _, _, ha0, hrev, hlast⟩ := hj.routed.authoritative hmem
  rw [hmodel] at hd0 hrev hlast
  rw [hd] at hd0
  cases hd0
  rw [ha] at ha0
  cases ha0
  have hpub := hj.routed.published hmem ha
  have hpos : 1 ≤ a.revision := hpub.pos
  have hbehind : config.revision < a.revision → ¬config.InSync d a := by
    intro hlt hsync
    have := hsync.2
    omega
  rcases (hj.running hr).1 with hzero | ⟨p, hp, hb⟩
  · have hlt : config.revision < a.revision := by omega
    exact Or.inr ⟨hbehind hlt, hlt⟩
  · obtain ⟨hm, ht, hid, hn⟩ := validate_eq_ok hb
    have hentry := hp.entry
    rw [← hm] at hentry
    have hle := (entryAt_le hentry).2
    rw [← hj.routed.generation, ← hrev] at hle
    rcases Nat.lt_or_eq_of_le hle with hlt | heq
    · have hlt' : config.revision < a.revision := by
        rw [hn]
        exact_mod_cast hlt
      exact Or.inr ⟨hbehind hlt', hlt'⟩
    · left
      -- one number, one entry: it is the authoritative allocation itself
      have hentry' := hpub.entry
      rw [show (pushOfAllocation d a).modelName = config.modelName from hmodel,
        show (pushOfAllocation d a).revision = p.revision from heq.symm, hentry] at hentry'
      obtain ⟨hid', ht'⟩ := Prod.mk.inj (Option.some.inj hentry')
      refine ⟨⟨?_, ?_⟩, ?_⟩
      · rw [hid, hid']
        rfl
      · rw [hn, heq]
      · rw [ht, ht']
        rfl

/-- **One call leaves the router with the authoritative allocation of the model it reports**; of its
    reachability the deployment is told what the GET says. -/
theorem alone_corrects {s : RouterSettings} {log : Log} {sys : System} (hj : Joint log sys)
    {config : RouterConfig} {pending : List Push} (hr : sys.router = .running config pending)
    (hm : config.modelName ≠ "") {d : Deployment} {a : TrafficAllocation}
    (hd : sys.db.getAuthoritativeAllocation config.modelName = some d)
    (ha : sys.db.trafficAllocation? d.id = some a) (hk : ∀ t ∈ a.targets, s.Knows t.version)
    (clock : Clock) :
    (reconcileAlone s clock sys.db config).2.Carries (pushOfAllocation d a) ∧
      (reconcileAlone s clock sys.db config).1.db.wasUnreachable d.id =
        (recordRouterReachabilityChange (clock.event 0) sys.db d.id true).wasUnreachable d.id := by
  obtain ⟨hmem, hmodel⟩ := authoritative_mem hd
  have hpub := hj.routed.published hmem ha
  unfold reconcileAlone
  rcases synced_or_behind hj hr hd ha with ⟨hsync, htargets⟩ | ⟨hdrift, hlt⟩
  · rw [reconcile_inSync rfl hm hd ha hsync]
    exact ⟨⟨hmodel.symm, hsync.1, hsync.2, htargets⟩, rfl⟩
  · obtain ⟨hput, hreceive⟩ := live_newer (s := s) hpub.valid hk hlt
    rw [reconcile_drift rfl hm hd ha hdrift hput]
    refine ⟨?_, wasUnreachable_noted rfl⟩
    show (config.receive s (pushOfAllocation d a)).Carries _
    rw [hreceive]
    exact ⟨rfl, rfl, rfl, rfl⟩

/-! ## 3. Every reachable state -/

/-- **Reconciliation converges in one tick and is then silent.** In every reachable state in which the
    router serves, reports a model name with an authoritative allocation and knows its versions, one
    call leaves the router with that allocation and the tables but for events; and every further call
    answers "already in sync", sends nothing and writes nothing. -/
theorem reconcile_converges (s : RouterSettings) (ls : List Label) (sys : System)
    (hrun : run (System.next s) (System.start s) ls = some sys)
    (config : RouterConfig) (pending : List Push) (hr : sys.router = .running config pending)
    (hm : config.modelName ≠ "") (d : Deployment) (a : TrafficAllocation)
    (hd : sys.db.getAuthoritativeAllocation config.modelName = some d)
    (ha : sys.db.trafficAllocation? d.id = some a) (hk : ∀ t ∈ a.targets, s.Knows t.version)
    (clock : Clock) (now' : Time) (hc : clock.Within sys.now now') :
    (reconcileAlone s clock sys.db config).2.Carries (pushOfAllocation d a) ∧
    (reconcileAlone s clock sys.db config).1.db.getAuthoritativeAllocation config.modelName = some d ∧
    (reconcileAlone s clock sys.db config).1.db.trafficAllocation? d.id = some a ∧
    ∀ clocks, ∀ tick ∈ ticks s clocks (reconcileAlone s clock sys.db config).1.db
        (reconcileAlone s clock sys.db config).2,
      tick.Silent (reconcileAlone s clock sys.db config).1.db := by
  obtain ⟨log, hj⟩ := joint_run hrun
  obtain ⟨_, hmodel⟩ := authoritative_mem hd
  obtain ⟨hcarries, hquiet⟩ := alone_corrects hj hr hm hd ha hk clock
  -- the reading of the clock is newer than every event
  have hreach : (recordRouterReachabilityChange (clock.event 0) sys.db d.id true).wasUnreachable
      d.id = false := by
    refine record_reachable ?_
    intro e he
    exact Nat.lt_of_le_of_lt (hj.timely e he) (hc _ (clock_event_mem clock 0)).1
  obtain ⟨events, hevents, _⟩ := reconcile_grown clock sys.db (.live s config)
  have hsame : (reconcileAlone s clock sys.db config).2.modelName = config.modelName :=
    hcarries.modelName_eq.trans hmodel
  have hdesired : sys.db.getAuthoritativeAllocation
      (reconcileAlone s clock sys.db config).2.modelName = some d := by
    rw [hsame]
    exact hd
  rw [hreach, alone_tick, hevents] at hquiet
  rw [alone_tick, hevents]
  refine ⟨hcarries, hd, ha, ?_⟩
  exact ticks_silent (hsame ▸ hm) hdesired ha ⟨hcarries.deploymentId_eq, hcarries.revision_eq⟩ hquiet

/-! ## 4. A sample drift -/

/-- The first push of the sample rollout is stored, the second one is lost. -/
def sampleDrift (modelName : String) : List Label :=
  sampleRollout modelName ++
    [.arrive (samplePush modelName 1 (1 / 10)), .settle (samplePush modelName 1 (1 / 10))]

/-- What GET /router/config tells of the model and the revision. -/
def Process.reports : Process → Option (String × Int)
  | .running config _ => some (config.modelName, config.revision)
  | .starting _ => none

/-- The state after a run, from what can be evaluated of it. -/
theorem sample_state (ls : List Label) (m : String) (n : Int) (a : TrafficAllocation) (now : Time)
    (h : (run (System.next sampleRouter) (System.start sampleRouter) ls).map (fun sys =>
        (sys.router.reports, (sys.db.getAuthoritativeAllocation m).map Deployment.id,
          sys.db.trafficAllocation? a.deploymentId, sys.now)) =
      some (some (m, n), some a.deploymentId, some a, now)) :
    ∃ sys config pending d,
      run (System.next sampleRouter) (System.start sampleRouter) ls = some sys ∧
      sys.router = .running config pending ∧ config.modelName = m ∧ config.revision = n ∧
      sys.db.getAuthoritativeAllocation config.modelName = some d ∧
      sys.db.trafficAllocation? d.id = some a ∧ sys.now = now := by
  obtain ⟨sys, hrun, hs⟩ := Option.map_eq_some_iff.mp h
  simp only [Prod.mk.injEq] at hs
  obtain ⟨hreports, hd, ha, hnow⟩ := hs
  obtain ⟨d, hd, hid⟩ := Option.map_eq_some_iff.mp hd
  cases hr : sys.router with
  | starting f =>
      rw [hr] at hreports
      cases hreports
  | running config pending =>
      rw [hr] at hreports
      cases hreports
      exact ⟨sys, config, pending, d, hrun, hr, rfl, rfl, hd, hid ▸ ha, hnow⟩

/-- The router catches up in one call. -/
theorem reconcile_converges_sample :
    ∃ sys config pending,
      run (System.next sampleRouter) (System.start sampleRouter) (sampleDrift "fraud-model") =
        some sys ∧
      sys.router = .running config pending ∧ config.revision = 1 ∧
      (reconcileAlone sampleRouter (Env.after 4 "").clock sys.db config).2.revision = 2 ∧
      ∀ clocks, ∀ tick ∈ ticks sampleRouter clocks
          (reconcileAlone sampleRouter (Env.after 4 "").clock sys.db config).1.db
          (reconcileAlone sampleRouter (Env.after 4 "").clock sys.db config).2,
        tick.Silent (reconcileAlone sampleRouter (Env.after 4 "").clock sys.db config).1.db := by
  obtain ⟨sys, config, pending, d, hrun, hr, hm, hrev, hd, ha, hnow⟩ :=
    sample_state (sampleDrift "fraud-model") "fraud-model" 1 ⟨"d1", canarySplit "v1" "v2" (1 / 4), 2⟩ 4
      (by decide +kernel)
  have hc : (Env.after 4 "").clock.Within sys.now 6 := by
    rw [hnow]
    decide
  obtain ⟨hcarries, _, _, hsilent⟩ := reconcile_converges sampleRouter (sampleDrift "fraud-model")
    sys hrun config pending hr (by rw [hm]; decide) d _ hd ha (by decide +kernel) _ 6 hc
  exact ⟨sys, config, pending, hrun, hr, hrev, hcarries.revision_eq, hsilent⟩

/-- A router that reports an empty model name is left alone. -/
theorem reconcile_unnamed (s : RouterSettings) (clock : Clock) (db : Db) {config : RouterConfig}
    (hm : config.modelName = "") :
    reconcileAlone s clock db config =
      ({ result := ⟨false, "router reported no model_name", none, none, none⟩, db := db },
        config) := by
  unfold reconcileAlone reconcileRouterState Gateway.live
  simp only [hm, if_true]

/-- **A rollout of a model with the empty name stays drifted**: without the condition on the reported
    name the convergence fails. -/
theorem reconcile_unnamed_drift :
    ¬∀ (s : RouterSettings) (ls : List Label) (sys : System),
      run (System.next s) (System.start s) ls = some sys →
      ∀ (config : RouterConfig) (pending : List Push), sys.router = .running config pending →
      ∀ (d : Deployment) (a : TrafficAllocation),
        sys.db.getAuthoritativeAllocation config.modelName = some d →
        sys.db.trafficAllocation? d.id = some a → (∀ t ∈ a.targets, s.Knows t.version) →
      ∀ (clock : Clock) (now' : Time), clock.Within sys.now now' →
        (reconcileAlone s clock sys.db config).2.Carries (pushOfAllocation d a) := by
  intro h
  obtain ⟨sys, config, pending, d, hrun, hr, hm, hrev, hd, ha, hnow⟩ :=
    sample_state (sampleDrift "") "" 1 ⟨"d1", canarySplit "v1" "v2" (1 / 4), 2⟩ 4
      (by decide +kernel)
  have hc : (Env.after 4 "").clock.Within sys.now 6 := by
    rw [hnow]
    decide
  have hcarries := h sampleRouter _ sys hrun config pending hr d _ hd ha (by decide +kernel) _ 6 hc
  rw [reconcile_unnamed _ _ _ hm] at hcarries
  have hstill : config.revision = (2 : Nat) := hcarries.revision_eq
  rw [hrev] at hstill
  omega

/-! ## 5. Another model's push -/

/-- A push of its own model leaves the router with that model. -/
theorem receive_modelName {s : RouterSettings} {config : RouterConfig} {p : Push}
    (hp : p.modelName = config.modelName) : (config.receive s p).modelName = config.modelName := by
  unfold RouterConfig.receive
  split
  · rfl
  · rename_i c hb
    have hc : c.modelName = config.modelName := (carries_of_body hb).modelName_eq.trans hp
    unfold putConfig
    cases putCheck s c config with
    | ok u => exact hc
    | error e => rfl

/-- What a tick sends is an allocation of the model the router reported. -/
theorem live_sent {s : RouterSettings} {clock : Clock} {db : Db} {config : RouterConfig} {p : Push}
    (h : (reconcileRouterState clock db (.live s config)).sent = some p) :
    p.modelName = config.modelName := by
  unfold reconcileRouterState Gateway.live at h
  dsimp only at h
  split at h
  · cases h
  · split at h
    · cases h
    · rename_i d hd
      split at h
      · cases h
      · split at h
        · cases h
        · cases h
          exact (authoritative_mem hd).2

/-- After a call the router reports the model it reported before. -/
theorem alone_modelName {s : RouterSettings} {clock : Clock} {db : Db} {config : RouterConfig} :
    (reconcileAlone s clock db config).2.modelName = config.modelName := by
  unfold reconcileAlone
  dsimp only
  split
  · rfl
  · rename_i p hsent
    exact receive_modelName (live_sent hsent)

/-- **Which model the router is given back to**: in every reachable state, of a model with a rollout in
    flight or frozen, one call leaves the router with the rollout's allocation exactly if the router
    already reports that model (and, should its name be empty, that allocation). -/
theorem handover_iff (s : RouterSettings) (ls : List Label) (sys : System)
    (hrun : run (System.next s) (System.start s) ls = some sys)
    (config : RouterConfig) (pending : List Push) (hr : sys.router = .running config pending)
    (d : Deployment) (hd : d ∈ sys.db.deployments) (ho : d.Open) (a : TrafficAllocation)
    (ha : sys.db.trafficAllocation? d.id = some a) (hk : ∀ t ∈ a.targets, s.Knows t.version)
    (clock : Clock) :
    (reconcileAlone s clock sys.db config).2.Carries (pushOfAllocation d a) ↔
      config.modelName = d.modelName ∧
        (d.modelName ≠ "" ∨ config.Carries (pushOfAllocation d a)) := by
  obtain ⟨log, hj⟩ := joint_run hrun
  have hdesired := authoritative_open hj.routed.schema hj.routed.shaped hd ho
  constructor
  · intro h
    have hmodel : config.modelName = d.modelName := alone_modelName.symm.trans h.modelName_eq
    refine ⟨hmodel, ?_⟩
    by_cases hm : d.modelName = ""
    · right
      rw [reconcile_unnamed s clock sys.db (hmodel.trans hm)] at h
      exact h
    · exact Or.inl hm
  · rintro ⟨hmodel, hm | hcarries⟩
    · rw [← hmodel] at hdesired
      exact (alone_corrects hj hr (hmodel ▸ hm) hdesired ha hk clock).1
    · by_cases hm : config.modelName = ""
      · rw [reconcile_unnamed s clock sys.db hm]
        exact hcarries
      · rw [← hmodel] at hdesired
        exact (alone_corrects hj hr hm hdesired ha hk clock).1

/-- The models with a rollout in flight or frozen. -/
def Db.openModels (db : Db) : List String :=
  (db.deployments.rows.filter fun d => !d.status.terminal).map Deployment.modelName

/-- What a state has of a rollout: the model the router reports, the rollout's model, and the rollouts
    in flight or frozen. -/
theorem sample_rollout (ls : List Label) (m m' : String) (a : TrafficAllocation)
    (h : (run (System.next sampleRouter) (System.start sampleRouter) ls).map (fun sys =>
        (sys.router.reports.map Prod.fst,
          (sys.db.deployment? a.deploymentId).map (fun d => (d.modelName, d.status)),
          sys.db.trafficAllocation? a.deploymentId, sys.db.openModels)) =
      some (some m, some (m', .canaryRunning), some a, [m'])) :
    ∃ sys config pending d,
      run (System.next sampleRouter) (System.start sampleRouter) ls = some sys ∧
      sys.router = .running config pending ∧ config.modelName = m ∧ d ∈ sys.db.deployments ∧
      d.modelName = m' ∧ d.Open ∧ sys.db.trafficAllocation? d.id = some a ∧
      ∀ d' ∈ sys.db.deployments, d'.Open → d'.modelName = d.modelName := by
  obtain ⟨sys, hrun, hs⟩ := Option.map_eq_some_iff.mp h
  simp only [Prod.mk.injEq] at hs
  obtain ⟨hreports, hd, ha, hopen⟩ := hs
  obtain ⟨d, hd, hrow⟩ := Option.map_eq_some_iff.mp hd
  obtain ⟨hmodel, hstatus⟩ := Prod.mk.inj hrow
  obtain ⟨hmem, hid⟩ := deployment?_eq_some.mp hd
  have ho : d.Open := by
    rw [Deployment.Open, hstatus]
    rfl
  cases hr : sys.router with
  | starting f =>
      rw [hr] at hreports
      cases hreports
  | running config pending =>
      rw [hr] at hreports
      cases hreports
      refine ⟨sys, config, pending, d, hrun, hr, rfl, hmem, hmodel, ho, hid ▸ ha, ?_⟩
      intro d' hd' ho'
      have hmem' : d'.modelName ∈ sys.db.openModels := by
        refine List.mem_map_of_mem (List.mem_filter.mpr ⟨hd', ?_⟩)
        rw [ho']
        rfl
      rw [hopen, List.mem_singleton] at hmem'
      exact hmem'.trans hmodel.symm

/-- A rollout's first push is lost: the router, which booted with its model, gets it from one call. -/
theorem handover_iff_sample :
    ∃ sys config, run (System.next sampleRouter) (System.start sampleRouter)
        (sampleRollout "fraud-model") = some sys ∧
      (reconcileAlone sampleRouter (Env.after 4 "").clock sys.db config).2.revision = 2 := by
  obtain ⟨sys, config, pending, d, hrun, hr, hm, hd, hmodel, ho, ha, _⟩ :=
    sample_rollout (sampleRollout "fraud-model") "fraud-model" "fraud-model"
      ⟨"d1", canarySplit "v1" "v2" (1 / 4), 2⟩ (by decide +kernel)
  have hcarries := (handover_iff sampleRouter (sampleRollout "fraud-model") sys hrun config pending
    hr d hd ho _ ha (by decide +kernel) (Env.after 4 "").clock).mpr
      ⟨hm.trans hmodel.symm, Or.inl (by rw [hmodel]; decide)⟩
  exact ⟨sys, config, hrun, hcarries.revision_eq⟩

/-- A rollout of the router's own model, whose push arrives, and a benchmark of another model beside
    it: created, promoted, both pushes delivered. -/
def sampleBenchmark : List Label :=
  let bench (n : Nat) (targets : List TargetWeight) : Push := ⟨"benchmark-model", "d2", n, targets⟩
  [.request (Env.after 0 "d1") (.create (sampleCreate "fraud-model") none) 2,
    .arrive (samplePush "fraud-model" 1 (1 / 10)), .settle (samplePush "fraud-model" 1 (1 / 10)),
    .request (Env.after 2 "d2") (.create (sampleCreate "benchmark-model") none) 4,
    .arrive (bench 1 (canarySplit "v1" "v2" (1 / 10))),
    .settle (bench 1 (canarySplit "v1" "v2" (1 / 10))),
    .request (Env.after 4 "d3") (.promote "d2" .manual) 6,
    .arrive (bench 2 [⟨"v2", 1⟩]), .settle (bench 2 [⟨"v2", 1⟩])]

/-- **The finished benchmark keeps the router**: no call gives it back to the one rollout in flight. -/
theorem handover_missed :
    ¬∀ (s : RouterSettings) (ls : List Label) (sys : System),
      run (System.next s) (System.start s) ls = some sys →
      ∀ (config : RouterConfig) (pending : List Push), sys.router = .running config pending →
      ∀ d ∈ sys.db.deployments, d.Open →
        (∀ d' ∈ sys.db.deployments, d'.Open → d'.modelName = d.modelName) →
      ∀ (a : TrafficAllocation), sys.db.trafficAllocation? d.id = some a →
        (∀ t ∈ a.targets, s.Knows t.version) →
      ∀ clock : Clock,
        (reconcileAlone s clock sys.db config).2.Carries (pushOfAllocation d a) := by
  intro h
  obtain ⟨sys, config, pending, d, hrun, hr, hm, hd, hmodel, ho, ha, honly⟩ :=
    sample_rollout sampleBenchmark "benchmark-model" "fraud-model"
      ⟨"d1", canarySplit "v1" "v2" (1 / 10), 1⟩ (by decide +kernel)
  have hcarries := h sampleRouter _ sys hrun config pending hr d hd ho honly _ ha (by decide +kernel)
    (Env.after 6 "").clock
  have hstill := alone_modelName.symm.trans hcarries.modelName_eq
  rw [hm, show (pushOfAllocation d _).modelName = d.modelName from rfl, hmodel] at hstill
  exact absurd hstill (by decide)

end ModelOps
