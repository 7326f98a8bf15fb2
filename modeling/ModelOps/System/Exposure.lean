/-
  File:      ModelOps/System/Exposure.lean
  Subject:   Who is exposed to a canary, and what its metrics are put down to.

  * `Db.drawnVersion` -- the version a request with a given draw goes to, once the allocation of a
    deployment has reached the router;
  * **`ramp_keeps`** -- a request that would have gone to the canary keeps going to it, until the rollout
    is rolled back: every change of the split moves requests in one direction only;
  * `Traffic.next` -- the joint system with requests that read the store, are answered some time later
    under what they read, and whose metrics arrive later still, in any order, or never;
  * `SplitsServed` -- every split on its way was committed for its deployment; `splits_step` keeps it;
  * **`metrics_attributed`** -- so every metric names a version of its deployment that had a share.
-/
import ModelOps.Router.Counting
import ModelOps.Router.Draw
import ModelOps.System.Rollouts

namespace ModelOps

open Relational Publication

/-! ## 1. The ramp -/

/-- Where a request goes under the deployment's allocation. -/
def Db.drawnVersion (db : Db) (id : String) (draw : ℚ) : Option String := do
  let d ← db.deployment? id
  let a ← db.trafficAllocation? id
  let config ← (pushOfAllocation d a).body.toOption
  let target ← chooseTarget config draw
  pure target.version

section Ramp

variable {db : Db} {d : Deployment} {a : TrafficAllocation} {draw : ℚ}

theorem drawnVersion_eq (hd : db.deployment? d.id = some d) (ha : db.trafficAllocation? d.id = some a)
    (hv : ValidTargets a.targets) :
    db.drawnVersion d.id draw =
      (chooseTarget ((pushOfAllocation d a).config hv) draw).map TargetWeight.version := by
  have hbody : (pushOfAllocation d a).body = .ok ((pushOfAllocation d a).config hv) := body_of_valid hv
  unfold Db.drawnVersion
  rw [hd, ha]
  simp only [Option.bind_eq_bind, Option.bind_some, hbody, Except.toOption]
  cases chooseTarget ((pushOfAllocation d a).config hv) draw <;> rfl

/-- While a rollout is open the draws from `1 - share` on go to the canary. -/
theorem drawn_open (hd : db.deployment? d.id = some d) (hsh : Shape db d) (ho : d.Open) (draw : ℚ) :
    db.drawnVersion d.id draw =
      some (if draw < 1 - db.canaryWeight d then d.stableVersion else d.canaryVersion) := by
  obtain ⟨a, ha, hf⟩ := hsh.split
  have hv := hf.valid hsh.versions_ne
  obtain ⟨w, ht⟩ : ∃ w, a.targets = canarySplit d.stableVersion d.canaryVersion w := by
    rcases hsh.running_or_frozen ho with hs | hs
    · simp only [Fits, hs] at hf
      obtain ⟨w, _, _, ht⟩ := hf
      exact ⟨w, ht⟩
    · simp only [Fits, hs] at hf
      obtain ⟨w, _, _, ht⟩ := hf
      exact ⟨w, ht⟩
  have hcompl := Decimal.round_compl (d := 6) (by omega) w
  have hshare := canaryWeight_of_split ha ht hsh.versions_ne
  rw [drawnVersion_eq hd ha hv, hshare]
  have htargets : ((pushOfAllocation d a).config hv).targets =
      canarySplit d.stableVersion d.canaryVersion w := ht
  unfold chooseTarget
  rw [htargets]
  simp only [canarySplit, pick, List.map_cons, List.map_nil, List.sum_cons, List.sum_nil, add_zero,
    zero_add, hcompl, mul_one, Option.map_some]
  rw [show Decimal.round 6 (1 - w) = 1 - Decimal.round 6 w by linarith]
  split <;> rfl

/-- Of a settled rollout, every draw goes to the one version that is left. -/
theorem drawn_settled (hd : db.deployment? d.id = some d) (hsh : Shape db d)
    (hs : d.status = .promoted) (draw : ℚ) : db.drawnVersion d.id draw = some d.canaryVersion := by
  obtain ⟨a, ha, hf⟩ := hsh.split
  have hv := hf.valid hsh.versions_ne
  simp only [Fits, hs] at hf
  rw [drawnVersion_eq hd ha hv]
  have htargets : ((pushOfAllocation d a).config hv).targets = [⟨d.canaryVersion, 1⟩] := hf
  unfold chooseTarget
  rw [htargets]
  rfl

end Ramp

/-- **The ramp moves requests to the canary only**: whatever is called after a history, a draw that goes
    to the canary under a deployment's split goes to it under every later split, unless the deployment
    has been rolled back. -/
theorem ramp_keeps (history later : List ApiCall) (d' : Deployment) (draw : ℚ)
    (hd' : (Tables.empty.after (history ++ later)).db.deployment? d'.id = some d')
    (hs : d'.status ≠ .rolledBack)
    (hdrawn : (Tables.empty.after history).db.drawnVersion d'.id draw = some d'.canaryVersion) :
    (Tables.empty.after (history ++ later)).db.drawnVersion d'.id draw = some d'.canaryVersion := by
  have hbefore := (reached_shaped history).2
  obtain ⟨d, hd⟩ : ∃ d, (Tables.empty.after history).db.deployment? d'.id = some d := by
    obtain ⟨d, hd, _⟩ := Option.bind_eq_some_iff.mp hdrawn
    exact ⟨d, hd⟩
  obtain ⟨hid, hd⟩ := found hd
  -- while the rollout is open, it was, and its share has not decreased
  let Kept (db : Db) : Prop := Shaped db ∧ ∃ x, db.deployment? d.id = some x ∧
    x.canaryVersion = d.canaryVersion ∧
    (x.Open → d.Open ∧ (Tables.empty.after history).db.canaryWeight d ≤ db.canaryWeight x)
  have hkept : Kept (Tables.empty.after (history ++ later)).db := by
    rw [after_append]
    refine after_inv_rows (P := Kept) ?_ ?_ later ⟨hbefore, d, hd, rfl, fun ho => ⟨ho, le_refl _⟩⟩
    · rintro env db req ⟨hshaped, x, hx, hcanary, hshare⟩
      obtain ⟨x', hx', hv', hmono⟩ := weight_exec env req hshaped hx
      refine ⟨shaped_exec env req hshaped, x', hx', hv'.trans hcanary, ?_⟩
      intro ho'
      obtain ⟨ho, hle⟩ := hmono ho'
      obtain ⟨ho0, hle0⟩ := hshare ho
      exact ⟨ho0, hle0.trans hle⟩
    · rintro db events ⟨hshaped, hx⟩
      refine ⟨?_, hx⟩
      intro x hx
      obtain ⟨hv, hsplit, hc, hp⟩ := hshaped x hx
      exact ⟨hv, hsplit, hc, hp⟩
  obtain ⟨hnow, x, hx, hcanary, hshare⟩ := hkept
  rw [← hid, hd'] at hx
  cases hx
  have hshape := hnow d' (deployment?_eq_some.mp hd').1
  have hopen : d'.Open →
      (Tables.empty.after (history ++ later)).db.drawnVersion d'.id draw = some d'.canaryVersion := by
    intro ho'
    obtain ⟨ho, hle⟩ := hshare ho'
    have hshape0 := hbefore d (deployment?_eq_some.mp hd).1
    rw [hid, drawn_open hd hshape0 ho, hcanary, Option.some.injEq] at hdrawn
    have hcan : ¬draw < 1 - (Tables.empty.after history).db.canaryWeight d := by
      intro hlt
      rw [if_pos hlt] at hdrawn
      exact hshape0.versions_ne hdrawn
    rw [drawn_open hd' hshape ho', if_neg]
    linarith
  rcases hshape.status_cases with hs' | hs' | hs' | hs'
  · exact hopen (by rw [Deployment.Open, hs']; rfl)
  · exact hopen (by rw [Deployment.Open, hs']; rfl)
  · exact drawn_settled hd' hshape hs' draw
  · exact absurd hs' hs

/-- A draw of 0.95 goes to the canary from the first stage on, and still does when it is promoted. -/
theorem ramp_keeps_sample :
    (Tables.empty.after sampleHistory).db.drawnVersion "d1" (19 / 20) = some "v2" := by
  have hsome : ((Tables.empty.after sampleHistory).db.deployment? "d1").isSome = true := by
    decide +kernel
  obtain ⟨d', hd'⟩ := Option.isSome_iff_exists.mp hsome
  have hrow : ((Tables.empty.after sampleHistory).db.deployment? "d1").map
      (fun d => (d.id, d.canaryVersion, d.status)) = some ("d1", "v2", .promoted) := by decide +kernel
  rw [hd'] at hrow
  simp only [Option.map_some, Option.some.injEq, Prod.mk.injEq] at hrow
  obtain ⟨hid, hcanary, hstatus⟩ := hrow
  have hkeeps := ramp_keeps (sampleHistory.take 1) (sampleHistory.drop 1) d' (19 / 20)
    (by rw [hid]; exact hd') (by rw [hstatus]; decide) (by rw [hid, hcanary]; decide +kernel)
  rw [hid, hcanary] at hkeeps
  exact hkeeps

/-! ## 2. Requests and their metrics -/

/-- The control plane, the router, the requests it serves and the metrics on their way back. -/
structure Traffic where
  sys : System
  /-- what each open request has read of the store -/
  inflight : List RouterConfig
  /-- the metrics that were sent and have not arrived, each with the deployment of its URL -/
  posts : List (String × MetricIn)
  metrics : List MetricRow

inductive TrafficLabel where
  | system (l : Label)
  /-- POST /router/predict reads the store -/
  | enter
  /-- a request is answered, and its metric sent -/
  | answer (v : Visit) (latencyMs : {q : ℚ // 0 ≤ q})
  /-- one of the metrics arrives; one that never does is lost -/
  | post (i : Nat) (now : Time)

namespace Traffic

def start (s : RouterSettings) : Traffic := ⟨System.start s, [], [], []⟩

/-- What an answer puts on the way. -/
def sends (s : RouterSettings) (v : Visit) (latencyMs : {q : ℚ // 0 ≤ q}) :
    List (String × MetricIn) :=
  (routePredict s v).2.filterMap fun m => (m.payload latencyMs).map fun p => (m.deploymentId, p)

def next (s : RouterSettings) (t : Traffic) : TrafficLabel → Option Traffic
  | .system l =>
      (System.next s t.sys l).map fun sys =>
        -- a restart ends the requests with the process
        { t with sys := sys, inflight := if l matches .restart then [] else t.inflight }
  | .enter =>
      match t.sys.router with
      | .starting _ => none
      | .running config _ => some { t with inflight := config :: t.inflight }
  | .answer v latencyMs =>
      if v.config ∈ t.inflight ∧ Drawn v.draw then
        some { t with
          inflight := t.inflight.erase v.config
          posts := t.posts ++ sends s v latencyMs }
      else none
  | .post i now =>
      match t.posts[i]? with
      | none => none
      | some (id, payload) =>
          some { t with
            posts := t.posts.eraseIdx i
            metrics :=
              -- an unknown deployment is a 404, a known `prediction_id` an IntegrityError
              if (t.sys.db.deployment? id).isSome then
                (recordMetric now id payload t.metrics).getD t.metrics
              else t.metrics }

end Traffic

/-! ## 3. What a split on its way belongs to -/

/-- `targets` were committed for the deployment, and name no version but its own two. -/
def Served (sys : System) (id : String) (targets : List TargetWeight) : Prop :=
  ∃ d, sys.db.deployment? id = some d ∧
    (∀ t ∈ targets, t.version = d.stableVersion ∨ t.version = d.canaryVersion) ∧
    ∃ db ∈ sys.history, db.targetsOf id = some targets

/-- A config that names a deployment holds one of its splits. -/
def ServedConfig (sys : System) (c : RouterConfig) : Prop :=
  ∀ id, c.deploymentId = some id → Served sys id c.targets

/-- Every split on its way to the router or held by it is one that was committed. -/
structure SplitsServed (sys : System) : Prop where
  current : sys.db ∈ sys.history
  sent : ∀ p ∈ sys.sent, Served sys p.deploymentId p.targets
  router : match sys.router with
    | .starting f => ∀ c g, f = some (c, g) → ServedConfig sys c
    | .running c _ => ServedConfig sys c

section Splits

variable {s : RouterSettings} {sys sys' : System} {l : Label} {log : Log} {id : String}
  {targets : List TargetWeight} {c : RouterConfig} {d : Deployment} {a : TrafficAllocation}

/-- A deployment keeps its versions, and what was committed stays on record. -/
theorem served_step (hn : Step s sys l sys') (h : Served sys id targets) : Served sys' id targets := by
  obtain ⟨d, hd, hversions, db, hdb, htargets⟩ := h
  cases hn with
  | @request env req now' hc =>
      obtain ⟨rfl, hd⟩ := found hd
      rcases exec_turns env req hd with ⟨hd', _⟩ | ⟨row, split, events, hturn, hid, hx⟩
      · exact ⟨d, hd', hversions, db, List.mem_cons_of_mem _ hdb, htargets⟩
      · refine ⟨row, ?_, ?_, db, List.mem_cons_of_mem _ hdb, htargets⟩
        · show (req.exec env sys.db).2.deployment? d.id = some row
          rw [hx, applied_deployment?, if_pos hid.symm]
        · rw [hturn.amends.stableVersion_eq, hturn.amends.canaryVersion_eq]
          exact hversions
  | note hle ht => exact ⟨d, hd, hversions, db, List.mem_cons_of_mem _ hdb, htargets⟩
  | read | checked | refused | settle | restart | fetch | bootstrap | synced =>
      exact ⟨d, hd, hversions, db, hdb, htargets⟩

theorem servedConfig_step (hn : Step s sys l sys') (h : ServedConfig sys c) : ServedConfig sys' c :=
  fun id hid => served_step hn (h id hid)

/-- What a deployment holds now is served. -/
theorem served_now (sys : System) (hsh : Shaped sys.db) (hcur : sys.db ∈ sys.history)
    (hd : sys.db.deployment? d.id = some d) (ha : sys.db.trafficAllocation? d.id = some a) :
    Served sys d.id a.targets := by
  obtain ⟨a', ha', hf⟩ := (hsh d (deployment?_eq_some.mp hd).1).split
  rw [ha] at ha'
  cases ha'
  refine ⟨d, hd, hf.versions, sys.db, hcur, ?_⟩
  unfold Db.targetsOf
  rw [ha]
  rfl

/-- What the startup sync fetches is the authoritative deployment's split. -/
theorem fetched_split {db : Db} {m : String} (h : fetchControlPlaneAllocation db m = some c) :
    ∃ d a, db.deployment? d.id = some d ∧ db.trafficAllocation? d.id = some a ∧
      c.deploymentId = some d.id ∧ c.targets = a.targets := by
  unfold fetchControlPlaneAllocation getRouterConfig at h
  cases hauth : db.getAuthoritativeAllocation m with
  | none =>
      rw [hauth] at h
      cases h
  | some d =>
      cases ha : db.trafficAllocation? d.id with
      | none =>
          simp only [hauth, ha] at h
          cases h
      | some a =>
          simp only [hauth, ha] at h
          cases hv : RouterConfig.validate m a.targets (some d.id) with
          | error e =>
              rw [hv] at h
              cases h
          | ok c' =>
              rw [hv] at h
              cases h
              obtain ⟨_, ht, hid, _⟩ := validate_eq_ok hv
              exact ⟨d, a, Table.mem_iff_get?.mp (authoritative_mem hauth).1, ha, hid, ht⟩

/-- **Every step keeps the splits served.** -/
theorem splits_step (hj : Joint log sys) (h : SplitsServed sys) (hn : Step s sys l sys') :
    SplitsServed sys' := by
  have hsent : ∀ p ∈ sys.sent, Served sys' p.deploymentId p.targets :=
    fun p hp => served_step hn (h.sent p hp)
  have hcfg : ∀ {c}, ServedConfig sys c → ServedConfig sys' c := servedConfig_step hn
  have hrouter := h.router
  cases hn with
  | @request env req now' hc =>
      refine ⟨List.mem_cons_self, ?_, ?_⟩
      · intro p hp
        rcases List.mem_append.mp hp with hp | hp
        · exact hsent p hp
        · obtain ⟨d, hd, a, ha, rfl⟩ := pushes_of_exec hp
          exact served_now ((sys.commit _ now').send _) (shaped_exec env req hj.routed.shaped)
            List.mem_cons_self (Table.mem_iff_get?.mp hd) ha
      · show match sys.router with | .starting f => _ | .running c _ => _
        split at hrouter
        · exact fun c g hf => hcfg (hrouter c g hf)
        · exact hcfg hrouter
  | @note events now' hle ht =>
      refine ⟨List.mem_cons_self, hsent, ?_⟩
      show match sys.router with | .starting f => _ | .running c _ => _
      split at hrouter
      · exact fun c g hf => hcfg (hrouter c g hf)
      · exact hcfg hrouter
  | @read id d a hd ha =>
      refine ⟨h.current, ?_, ?_⟩
      · intro p hp
        rcases List.mem_append.mp hp with hp | hp
        · exact hsent p hp
        · rw [List.mem_singleton.mp hp]
          obtain ⟨rfl, hd⟩ := found hd
          exact served_now (sys.send _) hj.routed.shaped h.current hd ha
      · exact hrouter
  | checked hr hp hb hk hs =>
      rw [hr] at hrouter
      exact ⟨h.current, hsent, hrouter⟩
  | refused hr hp hno => exact ⟨h.current, hsent, hrouter⟩
  | @settle p config pending c hr hb hp =>
      refine ⟨h.current, hsent, ?_⟩
      intro id hid
      have hc := carries_of_body hb
      have hs := hsent p ((hj.running hr).2 p hp)
      rw [hc.deploymentId_eq] at hid
      rw [hc.targets_eq, ← Option.some.inj hid]
      exact hs
  | restart =>
      refine ⟨h.current, hsent, ?_⟩
      intro c g hf
      cases hf
  | @fetch f c hr hc =>
      refine ⟨h.current, hsent, ?_⟩
      intro c' g hf
      cases hf
      intro id hid
      obtain ⟨d, a, hd, ha, hdep, ht⟩ := fetched_split hc
      rw [hdep] at hid
      rw [ht, ← Option.some.inj hid]
      exact served_now sys hj.routed.shaped h.current hd ha
  | bootstrap hr =>
      refine ⟨h.current, hsent, ?_⟩
      intro id hid
      cases hid
  | @synced c g hr =>
      rw [hr] at hrouter
      exact ⟨h.current, hsent, hrouter c g rfl⟩

theorem splits_start (s : RouterSettings) : SplitsServed (System.start s) where
  current := List.mem_singleton.mpr rfl
  sent p hp := (List.not_mem_nil hp).elim
  router := by
    intro id hid
    cases hid

end Splits

/-! ## 4. Every run -/

/-- The version had a share of some split that was committed for the deployment. -/
def Drew (sys : System) (id version : String) : Prop :=
  ∃ targets, Served sys id targets ∧ ∃ t ∈ targets, t.version = version ∧ 0 < t.weight

structure TrafficInv (t : Traffic) : Prop where
  joint : ∃ log, Joint log t.sys
  splits : SplitsServed t.sys
  inflight : ∀ c ∈ t.inflight, ServedConfig t.sys c
  posts : ∀ e ∈ t.posts, Drew t.sys e.1 e.2.modelVersion
  metrics : ∀ m ∈ t.metrics, Drew t.sys m.deploymentId m.modelVersion

section Runs

variable {s : RouterSettings} {t t' : Traffic} {l : TrafficLabel} {sys : System} {v : Visit}
  {m : Metric} {latencyMs : {q : ℚ // 0 ≤ q}}

/-- A metric names the config's deployment and the version that was drawn. -/
theorem route_metric (h : m ∈ (routePredict s v).2) :
    ∃ t ∈ v.config.targets, chooseTarget v.config v.draw = some t ∧ m.modelVersion = t.version ∧
      v.config.deploymentId = some m.deploymentId := by
  rcases route_cases s v with hnone | ⟨t, n, body, value, ht, _, _, _, _, hroute⟩
  · rw [hnone] at h
    cases h
  · obtain ⟨t', hmem, ht'⟩ := chooseTarget_some v.config v.draw
    rw [ht] at ht'
    cases ht'
    rw [hroute] at h
    simp only [metricsOf, emitMetric] at h
    split at h
    · cases h
    · rename_i id hid
      split at h
      · cases h
      · split at h
        · rw [List.mem_singleton.mp h]
          exact ⟨t, hmem, ht, rfl, hid⟩
        · cases h

theorem payload_version {p : MetricIn} (h : m.payload latencyMs = some p) :
    p.modelVersion = m.modelVersion := by
  unfold Metric.payload at h
  dsimp only at h
  split at h
  · cases h
    rfl
  · obtain ⟨_, _, rfl⟩ := Option.map_eq_some_iff.mp h
    rfl

/-- What an answer sends tells of a version that had a share. -/
theorem sends_drew (hc : ServedConfig sys v.config) (hdraw : Drawn v.draw) :
    ∀ e ∈ Traffic.sends s v latencyMs, Drew sys e.1 e.2.modelVersion := by
  intro e he
  obtain ⟨m, hm, he⟩ := List.mem_filterMap.mp he
  obtain ⟨p, hp, rfl⟩ := Option.map_eq_some_iff.mp he
  obtain ⟨t, hmem, ht, hversion, hid⟩ := route_metric hm
  refine ⟨v.config.targets, hc _ hid, t, hmem, ?_, drawn_weight hdraw ht⟩
  rw [payload_version hp, hversion]

theorem traffic_step (hi : TrafficInv t) (hn : Traffic.next s t l = some t') : TrafficInv t' := by
  obtain ⟨⟨log, hj⟩, hsplits, hinflight, hposts, hmetrics⟩ := hi
  cases l with
  | system l =>
      obtain ⟨sys', hsys, rfl⟩ := Option.map_eq_some_iff.mp hn
      have hstep := step_of_next hsys
      obtain ⟨log', hj', _⟩ := joint_step hj hstep
      have hdrew : ∀ {id version}, Drew t.sys id version → Drew sys' id version :=
        fun ⟨targets, hserved, ht⟩ => ⟨targets, served_step hstep hserved, ht⟩
      refine ⟨⟨log', hj'⟩, splits_step hj hsplits hstep, ?_, fun e he => hdrew (hposts e he),
        fun m hm => hdrew (hmetrics m hm)⟩
      intro c hc
      dsimp only at hc
      split at hc
      · cases hc
      · exact servedConfig_step hstep (hinflight c hc)
  | enter =>
      simp only [Traffic.next] at hn
      split at hn
      · cases hn
      · rename_i config pending hr
        cases hn
        refine ⟨⟨log, hj⟩, hsplits, ?_, hposts, hmetrics⟩
        intro c hc
        rcases List.mem_cons.mp hc with rfl | hc
        · have hrouter := hsplits.router
          rw [hr] at hrouter
          exact hrouter
        · exact hinflight c hc
  | answer v latencyMs =>
      simp only [Traffic.next] at hn
      split at hn
      · rename_i hv
        cases hn
        refine ⟨⟨log, hj⟩, hsplits, fun c hc => hinflight c (List.mem_of_mem_erase hc), ?_, hmetrics⟩
        intro e he
        rcases List.mem_append.mp he with he | he
        · exact hposts e he
        · exact sends_drew (hinflight _ hv.1) hv.2 e he
      · cases hn
  | post i now =>
      simp only [Traffic.next] at hn
      split at hn
      · cases hn
      · rename_i id payload hpost
        cases hn
        refine ⟨⟨log, hj⟩, hsplits, hinflight, fun e he => hposts e (List.mem_of_mem_eraseIdx he), ?_⟩
        intro m hm
        dsimp only at hm
        split at hm
        · unfold recordMetric at hm
          split at hm
          · exact hmetrics m hm
          · rcases List.mem_append.mp hm with hm | hm
            · exact hmetrics m hm
            · rw [List.mem_singleton.mp hm]
              exact hposts (id, payload) (List.mem_of_getElem? hpost)
        · exact hmetrics m hm

theorem traffic_run {ls : List TrafficLabel}
    (hr : Labelled.run (Traffic.next s) (Traffic.start s) ls = some t) : TrafficInv t := by
  refine Labelled.run_inv (fun _ _ _ => traffic_step) ?_ hr
  refine ⟨⟨_, joint_start s⟩, splits_start s, ?_, ?_, ?_⟩
  · exact fun c hc => (List.not_mem_nil hc).elim
  · exact fun e he => (List.not_mem_nil he).elim
  · exact fun m hm => (List.not_mem_nil hm).elim

/-- Two disjoint kinds that cover a third. -/
theorem countP_split {α : Type} {p q r : α → Bool} {as : List α}
    (h : ∀ a ∈ as, (r a).toNat = (p a).toNat + (q a).toNat) :
    as.countP p + as.countP q = as.countP r := by
  induction as with
  | nil => rfl
  | cons a as ih =>
      have hrest := ih fun a' ha' => h a' (List.mem_cons_of_mem a ha')
      have hhead := h a List.mem_cons_self
      rw [List.countP_cons, List.countP_cons, List.countP_cons]
      cases hp : p a <;> cases hq : q a <;> cases hr : r a <;> simp_all <;> omega

end Runs

/-- **A metric is put down to the version that was drawn**: in every run of control plane, network and
    router, with requests and their metrics between their steps, every metric on record names a
    deployment that was committed, and one of its two versions, which had a share of a split committed
    for it. So the samples of stable and canary, over any window, are all the deployment's samples. -/
theorem metrics_attributed (s : RouterSettings) (ls : List TrafficLabel) (t : Traffic)
    (hr : Labelled.run (Traffic.next s) (Traffic.start s) ls = some t) :
    (∀ m ∈ t.metrics, Drew t.sys m.deploymentId m.modelVersion) ∧
    ∀ d ∈ t.sys.db.deployments, ∀ (labels : Table GroundTruthLabel.predictionId) (w : Window),
      (versionSummary t.metrics labels d.id d.stableVersion w).sampleCount +
          (versionSummary t.metrics labels d.id d.canaryVersion w).sampleCount =
        t.metrics.countP fun m => decide (m.deploymentId = d.id) && w.contains m.createdAt := by
  obtain ⟨⟨log, hj⟩, _, _, _, hmetrics⟩ := traffic_run hr
  refine ⟨hmetrics, ?_⟩
  intro d hd labels w
  have hcount : ∀ version, (versionSummary t.metrics labels d.id version w).sampleCount =
      t.metrics.countP fun m => decide (m.deploymentId = d.id) && decide (m.modelVersion = version) &&
        w.contains m.createdAt := by
    intro version
    simp only [versionSummary, joinedRows, List.length_map, ← List.countP_eq_length_filter]
  rw [hcount, hcount]
  refine countP_split fun m hm => ?_
  have hne := (hj.routed.shaped d hd).versions_ne
  by_cases hid : m.deploymentId = d.id
  · obtain ⟨targets, ⟨d', hd', hversions, _⟩, tw, htw, hversion, _⟩ := hmetrics m hm
    have hget : t.sys.db.deployment? d.id = some d := Table.mem_iff_get?.mp hd
    rw [hid, hget] at hd'
    cases hd'
    rcases hversions tw htw with h | h
    · rw [← hversion, h]
      simp [hid, hne]
    · rw [← hversion, h]
      simp [hid, hne.symm]
  · simp [hid]

theorem samplePush_valid : ValidTargets (samplePush "fraud-model" 1 (1 / 10)).targets :=
  valid_canarySplit (by decide) (by decide +kernel) (by decide +kernel)

/-- A canary at a tenth of the traffic is pushed, answers one request, and its metric arrives. -/
def sampleVisits : List TrafficLabel :=
  let push := samplePush "fraud-model" 1 (1 / 10)
  let config := push.config samplePush_valid
  let body : Python.Json := .obj [(.ofString "prediction", .int 1)]
  [.system (.request (Env.after 0 "d1") (.create (sampleCreate "fraud-model") none) 2),
    .system (.arrive push), .system (.settle push), .enter,
    .answer ⟨config, 19 / 20, .answered 200, .answered 200 (.json body)⟩ ⟨12, by decide +kernel⟩,
    .post 0 7]

theorem metrics_attributed_sample : ∃ t,
    Labelled.run (Traffic.next sampleRouter) (Traffic.start sampleRouter) sampleVisits = some t ∧
      t.metrics.map MetricRow.modelVersion = ["v2"] ∧
      ∀ m ∈ t.metrics, Drew t.sys m.deploymentId m.modelVersion := by
  have hversions : (Labelled.run (Traffic.next sampleRouter) (Traffic.start sampleRouter)
      sampleVisits).map (fun t => t.metrics.map MetricRow.modelVersion) = some ["v2"] := by
    decide +kernel
  obtain ⟨t, hr, hv⟩ := Option.map_eq_some_iff.mp hversions
  exact ⟨t, hr, hv, (metrics_attributed sampleRouter sampleVisits t hr).1⟩

end ModelOps
