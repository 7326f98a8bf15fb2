/-
  File:      ModelOps/System/Delivery.lean
  Subject:   What the router serves, over every loss, delay, duplication and reordering of pushes.

  One model, a router that is not restarted and knows every version, PUTs one at a time.
  `InOrder` -- the router's config is the boot's own one, or that of the greatest revision delivered;
  `inOrder_step` keeps it. **`delivery`** -- so the router serves what the database committed, never
  goes back, and ends up with the newest push it got.
-/
import ModelOps.System.Joint

namespace ModelOps

open Relational Publication Labelled

/-! ## 1. The runs -/

/-- A step of a run for the model `m`, without restarts, with known versions, and in which a PUT
    arrives only when no other one is between its check and its write. -/
def OneByOne (s : RouterSettings) (m : String) (sys : System) (l : Label) (_ : System) : Prop :=
  match l with
  | .request _ req _ => req.names m = true ∧ req.known s = true
  | .arrive _ => sys.router.idle = true
  | .restart => False
  | .note _ _ | .read _ | .settle _ | .fetch | .boot => True

instance (s : RouterSettings) (m : String) (sys : System) (l : Label) (sys' : System) :
    Decidable (OneByOne s m sys l sys') :=
  match l with
  | .request _ _ _ => inferInstanceAs (Decidable (_ ∧ _))
  | .arrive _ => inferInstanceAs (Decidable (_ = true))
  | .restart => isFalse id
  | .note _ _ | .read _ | .settle _ | .fetch | .boot => isTrue trivial

/-- The router keeps running, and its revision does not decrease. -/
def NeverBack (sys : System) (_ : Label) (sys' : System) : Prop :=
  ∀ config pending, sys.router = .running config pending →
    ∃ config' pending', sys'.router = .running config' pending' ∧
      config.revision ≤ config'.revision

/-- A revision of a model was published once. -/
theorem published_unique {log : Log} {p q : Push} (hp : Published log p) (hq : Published log q)
    (hm : p.modelName = q.modelName) (hr : p.revision = q.revision) : p = q := by
  have he := hp.entry
  rw [hm, hr, hq.entry] at he
  cases p
  cases q
  simp_all

/-! ## 2. The invariant -/

/-- Every rollout is one of the model `m`, between versions the router knows. -/
def Local (s : RouterSettings) (m : String) (db : Db) : Prop :=
  ∀ d ∈ db.deployments, d.modelName = m ∧ s.Knows d.stableVersion ∧ s.Knows d.canaryVersion

/-- The config is the newest one delivered. -/
def Newest (s : RouterSettings) (sys : System) (config : RouterConfig) : Prop :=
  (config = s.toRouterConfig ∧ sys.delivered = []) ∨
  ∃ p ∈ sys.delivered, p ∈ sys.sent ∧ config.Carries p ∧
    ∀ q ∈ sys.delivered, q = p ∨ q.revision < p.revision

structure InOrder (s : RouterSettings) (m : String) (sys : System) : Prop where
  here : Local s m sys.db
  known : ∀ p ∈ sys.sent, p.modelName = m ∧ ∀ t ∈ p.targets, s.Knows t.version
  router : ∃ config pending, sys.router = .running config pending ∧ Newest s sys config ∧
    (pending = [] ∨ ∃ p c, pending = [p] ∧ p.body = .ok c ∧ ¬Stale c config)

theorem inOrder_start (s : RouterSettings) (m : String) : InOrder s m (System.start s) where
  here d hd := (Table.not_mem_empty d hd).elim
  known _ hp := (List.not_mem_nil hp).elim
  router := ⟨s.toRouterConfig, [], rfl, Or.inl ⟨rfl, rfl⟩, Or.inl rfl⟩

/-- What was answered is unchanged by a step that sends more. -/
theorem Newest.send {s : RouterSettings} {sys : System} {config : RouterConfig}
    (h : Newest s sys config) {sys' : System} (hd : sys'.delivered = sys.delivered)
    (hs : ∀ p ∈ sys.sent, p ∈ sys'.sent) :
    Newest s sys' config := by
  unfold Newest
  rw [hd]
  rcases h with h | ⟨p, hp, hsent, hc, hq⟩
  · exact Or.inl h
  · exact Or.inr ⟨p, hp, hs p hsent, hc, hq⟩

section Step

variable {s : RouterSettings} {m : String} {sys sys' : System} {log : Log} {l : Label}

/-- The pushes of a deployment stay within its model and its versions. -/
theorem Local.push {db : Db} (h : Local s m db) (hsh : Shaped db) {d : Deployment}
    (hd : d ∈ db.deployments) {a : TrafficAllocation} (ha : db.trafficAllocation? d.id = some a) :
    d.modelName = m ∧ ∀ t ∈ a.targets, s.Knows t.version := by
  obtain ⟨hm, hstable, hcanary⟩ := h d hd
  obtain ⟨a', ha', hf⟩ := (hsh d hd).split
  rw [ha] at ha'
  cases ha'
  refine ⟨hm, ?_⟩
  intro t ht
  rcases hf.versions t ht with hv | hv
  · rw [hv]
    exact hstable
  · rw [hv]
    exact hcanary

/-- A request of the model keeps the rollouts within it. -/
theorem Local.request {db : Db} {env : Env} {req : Request} (h : Local s m db)
    (hname : req.names m = true) (hknown : req.known s = true) :
    Local s m (req.exec env db).2 := by
  refine rows_exec ?_ ?_ h
  · rintro p key rfl
    simp only [Request.names, Request.known, decide_eq_true_eq, Bool.and_eq_true] at hname hknown
    exact ⟨hname, hknown⟩
  · intro d row ha hd
    rw [ha.modelName_eq, ha.stableVersion_eq, ha.canaryVersion_eq]
    exact hd

/-- What a config that was delivered says of a push that is stale for it. -/
theorem Newest.stale_le {config c : RouterConfig} {p : Push} (hj : Joint log sys)
    (h : Newest s sys config) (hp : p ∈ sys.sent) (hc : c.Carries p) (hs : Stale c config) :
    ∃ p0 ∈ sys.delivered, p0 ∈ sys.sent ∧ config.Carries p0 ∧ p.revision ≤ p0.revision ∧
      ∀ q ∈ sys.delivered, q = p0 ∨ q.revision < p0.revision := by
  have hle := hs.2
  rw [hc.revision_eq] at hle
  rcases h with ⟨rfl, _⟩ | ⟨p0, hd0, hs0, hc0, hq⟩
  · -- every push is newer than the boot's own config
    have hpos := (hj.sent p hp).pos
    have hzero : (p.revision : Int) ≤ 0 := hle
    omega
  · rw [hc0.revision_eq] at hle
    exact ⟨p0, hd0, hs0, hc0, by omega, hq⟩

/-- What it says of one that is not stale. -/
theorem Newest.lt_fresh {config c : RouterConfig} {p p0 : Push} (hi : InOrder s m sys)
    (hp : p ∈ sys.sent) (hp0 : p0 ∈ sys.sent) (hc : c.Carries p) (hc0 : config.Carries p0)
    (hs : ¬Stale c config) : p0.revision < p.revision := by
  by_contra hlt
  refine hs ⟨?_, ?_⟩
  · rw [hc.modelName_eq, hc0.modelName_eq, (hi.known p hp).1, (hi.known p0 hp0).1]
  · rw [hc.revision_eq, hc0.revision_eq]
    omega

/-- A push that was refused as stale leaves the config the newest one delivered. -/
theorem Newest.refuse {config c : RouterConfig} {p : Push} (hj : Joint log sys)
    (hi : InOrder s m sys) (h : Newest s sys config) (hp : p ∈ sys.sent) (hc : c.Carries p)
    (hs : Stale c config) : Newest s { sys with delivered := p :: sys.delivered } config := by
  obtain ⟨p0, hd0, hs0, hc0, hle, hq⟩ := h.stale_le hj hp hc hs
  refine Or.inr ⟨p0, List.mem_cons_of_mem _ hd0, hs0, hc0, ?_⟩
  intro q hqmem
  rcases List.mem_cons.mp hqmem with rfl | hqmem
  · rcases Nat.lt_or_eq_of_le hle with hlt | heq
    · exact Or.inr hlt
    · -- it is the push that was accepted, once more
      have hm : q.modelName = p0.modelName := by rw [(hi.known q hp).1, (hi.known p0 hs0).1]
      exact Or.inl (published_unique (hj.sent q hp) (hj.sent p0 hs0) hm heq)
  · exact hq q hqmem

/-- A push that is accepted is newer than all before it. -/
theorem Newest.accept {config c : RouterConfig} {p : Push} (hi : InOrder s m sys)
    (h : Newest s sys config) (hp : p ∈ sys.sent) (hc : c.Carries p) (hs : ¬Stale c config)
    (router : Process) :
    Newest s { sys with router := router, delivered := p :: sys.delivered } c ∧
      config.revision ≤ c.revision := by
  have hfresh : config.revision ≤ c.revision ∧ ∀ q ∈ sys.delivered, q.revision < p.revision := by
    rcases h with ⟨rfl, hnone⟩ | ⟨p0, _, hs0, hc0, hq⟩
    · refine ⟨?_, ?_⟩
      · rw [hc.revision_eq]
        exact Int.natCast_nonneg _
      · rw [hnone]
        intro q hq
        cases hq
    · have hlt := Newest.lt_fresh hi hp hs0 hc hc0 hs
      refine ⟨?_, ?_⟩
      · rw [hc.revision_eq, hc0.revision_eq]
        omega
      · intro q hqmem
        rcases hq q hqmem with rfl | hqlt
        · exact hlt
        · exact hqlt.trans hlt
  refine ⟨Or.inr ⟨p, List.mem_cons_self, hp, hc, ?_⟩, hfresh.1⟩
  intro q hqmem
  rcases List.mem_cons.mp hqmem with rfl | hqmem
  · exact Or.inl rfl
  · exact Or.inr (hfresh.2 q hqmem)

/-- **A step of such a run keeps the order and does not take the router back.** -/
theorem inOrder_step (hj : Joint log sys) (hi : InOrder s m sys) (hone : OneByOne s m sys l sys')
    (h : Step s sys l sys') : InOrder s m sys' ∧ NeverBack sys l sys' := by
  obtain ⟨config, pending, hrouter, hnew, hpend⟩ := hi.router
  have hsame : ∀ {config' pending'}, sys.router = .running config' pending' →
      config = config' ∧ pending = pending' := by
    intro config' pending' hr
    rw [hrouter] at hr
    cases hr
    exact ⟨rfl, rfl⟩
  have hstay : sys'.router = sys.router → NeverBack sys l sys' := by
    intro he config' pending' hr
    exact ⟨config', pending', he.trans hr, le_refl _⟩
  cases h with
  | @request env req now' hc =>
      have hhere : Local s m (req.exec env sys.db).2 := hi.here.request hone.1 hone.2
      have hknown : ∀ p ∈ sys.sent ++ pushes (req.exec env sys.db).1,
          p.modelName = m ∧ ∀ t ∈ p.targets, s.Knows t.version := by
        intro p hp
        rcases List.mem_append.mp hp with hp | hp
        · exact hi.known p hp
        · obtain ⟨d, hd, a, ha, rfl⟩ := pushes_of_exec hp
          exact hhere.push (shaped_exec env req hj.routed.shaped) hd ha
      have hnew' : Newest s ((sys.commit (req.exec env sys.db).2 now').send
          (pushes (req.exec env sys.db).1)) config :=
        hnew.send rfl fun p hp => List.mem_append_left _ hp
      exact ⟨⟨hhere, hknown, config, pending, hrouter, hnew', hpend⟩, hstay rfl⟩
  | note hle ht =>
      exact ⟨⟨hi.here, hi.known, config, pending, hrouter, hnew, hpend⟩, hstay rfl⟩
  | @read id d a hd ha =>
      obtain ⟨hmem, rfl⟩ := deployment?_eq_some.mp hd
      have hknown : ∀ p ∈ sys.sent ++ [pushOfAllocation d a],
          p.modelName = m ∧ ∀ t ∈ p.targets, s.Knows t.version := by
        intro p hp
        rcases List.mem_append.mp hp with hp | hp
        · exact hi.known p hp
        · rw [List.mem_singleton.mp hp]
          exact hi.here.push hj.routed.shaped hmem ha
      have hnew' : Newest s (sys.send [pushOfAllocation d a]) config :=
        hnew.send rfl fun p hp => List.mem_append_left _ hp
      exact ⟨⟨hi.here, hknown, config, pending, hrouter, hnew', hpend⟩, hstay rfl⟩
  | @checked p _ _ c hr hp hb hk hs =>
      obtain ⟨rfl, rfl⟩ := hsame hr
      obtain rfl : pending = [] := by
        have hidle : sys.router.idle = true := hone
        rw [hr] at hidle
        cases pending with
        | nil => rfl
        | cons q qs => cases hidle
      refine ⟨⟨hi.here, hi.known, config, [p], rfl, ?_, Or.inr ⟨p, c, rfl, hb, hs⟩⟩, ?_⟩
      · exact hnew.send rfl fun _ hp => hp
      · intro config' pending' hr'
        rw [hr] at hr'
        cases hr'
        exact ⟨config, [p], rfl, le_refl _⟩
  | @refused p _ _ hr hp hno =>
      obtain ⟨rfl, rfl⟩ := hsame hr
      -- its versions are known, so it was stale
      have hvalid := (hj.sent p hp).valid
      have hbody := body_of_valid hvalid
      have hs : Stale (p.config hvalid) config := by
        by_contra hs
        exact hno _ hbody ⟨(hi.known p hp).2, hs⟩
      have hnew' := hnew.refuse hj hi hp (carries_of_body hbody) hs
      exact ⟨⟨hi.here, hi.known, config, pending, hrouter, hnew', hpend⟩, hstay rfl⟩
  | @settle p _ _ c hr hb hp =>
      obtain ⟨rfl, rfl⟩ := hsame hr
      have hpsent : p ∈ sys.sent := (hj.running hr).2 p hp
      rcases hpend with rfl | ⟨p', c', rfl, hb', hs⟩
      · cases hp
      · obtain rfl := List.mem_singleton.mp hp
        rw [hb] at hb'
        cases hb'
        obtain ⟨hnew', hle⟩ := hnew.accept hi hpsent (carries_of_body hb) hs
          (.running c ([p].erase p))
        refine ⟨⟨hi.here, hi.known, c, [], by simp, hnew', Or.inl rfl⟩, ?_⟩
        intro config' pending' hr'
        rw [hr] at hr'
        cases hr'
        exact ⟨c, _, rfl, hle⟩
  | restart => exact hone.elim
  | fetch hr hc =>
      rw [hrouter] at hr
      cases hr
  | bootstrap hr =>
      rw [hrouter] at hr
      cases hr
  | synced hr =>
      rw [hrouter] at hr
      cases hr

end Step

/-! ## 3. Every run -/

/-- **The router serves what the database committed, and never goes back.** In every run of one model
    whose versions the router knows, without restarts and with PUTs one at a time: the revision never
    decreases and never exceeds the model's generation; before the first push is answered the config
    is the boot's own one; and after it the config is the push of the greatest revision delivered,
    whose targets some committed database held for that deployment at that generation. -/
theorem delivery (s : RouterSettings) (m : String) (ls : List Label) (sys : System)
    (hrun : run (System.next s) (System.start s) ls = some sys)
    (hone : Along (System.next s) (OneByOne s m) (System.start s) ls) :
    Along (System.next s) NeverBack (System.start s) ls ∧
    ∃ config pending, sys.router = .running config pending ∧
      config.revision ≤ sys.db.generation m ∧
      ((config = s.toRouterConfig ∧ sys.delivered = []) ∨
        ∃ p ∈ sys.delivered, config.Carries p ∧
          (∀ q ∈ sys.delivered, q = p ∨ q.revision < p.revision) ∧
          ∃ db ∈ sys.history, db.Serves m p.revision p.deploymentId p.targets) := by
  obtain ⟨hforward, hend⟩ := joint_along inOrder_step (inOrder_start s m) hone
  obtain ⟨⟨log, hj⟩, hi⟩ := hend sys hrun
  obtain ⟨config, pending, hr, hnew, _⟩ := hi.router
  refine ⟨hforward, config, pending, hr, ?_, ?_⟩
  · rcases hnew with ⟨rfl, _⟩ | ⟨p, _, hp, hc, _⟩
    · exact Int.natCast_nonneg _
    · have hle := (entryAt_le (hj.sent p hp).entry).2
      rw [(hi.known p hp).1, ← hj.routed.generation] at hle
      rw [hc.revision_eq]
      exact_mod_cast hle
  · rcases hnew with h | ⟨p, hd, hp, hc, hq⟩
    · exact Or.inl h
    · right
      obtain ⟨db, hdb, hserves⟩ := hj.committed _ _ _ (hj.sent p hp).entry
      rw [(hi.known p hp).1] at hserves
      exact ⟨p, hd, hc, hq, db, hdb, hserves⟩

/-- The newer push of the sample rollout arrives first, and once more after the older one. -/
def sampleDelivery : List Label :=
  sampleRollout "fraud-model" ++
    [.arrive (samplePush "fraud-model" 2 (1 / 4)), .settle (samplePush "fraud-model" 2 (1 / 4)),
      .arrive (samplePush "fraud-model" 1 (1 / 10)), .arrive (samplePush "fraud-model" 2 (1 / 4))]

/-- The router ends with the newer one. -/
theorem delivery_sample :
    ∃ sys config pending,
      run (System.next sampleRouter) (System.start sampleRouter) sampleDelivery = some sys ∧
      sys.router = .running config pending ∧
      config.Carries (samplePush "fraud-model" 2 (1 / 4)) := by
  have hsome : (run (System.next sampleRouter) (System.start sampleRouter)
      sampleDelivery).isSome = true := by decide +kernel
  have hone : Along (System.next sampleRouter) (OneByOne sampleRouter "fraud-model")
      (System.start sampleRouter) sampleDelivery := by decide +kernel
  have hdelivered : (run (System.next sampleRouter) (System.start sampleRouter)
      sampleDelivery).map System.delivered =
        some [samplePush "fraud-model" 2 (1 / 4), samplePush "fraud-model" 1 (1 / 10),
          samplePush "fraud-model" 2 (1 / 4)] := by decide +kernel
  obtain ⟨sys, hrun⟩ := Option.isSome_iff_exists.mp hsome
  rw [hrun] at hdelivered
  have hd := Option.some.inj hdelivered
  obtain ⟨_, config, pending, hr, _, ⟨_, hnone⟩ | ⟨p, hp, hc, hq, _⟩⟩ :=
    delivery sampleRouter "fraud-model" sampleDelivery sys hrun hone
  · rw [hnone] at hd
    cases hd
  · refine ⟨sys, config, pending, hrun, hr, ?_⟩
    rcases hq (samplePush "fraud-model" 2 (1 / 4)) (by rw [hd]; simp) with rfl | hlt
    · exact hc
    · -- no push that was delivered is newer
      rw [hd] at hp
      simp only [List.mem_cons, List.not_mem_nil, or_false] at hp
      rcases hp with rfl | rfl | rfl
      · exact hc
      · exact absurd hlt (by decide)
      · exact hc

end ModelOps
