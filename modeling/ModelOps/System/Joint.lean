/-
  File:      ModelOps/System/Joint.lean
  Subject:   The control plane's database and the router, with the pushes between them.

  `System.next` is one step of one of the parties, or of the network:

  * `request` -- a lifecycle request commits and sends its push (`_push_best_effort`);
  * `note` -- an event about a push that was answered, or was not, is written;
  * `read` -- a reconcile tick reads an allocation, which it then pushes;
  * `arrive`, `settle` -- PUT /router/config of a push: the check, and the write of the store;
  * `restart`, `fetch`, `boot` -- the router comes up again, with or without a startup sync.

  A push that was sent may arrive at any later time, any number of times, or never, so the network's
  losses, delays, duplicates and reorderings are the choice of the run. `history`, `delivered` and
  `floor` are ghosts: nothing reads them.

  `Joint log sys` -- the tables are what is left of `log`, and every split on its way to the router or
  held by it is an entry of `log`, under its number. `joint_step` keeps it.
-/
import ModelOps.Lib.Transition
import ModelOps.ControlPlane.Reconcile

namespace ModelOps

open Relational Publication Labelled

/-! ## 1. Messages -/

/-- The body of the PUT, as validation lets it through. -/
def Push.body (p : Push) : Except ConfigError RouterConfig :=
  RouterConfig.validate p.modelName p.targets (some p.deploymentId) p.revision

/-- The body of a push with valid targets. -/
def Push.config (p : Push) (h : ValidTargets p.targets) : RouterConfig where
  modelName := p.modelName
  targets := p.targets
  deploymentId := some p.deploymentId
  revision := p.revision
  valid := h

theorem body_of_valid {p : Push} (h : ValidTargets p.targets) : p.body = .ok (p.config h) :=
  validate_of_valid h

/-- The config is what the push says. -/
structure RouterConfig.Carries (c : RouterConfig) (p : Push) : Prop where
  modelName_eq : c.modelName = p.modelName
  deploymentId_eq : c.deploymentId = some p.deploymentId
  revision_eq : c.revision = p.revision
  targets_eq : c.targets = p.targets

theorem carries_of_body {p : Push} {c : RouterConfig} (h : p.body = .ok c) : c.Carries p := by
  obtain ⟨hm, ht, hd, hr⟩ := validate_eq_ok h
  exact ⟨hm, hd, hr, ht⟩

/-- The pushes a request sends. -/
def pushes : Except ServiceError Reply → List Push
  | .ok reply => reply.push.toList
  | .error _ => []

/-- The answer of GET /api/router-config/{model_name}: the deployment's id and its targets, or the
    detail of the 404. There is no revision in it. -/
def getRouterConfig (db : Db) (modelName : String) :
    Except String (String × List TargetWeight) :=
  match db.getAuthoritativeAllocation modelName with
  | none => .error s!"No active traffic allocation on record for '{modelName}'"
  | some d =>
      match db.trafficAllocation? d.id with
      | none => .error s!"No active traffic allocation on record for '{modelName}'"
      | some a => .ok (d.id, a.targets)

/-- `_fetch_control_plane_allocation`, where the control plane answers. -/
def fetchControlPlaneAllocation (db : Db) (modelName : String) : Option RouterConfig :=
  match getRouterConfig db modelName with
  | .error _ => none
  | .ok (deploymentId, targets) =>
      (RouterConfig.validate modelName targets (some deploymentId)).toOption

/-- The revision of a model's authoritative allocation. -/
def Db.authoritativeRevision (db : Db) (modelName : String) : Nat :=
  match db.getAuthoritativeAllocation modelName with
  | none => 0
  | some d => ((db.trafficAllocation? d.id).map TrafficAllocation.revision).getD 0

/-! ## 2. Steps -/

/-- The router's process. -/
inductive Process where
  /-- in its lifespan, with what the startup sync fetched; the number is a ghost, the revision of
      the allocation that was read -/
  | starting (fetched : Option (RouterConfig × Nat))
  /-- serving: the store, and the PUTs between their check and their write -/
  | running (config : RouterConfig) (pending : List Push)

/-- No PUT is between its check and its write. -/
def Process.idle : Process → Bool
  | .running _ [] => true
  | _ => false

structure System where
  now : Time
  db : Db
  /-- every push that was ever sent -/
  sent : List Push
  router : Process
  /-- ghost: every database committed so far -/
  history : List Db
  /-- ghost: every push whose PUT was answered -/
  delivered : List Push
  /-- ghost: the greatest revision a startup sync has completed with -/
  floor : Nat

inductive Label where
  | request (env : Env) (req : Request) (now' : Time)
  | note (events : List DeploymentEvent) (now' : Time)
  | read (deploymentId : String)
  | arrive (p : Push)
  | settle (p : Push)
  | restart
  | fetch
  | boot

instance (c : Clock) (now now' : Time) : Decidable (c.Within now now') :=
  inferInstanceAs (Decidable (∀ t ∈ c.readings, _))

/-- The events were written between `now` and `now'`. -/
def Timely (events : List DeploymentEvent) (now now' : Time) : Prop :=
  ∀ e ∈ events, now < e.createdAt ∧ e.createdAt ≤ now'

instance (events : List DeploymentEvent) (now now' : Time) : Decidable (Timely events now now') :=
  inferInstanceAs (Decidable (∀ e ∈ events, _))

namespace System

/-- An empty database and a router that booted with its own targets. -/
def start (s : RouterSettings) : System where
  now := 0
  db := .empty
  sent := []
  router := .running s.toRouterConfig []
  history := [.empty]
  delivered := []
  floor := 0

/-- The tables after a commit. -/
def commit (sys : System) (db : Db) (now' : Time) : System :=
  { sys with now := now', db := db, history := db :: sys.history }

def send (sys : System) (ps : List Push) : System := { sys with sent := sys.sent ++ ps }

/-- PUT /router/config up to its `store.set`. -/
def check (s : RouterSettings) (p : Push) (config : RouterConfig) : Bool :=
  match p.body with
  | .error _ => false
  | .ok c => (putCheck s c config).isOk

def next (s : RouterSettings) (sys : System) : Label → Option System
  | .request env req now' =>
      if env.clock.Within sys.now now' then
        let (answer, db) := req.exec env sys.db
        some ((sys.commit db now').send (pushes answer))
      else none
  | .note events now' =>
      if sys.now ≤ now' ∧ Timely events sys.now now' ∧ ∀ e ∈ events, e.body.aboutRouter = true then
        some (sys.commit (sys.db.noted events) now')
      else none
  | .read id =>
      match sys.db.deployment? id, sys.db.trafficAllocation? id with
      | some d, some a => some (sys.send [pushOfAllocation d a])
      | _, _ => none
  | .arrive p =>
      match sys.router with
      | .starting _ => none
      | .running config pending =>
          if p ∉ sys.sent then none
          else if check s p config then some { sys with router := .running config (p :: pending) }
          else some { sys with delivered := p :: sys.delivered }
  | .settle p =>
      match sys.router, p.body with
      | .running _ pending, .ok c =>
          if p ∈ pending then
            some { sys with router := .running c (pending.erase p), delivered := p :: sys.delivered }
          else none
      | _, _ => none
  | .restart => some { sys with router := .starting none }
  | .fetch =>
      match sys.router, fetchControlPlaneAllocation sys.db s.modelName with
      | .starting _, some c =>
          let g := sys.db.authoritativeRevision s.modelName
          if s.hasControlPlane then some { sys with router := .starting (some (c, g)) } else none
      | _, _ => none
  | .boot =>
      match sys.router with
      | .starting none => some { sys with router := .running s.toRouterConfig [] }
      | .starting (some (c, g)) =>
          some { sys with router := .running c [], floor := max sys.floor g }
      | .running _ _ => none

end System

/-- A rollout the request creates is one of the model `m`. -/
def Request.names (m : String) : Request → Bool
  | .create p _ => decide (p.modelName = m)
  | _ => true

/-- A rollout the request creates is between versions the router knows. -/
def Request.known (s : RouterSettings) : Request → Bool
  | .create p _ => decide (s.Knows p.stableVersion) && decide (s.Knows p.canaryVersion)
  | _ => true

/-- **What a step does**, one rule a label. -/
inductive Step (s : RouterSettings) (sys : System) : Label → System → Prop where
  | request {env : Env} {req : Request} {now' : Time} (hc : env.clock.Within sys.now now') :
      Step s sys (.request env req now')
        ((sys.commit (req.exec env sys.db).2 now').send (pushes (req.exec env sys.db).1))
  | note {events : List DeploymentEvent} {now' : Time} (hle : sys.now ≤ now')
      (ht : Timely events sys.now now') :
      Step s sys (.note events now') (sys.commit (sys.db.noted events) now')
  | read {id : String} {d : Deployment} {a : TrafficAllocation}
      (hd : sys.db.deployment? id = some d) (ha : sys.db.trafficAllocation? id = some a) :
      Step s sys (.read id) (sys.send [pushOfAllocation d a])
  | checked {p : Push} {config : RouterConfig} {pending : List Push} {c : RouterConfig}
      (hr : sys.router = .running config pending) (hp : p ∈ sys.sent) (hb : p.body = .ok c)
      (hk : ∀ t ∈ c.targets, s.Knows t.version) (hs : ¬Stale c config) :
      Step s sys (.arrive p) { sys with router := .running config (p :: pending) }
  | refused {p : Push} {config : RouterConfig} {pending : List Push}
      (hr : sys.router = .running config pending) (hp : p ∈ sys.sent)
      (hno : ∀ c, p.body = .ok c → ¬((∀ t ∈ c.targets, s.Knows t.version) ∧ ¬Stale c config)) :
      Step s sys (.arrive p) { sys with delivered := p :: sys.delivered }
  | settle {p : Push} {config : RouterConfig} {pending : List Push} {c : RouterConfig}
      (hr : sys.router = .running config pending) (hb : p.body = .ok c) (hp : p ∈ pending) :
      Step s sys (.settle p)
        { sys with router := .running c (pending.erase p), delivered := p :: sys.delivered }
  | restart : Step s sys .restart { sys with router := .starting none }
  | fetch {f : Option (RouterConfig × Nat)} {c : RouterConfig} (hr : sys.router = .starting f)
      (hc : fetchControlPlaneAllocation sys.db s.modelName = some c) :
      Step s sys .fetch { sys with
        router := .starting (some (c, sys.db.authoritativeRevision s.modelName)) }
  | bootstrap (hr : sys.router = .starting none) :
      Step s sys .boot { sys with router := .running s.toRouterConfig [] }
  | synced {c : RouterConfig} {g : Nat} (hr : sys.router = .starting (some (c, g))) :
      Step s sys .boot { sys with router := .running c [], floor := max sys.floor g }

theorem check_iff {s : RouterSettings} {p : Push} {config : RouterConfig} :
    System.check s p config = true ↔
      ∃ c, p.body = .ok c ∧ (∀ t ∈ c.targets, s.Knows t.version) ∧ ¬Stale c config := by
  unfold System.check
  cases hb : p.body with
  | error e => simp
  | ok c =>
      have hok : (putCheck s c config).isOk = true ↔ putCheck s c config = .ok () := by
        cases putCheck s c config <;> simp [Except.isOk, Except.toBool]
      show (putCheck s c config).isOk = true ↔ _
      rw [hok, putCheck_ok]
      constructor
      · intro h
        exact ⟨c, rfl, h⟩
      · rintro ⟨c', h', h⟩
        cases h'
        exact h

/-- Every step is one of these. -/
theorem step_of_next {s : RouterSettings} {sys sys' : System} {l : Label}
    (h : System.next s sys l = some sys') : Step s sys l sys' := by
  cases l with
  | request env req now' =>
      simp only [System.next] at h
      split at h
      · rename_i hc
        cases h
        exact .request hc
      · cases h
  | note events now' =>
      simp only [System.next] at h
      split at h
      · rename_i hc
        cases h
        exact .note hc.1 hc.2.1
      · cases h
  | read id =>
      simp only [System.next] at h
      split at h
      · rename_i hd ha
        cases h
        exact .read hd ha
      · cases h
  | arrive p =>
      simp only [System.next] at h
      split at h
      · cases h
      · rename_i config pending hr
        split at h
        · cases h
        · rename_i hp
          split at h
          · rename_i hc
            obtain ⟨c, hb, hk, hs⟩ := check_iff.mp hc
            cases h
            exact .checked hr (not_not.mp hp) hb hk hs
          · rename_i hc
            cases h
            exact .refused hr (not_not.mp hp) fun c hb hno => hc (check_iff.mpr ⟨c, hb, hno⟩)
  | settle p =>
      simp only [System.next] at h
      split at h
      · rename_i hr hb
        split at h
        · rename_i hp
          cases h
          exact .settle hr hb hp
        · cases h
      · cases h
  | restart =>
      cases h
      exact .restart
  | fetch =>
      simp only [System.next] at h
      split at h
      · rename_i hr hc
        split at h
        · cases h
          exact .fetch hr hc
        · cases h
      · cases h
  | boot =>
      simp only [System.next] at h
      split at h
      · rename_i hr
        cases h
        exact .bootstrap hr
      · rename_i hr
        cases h
        exact .synced hr
      · cases h

/-! ## 3. What a request publishes -/

/-- A later log keeps every entry under its number. -/
def Log.Extends (log log' : Log) : Prop :=
  ∀ m n e, entryAt (log m) n = some e → entryAt (log' m) n = some e

theorem extends_refl (log : Log) : log.Extends log := fun _ _ _ h => h

theorem extends_publish (log : Log) (row : Deployment) (split : Option (List TargetWeight)) :
    log.Extends (log.publish row split) := by
  intro m n e h
  cases split with
  | none => exact h
  | some targets =>
      by_cases hm : m = row.modelName
      · subst hm
        rw [publish_self]
        exact entryAt_append h _
      · rw [publish_ne hm]
        exact h

/-- The push is the entry of its model's log under its revision. -/
structure Published (log : Log) (p : Push) : Prop where
  entry : entryAt (log p.modelName) p.revision = some (p.deploymentId, p.targets)
  valid : ValidTargets p.targets

theorem Published.extends {log log' : Log} {p : Push} (h : Published log p)
    (he : log.Extends log') : Published log' p :=
  ⟨he _ _ _ h.entry, h.valid⟩

theorem Published.pos {log : Log} {p : Push} (h : Published log p) : 1 ≤ p.revision :=
  (entryAt_le h.entry).1

/-- Deployment `id` of model `m` holds `targets` under revision `n`, and `n` is the generation. -/
def Db.Serves (db : Db) (m : String) (n : Nat) (id : String) (targets : List TargetWeight) : Prop :=
  (∃ d, db.deployment? id = some d ∧ d.modelName = m) ∧
    db.trafficAllocation? id = some ⟨id, targets, n⟩ ∧ db.generation m = n

theorem valid_canarySplit {stable canary : String} {w : ℚ} (hne : stable ≠ canary) (h0 : 0 ≤ w)
    (h1 : w ≤ 1) : ValidTargets (canarySplit stable canary w) where
  weights_nonneg := by
    intro t ht
    simp only [canarySplit, List.mem_cons, List.not_mem_nil, or_false] at ht
    rcases ht with rfl | rfl
    · exact Decimal.round_nonneg (sub_nonneg.mpr h1)
    · exact Decimal.round_nonneg h0
  nonempty := by simp [canarySplit]
  versions_nodup := by simp [canarySplit, hne]
  weight_pos := by
    have hsum := Decimal.round_compl (d := 6) (by omega) w
    simp only [canarySplit, List.map_cons, List.map_nil, List.sum_cons, List.sum_nil, add_zero,
      hsum]
    exact zero_lt_one

/-- The targets of a deployment pass the router's validation. -/
theorem Fits.valid {d : Deployment} {targets : List TargetWeight} (h : Fits d targets)
    (hne : d.stableVersion ≠ d.canaryVersion) : ValidTargets targets := by
  unfold Fits at h
  split at h
  · obtain ⟨w, h0, h1, rfl⟩ := h
    exact valid_canarySplit hne h0 h1
  · obtain ⟨w, h0, h1, rfl⟩ := h
    exact valid_canarySplit hne h0 h1
  · rw [h]
    exact valid_single _
  · rw [h]
    exact valid_single _
  · exact h.elim

/-- They name no version but the deployment's own two. -/
theorem Fits.versions {d : Deployment} {targets : List TargetWeight} (h : Fits d targets) :
    ∀ t ∈ targets, t.version = d.stableVersion ∨ t.version = d.canaryVersion := by
  have hsplit : ∀ w, ∀ t ∈ canarySplit d.stableVersion d.canaryVersion w,
      t.version = d.stableVersion ∨ t.version = d.canaryVersion := by
    intro w t ht
    simp only [canarySplit, List.mem_cons, List.not_mem_nil, or_false] at ht
    rcases ht with rfl | rfl
    · exact Or.inl rfl
    · exact Or.inr rfl
  unfold Fits at h
  split at h
  · obtain ⟨w, _, _, rfl⟩ := h
    exact hsplit w
  · obtain ⟨w, _, _, rfl⟩ := h
    exact hsplit w
  · intro t ht
    rw [h, List.mem_singleton] at ht
    exact Or.inr (congrArg TargetWeight.version ht)
  · intro t ht
    rw [h, List.mem_singleton] at ht
    exact Or.inl (congrArg TargetWeight.version ht)
  · exact h.elim

section Requests

variable {env : Env} {db : Db} {req : Request} {reply : Reply} {row : Deployment}
  {split : Option (List TargetWeight)} {bodies : List EventBody} {now now' : Time} {log : Log}

/-- The push repeats what was published. -/
theorem Effect.push (h : Effect env db req reply row split bodies) :
    reply.push = split.map fun targets =>
      ⟨row.modelName, row.id, db.generation row.modelName + 1, targets⟩ := by
  cases h <;> rfl

/-- The allocation of a deployment is the entry of the log under its revision. -/
theorem Routed.published (hi : Routed now log db) {d : Deployment} (hd : d ∈ db.deployments)
    {a : TrafficAllocation} (ha : db.trafficAllocation? d.id = some a) :
    Published log (pushOfAllocation d a) := by
  have hsh := hi.shaped d hd
  obtain ⟨a', ha', hf⟩ := hsh.split
  rw [ha] at ha'
  cases ha'
  exact ⟨(hi.latest d hd a ha).entry, hf.valid hsh.versions_ne⟩

theorem timely_stamp (hc : env.clock.Within now now') (id : String) (bodies : List EventBody) :
    Timely (stamp env.clock id bodies) now now' := by
  intro e he
  obtain ⟨i, hi, rfl⟩ := List.mem_mapIdx.mp he
  exact hc _ (clock_event_mem _ _)

/-- A request leaves no event later than its own clock. -/
theorem timely_exec (req : Request) (hc : env.clock.Within now now')
    (h : ∀ e ∈ db.deploymentEvents, e.createdAt ≤ now) :
    ∀ e ∈ (req.exec env db).2.deploymentEvents, e.createdAt ≤ now' := by
  obtain ⟨hlt, hle⟩ := hc.second
  have hold : ∀ e ∈ db.deploymentEvents, e.createdAt ≤ now' := fun e he =>
    (h e he).trans (hlt.le.trans hle)
  rcases exec_cases env db req with ⟨x, hx, _⟩ | ⟨_, row, split, bodies, _, hx⟩
  · rw [hx]
    exact hold
  · rw [hx]
    intro e he
    rcases List.mem_append.mp he with he | he
    · exact hold e he
    · exact (timely_stamp hc _ _ e he).2

/-- The pushes a request sends are those of a deployment in the tables. -/
theorem pushes_of_exec {env : Env} {db : Db} {req : Request} {p : Push}
    (hp : p ∈ pushes (req.exec env db).1) :
    ∃ d ∈ (req.exec env db).2.deployments, ∃ a,
      (req.exec env db).2.trafficAllocation? d.id = some a ∧ p = pushOfAllocation d a := by
  rcases exec_cases env db req with ⟨x, hx, hpush⟩ | ⟨reply, row, split, bodies, heff, hx⟩
  · rw [hx] at hp
    cases x with
    | error e => cases hp
    | ok reply =>
        simp only [pushes, (hpush reply rfl).1] at hp
        cases hp
  · rw [hx] at hp ⊢
    simp only [pushes, heff.push] at hp
    cases split with
    | none => cases hp
    | some targets =>
        simp only [Option.map_some, Option.toList_some, List.mem_singleton] at hp
        refine ⟨row, mem_applied.mpr (Or.inl rfl),
          ⟨row.id, targets, db.generation row.modelName + 1⟩, ?_, hp⟩
        rw [applied_some_trafficAllocation?, if_pos rfl]

/-- **What a request publishes**: the log it extends has every push it sends, and each new entry was
    committed under the generation of that moment. -/
theorem publishes (req : Request) (hi : Routed now log db) (hc : env.clock.Within now now') :
    ∃ log', Routed now' log' (req.exec env db).2 ∧ log.Extends log' ∧
      (∀ p ∈ pushes (req.exec env db).1, Published log' p) ∧
      ∀ m n e, entryAt (log' m) n = some e →
        entryAt (log m) n = some e ∨ (req.exec env db).2.Serves m n e.1 e.2 := by
  obtain ⟨hlt, hle⟩ := hc.second
  -- what it sends is what a deployment holds after it, so it is in any log of these tables
  have hsent : ∀ {log'}, Routed now' log' (req.exec env db).2 →
      ∀ p ∈ pushes (req.exec env db).1, Published log' p := by
    intro log' hr p hp
    obtain ⟨d, hd, a, ha, rfl⟩ := pushes_of_exec hp
    exact hr.published hd ha
  rcases exec_cases env db req with ⟨x, h, _⟩ | ⟨reply, row, split, bodies, heff, h⟩
  · have hr : Routed now' log (req.exec env db).2 := by
      rw [h]
      exact hi.later (hlt.le.trans hle)
    exact ⟨log, hr, extends_refl log, hsent hr, fun m n e he => Or.inl he⟩
  · have hr : Routed now' (log.publish row split) (req.exec env db).2 := by
      rw [h]
      exact heff.routed hi hlt hle _
    refine ⟨log.publish row split, hr, extends_publish log row split, hsent hr, ?_⟩
    intro m n e he
    cases split with
    | none => exact Or.inl he
    | some targets =>
        by_cases hm : m = row.modelName
        · subst hm
          rw [publish_self] at he
          rcases entryAt_append_cases he with he | ⟨rfl, rfl⟩
          · exact Or.inl he
          · right
            rw [h, ← hi.generation]
            refine ⟨⟨row, ?_, rfl⟩, ?_, ?_⟩
            · rw [applied_deployment?, if_pos rfl]
            · rw [applied_some_trafficAllocation?, if_pos rfl]
            · rw [applied_some_generation, if_pos rfl]
        · rw [publish_ne hm] at he
          exact Or.inl he

end Requests

/-! ## 4. The invariant -/

/-- A config the router may hold: with the revision of a boot, or a published one. -/
def Sound (log : Log) (c : RouterConfig) : Prop :=
  c.revision = 0 ∨ ∃ p, Published log p ∧ p.body = .ok c

theorem Sound.extends {log log' : Log} {c : RouterConfig} (h : Sound log c)
    (he : log.Extends log') : Sound log' c := by
  rcases h with h | ⟨p, hp, hb⟩
  · exact Or.inl h
  · exact Or.inr ⟨p, hp.extends he, hb⟩

/-- What the router's process may be. -/
def Process.Sound (log : Log) (sent : List Push) : Process → Prop
  | .starting f => ∀ c g, f = some (c, g) → c.revision = 0
  | .running config pending => ModelOps.Sound log config ∧ ∀ p ∈ pending, p ∈ sent

structure Joint (log : Log) (sys : System) : Prop where
  routed : Routed sys.now log sys.db
  timely : ∀ e ∈ sys.db.deploymentEvents, e.createdAt ≤ sys.now
  sent : ∀ p ∈ sys.sent, Published log p
  router : sys.router.Sound log sys.sent
  committed : ∀ m n e, entryAt (log m) n = some e → ∃ db ∈ sys.history, db.Serves m n e.1 e.2

/-- A router that serves, under the invariant. -/
theorem Joint.running {log : Log} {sys : System} (hi : Joint log sys) {config : RouterConfig}
    {pending : List Push} (hr : sys.router = .running config pending) :
    Sound log config ∧ ∀ p ∈ pending, p ∈ sys.sent := by
  have h := hi.router
  rw [hr] at h
  exact h

theorem joint_start (s : RouterSettings) : Joint (fun _ => []) (System.start s) where
  routed := routed_empty 0
  timely e he := (List.not_mem_nil he).elim
  sent p hp := (List.not_mem_nil hp).elim
  router := ⟨Or.inl rfl, fun p hp => (List.not_mem_nil hp).elim⟩
  committed m n e he := by
    have := entryAt_le he
    rw [List.length_nil] at this
    omega

/-- What the startup sync fetches has no revision. -/
theorem fetched {db : Db} {m : String} {c : RouterConfig}
    (h : fetchControlPlaneAllocation db m = some c) : c.modelName = m ∧ c.revision = 0 := by
  unfold fetchControlPlaneAllocation at h
  split at h
  · cases h
  · rename_i id targets _
    cases hv : RouterConfig.validate m targets (some id) with
    | error e =>
        rw [hv] at h
        cases h
    | ok c' =>
        rw [hv] at h
        cases h
        obtain ⟨hm, _, _, hr⟩ := validate_eq_ok hv
        exact ⟨hm, hr⟩

theorem Process.Sound.extends {log log' : Log} {sent sent' : List Push} {r : Process}
    (h : r.Sound log sent) (he : log.Extends log') (hs : ∀ p ∈ sent, p ∈ sent') :
    r.Sound log' sent' := by
  cases r with
  | starting f => exact h
  | running config pending => exact ⟨h.1.extends he, fun p hp => hs p (h.2 p hp)⟩

/-- **Every step keeps the invariant**, for a log that extends the one before. -/
theorem joint_step {s : RouterSettings} {sys sys' : System} {l : Label} {log : Log}
    (hi : Joint log sys) (h : Step s sys l sys') :
    ∃ log', Joint log' sys' ∧ log.Extends log' := by
  cases h with
  | @request env req now' hc =>
      obtain ⟨log', hr, hext, hpush, hnew⟩ := publishes req hi.routed hc
      have hsent : ∀ p ∈ sys.sent ++ pushes (req.exec env sys.db).1, Published log' p := by
        intro p hp
        rcases List.mem_append.mp hp with hp | hp
        · exact (hi.sent p hp).extends hext
        · exact hpush p hp
      have hrouter := hi.router.extends hext fun p hp =>
        List.mem_append_left (pushes (req.exec env sys.db).1) hp
      refine ⟨log', ⟨hr, timely_exec req hc hi.timely, hsent, hrouter, ?_⟩, hext⟩
      intro m n e he
      rcases hnew m n e he with he | he
      · obtain ⟨db, hdb, hs⟩ := hi.committed m n e he
        exact ⟨db, List.mem_cons_of_mem _ hdb, hs⟩
      · exact ⟨_, List.mem_cons_self, he⟩
  | @note events now' hle ht =>
      have htimely : ∀ e ∈ sys.db.deploymentEvents ++ events, e.createdAt ≤ now' := by
        intro e he
        rcases List.mem_append.mp he with he | he
        · exact (hi.timely e he).trans hle
        · exact (ht e he).2
      refine ⟨log, ⟨(hi.routed.later hle).noted events, htimely, hi.sent, hi.router, ?_⟩,
        extends_refl log⟩
      intro m n e he
      obtain ⟨db, hdb, hs⟩ := hi.committed m n e he
      exact ⟨db, List.mem_cons_of_mem _ hdb, hs⟩
  | @read id d a hd ha =>
      obtain ⟨hmem, rfl⟩ := deployment?_eq_some.mp hd
      have hsent : ∀ p ∈ sys.sent ++ [pushOfAllocation d a], Published log p := by
        intro p hp
        rcases List.mem_append.mp hp with hp | hp
        · exact hi.sent p hp
        · rw [List.mem_singleton.mp hp]
          exact hi.routed.published hmem ha
      have hrouter := hi.router.extends (extends_refl log) fun p hp =>
        List.mem_append_left [pushOfAllocation d a] hp
      exact ⟨log, ⟨hi.routed, hi.timely, hsent, hrouter, hi.committed⟩, extends_refl log⟩
  | @checked p config pending c hr hp hb hk hs =>
      obtain ⟨hconfig, hpending⟩ := hi.running hr
      have hpending' : ∀ q ∈ p :: pending, q ∈ sys.sent := by
        intro q hq
        rcases List.mem_cons.mp hq with rfl | hq
        · exact hp
        · exact hpending q hq
      exact ⟨log, ⟨hi.routed, hi.timely, hi.sent, ⟨hconfig, hpending'⟩, hi.committed⟩,
        extends_refl log⟩
  | refused hr hp hno =>
      exact ⟨log, ⟨hi.routed, hi.timely, hi.sent, hi.router, hi.committed⟩, extends_refl log⟩
  | @settle p config pending c hr hb hp =>
      obtain ⟨_, hpending⟩ := hi.running hr
      have hconfig : Sound log c := Or.inr ⟨p, hi.sent p (hpending p hp), hb⟩
      have hpending' : ∀ q ∈ pending.erase p, q ∈ sys.sent := fun q hq =>
        hpending q (List.mem_of_mem_erase hq)
      exact ⟨log, ⟨hi.routed, hi.timely, hi.sent, ⟨hconfig, hpending'⟩, hi.committed⟩,
        extends_refl log⟩
  | restart =>
      have hrouter : (Process.starting none).Sound log sys.sent := by
        intro c g h
        cases h
      exact ⟨log, ⟨hi.routed, hi.timely, hi.sent, hrouter, hi.committed⟩, extends_refl log⟩
  | @fetch f c hr hc =>
      have hrouter : (Process.starting (some (c,
          sys.db.authoritativeRevision s.modelName))).Sound log sys.sent := by
        intro c' g h
        cases h
        exact (fetched hc).2
      exact ⟨log, ⟨hi.routed, hi.timely, hi.sent, hrouter, hi.committed⟩, extends_refl log⟩
  | bootstrap hr =>
      have hrouter : (Process.running s.toRouterConfig []).Sound log sys.sent :=
        ⟨Or.inl rfl, fun q hq => (List.not_mem_nil hq).elim⟩
      exact ⟨log, ⟨hi.routed, hi.timely, hi.sent, hrouter, hi.committed⟩, extends_refl log⟩
  | @synced c g hr =>
      have hstarting := hi.router
      rw [hr] at hstarting
      have hrouter : (Process.running c []).Sound log sys.sent :=
        ⟨Or.inl (hstarting c g rfl), fun q hq => (List.not_mem_nil hq).elim⟩
      exact ⟨log, ⟨hi.routed, hi.timely, hi.sent, hrouter, hi.committed⟩, extends_refl log⟩

/-- **A tick of the reconciler is a run of the system**, whatever the router answers it: the push it
    sent, and the events it wrote. -/
theorem tick_run (s : RouterSettings) {sys : System} {clock : Clock} {now' : Time} (g : Gateway)
    (hc : clock.Within sys.now now') :
    ∃ ls sys', run (System.next s) sys ls = some sys' ∧
      sys'.db = (reconcileRouterState clock sys.db g).db ∧
      sys'.sent = sys.sent ++ (reconcileRouterState clock sys.db g).sent.toList ∧
      sys'.router = sys.router ∧ sys'.now = now' := by
  obtain ⟨events, hdb, hevents⟩ := reconcile_grown clock sys.db g
  have hnote : ∀ sent, System.next s { sys with sent := sent } (.note events now') =
      some ({ sys with sent := sent }.commit (sys.db.noted events) now') := by
    intro sent
    refine if_pos ⟨?_, ?_, ?_⟩
    · obtain ⟨hlt, hle⟩ := hc.second
      exact hlt.le.trans hle
    · intro e he
      exact hc _ (hevents e he).1
    · intro e he
      exact (hevents e he).2
  cases hsent : (reconcileRouterState clock sys.db g).sent with
  | none =>
      refine ⟨[.note events now'], sys.commit (sys.db.noted events) now', ?_, hdb.symm,
        (List.append_nil _).symm, rfl, rfl⟩
      rw [run_cons, hnote sys.sent]
      rfl
  | some p =>
      obtain ⟨d, a, hd, ha, rfl⟩ := reconcile_sent hsent
      refine ⟨[.read (pushOfAllocation d a).deploymentId, .note events now'],
        (sys.send [pushOfAllocation d a]).commit (sys.db.noted events) now', ?_, hdb.symm, rfl,
        rfl, rfl⟩
      have hread : System.next s sys (.read (pushOfAllocation d a).deploymentId) =
          some (sys.send [pushOfAllocation d a]) := by
        simp only [System.next, hd, ha]
      rw [run_cons, hread, Option.bind_some, run_cons]
      exact congrArg (Option.bind · fun s' => run (System.next s) s' [])
        (hnote (sys.sent ++ [pushOfAllocation d a]))

/-- **Every reachable state has such a log.** -/
theorem joint_run {s : RouterSettings} {ls : List Label} {sys : System}
    (hr : run (System.next s) (System.start s) ls = some sys) : ∃ log, Joint log sys := by
  have hstep : ∀ sys l sys', (∃ log, Joint log sys) → System.next s sys l = some sys' →
      ∃ log, Joint log sys' := by
    rintro sys l sys' ⟨log, hi⟩ hn
    obtain ⟨log', h, _⟩ := joint_step hi (step_of_next hn)
    exact ⟨log', h⟩
  exact run_inv hstep ⟨_, joint_start s⟩ hr

/-- **What every step keeps beside the invariant, every run keeps**, and what each step then does,
    each step of the run does. -/
theorem joint_along {s : RouterSettings} {I : System → Prop} {P Q : System → Label → System → Prop}
    (hstep : ∀ {log sys l sys'}, Joint log sys → I sys → P sys l sys' → Step s sys l sys' →
      I sys' ∧ Q sys l sys')
    (h0 : I (System.start s)) {ls : List Label} (hP : Along (System.next s) P (System.start s) ls) :
    Along (System.next s) Q (System.start s) ls ∧
      ∀ sys, run (System.next s) (System.start s) ls = some sys → (∃ log, Joint log sys) ∧ I sys := by
  refine along_run (I := fun sys => (∃ log, Joint log sys) ∧ I sys) hP ⟨⟨_, joint_start s⟩, h0⟩ ?_
  rintro sys l sys' ⟨⟨log, hj⟩, hi⟩ hp hn
  have hs := step_of_next hn
  obtain ⟨log', hj', _⟩ := joint_step hj hs
  obtain ⟨hi', hq⟩ := hstep hj hi hp hs
  exact ⟨⟨⟨log', hj'⟩, hi'⟩, hq⟩

/-! ## 5. A sample rollout and its pushes -/

/-- A create, and the first step up: nothing of what was sent has arrived yet. -/
def sampleRollout (modelName : String) : List Label :=
  [.request (Env.after 0 "d1") (.create (sampleCreate modelName) none) 2,
    .request (Env.after 2 "d2") (.advanceTraffic "d1") 4]

/-- Push number `n` of that rollout, with `w` for the canary. -/
def samplePush (modelName : String) (n : Nat) (w : ℚ) : Push :=
  ⟨modelName, "d1", n, canarySplit "v1" "v2" w⟩

end ModelOps
