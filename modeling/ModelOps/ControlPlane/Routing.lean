/-
  File:      ModelOps/ControlPlane/Routing.lean
  Subject:   The routing generation, the allocations and the authoritative deployment agree.

  Each model is a publication log: whoever writes a split appends it, and its number is the
  generation it was stamped with. `Routed now log db` says that `db` is what is left of `log`:

  * the counter of a model is the length of its log;
  * every allocation is the newest entry of its deployment;
  * the deployment `getAuthoritativeAllocation` picks owns the last entry.

  `routed_exec` -- every request keeps it, for the log it extends; `Reachable.routed` -- so every
  database reached from the empty one has such a log. **`routing_generation`** reads off what that
  says of the tables alone.
-/
import ModelOps.Lib.Publication
import ModelOps.ControlPlane.Schema

namespace ModelOps

open Relational Publication

/-! ## 1. Which deployment is authoritative -/

section Authoritative

variable {db : Db} {d row : Deployment} {split : Option (List TargetWeight)}
  {events : List DeploymentEvent}

/-- An open rollout is the authoritative deployment of its model. -/
theorem authoritative_open (hs : Schema db) (hsh : Shaped db) (hd : d ∈ db.deployments)
    (ho : d.Open) : db.getAuthoritativeAllocation d.modelName = some d := by
  have hroute : d.status.active = true ∨ d.status = .inconclusive := by
    rcases (hsh d hd).running_or_frozen ho with h | h
    · rw [h]
      exact Or.inl rfl
    · exact Or.inr h
  unfold Db.getAuthoritativeAllocation
  rw [latestBy_eq_some hd (by simpa using hroute)]
  intro d' hd' hp hne
  simp only [Bool.and_eq_true, decide_eq_true_eq, Bool.or_eq_true] at hp
  have ho' : d'.Open := by
    rcases hp.2 with h | h
    · exact open_of_active h
    · rw [Deployment.Open, h]
      rfl
  exact absurd (hs.open_unique hd' hd ho' ho hp.1) hne

/-- Without an open rollout it is the one that finished last. -/
theorem authoritative_settled (hd : d ∈ db.deployments) {t : Time} (ht : d.completedAt = some t)
    (hfin : d.status.authoritativeTerminal = true)
    (hclosed : ∀ d' ∈ db.deployments, d'.modelName = d.modelName → ¬d'.Open)
    (hlast : ∀ d' ∈ db.deployments, d' ≠ d → ∀ t', d'.completedAt = some t' → t' < t) :
    db.getAuthoritativeAllocation d.modelName = some d := by
  have hnone : latestBy Deployment.createdAt
      (fun d' => decide (d'.modelName = d.modelName) &&
        (d'.status.active || decide (d'.status = .inconclusive))) db.deployments.rows = none := by
    rw [latestBy_eq_none]
    intro d' hd'
    by_contra hp
    simp only [Bool.not_eq_false, Bool.and_eq_true, decide_eq_true_eq, Bool.or_eq_true] at hp
    refine hclosed d' hd' hp.1 ?_
    rcases hp.2 with h | h
    · exact open_of_active h
    · rw [Deployment.Open, h]
      rfl
  unfold Db.getAuthoritativeAllocation
  rw [hnone]
  refine latestBy_eq_some hd (by simp [hfin]) ?_
  intro d' hd' _ hne
  unfold Db.finishedOrder
  rw [ht, Prod.Lex.toLex_lt_toLex]
  left
  cases hc : d'.completedAt with
  | none => exact WithBot.bot_lt_coe t
  | some t' => exact WithBot.coe_lt_coe.mpr (hlast d' hd' hne t' hc)

theorem authoritative_mem {m : String} (h : db.getAuthoritativeAllocation m = some d) :
    d ∈ db.deployments ∧ d.modelName = m := by
  unfold Db.getAuthoritativeAllocation at h
  split at h
  · rename_i d' h'
    cases h
    obtain ⟨hmem, hp, _⟩ := latestBy_mem h'
    simp only [Bool.and_eq_true, decide_eq_true_eq] at hp
    exact ⟨hmem, hp.1⟩
  · obtain ⟨hmem, hp, _⟩ := latestBy_mem h
    simp only [Bool.and_eq_true, decide_eq_true_eq] at hp
    exact ⟨hmem, hp.1⟩

/-- A row of another model does not enter the choice. -/
theorem authoritative_other {m : String} (hm : m ≠ row.modelName)
    (hold : ∀ d ∈ db.deployments, d.id = row.id → d.modelName = row.modelName) :
    (db.applied row split events).getAuthoritativeAllocation m = db.getAuthoritativeAllocation m := by
  have hput : ∀ {τ : Type} [LinearOrder τ] (f : Deployment → τ) (q : Deployment → Bool),
      latestBy f (fun d => decide (d.modelName = m) && q d) (db.deployments.put row).rows =
        latestBy f (fun d => decide (d.modelName = m) && q d) db.deployments.rows := by
    intro τ _ f q
    refine latestBy_put_other (by simp [hm.symm]) ?_
    intro d hd hid
    simp [hold d hd hid, hm.symm]
  unfold Db.getAuthoritativeAllocation
  rw [applied_deployments, hput _ fun d => d.status.active || decide (d.status = .inconclusive),
    hput _ fun d => d.status.authoritativeTerminal]

end Authoritative

/-! ## 2. The log -/

/-- What was published for each model, oldest first: the deployment and its targets. -/
abbrev Log := String → List (String × List TargetWeight)

/-- The log after a request put `row` and published `split`, if any. -/
def Log.publish (log : Log) (row : Deployment) (split : Option (List TargetWeight)) : Log :=
  fun m =>
    match split with
    | some targets => if m = row.modelName then log m ++ [(row.id, targets)] else log m
    | none => log m

section Publish

variable {log : Log} {row : Deployment} {split : Option (List TargetWeight)}
  {targets : List TargetWeight} {m : String}

theorem publish_self :
    log.publish row (some targets) row.modelName = log row.modelName ++ [(row.id, targets)] :=
  if_pos rfl

theorem publish_ne (h : m ≠ row.modelName) : log.publish row split m = log m := by
  cases split with
  | none => rfl
  | some targets => exact if_neg h

end Publish

/-- `db` is what is left of `log` at time `now`. -/
structure Routed (now : Time) (log : Log) (db : Db) : Prop where
  schema : Schema db
  shaped : Shaped db
  finished : ∀ d ∈ db.deployments, ∀ t, d.completedAt = some t → t ≤ now
  allocated : ∀ id a, db.trafficAllocation? id = some a → ∃ d, db.deployment? id = some d
  generation : ∀ m, db.generation m = (log m).length
  latest : ∀ d ∈ db.deployments, ∀ a, db.trafficAllocation? d.id = some a →
    Latest (log d.modelName) d.id a.revision a.targets
  owner : ∀ m e, (log m).getLast? = some e →
    ∃ d, db.getAuthoritativeAllocation m = some d ∧ d.id = e.1

theorem routed_empty (now : Time) : Routed now (fun _ => []) .empty where
  schema := schema_empty
  shaped := shaped_empty
  finished d hd := (Table.not_mem_empty d hd).elim
  allocated id a h := by cases h
  generation _ := rfl
  latest d hd := (Table.not_mem_empty d hd).elim
  owner m e h := by cases h

/-- A model that has a deployment has published. -/
theorem Routed.log_ne_nil {now : Time} {log : Log} {db : Db} (h : Routed now log db)
    {d : Deployment} (hd : d ∈ db.deployments) : log d.modelName ≠ [] := by
  obtain ⟨a, ha, _⟩ := (h.shaped d hd).split
  have hl := h.latest d hd a ha
  intro he
  have hle := hl.le_length
  have hpos := hl.pos
  rw [he, List.length_nil] at hle
  omega

section Step

variable {env : Env} {db : Db} {req : Request} {reply : Reply} {row : Deployment}
  {split : Option (List TargetWeight)} {bodies : List EventBody} {now now' : Time} {log : Log}

/-- A request that leaves a row closed has just closed it, and published. -/
theorem Effect.closing (h : Effect env db req reply row split bodies) (hc : ¬row.Open) :
    row.completedAt = some env.clock.second ∧ row.status.authoritativeTerminal = true ∧
      ∃ targets, split = some targets := by
  cases h with
  | created p key hacc => exact absurd rfl hc
  | resolved hreq hd ha =>
      refine ⟨rfl, ?_, _, rfl⟩
      cases hreq <;> rfl
  | advanced hd ha hw => exact absurd (open_of_active ha) hc
  | cycled hd ha hn => exact absurd (open_of_active ha) hc
  | frozen hd ha hn => exact absurd rfl hc
  | flagged hreq hd ht hp => exact absurd ht hc

/-- A completion time is an old one or this request's own. -/
theorem Effect.completedAt (h : Effect env db req reply row split bodies) {t : Time}
    (ht : row.completedAt = some t) :
    t = env.clock.second ∨ ∃ d ∈ db.deployments, d.completedAt = some t := by
  cases h with
  | created p key hacc => cases ht
  | resolved hreq hd ha => exact Or.inl (Option.some.inj ht).symm
  | advanced hd ha hw => exact Or.inr ⟨_, (deployment?_eq_some.mp hd).1, ht⟩
  | cycled hd ha hn => exact Or.inr ⟨_, (deployment?_eq_some.mp hd).1, ht⟩
  | frozen hd ha hn => exact Or.inl (Option.some.inj ht).symm
  | flagged hreq hd htm hp => exact Or.inr ⟨_, (deployment?_eq_some.mp hd).1, ht⟩

/-- The counter moves exactly when the log does. -/
theorem generation_publish (hg : ∀ m, db.generation m = (log m).length)
    (events : List DeploymentEvent) (m : String) :
    (db.applied row split events).generation m = (log.publish row split m).length := by
  by_cases hm : m = row.modelName
  · subst hm
    cases split with
    | none => exact hg _
    | some targets =>
        rw [applied_some_generation, if_pos rfl, publish_self, hg, List.length_append]
        rfl
  · rw [applied_generation_ne hm, publish_ne hm, hg]

/-- Every allocation stays the newest entry of its deployment. -/
theorem Effect.latest (h : Effect env db req reply row split bodies) (hi : Routed now log db)
    (events : List DeploymentEvent) : ∀ d ∈ (db.applied row split events).deployments, ∀ a,
      (db.applied row split events).trafficAllocation? d.id = some a →
        Latest (log.publish row split d.modelName) d.id a.revision a.targets := by
  intro d hd a ha
  rcases mem_applied.mp hd with rfl | ⟨hd, hne⟩
  · cases split with
    | some targets =>
        rw [applied_some_trafficAllocation?, if_pos rfl] at ha
        cases ha
        rw [publish_self, hi.generation]
        exact .append_self _ _ _
    | none =>
        -- nothing published: the row is an amended one, with the allocation it had
        rcases h.creates_or_amends with ⟨_, _, _, _, _, hsplit⟩ | ⟨d0, hd0, hamend⟩
        · cases hsplit
        · have hl := hi.latest d0 (deployment?_eq_some.mp hd0).1 a (by
            rw [← hamend.id_eq]
            exact ha)
          rw [hamend.id_eq, hamend.modelName_eq]
          exact hl
  · rw [applied_trafficAllocation?_ne hne] at ha
    have hl := hi.latest d hd a ha
    by_cases hm : d.modelName = row.modelName
    · cases split with
      | none => exact hl
      | some targets =>
          rw [hm] at hl ⊢
          rw [publish_self]
          exact hl.append_other hne targets
    · rw [publish_ne hm]
      exact hl

/-- The authoritative deployment stays the owner of the last entry. -/
theorem Effect.owner (h : Effect env db req reply row split bodies) (hi : Routed now log db)
    (hclock : now < env.clock.second) (events : List DeploymentEvent) : ∀ m e,
      (log.publish row split m).getLast? = some e →
        ∃ d, (db.applied row split events).getAuthoritativeAllocation m = some d ∧ d.id = e.1 := by
  intro m e he
  have hrow : row ∈ (db.applied row split events).deployments := mem_applied.mpr (Or.inl rfl)
  have hschema := h.schema hi.schema events
  have hshaped := h.shaped hi.shaped events
  by_cases hm : m = row.modelName
  · subst hm
    by_cases ho : row.Open
    · refine ⟨row, authoritative_open hschema hshaped hrow ho, ?_⟩
      cases split with
      | some targets =>
          rw [publish_self, List.getLast?_concat] at he
          cases he
          rfl
      | none =>
          rcases h.creates_or_amends with ⟨_, _, _, _, _, hsplit⟩ | ⟨d0, hd0, hamend⟩
          · cases hsplit
          · obtain ⟨d, hauth, hid⟩ := hi.owner _ e he
            have h0 := authoritative_open hi.schema hi.shaped (deployment?_eq_some.mp hd0).1
              hamend.was_open
            rw [← hamend.modelName_eq, hauth] at h0
            cases h0
            rw [hamend.id_eq, hid]
    · obtain ⟨hct, hfin, targets, rfl⟩ := h.closing ho
      rw [publish_self, List.getLast?_concat] at he
      cases he
      refine ⟨row, authoritative_settled hrow hct hfin ?_ ?_, rfl⟩
      · intro d hd hmodel
        rcases mem_applied.mp hd with rfl | ⟨hd, hne⟩
        · exact ho
        · exact h.others_closed hi.schema hd hmodel hne
      · intro d hd hne t ht
        rcases mem_applied.mp hd with rfl | ⟨hd, _⟩
        · exact absurd rfl hne
        · exact Nat.lt_of_le_of_lt (hi.finished d hd t ht) hclock
  · rw [publish_ne hm] at he
    rw [authoritative_other hm fun d hd hid => h.modelName_stays hd hid]
    exact hi.owner m e he

/-- **A committing request keeps the tables and the log together.** -/
theorem Effect.routed (h : Effect env db req reply row split bodies) (hi : Routed now log db)
    (hclock : now < env.clock.second) (hnow : env.clock.second ≤ now')
    (events : List DeploymentEvent) :
    Routed now' (log.publish row split) (db.applied row split events) where
  schema := h.schema hi.schema events
  shaped := h.shaped hi.shaped events
  finished d hd t ht := by
    rcases mem_applied.mp hd with rfl | ⟨hd, _⟩
    · rcases h.completedAt ht with rfl | ⟨d0, hd0, ht0⟩
      · exact hnow
      · exact (hi.finished d0 hd0 t ht0).trans (hclock.le.trans hnow)
    · exact (hi.finished d hd t ht).trans (hclock.le.trans hnow)
  allocated id a ha := by
    rw [applied_deployment?]
    by_cases hid : id = row.id
    · rw [if_pos hid]
      exact ⟨row, rfl⟩
    · rw [if_neg hid]
      rw [applied_trafficAllocation?_ne hid] at ha
      exact hi.allocated id a ha
  generation := generation_publish hi.generation events
  latest := h.latest hi events
  owner := h.owner hi hclock events

end Step

/-! ## 3. Runs -/

/-- The clock's readings lie after `now` and not after `now'`. -/
def Clock.Within (c : Clock) (now now' : Time) : Prop := ∀ t ∈ c.readings, now < t ∧ t ≤ now'

theorem Clock.Within.second {c : Clock} {now now' : Time} (h : c.Within now now') :
    now < c.second ∧ c.second ≤ now' :=
  h c.second (by simp [Clock.readings])

/-- **A request keeps the tables and the log together**, for the log it extends. -/
theorem routed_exec {env : Env} {db : Db} {now now' : Time} {log : Log} (req : Request)
    (hi : Routed now log db) (hc : env.clock.Within now now') :
    ((req.exec env db).2 = db ∧ Routed now' log db) ∨
    ∃ reply row split bodies, Effect env db req reply row split bodies ∧
      (req.exec env db).2 = db.applied row split (stamp env.clock row.id bodies) ∧
      Routed now' (log.publish row split) (req.exec env db).2 := by
  obtain ⟨hlt, hle⟩ := hc.second
  rcases exec_cases env db req with ⟨x, h, _⟩ | ⟨reply, row, split, bodies, heff, h⟩
  · left
    rw [h]
    refine ⟨rfl, { hi with finished := ?_ }⟩
    intro d hd t ht
    exact (hi.finished d hd t ht).trans (hlt.le.trans hle)
  · right
    refine ⟨reply, row, split, bodies, heff, by rw [h], ?_⟩
    rw [h]
    exact heff.routed hi hlt hle _

/-- The databases that sequences of requests reach, each request's clock running after the one
    before it. -/
inductive Reachable : Time → Db → Prop where
  | empty (now : Time) : Reachable now .empty
  | request {now now' : Time} {db : Db} (env : Env) (req : Request) (h : Reachable now db)
      (hc : env.clock.Within now now') : Reachable now' (req.exec env db).2

theorem Reachable.routed {now : Time} {db : Db} (h : Reachable now db) :
    ∃ log, Routed now log db := by
  induction h with
  | empty now => exact ⟨_, routed_empty now⟩
  | request env req _ hc ih =>
      obtain ⟨log, hi⟩ := ih
      rcases routed_exec req hi hc with ⟨he, hr⟩ | ⟨_, row, split, _, _, _, hr⟩
      · exact ⟨log, by rw [he]; exact hr⟩
      · exact ⟨log.publish row split, hr⟩

/-! ## 4. What the tables alone say -/

section Tables

variable {env : Env} {db : Db} {req : Request} {reply : Reply} {row : Deployment}
  {split : Option (List TargetWeight)} {bodies : List EventBody} {now now' : Time} {log : Log}

/-- The canary's share of a split. -/
theorem canaryWeight_of_split {d : Deployment} {a : TrafficAllocation} {w : ℚ}
    (ha : db.trafficAllocation? d.id = some a)
    (ht : a.targets = canarySplit d.stableVersion d.canaryVersion w)
    (hne : d.stableVersion ≠ d.canaryVersion) : db.canaryWeight d = Decimal.round 6 w := by
  unfold Db.canaryWeight currentCanaryWeight
  rw [ha]
  simp [ht, canarySplit, hne]

/-- A request that publishes changes the targets of its deployment. -/
theorem Effect.resplits {targets : List TargetWeight}
    (h : Effect env db req reply row (some targets) bodies) (hi : Routed now log db) :
    db.targetsOf row.id ≠ some targets := by
  have hsplit : ∀ {d : Deployment}, db.deployment? d.id = some d → d.Open → ∃ a w,
      db.trafficAllocation? d.id = some a ∧
        a.targets = canarySplit d.stableVersion d.canaryVersion w := by
    intro d hd ho
    have hsh := hi.shaped d (deployment?_eq_some.mp hd).1
    obtain ⟨a, ha, hf⟩ := hsh.split
    rcases hsh.running_or_frozen ho with hs | hs
    · simp only [Fits, hs] at hf
      obtain ⟨w, _, _, ht⟩ := hf
      exact ⟨a, w, ha, ht⟩
    · simp only [Fits, hs] at hf
      obtain ⟨w, _, _, ht⟩ := hf
      exact ⟨a, w, ha, ht⟩
  intro he
  cases h with
  | created p key hacc =>
      obtain ⟨a, ha, _⟩ := Option.map_eq_some_iff.mp he
      obtain ⟨d, hd⟩ := hi.allocated _ a ha
      exact hacc.absent hd
  | @resolved _ r d _ hreq hd hadm =>
      obtain ⟨a, w, ha, ht⟩ := hsplit hd (open_of_admits hadm)
      -- two targets before, one after
      have he' : some a.targets = some (resolvedTargets r d) := by
        rw [← he]
        exact (congrArg (Option.map TrafficAllocation.targets) ha).symm
      rw [ht] at he'
      have hlen := congrArg List.length (Option.some.inj he')
      cases hlen
  | @advanced d w hd hact hw =>
      obtain ⟨a, _, ha, _⟩ := hsplit hd (open_of_active hact)
      obtain ⟨hmem, hlt⟩ := nextStage_mem hw
      have he' : some a.targets = some (advancedTargets d w) := by
        rw [← he]
        exact (congrArg (Option.map TrafficAllocation.targets) ha).symm
      -- the stage reached lies strictly above the share there was
      rw [canaryWeight_of_split ha (Option.some.inj he')
        (hi.shaped d (deployment?_eq_some.mp hd).1).versions_ne, (stage_bounds w hmem).2.2] at hlt
      have hpos : (0 : ℚ) < 1 / 10 ^ 9 := by decide +kernel
      exact absurd hlt (by linarith)

/-- Some deployment of the model serves other targets than before. -/
def Resplit (db db' : Db) (m : String) : Prop :=
  ∃ d ∈ db'.deployments, d.modelName = m ∧ db'.targetsOf d.id ≠ db.targetsOf d.id

/-- **A request moves a model's counter by one exactly when it changes targets of that model**, and
    leaves the model's allocations alone where it does not. -/
theorem resplit_exec (hi : Routed now log db) (hc : env.clock.Within now now') (m : String) :
    (Resplit db (req.exec env db).2 m ∧
      (req.exec env db).2.generation m = db.generation m + 1) ∨
    ((∀ d ∈ (req.exec env db).2.deployments, d.modelName = m →
        (req.exec env db).2.trafficAllocation? d.id = db.trafficAllocation? d.id) ∧
      (req.exec env db).2.generation m = db.generation m) := by
  rcases routed_exec req hi hc with ⟨he, _⟩ | ⟨_, row, split, bodies, heff, he, _⟩
  · right
    rw [he]
    exact ⟨fun _ _ _ => rfl, rfl⟩
  · rw [he]
    have hother : ∀ d : Deployment, d.modelName ≠ row.modelName →
        d ∈ (db.applied row split (stamp env.clock row.id bodies)).deployments →
        d.id ≠ row.id := by
      intro d hne hd hid
      rcases mem_applied.mp hd with rfl | ⟨_, h⟩
      · exact hne rfl
      · exact h hid
    by_cases hm : m = row.modelName
    · subst hm
      cases split with
      | none => exact Or.inr ⟨fun _ _ _ => rfl, rfl⟩
      | some targets =>
          left
          refine ⟨⟨row, mem_applied.mpr (Or.inl rfl), rfl, ?_⟩, ?_⟩
          · rw [show (db.applied row (some targets) _).targetsOf row.id = some targets by
              simp [Db.targetsOf, applied_some_trafficAllocation?]]
            exact (heff.resplits hi).symm
          · rw [applied_some_generation, if_pos rfl]
    · right
      refine ⟨fun d hd hdm => ?_, applied_generation_ne hm⟩
      exact applied_trafficAllocation?_ne (hother d (hdm ▸ hm) hd)

/-- The authoritative deployment of a model holds its newest split, under its generation. -/
theorem Routed.authoritative (hi : Routed now log db) {d : Deployment} (hd : d ∈ db.deployments) :
    ∃ d0 a, db.getAuthoritativeAllocation d.modelName = some d0 ∧
      d0 ∈ db.deployments ∧ d0.modelName = d.modelName ∧
      db.trafficAllocation? d0.id = some a ∧ a.revision = db.generation d.modelName ∧
      (log d.modelName).getLast? = some (d0.id, a.targets) := by
  have hne := hi.log_ne_nil hd
  obtain ⟨e, he⟩ : ∃ e, (log d.modelName).getLast? = some e :=
    ⟨_, List.getLast?_eq_some_getLast hne⟩
  obtain ⟨d0, hauth, hid⟩ := hi.owner _ e he
  obtain ⟨hmem, hmodel⟩ := authoritative_mem hauth
  obtain ⟨a, ha, _⟩ := (hi.shaped d0 hmem).split
  have hl := hi.latest d0 hmem a ha
  rw [hmodel] at hl
  have he' : (log d.modelName).getLast? = some (d0.id, e.2) := by rw [he, hid]
  obtain ⟨hrev, ht⟩ := hl.of_last he'
  exact ⟨d0, a, hauth, hmem, hmodel, ha, by rw [hrev, hi.generation], by rw [he', ht]⟩

/-- Any other deployment of the model holds an older split. -/
theorem Routed.older (hi : Routed now log db) {d d0 : Deployment} {a : TrafficAllocation}
    {targets : List TargetWeight} (hd : d ∈ db.deployments)
    (hlast : (log d.modelName).getLast? = some (d0.id, targets)) (hne : d.id ≠ d0.id)
    (ha : db.trafficAllocation? d.id = some a) : a.revision < db.generation d.modelName := by
  rw [hi.generation]
  exact (hi.latest d hd a ha).lt_of_ne_last hlast hne

end Tables

/-- **The routing generation**: in every reachable database the authoritative deployment of a model
    holds its newest allocation, under the model's generation, every other allocation of the model
    is older, no two share a revision, and a request moves the generation exactly when it changes
    targets. -/
theorem routing_generation {now : Time} {db : Db} (h : Reachable now db) :
    (∀ m, (∃ d ∈ db.deployments, d.modelName = m) →
      ∃ d a, db.getAuthoritativeAllocation m = some d ∧ db.trafficAllocation? d.id = some a ∧
        a.revision = db.generation m ∧
        ∀ d' ∈ db.deployments, d'.modelName = m → d'.id ≠ d.id →
          ∀ a', db.trafficAllocation? d'.id = some a' → a'.revision < a.revision) ∧
    (∀ d ∈ db.deployments, ∀ d' ∈ db.deployments, d.modelName = d'.modelName → d.id ≠ d'.id →
      ∀ a a', db.trafficAllocation? d.id = some a → db.trafficAllocation? d'.id = some a' →
        a.revision ≠ a'.revision) ∧
    ∀ (env : Env) (req : Request) (now' : Time), env.clock.Within now now' → ∀ m,
      (Resplit db (req.exec env db).2 m ∧
        (req.exec env db).2.generation m = db.generation m + 1) ∨
      ((∀ d ∈ (req.exec env db).2.deployments, d.modelName = m →
          (req.exec env db).2.trafficAllocation? d.id = db.trafficAllocation? d.id) ∧
        (req.exec env db).2.generation m = db.generation m) := by
  obtain ⟨log, hi⟩ := h.routed
  refine ⟨?_, ?_, ?_⟩
  · intro m hm
    obtain ⟨d, hd, rfl⟩ := hm
    obtain ⟨d0, a, hauth, _, _, ha, hrev, hlast⟩ := hi.authoritative hd
    refine ⟨d0, a, hauth, ha, hrev, ?_⟩
    intro d' hd' hm' hne a' ha'
    rw [← hm'] at hlast
    rw [hrev, ← hm']
    exact hi.older hd' hlast hne ha'
  · intro d hd d' hd' hm hne a a' ha ha' he
    have hl := hi.latest d hd a ha
    have hl' := hi.latest d' hd' a' ha'
    rw [hm] at hl
    have h1 := hl.entry
    rw [he, hl'.entry] at h1
    exact hne (congrArg Prod.fst (Option.some.inj h1)).symm
  · intro env req now' hc m
    exact resplit_exec hi hc m

/-- Two rollouts of one model: `d1` is promoted, then `d2` is created. -/
def sampleSuccession : List (Env × Request) :=
  [(Env.after 0 "d1", .create (sampleCreate "fraud-model") none),
    (Env.after 10 "unused", .promote "d1" .manual),
    (Env.after 20 "d2", .create (sampleCreate "fraud-model") none)]

/-- The database after them. -/
def sampleSucceeded : Db :=
  sampleSuccession.foldl (fun db x => (x.2.exec x.1 db).2) .empty

theorem reachable_sample : Reachable 22 sampleSucceeded := by
  unfold sampleSucceeded sampleSuccession
  refine .request (Env.after 20 "d2") (.create (sampleCreate "fraud-model") none) (?_ : Reachable 12 _) ?_
  · refine .request (Env.after 10 "unused") (.promote "d1" .manual) (?_ : Reachable 2 _) ?_
    · refine .request (Env.after 0 "d1") (.create (sampleCreate "fraud-model") none) (.empty 0) ?_
      unfold Clock.Within
      decide
    · unfold Clock.Within
      decide
  · unfold Clock.Within
    decide

/-- The newer of the two is authoritative, at the third generation, and the older one lags behind. -/
theorem routing_generation_sample : ∃ d a,
    sampleSucceeded.getAuthoritativeAllocation "fraud-model" = some d ∧ d.id = "d2" ∧
      sampleSucceeded.trafficAllocation? d.id = some a ∧ a.revision = 3 ∧
      ∃ a', sampleSucceeded.trafficAllocation? "d1" = some a' ∧ a'.revision < a.revision := by
  have hrow : ∀ id ∈ ["d1", "d2"], ∃ d ∈ sampleSucceeded.deployments,
      d.id = id ∧ d.modelName = "fraud-model" := by decide +kernel
  obtain ⟨d2, hmem2, _, hm2⟩ := hrow "d2" (by simp)
  obtain ⟨d, a, hd, ha, hrev, hother⟩ :=
    (routing_generation reachable_sample).1 "fraud-model" ⟨d2, hmem2, hm2⟩
  have hid : (sampleSucceeded.getAuthoritativeAllocation "fraud-model").map Deployment.id =
      some "d2" := by decide +kernel
  have hd2 : d.id = "d2" := by
    rw [hd] at hid
    exact Option.some.inj hid
  obtain ⟨d1, hmem1, hid1, hm1⟩ := hrow "d1" (by simp)
  have hsome : (sampleSucceeded.trafficAllocation? "d1").isSome = true := by decide +kernel
  obtain ⟨a', ha'⟩ := Option.isSome_iff_exists.mp hsome
  refine ⟨d, a, hd, hd2, ha, hrev.trans (by decide +kernel), a', ha', ?_⟩
  refine hother d1 hmem1 hm1 ?_ a' (hid1 ▸ ha')
  rw [hid1, hd2]
  decide

end ModelOps
