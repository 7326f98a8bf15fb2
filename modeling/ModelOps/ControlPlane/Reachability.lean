/-
  File:      ModelOps/ControlPlane/Reachability.lean
  Subject:   The events about the router's reachability, over any number of reconcile ticks.

  To a deployment a tick is a list of signals (`signals`): nothing, "reachable" from a GET that was
  answered, "unreachable" from one that was not, or "reachable" and then "unreachable" where the GET was
  answered and the PUT was not accepted. `recordRouterReachabilityChange` writes an event at every
  change of the signal, so the events of a run are its changes (`ticks_seen`).

  * **`steady_once_iff`** -- over ticks whose GETs are all answered or all not, no deployment gets more
    than one event exactly if none is left rejected before its next tick;
  * `steady_twice` -- a router that answers and rejects is reported as down and up at every tick.
-/
import ModelOps.Lib.Signal
import ModelOps.ControlPlane.Reconcile

namespace ModelOps

open Relational Signal

/-! ## 1. The signals of a tick -/

/-- What the deployment's history last said of the router, and how often it spoke. -/
def Db.seen (db : Db) (id : String) : Seen Bool where
  last := !db.wasUnreachable id
  changes := db.deploymentEvents.countP fun e =>
    decide (e.deploymentId = id) && e.body.reachability

/-- What the tick compares: the router's config, and the authoritative allocation of its model. -/
def Gateway.compared (g : Gateway) (db : Db) :
    Option (RouterConfig × Deployment × TrafficAllocation) :=
  g.getObservedConfig.bind fun observed =>
    if observed.modelName = "" then none
    else (db.getAuthoritativeAllocation observed.modelName).bind fun d =>
      (db.trafficAllocation? d.id).map fun a => (observed, d, a)

/-- The push is not accepted, and not for its revision. -/
def Gateway.refuses (g : Gateway) (p : Push) : Bool :=
  match g.pushTrafficAllocation p with
  | .error .routerUpdate => true
  | .error .staleRevision => false
  | .ok () => false

/-- The deployment is the authoritative one of the model the router reports. -/
def Reports (db : Db) (g : Gateway) (id : String) : Prop :=
  ∃ x ∈ g.compared db, x.2.1.id = id

/-- The router reports another allocation of the deployment's model, and the push is not accepted. -/
def Rejects (db : Db) (g : Gateway) (id : String) : Prop :=
  ∃ x ∈ g.compared db, x.2.1.id = id ∧ ¬x.1.InSync x.2.1 x.2.2 ∧
    g.refuses (pushOfAllocation x.2.1 x.2.2) = true

instance (db : Db) (g : Gateway) (id : String) : Decidable (Reports db g id) :=
  inferInstanceAs (Decidable (∃ _ ∈ g.compared db, _))

instance (db : Db) (g : Gateway) (id : String) : Decidable (Rejects db g id) :=
  inferInstanceAs (Decidable (∃ _ ∈ g.compared db, _))

/-- What a tick tells the deployment, in order. -/
def signals (db : Db) (g : Gateway) (id : String) : List Bool :=
  match g.getObservedConfig with
  | none => (db.allAuthoritativeDeployments.filter fun d => decide (d.id = id)).map fun _ => false
  | some _ =>
      (if Reports db g id then [true] else []) ++ if Rejects db g id then [false] else []

/-! ## 2. One tick -/

section Tick

variable {db : Db} {g : Gateway} {id id' : String} {now now' : Time} {clock : Clock} {b : Bool}

/-- All that was said of the router to the deployment was said by `now`. -/
def SaidBy (db : Db) (id : String) (now : Time) : Prop :=
  ∀ e ∈ db.deploymentEvents, e.deploymentId = id → e.body.reachability = true → e.createdAt ≤ now

/-- Events about something else, or for somebody else, go unseen. -/
theorem noted_seen {e : DeploymentEvent} (h : e.deploymentId = id → e.body.reachability = false) :
    (db.noted [e]).seen id = db.seen id := by
  have hp : (decide (e.deploymentId = id) && e.body.reachability) = false := by
    by_cases hid : e.deploymentId = id
    · rw [h hid, Bool.and_false]
    · rw [decide_eq_false hid, Bool.false_and]
  unfold Db.seen Db.wasUnreachable
  rw [noted_events, latestBy_append_other (p := fun e : DeploymentEvent =>
    decide (e.deploymentId = id) && e.body.reachability) hp, List.countP_append]
  simp [hp]

theorem record_seen_ne (h : id' ≠ id) :
    (recordRouterReachabilityChange now db id' b).seen id = db.seen id := by
  rcases record_cases now db id' b with he | he
  · rw [he]
  · rw [he]
    exact noted_seen fun hid => absurd hid h

/-- **A record is one value of the signal**: silent where it is the last one, else an event, which has
    to be newer than those it answers to. -/
theorem record_seen_newer (h : b = (db.seen id).last ∨ ∀ e ∈ db.deploymentEvents,
      e.deploymentId = id → e.body.reachability = true → e.createdAt < now) :
    (recordRouterReachabilityChange now db id b).seen id = (db.seen id).see b := by
  unfold recordRouterReachabilityChange
  by_cases hb : b = db.wasUnreachable id
  · -- news: the event is the newest one
    have hlast : b ≠ (db.seen id).last := by
      show b ≠ !db.wasUnreachable id
      rw [← hb]
      cases b <;> decide
    have hnewest := h.resolve_left hlast
    rw [if_neg (not_not.mpr hb), see_other hlast]
    have hbody : (reachabilityBody b).reachability = true := by cases b <;> rfl
    have hunreachable : decide (reachabilityBody b = .routerUnreachable) = !b := by cases b <;> rfl
    unfold Db.seen Db.wasUnreachable
    rw [noted_events, latestBy_append_newest (by simp [hbody])]
    · simp [List.countP_append, hbody, hunreachable]
    · intro e he hp
      simp only [Bool.and_eq_true, decide_eq_true_eq] at hp
      exact hnewest e he hp.1 hp.2
  · have hlast : b = (db.seen id).last := by
      show b = !db.wasUnreachable id
      revert hb
      cases b <;> cases db.wasUnreachable id <;> decide
    rw [if_pos hb, see_same hlast]

theorem record_seen (h : b = (db.seen id).last ∨ ∃ t, SaidBy db id t ∧ t < now) :
    (recordRouterReachabilityChange now db id b).seen id = (db.seen id).see b := by
  refine record_seen_newer (h.imp_right ?_)
  rintro ⟨t, hsaid, ht⟩ e he hid hr
  exact Nat.lt_of_le_of_lt (hsaid e he hid hr) ht

theorem record_saidBy (h : SaidBy db id now) (hne : id' ≠ id) (t : Time) :
    SaidBy (recordRouterReachabilityChange t db id' b) id now := by
  rcases record_cases t db id' b with he | he
  · rw [he]
    exact h
  · rw [he]
    intro e hmem hid hr
    rcases List.mem_append.mp hmem with hmem | hmem
    · exact h e hmem hid hr
    · rw [List.mem_singleton.mp hmem] at hid
      exact absurd hid hne

/-- A router that does not answer, told to the deployments of a list. -/
theorem mark_seen (hc : clock.Within now now') (l : List (Deployment × Nat)) {db : Db}
    (h : (db.seen id).last = false ∨ SaidBy db id now) :
    (l.foldl (fun db d => recordRouterReachabilityChange (clock.event d.2) db d.1.id false) db).seen
        id =
      (db.seen id).all ((l.filter fun d => decide (d.1.id = id)).map fun _ => false) := by
  induction l generalizing db with
  | nil => rfl
  | cons d l ih =>
      rw [List.foldl_cons]
      by_cases hid : d.1.id = id
      · have hrecord : (recordRouterReachabilityChange (clock.event d.2) db d.1.id false).seen id =
            (db.seen id).see false := by
          rw [hid]
          refine record_seen ?_
          rcases h with h | h
          · exact Or.inl h.symm
          · exact Or.inr ⟨now, h, (hc _ (clock_event_mem clock d.2)).1⟩
        rw [ih (Or.inl (by rw [hrecord, see_last])), hrecord,
          List.filter_cons_of_pos (by simpa using hid)]
        rfl
      · have hrecord : (recordRouterReachabilityChange (clock.event d.2) db d.1.id false).seen id =
            db.seen id := record_seen_ne hid
        have hkeep : (db.seen id).last = false ∨
            SaidBy (recordRouterReachabilityChange (clock.event d.2) db d.1.id false) id now :=
          h.imp (fun h => h) fun h => record_saidBy h hid _
        rw [ih (by rw [hrecord]; exact hkeep), hrecord,
          List.filter_cons_of_neg (by simpa using hid)]

/-- A tick that compares nothing writes nothing. -/
theorem reconcile_uncompared {observed : RouterConfig} (hg : g.getObservedConfig = some observed)
    (h : g.compared db = none) : (reconcileRouterState clock db g).db = db := by
  unfold Gateway.compared at h
  rw [hg, Option.bind_some] at h
  unfold reconcileRouterState
  simp only [hg]
  by_cases hm : observed.modelName = ""
  · rw [if_pos hm]
  · rw [if_neg hm] at h ⊢
    cases hd : db.getAuthoritativeAllocation observed.modelName with
    | none => rfl
    | some d =>
        rw [hd, Option.bind_some, Option.map_eq_none_iff] at h
        simp only [h]

theorem compared_eq_some {observed : RouterConfig} {d : Deployment} {a : TrafficAllocation}
    (h : g.compared db = some (observed, d, a)) :
    g.getObservedConfig = some observed ∧ observed.modelName ≠ "" ∧
      db.getAuthoritativeAllocation observed.modelName = some d ∧
      db.trafficAllocation? d.id = some a := by
  obtain ⟨o, hg, h⟩ := Option.bind_eq_some_iff.mp h
  by_cases hm : o.modelName = ""
  · rw [if_pos hm] at h
    cases h
  · rw [if_neg hm] at h
    obtain ⟨d', hd, h⟩ := Option.bind_eq_some_iff.mp h
    obtain ⟨a', ha, h⟩ := Option.map_eq_some_iff.mp h
    cases h
    exact ⟨hg, hm, hd, ha⟩

/-- The end of a tick: one more value where the push was refused. -/
theorem finish_seen {observed : RouterConfig} {d : Deployment} {a : TrafficAllocation}
    (hsaid : ∃ t, SaidBy db d.id t ∧ t < clock.event 1) :
    ((finishTick clock db observed d a (g.pushTrafficAllocation (pushOfAllocation d a))).2.seen d.id) =
      (db.seen d.id).all (if g.refuses (pushOfAllocation d a) then [false] else []) := by
  unfold Gateway.refuses finishTick
  cases g.pushTrafficAllocation (pushOfAllocation d a) with
  | ok u => exact noted_seen fun _ => rfl
  | error e =>
      cases e with
      | staleRevision => rfl
      | routerUpdate => exact record_seen (Or.inr hsaid)

theorem finish_seen_ne {observed : RouterConfig} {d : Deployment} {a : TrafficAllocation}
    (h : d.id ≠ id) (answer : Except PushError Unit) :
    ((finishTick clock db observed d a answer).2.seen id) = db.seen id := by
  unfold finishTick
  cases answer with
  | ok u => exact noted_seen fun hid => absurd hid h
  | error e =>
      cases e with
      | staleRevision => rfl
      | routerUpdate => exact record_seen_ne h

/-- A record leaves what was said by its time. -/
theorem saidBy_record (h : SaidBy db id now) (hle : now ≤ now') :
    SaidBy (recordRouterReachabilityChange now' db id' b) id now' := by
  rcases record_cases now' db id' b with he | he
  · rw [he]
    exact fun e hmem hid hr => Nat.le_trans (h e hmem hid hr) hle
  · rw [he]
    intro e hmem hid hr
    rcases List.mem_append.mp hmem with hmem | hmem
    · exact Nat.le_trans (h e hmem hid hr) hle
    · rw [List.mem_singleton.mp hmem]

/-- **What a tick adds to a deployment's history is its signals.** -/
theorem tick_seen (hsaid : SaidBy db id now) (hc : clock.Within now now')
    (horder : clock.event 0 < clock.event 1) (g : Gateway) :
    (reconcileRouterState clock db g).db.seen id = (db.seen id).all (signals db g id) := by
  unfold signals
  cases hg : g.getObservedConfig with
  | none =>
      have hdb : (reconcileRouterState clock db g).db = db.markUnreachable clock := by
        unfold reconcileRouterState
        simp only [hg]
      have hids : (db.allAuthoritativeDeployments.zipIdx.filter fun d => decide (d.1.id = id)).map
            (fun _ => false) =
          (db.allAuthoritativeDeployments.filter fun d => decide (d.id = id)).map fun _ => false := by
        conv_rhs => rw [← List.zipIdx_map_fst 0 db.allAuthoritativeDeployments, List.filter_map,
          List.map_map]
        rfl
      rw [hdb]
      unfold Db.markUnreachable
      rw [mark_seen hc _ (Or.inr hsaid), hids]
  | some observed =>
      dsimp only
      cases hx : g.compared db with
      | none =>
          have hno : ¬Reports db g id := by simp [Reports, hx]
          have hno' : ¬Rejects db g id := by simp [Rejects, hx]
          rw [reconcile_uncompared hg hx, if_neg hno, if_neg hno']
          rfl
      | some x =>
          obtain ⟨o, d, a⟩ := x
          obtain ⟨ho, hm, hd, ha⟩ := compared_eq_some hx
          rw [reconcile_authoritative ho hm hd ha]
          have h0 := (hc _ (clock_event_mem clock 0)).1
          by_cases hid : d.id = id
          · subst hid
            have hreports : Reports db g d.id := ⟨_, hx, rfl⟩
            have hget : (recordRouterReachabilityChange (clock.event 0) db d.id true).seen d.id =
                (db.seen d.id).see true := record_seen (Or.inr ⟨now, hsaid, h0⟩)
            rw [if_pos hreports]
            by_cases hsync : o.InSync d a
            · have hno : ¬Rejects db g d.id := by simp [Rejects, hx, hsync]
              simp only [if_pos hsync, if_neg hno]
              exact hget
            · have hrejects : Rejects db g d.id ↔ g.refuses (pushOfAllocation d a) = true := by
                simp [Rejects, hx, hsync]
              simp only [if_neg hsync, hrejects]
              rw [finish_seen ⟨clock.event 0, saidBy_record hsaid h0.le, horder⟩, hget]
              rfl
          · have hno : ¬Reports db g id := by simp [Reports, hx, hid]
            have hno' : ¬Rejects db g id := by simp [Rejects, hx, hid]
            rw [if_neg hno, if_neg hno']
            have hget : (recordRouterReachabilityChange (clock.event 0) db d.id true).seen id =
                db.seen id := record_seen_ne hid
            dsimp only
            split
            · exact hget
            · rw [finish_seen_ne hid, hget]
              rfl

end Tick

/-! ## 3. A run of ticks -/

/-- A call of the reconcile endpoint: its clock, a time it is over by, and what the router answers. -/
structure TickCall where
  clock : Clock
  now' : Time
  gateway : Gateway

/-- The calls follow one another, and so do the readings of each. -/
def InTime : Time → List TickCall → Prop
  | _, [] => True
  | now, t :: ts =>
      t.clock.Within now t.now' ∧ t.clock.event 0 < t.clock.event 1 ∧ InTime t.now' ts

/-- The tables after the calls. -/
def reconcileAll (db : Db) (ts : List TickCall) : Db :=
  ts.foldl (fun db t => (reconcileRouterState t.clock db t.gateway).db) db

section Run

variable {db : Db} {g : Gateway} {id : String} {now : Time} {ts : List TickCall}

/-- Ticks leave alone what ticks compare. -/
theorem signals_noted (events : List DeploymentEvent) :
    signals (db.noted events) g id = signals db g id := rfl

/-- **The events of a run are the changes of its signals.** -/
theorem ticks_seen (hdb : ∀ e ∈ db.deploymentEvents, e.createdAt ≤ now) (htime : InTime now ts) :
    (reconcileAll db ts).seen id =
      (db.seen id).all (ts.flatMap fun t => signals db t.gateway id) := by
  induction ts generalizing db now with
  | nil => rfl
  | cons t ts ih =>
      obtain ⟨hc, horder, htime⟩ := htime
      obtain ⟨events, hgrown, hevents⟩ := reconcile_grown t.clock db t.gateway
      have hfirst : (reconcileRouterState t.clock db t.gateway).db.seen id = _ :=
        tick_seen (fun e he _ _ => hdb e he) hc horder t.gateway
      have hnow : now ≤ t.now' := by
        obtain ⟨hlt, hle⟩ := hc _ (clock_event_mem t.clock 0)
        exact Nat.le_of_lt (Nat.lt_of_lt_of_le hlt hle)
      have hlater : ∀ e ∈ (db.noted events).deploymentEvents, e.createdAt ≤ t.now' := by
        intro e he
        rcases List.mem_append.mp he with he | he
        · exact (hdb e he).trans hnow
        · exact (hc _ (hevents e he).1).2
      have hrest := ih hlater htime
      rw [List.flatMap_cons, all_append, ← hfirst, hgrown]
      simp only [signals_noted] at hrest
      rw [← hrest, ← hgrown]
      rfl

/-! ## 4. A steady router -/

/-- The GETs of all calls are answered, or none is. -/
def SteadyGet (ts : List TickCall) : Prop :=
  (∀ t ∈ ts, t.gateway.getObservedConfig = none) ∨
    ∀ t ∈ ts, t.gateway.getObservedConfig.isSome = true

/-- A deployment whose push is refused was not unreachable before, and no later call finds the router
    reporting its model. -/
def RefusedLast (db : Db) (ts : List TickCall) (id : String) : Prop :=
  (∀ t ∈ ts, Rejects db t.gateway id → db.wasUnreachable id = false) ∧
    ts.Pairwise fun t t' => Rejects db t.gateway id → ¬Reports db t'.gateway id

instance (ts : List TickCall) : Decidable (SteadyGet ts) := inferInstanceAs (Decidable (_ ∨ _))

instance (db : Db) (ts : List TickCall) (id : String) : Decidable (RefusedLast db ts id) :=
  inferInstanceAs (Decidable (_ ∧ _))

/-- Where nothing of the deployment is refused. -/
theorem refusedLast_of_accepted {ts : List TickCall} (h : ∀ t ∈ ts, ¬Rejects db t.gateway id) :
    RefusedLast db ts id :=
  ⟨fun t ht hr => absurd hr (h t ht),
    List.pairwise_of_forall_mem_list fun t ht _ _ hr => absurd hr (h t ht)⟩

theorem signals_answered (h : g.getObservedConfig.isSome = true) :
    signals db g id =
      (if Reports db g id then [true] else []) ++ if Rejects db g id then [false] else [] := by
  obtain ⟨observed, ho⟩ := Option.isSome_iff_exists.mp h
  unfold signals
  rw [ho]

theorem reports_of_rejects (h : Rejects db g id) : Reports db g id := by
  obtain ⟨x, hx, hid, _⟩ := h
  exact ⟨x, hx, hid⟩

/-- The signals of answered calls: "reachable" for each that reports the deployment's model, and
    "unreachable" for each that refuses its push. -/
theorem mem_signals (hget : ∀ t ∈ ts, t.gateway.getObservedConfig.isSome = true) (b : Bool) :
    (b ∈ ts.flatMap fun t => signals db t.gateway id) ↔
      (b = true ∧ ∃ t ∈ ts, Reports db t.gateway id) ∨
        (b = false ∧ ∃ t ∈ ts, Rejects db t.gateway id) := by
  rw [List.mem_flatMap]
  constructor
  · rintro ⟨t, ht, hb⟩
    rw [signals_answered (hget t ht)] at hb
    rcases List.mem_append.mp hb with hb | hb
    · split at hb
      · rename_i hr
        exact Or.inl ⟨List.mem_singleton.mp hb, t, ht, hr⟩
      · cases hb
    · split at hb
      · rename_i hr
        exact Or.inr ⟨List.mem_singleton.mp hb, t, ht, hr⟩
      · cases hb
  · rintro (⟨rfl, t, ht, hr⟩ | ⟨rfl, t, ht, hr⟩)
    · refine ⟨t, ht, ?_⟩
      rw [signals_answered (hget t ht), if_pos hr]
      exact List.mem_append_left _ (List.mem_singleton.mpr rfl)
    · refine ⟨t, ht, ?_⟩
      rw [signals_answered (hget t ht), if_pos hr]
      exact List.mem_append_right _ (List.mem_singleton.mpr rfl)

theorem all_up_iff (hget : ∀ t ∈ ts, t.gateway.getObservedConfig.isSome = true) :
    (∀ b ∈ ts.flatMap fun t => signals db t.gateway id, b = true) ↔
      ∀ t ∈ ts, ¬Rejects db t.gateway id := by
  constructor
  · intro h t ht hr
    have := h false ((mem_signals hget false).mpr (Or.inr ⟨rfl, t, ht, hr⟩))
    cases this
  · intro h b hb
    rcases (mem_signals hget b).mp hb with ⟨hb, _⟩ | ⟨_, t, ht, hr⟩
    · exact hb
    · exact absurd hr (h t ht)

theorem all_down_iff (hget : ∀ t ∈ ts, t.gateway.getObservedConfig.isSome = true) :
    (∀ b ∈ ts.flatMap fun t => signals db t.gateway id, b = false) ↔
      ∀ t ∈ ts, ¬Reports db t.gateway id := by
  constructor
  · intro h t ht hr
    have := h true ((mem_signals hget true).mpr (Or.inl ⟨rfl, t, ht, hr⟩))
    cases this
  · intro h b hb
    rcases (mem_signals hget b).mp hb with ⟨_, t, ht, hr⟩ | ⟨_, t, ht, hr⟩
    · exact absurd hr (h t ht)
    · exact absurd (reports_of_rejects hr) (h t ht)

/-- **The changes of answered calls**: at most one, exactly if a refused push follows a reachable router
    and is the last the deployment hears. -/
theorem changes_once {s : Seen Bool}
    (hget : ∀ t ∈ ts, t.gateway.getObservedConfig.isSome = true) :
    (s.all (ts.flatMap fun t => signals db t.gateway id)).changes ≤ s.changes + 1 ↔
      (∀ t ∈ ts, Rejects db t.gateway id → s.last = true) ∧
        ts.Pairwise fun t t' => Rejects db t.gateway id → ¬Reports db t'.gateway id := by
  induction ts generalizing s with
  | nil => simp
  | cons t ts ih =>
      have hrest : ∀ t ∈ ts, t.gateway.getObservedConfig.isSome = true := fun t' ht' =>
        hget t' (List.mem_cons_of_mem t ht')
      rw [List.flatMap_cons, all_append, signals_answered (hget t List.mem_cons_self),
        List.pairwise_cons, List.forall_mem_cons]
      by_cases hreports : Reports db t.gateway id
      · by_cases hrejects : Rejects db t.gateway id
        · rw [if_pos hreports, if_pos hrejects]
          have hdown : s.all ([true] ++ [false]) = ⟨false, (s.see true).changes + 1⟩ :=
            see_other (by rw [see_last]; decide)
          rw [hdown]
          cases hlast : s.last with
          | false =>
              -- up, which is news, and down again
              have hmono := all_mono ⟨false, (s.see true).changes + 1⟩
                (ts.flatMap fun t => signals db t.gateway id)
              rw [see_other (by rw [hlast]; decide)] at hmono ⊢
              constructor
              · intro h
                have htwo : s.changes + 1 + 1 ≤ s.changes + 1 := Nat.le_trans hmono h
                omega
              · intro h
                exact absurd (h.1.1 hrejects) (by decide)
          | true =>
              -- down, and nothing may follow
              rw [see_same hlast.symm]
              show _ ≤ (Seen.mk false (s.changes + 1)).changes ↔ _
              rw [all_silent_iff, all_down_iff hrest]
              constructor
              · intro h
                refine ⟨⟨fun _ => rfl, fun _ _ _ => rfl⟩, fun t' ht' _ => h t' ht', ?_⟩
                exact List.pairwise_of_forall_mem_list fun t' _ t'' ht'' _ => h t'' ht''
              · rintro ⟨_, hnone, _⟩ t' ht'
                exact hnone t' ht' hrejects
        · rw [if_pos hreports, if_neg hrejects]
          simp only [hrejects, false_implies, true_and, implies_true, List.append_nil, all_cons,
            all_nil]
          cases hlast : s.last with
          | true =>
              have hsame := ih (s := s) hrest
              rw [hlast] at hsame
              rw [see_same hlast.symm]
              exact hsame
          | false =>
              -- up, which is news: no push may be refused any more
              rw [see_other (by rw [hlast]; decide)]
              show _ ≤ (Seen.mk true (s.changes + 1)).changes ↔ _
              rw [all_silent_iff, all_up_iff hrest]
              constructor
              · intro h
                refine ⟨fun t' ht' hr => absurd hr (h t' ht'), ?_⟩
                exact List.pairwise_of_forall_mem_list fun t' ht' _ _ hr => absurd hr (h t' ht')
              · rintro ⟨hnone, _⟩ t' ht' hr
                exact absurd (hnone t' ht' hr) (by decide)
      · have hrejects : ¬Rejects db t.gateway id := fun h => hreports (reports_of_rejects h)
        rw [if_neg hreports, if_neg hrejects]
        simp only [hrejects, false_implies, true_and, implies_true]
        exact ih hrest

/-- **A steady router is reported once**, exactly if no deployment's push is refused but at the last
    call that finds the router reporting its model, and then only where the router was reachable before:
    over calls whose GETs are all answered, or all not. -/
theorem steady_once_iff (db : Db) (now : Time) (hdb : ∀ e ∈ db.deploymentEvents, e.createdAt ≤ now)
    (ts : List TickCall) (htime : InTime now ts) (hsteady : SteadyGet ts) :
    (∀ id, ((reconcileAll db ts).seen id).changes ≤ (db.seen id).changes + 1) ↔
      ∀ id, RefusedLast db ts id := by
  refine forall_congr' fun id => ?_
  rw [ticks_seen hdb htime]
  rcases hsteady with hsilent | hget
  · have hnone : ∀ t ∈ ts, ¬Rejects db t.gateway id := by
      rintro t ht ⟨x, hx, _⟩
      rw [Option.mem_def, Gateway.compared, hsilent t ht] at hx
      cases hx
    have hdown : ∀ b ∈ ts.flatMap fun t => signals db t.gateway id, b = false := by
      intro b hb
      obtain ⟨t, ht, hb⟩ := List.mem_flatMap.mp hb
      unfold signals at hb
      rw [hsilent t ht] at hb
      obtain ⟨_, _, rfl⟩ := List.mem_map.mp hb
      rfl
    exact iff_of_true (all_constant hdown) (refusedLast_of_accepted hnone)
  · rw [changes_once hget]
    unfold RefusedLast Db.seen
    simp only [Bool.not_eq_true']

end Run

/-! ## 5. A router that answers and rejects -/

/-- A router that reports an older revision of `d1` and refuses what is put. -/
def sampleRefusing : Gateway where
  getObservedConfig := some (sampleConfig 0)
  pushTrafficAllocation _ := .error .routerUpdate

/-- Calls of it, two time units apart. -/
def sampleTicks : Time → Nat → List TickCall
  | _, 0 => []
  | now, count + 1 =>
      ⟨⟨now + 1, now + 2, [now + 1, now + 2]⟩, now + 2, sampleRefusing⟩ :: sampleTicks (now + 2) count

theorem sampleTicks_inTime (now : Time) (count : Nat) : InTime now (sampleTicks now count) := by
  induction count generalizing now with
  | zero => trivial
  | succ count ih =>
      refine ⟨?_, Nat.lt_succ_self _, ih (now + 2)⟩
      intro t ht
      have hreading : t = now + 1 ∨ t = now + 2 := by
        simp only [Clock.readings, List.mem_cons, List.not_mem_nil] at ht
        tauto
      show now < t ∧ t ≤ now + 2
      rcases hreading with rfl | rfl
      · exact ⟨Nat.lt_succ_self _, Nat.le_succ _⟩
      · exact ⟨Nat.lt_add_of_pos_right (Nat.succ_pos 1), Nat.le_refl _⟩

theorem sampleTicks_gateway {now : Time} {count : Nat} {t : TickCall} (h : t ∈ sampleTicks now count) :
    t.gateway = sampleRefusing := by
  induction count generalizing now with
  | zero => cases h
  | succ count ih =>
      rcases List.mem_cons.mp h with rfl | h
      · rfl
      · exact ih h

/-- The tables after a create. -/
def sampleCreated : Db :=
  ((Request.create (sampleCreate "fraud-model") none).exec (Env.after 0 "d1") .empty).2

/-- Three calls: two find the router at `d1`'s allocation, the last finds the refusing one. -/
def sampleLastRefused : List TickCall :=
  [⟨⟨10, 11, [10, 11]⟩, 11, { sampleRefusing with getObservedConfig := some (sampleConfig 1) }⟩,
    ⟨⟨12, 13, [12, 13]⟩, 13, { sampleRefusing with getObservedConfig := some (sampleConfig 1) }⟩,
    ⟨⟨14, 15, [14, 15]⟩, 15, sampleRefusing⟩]

/-- They report `d1` once. -/
theorem steady_once_iff_sample :
    ((reconcileAll sampleCreated sampleLastRefused).seen "d1").changes ≤
        (sampleCreated.seen "d1").changes + 1 ∧
      ((reconcileAll sampleCreated sampleLastRefused).seen "d1").changes = 1 := by
  have htime : InTime 9 sampleLastRefused := by
    refine ⟨?_, by decide, ?_, by decide, ?_, by decide, trivial⟩
    all_goals
      unfold Clock.Within
      decide
  have honly : ∀ t ∈ sampleLastRefused, ∀ x ∈ t.gateway.compared sampleCreated, x.2.1.id = "d1" := by
    decide +kernel
  have hlast : ∀ id, RefusedLast sampleCreated sampleLastRefused id := by
    intro id
    by_cases hid : id = "d1"
    · subst hid
      decide +kernel
    · refine refusedLast_of_accepted ?_
      rintro t ht ⟨x, hx, rfl, _⟩
      exact hid (honly t ht x hx)
  have h := (steady_once_iff sampleCreated 9 (by decide +kernel) sampleLastRefused htime
    (by decide +kernel)).mpr hlast "d1"
  exact ⟨h, by decide +kernel⟩

/-- **A steady router is reported more than once.** -/
theorem steady_twice :
    ¬∀ (db : Db) (now : Time), (∀ e ∈ db.deploymentEvents, e.createdAt ≤ now) →
      ∀ ts : List TickCall, InTime now ts → (∀ t ∈ ts, ∀ t' ∈ ts, t'.gateway = t.gateway) →
        ∀ id, ((reconcileAll db ts).seen id).changes ≤ (db.seen id).changes + 1 := by
  intro h
  have hsame : ∀ t ∈ sampleTicks 9 2, ∀ t' ∈ sampleTicks 9 2, t'.gateway = t.gateway :=
    fun t ht t' ht' => by rw [sampleTicks_gateway ht, sampleTicks_gateway ht']
  exact absurd (h sampleCreated 9 (by decide +kernel) (sampleTicks 9 2) (sampleTicks_inTime 9 2)
    hsame "d1") (by decide +kernel)

end ModelOps
