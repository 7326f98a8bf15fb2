/-
  File:      ModelOps/System/Dashboard.lean
  Subject:   The deployment detail page beside the reconciler
             (frontend, src/app/deployments/[id]/page.tsx).

  The page decides from a deployment's STATUS whether to compare its split with the router's. The
  reconciler enforces the split of the authoritative deployment, which also is a frozen rollout, or the
  one that finished last.

  * `routerReconciliationStatus` -- what the page shows; `monitored_iff`: it watches the two statuses of a
    running rollout;
  * `served` -- in every reachable state a deployment is authoritative exactly if no other deployment of
    its model has published since;
  * **`dashboard_iff`** -- the page watches a deployment where the reconciler enforces it, exactly if the
    rollout is running or another one has published since.
-/
import ModelOps.System.Timeline

namespace ModelOps

open Relational

/-! ## 1. The page -/

/-- GET /api/router/observed, as far as the page reads it. -/
structure ObservedRouterState where
  reachable : Bool
  deploymentId : Option String
  revision : Option Int

/-- `ROUTER_MANAGED_STATUSES`. -/
def ROUTER_MANAGED_STATUSES : List String := ["CANARY_RUNNING", "EVALUATING"]

/-- What `RouterReconciliationStatus` renders. -/
inductive RouterView where
  | nothing
  | final (desired : Nat)
  | checking
  | unreachable (desired : Nat)
  | notSynced (desired : Nat)
  | compared (desired : Nat) (observed : Option Int)
  deriving DecidableEq

/-- The paragraph, without its colour. -/
def RouterView.text : RouterView → Option String
  | .nothing => none
  | .final desired => some s!"Desired revision {desired} (final - not currently router-managed)."
  | .checking => some "Checking router state…"
  | .unreachable desired =>
      some s!"Desired revision {desired} — router unreachable, actual traffic state unknown."
  | .notSynced desired =>
      some s!"Desired revision {desired} (router not yet synced to this deployment)."
  | .compared desired observed =>
      let shown := (observed.map toString).getD ""
      some (s!"Desired revision {desired} · Observed revision {shown}" ++
        if observed = some (desired : Int) then ""
        else " — router has not caught up yet (will self-correct on the next reconcile tick)")

/-- The component; `observed` is `none` while it loads, or where that failed. -/
def routerReconciliationStatus (d : Deployment) (allocation : Option TrafficAllocation)
    (observed : Option ObservedRouterState) : RouterView :=
  match allocation with
  | none => .nothing
  | some a =>
      if d.status.value ∉ ROUTER_MANAGED_STATUSES then .final a.revision
      else
        match observed with
        | none => .checking
        | some observed =>
            if observed.reachable = false then .unreachable a.revision
            else if observed.deploymentId ≠ some d.id then .notSynced a.revision
            else .compared a.revision observed.revision

/-- The page treats the deployment as router-managed: it warns of a router that is unreachable, and
    compares the revision that a router in service of the deployment reports. -/
def Monitored (db : Db) (d : Deployment) : Prop :=
  ∃ desired, ∀ observed : ObservedRouterState,
    (observed.reachable = false →
      routerReconciliationStatus d (db.trafficAllocation? d.id) (some observed) =
        .unreachable desired) ∧
    (observed.reachable = true → observed.deploymentId = some d.id →
      routerReconciliationStatus d (db.trafficAllocation? d.id) (some observed) =
        .compared desired observed.revision)

theorem managed_iff (s : DeploymentStatus) :
    s.value ∈ ROUTER_MANAGED_STATUSES ↔ s.active = true := by
  cases s <;> decide

section Page

variable {db : Db} {d : Deployment}

/-- Of a deployment whose status is none of the two, the page never warns. -/
theorem unmanaged_final {a : TrafficAllocation} (h : d.status.active = false)
    (observed : Option ObservedRouterState) :
    routerReconciliationStatus d (some a) observed = .final a.revision := by
  have hstatus : d.status.value ∉ ROUTER_MANAGED_STATUSES := by
    rw [managed_iff, h]
    decide
  exact if_pos hstatus

/-- **The page watches running rollouts.** -/
theorem monitored_iff (h : Shape db d) : Monitored db d ↔ d.status.active = true := by
  obtain ⟨a, ha, _⟩ := h.split
  unfold Monitored
  rw [ha]
  constructor
  · rintro ⟨desired, hview⟩
    by_contra hno
    have hwarns := (hview ⟨false, none, none⟩).1 rfl
    rw [unmanaged_final (Bool.eq_false_iff.mpr hno)] at hwarns
    cases hwarns
  · intro hactive
    have hstatus : ¬d.status.value ∉ ROUTER_MANAGED_STATUSES :=
      not_not.mpr ((managed_iff d.status).mpr hactive)
    refine ⟨a.revision, fun observed => ⟨fun hdown => ?_, fun hup hid => ?_⟩⟩
    · unfold routerReconciliationStatus
      simp only [if_neg hstatus, if_pos hdown]
    · unfold routerReconciliationStatus
      have hdown : ¬observed.reachable = false := by simp [hup]
      simp only [if_neg hstatus, if_neg hdown, hid, ne_eq, not_true, if_false]

end Page

/-! ## 2. Reachable states -/

/-- The tables that calls reach, each call's clock running after those of the calls before it. -/
inductive Reached : Time → Tables → Prop where
  | empty (now : Time) : Reached now .empty
  | call {now now' : Time} {t : Tables} (c : ApiCall) (h : Reached now t) (hle : now ≤ now')
      (hc : ∀ reading ∈ c.readings, now < reading ∧ reading ≤ now') : Reached now' (c.exec t)

/-- An allocation of the model is newer than the deployment's. -/
def Superseded (db : Db) (d : Deployment) : Prop :=
  ∃ d' ∈ db.deployments, d'.modelName = d.modelName ∧
    ∃ a a', db.trafficAllocation? d.id = some a ∧ db.trafficAllocation? d'.id = some a' ∧
      a.revision < a'.revision

section Served

variable {now now' : Time} {log : Log} {db : Db} {t : Tables} {d : Deployment}

/-- **Every call keeps the tables and the log together.** -/
theorem Reached.routed (h : Reached now t) : ∃ log, Routed now log t.db := by
  induction h with
  | empty now => exact ⟨_, routed_empty now⟩
  | @call now now' t c _ hle hc ih =>
      obtain ⟨log, hi⟩ := ih
      rcases call_cases c t with ⟨env, req, rfl⟩ | ⟨events, hdb, _⟩
      · show ∃ log, Routed now' log (req.exec env t.db).2
        rcases routed_exec req hi hc with ⟨he, hr⟩ | ⟨_, row, split, _, _, _, hr⟩
        · rw [he]
          exact ⟨log, hr⟩
        · exact ⟨log.publish row split, hr⟩
      · rw [hdb]
        exact ⟨log, (hi.noted events).later hle⟩

/-- **Which deployment is served**: the one that no other of its model has published after. -/
theorem Routed.served (hi : Routed now log db) (hd : d ∈ db.deployments) :
    db.getAuthoritativeAllocation d.modelName = some d ↔ ¬Superseded db d := by
  obtain ⟨d0, a0, hauth, hd0, hmodel0, ha0, hrevision, hlast⟩ := hi.authoritative hd
  constructor
  · rintro hserved ⟨d', hd', hmodel, a, a', ha, ha', hlt⟩
    have hsame : d0 = d := Option.some.inj (hauth.symm.trans hserved)
    rw [hsame, ha] at ha0
    have hnewest : a.revision = db.generation d.modelName := by
      rw [Option.some.inj ha0]
      exact hrevision
    by_cases hid : d'.id = d.id
    · rw [hid, ha] at ha'
      have hrevisions := congrArg TrafficAllocation.revision (Option.some.inj ha')
      omega
    · rw [hsame, ← hmodel] at hlast
      have holder := hi.older hd' hlast hid ha'
      rw [hmodel] at holder
      omega
  · intro hnewest
    have hid : d.id = d0.id := by
      by_contra hne
      obtain ⟨a, ha, _⟩ := (hi.shaped d hd).split
      have holder := hi.older hd hlast hne ha
      exact hnewest ⟨d0, hd0, hmodel0, a, a0, ha, ha0, by omega⟩
    have hrow : db.deployment? d0.id = some d := deployment?_eq_some.mpr ⟨hd, hid⟩
    rw [deployment?_eq_some.mpr ⟨hd0, rfl⟩] at hrow
    rw [hauth, hrow]

/-! ## 3. The page and the reconciler -/

/-- **The page watches drift where the reconciler enforces it**, exactly for a running rollout and for
    one that is superseded: not for a frozen one, and not for the one that finished last. -/
theorem dashboard_iff (h : Reached now t) (d : Deployment) (hd : d ∈ t.db.deployments) :
    (Monitored t.db d ↔ t.db.getAuthoritativeAllocation d.modelName = some d) ↔
      d.status.active = true ∨ Superseded t.db d := by
  obtain ⟨log, hi⟩ := h.routed
  rw [monitored_iff (hi.shaped d hd)]
  by_cases hactive : d.status.active = true
  · have hserved := authoritative_open hi.schema hi.shaped hd (open_of_active hactive)
    exact iff_of_true (iff_of_true hactive hserved) (Or.inl hactive)
  · rw [hi.served hd]
    constructor
    · intro hiff
      by_contra hno
      exact hactive (hiff.mpr fun hsuper => hno (Or.inr hsuper))
    · intro hsuper
      exact iff_of_false hactive (not_not.mpr (hsuper.resolve_left hactive))

end Served

theorem reached_create : Reached 2 (Tables.empty.after (sampleHistory.take 1)) :=
  .call (.lifecycle (Env.after 0 "d1") (.create (sampleCreate "fraud-model") none)) (.empty 0)
    (by decide) (by decide)

theorem reached_promote : Reached 12 (Tables.empty.after (sampleHistory.take 3)) :=
  .call (.lifecycle (Env.after 10 "unused") (.promote "d1" .manual))
    (.call (.pushed 5 "d1" (.error .routerUpdate)) reached_create (by decide : (2 : Time) ≤ 5)
      (by decide))
    (by decide) (by decide)

/-- A rollout just created. -/
theorem dashboard_iff_created : ∃ d, (Tables.empty.after (sampleHistory.take 1)).db.deployment? "d1" =
      some d ∧
    (Monitored (Tables.empty.after (sampleHistory.take 1)).db d ↔
      (Tables.empty.after (sampleHistory.take 1)).db.getAuthoritativeAllocation d.modelName =
        some d) := by
  have hactive : ((Tables.empty.after (sampleHistory.take 1)).db.deployment? "d1").any
      (fun d => d.status.active) = true := by decide +kernel
  obtain ⟨d, hd, ha⟩ := Option.any_eq_true _ _ |>.mp hactive
  exact ⟨d, hd, (dashboard_iff reached_create d (deployment?_eq_some.mp hd).1).mpr (Or.inl ha)⟩

/-- **A promoted rollout is enforced and not watched.** -/
theorem promoted_unwatched :
    ¬∀ (now : Time) (t : Tables), Reached now t → ∀ d ∈ t.db.deployments,
      (Monitored t.db d ↔ t.db.getAuthoritativeAllocation d.modelName = some d) := by
  intro h
  have hserved : (Tables.empty.after (sampleHistory.take 3)).db.deployments.rows.any (fun d =>
      decide (d.status = .promoted) && decide ((Tables.empty.after (sampleHistory.take
        3)).db.getAuthoritativeAllocation d.modelName = some d)) = true := by decide +kernel
  obtain ⟨d, hd, hp⟩ := List.any_eq_true.mp hserved
  simp only [Bool.and_eq_true, decide_eq_true_eq] at hp
  obtain ⟨log, hi⟩ := reached_promote.routed
  have hwatched := (h 12 _ reached_promote d hd).mpr hp.2
  rw [monitored_iff (hi.shaped d hd), hp.1] at hwatched
  exact absurd hwatched (by decide)

end ModelOps
