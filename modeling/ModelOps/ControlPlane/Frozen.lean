/-
  File:      ModelOps/ControlPlane/Frozen.lean
  Subject:   Who can move a frozen deployment.

  INCONCLUSIVE means that automation gave up and a person decides. `advance-traffic` and
  `record-inconclusive` check the active statuses; promote and rollback check only the transition
  table, which lets INCONCLUSIVE go to PROMOTING and ROLLING_BACK whoever asks:

  * `exec_automatic_thaws` -- run alone, an automatic promote or rollback always moves a frozen
    deployment;
  * **`frozen_by_hand`** -- over every interleaving in which no automatic promote or rollback loads
    its deployment while that is frozen, only manual ones move it;
  * `frozen_moved_by_worker` -- and otherwise a worker's request does.
-/
import ModelOps.ControlPlane.Concurrency

namespace ModelOps

open Transact Relational

/-! ## 1. Requests by who asked -/

/-- A worker's promote or rollback of the deployment. -/
def Request.Automatic (req : Request) (id : String) : Prop :=
  req = .promote id .automatic ∨ req = .rollback id .automatic

/-- A person's promote or rollback of the deployment. -/
def Request.ByHand (req : Request) (id : String) : Prop :=
  req = .promote id .manual ∨ req = .rollback id .manual

theorem resolves_by {req : Request} {r : Resolution} {id : String} {by_ : TriggeredBy}
    (h : req.Resolves r id by_) : req.Automatic id ∧ by_ = .automatic ∨ req.ByHand id := by
  cases h with
  | promote =>
      cases by_ with
      | manual => exact Or.inr (Or.inl rfl)
      | automatic => exact Or.inl ⟨Or.inl rfl, rfl⟩
  | rollback =>
      cases by_ with
      | manual => exact Or.inr (Or.inr rfl)
      | automatic => exact Or.inl ⟨Or.inr rfl, rfl⟩

/-- The deployment was frozen, and now it is not, or its split is another one. -/
def Thawed (db db' : Db) (id : String) : Prop :=
  ∃ d, db.deployment? id = some d ∧ d.status = .inconclusive ∧
    (db'.targetsOf id ≠ db.targetsOf id ∨
      ∀ d', db'.deployment? id = some d' → d'.status ≠ .inconclusive)

theorem not_thawed_self (db : Db) (id : String) : ¬Thawed db db id := by
  rintro ⟨d, hd, hs, h | h⟩
  · exact h rfl
  · exact h d hd hs

section Steps

variable {env : Env} {db : Db} {req : Request} {reply : Reply} {row : Deployment}
  {split : Option (List TargetWeight)} {bodies : List EventBody} {events : List DeploymentEvent}
  {id : String}

/-- What thaws a deployment is a promote or a rollback of it. -/
theorem Effect.thaws (h : Effect env db req reply row split bodies)
    (ht : Thawed db (db.applied row split events) id) :
    id = row.id ∧ ∃ r by_, req.Resolves r id by_ := by
  obtain ⟨d, hd, hs, hch⟩ := ht
  have hid : id = row.id := by
    by_contra hne
    rcases hch with hch | hch
    · apply hch
      unfold Db.targetsOf
      rw [applied_trafficAllocation?_ne hne]
    · refine hch d ?_ hs
      rw [applied_deployment?, if_neg hne]
      exact hd
  refine ⟨hid, ?_⟩
  have hinactive : ∀ {d' : Deployment}, db.deployment? d'.id = some d' → id = d'.id →
      d'.status.active ≠ true := by
    intro d' hd' he ha
    rw [he, hd'] at hd
    cases hd
    rw [hs] at ha
    cases ha
  cases h with
  | created p key hacc =>
      rw [hid] at hd
      exact (hacc.absent hd).elim
  | resolved hreq hd' ha => exact ⟨_, _, hid ▸ hreq⟩
  | advanced hd' ha hw => exact absurd ha (hinactive hd' hid)
  | cycled hd' ha hn => exact absurd ha (hinactive hd' hid)
  | frozen hd' ha hn => exact absurd ha (hinactive hd' hid)
  | @flagged _ paused _ d' hreq hd' ht' hp =>
      -- pausing and resuming leave status and split alone
      have hdd : d' = d := by
        rw [hid] at hd
        exact Option.some.inj (hd'.symm.trans hd)
      rcases hch with hch | hch
      · exact absurd rfl hch
      · refine absurd ?_ (hch (flaggedRow env paused d') ?_)
        · rw [← hs, ← hdd]
          rfl
        · rw [applied_deployment?, if_pos hid]

end Steps

/-- **Run alone, an automatic promote or rollback of a frozen deployment always moves it.** -/
theorem exec_automatic_thaws {env : Env} {db : Db} {req : Request} {id : String} {d : Deployment}
    (hreq : req.Automatic id) (hd : db.deployment? id = some d) (hs : d.status = .inconclusive) :
    Thawed db (req.exec env db).2 id := by
  obtain ⟨rfl, hd⟩ := found hd
  have hthaw : ∀ {r : Resolution}, req.Resolves r d.id .automatic → r.Admits d.status →
      r.settled ≠ .inconclusive → Thawed db (req.exec env db).2 d.id := by
    intro r hr ha hne
    rw [exec_resolved hr hd ha]
    refine ⟨d, hd, hs, Or.inr ?_⟩
    intro d' hd'
    rw [applied_deployment?, if_pos (show d.id = (resolvedRow r env d).id from rfl)] at hd'
    cases hd'
    exact hne
  rcases hreq with rfl | rfl
  · exact hthaw (.promote d.id .automatic) (by rw [hs]; decide) (by decide)
  · exact hthaw (.rollback d.id .automatic) (by rw [hs]; decide) (by decide)

/-! ## 2. Interleavings -/

section Interleavings

variable {ι : Type} [DecidableEq ι] [Fintype ι]

/-- If session `i` is a worker's promote or rollback and is about to load its deployment, then the
    deployment is not frozen. -/
def LoadsUnfrozen (requests : ι → Env × Request) (c : Config sql ServiceError Reply Db ι) (i : ι) :
    Prop :=
  ∀ h id k, c.proc i = .running h (.read (.deployment id) k) → (requests i).2.Automatic id →
    ∀ d, c.store.deployment? id = some d → d.status ≠ .inconclusive

/-- **Only a person resolves a frozen rollout**, in every interleaving in which every automatic
    promote and rollback loads its deployment while that is not frozen. -/
theorem frozen_by_hand (requests : ι → Env × Request) (db : Db) (hs : Schema db)
    (schedule : List ι)
    (hload : ∀ l i l', schedule = l ++ i :: l' → LoadsUnfrozen requests (interleave requests db l) i) :
    ∀ l i l', schedule = l ++ i :: l' → ∀ id,
      Thawed (interleave requests db l).store (interleave requests db (l ++ [i])).store id →
        (requests i).2.ByHand id := by
  intro l i l' he id ht
  -- what each session loaded was not frozen, if the session is a worker's
  let P : ι → Deployment → Prop := fun i d => (requests i).2.Automatic d.id → d.status ≠ .inconclusive
  have hserial := serial_of_commitOrder (commitOrder requests P) hs l (by
    intro l1 j l2 hj h q k hp id' k' hq d hd hauto
    obtain ⟨rfl, _⟩ := found hd
    cases hq
    exact hload l1 j (l2 ++ i :: l') (by rw [he, hj]; simp) h _ _ hp hauto d hd)
  have hstep : (interleave requests db (l ++ [i])).store =
      ((interleave requests db l).step database i).store := by
    unfold interleave
    rw [Config.steps_append]
    rfl
  rw [hstep] at ht
  rcases (interleave requests db l).step_store database i with hstore | ⟨h, w, x, hp, hw⟩
  · rw [hstore] at ht
    exact absurd ht (not_thawed_self _ id)
  · obtain ⟨_, reply, row, split, bodies, heff, hdb, hcom⟩ :=
      stage_commit (hserial.tracks i h _ hp) hw
    rw [hdb] at ht
    obtain ⟨hid, r, by_, hreq⟩ := heff.thaws ht
    rcases resolves_by hreq with ⟨hauto, _⟩ | hhand
    · obtain ⟨d, hd, hfrozen, _⟩ := ht
      cases hcom with
      | inserted env p key hacc =>
          rw [hid] at hd
          exact (hacc.absent hd).elim
      | amended d' row hd' ha hP =>
          rw [hid] at hd
          have hdd : d' = d := Option.some.inj (hd'.symm.trans hd)
          subst hdd
          exact absurd hfrozen (hP (by rw [← ha.id_eq, ← hid]; exact hauto))
    · exact hhand

end Interleavings

/-! ## 3. A rollout frozen by its second inconclusive cycle -/

/-- Create a rollout that tolerates one inconclusive cycle, freeze it by two, and resolve it. -/
def sampleFreeze (resolve : Request) : Fin 4 → Env × Request
  | 0 => (Env.after 0 "d1", .create
      { sampleCreate "fraud-model" with policyConfig := some samplePolicy } none)
  | 1 => (Env.after 10 "d2", .recordInconclusive "d1")
  | 2 => (Env.after 20 "d3", .recordInconclusive "d1")
  | 3 => (Env.after 30 "d4", resolve)

/-- The steps up to the commit of the last session, which is the next step. -/
def sampleFreezeSteps : List (Fin 4) := [0, 0, 0, 0, 0, 1, 1, 2, 2, 3, 3, 3]

theorem thawed_of_status {db db' : Db} {id : String} (status : DeploymentStatus)
    (h : (db.deployment? id).map Deployment.status = some .inconclusive)
    (h' : (db'.deployment? id).map Deployment.status = some status)
    (hne : status ≠ .inconclusive) : Thawed db db' id := by
  obtain ⟨d, hd, hs⟩ := Option.map_eq_some_iff.mp h
  refine ⟨d, hd, hs, Or.inr ?_⟩
  intro d' hd'
  rw [hd'] at h'
  rw [Option.some.inj h']
  exact hne

/-- A person resolves the frozen rollout. -/
theorem frozen_by_hand_sample :
    Thawed (interleave (sampleFreeze (.promote "d1" .manual)) .empty sampleFreezeSteps).store
      (interleave (sampleFreeze (.promote "d1" .manual)) .empty (sampleFreezeSteps ++ [3])).store
      "d1" ∧
    (sampleFreeze (.promote "d1" .manual) 3).2.ByHand "d1" := by
  have ht : Thawed
      (interleave (sampleFreeze (.promote "d1" .manual)) .empty sampleFreezeSteps).store
      (interleave (sampleFreeze (.promote "d1" .manual)) .empty (sampleFreezeSteps ++ [3])).store
      "d1" :=
    thawed_of_status .promoted (by decide +kernel) (by decide +kernel) (by decide)
  refine ⟨ht, frozen_by_hand _ _ schema_empty (sampleFreezeSteps ++ [3]) ?_ sampleFreezeSteps 3 []
    rfl "d1" ht⟩
  intro l i l' _ h id k _ hauto
  fin_cases i <;> rcases hauto with hauto | hauto <;> cases hauto

/-- **A worker's promote moves a frozen rollout.** -/
theorem frozen_moved_by_worker :
    ¬∀ (requests : Fin 4 → Env × Request) (l : List (Fin 4)) (i : Fin 4) (id : String),
      Thawed (interleave requests .empty l).store (interleave requests .empty (l ++ [i])).store id →
        (requests i).2.ByHand id := by
  intro h
  have ht : Thawed
      (interleave (sampleFreeze (.promote "d1" .automatic)) .empty sampleFreezeSteps).store
      (interleave (sampleFreeze (.promote "d1" .automatic)) .empty (sampleFreezeSteps ++ [3])).store
      "d1" :=
    thawed_of_status .promoted (by decide +kernel) (by decide +kernel) (by decide)
  rcases h _ _ _ _ ht with hhand | hhand <;> cases hhand

end ModelOps
