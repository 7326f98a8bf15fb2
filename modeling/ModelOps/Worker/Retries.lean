/-
  File:      ModelOps/Worker/Retries.lean
  Subject:   The retry counter over a run of worker cycles.

  `inconclusive_retry_count` is raised by every inconclusive cycle and never taken back, while the
  number of inconclusive cycles in a row starts again with every cycle that advances the traffic.
  `Watch` is a rollout's tables beside that number. `watched_step` -- as long as no cycle advances
  traffic after an inconclusive one, both stay equal, and the rollout is frozen exactly when the number
  exceeds the policy's limit.

  * **`retries_consecutive`** -- the counter counts cycles in a row if and only if that is so;
  * `retries_accumulated` -- and otherwise it does not.
-/
import ModelOps.Lib.Transition
import ModelOps.ControlPlane.Routing
import ModelOps.Worker.Loop

namespace ModelOps

open Relational Labelled

/-! ## 1. A run of cycles -/

/-- The tables, and how many inconclusive cycles there were since the last one that advanced the
    traffic, or since the creation. -/
structure Watch where
  db : Db
  streak : Nat

/-- The number after a cycle that took `action`. -/
def nextStreak (streak : Nat) : Option WorkerAction → Nat
  | some .recordInconclusive => streak + 1
  | some .advanceTraffic => 0
  | some .promote | some .rollback | none => streak

def Watch.next (id : String) (w : Watch) (c : Cycle) : Option Watch :=
  some ⟨(processDeployment c w.db id).2, nextStreak w.streak (processDeployment c w.db id).1⟩

/-- While active the rollout's counter is the number of inconclusive cycles in a row, and it is frozen
    exactly if there were more of them than its policy tolerates. -/
def InARow (id : String) (w : Watch) : Prop :=
  ∀ d p, w.db.deployment? id = some d → d.policyConfig = some p →
    (d.status.active = true → d.inconclusiveRetryCount = w.streak) ∧
    (d.status = .inconclusive ↔ p.maxInconclusiveRetries < w.streak)

/-- The cycle is one that advances traffic: it evaluates, passes, and the canary is not at 100%. -/
def Advances (id : String) (w : Watch) (c : Cycle) : Prop :=
  c.overallResult = .pass ∧ ∃ d, w.db.deployment? id = some d ∧ c.Evaluates w.db d ∧
    canaryAtFullTraffic ⟨d, w.db.trafficAllocation? d.id⟩ = false

/-- If the cycle advances traffic, no inconclusive one came before it. -/
def AdvancesFirst (id : String) (w : Watch) (c : Cycle) (_ : Watch) : Prop :=
  Advances id w c → w.streak = 0

/-! ## 2. One cycle -/

/-- What holds as long as no cycle advances traffic after an inconclusive one. -/
structure Watched (id : String) (w : Watch) : Prop where
  shaped : Shaped w.db
  there : ∃ d, w.db.deployment? id = some d
  inARow : InARow id w

section Step

variable {id : String} {w w' : Watch} {c : Cycle}

theorem watch_next : Watch.next id w c = some w' ↔
    w' = ⟨(processDeployment c w.db id).2,
      nextStreak w.streak (processDeployment c w.db id).1⟩ := by
  unfold Watch.next
  rw [Option.some.injEq, eq_comm]

theorem inARow_of_row {row : Deployment} {p : PolicyConfig}
    (hrow : w.db.deployment? id = some row) (hp : row.policyConfig = some p)
    (hcount : row.status.active = true → row.inconclusiveRetryCount = w.streak)
    (hfrozen : row.status = .inconclusive ↔ p.maxInconclusiveRetries < w.streak) :
    InARow id w := by
  intro d p' hd hp'
  rw [hrow] at hd
  cases hd
  rw [hp] at hp'
  cases hp'
  exact ⟨hcount, hfrozen⟩

/-- **What a cycle leaves behind**: the same, or the row its verdict asks for, with the number that
    goes with the action. -/
theorem watch_cases (hs : Shaped w.db) {d : Deployment} (hd : w.db.deployment? id = some d)
    (hn : Watch.next id w c = some w') :
    (¬c.Evaluates w.db d ∧ w' = w) ∨
    (c.Evaluates w.db d ∧ ∃ action row, c.Does w.db d action row ∧
      w'.db.deployment? id = some row ∧ w'.streak = nextStreak w.streak (some action)) := by
  obtain ⟨rfl, hd⟩ := found hd
  obtain rfl := watch_next.mp hn
  rcases process_cases c hs hd with ⟨hev, action, row, split, bodies, hdoes, h⟩ | ⟨hev, h⟩
  · right
    refine ⟨hev, action, row, hdoes, ?_, ?_⟩
    · have hid : row.id = d.id := by
        cases hdoes <;> rfl
      rw [h]
      dsimp only
      rw [applied_deployment?, if_pos hid.symm]
    · rw [h]
  · left
    refine ⟨hev, ?_⟩
    rw [h]
    rfl

/-- The tables stay in shape. -/
theorem watch_shaped (hs : Shaped w.db) (hn : Watch.next id w c = some w') : Shaped w'.db := by
  obtain rfl := watch_next.mp hn
  rcases process_exec c w.db id with h | ⟨req, h⟩
  · show Shaped (processDeployment c w.db id).2
    rw [h]
    exact hs
  · show Shaped (processDeployment c w.db id).2
    rw [h]
    exact shaped_exec c.env req hs

/-- **A cycle that does not advance traffic after an inconclusive one keeps the count.** -/
theorem watched_step (hi : Watched id w) (hfirst : AdvancesFirst id w c w')
    (hn : Watch.next id w c = some w') : Watched id w' := by
  obtain ⟨d, hd⟩ := hi.there
  have hsh := hi.shaped d (deployment?_eq_some.mp hd).1
  obtain ⟨p, hp, _⟩ := hsh.policy
  obtain ⟨hcount, hfrozen⟩ := hi.inARow d p hd hp
  rcases watch_cases hi.shaped hd hn with ⟨_, rfl⟩ | ⟨hev, action, row, hdoes, hrow, hstreak⟩
  · exact hi
  · refine ⟨watch_shaped hi.shaped hn, ⟨row, hrow⟩, ?_⟩
    have hrun := hsh.running_of_active hev.1
    have hunfrozen : ¬p.maxInconclusiveRetries < w.streak := by
      rw [← hfrozen, hrun]
      decide
    have hpolicy : getPolicyConfig c.env d = p := by
      unfold getPolicyConfig
      rw [hp]
      rfl
    have hsame := hcount hev.1
    cases hdoes with
    | rollback hr =>
        refine inARow_of_row hrow hp (fun h => by cases h) ?_
        rw [hstreak]
        refine iff_of_false ?_ hunfrozen
        show DeploymentStatus.rolledBack ≠ .inconclusive
        decide
    | promote hr hfull =>
        refine inARow_of_row hrow hp (fun h => by cases h) ?_
        rw [hstreak]
        refine iff_of_false ?_ hunfrozen
        show DeploymentStatus.promoted ≠ .inconclusive
        decide
    | advance hr hfull =>
        have hzero : w.streak = 0 := hfirst ⟨hr, d, hd, hev, hfull⟩
        refine inARow_of_row hrow hp (fun _ => ?_) ?_
        · rw [hstreak]
          exact hsame.trans hzero
        · have hstill : (advancedRow c.env d).status = .canaryRunning := hrun
          rw [hstreak, hstill]
          exact iff_of_false (by decide) (Nat.not_lt_zero _)
    | retry hr hle =>
        rw [hpolicy] at hle
        refine inARow_of_row hrow hp (fun _ => ?_) ?_
        · rw [hstreak]
          exact congrArg (· + 1) hsame
        · have hstill : (cycledRow c.env d).status = .canaryRunning := hrun
          rw [hstreak, hstill]
          refine iff_of_false (by decide) ?_
          show ¬p.maxInconclusiveRetries < w.streak + 1
          omega
    | freeze hr hlt =>
        rw [hpolicy] at hlt
        refine inARow_of_row hrow hp (fun h => by cases h) ?_
        rw [hstreak]
        refine iff_of_true rfl ?_
        show p.maxInconclusiveRetries < w.streak + 1
        omega

/-- If the count still holds after a cycle that advanced traffic, no inconclusive one came before. -/
theorem advancesFirst_of_inARow (hi : Watched id w) (h : InARow id w')
    (hn : Watch.next id w c = some w') : AdvancesFirst id w c w' := by
  rintro ⟨hpass, d, hd, hev, hfull⟩
  have hsh := hi.shaped d (deployment?_eq_some.mp hd).1
  obtain ⟨p, hp, _⟩ := hsh.policy
  have hcount := (hi.inARow d p hd hp).1 hev.1
  rcases watch_cases hi.shaped hd hn with ⟨hno, _⟩ | ⟨_, action, row, hdoes, hrow, hstreak⟩
  · exact absurd hev hno
  · cases hdoes with
    | rollback hr =>
        rw [hpass] at hr
        cases hr
    | promote hr hfull' =>
        rw [hfull] at hfull'
        cases hfull'
    | advance hr hfull' =>
        have hcount' := (h (advancedRow c.env d) p hrow hp).1 hev.1
        rw [hstreak] at hcount'
        exact hcount.symm.trans hcount'
    | retry hr hle =>
        rw [hpass] at hr
        cases hr
    | freeze hr hlt =>
        rw [hpass] at hr
        cases hr

end Step

/-! ## 3. Every sequence of cycles -/

/-- A rollout that was just created is watched from the first cycle on. -/
theorem watched_created {env : Env} {p : CreateDeploymentRequest} {key : Option String} {db : Db}
    {reply : Reply} (hs : Shaped db)
    (hreply : ((Request.create p key).exec env db).1 = .ok reply) (hnew : reply.created = true) :
    Watched reply.deployment.id ⟨((Request.create p key).exec env db).2, 0⟩ := by
  have hshaped := shaped_exec env (.create p key) hs
  rcases exec_cases env db (.create p key) with ⟨x, h, hquiet⟩ | ⟨_, row, _, _, heff, h⟩
  · rw [h] at hreply
    rw [(hquiet reply hreply).2] at hnew
    cases hnew
  · rw [h] at hreply hshaped ⊢
    cases hreply
    cases heff with
    | resolved hreq => cases hreq
    | flagged hreq => cases hreq
    | created _ _ hacc =>
        have hrow : (db.applied (createdRow env p key) (some (createdTargets p))
            (stamp env.clock (createdRow env p key).id (createdBodies p))).deployment?
              (createdRow env p key).id = some (createdRow env p key) := by
          rw [applied_deployment?, if_pos rfl]
        refine ⟨hshaped, ⟨_, hrow⟩, inARow_of_row hrow rfl (fun _ => rfl) ?_⟩
        refine iff_of_false ?_ (Nat.not_lt_zero _)
        show DeploymentStatus.canaryRunning ≠ .inconclusive
        decide

/-- **When the freeze counts cycles in a row.** Over any sequence of cycles of a rollout that was just
    created: after each of them the counter of the active rollout is the number of inconclusive cycles
    since the last one that advanced traffic, and the rollout is frozen exactly if there were more
    than its policy tolerates; if and only if no cycle advances traffic after an inconclusive one. -/
theorem retries_consecutive (env : Env) (p : CreateDeploymentRequest) (key : Option String) (db : Db)
    (now : Time) (hreach : Reachable now db) (reply : Reply)
    (hreply : ((Request.create p key).exec env db).1 = .ok reply) (hnew : reply.created = true)
    (cycles : List Cycle) :
    Along (Watch.next reply.deployment.id) (fun _ _ w => InARow reply.deployment.id w)
        ⟨((Request.create p key).exec env db).2, 0⟩ cycles ↔
      Along (Watch.next reply.deployment.id) (AdvancesFirst reply.deployment.id)
        ⟨((Request.create p key).exec env db).2, 0⟩ cycles := by
  obtain ⟨_, hrouted⟩ := hreach.routed
  have hstart := watched_created hrouted.shaped hreply hnew
  constructor
  · intro h
    refine (along_run h hstart ?_).1
    intro w c w' hi hrow hn
    have hfirst := advancesFirst_of_inARow hi hrow hn
    exact ⟨watched_step hi hfirst hn, hfirst⟩
  · intro h
    refine (along_run h hstart ?_).1
    intro w c w' hi hfirst hn
    have hi' := watched_step hi hfirst hn
    exact ⟨hi', hi'.inARow⟩

/-- A cycle that is due, over the sample rollout. -/
def sampleCycle (n : Time) (overallResult : OverallResult) : Cycle :=
  ⟨none, n, 300, overallResult, Env.after n "unused"⟩

/-- The reply to the sample create, on an empty database. -/
theorem sample_created :
    ∃ reply, ((Request.create (sampleCreate "fraud-model") none).exec (Env.after 0 "d1") .empty).1 =
        .ok reply ∧ reply.created = true ∧ reply.deployment.id = "d1" := by
  have h : (((Request.create (sampleCreate "fraud-model") none).exec (Env.after 0 "d1")
      .empty).1.toOption.map fun reply => (reply.created, reply.deployment.id)) =
        some (true, "d1") := by decide +kernel
  cases he : ((Request.create (sampleCreate "fraud-model") none).exec (Env.after 0 "d1") .empty).1 with
  | error e =>
      rw [he] at h
      cases h
  | ok reply =>
      rw [he] at h
      obtain ⟨hnew, hid⟩ := Prod.mk.inj (Option.some.inj h)
      exact ⟨reply, rfl, hnew, hid⟩

/-- The tables after the sample create. -/
def sampleWatch : Watch :=
  ⟨((Request.create (sampleCreate "fraud-model") none).exec (Env.after 0 "d1") .empty).2, 0⟩

/-- An advance first, an inconclusive cycle after it. -/
theorem retries_consecutive_sample :
    Along (Watch.next "d1") (fun _ _ w => InARow "d1" w) sampleWatch
      [sampleCycle 10 .pass, sampleCycle 20 .inconclusive] := by
  obtain ⟨reply, hreply, hnew, hid⟩ := sample_created
  have h := retries_consecutive (Env.after 0 "d1") (sampleCreate "fraud-model") none .empty 0
    (.empty 0) reply hreply hnew [sampleCycle 10 .pass, sampleCycle 20 .inconclusive]
  rw [hid] at h
  refine h.mpr ?_
  intro w _
  refine ⟨fun _ => rfl, ?_⟩
  intro w' _
  refine ⟨?_, trivial⟩
  rintro ⟨hpass, _⟩
  cases hpass

/-- **An inconclusive cycle before an advance still counts after it.** -/
theorem retries_accumulated :
    ¬∀ (env : Env) (p : CreateDeploymentRequest) (db : Db) (now : Time), Reachable now db →
      ∀ reply, ((Request.create p none).exec env db).1 = .ok reply → reply.created = true →
        ∀ cycles, Along (Watch.next reply.deployment.id)
          (fun _ _ w => InARow reply.deployment.id w)
          ⟨((Request.create p none).exec env db).2, 0⟩ cycles := by
  intro h
  obtain ⟨reply, hreply, hnew, hid⟩ := sample_created
  have hrow := h (Env.after 0 "d1") (sampleCreate "fraud-model") .empty 0 (.empty 0) reply hreply
    hnew [sampleCycle 10 .inconclusive, sampleCycle 20 .pass]
  rw [hid] at hrow
  have hfacts : ((Watch.next "d1" sampleWatch (sampleCycle 10 .inconclusive)).bind fun w =>
      Watch.next "d1" w (sampleCycle 20 .pass)).map (fun w =>
        ((w.db.deployment? "d1").map fun d =>
          (d.status.active, d.inconclusiveRetryCount, d.policyConfig.isSome), w.streak)) =
      some (some (true, 1, true), 0) := by decide +kernel
  obtain ⟨w', hw', hfacts⟩ := Option.map_eq_some_iff.mp hfacts
  obtain ⟨w, hw, hw'⟩ := Option.bind_eq_some_iff.mp hw'
  obtain ⟨hrow', hzero⟩ := Prod.mk.inj hfacts
  obtain ⟨d, hd, hrow'⟩ := Option.map_eq_some_iff.mp hrow'
  simp only [Prod.mk.injEq] at hrow'
  obtain ⟨hactive, hone, hpolicy⟩ := hrow'
  obtain ⟨p, hp⟩ := Option.isSome_iff_exists.mp hpolicy
  -- the counter is 1, with no inconclusive cycle since the advance
  have hcount := (((hrow w hw).2 w' hw').1 d p hd hp).1 hactive
  rw [hone, hzero] at hcount
  cases hcount

end ModelOps
