/-
  File:      ModelOps/System/Restart.lean
  Subject:   Old pushes after a restart of the router.

  The answer of GET /api/router-config has no revision, so the config of a startup sync has revision 0:
  until the first push is stored the router does not know which revision it synced, and lets any push
  through. `Above` -- its config has the revision of a boot, or is not older than what was synced.

  * **`restart_safe`** -- where no push below the synced revision arrives while the router holds the
    config it booted with, it never accepts one below it;
  * `restart_unsafe` -- and otherwise it does.
-/
import ModelOps.System.Joint

namespace ModelOps

open Relational Publication Labelled

/-! ## 1. The runs -/

/-- A step of a run for the router's model. -/
def ForModel (s : RouterSettings) (_ : System) (l : Label) (_ : System) : Prop :=
  match l with
  | .request _ req _ => req.names s.modelName = true
  | .note _ _ | .read _ | .arrive _ | .settle _ | .restart | .fetch | .boot => True

/-- The router holds the config it booted with. -/
def Process.atBoot : Process → Bool
  | .running config _ => decide (config.revision = 0)
  | .starting _ => false

/-- Besides, a push with known versions does not arrive at a router that holds the config it booted
    with, if its revision is below the synced one. -/
def LateEnough (s : RouterSettings) (sys : System) (l : Label) (sys' : System) : Prop :=
  ForModel s sys l sys' ∧
    match l with
    | .arrive p =>
        sys.router.atBoot = true → (∀ t ∈ p.targets, s.Knows t.version) → sys.floor ≤ p.revision
    | .request _ _ _ | .note _ _ | .read _ | .settle _ | .restart | .fetch | .boot => True

/-- No push is accepted below what a startup sync read. -/
def NotBelow (sys : System) (l : Label) (_ : System) : Prop :=
  match l with
  | .settle p => sys.floor ≤ p.revision
  | .request _ _ _ | .note _ _ | .read _ | .arrive _ | .restart | .fetch | .boot => True

section Decide

variable (s : RouterSettings) (sys : System) (l : Label) (sys' : System)

instance : Decidable (ForModel s sys l sys') :=
  match l with
  | .request _ _ _ => inferInstanceAs (Decidable (_ = true))
  | .note _ _ | .read _ | .arrive _ | .settle _ | .restart | .fetch | .boot => isTrue trivial

instance : Decidable (LateEnough s sys l sys') :=
  match l with
  | .arrive _ => inferInstanceAs (Decidable (_ ∧ (_ → (∀ _ ∈ _, _) → _ ≤ _)))
  | .request _ _ _ | .note _ _ | .read _ | .settle _ | .restart | .fetch | .boot =>
      inferInstanceAs (Decidable (_ ∧ True))

instance : Decidable (NotBelow sys l sys') :=
  match l with
  | .settle _ => inferInstanceAs (Decidable (_ ≤ _))
  | .request _ _ _ | .note _ _ | .read _ | .arrive _ | .restart | .fetch | .boot => isTrue trivial

end Decide

/-! ## 2. The invariant -/

/-- What the process may be once a sync read the revision `floor`. -/
def Process.Above (m : String) (floor : Nat) : Process → Prop
  | .starting f => ∀ c g, f = some (c, g) → c.modelName = m
  | .running config pending =>
      config.modelName = m ∧ (config.revision = 0 ∨ (floor : Int) ≤ config.revision) ∧
        ∀ p ∈ pending, floor ≤ p.revision

structure Above (m : String) (sys : System) : Prop where
  here : ∀ d ∈ sys.db.deployments, d.modelName = m
  sent : ∀ p ∈ sys.sent, p.modelName = m
  router : sys.router.Above m sys.floor

theorem above_start (s : RouterSettings) : Above s.modelName (System.start s) where
  here d hd := (Table.not_mem_empty d hd).elim
  sent _ hp := (List.not_mem_nil hp).elim
  router := ⟨rfl, Or.inl rfl, fun _ hp => (List.not_mem_nil hp).elim⟩

section Step

variable {s : RouterSettings} {sys sys' : System} {log : Log} {l : Label}

/-- A request of the model leaves only its rollouts. -/
theorem named_request {m : String} {db : Db} {env : Env} {req : Request}
    (h : ∀ d ∈ db.deployments, d.modelName = m) (hname : req.names m = true) :
    ∀ d ∈ (req.exec env db).2.deployments, d.modelName = m := by
  refine rows_exec ?_ ?_ h
  · rintro p key rfl
    exact of_decide_eq_true hname
  · intro d row ha hd
    exact ha.modelName_eq.trans hd

/-- **A step of such a run keeps the router above, and accepts nothing below.** -/
theorem above_step (hj : Joint log sys) (hi : Above s.modelName sys)
    (hlate : LateEnough s sys l sys') (h : Step s sys l sys') :
    Above s.modelName sys' ∧ NotBelow sys l sys' := by
  have hrunning : ∀ {config pending}, sys.router = .running config pending →
      config.modelName = s.modelName ∧
        (config.revision = 0 ∨ (sys.floor : Int) ≤ config.revision) ∧
          ∀ p ∈ pending, sys.floor ≤ p.revision := by
    intro config pending hr
    have := hi.router
    rw [hr] at this
    exact this
  cases h with
  | @request env req now' hc =>
      have hhere : ∀ d ∈ (req.exec env sys.db).2.deployments, d.modelName = s.modelName :=
        named_request hi.here hlate.1
      have hsent : ∀ p ∈ sys.sent ++ pushes (req.exec env sys.db).1, p.modelName = s.modelName := by
        intro p hp
        rcases List.mem_append.mp hp with hp | hp
        · exact hi.sent p hp
        · obtain ⟨d, hd, a, _, rfl⟩ := pushes_of_exec hp
          exact hhere d hd
      exact ⟨⟨hhere, hsent, hi.router⟩, trivial⟩
  | note hle ht => exact ⟨⟨hi.here, hi.sent, hi.router⟩, trivial⟩
  | @read id d a hd ha =>
      have hsent : ∀ p ∈ sys.sent ++ [pushOfAllocation d a], p.modelName = s.modelName := by
        intro p hp
        rcases List.mem_append.mp hp with hp | hp
        · exact hi.sent p hp
        · rw [List.mem_singleton.mp hp]
          exact hi.here d (deployment?_eq_some.mp hd).1
      exact ⟨⟨hi.here, hsent, hi.router⟩, trivial⟩
  | @checked p config pending c hr hp hb hk hs =>
      obtain ⟨hm, hrev, hpend⟩ := hrunning hr
      obtain ⟨hcm, hct, _, hcr⟩ := validate_eq_ok hb
      have hnew : sys.floor ≤ p.revision := by
        rcases hrev with hzero | hge
        · have hboot : sys.router.atBoot = true := by
            rw [hr]
            exact decide_eq_true hzero
          exact hlate.2 hboot (hct ▸ hk)
        · -- the check compared it with a config that is above
          by_contra hbelow
          refine hs ⟨?_, ?_⟩
          · rw [hcm, hm, hi.sent p hp]
          · rw [hcr]
            omega
      have hpend' : ∀ q ∈ p :: pending, sys.floor ≤ q.revision := by
        intro q hq
        rcases List.mem_cons.mp hq with rfl | hq
        · exact hnew
        · exact hpend q hq
      exact ⟨⟨hi.here, hi.sent, hm, hrev, hpend'⟩, trivial⟩
  | refused hr hp hno => exact ⟨⟨hi.here, hi.sent, hi.router⟩, trivial⟩
  | @settle p config pending c hr hb hp =>
      obtain ⟨_, _, hpend⟩ := hrunning hr
      obtain ⟨hcm, _, _, hcr⟩ := validate_eq_ok hb
      have hsent : p ∈ sys.sent := (hj.running hr).2 p hp
      have habove : sys.floor ≤ p.revision := hpend p hp
      have hm : c.modelName = s.modelName := hcm.trans (hi.sent p hsent)
      have hrev : (sys.floor : Int) ≤ c.revision := by
        rw [hcr]
        exact_mod_cast habove
      have hpend' : ∀ q ∈ pending.erase p, sys.floor ≤ q.revision := fun q hq =>
        hpend q (List.mem_of_mem_erase hq)
      exact ⟨⟨hi.here, hi.sent, hm, Or.inr hrev, hpend'⟩, habove⟩
  | restart =>
      have hrouter : (Process.starting none).Above s.modelName sys.floor := by
        intro c g h
        cases h
      exact ⟨⟨hi.here, hi.sent, hrouter⟩, trivial⟩
  | @fetch f c hr hc =>
      have hrouter : (Process.starting (some (c,
          sys.db.authoritativeRevision s.modelName))).Above s.modelName sys.floor := by
        intro c' g h
        cases h
        exact (fetched hc).1
      exact ⟨⟨hi.here, hi.sent, hrouter⟩, trivial⟩
  | bootstrap hr =>
      exact ⟨⟨hi.here, hi.sent, rfl, Or.inl rfl, fun _ hp => (List.not_mem_nil hp).elim⟩, trivial⟩
  | @synced c g hr =>
      have habove := hi.router
      rw [hr] at habove
      have hzero := hj.router
      rw [hr] at hzero
      exact ⟨⟨hi.here, hi.sent, habove c g rfl, Or.inl (hzero c g rfl),
        fun _ hp => (List.not_mem_nil hp).elim⟩, trivial⟩

end Step

/-! ## 3. Every run -/

/-- **No old push wins after a restart**, in every run of the router's model in which no push with
    known versions and a revision below the synced one arrives while the router still holds the config
    it booted with. -/
theorem restart_safe (s : RouterSettings) (ls : List Label)
    (hlate : Along (System.next s) (LateEnough s) (System.start s) ls) :
    Along (System.next s) NotBelow (System.start s) ls :=
  (joint_along above_step (above_start s) hlate).1

/-- The router restarts, syncs generation 2, and then gets the push `p`. -/
def sampleRestart (p : Push) : List Label :=
  sampleRollout "fraud-model" ++ [.restart, .fetch, .boot, .arrive p, .settle p]

/-- The push of the generation it synced is accepted. -/
theorem restart_safe_sample :
    (run (System.next sampleRouter) (System.start sampleRouter)
      (sampleRestart (samplePush "fraud-model" 2 (1 / 4)))).isSome = true ∧
    Along (System.next sampleRouter) NotBelow (System.start sampleRouter)
      (sampleRestart (samplePush "fraud-model" 2 (1 / 4))) := by
  refine ⟨by decide +kernel, restart_safe sampleRouter _ ?_⟩
  decide +kernel

/-- **A push of generation 1 is accepted after a sync of generation 2.** -/
theorem restart_unsafe :
    ¬∀ (s : RouterSettings) (ls : List Label),
      Along (System.next s) (ForModel s) (System.start s) ls →
        Along (System.next s) NotBelow (System.start s) ls := by
  intro h
  have hmodel : Along (System.next sampleRouter) (ForModel sampleRouter)
      (System.start sampleRouter) (sampleRestart (samplePush "fraud-model" 1 (1 / 10))) := by
    decide +kernel
  have hbelow : ¬Along (System.next sampleRouter) NotBelow (System.start sampleRouter)
      (sampleRestart (samplePush "fraud-model" 1 (1 / 10))) := by decide +kernel
  exact hbelow (h sampleRouter _ hmodel)

end ModelOps
