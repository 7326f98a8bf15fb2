/-
  File:      ModelOps/System/Twins.lean
  Subject:   Concurrent creates under one Idempotency-Key: the retries of one logical request.

  A create looks its key up once, before anything else. What it does next depends on whether a twin had
  committed by then: a twin's deployment is returned, and without one the create is on its way to an
  INSERT that only the first of them can commit.

  * `Looked` -- the request took a step while no twin had committed: it has looked, and found nothing;
  * `TwinRace` -- the invariant: one of those that looked commits, and the others of them can only fail;
  * **`twins_agree`** -- the twins agree if one of them looked, and only then.
-/
import ModelOps.System.History

namespace ModelOps

open Transact Relational

/-! ## 1. Where a twin stands -/

section Standing

variable (env : Env) (p : CreateDeploymentRequest) (k : String)

/-- Before the first commit; `looked` says that the key was looked up. -/
inductive Before (db : Db) (looked : Prop) : Proc sql ServiceError Reply → Prop where
  | fresh (h : ¬looked) : Before db looked (.running none (createDeployment env p (some k)))
  | checking (h : looked) (c : Service Plan)
      (hc : c = createFresh env p (some k) ∨
        c = insertDeployment env p (newDeployment env p (some k))) : Before db looked (.running none c)
  | inserting (h : looked) (c : Service Plan)
      (hf : Follows database db (startRollout env p (newDeployment env p (some k))) c) :
      Before db looked (.running (some ⟨newDeployment env p (some k), env.named⟩) c)

/-- After a twin has committed `row`. -/
inductive After (row : Deployment) (looked : Prop) : Proc sql ServiceError Reply → Prop where
  | fresh (h : ¬looked) : After row looked (.running none (createDeployment env p (some k)))
  | found (h : ¬looked) : After row looked (.running none (.done (none, ⟨row, false, none⟩)))
  | replied (h : ¬looked) : After row looked (.finished false (.replied ⟨row, false, none⟩))
  | checking (h : looked) (c : Service Plan)
      (hc : c = createFresh env p (some k) ∨
        c = insertDeployment env p (newDeployment env p (some k))) : After row looked (.running none c)
  /-- nothing but errors ahead -/
  | doomed (h : looked) (c : Service Plan) (hc : Only (fun _ => True) (fun _ => False) c) :
      After row looked (.running none c)
  | failed (h : looked) (e : ServiceError) : After row looked (.finished false (.failed e))

end Standing

section Codes

variable {env : Env} {p : CreateDeploymentRequest} {k : String} {db : Db} {row : Deployment}

/-- A create with a key starts with its lookup. -/
theorem create_keyed (hk : k ≠ "") :
    createDeployment env p (some k) = .read (.findByIdempotencyKey k) fun
      | some existing => .done (none, ⟨existing, false, none⟩)
      | none => createFresh env p (some k) := by
  unfold createDeployment lookupKey
  simp only [hk, if_false]
  rfl

/-- What follows the flush of the INSERT. -/
def afterFlush (env : Env) (p : CreateDeploymentRequest) (d : Deployment) :
    Option UniqueConstraint → Service Plan
  | none => startRollout env p d
  | some .idempotencyKey => .fail .integrityError
  | some .primaryKey | some .activePerModel => .read (.activeDeployment p.modelName) fun winner =>
      .fail (.activeDeploymentExists p.modelName
        ((winner.map Deployment.id).getD "<unknown - lost the race>"))

theorem insert_eq (env : Env) (p : CreateDeploymentRequest) (d : Deployment) :
    insertDeployment env p d = .reserve ⟨d, env.named⟩ (afterFlush env p d) := by
  unfold insertDeployment
  show Txn.reserve _ _ = _
  congr 1
  funext v
  cases v with
  | none => rfl
  | some c => cases c <;> rfl

/-- A row that was refused is not tried again. -/
theorem afterFlush_refused (env : Env) (p : CreateDeploymentRequest) (d : Deployment)
    (c : UniqueConstraint) : Only (fun _ => True) (fun _ => False) (afterFlush env p d (some c)) := by
  cases c with
  | idempotencyKey => trivial
  | primaryKey => exact ⟨trivial, fun _ => trivial⟩
  | activePerModel => exact ⟨trivial, fun _ => trivial⟩

/-- Two twins' rows never clear the indexes together. -/
theorem twins_clash (env env' : Env) (p : CreateDeploymentRequest) (k : String) :
    Insertion.clash ⟨newDeployment env p (some k), env.named⟩
      ⟨newDeployment env' p (some k), env'.named⟩ = true := by
  simp [Insertion.clash, newDeployment]

/-- Before a commit the key is not found, and the model is free. -/
theorem find_before (hacc : db.Accepts (newDeployment env p (some k))) :
    db.findByIdempotencyKey k = none :=
  hacc.key_new k rfl

theorem active_before (hacc : db.Accepts (newDeployment env p (some k))) :
    db.getActiveDeployment p.modelName = none := by
  refine latestBy_eq_none.mpr ?_
  intro d hd
  by_contra hp
  simp only [Bool.not_eq_false, Bool.and_eq_true, decide_eq_true_eq] at hp
  exact accepts_apart hacc hd (Or.inr ⟨rfl, open_of_active hp.2, hp.1.symm⟩)

/-- The tables with the row of the twin that has won. -/
structure Won (env : Env) (p : CreateDeploymentRequest) (k : String) (db0 db : Db) : Prop where
  written : ∃ split events, db = db0.applied (createdRow env p (some k)) split events
  new : ∀ d ∈ db0.deployments, d.idempotencyKey ≠ some k

theorem Won.mem {w : Env} {db0 : Db} (h : Won w p k db0 db) :
    createdRow w p (some k) ∈ db.deployments := by
  obtain ⟨split, events, rfl⟩ := h.written
  exact mem_applied.mpr (Or.inl rfl)

/-- It is the only row with the key. -/
theorem Won.only {w : Env} {db0 : Db} (h : Won w p k db0 db) {d : Deployment}
    (hd : d ∈ db.deployments) (hdk : d.idempotencyKey = some k) : d = createdRow w p (some k) := by
  obtain ⟨split, events, rfl⟩ := h.written
  rcases mem_applied.mp hd with rfl | ⟨hd, _⟩
  · rfl
  · exact absurd hdk (h.new d hd)

theorem Won.find {w : Env} {db0 : Db} (h : Won w p k db0 db) :
    db.findByIdempotencyKey k = some (createdRow w p (some k)) := by
  cases hf : db.findByIdempotencyKey k with
  | none => exact absurd rfl (find_eq_none.mp hf _ h.mem)
  | some d =>
      have hmem : d ∈ db.deployments := Table.mem_rows.mp (List.mem_of_find?_eq_some hf)
      rw [h.only hmem (by simpa using List.find?_some hf)]

theorem Won.active {w : Env} {db0 : Db} (h : Won w p k db0 db) :
    ∃ existing, db.getActiveDeployment p.modelName = some existing := by
  cases hg : db.getActiveDeployment p.modelName with
  | some existing => exact ⟨existing, rfl⟩
  | none =>
      have hno := latestBy_eq_none.mp hg _ h.mem
      simp [createdRow, newDeployment, DeploymentStatus.active] at hno

/-- No index lets a second twin in. -/
theorem Won.probe {w : Env} {db0 : Db} (h : Won w p k db0 db) (env : Env) :
    ∃ c, db.probe ⟨newDeployment env p (some k), env.named⟩ = some c := by
  cases hp : db.probe ⟨newDeployment env p (some k), env.named⟩ with
  | some c => exact ⟨c, rfl⟩
  | none =>
      have hnew := (violations_eq_nil.mp (probe_eq_none.mp hp)).key_new k rfl
      rw [h.find] at hnew
      cases hnew

theorem commits_accepted (hacc : db.Accepts (newDeployment env p (some k))) :
    Commits env db (startRollout env p (newDeployment env p (some k)))
      ⟨createdRow env p (some k), true, some ⟨p.modelName, env.newId, db.generation p.modelName + 1,
        createdTargets p⟩⟩
      (createdRow env p (some k)) (some (createdTargets p)) (createdBodies p) :=
  commits_startRollout hacc.id_new

/-- A commit of an INSERT that was flushed writes the row and answers with it. -/
theorem commit_inserting (hacc : db.Accepts (newDeployment env p (some k))) {x : Reply}
    {w : Session} (hf : Follows database db (startRollout env p (newDeployment env p (some k)))
      (.done (some w, x))) :
    (∃ push, x = ⟨createdRow env p (some k), true, push⟩) ∧
    ∃ db', db.flush w = .ok db' ∧ Won env p k db db' := by
  obtain ⟨w', he, hw, _⟩ := commits_accepted hacc
  have heval := hf.eval_eq
  rw [he] at heval
  cases heval
  exact ⟨⟨_, rfl⟩, _, hw.flush, ⟨_, _, rfl⟩, find_eq_none.mp (hacc.key_new k rfl)⟩

end Codes

/-! ## 2. The race -/

section TwinRace

variable {ι : Type} {env : ι → Env} {p : CreateDeploymentRequest} {k : String} {db : Db}

/-- **The invariant**: nobody has committed and at most one holds the indexes, or `w` has committed
    and only those that had not looked can still be answered. -/
inductive TwinRace (env : ι → Env) (p : CreateDeploymentRequest) (k : String) (db : Db)
    (looked : ι → Prop) (c : Config sql ServiceError Reply Db ι) : Prop where
  | undecided (hstore : c.store = db) (hlog : c.log = [])
      (hproc : ∀ i, Before (env i) p k db (looked i) (c.proc i))
      (hheld : ∀ i j, (c.proc i).held.isSome → (c.proc j).held.isSome → i = j) :
      TwinRace env p k db looked c
  | decided (w : ι) (push : Option Push) (hstore : Won (env w) p k db c.store) (hlog : c.log = [w])
      (hw : c.proc w = .finished true (.replied ⟨createdRow (env w) p (some k), true, push⟩))
      (hlooked : looked w)
      (hproc : ∀ i, i ≠ w →
        After (env i) p k (createdRow (env w) p (some k)) (looked i) (c.proc i)) :
      TwinRace env p k db looked c

theorem twinRace_start :
    TwinRace env p k db (fun _ => False)
      (Config.start db fun i => (Request.create p (some k)).program (env i)) := by
  refine .undecided rfl rfl (fun i => .fresh id) ?_
  intro i j hi
  cases hi

variable [DecidableEq ι] [Fintype ι]

omit [Fintype ι] in
/-- Among the sessions only `i` moved. -/
theorem set_proc {Q : ι → Proc sql ServiceError Reply → Prop}
    {c : Config sql ServiceError Reply Db ι} {i : ι} {x : Proc sql ServiceError Reply}
    (hi : Q i x) (hothers : ∀ j, j ≠ i → Q j (c.proc j)) (j : ι) : Q j ((c.set i x).proc j) := by
  by_cases hj : j = i
  · subst hj
    rw [c.set_proc_self]
    exact hi
  · rw [c.set_proc_ne x hj]
    exact hothers j hj

/-- What had looked before has looked. -/
theorem Before.still {env : Env} {looked looked' : Prop} {x : Proc sql ServiceError Reply}
    (h : Before env p k db looked x) (he : looked ↔ looked') : Before env p k db looked' x := by
  rw [← he]
  exact h

/-- A twin that has not moved, after another's commit. -/
theorem Before.after {env : Env} {row : Deployment} {looked : Prop}
    {x : Proc sql ServiceError Reply} (h : Before env p k db looked x) (hfree : x.held = none) :
    After env p k row looked x := by
  cases h with
  | fresh h => exact .fresh h
  | checking h c hc => exact .checking h c hc
  | inserting h c hf => cases hfree

/-- One session after the commit of `w`. -/
theorem after_step (hk : k ≠ "") {w : ι} {c : Config sql ServiceError Reply Db ι} {i : ι}
    {looked : Prop} (hstore : Won (env w) p k db c.store)
    (h : After (env i) p k (createdRow (env w) p (some k)) looked (c.proc i)) :
    ∃ x, After (env i) p k (createdRow (env w) p (some k)) looked x ∧ c.step database i = c.set i x := by
  generalize hx : c.proc i = x at h
  cases h with
  | fresh h =>
      refine ⟨_, .found h, ?_⟩
      unfold Config.step
      rw [hx, create_keyed hk]
      dsimp only
      rw [show database.answer c.store (.findByIdempotencyKey k) = _ from hstore.find]
  | found h =>
      refine ⟨_, .replied h, ?_⟩
      simp [Config.step, hx]
  | replied h =>
      refine ⟨_, .replied h, ?_⟩
      have hc := (Config.set_same hx).symm
      simpa [Config.step, hx] using hc
  | failed h e =>
      refine ⟨_, .failed h e, ?_⟩
      have hc := (Config.set_same hx).symm
      simpa [Config.step, hx] using hc
  | doomed h code hc =>
      cases code with
      | done a => exact hc.elim
      | fail e => exact ⟨_, .failed h e, by simp [Config.step, hx]⟩
      | read q f =>
          exact ⟨_, .doomed h _ (hc.2 (database.answer c.store q)), by simp [Config.step, hx]⟩
      | reserve r f => exact hc.elim
  | checking h code hc =>
      rcases hc with rfl | rfl
      · obtain ⟨existing, hactive⟩ := hstore.active
        refine ⟨.running none (.fail (.activeDeploymentExists p.modelName existing.id)),
          .doomed h _ trivial, ?_⟩
        unfold Config.step
        rw [hx, createFresh_eq]
        dsimp only
        rw [show database.answer c.store (.activeDeployment p.modelName) = _ from hactive]
      · obtain ⟨v, hprobe⟩ := hstore.probe (env i)
        rw [insert_eq] at hx
        by_cases hb : c.blocked database i ⟨newDeployment (env i) p (some k), (env i).named⟩
        · refine ⟨_, .checking h _ (Or.inr (insert_eq _ _ _).symm), ?_⟩
          have hc := (Config.set_same hx).symm
          simpa [Config.step, hx, hb] using hc
        · refine ⟨_, .doomed h _ (afterFlush_refused (env i) p (newDeployment (env i) p (some k)) v),
            ?_⟩
          have hp : database.probe c.store
              ⟨newDeployment (env i) p (some k), (env i).named⟩ = some v := hprobe
          unfold Config.step
          rw [hx]
          dsimp only
          rw [if_neg hb, hp]
          rfl

/-- Who has looked after a step of `i`. -/
def LooksOn (looked : ι → Prop) (c : Config sql ServiceError Reply Db ι) (i j : ι) : Prop :=
  looked j ∨ (j = i ∧ c.log = [])

/-- One session before any commit: it moves on, or it commits. -/
theorem before_step (hk : k ≠ "") {c : Config sql ServiceError Reply Db ι} {i : ι} {looked : Prop}
    (hacc : db.Accepts (newDeployment (env i) p (some k))) (hstore : c.store = db)
    (h : Before (env i) p k db looked (c.proc i)) :
    (∃ x, Before (env i) p k db True x ∧ c.step database i = c.set i x ∧
      (x.held.isSome → (c.proc i).held.isSome ∨
        ¬c.blocked database i ⟨newDeployment (env i) p (some k), (env i).named⟩)) ∨
    ∃ push db', Won (env i) p k db db' ∧ (c.proc i).held.isSome ∧ c.step database i =
      { c.set i (.finished true (.replied ⟨createdRow (env i) p (some k), true, push⟩)) with
        store := db', log := c.log ++ [i] } := by
  generalize hx : c.proc i = x at h
  cases h with
  | fresh h =>
      refine Or.inl ⟨_, .checking trivial _ (Or.inl rfl), ?_, fun hh => (nomatch hh)⟩
      unfold Config.step
      rw [hx, create_keyed hk]
      dsimp only
      rw [hstore, show database.answer db (.findByIdempotencyKey k) = _ from find_before hacc]
  | checking h code hc =>
      rcases hc with rfl | rfl
      · refine Or.inl ⟨_, .checking trivial _ (Or.inr rfl), ?_, fun hh => (nomatch hh)⟩
        unfold Config.step
        rw [hx, createFresh_eq]
        dsimp only
        rw [hstore, show database.answer db (.activeDeployment p.modelName) = _ from
          active_before hacc]
      · rw [insert_eq] at hx
        by_cases hb : c.blocked database i ⟨newDeployment (env i) p (some k), (env i).named⟩
        · refine Or.inl ⟨_, .checking trivial _ (Or.inr (insert_eq _ _ _).symm), ?_,
            fun hh => (nomatch hh)⟩
          have hc := (Config.set_same hx).symm
          simpa [Config.step, hx, hb] using hc
        · refine Or.inl ⟨_, .inserting trivial _ (.here _), ?_, fun _ => Or.inr hb⟩
          have hp : database.probe db
              ⟨newDeployment (env i) p (some k), (env i).named⟩ = none :=
            probe_eq_none.mpr (violations_eq_nil.mpr hacc)
          unfold Config.step
          rw [hx]
          dsimp only
          rw [if_neg hb, hstore, hp]
          rfl
  | inserting h code hf =>
      cases code with
      | read q f =>
          refine Or.inl ⟨_, .inserting trivial _ hf.snoc, ?_, fun _ => Or.inl rfl⟩
          simp [Config.step, hx, hstore]
      | reserve r f => exact (hf.only (only_startRollout (env i) p _)).elim
      | fail e =>
          obtain ⟨w, he, _⟩ := commits_accepted hacc
          have heval := hf.eval_eq
          rw [he] at heval
          cases heval
      | done plan =>
          obtain ⟨w | w, x⟩ := plan
          · obtain ⟨w, he, _⟩ := commits_accepted hacc
            have heval := hf.eval_eq
            rw [he] at heval
            cases heval
          · obtain ⟨⟨push, rfl⟩, db', hflush, hwon⟩ := commit_inserting hacc hf
            have hcommit : database.commit c.store w = .ok db' := hstore ▸ hflush
            refine Or.inr ⟨push, db', hwon, rfl, ?_⟩
            unfold Config.step
            rw [hx]
            dsimp only
            rw [hcommit]

omit [DecidableEq ι] [Fintype ι] in
/-- A twin that holds the indexes blocks the INSERT of any other. -/
theorem Before.blocks {c : Config sql ServiceError Reply Db ι} {i j : ι} {looked : Prop}
    (h : Before (env j) p k db looked (c.proc j)) (hj : j ≠ i) (hheld : (c.proc j).held.isSome) :
    c.blocked database i ⟨newDeployment (env i) p (some k), (env i).named⟩ := by
  refine ⟨j, hj, ?_⟩
  generalize c.proc j = x at h hheld
  cases h with
  | fresh => cases hheld
  | checking => cases hheld
  | inserting => exact twins_clash _ _ p k

omit [Fintype ι] in
/-- One session at a time holds the indexes, also after one that was put where no other holds them. -/
theorem held_set {c : Config sql ServiceError Reply Db ι} {i : ι} {x : Proc sql ServiceError Reply}
    (hheld : ∀ a b, (c.proc a).held.isSome → (c.proc b).held.isSome → a = b)
    (hfree : x.held.isSome → ∀ j, j ≠ i → ¬(c.proc j).held.isSome) (a b : ι)
    (ha : ((c.set i x).proc a).held.isSome) (hb : ((c.set i x).proc b).held.isSome) : a = b := by
  by_cases hai : a = i
  · by_cases hbi : b = i
    · rw [hai, hbi]
    · subst hai
      rw [c.set_proc_self] at ha
      rw [c.set_proc_ne x hbi] at hb
      exact absurd hb (hfree ha b hbi)
  · rw [c.set_proc_ne x hai] at ha
    by_cases hbi : b = i
    · subst hbi
      rw [c.set_proc_self] at hb
      exact absurd ha (hfree hb a hai)
    · rw [c.set_proc_ne x hbi] at hb
      exact hheld a b ha hb

/-- **Every step keeps the race.** -/
theorem twinRace_step (hk : k ≠ "") (hacc : ∀ i, db.Accepts (newDeployment (env i) p (some k)))
    {looked : ι → Prop} {c : Config sql ServiceError Reply Db ι} (h : TwinRace env p k db looked c)
    (i : ι) : TwinRace env p k db (LooksOn looked c i) (c.step database i) := by
  cases h with
  | undecided hstore hlog hproc hheld =>
      have hsame : ∀ j, j ≠ i → (looked j ↔ LooksOn looked c i j) := by
        intro j hj
        simp [LooksOn, hj]
      have hself : LooksOn looked c i i := Or.inr ⟨rfl, hlog⟩
      rcases before_step hk (hacc i) hstore (hproc i) with
        ⟨x, hx, hstep, hnew⟩ | ⟨push, db', hwon, hheldi, hstep⟩
      · rw [hstep]
        refine .undecided hstore hlog ?_ ?_
        · refine set_proc (Q := fun j => Before (env j) p k db (LooksOn looked c i j)) ?_ ?_
          · exact hx.still (iff_of_true trivial hself)
          · exact fun j hj => (hproc j).still (hsame j hj)
        · -- the indexes admit one of the twins at a time
          refine held_set hheld ?_
          intro hxh j hj hjh
          rcases hnew hxh with hih | hb
          · exact hj (hheld j i hjh hih)
          · exact hb ((hproc j).blocks hj hjh)
      · rw [hstep]
        refine .decided i push hwon (by simp [hlog]) ?_ hself ?_
        · exact c.set_proc_self i _
        · intro j hj
          have hjfree : (c.proc j).held = none := by
            cases hjh : (c.proc j).held with
            | none => rfl
            | some r => exact absurd (hheld j i (hjh ▸ rfl) hheldi) hj
          show After _ _ _ _ _ ((c.set i _).proc j)
          rw [c.set_proc_ne _ hj]
          exact ((hproc j).still (hsame j hj)).after hjfree
  | decided w push hstore hlog hw hlooked hproc =>
      have hlooks : LooksOn looked c i = looked := by
        funext j
        simp [LooksOn, hlog]
      rw [hlooks]
      by_cases hi : i = w
      · subst hi
        have hstep : c.step database i = c := by simp [Config.step, hw]
        rw [hstep]
        exact .decided i push hstore hlog hw hlooked hproc
      · obtain ⟨x, hx, hstep⟩ := after_step hk hstore (hproc i hi)
        rw [hstep]
        refine .decided w push hstore hlog ?_ hlooked ?_
        · rw [c.set_proc_ne x (Ne.symm hi)]
          exact hw
        · intro j hj
          by_cases hji : j = i
          · subst hji
            rw [c.set_proc_self]
            exact hx
          · rw [c.set_proc_ne x hji]
            exact hproc j hj

end TwinRace

/-! ## 3. Every interleaving -/

section Twins

variable {ι : Type} [DecidableEq ι] [Fintype ι]

/-- The retries of one logical request. -/
def twins (env : ι → Env) (p : CreateDeploymentRequest) (k : String) : ι → Env × Request :=
  fun i => (env i, .create p (some k))

/-- No deployment with the key is committed. -/
def Uncommitted (k : String) (db : Db) : Prop := ∀ d ∈ db.deployments, d.idempotencyKey ≠ some k

/-- Twin `i` took a step while no deployment with the key was committed: its first step is the lookup,
    so it has looked and found nothing. -/
def Looked (env : ι → Env) (p : CreateDeploymentRequest) (k : String) (db : Db) (schedule : List ι)
    (i : ι) : Prop :=
  ∃ l l', schedule = l ++ i :: l' ∧ Uncommitted k (interleave (twins env p k) db l).store

/-- **The twins agree**: whoever is done was answered with the deployment that has the key, there is
    one such deployment, and exactly one of the twins created it. -/
structure TwinsAgree (k : String) (c : Config sql ServiceError Reply Db ι) : Prop where
  answered : ∀ i b o, c.proc i = .finished b o →
    ∃ d reply, o = .replied reply ∧ reply.deployment = d ∧ d ∈ c.store.deployments ∧
      d.idempotencyKey = some k
  single : ∀ d ∈ c.store.deployments, ∀ d' ∈ c.store.deployments,
    d.idempotencyKey = some k → d'.idempotencyKey = some k → d = d'
  creator : (∃ i b o, c.proc i = .finished b o) →
    ∃! i, ∃ b reply, c.proc i = .finished b (.replied reply) ∧ reply.created = true

variable {env : ι → Env} {p : CreateDeploymentRequest} {k : String} {db : Db}

theorem interleave_snoc (requests : ι → Env × Request) (db : Db) (l : List ι) (i : ι) :
    interleave requests db (l ++ [i]) = (interleave requests db l).step database i :=
  (Config.steps_append database _ l [i]).trans rfl

omit [DecidableEq ι] [Fintype ι] in
theorem TwinRace.uncommitted {looked : ι → Prop} {c : Config sql ServiceError Reply Db ι}
    (hnew : Uncommitted k db) (h : TwinRace env p k db looked c) :
    c.log = [] ↔ Uncommitted k c.store := by
  cases h with
  | undecided hstore hlog hproc hheld => exact iff_of_true hlog (hstore ▸ hnew)
  | decided w push hstore hlog hw hlooked hproc =>
      refine iff_of_false (by simp [hlog]) ?_
      intro hun
      exact hun _ hstore.mem rfl

theorem twinRace_steps (hk : k ≠ "") (hacc : ∀ i, db.Accepts (newDeployment (env i) p (some k)))
    (hnew : Uncommitted k db) (schedule : List ι) :
    TwinRace env p k db (Looked env p k db schedule) (interleave (twins env p k) db schedule) := by
  induction schedule using List.reverseRecOn with
  | nil =>
      have hnone : Looked env p k db [] = fun _ => False := by
        funext i
        simp [Looked]
      rw [hnone]
      exact twinRace_start
  | append_singleton l i ih =>
      have hlooks : Looked env p k db (l ++ [i]) =
          LooksOn (Looked env p k db l) (interleave (twins env p k) db l) i := by
        funext j
        refine propext ?_
        unfold LooksOn
        rw [ih.uncommitted hnew]
        constructor
        · rintro ⟨l1, l2, hsplit, hun⟩
          rcases List.eq_nil_or_concat l2 with rfl | ⟨l2, x, rfl⟩
          · obtain ⟨rfl, hi⟩ := List.append_inj' hsplit rfl
            cases hi
            exact Or.inr ⟨rfl, hun⟩
          · left
            have hsplit' : l ++ [i] = (l1 ++ j :: l2) ++ [x] := by simpa using hsplit
            obtain ⟨rfl, _⟩ := List.append_inj' hsplit' rfl
            exact ⟨l1, l2, rfl, hun⟩
        · rintro (⟨l1, l2, rfl, hun⟩ | ⟨rfl, hun⟩)
          · exact ⟨l1, l2 ++ [i], by simp, hun⟩
          · exact ⟨l, [], rfl, hun⟩
      rw [hlooks, interleave_snoc]
      exact twinRace_step hk hacc ih i

variable {looked : ι → Prop} {c : Config sql ServiceError Reply Db ι}

omit [DecidableEq ι] [Fintype ι] in
/-- Where at most one twin has looked, the race leaves them in agreement. -/
theorem TwinRace.agree (hnew : Uncommitted k db) (h : TwinRace env p k db looked c)
    (hone : ∀ i j, looked i → looked j → i = j) : TwinsAgree k c := by
  cases h with
  | undecided hstore hlog hproc hheld =>
      have hnobody : ∀ i b o, c.proc i ≠ .finished b o := by
        intro i b o hp
        have hb := hproc i
        rw [hp] at hb
        cases hb
      refine ⟨fun i b o hp => absurd hp (hnobody i b o), ?_, ?_⟩
      · intro d hd d' _ hdk
        rw [hstore] at hd
        exact absurd hdk (hnew d hd)
      · rintro ⟨i, b, o, hp⟩
        exact absurd hp (hnobody i b o)
  | decided w push hstore hlog hw hlooked hproc =>
      have hrow : (createdRow (env w) p (some k)).idempotencyKey = some k := rfl
      have hother : ∀ i b o, i ≠ w → c.proc i = .finished b o →
          o = .replied ⟨createdRow (env w) p (some k), false, none⟩ := by
        intro i b o hi hp
        have ha := hproc i hi
        have hnot : ¬looked i := fun hl => hi (hone i w hl hlooked)
        rw [hp] at ha
        cases ha with
        | replied => rfl
        | failed h => exact absurd h hnot
      refine ⟨?_, ?_, fun _ => ⟨w, ⟨true, _, hw, rfl⟩, ?_⟩⟩
      · intro i b o hp
        by_cases hi : i = w
        · subst hi
          rw [hw] at hp
          cases hp
          exact ⟨_, _, rfl, rfl, hstore.mem, hrow⟩
        · exact ⟨_, _, hother i b o hi hp, rfl, hstore.mem, hrow⟩
      · intro d hd d' hd' hdk hdk'
        rw [hstore.only hd hdk, hstore.only hd' hdk']
      · rintro i ⟨b, reply, hp, hcreated⟩
        by_contra hi
        have ho := hother i b _ hi hp
        cases ho
        cases hcreated

omit [DecidableEq ι] [Fintype ι] in
/-- A twin that looked and lost ends in an error, so twins that agree to the end have not. -/
theorem TwinRace.only_winner (h : TwinRace env p k db looked c)
    (hdone : ∀ i, ∃ b o, c.proc i = .finished b o) (hagree : TwinsAgree k c) {i j : ι}
    (hi : looked i) (hj : looked j) : i = j := by
  cases h with
  | undecided hstore hlog hproc hheld =>
      obtain ⟨b, o, hp⟩ := hdone i
      have hb := hproc i
      rw [hp] at hb
      cases hb
  | decided w push hstore hlog hw hlooked hproc =>
      have hwinner : ∀ x, looked x → x = w := by
        intro x hx
        by_contra hne
        obtain ⟨b, o, hp⟩ := hdone x
        obtain ⟨d, reply, rfl, _⟩ := hagree.answered x b o hp
        have ha := hproc x hne
        rw [hp] at ha
        cases ha with
        | replied hnot => exact hnot hx
      rw [hwinner i hi, hwinner j hj]

/-- **Twins agree if only one of them looked before a commit, and in a run to the end only then.** -/
theorem twins_agree (env : ι → Env) (p : CreateDeploymentRequest) (k : String) (hk : k ≠ "")
    (db : Db) (hacc : ∀ i, db.Accepts (newDeployment (env i) p (some k)))
    (hnew : Uncommitted k db) (schedule : List ι) :
    let c := interleave (twins env p k) db schedule
    let OneLooked := ∀ i j, Looked env p k db schedule i → Looked env p k db schedule j → i = j
    (OneLooked → TwinsAgree k c) ∧
    ((∀ i, ∃ b o, c.proc i = .finished b o) → TwinsAgree k c → OneLooked) := by
  intro c OneLooked
  have hrace : TwinRace env p k db (Looked env p k db schedule) c := twinRace_steps hk hacc hnew schedule
  constructor
  · intro hone
    exact hrace.agree hnew hone
  · intro hdone hagree i j hi hj
    exact hrace.only_winner hdone hagree hi hj

end Twins

/-- Two tries of one request. -/
def sampleTwins : Fin 2 → Env
  | 0 => Env.after 0 "d1"
  | 1 => Env.after 10 "d2"

/-- Their sessions, from the empty tables. -/
def raceTwins (schedule : List (Fin 2)) : Config sql ServiceError Reply Db (Fin 2) :=
  interleave (twins sampleTwins (sampleCreate "fraud-model") "demo-1") .empty schedule

/-- The first try runs to its end before the second begins. -/
theorem twins_agree_sample : TwinsAgree "demo-1" (raceTwins [0, 0, 0, 0, 0, 0, 1, 1]) := by
  have hacc : ∀ i, Db.empty.Accepts
      (newDeployment (sampleTwins i) (sampleCreate "fraud-model") (some "demo-1")) := by
    intro i
    exact ⟨rfl, fun _ _ => rfl, fun _ d hd => (Table.not_mem_empty d hd).elim⟩
  refine (twins_agree sampleTwins (sampleCreate "fraud-model") "demo-1" (by decide) .empty hacc
    (fun d hd => (Table.not_mem_empty d hd).elim) _).1 ?_
  -- the second try steps only after the commit
  have hcommitted : ∀ n < 8, n < 6 ∨
      ((raceTwins (([0, 0, 0, 0, 0, 0, 1, 1] : List (Fin 2)).take n)).store.findByIdempotencyKey
        "demo-1").isSome = true := by decide +kernel
  have hfirst : ∀ n < 6, ([0, 0, 0, 0, 0, 0, 1, 1] : List (Fin 2))[n]? = some 0 := by decide
  have hzero : ∀ i, Looked sampleTwins (sampleCreate "fraud-model") "demo-1" .empty
      [0, 0, 0, 0, 0, 0, 1, 1] i → i = 0 := by
    rintro i ⟨l, l', hsplit, hun⟩
    have hlen : l.length < 8 := by
      have hlength := congrArg List.length hsplit
      simp only [List.length_append, List.length_cons, List.length_nil] at hlength
      omega
    have htake : ([0, 0, 0, 0, 0, 0, 1, 1] : List (Fin 2)).take l.length = l := by
      rw [hsplit, List.take_left]
    have hget : ([0, 0, 0, 0, 0, 0, 1, 1] : List (Fin 2))[l.length]? = some i := by
      rw [hsplit, List.getElem?_append_right (Nat.le_refl _), Nat.sub_self]
      rfl
    rcases hcommitted l.length hlen with hn | hn
    · rw [hfirst l.length hn] at hget
      exact (Option.some.inj hget).symm
    · rw [htake] at hn
      have hnone : (raceTwins l).store.findByIdempotencyKey "demo-1" = none := find_eq_none.mpr hun
      rw [hnone] at hn
      cases hn
  intro i j hi hj
  rw [hzero i hi, hzero j hj]

/-- **Twins that overlap disagree**: the second try ends in an IntegrityError where both reach their
    INSERT, and in an ActiveDeploymentExistsError that names its own twin where only its lookup came
    too early. -/
theorem twins_disagree :
    (¬TwinsAgree "demo-1" (raceTwins [0, 1, 0, 1, 0, 0, 0, 0, 1, 1]) ∧
      failure ((raceTwins [0, 1, 0, 1, 0, 0, 0, 0, 1, 1]).proc 1) = some .integrityError) ∧
    ¬TwinsAgree "demo-1" (raceTwins [0, 1, 0, 0, 0, 0, 0, 1, 1]) ∧
      failure ((raceTwins [0, 1, 0, 0, 0, 0, 0, 1, 1]).proc 1) =
        some (.activeDeploymentExists "fraud-model" "d1") := by
  have hfails : ∀ schedule e, failure ((raceTwins schedule).proc 1) = some e →
      ¬TwinsAgree "demo-1" (raceTwins schedule) := by
    intro schedule e hf hagree
    obtain ⟨committed, outcome, hend, herror, _⟩ := failure_eq_some hf
    obtain ⟨_, reply, rfl, _⟩ := hagree.answered 1 committed outcome hend
    exact herror
  have hinsert : failure ((raceTwins [0, 1, 0, 1, 0, 0, 0, 0, 1, 1]).proc 1) =
      some .integrityError := by decide +kernel
  have hactive : failure ((raceTwins [0, 1, 0, 0, 0, 0, 0, 1, 1]).proc 1) =
      some (.activeDeploymentExists "fraud-model" "d1") := by decide +kernel
  exact ⟨⟨hfails _ _ hinsert, hinsert⟩, hfails _ _ hactive, hactive⟩

end ModelOps
