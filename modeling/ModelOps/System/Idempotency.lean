/-
  File:      ModelOps/System/Idempotency.lean
  Subject:   POST /api/deployments under an Idempotency-Key, in any history of one call after another.

  The key is looked up only if it is not empty, but it is stored as it came, under a unique index. So
  the empty key dedupes nothing, and its second use is refused by the index.

  * `CreateIdempotent` -- what a create has to do: replay a known key, refuse only an occupied model;
  * `create_iff` -- it does, but for an empty key that is on record;
  * **`creates_idempotent_iff`** -- so the creates of a history are idempotent exactly if none of them
    brings an empty key that is on record.
-/
import ModelOps.System.History

namespace ModelOps

open Relational Transact

/-! ## 1. One create -/

section Create

variable {env : Env} {db : Db} {p : CreateDeploymentRequest} {key : Option String}

/-- No deployment has the key. -/
def KeyNew (db : Db) (key : Option String) : Prop :=
  ∀ d ∈ db.deployments, key.isSome → d.idempotencyKey ≠ key

/-- The model has a rollout nobody has resolved. -/
def Occupied (db : Db) (modelName : String) : Prop :=
  ∃ d ∈ db.deployments, d.modelName = modelName ∧ d.Open

theorem keyNew_find {k : String} (h : KeyNew db key) (hk : key = some k) :
    db.findByIdempotencyKey k = none :=
  find_eq_none.mpr fun d hd => hk ▸ h d hd (hk ▸ rfl)

theorem accepts_new (hid : db.deployment? env.newId = none) (hkey : KeyNew db key)
    (hfree : ¬Occupied db p.modelName) : db.Accepts (newDeployment env p key) where
  id_new := hid
  key_new _ hk := keyNew_find hkey hk
  model_free _ d hd hm := by
    cases ht : d.status.terminal with
    | true => rfl
    | false => exact absurd ⟨d, hd, hm, ht⟩ hfree

/-- What is not replayed takes the way of a create without a key. -/
theorem eval_create_new (env : Env) (p : CreateDeploymentRequest)
    (hkey : key ≠ some "" → KeyNew db key) :
    ((Request.create p key).program env).eval database db =
      (createFresh env p key).eval database db := by
  rcases createDeployment_eq env p key with he | ⟨k, rfl, he⟩
  · exact congrArg _ he
  · by_cases hk : k = ""
    · subst hk
      rfl
    · have hnone := keyNew_find (hkey fun h => hk (Option.some.inj h)) rfl
      show (createDeployment env p (some k)).eval database db = _
      rw [he, Txn.eval_read, show database.answer db (.findByIdempotencyKey k) = none from hnone]

/-- A known key is replayed. -/
theorem exec_create_known {k : String} {d : Deployment} (hs : Schema db) (hk : k ≠ "")
    (hd : d ∈ db.deployments) (hdk : d.idempotencyKey = some k) :
    (Request.create p (some k)).exec env db = (.ok ⟨d, false, none⟩, db) := by
  have hfind : db.findByIdempotencyKey k = some d := by
    cases hf : db.findByIdempotencyKey k with
    | none => exact absurd hdk (find_eq_none.mp hf d hd)
    | some d' =>
        have hmem : d' ∈ db.deployments := Table.mem_rows.mp (List.mem_of_find?_eq_some hf)
        have hdk' : d'.idempotencyKey = some k := by simpa using List.find?_some hf
        rw [hs d' hmem d hd (Or.inl ⟨hdk' ▸ rfl, hdk'.trans hdk.symm⟩)]
  refine exec_of_reply ?_
  show (createDeployment env p (some k)).eval database db = _
  unfold createDeployment lookupKey
  simp only [hk, if_false]
  rw [eval_select_bind, answer_findByIdempotencyKey, hfind]
  rfl

/-- A free model and a new key: the rollout is created. -/
theorem exec_create_free (hid : db.deployment? env.newId = none) (hkey : KeyNew db key)
    (hfree : ¬Occupied db p.modelName) :
    ((Request.create p key).exec env db).1 = .ok ⟨createdRow env p key, true,
      some ⟨p.modelName, env.newId, db.generation p.modelName + 1, createdTargets p⟩⟩ := by
  have hacc := accepts_new hid hkey hfree
  have he : ((Request.create p key).program env).eval database db =
      (startRollout env p (newDeployment env p key)).eval database db := eval_create_accepts hacc
  rw [exec_of_commits ((commits_startRollout hacc.id_new).congr he)]

/-- The INSERT that some index refuses ends in an error. -/
theorem eval_insert_refused {c : UniqueConstraint}
    (h : db.probe ⟨newDeployment env p key, env.named⟩ = some c) :
    ∃ e, (insertDeployment env p (newDeployment env p key)).eval database db = .error e ∧
      (c ≠ .idempotencyKey → ∃ id, e = .activeDeploymentExists p.modelName id) := by
  unfold insertDeployment
  rw [eval_insertRow_bind, h]
  cases c with
  | idempotencyKey => exact ⟨_, rfl, fun hne => absurd rfl hne⟩
  | primaryKey => exact ⟨_, rfl, fun _ => ⟨_, rfl⟩⟩
  | activePerModel => exact ⟨_, rfl, fun _ => ⟨_, rfl⟩⟩

theorem eval_createFresh_read (env : Env) (db : Db) (p : CreateDeploymentRequest)
    (key : Option String) :
    (∃ id, (createFresh env p key).eval database db =
      .error (.activeDeploymentExists p.modelName id)) ∨
    (createFresh env p key).eval database db =
      (insertDeployment env p (newDeployment env p key)).eval database db := by
  rw [createFresh_eq, Txn.eval_read,
    show database.answer db (.activeDeployment p.modelName) = db.getActiveDeployment p.modelName from
      rfl]
  cases db.getActiveDeployment p.modelName with
  | some existing => exact Or.inl ⟨existing.id, rfl⟩
  | none => exact Or.inr rfl

/-- An occupied model and a new key: the create is refused as such. -/
theorem exec_create_occupied (hid : db.deployment? env.newId = none) (hkey : KeyNew db key)
    (hocc : Occupied db p.modelName) :
    ∃ id, ((Request.create p key).exec env db).1 =
      .error (.activeDeploymentExists p.modelName id) := by
  have he := eval_create_new env p fun _ => hkey
  rcases eval_createFresh_read env db p key with ⟨id, h⟩ | h
  · exact ⟨id, by rw [exec_of_error (he.trans h)]⟩
  · -- the index on the model is the only one that can refuse the row
    have hviol : db.violations (newDeployment env p key) = [.activePerModel] := by
      obtain ⟨d, hd, hm, ho⟩ := hocc
      have hid' : db.deployment? (newDeployment env p key).id = none := hid
      have hk : (newDeployment env p key).idempotencyKey.any
          (fun k => (db.findByIdempotencyKey k).isSome) = false := by
        cases hkey' : key with
        | none => rfl
        | some k =>
            show (db.findByIdempotencyKey k).isSome = false
            rw [keyNew_find hkey hkey']
            rfl
      unfold Db.violations
      rw [hid', hk]
      simp only [Option.isSome_none, Bool.false_eq_true, if_false, List.nil_append]
      rw [if_pos]
      simp only [Bool.and_eq_true, List.any_eq_true, decide_eq_true_eq, Bool.not_eq_true']
      exact ⟨rfl, d, hd, hm, ho⟩
    have hprobe : db.probe ⟨newDeployment env p key, env.named⟩ = some .activePerModel := by
      unfold Db.probe
      simp only [hviol, List.mem_singleton, List.head?_cons]
      split
      · rename_i hn
        rw [hn]
      · rfl
    obtain ⟨e, heval, herr⟩ := eval_insert_refused hprobe
    obtain ⟨id, rfl⟩ := herr (by decide)
    exact ⟨id, by rw [exec_of_error (he.trans (h.trans heval))]⟩

/-- An empty key that is on record: the create fails. -/
theorem exec_create_empty (env : Env) (p : CreateDeploymentRequest) {d : Deployment}
    (hd : d ∈ db.deployments)
    (hdk : d.idempotencyKey = some "") :
    ∃ e, ((Request.create p (some "")).exec env db).1 = .error e := by
  have he : ((Request.create p (some "")).program env).eval database db = _ :=
    eval_create_new env p fun h => absurd rfl h
  rcases eval_createFresh_read env db p (some "") with ⟨id, h⟩ | h
  · exact ⟨_, by rw [exec_of_error (he.trans h)]⟩
  · cases hprobe : db.probe ⟨newDeployment env p (some ""), env.named⟩ with
    | none =>
        have hacc := violations_eq_nil.mp (probe_eq_none.mp hprobe)
        exact absurd hdk (find_eq_none.mp (hacc.key_new "" rfl) d hd)
    | some c =>
        obtain ⟨e, heval, _⟩ := eval_insert_refused hprobe
        exact ⟨e, by rw [exec_of_error (he.trans (h.trans heval))]⟩

/-- **What a create has to do**: return the deployment that has its key, and fail for nothing but an
    occupied model. -/
structure CreateIdempotent (env : Env) (p : CreateDeploymentRequest) (key : Option String) (db : Db) :
    Prop where
  replayed : ∀ d ∈ db.deployments, key.isSome → d.idempotencyKey = key →
    (Request.create p key).exec env db = (.ok ⟨d, false, none⟩, db)
  fails_only : ∀ e, ((Request.create p key).exec env db).1 = .error e →
    ∃ id, e = .activeDeploymentExists p.modelName id
  refused_iff : (∃ id, ((Request.create p key).exec env db).1 =
      .error (.activeDeploymentExists p.modelName id)) ↔
    KeyNew db key ∧ Occupied db p.modelName

/-- **A create does so, but for an empty key that is on record.** -/
theorem create_iff (hs : Schema db) (hid : db.deployment? env.newId = none) :
    CreateIdempotent env p key db ↔
      ¬(key = some "" ∧ ∃ d ∈ db.deployments, d.idempotencyKey = some "") := by
  constructor
  · rintro h ⟨rfl, d, hd, hdk⟩
    have hreplay := h.replayed d hd rfl hdk
    obtain ⟨e, he⟩ := exec_create_empty env p hd hdk
    rw [hreplay] at he
    cases he
  · intro hempty
    by_cases hknown : ∃ d ∈ db.deployments, key.isSome ∧ d.idempotencyKey = key
    · obtain ⟨d, hd, hsome, hdk⟩ := hknown
      obtain ⟨k, rfl⟩ := Option.isSome_iff_exists.mp hsome
      have hk : k ≠ "" := by
        rintro rfl
        exact hempty ⟨rfl, d, hd, hdk⟩
      have hreplay : ∀ d' ∈ db.deployments, d'.idempotencyKey = some k →
          (Request.create p (some k)).exec env db = (.ok ⟨d', false, none⟩, db) :=
        fun d' hd' hdk' => exec_create_known hs hk hd' hdk'
      have hok := hreplay d hd hdk
      refine ⟨fun d' hd' _ => hreplay d' hd', ?_, ?_⟩
      · intro e he
        rw [hok] at he
        cases he
      · constructor
        · rintro ⟨id, he⟩
          rw [hok] at he
          cases he
        · rintro ⟨hnew, _⟩
          exact absurd hdk (hnew d hd rfl)
    · have hnew : KeyNew db key := fun d hd hsome hdk => hknown ⟨d, hd, hsome, hdk⟩
      by_cases hocc : Occupied db p.modelName
      · obtain ⟨id, he⟩ := exec_create_occupied hid hnew hocc
        refine ⟨fun d hd hsome hdk => absurd ⟨d, hd, hsome, hdk⟩ hknown, ?_, ?_⟩
        · intro e he'
          rw [he] at he'
          exact ⟨id, (Except.error.inj he').symm⟩
        · exact iff_of_true ⟨id, he⟩ ⟨hnew, hocc⟩
      · have hok := exec_create_free (p := p) hid hnew hocc
        refine ⟨fun d hd hsome hdk => absurd ⟨d, hd, hsome, hdk⟩ hknown, ?_, ?_⟩
        · intro e he
          rw [hok] at he
          cases he
        · refine iff_of_false ?_ fun h => hocc h.2
          rintro ⟨id, he⟩
          rw [hok] at he
          cases he

/-- The deployment a create answers with is there after it, and has the key. -/
theorem exec_create_ok {reply : Reply} (h : ((Request.create p key).exec env db).1 = .ok reply)
    (hkey : key.isSome) :
    ∃ d, ((Request.create p key).exec env db).2.deployment? reply.deployment.id = some d ∧
      d.idempotencyKey = key := by
  have hfresh : ((Request.create p key).program env).eval database db =
      (createFresh env p key).eval database db →
      ∃ d, ((Request.create p key).exec env db).2.deployment? reply.deployment.id = some d ∧
        d.idempotencyKey = key := by
    intro he
    rcases eval_createFresh env db p key with ⟨e, hf⟩ | ⟨_, hc⟩
    · rw [exec_of_error (he.trans hf)] at h
      cases h
    · rw [exec_of_commits (hc.congr he)] at h ⊢
      cases h
      exact ⟨createdRow env p key, by rw [applied_deployment?]; exact if_pos rfl, rfl⟩
  rcases createDeployment_eq env p key with he | ⟨k, rfl, he⟩
  · exact hfresh (congrArg _ he)
  · cases hf : db.findByIdempotencyKey k with
    | none =>
        apply hfresh
        show (createDeployment env p (some k)).eval database db = _
        rw [he, Txn.eval_read, show database.answer db (.findByIdempotencyKey k) = none from hf]
    | some existing =>
        have hprog : ((Request.create p (some k)).program env).eval database db =
            .ok (none, ⟨existing, false, none⟩) := by
          show (createDeployment env p (some k)).eval database db = _
          rw [he, Txn.eval_read, show database.answer db (.findByIdempotencyKey k) = some existing from hf]
          rfl
        rw [exec_of_reply hprog] at h ⊢
        cases h
        have hmem : existing ∈ db.deployments := Table.mem_rows.mp (List.mem_of_find?_eq_some hf)
        exact ⟨existing, deployment?_eq_some.mpr ⟨hmem, rfl⟩, by simpa using List.find?_some hf⟩

end Create

/-! ## 2. Histories -/

/-- `create p key` under `env` is the call after `before` in the history. -/
def Creates (calls before : List ApiCall) (env : Env) (p : CreateDeploymentRequest)
    (key : Option String) : Prop :=
  ∃ rest, calls = before ++ .lifecycle env (.create p key) :: rest

/-- The tables the call after `before` finds. -/
abbrev dbAfter (before : List ApiCall) : Db := (Tables.empty.after before).db

/-- What `uuid4` grants: a new deployment gets an id that no deployment has. -/
def FreshIds (calls : List ApiCall) : Prop :=
  ∀ before env p key, Creates calls before env p key →
    (dbAfter before).deployment? env.newId = none

/-- **The creates of a history are idempotent**: each does what it has to, a key never has two
    deployments, and what answered a request under a key answers the next one. -/
structure IdempotentCreates (calls : List ApiCall) : Prop where
  each : ∀ before env p key, Creates calls before env p key →
    CreateIdempotent env p key (dbAfter before)
  single : ∀ k, ∀ d ∈ (dbAfter calls).deployments, ∀ d' ∈ (dbAfter calls).deployments,
    d.idempotencyKey = some k → d'.idempotencyKey = some k → d = d'
  again : ∀ before between env p env' p' k reply, Creates calls before env p (some k) →
    Creates calls (before ++ .lifecycle env (.create p (some k)) :: between) env' p' (some k) →
    ((Request.create p (some k)).exec env (dbAfter before)).1 = .ok reply →
    let db := dbAfter (before ++ .lifecycle env (.create p (some k)) :: between)
    ∃ d ∈ db.deployments, d.id = reply.deployment.id ∧
      (Request.create p' (some k)).exec env' db = (.ok ⟨d, false, none⟩, db)

/-- No create brings an empty key while a deployment has it. -/
def EmptyKeyOnce (calls : List ApiCall) : Prop :=
  ∀ before env p, Creates calls before env p (some "") →
    ∀ d ∈ (dbAfter before).deployments, d.idempotencyKey ≠ some ""

theorem schema_after (calls : List ApiCall) : Schema (dbAfter calls) :=
  (after_shaped calls ⟨schema_empty, shaped_empty⟩).1

/-- A deployment keeps its id and its key, whatever is called. -/
theorem key_stays (calls : List ApiCall) {t : Tables} {id : String} {key : Option String}
    (h : ∃ d, t.db.deployment? id = some d ∧ d.idempotencyKey = key) :
    ∃ d, (t.after calls).db.deployment? id = some d ∧ d.idempotencyKey = key := by
  refine after_inv_rows
    (P := fun db => ∃ d, db.deployment? id = some d ∧ d.idempotencyKey = key) ?_ ?_ calls h
  · rintro env db req ⟨d, hd, hk⟩
    obtain ⟨rfl, hd⟩ := found hd
    rcases exec_turns env req hd with ⟨hd', _⟩ | ⟨row, split, events, hturn, hid, hdb⟩
    · exact ⟨d, hd', hk⟩
    · refine ⟨row, ?_, hturn.amends.idempotencyKey_eq.trans hk⟩
      rw [hdb, applied_deployment?, if_pos hid.symm]
  · exact fun db events h => h

/-- **The creates of a history are idempotent exactly if none brings an empty key that is on
    record.** -/
theorem creates_idempotent_iff (calls : List ApiCall) (hids : FreshIds calls) :
    IdempotentCreates calls ↔ EmptyKeyOnce calls := by
  have hstep : ∀ before env p key, Creates calls before env p key →
      (CreateIdempotent env p key (dbAfter before) ↔
        ¬(key = some "" ∧ ∃ d ∈ (dbAfter before).deployments, d.idempotencyKey = some "")) :=
    fun before env p key hc => create_iff (schema_after before) (hids before env p key hc)
  constructor
  · intro h before env p hc d hd hdk
    exact (hstep before env p _ hc).mp (h.each before env p _ hc) ⟨rfl, d, hd, hdk⟩
  · intro honce
    have heach : ∀ before env p key, Creates calls before env p key →
        CreateIdempotent env p key (dbAfter before) := by
      intro before env p key hc
      refine (hstep before env p key hc).mpr ?_
      rintro ⟨rfl, d, hd, hdk⟩
      exact honce before env p hc d hd hdk
    refine ⟨heach, ?_, ?_⟩
    · intro k d hd d' hd' hk hk'
      exact schema_after calls d hd d' hd' (Or.inl ⟨hk ▸ rfl, hk.trans hk'.symm⟩)
    · intro before between env p env' p' k reply hc hc' hok
      obtain ⟨d, hd, hdk⟩ := exec_create_ok hok rfl
      have hstays := key_stays between
        (t := (ApiCall.lifecycle env (.create p (some k))).exec (Tables.empty.after before))
        ⟨d, hd, hdk⟩
      have hdb : dbAfter (before ++ .lifecycle env (.create p (some k)) :: between) =
          (((ApiCall.lifecycle env (.create p (some k))).exec (Tables.empty.after before)).after
            between).db := by
        rw [dbAfter, after_append]
        rfl
      obtain ⟨d', hd', hdk'⟩ := hstays
      rw [← hdb] at hd'
      obtain ⟨hmem, hid⟩ := deployment?_eq_some.mp hd'
      exact ⟨d', hmem, hid, (heach _ env' p' _ hc').replayed d' hmem rfl hdk'⟩

/-- Two creates of one key, with a promotion between them. -/
def sampleCreates (key : String) (second : String) : List ApiCall :=
  [.lifecycle (Env.after 0 "d1") (.create (sampleCreate "fraud-model") (some key)),
    .lifecycle (Env.after 10 "unused") (.promote "d1" .manual),
    .lifecycle (Env.after 20 "d2") (.create (sampleCreate second) (some key))]

/-- The creates of the sample, where they stand. -/
theorem sampleCreates_cases {key second : String} {before : List ApiCall} {env : Env}
    {p : CreateDeploymentRequest} {k : Option String}
    (h : Creates (sampleCreates key second) before env p k) :
    (before = [] ∧ env = Env.after 0 "d1" ∧ k = some key) ∨
    (before = (sampleCreates key second).take 2 ∧ env = Env.after 20 "d2" ∧ k = some key) := by
  obtain ⟨rest, h⟩ := h
  unfold sampleCreates at h
  rcases before with _ | ⟨c0, before⟩
  · cases h
    exact Or.inl ⟨rfl, rfl, rfl⟩
  · rcases before with _ | ⟨c1, before⟩
    · cases h
    · rcases before with _ | ⟨c2, before⟩
      · cases h
        exact Or.inr ⟨rfl, rfl, rfl⟩
      · rcases before with _ | ⟨c3, before⟩ <;> cases h

/-- A retry with a key of its own is answered with the deployment of the first try. -/
theorem creates_idempotent_iff_sample :
    IdempotentCreates (sampleCreates "demo-1" "fraud-model") := by
  refine (creates_idempotent_iff _ ?_).mpr ?_
  · intro before env p k hc
    rcases sampleCreates_cases hc with ⟨rfl, rfl, _⟩ | ⟨rfl, rfl, _⟩
    · rfl
    · decide +kernel
  · intro before env p hc
    have hne : ("" : String) ≠ "demo-1" := by decide
    rcases sampleCreates_cases hc with ⟨_, _, hk⟩ | ⟨_, _, hk⟩
    · exact absurd (Option.some.inj hk) hne
    · exact absurd (Option.some.inj hk) hne

/-- The second create with an empty key is an IntegrityError that nobody catches. -/
theorem empty_key_not_idempotent :
    FreshIds (sampleCreates "" "churn-model") ∧
    ¬IdempotentCreates (sampleCreates "" "churn-model") ∧
    (match ((Request.create (sampleCreate "churn-model") (some "")).exec (Env.after 20 "d2")
        (dbAfter ((sampleCreates "" "churn-model").take 2))).1 with
      | .error e => decide (e = .integrityError)
      | .ok _ => false) = true := by
  have hfails : (match ((Request.create (sampleCreate "churn-model") (some "")).exec
        (Env.after 20 "d2") (dbAfter ((sampleCreates "" "churn-model").take 2))).1 with
      | .error e => decide (e = .integrityError)
      | .ok _ => false) = true := by decide +kernel
  refine ⟨?_, ?_, hfails⟩
  · intro before env p k hc
    rcases sampleCreates_cases hc with ⟨rfl, rfl, _⟩ | ⟨rfl, rfl, _⟩
    · rfl
    · decide +kernel
  · intro h
    have hthird : Creates (sampleCreates "" "churn-model")
        ((sampleCreates "" "churn-model").take 2) (Env.after 20 "d2") (sampleCreate "churn-model")
        (some "") := ⟨[], rfl⟩
    have honly := (h.each _ _ _ _ hthird).fails_only
    split at hfails
    · rename_i e he
      obtain ⟨id, rfl⟩ := honly e he
      cases hfails
    · cases hfails

end ModelOps
