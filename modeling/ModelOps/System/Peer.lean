/-
  File:      ModelOps/System/Peer.lean
  Subject:   The control plane against any HTTP peer in the router's place: what GET and PUT
             /router/config may answer, and which exceptions leave `reconcile_router_state` and
             `_push_best_effort` (app/control_plane/router_gateway.py, reconcile.py, service.py).

  The gateway catches `httpx.HTTPError` only, and the reconciler takes the decoded body for a dict. A
  write of a session succeeds unless the database driver refuses a parameter, the reported name in the
  SELECT or the text of the event in the INSERT; what the driver makes of one is `bind`.

  * `reconcile_readsBack` -- for a body that describes a router config it is ControlPlane/Reconcile.lean;
  * `pushBestEffort_eq` -- a push is recorded as System/History.lean says, whatever the answer;
  * **`reconcile_returns`** -- the tick returns exactly if the answer to its GET is readable, and the
    event of the correction it leads to, if any, can be written.
-/
import ModelOps.Lib.Http
import ModelOps.Router.Predict
import ModelOps.System.History

namespace ModelOps

open Python Relational

/-! ## 1. The peer -/

/-- What the two calls of the tick come to. -/
structure Peer where
  get : Http.Answer Body
  put : Push → Http.Answer Body

/-- The exceptions that nothing catches. -/
inductive Escape where
  /-- `response.json()` on what is not JSON -/
  | valueError
  /-- `observed.get` on what is not a dict -/
  | attributeError
  /-- the driver refuses the parameter -/
  | bindError
  /-- any other exception of `response.json()` -/
  | raised
  deriving DecidableEq, Repr

/-- What a value is as a parameter of the driver. -/
inductive Bound where
  | text (value : String)
  | null
  | refused
  deriving DecidableEq, Repr

/-- `push_traffic_allocation`. -/
def pushTrafficAllocation : Http.Answer Body → Except PushError Unit
  | .httpError => .error .routerUpdate
  | .answered statusCode _ =>
      if statusCode = 409 then .error .staleRevision
      else if Http.isSuccess statusCode then .ok ()
      else .error .routerUpdate

/-- `get_observed_config`; `None` and JSON's null are the same. -/
def getObservedConfig (answer : Http.Answer Body) : Except Escape Json :=
  match answer.checked with
  | none => .ok .null
  | some (.json value) => .ok value
  | some (.invalid _) => .error .valueError
  | some .raised => .error .raised

/-- `_push_best_effort`. -/
def pushBestEffort (now : Time) (db : Db) (deploymentId : String) (answer : Http.Answer Body) :
    Except Escape Db :=
  match pushTrafficAllocation answer with
  | .error .staleRevision => .ok (recordRouterReachabilityChange now db deploymentId true)
  | .error .routerUpdate => .ok (recordRouterReachabilityChange now db deploymentId false)
  | .ok () => .ok (recordRouterReachabilityChange now db deploymentId true)

/-! ## 2. The tick -/

/-- `ReconcileResult`; `from_revision` is what the router reported. -/
structure PeerResult where
  reconciled : Bool
  reason : String
  deploymentId : Option String := none
  fromRevision : Option Json := none
  toRevision : Option Nat := none

/-- The event `router_reconciled`, whose text shows what the router reported. -/
structure Correction where
  deploymentId : String
  observedDeploymentId : Json
  observedRevision : Json
  revision : Nat
  createdAt : Time

/-- A value in an f-string; `repr` is that of a float, a list or a dict. -/
def formatted (repr : Json → Text) : Json → Text
  | .null => .ofString "None"
  | .bool b => .ofString (if b then "True" else "False")
  | .int n => .ofString (toString n)
  | .str t => t
  | value => repr value

/-- The column `message` of the event. -/
def Correction.message (repr : Json → Text) (c : Correction) : Text :=
  .ofString "reconciled router config: deployment=" ++ formatted repr c.observedDeploymentId ++
    .ofString " revision=" ++ formatted repr c.observedRevision ++
    .ofString s!" -> deployment={c.deploymentId} revision={c.revision}"

/-- The tick's result, the tables after it but for its correction, the correction, and the push. -/
structure PeerTick where
  result : PeerResult
  db : Db
  correction : Option Correction := none
  sent : Option Push := none

/-- `observed.get(key, default)`. -/
def observedMember (members : List (Text × Json)) (key : String) (default : Json) : Json :=
  (members.lookup (.ofString key)).getD default

/-- The tick once the push was answered. -/
def finishPeerTick (clock : Clock) (db : Db) (observedDeploymentId observedRevision : Json)
    (d : Deployment) (a : TrafficAllocation) : Except PushError Unit → PeerTick
  | .error .staleRevision => { result := { reconciled := false, reason := "already in sync (race)" }
                               db := db }
  | .error .routerUpdate => { result := { reconciled := false, reason := "router unreachable" }
                              db := recordRouterReachabilityChange (clock.event 1) db d.id false }
  | .ok () =>
      { result := ⟨true, "corrected drift", some d.id, some observedRevision, some a.revision⟩
        db := db
        correction := some ⟨d.id, observedDeploymentId, observedRevision, a.revision, clock.event 1⟩ }

/-- The router reports the deployment under its revision. -/
def inSync (members : List (Text × Json)) (d : Deployment) (a : TrafficAllocation) : Bool :=
  (observedMember members "deployment_id" .null).equalsStr d.id &&
    (observedMember members "revision" (.int 0)).equalsInt a.revision

/-- The tick once the model's deployment is known. -/
def comparePeer (clock : Clock) (db : Db) (members : List (Text × Json)) (d : Deployment)
    (a : TrafficAllocation) (put : Push → Http.Answer Body) : PeerTick :=
  let db := recordRouterReachabilityChange (clock.event 0) db d.id true
  if inSync members d a then
    { result := { reconciled := false, reason := "already in sync" }, db := db }
  else
    let push := pushOfAllocation d a
    { finishPeerTick clock db (observedMember members "deployment_id" .null)
        (observedMember members "revision" (.int 0)) d a (pushTrafficAllocation (put push)) with
      sent := some push }

/-- The tick's last commit: the INSERT of the correction goes through if the driver takes its text. -/
def PeerTick.commit (bind : Json → Bound) (repr : Json → Text) (tick : PeerTick) :
    Except Escape PeerTick :=
  match tick.correction with
  | none => .ok tick
  | some c => if bind (.str (c.message repr)) = .refused then .error .bindError else .ok tick

/-- `get_authoritative_allocation` of what the driver made of the name, with its allocation. -/
def Db.authoritativeOf (db : Db) : Bound → Except Escape (Option (Deployment × TrafficAllocation))
  | .refused => .error .bindError
  | .null => .ok none
  | .text modelName => .ok <| (db.getAuthoritativeAllocation modelName).bind fun d =>
      (db.trafficAllocation? d.id).map fun a => (d, a)

/-- The tick once the router was observed. -/
def reconcileObserved (bind : Json → Bound) (repr : Json → Text) (clock : Clock) (db : Db)
    (put : Push → Http.Answer Body) : Json → Except Escape PeerTick
  | .null => .ok { result := { reconciled := false, reason := "router unreachable" }
                   db := db.markUnreachable clock }
  | .obj members =>
      let modelName := observedMember members "model_name" .null
      if modelName.truthy then
        match db.authoritativeOf (bind modelName) with
        | .error e => .error e
        | .ok none => .ok { result := { reconciled := false, reason := "no authoritative allocation" }
                            db := db }
        | .ok (some (d, a)) => (comparePeer clock db members d a put).commit bind repr
      else
        .ok { result := { reconciled := false, reason := "router reported no model_name" }, db := db }
  | _ => .error .attributeError

/-- `reconcile_router_state`. -/
def Peer.reconcileRouterState (bind : Json → Bound) (repr : Json → Text) (clock : Clock) (db : Db)
    (peer : Peer) : Except Escape PeerTick :=
  getObservedConfig peer.get >>= reconcileObserved bind repr clock db peer.put

/-! ## 3. Which answers can be read -/

/-- The body is null, or an object whose model name is empty or one that the driver takes. -/
def Body.readable (bind : Json → Bound) : Body → Bool
  | .json .null => true
  | .json (.obj members) =>
      let modelName := observedMember members "model_name" .null
      !modelName.truthy || decide (bind modelName ≠ .refused)
  | _ => false

/-- A success has a body that is readable. -/
def Readable (bind : Json → Bound) (answer : Http.Answer Body) : Prop :=
  ∀ body ∈ answer.checked, body.readable bind = true

instance (bind : Json → Bound) (answer : Http.Answer Body) : Decidable (Readable bind answer) :=
  inferInstanceAs (Decidable (∀ _ ∈ answer.checked, _))

/-- What the tick corrects. -/
def correctionOf (clock : Clock) (members : List (Text × Json)) (d : Deployment)
    (a : TrafficAllocation) : Correction :=
  ⟨d.id, observedMember members "deployment_id" .null, observedMember members "revision" (.int 0),
    a.revision, clock.event 1⟩

/-- If the GET reports a model with a deployment that it is not in sync with, and the PUT of that
    deployment's allocation is a success, the driver takes the text about what was reported. -/
def Peer.Noteworthy (bind : Json → Bound) (repr : Json → Text) (clock : Clock) (db : Db)
    (peer : Peer) : Prop :=
  ∀ members, peer.get.checked = some (.json (.obj members)) →
    let modelName := observedMember members "model_name" .null
    modelName.truthy = true → ∀ d a, db.authoritativeOf (bind modelName) = .ok (some (d, a)) →
      inSync members d a = false → pushTrafficAllocation (peer.put (pushOfAllocation d a)) = .ok () →
        bind (.str ((correctionOf clock members d a).message repr)) ≠ .refused

section Returns

variable {bind : Json → Bound} {repr : Json → Text} {clock : Clock} {db : Db} {peer : Peer}
  {put : Push → Http.Answer Body} {members : List (Text × Json)} {d : Deployment}
  {a : TrafficAllocation}

/-- The lookup returns unless the driver refuses the name. -/
theorem authoritativeOf_returns (db : Db) (b : Bound) :
    (∃ found, db.authoritativeOf b = .ok found) ↔ b ≠ .refused := by
  cases b with
  | refused => exact iff_of_false (fun ⟨_, h⟩ => by cases h) (fun h => h rfl)
  | null => exact iff_of_true ⟨_, rfl⟩ (fun h => by cases h)
  | text modelName => exact iff_of_true ⟨_, rfl⟩ (fun h => by cases h)

/-- The last commit goes through unless the driver refuses the text of a correction. -/
theorem commit_returns (tick : PeerTick) :
    (∃ tick', tick.commit bind repr = .ok tick') ↔
      ∀ c ∈ tick.correction, bind (.str (c.message repr)) ≠ .refused := by
  unfold PeerTick.commit
  cases tick.correction with
  | none => exact iff_of_true ⟨_, rfl⟩ (fun c hc => by cases hc)
  | some c =>
      dsimp only
      by_cases h : bind (.str (c.message repr)) = .refused
      · rw [if_pos h]
        exact iff_of_false (fun ⟨_, h⟩ => by cases h) (fun hc => hc c rfl h)
      · rw [if_neg h]
        exact iff_of_true ⟨_, rfl⟩ (fun c' hc' => by
          cases hc'
          exact h)

/-- The last commit changes nothing about the tick. -/
theorem commit_eq {tick tick' : PeerTick} (h : tick.commit bind repr = .ok tick') : tick' = tick := by
  unfold PeerTick.commit at h
  split at h
  · exact (Except.ok.inj h).symm
  · split at h
    · cases h
    · exact (Except.ok.inj h).symm

/-- The tick corrects the router if it was behind and took the push. -/
theorem comparePeer_correction (c : Correction) :
    c ∈ (comparePeer clock db members d a put).correction ↔
      inSync members d a = false ∧ pushTrafficAllocation (put (pushOfAllocation d a)) = .ok () ∧
        c = correctionOf clock members d a := by
  unfold comparePeer
  cases inSync members d a with
  | true => exact iff_of_false (fun h => by cases h) (fun h => by cases h.1)
  | false =>
      rw [if_neg Bool.false_ne_true]
      dsimp only
      cases pushTrafficAllocation (put (pushOfAllocation d a)) with
      | ok u =>
          constructor
          · intro h
            cases h
            exact ⟨rfl, rfl, rfl⟩
          · rintro ⟨_, _, rfl⟩
            rfl
      | error e => cases e <;> exact iff_of_false (fun h => by cases h) (fun h => by cases h.2.1)

/-- An object with a model name: the driver takes the name, and the text of a correction. -/
theorem reconcileObserved_obj (members : List (Text × Json)) :
    (∃ tick, reconcileObserved bind repr clock db put (.obj members) = .ok tick) ↔
      ((observedMember members "model_name" .null).truthy = true →
        bind (observedMember members "model_name" .null) ≠ .refused ∧
        ∀ d a, db.authoritativeOf (bind (observedMember members "model_name" .null)) =
            .ok (some (d, a)) →
          inSync members d a = false → pushTrafficAllocation (put (pushOfAllocation d a)) = .ok () →
            bind (.str ((correctionOf clock members d a).message repr)) ≠ .refused) := by
  unfold reconcileObserved
  by_cases ht : (observedMember members "model_name" .null).truthy = true
  · simp only [if_pos ht]
    rw [imp_iff_right ht, ← authoritativeOf_returns db]
    cases hfound : db.authoritativeOf (bind (observedMember members "model_name" .null)) with
    | error e => exact iff_of_false (fun ⟨_, h⟩ => by cases h) (fun ⟨⟨_, h⟩, _⟩ => by cases h)
    | ok found =>
        cases found with
        | none => exact iff_of_true ⟨_, rfl⟩ ⟨⟨_, rfl⟩, fun d a h => by cases h⟩
        | some found =>
            obtain ⟨d, a⟩ := found
            simp only [commit_returns, comparePeer_correction]
            constructor
            · intro h
              refine ⟨⟨_, rfl⟩, ?_⟩
              intro d' a' hfound' hsync hput
              cases hfound'
              exact h _ ⟨hsync, hput, rfl⟩
            · rintro ⟨_, h⟩ c ⟨hsync, hput, rfl⟩
              exact h d a rfl hsync hput
  · simp only [if_neg ht]
    exact iff_of_true ⟨_, rfl⟩ (fun h => absurd h ht)

/-- **The tick returns exactly if the answer to its GET is readable** and the correction it asks for,
    if any, can be written. -/
theorem reconcile_returns :
    (∃ tick, peer.reconcileRouterState bind repr clock db = .ok tick) ↔
      Readable bind peer.get ∧ peer.Noteworthy bind repr clock db := by
  have hescape : ∀ e, ¬∃ tick : PeerTick, (.error e : Except Escape PeerTick) = .ok tick :=
    fun e ⟨_, h⟩ => by cases h
  unfold Peer.reconcileRouterState getObservedConfig Readable
  cases hchecked : peer.get.checked with
  | none =>
      refine iff_of_true ⟨_, rfl⟩ ⟨fun body hbody => (by cases hbody), fun members hmembers => ?_⟩
      rw [hchecked] at hmembers
      cases hmembers
  | some body =>
      have hreadable : (∀ b ∈ some body, b.readable bind = true) ↔ body.readable bind = true :=
        ⟨fun h => h body rfl, fun h b hb => by
          cases hb
          exact h⟩
      rw [hreadable]
      cases body with
      | invalid text => exact iff_of_false (hescape _) (fun h => by cases h.1)
      | raised => exact iff_of_false (hescape _) (fun h => by cases h.1)
      | json value =>
          cases value with
          | null =>
              refine iff_of_true ⟨_, rfl⟩ ⟨rfl, fun members hmembers => ?_⟩
              rw [hchecked] at hmembers
              cases hmembers
          | bool b => exact iff_of_false (hescape _) (fun h => by cases h.1)
          | int n => exact iff_of_false (hescape _) (fun h => by cases h.1)
          | float x => exact iff_of_false (hescape _) (fun h => by cases h.1)
          | str t => exact iff_of_false (hescape _) (fun h => by cases h.1)
          | arr items => exact iff_of_false (hescape _) (fun h => by cases h.1)
          | obj members =>
              refine (reconcileObserved_obj members).trans ?_
              have hname : (Body.json (.obj members)).readable bind = true ↔
                  ((observedMember members "model_name" .null).truthy = true →
                    bind (observedMember members "model_name" .null) ≠ .refused) := by
                show (!(observedMember members "model_name" .null).truthy || decide _) = true ↔ _
                rw [Bool.or_eq_true, Bool.not_eq_true', decide_eq_true_eq, ← Bool.not_eq_true,
                  imp_iff_not_or]
              rw [hname, imp_and]
              refine and_congr_right fun _ => ⟨fun h members' hmembers => ?_, fun h => h members hchecked⟩
              rw [hchecked] at hmembers
              cases hmembers
              exact h

end Returns

/-! ## 4. A router behind the peer -/

/-- What the members say of a router is the config `observed`. -/
structure Describes (members : List (Text × Json)) (observed : RouterConfig) : Prop where
  modelName : observedMember members "model_name" .null = .str (.ofString observed.modelName)
  deploymentId : observedMember members "deployment_id" .null =
    observed.deploymentId.elim .null fun id => .str (.ofString id)
  revision : observedMember members "revision" (.int 0) = .int observed.revision

/-- The driver takes a text for itself. -/
def TakesText (bind : Json → Bound) : Prop := ∀ s, bind (.str (.ofString s)) = .text s

/-- The tick, where what was reported is `observed`. -/
def PeerTick.readAs (observed : RouterConfig) (t : PeerTick) : Tick where
  result := ⟨t.result.reconciled, t.result.reason, t.result.deploymentId,
    t.result.fromRevision.map fun _ => observed.revision, t.result.toRevision⟩
  db := t.db.noted (t.correction.toList.map fun c => ⟨c.deploymentId,
    .routerReconciled observed.deploymentId observed.revision c.deploymentId c.revision, c.createdAt⟩)
  sent := t.sent

/-- The gateway to a router that reports `observed`, and answers pushes as the peer does. -/
def Peer.gateway (peer : Peer) (observed : Option RouterConfig) : Gateway :=
  ⟨observed, fun push => pushTrafficAllocation (peer.put push)⟩

section ReadsBack

variable {bind : Json → Bound} {repr : Json → Text} {clock : Clock} {db : Db} {peer : Peer} {observed : RouterConfig}
  {members : List (Text × Json)} {d : Deployment} {a : TrafficAllocation}

/-- A tick that corrected nothing is read as it is. -/
theorem readAs_silent (reason : String) (db : Db) (sent : Option Push) :
    PeerTick.readAs observed { result := { reconciled := false, reason := reason }, db := db, sent := sent } =
      { result := ⟨false, reason, none, none, none⟩, db := db, sent := sent } := by
  unfold PeerTick.readAs
  rw [Option.toList_none, List.map_nil, noted_nil]
  rfl

/-- The comparison is that of the typed values. -/
theorem Describes.inSync (h : Describes members observed) :
    inSync members d a = decide (observed.InSync d a) := by
  unfold ModelOps.inSync
  have hid : (observedMember members "deployment_id" .null).equalsStr d.id =
      decide (observed.deploymentId = some d.id) := by
    rw [h.deploymentId]
    cases observed.deploymentId with
    | none => rfl
    | some id =>
        show (Json.str (.ofString id)).equalsStr d.id = _
        rw [equalsStr_ofString, decide_eq_decide, Option.some_inj]
  rw [hid, h.revision]
  exact (Bool.decide_and _ _).symm

theorem ofString_append (s s' : String) :
    Text.ofString (s ++ s') = Text.ofString s ++ Text.ofString s' := by
  unfold Text.ofString
  rw [String.toList_append, List.map_append]

/-- The text of the correction is the one of the event that records it. -/
theorem Describes.message (h : Describes members observed) :
    (correctionOf clock members d a).message repr = .ofString
      (EventBody.routerReconciled observed.deploymentId observed.revision d.id a.revision).message := by
  have hid : formatted repr (observedMember members "deployment_id" .null) =
      .ofString (observed.deploymentId.getD "None") := by
    rw [h.deploymentId]
    cases observed.deploymentId with
    | none => rfl
    | some id => rfl
  have hrevision : formatted repr (observedMember members "revision" (.int 0)) =
      .ofString (toString observed.revision) := by
    rw [h.revision]
    rfl
  have hwhole : ∀ o r d n : String, Text.ofString "reconciled router config: deployment=" ++
      Text.ofString o ++ Text.ofString " revision=" ++ Text.ofString r ++
      Text.ofString (" -> deployment=" ++ d ++ " revision=" ++ n) =
      Text.ofString ("reconciled router config: deployment=" ++ o ++ " " ++
        ("revision=" ++ r ++ " -> deployment=" ++ d ++ " revision=" ++ n)) := by
    intro o r d n
    have hlabel : " " ++ "revision=" = " revision=" := by decide
    have hsplit : ∀ x, " " ++ ("revision=" ++ x) = " revision=" ++ x := fun x => by
      rw [← String.append_assoc, hlabel]
    simp only [← ofString_append, String.append_assoc, hsplit]
  unfold Correction.message correctionOf
  dsimp only
  rw [hid, hrevision]
  exact hwhole _ _ _ _

/-- From the deployment on, the tick is that of ControlPlane/Reconcile.lean. -/
theorem comparePeer_readAs (h : Describes members observed) :
    (comparePeer clock db members d a peer.put).readAs observed =
      (let db' := recordRouterReachabilityChange (clock.event 0) db d.id true
       if observed.InSync d a then
         { result := ⟨false, "already in sync", none, none, none⟩, db := db' }
       else
         let answer := finishTick clock db' observed d a
           (pushTrafficAllocation (peer.put (pushOfAllocation d a)))
         { result := answer.1, db := answer.2, sent := some (pushOfAllocation d a) }) := by
  unfold comparePeer
  simp only [h.inSync, decide_eq_true_eq]
  by_cases hsync : observed.InSync d a
  · simp only [if_pos hsync, readAs_silent]
  · simp only [if_neg hsync]
    cases pushTrafficAllocation (peer.put (pushOfAllocation d a)) with
    | ok u => rfl
    | error e =>
        cases e with
        | staleRevision => exact readAs_silent "already in sync (race)" _ _
        | routerUpdate => exact readAs_silent "router unreachable" _ _

/-- **A body that describes a router config is reconciled as the config is.** -/
theorem reconcile_readsBack (hbind : TakesText bind)
    (hget : peer.get.checked = some (.json (.obj members))) (h : Describes members observed) :
    ∃ tick, peer.reconcileRouterState bind repr clock db = .ok tick ∧
      tick.readAs observed = reconcileRouterState clock db (peer.gateway (some observed)) := by
  have hreconcile : peer.reconcileRouterState bind repr clock db =
      reconcileObserved bind repr clock db peer.put (.obj members) := by
    unfold Peer.reconcileRouterState getObservedConfig
    rw [hget]
    rfl
  rw [hreconcile]
  unfold reconcileObserved reconcileRouterState
  simp only [h.modelName, truthy_ofString, decide_eq_true_eq, hbind observed.modelName, Peer.gateway]
  by_cases hm : observed.modelName = ""
  · rw [if_neg (not_not.mpr hm), if_pos hm]
    exact ⟨_, rfl, readAs_silent _ _ _⟩
  · rw [if_pos hm, if_neg hm]
    cases hd : db.getAuthoritativeAllocation observed.modelName with
    | none =>
        simp only [Db.authoritativeOf, hd, Option.bind_none]
        exact ⟨_, rfl, readAs_silent _ _ _⟩
    | some d =>
        cases ha : db.trafficAllocation? d.id with
        | none =>
            simp only [Db.authoritativeOf, hd, ha, Option.bind_some, Option.map_none]
            exact ⟨_, rfl, readAs_silent _ _ _⟩
        | some a =>
            simp only [Db.authoritativeOf, hd, ha, Option.bind_some, Option.map_some]
            have hreturns : ∃ tick,
                (comparePeer clock db members d a peer.put).commit bind repr = .ok tick := by
              refine (commit_returns _).mpr fun c hc => ?_
              obtain ⟨_, _, rfl⟩ := (comparePeer_correction c).mp hc
              rw [h.message, hbind]
              intro hrefused
              cases hrefused
            obtain ⟨tick, htick⟩ := hreturns
            rw [commit_eq htick] at htick
            exact ⟨_, htick, comparePeer_readAs h⟩

end ReadsBack

/-! ## 5. Talking to the router -/

/-- A push is recorded by what the gateway made of the answer, and every answer is recorded. -/
theorem pushBestEffort_eq (now : Time) (db : Db) (id : String) (answer : Http.Answer Body) :
    pushBestEffort now db id answer = .ok (recordPushed now db id (pushTrafficAllocation answer)) := by
  unfold pushBestEffort
  cases pushTrafficAllocation answer with
  | ok u => rfl
  | error e => cases e <;> rfl

/-- So does JSON that is not an object; null is taken for a router that does not answer. -/
example : ¬Readable (fun _ => .null) (.answered 200 (.json (.arr []))) ∧
    Readable (fun _ => .null) (.answered 200 (.json .null)) := by decide +kernel

/-- A router that takes every push, and reports a lone surrogate for its deployment. -/
def surrogatePeer : Peer where
  get := .answered 200 (.json (.obj [(.ofString "model_name", .str (.ofString "fraud-model")),
    (.ofString "deployment_id", .str [0xD800])]))
  put _ := .answered 200 (.json .null)

/-- A driver of UTF-8. -/
def utf8 : Json → Bound
  | .str t => (t.decode.map Bound.text).getD .refused
  | _ => .null

/-- The report is readable, but the event about it cannot be written. -/
example : Readable utf8 surrogatePeer.get ∧
    (surrogatePeer.reconcileRouterState utf8 (fun _ => []) ⟨30, 31, []⟩
      (Tables.empty.after sampleHistory).db).toOption.isNone = true := by decide +kernel

end ModelOps
