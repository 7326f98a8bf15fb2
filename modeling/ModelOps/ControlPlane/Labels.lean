/-
  File:      ModelOps/ControlPlane/Labels.lean
  Subject:   Sessions that report ground truth, beside sessions that record metrics, step by step
             (app/control_plane/label_service.py, labels_api.py, metrics_service.record_metric).

  A call of `ingest_label` looks the label up, inserts and commits, looks it up again where it lost the
  INSERT, and looks for the metric; a conflict commits an event. Each of these is one step (`IngestAt`),
  between any two of which every other session may take any of its own. A batch is a session that makes
  its calls one after another.

  * `LabelCall.step`, `act` -- the code; `ingest_alone`: with nothing beside it, it is `ingestLabel`;
  * `Knows`, `Answers` -- what a call may rely on where it stands, and what its answer says;
  * **`session_rules`** -- the sessions obey the rely-guarantee rule, with rows only added;
  * `act_left` -- a session comes to its end, whatever the others do.
-/
import ModelOps.Lib.Interference
import ModelOps.ControlPlane.Metrics

namespace ModelOps

open Relational Interference

/-! ## 1. Sessions -/

/-- The tables the two kinds of sessions write. -/
structure QualityTables where
  predictionMetrics : List MetricRow
  groundTruthLabels : Table GroundTruthLabel.predictionId
  deploymentEvents : List DeploymentEvent

def QualityTables.empty : QualityTables := ⟨[], .empty _, []⟩

/-- A call of `ingest_label`, and the reading of its clock. -/
structure LabelCall where
  payload : LabelIn
  now : Time

def LabelCall.predictionId (call : LabelCall) : String := call.payload.predictionId

/-- The row the call inserts. -/
def LabelCall.row (call : LabelCall) : GroundTruthLabel where
  predictionId := call.payload.predictionId
  actualLabel := call.payload.actualLabel
  occurredAt := call.payload.occurredAt
  ingestedAt := call.now

/-- What a call raises. -/
inductive LabelFailure where
  | conflict (e : LabelConflictError)
  | integrityError
  deriving DecidableEq

abbrev LabelResult := Except LabelFailure LabelIngestOutcome

/-- Where a call of `ingest_label` stands. -/
inductive IngestAt where
  /-- the SELECT -/
  | lookup
  /-- the INSERT and its commit -/
  | insert
  /-- the SELECT after a lost INSERT -/
  | relookup
  /-- its own row is in: the metric is looked for -/
  | committed
  /-- `_resolve_existing` with another label: the metric is looked for -/
  | conflicting (existing : GroundTruthLabel)
  /-- the metric was found: the event is committed -/
  | auditing (existing : GroundTruthLabel) (deploymentId : String)

/-- The conflict of a call with the label on record. -/
def LabelCall.conflict (call : LabelCall) (existing : GroundTruthLabel)
    (deploymentId : Option String) : LabelConflictError :=
  ⟨call.predictionId, existing.actualLabel, call.payload.actualLabel, deploymentId⟩

/-- The event of a conflict. -/
def LabelConflictError.event (e : LabelConflictError) (now : Time) (deploymentId : String) :
    DeploymentEvent :=
  ⟨deploymentId, .labelConflict e.predictionId e.existingLabel e.newLabel, now⟩

/-- `_resolve_existing`, up to its first statement. -/
def LabelCall.resolve (call : LabelCall) (existing : GroundTruthLabel) : IngestAt ⊕ LabelResult :=
  if existing.actualLabel = call.payload.actualLabel then .inr (.ok .noOp)
  else .inl (.conflicting existing)

/-- **One step of `ingest_label`**: where it stands afterwards, or what it returned. -/
def LabelCall.step (call : LabelCall) (t : QualityTables) :
    IngestAt → (IngestAt ⊕ LabelResult) × QualityTables
  | .lookup =>
      match t.groundTruthLabels.get? call.predictionId with
      | some existing => (call.resolve existing, t)
      | none => (.inl .insert, t)
  | .insert =>
      -- the unique index on `prediction_id` refuses a second row
      match t.groundTruthLabels.get? call.predictionId with
      | some _ => (.inl .relookup, t)
      | none =>
          (.inl .committed, { t with groundTruthLabels := t.groundTruthLabels.put call.row })
  | .relookup =>
      match t.groundTruthLabels.get? call.predictionId with
      | some existing => (call.resolve existing, t)
      | none => (.inr (.error .integrityError), t)
  | .committed =>
      (.inr (.ok (if (findMetric t.predictionMetrics call.predictionId).isSome then .applied
        else .pending)), t)
  | .conflicting existing =>
      match findMetric t.predictionMetrics call.predictionId with
      | none => (.inr (.error (.conflict (call.conflict existing none))), t)
      | some metric => (.inl (.auditing existing metric.deploymentId), t)
  | .auditing existing deploymentId =>
      let e := call.conflict existing (some deploymentId)
      (.inr (.error (.conflict e)), { t with
        deploymentEvents := t.deploymentEvents ++ [e.event call.now deploymentId] })

/-- What a session is sent to do: one metric, or labels one after another. -/
inductive Writer where
  | metric (now : Time) (deploymentId : String) (payload : MetricIn)
  | labels (calls : List LabelCall)

/-- Where a session stands. -/
inductive Standing where
  | recording (now : Time) (deploymentId : String) (payload : MetricIn)
  | ingesting (at_ : IngestAt) (call : LabelCall) (rest : List LabelCall)
  | done

/-- The session goes on to its next call. -/
def Standing.next : List LabelCall → Standing
  | [] => .done
  | call :: rest => .ingesting .lookup call rest

def Writer.start : Writer → Standing
  | .metric now deploymentId payload => .recording now deploymentId payload
  | .labels calls => .next calls

/-- What a session reports: its metric was committed or refused, a call has returned. -/
inductive Report where
  | recorded (row : MetricRow)
  | refused
  | returned (call : LabelCall) (result : LabelResult)

/-- `_ingest_one` catches a conflict; an IntegrityError ends the session. -/
def Standing.after (rest : List LabelCall) : LabelResult → Standing
  | .ok _ => .next rest
  | .error (.conflict _) => .next rest
  | .error .integrityError => .done

/-- **One step of a session.** -/
def act : Act QualityTables Standing Report
  | .recording now deploymentId payload, t =>
      match recordMetric now deploymentId payload t.predictionMetrics with
      | some metrics =>
          (.done, { t with predictionMetrics := metrics }, [.recorded (payload.row deploymentId now)])
      | none => (.done, t, [.refused])
  | .ingesting at_ call rest, t =>
      match call.step t at_ with
      | (.inl at', t') => (.ingesting at' call rest, t', [])
      | (.inr result, t') => (.after rest result, t', [.returned call result])
  | .done, t => (.done, t, [])

/-! ## 2. A call alone -/

/-- At most `n` steps of a call with nothing beside it. -/
def LabelCall.alone (call : LabelCall) : Nat → QualityTables → IngestAt →
    Option LabelResult × QualityTables
  | 0, t, _ => (none, t)
  | n + 1, t, at_ =>
      match call.step t at_ with
      | (.inl at', t') => call.alone n t' at'
      | (.inr result, t') => (some result, t')

/-- **With nothing beside it, a call does what `ingestLabel` does**, in at most three steps. -/
theorem ingest_alone (call : LabelCall) (t : QualityTables) :
    let x := ingestLabel call.now t.predictionMetrics call.payload t.groundTruthLabels
    call.alone 3 t .lookup = (some (x.1.mapError .conflict),
      { t with
        groundTruthLabels := x.2.1
        deploymentEvents := t.deploymentEvents ++ x.2.2 }) := by
  cases hl : t.groundTruthLabels.get? call.payload.predictionId with
  | none =>
      simp [LabelCall.alone, LabelCall.step, LabelCall.predictionId, ingestLabel, hl, Except.mapError,
        LabelCall.row]
      rfl
  | some existing =>
      by_cases he : existing.actualLabel = call.payload.actualLabel
      · simp [LabelCall.alone, LabelCall.step, LabelCall.predictionId, ingestLabel, hl,
          LabelCall.resolve, resolveExisting, he, Except.mapError]
      · cases hm : findMetric t.predictionMetrics call.payload.predictionId with
        | none =>
            simp [LabelCall.alone, LabelCall.step, LabelCall.predictionId, ingestLabel, hl,
              LabelCall.resolve, resolveExisting, he, hm, Except.mapError, LabelCall.conflict]
        | some metric =>
            simp [LabelCall.alone, LabelCall.step, LabelCall.predictionId, ingestLabel, hl,
              LabelCall.resolve, resolveExisting, he, hm, Except.mapError, LabelCall.conflict,
              LabelConflictError.event]

/-! ## 3. What a session may rely on -/

/-- Rows are only added: labels and metrics stay. -/
structure Grows (t t' : QualityTables) : Prop where
  labels : ∀ p row, t.groundTruthLabels.get? p = some row → t'.groundTruthLabels.get? p = some row
  metrics : ∀ m ∈ t.predictionMetrics, m ∈ t'.predictionMetrics

theorem Grows.refl (t : QualityTables) : Grows t t := ⟨fun _ _ h => h, fun _ h => h⟩

theorem Grows.trans {t t' t'' : QualityTables} (h : Grows t t') (h' : Grows t' t'') : Grows t t'' :=
  ⟨fun p row hr => h'.labels p row (h.labels p row hr), fun m hm => h'.metrics m (h.metrics m hm)⟩

/-- The deployment of the prediction's metric. -/
def MetricOf (t : QualityTables) (predictionId deploymentId : String) : Prop :=
  ∃ m ∈ t.predictionMetrics, m.predictionId = some predictionId ∧ m.deploymentId = deploymentId

theorem MetricOf.grows {t t' : QualityTables} {p id : String} (h : MetricOf t p id)
    (hg : Grows t t') : MetricOf t' p id := by
  obtain ⟨m, hm, hp, hid⟩ := h
  exact ⟨m, hg.metrics m hm, hp, hid⟩

theorem metricOf_found {t : QualityTables} {p : String} {m : MetricRow}
    (h : findMetric t.predictionMetrics p = some m) : MetricOf t p m.deploymentId :=
  ⟨m, List.mem_of_find?_eq_some h, by simpa using List.find?_some h, rfl⟩

/-- What a call may rely on where it stands. -/
def Knows (call : LabelCall) (t : QualityTables) : IngestAt → Prop
  | .lookup | .insert => True
  | .relookup => ∃ row, t.groundTruthLabels.get? call.predictionId = some row
  | .committed => t.groundTruthLabels.get? call.predictionId = some call.row
  | .conflicting existing =>
      t.groundTruthLabels.get? call.predictionId = some existing ∧
        existing.actualLabel ≠ call.payload.actualLabel
  | .auditing existing deploymentId =>
      t.groundTruthLabels.get? call.predictionId = some existing ∧
        existing.actualLabel ≠ call.payload.actualLabel ∧
        MetricOf t call.predictionId deploymentId

/-- **What the answer of a call says** of the label on record. -/
inductive Answers (call : LabelCall) (t : QualityTables) (row : GroundTruthLabel) :
    LabelResult → Prop where
  | applied (h : row = call.row) : Answers call t row (.ok .applied)
  | pending (h : row = call.row) : Answers call t row (.ok .pending)
  | noOp (h : row.actualLabel = call.payload.actualLabel) : Answers call t row (.ok .noOp)
  | conflict (h : row.actualLabel ≠ call.payload.actualLabel) (deploymentId : Option String)
      (hm : ∀ id ∈ deploymentId, MetricOf t call.predictionId id) :
      Answers call t row (.error (.conflict (call.conflict row deploymentId)))

/-- The assertion of a session. -/
def Standing.Knows (t : QualityTables) : Standing → Prop
  | .ingesting at_ call _ => ModelOps.Knows call t at_
  | .recording .. | .done => True

/-- A report is true of the tables. -/
def Report.Holds (t : QualityTables) : Report → Prop
  | .returned call result =>
      ∃ row, t.groundTruthLabels.get? call.predictionId = some row ∧ Answers call t row result
  | .recorded row => row ∈ t.predictionMetrics
  | .refused => True

section Calls

variable {call : LabelCall} {t : QualityTables}

/-- `_resolve_existing` of the label on record: it returns, or goes on to the metric. -/
theorem resolve_cases {existing : GroundTruthLabel}
    (h : t.groundTruthLabels.get? call.predictionId = some existing) :
    (∃ result, call.resolve existing = .inr result ∧
      ∃ row, t.groundTruthLabels.get? call.predictionId = some row ∧ Answers call t row result) ∨
    ∃ at_, call.resolve existing = .inl at_ ∧ Knows call t at_ := by
  unfold LabelCall.resolve
  by_cases he : existing.actualLabel = call.payload.actualLabel
  · rw [if_pos he]
    exact Or.inl ⟨_, rfl, existing, h, .noOp he⟩
  · rw [if_neg he]
    exact Or.inr ⟨_, rfl, h, he⟩

/-- The INSERT that goes through adds a row. -/
theorem grows_insert (h : t.groundTruthLabels.get? call.predictionId = none) :
    Grows t { t with groundTruthLabels := t.groundTruthLabels.put call.row } := by
  refine ⟨fun p row hr => ?_, fun m hm => hm⟩
  have hne : p ≠ call.row.predictionId := by
    rintro rfl
    rw [show t.groundTruthLabels.get? call.row.predictionId = none from h] at hr
    cases hr
  exact (Table.get?_put_of_ne _ hne).trans hr

/-- **What one step of a call does**, from what it may rely on. -/
theorem step_knows {at_ : IngestAt} (h : Knows call t at_) :
    Grows t (call.step t at_).2 ∧
    ((∃ at', (call.step t at_).1 = .inl at' ∧ Knows call (call.step t at_).2 at') ∨
      ∃ result row, (call.step t at_).1 = .inr result ∧
        (call.step t at_).2.groundTruthLabels.get? call.predictionId = some row ∧
        Answers call (call.step t at_).2 row result) := by
  have hresolve : ∀ existing, t.groundTruthLabels.get? call.predictionId = some existing →
      Grows t t ∧ ((∃ at', call.resolve existing = .inl at' ∧ Knows call t at') ∨
        ∃ result row, call.resolve existing = .inr result ∧
          t.groundTruthLabels.get? call.predictionId = some row ∧ Answers call t row result) := by
    intro existing he
    rcases resolve_cases he with ⟨result, hr, row, hrow, ha⟩ | ⟨at', hr, hk⟩
    · exact ⟨.refl t, Or.inr ⟨result, row, hr, hrow, ha⟩⟩
    · exact ⟨.refl t, Or.inl ⟨at', hr, hk⟩⟩
  cases at_ with
  | lookup =>
      cases hl : t.groundTruthLabels.get? call.predictionId with
      | some existing =>
          have hstep : call.step t .lookup = (call.resolve existing, t) := by
            simp only [LabelCall.step, hl]
          rw [hstep]
          exact hresolve existing hl
      | none =>
          simp only [LabelCall.step, hl]
          exact ⟨.refl t, Or.inl ⟨_, rfl, trivial⟩⟩
  | insert =>
      cases hl : t.groundTruthLabels.get? call.predictionId with
      | some existing =>
          simp only [LabelCall.step, hl]
          exact ⟨.refl t, Or.inl ⟨_, rfl, existing, hl⟩⟩
      | none =>
          simp only [LabelCall.step, hl]
          refine ⟨grows_insert hl, Or.inl ⟨_, rfl, ?_⟩⟩
          exact Table.get?_put_self t.groundTruthLabels call.row
  | relookup =>
      obtain ⟨existing, hl⟩ := h
      have hstep : call.step t .relookup = (call.resolve existing, t) := by
        simp only [LabelCall.step, hl]
      rw [hstep]
      exact hresolve existing hl
  | committed =>
      have hrow : t.groundTruthLabels.get? call.predictionId = some call.row := h
      refine ⟨.refl t, Or.inr ⟨_, call.row, rfl, hrow, ?_⟩⟩
      split
      · exact .applied rfl
      · exact .pending rfl
  | conflicting existing =>
      obtain ⟨hl, hne⟩ := h
      cases hm : findMetric t.predictionMetrics call.predictionId with
      | none =>
          simp only [LabelCall.step, hm]
          refine ⟨.refl t, Or.inr ⟨_, existing, rfl, hl, .conflict hne none ?_⟩⟩
          intro id hid
          cases hid
      | some metric =>
          simp only [LabelCall.step, hm]
          exact ⟨.refl t, Or.inl ⟨_, rfl, hl, hne, metricOf_found hm⟩⟩
  | auditing existing deploymentId =>
      obtain ⟨hl, hne, hm⟩ := h
      refine ⟨⟨fun _ _ hr => hr, fun _ hm => hm⟩,
        Or.inr ⟨_, existing, rfl, hl, .conflict hne (some deploymentId) ?_⟩⟩
      intro id hid
      cases hid
      exact hm

theorem Knows.grows {at_ : IngestAt} {t' : QualityTables} (h : Knows call t at_) (hg : Grows t t') :
    Knows call t' at_ := by
  cases at_ with
  | lookup => trivial
  | insert => trivial
  | relookup =>
      obtain ⟨row, hr⟩ := h
      exact ⟨row, hg.labels _ _ hr⟩
  | committed => exact hg.labels _ _ h
  | conflicting existing => exact ⟨hg.labels _ _ h.1, h.2⟩
  | auditing existing deploymentId => exact ⟨hg.labels _ _ h.1, h.2.1, h.2.2.grows hg⟩

theorem Answers.grows {row : GroundTruthLabel} {result : LabelResult} {t' : QualityTables}
    (h : Answers call t row result) (hg : Grows t t') : Answers call t' row result := by
  cases h with
  | applied h => exact .applied h
  | pending h => exact .pending h
  | noOp h => exact .noOp h
  | conflict h deploymentId hm => exact .conflict h deploymentId fun id hid => (hm id hid).grows hg

/-- An answer is not an IntegrityError, so the session goes on. -/
theorem Answers.goes_on {row : GroundTruthLabel} {result : LabelResult}
    (h : Answers call t row result) (rest : List LabelCall) :
    Standing.after rest result = .next rest := by
  cases h <;> rfl

end Calls

theorem next_knows (t : QualityTables) (rest : List LabelCall) : (Standing.next rest).Knows t := by
  cases rest with
  | nil => trivial
  | cons call rest => trivial

/-- The metric that is recorded is added. -/
theorem recordMetric_some {now : Time} {deploymentId : String} {payload : MetricIn}
    {metrics metrics' : List MetricRow}
    (h : recordMetric now deploymentId payload metrics = some metrics') :
    metrics' = metrics ++ [payload.row deploymentId now] := by
  unfold recordMetric at h
  split at h
  · cases h
  · exact (Option.some.inj h).symm

/-- **The sessions obey the rely-guarantee rule.** -/
theorem session_rules {ι : Type} : Rules act (fun (_ : ι) p t => p.Knows t)
    (fun _ e t => e.Holds t) Grows where
  own _ p t h := by
    cases p with
    | done => exact ⟨trivial, .refl t, fun e he => (List.not_mem_nil he).elim⟩
    | recording now deploymentId payload =>
        cases hr : recordMetric now deploymentId payload t.predictionMetrics with
        | none =>
            simp only [act, hr]
            refine ⟨trivial, .refl t, ?_⟩
            intro e he
            rw [List.mem_singleton.mp he]
            trivial
        | some metrics =>
            simp only [act, hr]
            have hmetrics := recordMetric_some hr
            refine ⟨trivial, ⟨fun _ _ hrow => hrow, ?_⟩, ?_⟩
            · intro m hm
              show m ∈ metrics
              rw [hmetrics]
              exact List.mem_append_left _ hm
            · intro e he
              rw [List.mem_singleton.mp he]
              show _ ∈ metrics
              rw [hmetrics]
              exact List.mem_append_right _ (List.mem_singleton_self _)
    | ingesting at_ call rest =>
        obtain ⟨hgrows, ⟨at', hstep, hknows⟩ | ⟨result, row, hstep, hrow, hanswers⟩⟩ :=
          step_knows (show Knows call t at_ from h)
        · rw [show act (.ingesting at_ call rest) t =
            (.ingesting at' call rest, (call.step t at_).2, []) by simp only [act]; rw [← Prod.eta (call.step t at_), hstep]]
          exact ⟨hknows, hgrows, fun e he => (List.not_mem_nil he).elim⟩
        · rw [show act (.ingesting at_ call rest) t = (.after rest result, (call.step t at_).2,
            [.returned call result]) by simp only [act]; rw [← Prod.eta (call.step t at_), hstep]]
          refine ⟨?_, hgrows, ?_⟩
          · rw [hanswers.goes_on]
            exact next_knows _ rest
          · intro e he
            rw [List.mem_singleton.mp he]
            exact ⟨row, hrow, hanswers⟩
  stable _ p t t' h hg := by
    cases p with
    | done => trivial
    | recording now deploymentId payload => trivial
    | ingesting at_ call rest => exact Knows.grows (show Knows call t at_ from h) hg
  lasting _ e t t' h hg := by
    cases e with
    | refused => trivial
    | recorded row => exact hg.metrics row h
    | returned call result =>
        obtain ⟨row, hr, ha⟩ := h
        exact ⟨row, hg.labels _ _ hr, ha.grows hg⟩

/-! ## 4. The end of a session -/

/-- How many steps a call has left at most. -/
def IngestAt.left : IngestAt → Nat
  | .lookup => 5
  | .insert => 4
  | .relookup => 3
  | .conflicting _ => 2
  | .committed | .auditing .. => 1

/-- How many steps a session has left at most. -/
def Standing.left : Standing → Nat
  | .recording .. => 1
  | .ingesting at_ _ rest => at_.left + 5 * rest.length
  | .done => 0

theorem next_left (rest : List LabelCall) : (Standing.next rest).left = 5 * rest.length := by
  cases rest with
  | nil => rfl
  | cons call rest =>
      show 5 + 5 * rest.length = 5 * (rest.length + 1)
      omega

theorem after_left (rest : List LabelCall) (result : LabelResult) :
    (Standing.after rest result).left ≤ 5 * rest.length := by
  cases result with
  | ok outcome => exact (next_left rest).le
  | error e =>
      cases e with
      | conflict e => exact (next_left rest).le
      | integrityError => exact Nat.zero_le _

theorem left_eq_zero {s : Standing} (h : s.left = 0) : s = .done := by
  cases s with
  | done => rfl
  | recording now deploymentId payload => cases h
  | ingesting at_ call rest =>
      cases at_ <;> simp only [Standing.left, IngestAt.left] at h <;> omega

/-- Each step of a call brings it closer to its answer. -/
theorem step_left (call : LabelCall) (t : QualityTables) (at_ at' : IngestAt)
    (h : (call.step t at_).1 = .inl at') : at'.left < at_.left := by
  have hresolve : ∀ existing, call.resolve existing = .inl at' → at'.left = 2 := by
    intro existing he
    unfold LabelCall.resolve at he
    split at he
    · cases he
    · cases he; rfl
  cases at_ with
  | lookup =>
      cases hl : t.groundTruthLabels.get? call.predictionId with
      | some existing =>
          simp only [LabelCall.step, hl] at h
          rw [hresolve existing h]
          decide
      | none =>
          simp only [LabelCall.step, hl] at h
          cases h
          decide
  | insert =>
      cases hl : t.groundTruthLabels.get? call.predictionId with
      | some existing =>
          simp only [LabelCall.step, hl] at h
          cases h
          decide
      | none =>
          simp only [LabelCall.step, hl] at h
          cases h
          decide
  | relookup =>
      cases hl : t.groundTruthLabels.get? call.predictionId with
      | some existing =>
          simp only [LabelCall.step, hl] at h
          rw [hresolve existing h]
          decide
      | none =>
          simp only [LabelCall.step, hl] at h
          cases h
  | committed => cases h
  | conflicting existing =>
      cases hm : findMetric t.predictionMetrics call.predictionId with
      | none =>
          simp only [LabelCall.step, hm] at h
          cases h
      | some metric =>
          simp only [LabelCall.step, hm] at h
          cases h
          exact Nat.lt_succ_self 1
  | auditing existing deploymentId => cases h

theorem act_ingesting (at_ : IngestAt) (call : LabelCall) (rest : List LabelCall) (t : QualityTables) :
    act (.ingesting at_ call rest) t =
      match (call.step t at_).1 with
      | .inl at' => (.ingesting at' call rest, (call.step t at_).2, [])
      | .inr result => (.after rest result, (call.step t at_).2, [.returned call result]) := by
  show (match call.step t at_ with
      | (.inl at', t') => (Standing.ingesting at' call rest, t', [])
      | (.inr result, t') => (Standing.after rest result, t', [Report.returned call result])) = _
  rcases call.step t at_ with ⟨at' | result, t'⟩ <;> rfl

theorem act_left (s : Standing) (t : QualityTables) : (act s t).1.left ≤ s.left - 1 := by
  cases s with
  | done => exact Nat.le_refl 0
  | recording now deploymentId payload =>
      cases hr : recordMetric now deploymentId payload t.predictionMetrics <;>
        simp only [act, hr] <;> exact Nat.le_refl 0
  | ingesting at_ call rest =>
      have hpos : 0 < at_.left := by cases at_ <;> exact Nat.succ_pos _
      rw [act_ingesting]
      cases hstep : (call.step t at_).1 with
      | inl at' =>
          have hless := step_left call t at_ at' hstep
          simp only [Standing.left]
          omega
      | inr result =>
          have hrest := after_left rest result
          show (Standing.after rest result).left ≤ at_.left + 5 * rest.length - 1
          omega

end ModelOps
