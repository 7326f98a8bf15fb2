/-
  File:      ModelOps/ControlPlane/Migration.lean
  Subject:   The data migration to schema 7d87fbdc22b8: labels move to `ground_truth_labels`, and every
             model gets a routing generation (alembic/versions/7d87fbdc22b8_*.py).

  The schema before it, 060d50b59428, keeps a label on its prediction's metric or, until that arrives,
  in `pending_labels`; and its revisions count the traffic changes of one deployment, from 1 on.

  * `Db060` -- the database before, with what its indexes promise;
  * `insertLabels`, `upgrade` -- the two INSERT .. SELECT statements and the backfill;
  * **`upgrade_loses_no_label_iff`** -- no label is lost, unless one has no prediction or no time;
  * **`upgrade_generations_iff`** -- the counter is seeded, but the revisions are not renumbered.

  The random primary keys of the new rows are left out: nothing reads them.
-/
import ModelOps.ControlPlane.Metrics
import ModelOps.Router.Config

namespace ModelOps

open Relational

/-! ## 1. Before the upgrade -/

/-- A row of `prediction_metrics` with the two columns the upgrade drops. -/
structure LabeledMetricRow extends MetricRow where
  actualLabel : Option Int
  labelIngestedAt : Option Time

/-- A row of `pending_labels`. -/
structure PendingLabel where
  predictionId : String
  actualLabel : Int
  occurredAt : Time
  ingestedAt : Time

/-- A row of `ground_truth_labels`, as the table is created. -/
structure LabelRow where
  predictionId : String
  actualLabel : Int
  occurredAt : Time
  ingestedAt : Time
  deriving DecidableEq

/-- **A database at schema 060d50b59428**, with its unique indexes. -/
structure Db060 where
  deployments : Table Deployment.id
  trafficAllocations : Table TrafficAllocation.deploymentId
  deploymentEvents : List DeploymentEvent
  predictionMetrics : List LabeledMetricRow
  pendingLabels : Table PendingLabel.predictionId
  /-- `uq_deployments_active_per_model` -/
  one_open : ∀ d ∈ deployments, ∀ d' ∈ deployments, d.status.terminal = false →
    d'.status.terminal = false → d.modelName = d'.modelName → d = d'
  revision_pos : ∀ a ∈ trafficAllocations, 1 ≤ a.revision
  /-- `ix_prediction_metrics_prediction_id`; NULLs are not equal to each other -/
  predictions_nodup : (predictionMetrics.filterMap fun m => m.predictionId).Nodup

/-- The database after. -/
structure Db7d8 where
  controlPlane : Db
  predictionMetrics : List MetricRow
  groundTruthLabels : Table LabelRow.predictionId

/-! ## 2. The upgrade -/

/-- The values of one row of an INSERT, NULLs included. -/
structure LabelValues where
  predictionId : Option String
  actualLabel : Option Int
  occurredAt : Option Time
  ingestedAt : Option Time

/-- Why an INSERT is refused, with the column. -/
inductive ConstraintError where
  | notNull (column : String)
  | unique (column : String)
  deriving DecidableEq, Repr

/-- The NOT NULL columns, in the order of the table. -/
def LabelValues.row (v : LabelValues) : Except ConstraintError LabelRow :=
  match v.predictionId, v.actualLabel, v.occurredAt, v.ingestedAt with
  | none, _, _, _ => .error (.notNull "prediction_id")
  | some _, none, _, _ => .error (.notNull "actual_label")
  | some _, some _, none, _ => .error (.notNull "occurred_at")
  | some _, some _, some _, none => .error (.notNull "ingested_at")
  | some predictionId, some actualLabel, some occurredAt, some ingestedAt =>
      .ok ⟨predictionId, actualLabel, occurredAt, ingestedAt⟩

/-- One row of an INSERT into `ground_truth_labels`. -/
def insertLabel (t : Table LabelRow.predictionId) (v : LabelValues) :
    Except ConstraintError (Table LabelRow.predictionId) :=
  match v.row with
  | .error e => .error e
  | .ok row =>
      match t.get? row.predictionId with
      | some _ => .error (.unique "prediction_id")
      | none => .ok (t.put row)

/-- INSERT .. SELECT, row by row. -/
def insertLabels (t : Table LabelRow.predictionId) :
    List LabelValues → Except ConstraintError (Table LabelRow.predictionId)
  | [] => .ok t
  | v :: vs =>
      match insertLabel t v with
      | .error e => .error e
      | .ok t' => insertLabels t' vs

/-- The first SELECT: labels that are on their metric. `label_ingested_at` fills both times. -/
def matchedLabels (metrics : List LabeledMetricRow) : List LabelValues :=
  (metrics.filter fun m => m.actualLabel.isSome && m.predictionId.isSome).map fun m =>
    ⟨m.predictionId, m.actualLabel, m.labelIngestedAt, m.labelIngestedAt⟩

/-- The second SELECT: labels that never found their metric. -/
def unmatchedLabels (pending : Table PendingLabel.predictionId) (t : Table LabelRow.predictionId) :
    List LabelValues :=
  (pending.rows.filter fun l => (t.get? l.predictionId).isNone).map fun l =>
    ⟨some l.predictionId, some l.actualLabel, some l.occurredAt, some l.ingestedAt⟩

namespace Db060

variable (old : Db060)

/-- `traffic_allocations JOIN deployments`: the model and the revision of each allocation. -/
def revisions : List (String × Nat) :=
  old.trafficAllocations.rows.filterMap fun a =>
    (old.deployments.get? a.deploymentId).map fun d => (d.modelName, a.revision)

/-- `MAX(ta.revision)` of one model. -/
def maxRevision (modelName : String) : Nat :=
  ((old.revisions.filter fun x => decide (x.1 = modelName)).map Prod.snd).max?.getD 0

/-- `SELECT .. GROUP BY d.model_name`. -/
def generations : Table RoutingGeneration.modelName where
  rows := (old.revisions.map Prod.fst).dedup.map fun m => ⟨m, old.maxRevision m⟩
  keys_nodup := by
    rw [List.map_map]
    exact (List.map_id _).symm ▸ List.nodup_dedup _

/-- The tables of the control plane, with the counters seeded. -/
def controlPlane : Db :=
  ⟨old.deployments, old.trafficAllocations, old.generations, old.deploymentEvents⟩

/-- **`upgrade`**, from the two INSERTs on. -/
def upgrade : Except ConstraintError Db7d8 :=
  match insertLabels (.empty _) (matchedLabels old.predictionMetrics) with
  | .error e => .error e
  | .ok matched =>
      match insertLabels matched (unmatchedLabels old.pendingLabels matched) with
      | .error e => .error e
      | .ok labels => .ok
          { controlPlane := old.controlPlane
            -- the dropped columns
            predictionMetrics := old.predictionMetrics.map LabeledMetricRow.toMetricRow
            groundTruthLabels := labels }

end Db060

/-! ## 3. INSERT .. SELECT -/

section Inserts

/-- Rows that have all their columns, under keys of their own, are inserted. -/
theorem insertLabels_fresh (t : Table LabelRow.predictionId) (vs : List LabelValues)
    (row : LabelValues → LabelRow) (hrow : ∀ v ∈ vs, v.row = .ok (row v))
    (hnodup : (vs.map fun v => (row v).predictionId).Nodup)
    (hfresh : ∀ v ∈ vs, t.get? (row v).predictionId = none) :
    ∃ t', insertLabels t vs = .ok t' ∧ ∀ r, r ∈ t' ↔ r ∈ t ∨ ∃ v ∈ vs, r = row v := by
  induction vs generalizing t with
  | nil => exact ⟨t, rfl, fun r => by simp⟩
  | cons v vs ih =>
      obtain ⟨hnew, hrest⟩ := List.nodup_cons.mp hnodup
      have hput : insertLabel t v = .ok (t.put (row v)) := by
        simp only [insertLabel, hrow v List.mem_cons_self, hfresh v List.mem_cons_self]
      have hfresh' : ∀ v' ∈ vs, (t.put (row v)).get? (row v').predictionId = none := by
        intro v' hv'
        rw [Table.get?_put_of_ne]
        · exact hfresh v' (List.mem_cons_of_mem _ hv')
        · intro hsame
          exact hnew (List.mem_map.mpr ⟨v', hv', hsame⟩)
      obtain ⟨t', ht', hmem⟩ := ih (t.put (row v)) (fun v' hv' => hrow v' (List.mem_cons_of_mem _ hv')) hrest hfresh'
      refine ⟨t', by simp only [insertLabels, hput, ht'], ?_⟩
      intro r
      have hkeep : r ∈ t → r.predictionId ≠ (row v).predictionId := by
        intro hr hsame
        have hnone := hfresh v List.mem_cons_self
        rw [← hsame, Table.mem_iff_get?.mp hr] at hnone
        cases hnone
      rw [hmem, Table.mem_put]
      constructor
      · intro h
        rcases h with (rfl | ⟨hr, -⟩) | ⟨v', hv', rfl⟩
        · exact Or.inr ⟨v, List.mem_cons_self, rfl⟩
        · exact Or.inl hr
        · exact Or.inr ⟨v', List.mem_cons_of_mem _ hv', rfl⟩
      · intro h
        rcases h with hr | ⟨v', hv', rfl⟩
        · exact Or.inl (Or.inr ⟨hr, hkeep hr⟩)
        · rcases List.mem_cons.mp hv' with rfl | hv'
          · exact Or.inl (Or.inl rfl)
          · exact Or.inr ⟨v', hv', rfl⟩

/-- What an INSERT .. SELECT that went through has inserted: every row has all its columns. -/
theorem insertLabels_ok {t t' : Table LabelRow.predictionId} {vs : List LabelValues}
    (h : insertLabels t vs = .ok t') : ∀ v ∈ vs, ∃ row, v.row = .ok row := by
  induction vs generalizing t with
  | nil => exact fun v hv => (List.not_mem_nil hv).elim
  | cons v vs ih =>
      simp only [insertLabels] at h
      cases hv : insertLabel t v with
      | error e => rw [hv] at h; cases h
      | ok t1 =>
          rw [hv] at h
          intro v' hv'
          rcases List.mem_cons.mp hv' with rfl | hv'
          · unfold insertLabel at hv
            cases hrow : LabelValues.row v' with
            | error e => rw [hrow] at hv; cases hv
            | ok row => exact ⟨row, rfl⟩
          · exact ih h v' hv'

end Inserts

/-! ## 4. No label is lost -/

/-- The values, if they are all there. -/
def LabelValues.toRow (v : LabelValues) : LabelRow where
  predictionId := v.predictionId.getD ""
  actualLabel := v.actualLabel.getD 0
  occurredAt := v.occurredAt.getD 0
  ingestedAt := v.ingestedAt.getD 0

/-- The label a metric carries, as far as it has a key and a time. -/
def LabeledMetricRow.label (m : LabeledMetricRow) : Option LabelRow :=
  match m.predictionId, m.actualLabel, m.labelIngestedAt with
  | some predictionId, some actualLabel, some t => some ⟨predictionId, actualLabel, t, t⟩
  | _, _, _ => none

def PendingLabel.row (l : PendingLabel) : LabelRow :=
  ⟨l.predictionId, l.actualLabel, l.occurredAt, l.ingestedAt⟩

/-- The labels the upgrade can carry over: each has the time that goes into a NOT NULL column. -/
def Db060.Timed (old : Db060) : Prop :=
  ∀ m ∈ old.predictionMetrics, m.actualLabel.isSome → m.predictionId.isSome → m.labelIngestedAt.isSome

section Selects

variable {old : Db060}

theorem mem_matchedLabels {metrics : List LabeledMetricRow} {v : LabelValues} :
    v ∈ matchedLabels metrics ↔ ∃ m ∈ metrics, m.actualLabel.isSome ∧ m.predictionId.isSome ∧
      v = ⟨m.predictionId, m.actualLabel, m.labelIngestedAt, m.labelIngestedAt⟩ := by
  simp only [matchedLabels, List.mem_map, List.mem_filter, Bool.and_eq_true]
  constructor
  · intro h
    obtain ⟨m, ⟨hm, ha, hp⟩, rfl⟩ := h
    exact ⟨m, hm, ha, hp, rfl⟩
  · intro h
    obtain ⟨m, hm, ha, hp, rfl⟩ := h
    exact ⟨m, ⟨hm, ha, hp⟩, rfl⟩

/-- The keys of the first SELECT are those of a unique index. -/
theorem matchedLabels_nodup (old : Db060) :
    ((matchedLabels old.predictionMetrics).map fun v => v.toRow.predictionId).Nodup := by
  unfold matchedLabels
  rw [List.map_map]
  have hsome : ∀ m ∈ old.predictionMetrics.filter
      (fun m => m.actualLabel.isSome && m.predictionId.isSome), m.predictionId.isSome := by
    intro m hm
    have hboth := (List.mem_filter.mp hm).2
    rw [Bool.and_eq_true] at hboth
    exact hboth.2
  have hkeys : (old.predictionMetrics.filter
        fun m => m.actualLabel.isSome && m.predictionId.isSome).filterMap (fun m => m.predictionId) =
      (old.predictionMetrics.filter fun m => m.actualLabel.isSome && m.predictionId.isSome).map
        fun m => m.predictionId.getD "" := by
    rw [List.filterMap_eq_map_iff_forall_eq_some]
    intro m hm
    obtain ⟨p, hp⟩ := Option.isSome_iff_exists.mp (hsome m hm)
    rw [hp]
    rfl
  exact hkeys ▸ old.predictions_nodup.sublist (List.filter_sublist.filterMap _)

theorem insert_matched (h : old.Timed) :
    ∃ t, insertLabels (.empty _) (matchedLabels old.predictionMetrics) = .ok t ∧
      ∀ r, r ∈ t ↔ ∃ m ∈ old.predictionMetrics, m.label = some r := by
  have hvalues : ∀ m ∈ old.predictionMetrics, m.actualLabel.isSome → m.predictionId.isSome →
      ∃ r, m.label = some r ∧ r = (LabelValues.mk m.predictionId m.actualLabel m.labelIngestedAt
        m.labelIngestedAt).toRow ∧ (LabelValues.mk m.predictionId m.actualLabel m.labelIngestedAt
        m.labelIngestedAt).row = .ok r := by
    intro m hm ha hp
    obtain ⟨t, ht⟩ := Option.isSome_iff_exists.mp (h m hm ha hp)
    obtain ⟨a, ha⟩ := Option.isSome_iff_exists.mp ha
    obtain ⟨p, hp⟩ := Option.isSome_iff_exists.mp hp
    refine ⟨⟨p, a, t, t⟩, ?_⟩
    simp [LabeledMetricRow.label, LabelValues.toRow, LabelValues.row, ha, hp, ht]
  obtain ⟨t, ht, hmem⟩ := insertLabels_fresh (.empty _) (matchedLabels old.predictionMetrics)
    LabelValues.toRow (by
      intro v hv
      obtain ⟨m, hm, ha, hp, rfl⟩ := mem_matchedLabels.mp hv
      obtain ⟨r, -, rfl, hrow⟩ := hvalues m hm ha hp
      exact hrow) (matchedLabels_nodup old) (fun _ _ => rfl)
  refine ⟨t, ht, fun r => ?_⟩
  rw [hmem]
  constructor
  · intro hr
    rcases hr with hr | ⟨v, hv, rfl⟩
    · exact (Table.not_mem_empty r hr).elim
    · obtain ⟨m, hm, ha, hp, rfl⟩ := mem_matchedLabels.mp hv
      obtain ⟨r, hlabel, rfl, -⟩ := hvalues m hm ha hp
      exact ⟨m, hm, hlabel⟩
  · intro hr
    obtain ⟨m, hm, hlabel⟩ := hr
    have hsome : m.actualLabel.isSome ∧ m.predictionId.isSome := by
      unfold LabeledMetricRow.label at hlabel
      split at hlabel
      · rename_i hp ha _
        rw [hp, ha]
        exact ⟨rfl, rfl⟩
      · cases hlabel
    obtain ⟨r', hlabel', hr', -⟩ := hvalues m hm hsome.1 hsome.2
    refine Or.inr ⟨_, mem_matchedLabels.mpr ⟨m, hm, hsome.1, hsome.2, rfl⟩, ?_⟩
    rw [hlabel] at hlabel'
    exact (Option.some.inj hlabel').trans hr'

/-- The second INSERT always goes through. -/
theorem insert_unmatched (pending : Table PendingLabel.predictionId) (t : Table LabelRow.predictionId) :
    ∃ t', insertLabels t (unmatchedLabels pending t) = .ok t' ∧
      ∀ r, r ∈ t' ↔ r ∈ t ∨ ∃ l ∈ pending, t.get? l.predictionId = none ∧ r = l.row := by
  have hmem : ∀ v, v ∈ unmatchedLabels pending t ↔ ∃ l ∈ pending, t.get? l.predictionId = none ∧
      v = ⟨some l.predictionId, some l.actualLabel, some l.occurredAt, some l.ingestedAt⟩ := by
    intro v
    simp only [unmatchedLabels, List.mem_map, List.mem_filter, Option.isNone_iff_eq_none]
    constructor
    · intro h
      obtain ⟨l, ⟨hl, hnone⟩, rfl⟩ := h
      exact ⟨l, hl, hnone, rfl⟩
    · intro h
      obtain ⟨l, hl, hnone, rfl⟩ := h
      exact ⟨l, ⟨hl, hnone⟩, rfl⟩
  have hnodup : ((unmatchedLabels pending t).map fun v => v.toRow.predictionId).Nodup := by
    unfold unmatchedLabels
    rw [List.map_map]
    exact pending.keys_nodup.sublist (List.filter_sublist.map _)
  obtain ⟨t', ht', hrows⟩ := insertLabels_fresh t (unmatchedLabels pending t) LabelValues.toRow (by
      intro v hv
      obtain ⟨l, -, -, rfl⟩ := (hmem v).mp hv
      rfl) hnodup (by
      intro v hv
      obtain ⟨l, -, hnone, rfl⟩ := (hmem v).mp hv
      exact hnone)
  refine ⟨t', ht', fun r => ?_⟩
  rw [hrows]
  refine or_congr_right ?_
  constructor
  · intro h
    obtain ⟨v, hv, rfl⟩ := h
    obtain ⟨l, hl, hnone, rfl⟩ := (hmem v).mp hv
    exact ⟨l, hl, hnone, rfl⟩
  · intro h
    obtain ⟨l, hl, hnone, rfl⟩ := h
    exact ⟨_, (hmem _).mpr ⟨l, hl, hnone, rfl⟩, rfl⟩

end Selects

/-- **The upgrade goes through if every label it selects has its time**, and only then. -/
theorem upgrade_succeeds_iff (old : Db060) : (∃ new, old.upgrade = .ok new) ↔ old.Timed := by
  constructor
  · intro h m hm ha hp
    obtain ⟨new, hnew⟩ := h
    unfold Db060.upgrade at hnew
    cases hmatched : insertLabels (.empty _) (matchedLabels old.predictionMetrics) with
    | error e => rw [hmatched] at hnew; cases hnew
    | ok t =>
        obtain ⟨row, hrow⟩ := insertLabels_ok hmatched _ (mem_matchedLabels.mpr ⟨m, hm, ha, hp, rfl⟩)
        cases ht : m.labelIngestedAt with
        | some t => rfl
        | none =>
            obtain ⟨a, ha⟩ := Option.isSome_iff_exists.mp ha
            obtain ⟨p, hp⟩ := Option.isSome_iff_exists.mp hp
            simp only [LabelValues.row, ha, hp, ht] at hrow
            cases hrow
  · intro h
    obtain ⟨t, ht, -⟩ := insert_matched h
    obtain ⟨t', ht', -⟩ := insert_unmatched old.pendingLabels t
    simp only [Db060.upgrade, ht, ht']
    exact ⟨_, rfl⟩

/-- What the upgrade leaves. -/
theorem upgrade_spec {old : Db060} {new : Db7d8} (h : old.upgrade = .ok new) :
    new.controlPlane = old.controlPlane ∧
    new.predictionMetrics = old.predictionMetrics.map LabeledMetricRow.toMetricRow ∧
    ∀ r, r ∈ new.groundTruthLabels ↔ (∃ m ∈ old.predictionMetrics, m.label = some r) ∨
      ∃ l ∈ old.pendingLabels, r = l.row ∧
        ∀ m ∈ old.predictionMetrics, ∀ r', m.label = some r' → r'.predictionId ≠ l.predictionId := by
  obtain ⟨t, ht, hmatched⟩ := insert_matched ((upgrade_succeeds_iff old).mp ⟨new, h⟩)
  obtain ⟨t', ht', hall⟩ := insert_unmatched old.pendingLabels t
  simp only [Db060.upgrade, ht, ht'] at h
  cases h
  refine ⟨rfl, rfl, fun r => ?_⟩
  have hfree : ∀ l : PendingLabel, t.get? l.predictionId = none ↔
      ∀ m ∈ old.predictionMetrics, ∀ r', m.label = some r' → r'.predictionId ≠ l.predictionId := by
    intro l
    rw [Table.get?_eq_none]
    constructor
    · intro h m hm r' hr'
      exact h r' ((hmatched r').mpr ⟨m, hm, hr'⟩)
    · intro h r' hr'
      obtain ⟨m, hm, hlabel⟩ := (hmatched r').mp hr'
      exact h m hm r' hlabel
  rw [hall, hmatched]
  refine or_congr_right (exists_congr fun l => and_congr_right fun _ => ?_)
  rw [hfree l, and_comm]

/-- **No label is lost.** -/
structure KeepsLabels (old : Db060) (new : Db7d8) : Prop where
  /-- a prediction that carried a label joins to a row with that label -/
  joins : ∀ m ∈ old.predictionMetrics, ∀ a, m.actualLabel = some a →
    m.toMetricRow ∈ new.predictionMetrics ∧
    ∃ r ∈ new.groundTruthLabels, m.predictionId = some r.predictionId ∧ r.actualLabel = a
  /-- a pending label is there with its times, unless its prediction had a label of its own -/
  pending : ∀ l ∈ old.pendingLabels, l.row ∈ new.groundTruthLabels ∨
    ∃ m ∈ old.predictionMetrics, m.predictionId = some l.predictionId ∧ m.actualLabel.isSome
  unique : ∀ r ∈ new.groundTruthLabels, ∀ r' ∈ new.groundTruthLabels,
    r.predictionId = r'.predictionId → r = r'

theorem label_eq_some {m : LabeledMetricRow} {r : LabelRow} (h : m.label = some r) :
    m.predictionId = some r.predictionId ∧ m.actualLabel = some r.actualLabel := by
  unfold LabeledMetricRow.label at h
  split at h
  · rename_i hp ha _
    cases h
    exact ⟨hp, ha⟩
  · cases h

/-- **The upgrade loses no label if every label on a metric has its prediction and its time**, and only
    then: without the time it does not go through, without the prediction the label is dropped. -/
theorem upgrade_loses_no_label_iff (old : Db060) :
    (∃ new, old.upgrade = .ok new ∧ KeepsLabels old new) ↔
      ∀ m ∈ old.predictionMetrics, m.actualLabel.isSome →
        m.predictionId.isSome ∧ m.labelIngestedAt.isSome := by
  constructor
  · intro h m hm ha
    obtain ⟨new, hnew, hkeeps⟩ := h
    obtain ⟨a, hlabel⟩ := Option.isSome_iff_exists.mp ha
    obtain ⟨-, r, -, hp, -⟩ := hkeeps.joins m hm a hlabel
    have hsome : m.predictionId.isSome := by rw [hp]; rfl
    exact ⟨hsome, (upgrade_succeeds_iff old).mp ⟨new, hnew⟩ m hm ha hsome⟩
  · intro h
    obtain ⟨new, hnew⟩ := (upgrade_succeeds_iff old).mpr fun m hm ha _ => (h m hm ha).2
    obtain ⟨-, hmetrics, hlabels⟩ := upgrade_spec hnew
    refine ⟨new, hnew, ?_, ?_, fun r hr r' hr' => Table.eq_of_key hr hr'⟩
    · intro m hm a ha
      obtain ⟨hp, ht⟩ := h m hm (by rw [ha]; rfl)
      obtain ⟨p, hp⟩ := Option.isSome_iff_exists.mp hp
      obtain ⟨t, ht⟩ := Option.isSome_iff_exists.mp ht
      refine ⟨hmetrics ▸ List.mem_map_of_mem hm, ⟨p, a, t, t⟩, ?_, hp, rfl⟩
      exact (hlabels _).mpr (Or.inl ⟨m, hm, by simp only [LabeledMetricRow.label, hp, ha, ht]⟩)
    · intro l hl
      by_cases hown : ∃ m ∈ old.predictionMetrics, m.predictionId = some l.predictionId ∧
          m.actualLabel.isSome
      · exact Or.inr hown
      · refine Or.inl ((hlabels _).mpr (Or.inr ⟨l, hl, rfl, ?_⟩))
        intro m hm r' hr' hsame
        obtain ⟨hp, ha⟩ := label_eq_some hr'
        exact hown ⟨m, hm, hsame ▸ hp, by rw [ha]; rfl⟩

/-- One labelled prediction whose label has no time, and nothing else. -/
def untimedDb : Db060 where
  deployments := .empty _
  trafficAllocations := .empty _
  deploymentEvents := []
  predictionMetrics := [⟨⟨"d1", "v2", 20, 200, some 1, some "p1", 5⟩, some 1, none⟩]
  pendingLabels := .empty _
  one_open := fun _ h => (List.not_mem_nil h).elim
  revision_pos := fun _ h => (List.not_mem_nil h).elim
  predictions_nodup := List.nodup_singleton "p1"

/-- A label without its time stops the upgrade. -/
theorem untimed_label_stops_upgrade :
    untimedDb.upgrade = .error (.notNull "occurred_at") ∧
      ¬∃ new, untimedDb.upgrade = .ok new ∧ KeepsLabels untimedDb new := by
  have hstops : untimedDb.upgrade = .error (.notNull "occurred_at") := rfl
  refine ⟨hstops, ?_⟩
  intro h
  obtain ⟨new, hnew, -⟩ := h
  rw [hstops] at hnew
  cases hnew

/-! ## 5. Generations -/

/-- The deployment's allocation is what the router should serve while it is in flight or frozen. -/
def Deployment.InFlight (d : Deployment) : Prop :=
  d.status.active = true ∨ d.status = .inconclusive

/-- A push of the allocation `a` of the model. -/
def Pushes (config : RouterConfig) (modelName : String) (a : TrafficAllocation) : Prop :=
  config.modelName = modelName ∧ config.revision = a.revision

/-- The revisions of the model's allocations. -/
def Db.revisionsOf (db : Db) (modelName : String) : Set Nat :=
  {r | ∃ d ∈ db.deployments, d.modelName = modelName ∧
    ∃ a, db.trafficAllocation? d.id = some a ∧ a.revision = r}

/-- **The generation invariant of a model**: its counter is the greatest revision, and the allocation that
    is authoritative has a greater one than the model's others, so that the router takes a push of it
    over theirs and refuses theirs after it. -/
structure GenerationInvariant (db : Db) (modelName : String) : Prop where
  counter : (db.revisionsOf modelName).Nonempty → ∃ g, db.routingGeneration? modelName = some g ∧
    IsGreatest (db.revisionsOf modelName) g.generation
  newest : ∀ d a, db.getAuthoritativeAllocation modelName = some d →
    db.trafficAllocation? d.id = some a → ∀ d' ∈ db.deployments, d'.modelName = modelName → d' ≠ d →
      ∀ a', db.trafficAllocation? d'.id = some a' → a'.revision < a.revision ∧
        ∀ config config', Pushes config modelName a → Pushes config' modelName a' →
          ¬Stale config config' ∧ Stale config' config

namespace Db060

variable (old : Db060)

/-- The model's other deployments have seen fewer traffic changes than `d`. -/
def Outranks (d : Deployment) : Prop :=
  ∀ a, old.trafficAllocations.get? d.id = some a → ∀ d' ∈ old.deployments,
    d'.modelName = d.modelName → d' ≠ d →
      ∀ a', old.trafficAllocations.get? d'.id = some a' → a'.revision < a.revision

/-- The rollout of the model that finished last. -/
def finishedLast (modelName : String) : Option Deployment :=
  latestBy Db.finishedOrder
    (fun d => decide (d.modelName = modelName) && d.status.authoritativeTerminal) old.deployments.rows

/-- **The newest rollout has the greatest revision**, in flight or, with none in flight, finished. -/
structure NewestOutranks : Prop where
  inFlight : ∀ d ∈ old.deployments, d.InFlight → old.Outranks d
  finished : ∀ m d, (∀ d' ∈ old.deployments, d'.modelName = m → ¬d'.InFlight) →
    old.finishedLast m = some d → old.Outranks d

end Db060

section Generations

variable {old : Db060}

theorem mem_revisions {m : String} {r : Nat} : (m, r) ∈ old.revisions ↔
    ∃ d ∈ old.deployments, d.modelName = m ∧
      ∃ a, old.trafficAllocations.get? d.id = some a ∧ a.revision = r := by
  simp only [Db060.revisions, List.mem_filterMap, Option.map_eq_some_iff, Prod.mk.injEq]
  constructor
  · intro h
    obtain ⟨a, ha, d, hd, rfl, rfl⟩ := h
    obtain ⟨hmem, hid⟩ := Table.get?_eq_some.mp hd
    exact ⟨d, hmem, rfl, a, Table.get?_eq_some.mpr ⟨ha, hid.symm⟩, rfl⟩
  · intro h
    obtain ⟨d, hd, rfl, a, ha, rfl⟩ := h
    obtain ⟨hmem, hid⟩ := Table.get?_eq_some.mp ha
    exact ⟨a, hmem, d, Table.get?_eq_some.mpr ⟨hd, hid.symm⟩, rfl, rfl⟩

theorem maxRevision_isGreatest {m : String} (h : {r | (m, r) ∈ old.revisions}.Nonempty) :
    IsGreatest {r | (m, r) ∈ old.revisions} (old.maxRevision m) := by
  have hmem : ∀ r, r ∈ (old.revisions.filter fun x => decide (x.1 = m)).map Prod.snd ↔
      (m, r) ∈ old.revisions := by
    intro r
    simp only [List.mem_map, List.mem_filter, decide_eq_true_eq]
    constructor
    · intro h
      obtain ⟨⟨m', r'⟩, ⟨hx, rfl⟩, rfl⟩ := h
      exact hx
    · intro h
      exact ⟨(m, r), ⟨h, rfl⟩, rfl⟩
  unfold Db060.maxRevision
  cases hmax : ((old.revisions.filter fun x => decide (x.1 = m)).map Prod.snd).max? with
  | none =>
      obtain ⟨r, hr⟩ := h
      rw [List.max?_eq_none_iff] at hmax
      exact absurd ((hmem r).mpr hr) (hmax ▸ List.not_mem_nil)
  | some n =>
      obtain ⟨hn, hle⟩ := List.max?_eq_some_iff.mp hmax
      exact ⟨(hmem n).mp hn, fun r hr => hle r ((hmem r).mpr hr)⟩

theorem generations_get? {m : String} (h : {r | (m, r) ∈ old.revisions}.Nonempty) :
    old.generations.get? m = some ⟨m, old.maxRevision m⟩ := by
  obtain ⟨r, hr⟩ := h
  refine Table.get?_eq_some.mpr ⟨?_, rfl⟩
  show _ ∈ (old.revisions.map Prod.fst).dedup.map _
  exact List.mem_map.mpr ⟨m, List.mem_dedup.mpr (List.mem_map.mpr ⟨(m, r), hr, rfl⟩), rfl⟩

theorem inFlight_open {d : Deployment} (h : d.InFlight) : d.status.terminal = false := by
  rcases h with h | h
  · exact DeploymentStatus.not_terminal_of_active h
  · rw [h]
    rfl

/-- The rollout in flight is the authoritative one: the index lets one of them be. -/
theorem authoritative_inFlight {d : Deployment} (hd : d ∈ old.deployments) (h : d.InFlight) :
    old.controlPlane.getAuthoritativeAllocation d.modelName = some d := by
  unfold Db.getAuthoritativeAllocation
  rw [show old.controlPlane.deployments.rows = old.deployments.rows from rfl,
    latestBy_eq_some (r := d) hd (by simpa [Deployment.InFlight] using h)]
  intro d' hd' hp hne
  simp only [Bool.and_eq_true, decide_eq_true_eq, Bool.or_eq_true] at hp
  exact absurd (old.one_open d' hd' d hd (inFlight_open hp.2) (inFlight_open h) hp.1) hne

/-- With none in flight it is the one that finished last. -/
theorem authoritative_finished {m : String}
    (h : ∀ d ∈ old.deployments, d.modelName = m → ¬d.InFlight) :
    old.controlPlane.getAuthoritativeAllocation m = old.finishedLast m := by
  have hnone : latestBy Deployment.createdAt (fun d => decide (d.modelName = m) &&
      (d.status.active || decide (d.status = .inconclusive))) old.deployments.rows = none := by
    rw [latestBy_eq_none]
    intro d hd
    by_contra hp
    simp only [Bool.not_eq_false, Bool.and_eq_true, decide_eq_true_eq, Bool.or_eq_true] at hp
    exact h d hd hp.1 hp.2
  unfold Db.getAuthoritativeAllocation
  rw [show old.controlPlane.deployments.rows = old.deployments.rows from rfl, hnone]
  rfl

/-- The authoritative deployment of a model outranks the model's others. -/
theorem authoritative_outranks (h : old.NewestOutranks) {m : String} {d : Deployment}
    (hd : old.controlPlane.getAuthoritativeAllocation m = some d) :
    d.modelName = m ∧ old.Outranks d := by
  by_cases hflight : ∃ d' ∈ old.deployments, d'.modelName = m ∧ d'.InFlight
  · obtain ⟨d', hd', rfl, hin⟩ := hflight
    rw [authoritative_inFlight hd' hin] at hd
    cases hd
    exact ⟨rfl, h.inFlight d hd' hin⟩
  · have hnone : ∀ d ∈ old.deployments, d.modelName = m → ¬d.InFlight :=
      fun d hd hm hin => hflight ⟨d, hd, hm, hin⟩
    rw [authoritative_finished hnone] at hd
    refine ⟨?_, h.finished m d hnone hd⟩
    have hp := (latestBy_mem hd).2.1
    rw [Bool.and_eq_true, decide_eq_true_eq] at hp
    exact hp.1

/-- The router tells pushes apart by their revisions. -/
theorem stale_pushes {config config' : RouterConfig} {m : String} {a a' : TrafficAllocation}
    (h : Pushes config m a) (h' : Pushes config' m a') (hrev : a'.revision < a.revision) :
    ¬Stale config config' ∧ Stale config' config := by
  have hlt : config'.revision < config.revision := by
    rw [h.2, h'.2]
    exact_mod_cast hrev
  refine ⟨?_, h'.1.trans h.1.symm, hlt.le⟩
  intro hstale
  have hle := hstale.2
  omega

end Generations

/-- **The upgrade establishes the generation invariant if the newest rollout of each model had the
    greatest revision before**, and only then: the counter is always seeded with the greatest revision,
    but the revisions stay those that were counted deployment by deployment. -/
theorem upgrade_generations_iff (old : Db060) (new : Db7d8) (h : old.upgrade = .ok new) :
    (∀ m, GenerationInvariant new.controlPlane m) ↔ old.NewestOutranks := by
  rw [(upgrade_spec h).1]
  constructor
  · intro hinv
    constructor
    · intro d hd hin a ha d' hd' hm hne a' ha'
      exact ((hinv d.modelName).newest d a (authoritative_inFlight hd hin) ha d' hd' hm hne a' ha').1
    · intro m d hnone hlast a ha d' hd' hm hne a' ha'
      have hauth := (authoritative_finished hnone).trans hlast
      have hmodel : d.modelName = m := by
        have hp := (latestBy_mem hlast).2.1
        rw [Bool.and_eq_true, decide_eq_true_eq] at hp
        exact hp.1
      exact ((hinv m).newest d a hauth ha d' hd' (hm.trans hmodel) hne a' ha').1
  · intro hnewest m
    constructor
    · intro hsome
      have hset : old.controlPlane.revisionsOf m = {r | (m, r) ∈ old.revisions} :=
        Set.ext fun r => mem_revisions.symm
      rw [hset] at hsome ⊢
      exact ⟨_, generations_get? hsome, maxRevision_isGreatest hsome⟩
    · intro d a hauth ha d' hd' hm hne a' ha'
      obtain ⟨hmodel, houtranks⟩ := authoritative_outranks hnewest hauth
      have hrev := houtranks a ha d' hd' (hm.trans hmodel.symm) hne a' ha'
      exact ⟨hrev, fun config config' hp hp' => stale_pushes hp hp' hrev⟩

/-- A rollout that was promoted after four traffic changes. -/
def finishedRollout : Deployment where
  id := "d1"
  modelName := "fraud-model"
  stableVersion := "v1"
  canaryVersion := "v2"
  status := .promoted
  idempotencyKey := none
  policyConfig := none
  automationPaused := false
  createdAt := 1
  completedAt := some 5
  updatedAt := 5

/-- The model's next rollout, after its first traffic change. -/
def nextRollout : Deployment where
  id := "d2"
  modelName := "fraud-model"
  stableVersion := "v2"
  canaryVersion := "v3"
  status := .canaryRunning
  idempotencyKey := none
  policyConfig := none
  automationPaused := false
  createdAt := 6
  updatedAt := 6

def renewedDb : Db060 where
  deployments := ⟨[finishedRollout, nextRollout], by decide⟩
  trafficAllocations := ⟨[⟨"d1", [⟨"v2", 1⟩], 4⟩, ⟨"d2", [⟨"v2", 9 / 10⟩, ⟨"v3", 1 / 10⟩], 1⟩],
    by decide⟩
  deploymentEvents := []
  predictionMetrics := []
  pendingLabels := .empty _
  one_open := by
    intro d hd d' hd' h h' _
    rcases List.mem_pair.mp hd with rfl | rfl
    · cases h
    · rcases List.mem_pair.mp hd' with rfl | rfl
      · cases h'
      · rfl
  revision_pos := by
    intro a ha
    rcases List.mem_pair.mp ha with rfl | rfl <;> decide
  predictions_nodup := List.nodup_nil

/-- The same where the first was promoted at once and the next has advanced twice. -/
def advancedDb : Db060 where
  deployments := ⟨[finishedRollout, nextRollout], by decide⟩
  trafficAllocations := ⟨[⟨"d1", [⟨"v2", 1⟩], 2⟩, ⟨"d2", [⟨"v2", 1 / 2⟩, ⟨"v3", 1 / 2⟩], 3⟩],
    by decide⟩
  deploymentEvents := []
  predictionMetrics := []
  pendingLabels := .empty _
  one_open := renewedDb.one_open
  revision_pos := by
    intro a ha
    rcases List.mem_pair.mp ha with rfl | rfl <;> decide
  predictions_nodup := List.nodup_nil

theorem advancedDb_newestOutranks : advancedDb.NewestOutranks := by
  have hinFlight : nextRollout.InFlight := by
    unfold Deployment.InFlight
    decide
  constructor
  · intro d hd hin a ha d' hd' _ hne a' ha'
    rcases List.mem_pair.mp hd with rfl | rfl
    · exact absurd hin (by unfold Deployment.InFlight; decide)
    · rcases List.mem_pair.mp hd' with rfl | rfl
      · cases ha
        cases ha'
        decide
      · exact absurd rfl hne
  · intro m d hnone hlast
    have hlast' := latestBy_mem hlast
    have hm : m = "fraud-model" := by
      have hmodel := hlast'.2.1
      rw [Bool.and_eq_true, decide_eq_true_eq] at hmodel
      rcases List.mem_pair.mp hlast'.1 with rfl | rfl <;> exact hmodel.1.symm
    exact absurd hinFlight (hnone nextRollout (List.mem_cons_of_mem _ List.mem_cons_self) hm.symm)

/-- The one meets the invariant, the other does not. -/
theorem upgrade_generations_iff_sample :
    (∀ m, GenerationInvariant advancedDb.controlPlane m) ∧
      ((∀ m, GenerationInvariant renewedDb.controlPlane m) ↔ renewedDb.NewestOutranks) :=
  ⟨(upgrade_generations_iff advancedDb ⟨advancedDb.controlPlane, [], .empty _⟩ rfl).mpr
      advancedDb_newestOutranks,
    upgrade_generations_iff renewedDb ⟨renewedDb.controlPlane, [], .empty _⟩ rfl⟩

/-- The rollout in flight is behind the one it follows: the router refuses its pushes. -/
theorem next_rollout_is_behind :
    renewedDb.upgrade = .ok ⟨renewedDb.controlPlane, [], .empty _⟩ ∧
      ¬∀ m, GenerationInvariant renewedDb.controlPlane m := by
  refine ⟨rfl, ?_⟩
  intro h
  have hauth : renewedDb.controlPlane.getAuthoritativeAllocation "fraud-model" = some nextRollout := by
    decide
  have hbehind := ((h "fraud-model").newest nextRollout _ hauth rfl finishedRollout List.mem_cons_self
    rfl (by decide) _ rfl).1
  exact absurd hbehind (by decide)

end ModelOps
