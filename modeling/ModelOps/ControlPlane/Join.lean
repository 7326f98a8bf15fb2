/-
  File:      ModelOps/ControlPlane/Join.lean
  Subject:   The arrival order of metrics and labels is irrelevant: the summary of a version is that of
             the join of the two sets of writes (app/control_plane/metrics_service.py).

  The set of writes says everything about the join; no order is in it. A session commits its metric once,
  so the rows are those of the metric writes, counted once each; a prediction's label is the one its
  label writes agree on, whichever of them came first.

  * `Labelled`, `joinCount` -- the join of the two sets of writes, as counts;
  * `MetricsOnce` -- the invariant: each metric is either still to be written or in the table, once;
  * **`arrival_order_irrelevant`** -- every interleaving ends with the summary of the join.
-/
import ModelOps.ControlPlane.FirstWriter

namespace ModelOps

open Relational Interference

/-! ## 1. The join of the writes -/

/-- The row a metric write commits. -/
def Writer.row : Writer → Option MetricRow
  | .metric now deploymentId payload => some (payload.row deploymentId now)
  | .labels _ => none

section Writes

variable {ι : Type} (writers : ι → Writer)

/-- A label write gives the prediction `p` the label `a`. -/
def Labelled (p : String) (a : Nat) : Prop :=
  ∃ i, ∃ call ∈ (writers i).calls, call.predictionId = p ∧ call.payload.actualLabel = a

/-- The metric joins to the label `a`. -/
def JoinsTo (r : MetricRow) (a : Nat) : Prop := ∃ p, r.predictionId = some p ∧ Labelled writers p a

open Classical in
/-- How many metric writes satisfy `P`. -/
noncomputable def joinCount [Fintype ι] (P : MetricRow → Prop) : Nat :=
  (Finset.univ.filter fun i => ∃ r, (writers i).row = some r ∧ P r).card

/-- Prediction ids are null or pairwise distinct. -/
def DistinctPredictions : Prop :=
  ∀ i j r r', (writers i).row = some r → (writers j).row = some r' →
    r.predictionId.isSome → r.predictionId = r'.predictionId → i = j

/-- A prediction's label writes agree. -/
def LabelsAgree : Prop := ∀ p a a', Labelled writers p a → Labelled writers p a' → a = a'

end Writes

/-- The rows a summary is computed over. -/
def MetricRow.InScope (deploymentId version : String) (w : Window) (r : MetricRow) : Prop :=
  r.deploymentId = deploymentId ∧ r.modelVersion = version ∧ w.contains r.createdAt = true

section Summaries

variable {ι : Type} [Fintype ι] (writers : ι → Writer) (deploymentId version : String) (w : Window)

/-- How many metrics in scope predicted `p` and join to the label `a`. -/
noncomputable def pairCount (p : Int) (a : Nat) : Nat :=
  joinCount writers fun r =>
    r.InScope deploymentId version w ∧ r.prediction = some p ∧ JoinsTo writers r a

/-- **The summary is that of the join of the writes.** -/
structure SummaryOf (s : VersionSummary) : Prop where
  sampleCount : s.sampleCount = joinCount writers (MetricRow.InScope deploymentId version w)
  labeledSampleCount : s.labeledSampleCount = joinCount writers fun r =>
    r.InScope deploymentId version w ∧ ∃ a, JoinsTo writers r a
  labelCoverage : s.labelCoverage = ratio s.labeledSampleCount s.sampleCount
  positiveLabelCount : s.positiveLabelCount = pairCount writers deploymentId version w 1 1 +
    pairCount writers deploymentId version w 0 1
  precision : s.precision = ratio (pairCount writers deploymentId version w 1 1)
    (pairCount writers deploymentId version w 1 1 + pairCount writers deploymentId version w 1 0)
  «recall» : s.recall = ratio (pairCount writers deploymentId version w 1 1)
    (pairCount writers deploymentId version w 1 1 + pairCount writers deploymentId version w 0 1)
  falsePositiveRate : s.falsePositiveRate = ratio (pairCount writers deploymentId version w 1 0)
    (pairCount writers deploymentId version w 1 0 + pairCount writers deploymentId version w 0 0)

end Summaries

/-! ## 2. Each metric is in the table once -/

/-- The metric that is still to be committed. -/
def Standing.pending : Standing → List MetricRow
  | .recording now deploymentId payload => [payload.row deploymentId now]
  | _ => []

/-- The metric a report is of. -/
def Report.metric : Report → List MetricRow
  | .recorded row => [row]
  | _ => []

theorem after_pending (rest : List LabelCall) (result : LabelResult) :
    (Standing.after rest result).pending = [] := by
  have hnext : (Standing.next rest).pending = [] := by cases rest <;> rfl
  cases result with
  | ok outcome => exact hnext
  | error e =>
      cases e with
      | conflict e => exact hnext
      | integrityError => rfl

theorem step_metrics (call : LabelCall) (t : QualityTables) (at_ : IngestAt) :
    (call.step t at_).2.predictionMetrics = t.predictionMetrics := by
  cases at_ <;> simp only [LabelCall.step] <;> split <;> rfl

theorem act_metrics (s : Standing) (t : QualityTables) : (act s t).2.1.predictionMetrics =
    t.predictionMetrics ++ (act s t).2.2.flatMap Report.metric := by
  cases s with
  | done => exact (List.append_nil _).symm
  | recording now deploymentId payload =>
      cases hr : recordMetric now deploymentId payload t.predictionMetrics with
      | none => simp [act, hr, Report.metric]
      | some metrics => simp [act, hr, Report.metric, recordMetric_some hr]
  | ingesting at_ call rest =>
      rw [act_ingesting]
      cases hstep : (call.step t at_).1 with
      | inl at' => simpa using step_metrics call t at_
      | inr result => simpa [Report.metric] using step_metrics call t at_

/-- A prediction id that is not in the table is not refused. -/
theorem recordMetric_fresh (now : Time) (deploymentId : String) {payload : MetricIn}
    {metrics : List MetricRow}
    (h : ∀ m ∈ metrics, payload.predictionId.isSome → m.predictionId ≠ payload.predictionId) :
    recordMetric now deploymentId payload metrics =
      some (metrics ++ [payload.row deploymentId now]) := by
  unfold recordMetric
  rw [if_neg]
  intro hrefused
  rw [Bool.and_eq_true, List.any_eq_true] at hrefused
  obtain ⟨hsome, m, hm, hsame⟩ := hrefused
  exact h m hm hsome (of_decide_eq_true hsame)

section Rows

variable {ι : Type} [DecidableEq ι] {writers : ι → Writer}
  {c : Config QualityTables Standing Report ι}

/-- **Each metric is either still to be written or in the table**, and there once. -/
structure MetricsOnce (writers : ι → Writer) (c : Config QualityTables Standing Report ι) : Prop where
  rows : c.store.predictionMetrics = c.log.flatMap fun x => x.2.metric
  once : ∀ i, reported c Report.metric i ++ (c.proc i).pending = (writers i).row.toList

theorem metricsOnce_start (writers : ι → Writer) : MetricsOnce writers (sessions writers .empty) where
  rows := rfl
  once i := by
    show (writers i).start.pending = (writers i).row.toList
    cases writers i with
    | metric now deploymentId payload => rfl
    | labels calls => cases calls <;> rfl

/-- A metric in the table is another session's than the one that has still to write its own. -/
theorem MetricsOnce.unwritten (h : MetricsOnce writers c) (hdistinct : DistinctPredictions writers) {i : ι}
    {row : MetricRow} (hi : (c.proc i).pending = [row]) :
    ∀ m ∈ c.store.predictionMetrics, row.predictionId.isSome →
      m.predictionId ≠ row.predictionId := by
  intro m hm hsome hsame
  have honce := h.once i
  rw [hi] at honce
  rw [h.rows] at hm
  obtain ⟨⟨j, e⟩, he, hme⟩ := List.mem_flatMap.mp hm
  have hmj : m ∈ reported c Report.metric j :=
    List.mem_flatMap.mpr ⟨(j, e), he, by rw [if_pos rfl]; exact hme⟩
  have hj : (writers j).row = some m := by
    have hmem : m ∈ (writers j).row.toList := by
      rw [← h.once j]
      exact List.mem_append_left _ hmj
    exact Option.mem_toList.mp hmem
  have hrow : (writers i).row = some row := by
    have hmem : row ∈ (writers i).row.toList := by
      rw [← honce]
      exact List.mem_append_right _ (List.mem_singleton_self row)
    exact Option.mem_toList.mp hmem
  -- then it is its own, which it has reported already
  have hij : i = j := hdistinct i j row m hrow hj hsome hsame.symm
  subst hij
  rw [hrow] at honce
  have hlength := congrArg List.length honce
  have hpos := List.length_pos_of_mem hmj
  rw [List.length_append, List.length_singleton] at hlength
  have hone : (some row).toList.length = 1 := rfl
  omega

theorem metricsOnce_step (hdistinct : DistinctPredictions writers) (h : MetricsOnce writers c) (i : ι) :
    MetricsOnce writers (c.step act i) := by
  constructor
  · show (act (c.proc i) c.store).2.1.predictionMetrics = _
    rw [act_metrics, h.rows]
    simp [Config.step, List.flatMap_append, List.flatMap_map]
  · intro k
    refine (reported_step (i := k) ?_).trans (h.once k)
    cases hs : c.proc i with
    | done => rfl
    | recording now deploymentId payload =>
        have hpending : (c.proc i).pending = [payload.row deploymentId now] := by rw [hs]; rfl
        have hfresh := recordMetric_fresh now deploymentId
          (h.unwritten hdistinct hpending)
        simp only [act, hfresh]
        rfl
    | ingesting at_ call rest =>
        rw [act_ingesting]
        cases (call.step c.store at_).1 with
        | inl at' => rfl
        | inr result => exact after_pending rest result

/-- **The table at the end, counted by the writes.** -/
theorem count_metrics [Fintype ι] (h : MetricsOnce writers c) (hdone : ∀ i, c.proc i = .done)
    (q : MetricRow → Bool) :
    c.store.predictionMetrics.countP q = joinCount writers fun r => q r = true := by
  have hown : ∀ i, reported c Report.metric i = (writers i).row.toList := by
    intro i
    have honce := h.once i
    rw [hdone i] at honce
    exact (List.append_nil _).symm.trans honce
  unfold joinCount
  rw [h.rows, count_reported, Finset.card_filter]
  refine Finset.sum_congr rfl fun i _ => ?_
  rw [hown i]
  cases (writers i).row with
  | none => simp
  | some r => simp [List.countP_cons]

end Rows

/-! ## 3. Each label is the one its writes agree on -/

theorem step_labels (call : LabelCall) (t : QualityTables) (at_ : IngestAt) :
    (call.step t at_).2.groundTruthLabels = t.groundTruthLabels ∨
      (call.step t at_).2.groundTruthLabels = t.groundTruthLabels.put call.row := by
  cases at_ with
  | insert =>
      simp only [LabelCall.step]
      split
      · exact Or.inl rfl
      · exact Or.inr rfl
  | lookup => left; simp only [LabelCall.step]; split <;> rfl
  | relookup => left; simp only [LabelCall.step]; split <;> rfl
  | conflicting existing => left; simp only [LabelCall.step]; split <;> rfl
  | committed => exact Or.inl rfl
  | auditing existing deploymentId => exact Or.inl rfl

theorem after_todo (rest : List LabelCall) (result : LabelResult) :
    ∀ call ∈ (Standing.after rest result).todo, call ∈ rest := by
  intro call hcall
  cases result with
  | ok outcome => exact (next_todo rest) ▸ hcall
  | error e =>
      cases e with
      | conflict e => exact (next_todo rest) ▸ hcall
      | integrityError => exact (List.not_mem_nil hcall).elim

section Labels

variable {ι : Type} [DecidableEq ι] (writers : ι → Writer)

omit [DecidableEq ι] in
/-- **A row that is new is a label write's.** -/
theorem provenance_rules : Rules act (fun i p (_ : QualityTables) =>
      ∀ call ∈ Standing.todo p, call ∈ (writers i).calls) (fun _ _ _ => True)
    (fun t t' => ∀ row ∈ t'.groundTruthLabels, row ∈ t.groundTruthLabels ∨
      Labelled writers row.predictionId row.actualLabel) where
  own i s t h := by
    cases s with
    | done => exact ⟨h, fun _ hr => Or.inl hr, fun _ _ => trivial⟩
    | recording now deploymentId payload =>
        cases hr : recordMetric now deploymentId payload t.predictionMetrics <;>
          simp only [act, hr] <;>
          exact ⟨fun _ hc => (List.not_mem_nil hc).elim, fun _ hr => Or.inl hr, fun _ _ => trivial⟩
    | ingesting at_ call rest =>
        have hcall : call ∈ (writers i).calls := h call List.mem_cons_self
        have hguar : ∀ row ∈ (call.step t at_).2.groundTruthLabels, row ∈ t.groundTruthLabels ∨
            Labelled writers row.predictionId row.actualLabel := by
          intro row hrow
          rcases step_labels call t at_ with hsame | hput
          · rw [hsame] at hrow
            exact Or.inl hrow
          · rw [hput, Table.mem_put] at hrow
            rcases hrow with rfl | ⟨hrow, -⟩
            · exact Or.inr ⟨i, call, hcall, rfl, rfl⟩
            · exact Or.inl hrow
        rw [act_ingesting]
        cases (call.step t at_).1 with
        | inl at' => exact ⟨h, hguar, fun _ _ => trivial⟩
        | inr result =>
            refine ⟨?_, hguar, fun _ _ => trivial⟩
            intro call' hc
            exact h call' (List.mem_cons_of_mem _ (after_todo rest result call' hc))
  stable _ _ _ _ h _ := h
  lasting _ _ _ _ _ _ := trivial

variable {writers}

/-- **The label a prediction joins to is the one its label writes agree on.** -/
theorem label_joins (hagree : LabelsAgree writers) {schedule : List ι}
    (hdone : ∀ i, ((sessions writers .empty).run act schedule).proc i = .done) (r : MetricRow)
    (a : Nat) :
    (r.predictionId.bind
      ((sessions writers .empty).run act schedule).store.groundTruthLabels.get?).map
        GroundTruthLabel.actualLabel = some a ↔ JoinsTo writers r a := by
  have hwritten : ∀ p row, ((sessions writers .empty).run act schedule).store.groundTruthLabels.get? p =
      some row → Labelled writers p row.actualLabel := by
    intro p row hrow
    obtain ⟨hmem, hkey⟩ := Table.get?_eq_some.mp hrow
    have hstart : Sound (fun i p (_ : QualityTables) => ∀ call ∈ Standing.todo p,
        call ∈ (writers i).calls) (fun _ _ _ => True) (sessions writers .empty) :=
      sound_start fun i call hc => (start_todo (writers i)) ▸ hc
    have hguar := (provenance_rules writers).guar_run (fun _ _ h => Or.inl h)
      (fun _ _ _ h h' row hr => (h' row hr).elim (h row) Or.inr) hstart schedule
    rcases hguar row hmem with hempty | hlabelled
    · exact (Table.not_mem_empty row hempty).elim
    · rw [← hkey]
      exact hlabelled
  constructor
  · intro h
    obtain ⟨row, hbind, rfl⟩ := Option.map_eq_some_iff.mp h
    obtain ⟨p, hp, hrow⟩ := Option.bind_eq_some_iff.mp hbind
    exact ⟨p, hp, hwritten p row hrow⟩
  · intro h
    obtain ⟨p, hp, hlabelled⟩ := h
    obtain ⟨i, call, hcall, rfl, hlabel⟩ := hlabelled
    obtain ⟨row, hrow⟩ := row_of_call writers .empty schedule (hdone i) hcall
    have hsame : row.actualLabel = a :=
      hagree call.predictionId _ _ (hwritten _ row hrow) ⟨i, call, hcall, rfl, hlabel⟩
    rw [hp, Option.bind_some, hrow, Option.map_some, hsame]

end Labels

/-! ## 4. The summary -/

section Summary

variable (metrics : List MetricRow) (labels : Table GroundTruthLabel.predictionId)
  (deploymentId version : String) (w : Window)

/-- The filter of `joinedRows`. -/
def MetricRow.inScope (r : MetricRow) : Bool :=
  decide (r.deploymentId = deploymentId) && decide (r.modelVersion = version) &&
    w.contains r.createdAt

variable {deploymentId version w} in
theorem inScope_iff {r : MetricRow} :
    r.inScope deploymentId version w = true ↔ r.InScope deploymentId version w := by
  simp [MetricRow.inScope, MetricRow.InScope, and_assoc]

theorem joinedRows_length : (joinedRows metrics labels deploymentId version w).length =
    metrics.countP fun r => r.inScope deploymentId version w := by
  unfold joinedRows
  rw [List.length_map, List.countP_eq_length_filter]
  rfl

theorem joinedRows_labeled : (joinedRows metrics labels deploymentId version w).countP
      (fun r => r.label.isSome) =
    metrics.countP fun r => r.inScope deploymentId version w &&
      (r.predictionId.bind labels.get?).isSome := by
  unfold joinedRows
  rw [List.countP_map, List.countP_filter]
  refine List.countP_congr fun r _ => ?_
  simp [MetricRow.inScope, and_comm]

theorem tally_joinedRows (p : Int) (a : Nat) :
    tally ((joinedRows metrics labels deploymentId version w).filterMap JoinedRow.labeled) p a =
      metrics.countP fun r => r.inScope deploymentId version w &&
        decide (r.prediction = some p ∧
          (r.predictionId.bind labels.get?).map GroundTruthLabel.actualLabel = some a) := by
  unfold tally joinedRows
  rw [List.countP_filterMap, List.countP_map, List.countP_filter]
  refine List.countP_congr fun r _ => ?_
  cases hl : r.predictionId.bind labels.get? with
  | none => simp [JoinedRow.labeled, hl]
  | some l =>
      cases hp : r.prediction with
      | none => simp [JoinedRow.labeled, hl, hp]
      | some p' => simp [JoinedRow.labeled, hl, hp, MetricRow.inScope]; tauto

end Summary

/-- **The arrival order of metrics and labels is irrelevant.** However the sessions of a finite set of
    writes interleave, the summary of any deployment, version and window is that of the join of the two
    sets. -/
theorem arrival_order_irrelevant {ι : Type} [DecidableEq ι] [Fintype ι] (writers : ι → Writer)
    (hdistinct : DistinctPredictions writers) (hagree : LabelsAgree writers) (schedule : List ι)
    (hdone : ∀ i, ((sessions writers .empty).run act schedule).proc i = .done)
    (deploymentId version : String) (w : Window) :
    SummaryOf writers deploymentId version w
      (versionSummary ((sessions writers .empty).run act schedule).store.predictionMetrics
        ((sessions writers .empty).run act schedule).store.groundTruthLabels deploymentId version
        w) := by
  have hmetrics : MetricsOnce writers ((sessions writers .empty).run act schedule) :=
    Config.run_inv (I := MetricsOnce writers) (fun _ i h => metricsOnce_step hdistinct h i)
      (metricsOnce_start writers) schedule
  have hjoins := label_joins hagree hdone
  generalize (sessions writers .empty).run act schedule = c at hmetrics hjoins hdone
  have hsamples : (joinedRows c.store.predictionMetrics c.store.groundTruthLabels deploymentId version
      w).length = joinCount writers (MetricRow.InScope deploymentId version w) := by
    rw [joinedRows_length, count_metrics hmetrics hdone]
    exact congrArg (joinCount writers) (funext fun r => propext inScope_iff)
  have hlabeled : (joinedRows c.store.predictionMetrics c.store.groundTruthLabels deploymentId version
      w).countP (fun r => r.label.isSome) = joinCount writers fun r =>
        r.InScope deploymentId version w ∧ ∃ a, JoinsTo writers r a := by
    rw [joinedRows_labeled, count_metrics hmetrics hdone]
    refine congrArg (joinCount writers) (funext fun r => propext ?_)
    rw [Bool.and_eq_true, inScope_iff]
    refine and_congr_right fun _ => ?_
    rw [← Option.isSome_map (f := GroundTruthLabel.actualLabel), Option.isSome_iff_exists]
    exact exists_congr (hjoins r)
  have htally : ∀ p a, tally ((joinedRows c.store.predictionMetrics c.store.groundTruthLabels
      deploymentId version w).filterMap JoinedRow.labeled) p a =
        pairCount writers deploymentId version w p a := by
    intro p a
    rw [tally_joinedRows, count_metrics hmetrics hdone]
    refine congrArg (joinCount writers) (funext fun r => propext ?_)
    rw [Bool.and_eq_true, inScope_iff, decide_eq_true_eq, hjoins r a]
  constructor
  · exact hsamples
  · exact hlabeled
  · rfl
  · simp only [versionSummary, htally]
  · simp only [versionSummary, htally]
  · simp only [versionSummary, htally]
  · simp only [versionSummary, htally]

/-- A request that `v2` served in `ms`. -/
def sampleServed (ms : Nat) (prediction : Option Int) (predictionId : Option String) : MetricIn where
  modelVersion := "v2"
  latencyMs := ms
  statusCode := 200
  prediction := prediction
  predictionId := predictionId
  latency_nonneg := Nat.cast_nonneg ms

/-- The label of `p1`. -/
def sampleLabel (label : Bool) (occurredAt : Time) : LabelIn where
  predictionId := "p1"
  actualLabel := label.toNat
  occurredAt := occurredAt
  label_le_one := label.toNat_le

/-- Two metrics, one of them without a prediction id, and two sessions that report the same label, one of
    them twice. -/
def sampleWriters : Fin 4 → Writer :=
  ![.metric 5 "d1" (sampleServed 20 (some 1) (some "p1")),
    .labels [⟨sampleLabel true 3, 4⟩, ⟨sampleLabel true 3, 6⟩],
    .labels [⟨sampleLabel true 2, 7⟩],
    .metric 8 "d1" (sampleServed 30 none none)]

theorem arrival_order_irrelevant_sample :
    SummaryOf sampleWriters "d1" "v2" ⟨10, 60, 0⟩
      (versionSummary ((sessions sampleWriters .empty).run act
          ((List.replicate 10 [2, 1]).flatten ++ [0, 3])).store.predictionMetrics
        ((sessions sampleWriters .empty).run act
          ((List.replicate 10 [2, 1]).flatten ++ [0, 3])).store.groundTruthLabels "d1" "v2"
        ⟨10, 60, 0⟩) := by
  refine arrival_order_irrelevant sampleWriters ?_ ?_ _ ?_ "d1" "v2" ⟨10, 60, 0⟩
  · have hzero : ∀ i r, (sampleWriters i).row = some r → r.predictionId.isSome → i = 0 := by
      intro i r hr hsome
      fin_cases i
      · rfl
      · cases hr
      · cases hr
      · cases hr
        cases hsome
    intro i j r r' hr hr' hsome hsame
    rw [hzero i r hr hsome, hzero j r' hr' (hsame ▸ hsome)]
  · have hone : ∀ p a, Labelled sampleWriters p a → a = 1 := by
      intro p a h
      obtain ⟨i, call, hcall, -, rfl⟩ := h
      fin_cases i
      · cases hcall
      · rcases List.mem_pair.mp hcall with rfl | rfl <;> rfl
      · rw [List.mem_singleton.mp hcall]
        rfl
      · cases hcall
    intro p a a' h h'
    rw [hone p a h, hone p a' h']
  · exact done_of_turns sampleWriters .empty _ (by decide)

end ModelOps
