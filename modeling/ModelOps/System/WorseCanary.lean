/-
  File:      ModelOps/System/WorseCanary.lean
  Subject:   Two histories that differ in the metrics of a canary only, which are worse in the second: what
             an evaluation at their end makes of them.

  A metric is worse if its request took longer, failed, or missed a fraud. The two histories keep the same
  rows but for these values (`Tracks`); the p95 of the latencies, the error rate and the recall move one
  way (`WorseSummary`), and with them the policy engine's verdict.

  * `MetricIn.Worse`, `ApiCall.Worse` -- the difference;
  * `tracks_step`, `tracks_after` -- what every call, and so every history, keeps;
  * `summary_worse`, `verdict_worse` -- the measurements, and the verdict on them;
  * **`worse_never_better`** -- a worse canary is never judged better, and the worker's next action never
    favours it more.
-/
import ModelOps.Lib.Sorting
import ModelOps.Policy.Gates
import ModelOps.ControlPlane.Summary
import ModelOps.System.History
import ModelOps.Worker.Loop

namespace ModelOps

open Relational

/-! ## 1. Worse metrics -/

/-- What is reported of the same prediction is worse. -/
structure MetricIn.Worse (payload payload' : MetricIn) : Prop where
  modelVersion : payload'.modelVersion = payload.modelVersion
  predictionId : payload'.predictionId = payload.predictionId
  slower : payload.latencyMs ≤ payload'.latencyMs
  fails : 400 ≤ payload.statusCode → 400 ≤ payload'.statusCode
  misses : payload'.prediction = payload.prediction ∨
    payload.prediction = some 1 ∧ payload'.prediction = some 0

/-- The same call, or a worse metric of the version. -/
inductive ApiCall.Worse (id version : String) : ApiCall → ApiCall → Prop where
  | same (c : ApiCall) : Worse id version c c
  | metric (now : Time) {payload payload' : MetricIn} (h : payload.Worse payload')
      (hversion : payload.modelVersion = version) :
      Worse id version (.recordMetric now id payload) (.recordMetric now id payload')

/-- The same row, but for what is worse in it. -/
structure MetricRow.Worse (id version : String) (m m' : MetricRow) : Prop where
  deploymentId : m'.deploymentId = m.deploymentId
  modelVersion : m'.modelVersion = m.modelVersion
  predictionId : m'.predictionId = m.predictionId
  createdAt : m'.createdAt = m.createdAt
  apart : ¬(m.deploymentId = id ∧ m.modelVersion = version) → m' = m
  latency_nonneg : 0 ≤ m.latencyMs
  slower : m.latencyMs ≤ m'.latencyMs
  fails : 400 ≤ m.statusCode → 400 ≤ m'.statusCode
  misses : m'.prediction = m.prediction ∨ m.prediction = some 1 ∧ m'.prediction = some 0

/-- The same tables, but for worse metrics and what was made of them. -/
structure Tracks (id version : String) (t t' : Tables) : Prop where
  db : t'.db = t.db
  labels : t'.groundTruthLabels = t.groundTruthLabels
  metrics : List.Forall₂ (MetricRow.Worse id version) t.predictionMetrics t'.predictionMetrics

section Tracked

variable {id version : String} {t t' : Tables} {c c' : ApiCall} {m m' : MetricRow}
  {ms ms' : List MetricRow} {payload payload' : MetricIn}

theorem payload_worse_refl (payload : MetricIn) : payload.Worse payload :=
  ⟨rfl, rfl, le_rfl, fun h => h, Or.inl rfl⟩

theorem row_worse (h : payload.Worse payload') (id' : String) (now : Time)
    (hapart : ¬(id' = id ∧ payload.modelVersion = version) → payload' = payload) :
    (payload.row id' now).Worse id version (payload'.row id' now) where
  deploymentId := rfl
  modelVersion := h.modelVersion
  predictionId := h.predictionId
  createdAt := rfl
  apart hno := by rw [hapart hno]
  latency_nonneg := payload.latency_nonneg
  slower := h.slower
  fails := h.fails
  misses := h.misses

/-- A metric is recorded in both histories or in neither. -/
theorem recordMetric_worse (h : List.Forall₂ (MetricRow.Worse id version) ms ms')
    (hp : payload.Worse payload') (id' : String) (now : Time)
    (hapart : ¬(id' = id ∧ payload.modelVersion = version) → payload' = payload) :
    List.Forall₂ (MetricRow.Worse id version) ((recordMetric now id' payload ms).getD ms)
      ((recordMetric now id' payload' ms').getD ms') := by
  have hany : ms'.any (fun m => decide (m.predictionId = payload'.predictionId)) =
      ms.any fun m => decide (m.predictionId = payload.predictionId) := by
    induction h with
    | nil => rfl
    | cons hm _ ih => rw [List.any_cons, List.any_cons, ih, hm.predictionId, hp.predictionId]
  unfold recordMetric
  rw [hany, hp.predictionId]
  split
  · exact h
  · exact List.rel_append h (.cons (row_worse hp id' now hapart) .nil)

theorem findMetric_worse (h : List.Forall₂ (MetricRow.Worse id version) ms ms') (predictionId : String) :
    (findMetric ms' predictionId).map MetricRow.deploymentId =
      (findMetric ms predictionId).map MetricRow.deploymentId := by
  unfold findMetric
  induction h with
  | nil => rfl
  | cons hm _ ih =>
      rw [List.find?_cons, List.find?_cons, hm.predictionId]
      split
      · exact congrArg some hm.deploymentId
      · exact ih

/-- A label is taken, and a conflict noted, in both histories alike. -/
theorem ingestLabel_worse (h : List.Forall₂ (MetricRow.Worse id version) ms ms') (now : Time)
    (payload : LabelIn) (labels : Table GroundTruthLabel.predictionId) :
    (ingestLabel now ms' payload labels).2 = (ingestLabel now ms payload labels).2 := by
  have hfound := findMetric_worse h payload.predictionId
  unfold ingestLabel
  cases labels.get? payload.predictionId with
  | none => rfl
  | some existing =>
      unfold resolveExisting
      dsimp only
      split
      · rfl
      · rw [hfound]

theorem tracks_metric (h : Tracks id version t t') (hp : payload.Worse payload') (id' : String) (now : Time)
    (hapart : ¬(id' = id ∧ payload.modelVersion = version) → payload' = payload) :
    Tracks id version ((ApiCall.recordMetric now id' payload).exec t)
      ((ApiCall.recordMetric now id' payload').exec t') := by
  have hexec : ∀ (payload : MetricIn) (t : Tables), (ApiCall.recordMetric now id' payload).exec t =
      if (t.db.deployment? id').isSome then { t with predictionMetrics :=
        (recordMetric now id' payload t.predictionMetrics).getD t.predictionMetrics } else t :=
    fun _ _ => rfl
  rw [hexec, hexec, h.db]
  split
  · exact ⟨rfl, h.labels, recordMetric_worse h.metrics hp id' now hapart⟩
  · exact h

/-- An evaluation only adds to the evaluations on record. -/
theorem evaluate_records (env : EvaluationEnv) (r : EvaluateRequest) (t : Tables) :
    ∃ rows, (r.exec env t).2 = t.recorded rows := by
  rcases evaluate_cases env r t with ⟨e, h⟩ | ⟨d, _, _, h⟩
  · refine ⟨[], ?_⟩
    rw [h, Tables.recorded, List.append_nil]
  · exact ⟨_, congrArg Prod.snd h⟩

/-- **Every call keeps the tables together.** -/
theorem tracks_step (h : Tracks id version t t') (hc : c.Worse id version c') :
    Tracks id version (c.exec t) (c'.exec t') := by
  cases hc with
  | metric now hp hversion => exact tracks_metric h hp id now fun hno => absurd ⟨rfl, hversion⟩ hno
  | same c =>
      cases c with
      | lifecycle env req => exact ⟨congrArg (fun db => (req.exec env db).2) h.db, h.labels, h.metrics⟩
      | pushed now id' answer =>
          exact ⟨congrArg (fun db => recordPushed now db id' answer) h.db, h.labels, h.metrics⟩
      | reconcile clock g =>
          exact ⟨congrArg (fun db => (reconcileRouterState clock db g).db) h.db, h.labels, h.metrics⟩
      | recordMetric now id' payload =>
          exact tracks_metric h (payload_worse_refl payload) id' now fun _ => rfl
      | ingestLabel now payload =>
          have hexec : ∀ t : Tables, (ApiCall.ingestLabel now payload).exec t =
              let written := (ingestLabel now t.predictionMetrics payload t.groundTruthLabels).2
              { t with db := t.db.noted written.2, groundTruthLabels := written.1 } := fun _ => rfl
          rw [hexec, hexec, h.labels, h.db, ingestLabel_worse h.metrics now payload t.groundTruthLabels]
          exact ⟨rfl, rfl, h.metrics⟩
      | evaluate env r =>
          obtain ⟨rows, ht⟩ := evaluate_records env r t
          obtain ⟨rows', ht'⟩ := evaluate_records env r t'
          show Tracks id version (r.exec env t).2 (r.exec env t').2
          rw [ht, ht']
          exact ⟨h.db, h.labels, h.metrics⟩

/-- **Every history does.** -/
theorem tracks_after {history history' : List ApiCall}
    (hworse : List.Forall₂ (ApiCall.Worse id version) history history') (h : Tracks id version t t') :
    Tracks id version (t.after history) (t'.after history') := by
  induction hworse generalizing t t' with
  | nil => exact h
  | cons hc _ ih => exact ih (tracks_step h hc)

end Tracked

/-! ## 2. Worse measurements -/

/-- A row of the join that is worse. -/
structure JoinedRow.Worse (r r' : JoinedRow) : Prop where
  label : r'.label = r.label
  slower : r.metric.latencyMs ≤ r'.metric.latencyMs
  fails : 400 ≤ r.metric.statusCode → 400 ≤ r'.metric.statusCode
  misses : r'.metric.prediction = r.metric.prediction ∨
    r.metric.prediction = some 1 ∧ r'.metric.prediction = some 0

/-- A summary of as many requests and labels, with measurements that are worse. -/
structure WorseSummary (s s' : VersionSummary) : Prop where
  sampleCount : s'.sampleCount = s.sampleCount
  p95 : Option.Rel (· ≤ ·) s.p95LatencyMs s'.p95LatencyMs
  errorRate : Option.Rel (· ≤ ·) s.errorRate s'.errorRate
  labeledSampleCount : s'.labeledSampleCount = s.labeledSampleCount
  labelCoverage : s'.labelCoverage = s.labelCoverage
  positiveLabelCount : s'.positiveLabelCount = s.positiveLabelCount
  recall_le : Option.Rel (· ≥ ·) s.recall s'.recall

section Measured

variable {rows rows' : List JoinedRow} {n n' d : Nat} {l l' : List ℚ}

theorem countP_raised {β : Type} {R : β → β → Prop} {p q : β → Bool} {xs xs' : List β}
    (h : List.Forall₂ R xs xs') (himp : ∀ x x', R x x' → p x = true → q x' = true) :
    xs.countP p ≤ xs'.countP q := by
  induction h with
  | nil => exact Nat.le_refl _
  | @cons x x' xs xs' hx _ ih =>
      rw [List.countP_cons, List.countP_cons]
      cases hp : p x with
      | false =>
          simp only [Bool.false_eq_true, if_false, Nat.add_zero]
          exact ih.trans (Nat.le_add_right _ _)
      | true =>
          rw [himp x x' hx hp]
          simpa using ih

theorem ratio_raised (h : n ≤ n') (d : Nat) : Option.Rel (· ≤ ·) (ratio n d) (ratio n' d) := by
  unfold ratio
  split
  · refine .some ?_
    have hle : (n : ℚ) ≤ n' := by exact_mod_cast h
    gcongr
  · exact .none

/-- **A percentile of greater values is greater.** -/
theorem percentileOf_raised (h : List.Forall₂ (· ≤ ·) l l') {pct : ℚ} (h0 : 0 ≤ pct) (h1 : pct ≤ 100) :
    Option.Rel (· ≤ ·) (percentileOf l pct) (percentileOf l' pct) := by
  have hempty : l = [] ↔ l' = [] := by
    rw [← List.length_eq_zero_iff, ← List.length_eq_zero_iff, h.length_eq]
  unfold percentileOf
  by_cases hl : l = []
  · rw [if_pos hl, if_pos (hempty.mp hl)]
    exact .none
  · have hsorted : l.insertionSort (· ≤ ·) ≠ [] := by
      rw [← List.length_pos_iff, List.length_insertionSort]
      exact List.length_pos_iff.mpr hl
    obtain ⟨x, x', hx, hx', hle⟩ :=
      percentile_raised hsorted (Sorting.insertionSort_raised h) h0 h1
    rw [if_neg hl, if_neg fun h => hl (hempty.mpr h), hx, hx']
    exact .some hle

theorem errorRate_worse (h : List.Forall₂ JoinedRow.Worse rows rows') (version : String) :
    Option.Rel (· ≤ ·) (summarize version rows).errorRate (summarize version rows').errorRate := by
  show Option.Rel _ (errorRate (rows.map fun r => r.metric.statusCode.toNat))
    (errorRate (rows'.map fun r => r.metric.statusCode.toNat))
  rw [errorRate_eq, errorRate_eq, ← h.length_eq]
  refine ratio_raised (countP_raised h fun r r' hr hfails => ?_) _
  exact decide_eq_true (hr.fails (of_decide_eq_true hfails))

/-- What is not a positive that was found keeps its place in the counts. -/
theorem JoinedRow.Worse.counted {r r' : JoinedRow} (h : r.Worse r') :
    r'.positive = r.positive ∧ r'.binary = r.binary ∧ (r'.labeled = some (1, 1) → r.labeled = some (1, 1)) := by
  refine ⟨by unfold JoinedRow.positive; rw [h.label], ?_, ?_⟩
  · unfold JoinedRow.binary
    rcases h.misses with hsame | ⟨hone, hzero⟩
    · rw [hsame]
    · rw [hone, hzero]
      rfl
  · rw [labeled_eq_some, labeled_eq_some, h.label]
    rintro ⟨hone', hlabel⟩
    rcases h.misses with hsame | ⟨_, hzero⟩
    · exact ⟨hsame ▸ hone', hlabel⟩
    · rw [hzero] at hone'
      cases hone'

theorem positives_worse (h : List.Forall₂ JoinedRow.Worse rows rows') (version : String) :
    (summarize version rows').positiveLabelCount = (summarize version rows).positiveLabelCount := by
  rw [positiveLabelCount_eq, positiveLabelCount_eq]
  induction h with
  | nil => rfl
  | cons hr _ ih =>
      obtain ⟨hpositive, hbinary, _⟩ := hr.counted
      rw [List.countP_cons, List.countP_cons, ih, hpositive, hbinary]

/-- **The recall of rows that are worse is lower**: as many positives, fewer of them found. -/
theorem recall_worse (h : List.Forall₂ JoinedRow.Worse rows rows') (version : String) :
    Option.Rel (· ≥ ·) (summarize version rows).recall (summarize version rows').recall := by
  have hfound : tally (rows'.filterMap JoinedRow.labeled) 1 1 ≤ tally (rows.filterMap JoinedRow.labeled) 1 1 := by
    rw [tally_labeled, tally_labeled]
    refine countP_raised h.flip fun r' r hr hfound => ?_
    exact decide_eq_true (hr.counted.2.2 (of_decide_eq_true hfound))
  have hpositives : tally (rows'.filterMap JoinedRow.labeled) 1 1 + tally (rows'.filterMap JoinedRow.labeled) 0 1 =
      tally (rows.filterMap JoinedRow.labeled) 1 1 + tally (rows.filterMap JoinedRow.labeled) 0 1 :=
    positives_worse h version
  show Option.Rel _ (ratio _ _) (ratio _ _)
  rw [hpositives]
  have hraised := ratio_raised hfound
    (tally (rows.filterMap JoinedRow.labeled) 1 1 + tally (rows.filterMap JoinedRow.labeled) 0 1)
  generalize ratio _ _ = x at hraised ⊢
  generalize ratio _ _ = x' at hraised ⊢
  cases hraised with
  | none => exact .none
  | some hle => exact .some hle

/-- **Rows that are worse have a summary that is worse.** -/
theorem summary_worse (h : List.Forall₂ JoinedRow.Worse rows rows') (version : String) :
    WorseSummary (summarize version rows) (summarize version rows') := by
  have hlength : rows'.length = rows.length := h.length_eq.symm
  have hlabeled : (rows'.countP fun r => r.label.isSome) = rows.countP fun r => r.label.isSome := by
    induction h with
    | nil => rfl
    | cons hr h ih => rw [List.countP_cons, List.countP_cons, ih h.length_eq.symm, hr.label]
  have hlatencies : List.Forall₂ (· ≤ ·) (rows.map fun r => r.metric.latencyMs)
      (rows'.map fun r => r.metric.latencyMs) :=
    List.forall₂_map_left_iff.mpr (List.forall₂_map_right_iff.mpr (h.imp fun _ _ hr => hr.slower))
  exact
    { sampleCount := hlength
      p95 := percentileOf_raised hlatencies (by norm_num) (by norm_num)
      errorRate := errorRate_worse h version
      labeledSampleCount := hlabeled
      labelCoverage := by
        show ratio _ _ = ratio _ _
        rw [hlabeled, hlength]
      positiveLabelCount := positives_worse h version
      recall_le := recall_worse h version }

end Measured

section Joined

variable {id version : String} {t t' : Tables} {d : Deployment} {c : EvaluationClock} {config : PolicyConfig}

/-- **What a summary is computed from is worse**, and the same for any other version. -/
theorem joined_worse (h : Tracks id version t t') (version' : String) (w : Window) :
    List.Forall₂ JoinedRow.Worse
        (joinedRows t.predictionMetrics t.groundTruthLabels id version' w)
        (joinedRows t'.predictionMetrics t'.groundTruthLabels id version' w) ∧
      (version' ≠ version → joinedRows t'.predictionMetrics t'.groundTruthLabels id version' w =
        joinedRows t.predictionMetrics t.groundTruthLabels id version' w) := by
  unfold joinedRows
  rw [h.labels]
  have hmetrics := h.metrics
  generalize t.predictionMetrics = ms at hmetrics
  generalize t'.predictionMetrics = ms' at hmetrics
  induction hmetrics with
  | nil => exact ⟨.nil, fun _ => rfl⟩
  | @cons m m' ms ms' hm _ ih =>
      obtain ⟨ihworse, ihsame⟩ := ih
      rw [List.filter_cons, List.filter_cons, hm.deploymentId, hm.modelVersion, hm.createdAt]
      split
      · rename_i hscope
        simp only [Bool.and_eq_true, decide_eq_true_eq] at hscope
        refine ⟨.cons ⟨congrArg (Option.bind · _) hm.predictionId, hm.slower, hm.fails, hm.misses⟩ ihworse, fun hne => ?_⟩
        have hsame : m' = m := hm.apart fun h => hne (hscope.1.2.symm.trans h.2)
        rw [List.map_cons, List.map_cons, ihsame hne, hsame]
      · exact ⟨ihworse, ihsame⟩

/-- A p95 of recorded latencies is not negative. -/
theorem p95_nonneg (h : Tracks id version t t') (version' : String) (w : Window) :
    ∀ s ∈ (versionSummary t.predictionMetrics t.groundTruthLabels id version' w).p95LatencyMs, 0 ≤ s := by
  intro s hs
  have hs : percentileOf ((joinedRows t.predictionMetrics t.groundTruthLabels id version' w).map
      fun r => r.metric.latencyMs) 95 = some s := hs
  have hnonneg : ∀ x ∈ (joinedRows t.predictionMetrics t.groundTruthLabels id version' w).map
      fun r => r.metric.latencyMs, 0 ≤ x := by
    intro x hx
    obtain ⟨r, hr, rfl⟩ := List.mem_map.mp hx
    obtain ⟨m, hm, rfl⟩ := List.mem_map.mp hr
    have hrecorded : List.Forall₂ (fun m m' => 0 ≤ m.latencyMs ∧ m.Worse id version m') t.predictionMetrics
        t'.predictionMetrics := h.metrics.imp fun _ _ hm => ⟨hm.latency_nonneg, hm⟩
    exact ((List.forall₂_and_left _ _).mp hrecorded).1 m (List.mem_of_mem_filter hm)
  have hne : (joinedRows t.predictionMetrics t.groundTruthLabels id version' w).map
      (fun r => r.metric.latencyMs) ≠ [] := by
    intro hnil
    rw [hnil] at hs
    cases hs
  obtain ⟨p50, p95, _, _, h95, _, hle, _, least, hleast, _, _, _, hfirst, _⟩ := percentiles_ordered hne
  rw [h95] at hs
  cases hs
  exact (hnonneg least hleast).trans (hfirst.trans hle)

end Joined

/-! ## 3. The verdict -/

section Judged

variable {stable canary canary' quality quality' : VersionSummary} {config : PolicyConfig}

theorem enough_requests_worse (h : WorseSummary canary canary') :
    EnoughRequests stable canary' config ↔ EnoughRequests stable canary config := by
  unfold EnoughRequests
  rw [h.sampleCount]

theorem enough_labels_worse (h : WorseSummary quality quality') :
    EnoughLabels quality' config ↔ EnoughLabels quality config := by
  unfold EnoughLabels
  rw [h.labeledSampleCount, h.labelCoverage, h.positiveLabelCount]

/-- A raised value is there where the value was. -/
theorem raised_left {x : ℚ} {o o' : Option ℚ} {R : ℚ → ℚ → Prop} (h : Option.Rel R o o') (hx : o = some x) :
    ∃ x', o' = some x' ∧ R x x' := by
  cases h with
  | none => cases hx
  | some hr =>
      cases hx
      exact ⟨_, rfl, hr⟩

theorem raised_right {x' : ℚ} {o o' : Option ℚ} {R : ℚ → ℚ → Prop} (h : Option.Rel R o o')
    (hx : o' = some x') : ∃ x, o = some x ∧ R x x' := by
  cases h with
  | none => cases hx
  | some hr =>
      cases hx
      exact ⟨_, rfl, hr⟩

/-- The increase over a p95 that is not negative grows with the canary's p95. -/
theorem increase_mono {s x x' : ℚ} (hs : 0 ≤ s) (h : x ≤ x') : (x - s) / s * 100 ≤ (x' - s) / s * 100 := by
  gcongr

/-- **What fails, fails when it is worse.** -/
theorem fails_worse (hs : ∀ s ∈ stable.p95LatencyMs, 0 ≤ s) (h : WorseSummary canary canary')
    (hq : WorseSummary quality quality') (hfails : Fails stable canary quality config) :
    Fails stable canary' quality' config := by
  obtain ⟨hrequests, hfails⟩ := hfails
  refine ⟨(enough_requests_worse h).mpr hrequests, ?_⟩
  rcases hfails with ⟨_, ⟨s, x, hstable, hx, hs0, rfl⟩, hover⟩ | ⟨x, hx, hover⟩ | ⟨hlabels, x, hx, hbelow⟩
  · obtain ⟨x', hx', hle⟩ := raised_left h.p95 hx
    exact Or.inl ⟨_, ⟨s, x', hstable, hx', hs0, rfl⟩, hover.trans_le (increase_mono (hs s hstable) hle)⟩
  · obtain ⟨x', hx', hle⟩ := raised_left h.errorRate hx
    exact Or.inr (Or.inl ⟨x', hx', hover.trans_le (by linarith)⟩)
  · obtain ⟨x', hx', hle⟩ := raised_left hq.recall_le hx
    exact Or.inr (Or.inr ⟨(enough_labels_worse hq).mpr hlabels, x', hx', lt_of_le_of_lt hle hbelow⟩)

/-- **What passes, passed when it was better.** -/
theorem passes_worse (hs : ∀ s ∈ stable.p95LatencyMs, 0 ≤ s) (h : WorseSummary canary canary')
    (hq : WorseSummary quality quality') (hpasses : Passes stable canary' quality' config) :
    Passes stable canary quality config := by
  obtain ⟨hrequests, ⟨_, ⟨s, x', hstable, hx', hs0, rfl⟩, hwithin⟩, ⟨e', he', herrors⟩, hlabels, r', hr', hrecall⟩ :=
    hpasses
  obtain ⟨x, hx, hle⟩ := raised_right h.p95 hx'
  obtain ⟨e, he, hle'⟩ := raised_right h.errorRate he'
  obtain ⟨r, hr, hge⟩ := raised_right hq.recall_le hr'
  exact ⟨(enough_requests_worse h).mp hrequests,
    ⟨_, ⟨s, x, hstable, hx, hs0, rfl⟩, (increase_mono (hs s hstable) hle).trans hwithin⟩,
    ⟨e, he, le_trans (by linarith) herrors⟩, (enough_labels_worse hq).mp hlabels, r, hr, hrecall.trans hge⟩

end Judged

/-- How much a verdict says for the canary. -/
def OverallResult.grade : OverallResult → Nat
  | .fail => 0
  | .inconclusive => 1
  | .pass => 2

/-- How much an action favours the canary. -/
def WorkerAction.favour : WorkerAction → Nat
  | .rollback => 0
  | .recordInconclusive => 1
  | .advanceTraffic | .promote => 2

theorem favour_decideAction (v : OverallResult) (full : Bool) : (decideAction v full).favour = v.grade := by
  cases v <;> cases full <;> rfl

theorem grade_le {v v' : OverallResult} (hfail : v = .fail → v' = .fail) (hpass : v' = .pass → v = .pass) :
    v'.grade ≤ v.grade := by
  cases v with
  | fail => rw [hfail rfl]
  | pass => cases v' <;> decide
  | inconclusive =>
      cases v' with
      | pass => cases hpass rfl
      | fail | inconclusive => decide

/-- **An evaluation of a worse canary has no better verdict.** -/
theorem checks_worse {t t' : Tables} {d : Deployment} (h : Tracks d.id d.canaryVersion t t')
    (hne : d.stableVersion ≠ d.canaryVersion) (c : EvaluationClock) (config : PolicyConfig) :
    (overallResult (t'.checks c d config)).grade ≤ (overallResult (t.checks c d config)).grade := by
  have hcanary := summary_worse (joined_worse h d.canaryVersion ⟨c.canary, config.evaluationWindowSeconds, 0⟩).1
    d.canaryVersion
  have hquality := summary_worse
    (joined_worse h d.canaryVersion ⟨c.quality, config.evaluationWindowSeconds, config.labelMaturitySeconds⟩).1
    d.canaryVersion
  have hstable : (t'.comparison c d config).stable = (t.comparison c d config).stable := by
    show versionSummary _ _ _ _ _ = versionSummary _ _ _ _ _
    rw [versionSummary_eq, versionSummary_eq, (joined_worse h d.stableVersion _).2 hne]
  have hnonneg := p95_nonneg h d.stableVersion ⟨c.stable, config.evaluationWindowSeconds, 0⟩
  unfold Tables.checks
  dsimp only
  rw [hstable]
  refine grade_le (fun hfail => ?_) fun hpass => ?_
  · rw [verdict_fail] at hfail ⊢
    exact fails_worse hnonneg hcanary hquality hfail
  · rw [verdict_pass] at hpass ⊢
    exact passes_worse hnonneg hcanary hquality hpass

/-- **A worse canary is never judged better.** Take two histories of the API that differ only in metrics
    of a deployment's canary, which in the second took longer, failed or missed a fraud. Then an evaluation
    at the end of both is refused alike, or its verdict in the second is no better, and the action the
    worker takes on it favours the canary no more. -/
theorem worse_never_better (history history' : List ApiCall) (d : Deployment)
    (hd : d ∈ (Tables.empty.after history).db.deployments)
    (hworse : List.Forall₂ (ApiCall.Worse d.id d.canaryVersion) history history') (env : EvaluationEnv)
    (config : Option PolicyConfig) :
    let answer := ((EvaluateRequest.mk d.id config).exec env (Tables.empty.after history)).1
    let answer' := ((EvaluateRequest.mk d.id config).exec env (Tables.empty.after history')).1
    (∃ e, answer = .error e ∧ answer' = .error e) ∨
      ∃ response response', answer = .ok response ∧ answer' = .ok response' ∧
        response'.overallResult.grade ≤ response.overallResult.grade ∧ ∀ canaryAtFullTraffic,
          (decideAction response'.overallResult canaryAtFullTraffic).favour ≤
            (decideAction response.overallResult canaryAtFullTraffic).favour := by
  intro answer answer'
  have htracks : Tracks d.id d.canaryVersion (Tables.empty.after history) (Tables.empty.after history') :=
    tracks_after hworse ⟨rfl, rfl, .nil⟩
  have hshape := (after_shaped history ⟨schema_empty, shaped_empty⟩).2 d hd
  have hrow : (Tables.empty.after history).db.deployment? d.id = some d := Table.mem_iff_get?.mp hd
  have hrow' : (Tables.empty.after history').db.deployment? d.id = some d := htracks.db ▸ hrow
  cases ha : d.status.active with
  | false =>
      have hrefused : ∀ t : Tables, t.db.deployment? d.id = some d →
          ((EvaluateRequest.mk d.id config).exec env t).1 = .error (.deploymentNotActive d.id d.status) := by
        intro t ht
        have heval := eval_program env ⟨d.id, config⟩ t
        rw [ht, judge_inactive ha] at heval
        simp [EvaluateRequest.exec, Transact.run, heval]
      exact Or.inl ⟨_, hrefused _ hrow, hrefused _ hrow'⟩
  | true =>
      have hgrade := checks_worse htracks hshape.versions_ne env.clock
        ((EvaluateRequest.mk d.id config).effectiveConfig env d)
      refine Or.inr ⟨_, _, congrArg Prod.fst (exec_evaluated env ⟨d.id, config⟩ hrow ha),
        congrArg Prod.fst (exec_evaluated env ⟨d.id, config⟩ hrow' ha), hgrade, fun full => ?_⟩
      rw [favour_decideAction, favour_decideAction]
      exact hgrade

/-- A request of a version that took `ms` and failed. -/
def sampleFailure (version : String) (ms : NNRat) : MetricIn where
  modelVersion := version
  latencyMs := ms
  statusCode := 503
  latency_nonneg := NNRat.coe_nonneg ms

/-- A rollout whose stable request failed, and then its canary's, after `ms`. -/
def sampleFailures (ms : NNRat) : List ApiCall :=
  [.lifecycle (Env.after 0 "d1") (.create (sampleCreate "fraud-model") none),
    .recordMetric 10 "d1" (sampleFailure "v1" 20), .recordMetric 11 "d1" (sampleFailure "v2" ms)]

def sampleJudge : EvaluationEnv := ⟨⟨20, 21, 22, 23, []⟩, samplePolicy⟩

/-- One request of each version is enough. -/
def sampleQuestion : EvaluateRequest where
  deploymentId := "d1"
  config := some { samplePolicy with minimumRequests := 1 }

/-- The canary that took longer fails as well. -/
theorem worse_never_better_sample : ∃ response,
    (sampleQuestion.exec sampleJudge (Tables.empty.after (sampleFailures 90))).1 = .ok response ∧
      response.overallResult = .fail := by
  have hverdict : ((sampleQuestion.exec sampleJudge (Tables.empty.after (sampleFailures 20))).1.toOption.map
      EvaluateResponse.overallResult) = some .fail := by decide +kernel
  have hd : createdRow (Env.after 0 "d1") (sampleCreate "fraud-model") none ∈
      (Tables.empty.after (sampleFailures 20)).db.deployments := by decide +kernel
  have hworse : List.Forall₂ (ApiCall.Worse "d1" "v2") (sampleFailures 20) (sampleFailures 90) := by
    refine .cons (.same _) (.cons (.same _) (.cons (.metric 11 ?_ rfl) .nil))
    exact ⟨rfl, rfl, by decide +kernel, fun h => h, Or.inl rfl⟩
  rcases worse_never_better _ _ _ hd hworse sampleJudge sampleQuestion.config with
    ⟨e, he, _⟩ | ⟨response, response', hok, hok', hgrade, _⟩
  · have he : (sampleQuestion.exec sampleJudge (Tables.empty.after (sampleFailures 20))).1 = .error e := he
    rw [he] at hverdict
    cases hverdict
  · have hok : (sampleQuestion.exec sampleJudge (Tables.empty.after (sampleFailures 20))).1 =
        .ok response := hok
    rw [hok] at hverdict
    rw [Option.some.inj hverdict] at hgrade
    refine ⟨response', hok', ?_⟩
    cases hv : response'.overallResult with
    | fail => rfl
    | pass | inconclusive =>
        rw [hv] at hgrade
        exact absurd hgrade (by decide)

end ModelOps
