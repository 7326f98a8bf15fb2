/-
  File:      ModelOps/Worker/Evidence.lean
  Subject:   What a promotion rests on: requests that were counted once, for one stage.

  A PASS needs `minimum_requests` of the canary within the window it looks at, few enough of them failed.
  Nothing of that is stored with the verdict, but the metrics stay; and as the evaluations of a rollout
  are a window apart (Worker/Spacing.lean), no request is looked at by two of them.

  * `Enough` -- what the metrics say that a PASS is decided on;
  * `Proven` -- every PASS on the diary has read that, a window after every row of the evaluations before
    it; `proven_run`: what an evaluation has read is what its step of the run reads;
  * **`promotion_evidence`** -- so a promotion takes as many times the minimum as it has stages;
  * **`failing_held`** -- and a canary that only fails gets no further.
-/
import ModelOps.Policy.Gates
import ModelOps.Worker.Pace

namespace ModelOps

open Relational Labelled Refinement

/-! ## 1. The requests of one evaluation -/

/-- The canary's requests that an evaluation counts which reads them at `τ`. -/
def MetricRow.seen (id version : String) (windowSeconds : Nat) (τ : Time) (m : MetricRow) : Bool :=
  decide (m.deploymentId = id) && decide (m.modelVersion = version) &&
    (Window.mk τ windowSeconds 0).contains m.createdAt

/-- The summary of them. -/
def canarySummary (metrics : List MetricRow) (id version : String) (windowSeconds : Nat) (τ : Time) :
    MetricsSummary :=
  computeVersionSummary (metrics.map MetricRow.counted) id version ⟨τ, windowSeconds, 0⟩

/-- What an evaluation reads of the canary: the metrics, and when. -/
structure Reading where
  metrics : List MetricRow
  time : Time

/-- There are requests enough of the canary, and few enough of them have failed. -/
def Enough (r : Reading) (id version : String) (p : PolicyConfig) : Prop :=
  let summary := canarySummary r.metrics id version p.evaluationWindowSeconds r.time
  p.minimumRequests ≤ summary.sampleCount ∧
    ∃ errorRate, summary.errorRate = some errorRate ∧
      errorRate * 100 ≤ p.reliability.maxErrorRatePercent

section Seen

variable {metrics : List MetricRow} {r : Reading} {id version : String} {p : PolicyConfig} {w : Nat}
  {τ τ' : Time}

theorem sampleCount_seen (metrics : List MetricRow) (id version : String) (w : Nat) (τ : Time) :
    (canarySummary metrics id version w τ).sampleCount =
      metrics.countP (MetricRow.seen id version w τ) := by
  unfold canarySummary computeVersionSummary
  dsimp only
  rw [List.countP_eq_length_filter, List.filter_map, List.length_map]
  rfl

/-- **A request is seen once**: by the second of two evaluations a window apart, it is too old. -/
theorem seen_once (h : τ + w * 10 ^ 6 < τ') {m : MetricRow} (hm : m.seen id version w τ = true) :
    m.seen id version w τ' = false := by
  unfold MetricRow.seen Window.contains at hm ⊢
  simp only [Nat.zero_mul, Nat.add_zero, Bool.and_eq_true, decide_eq_true_eq] at hm
  simp only [Nat.zero_mul, Nat.add_zero, Bool.and_eq_false_iff, decide_eq_false_iff_not]
  have hold : m.createdAt + w * 10 ^ 6 < τ' := (Nat.add_le_add_right hm.2.1 _).trans_lt h
  exact Or.inr (Or.inr (not_le.mpr hold))

/-- The requests it saw are among those that are stored. -/
theorem Enough.count (h : Enough r id version p) (hstored : r.metrics <+: metrics) :
    p.minimumRequests ≤ metrics.countP (MetricRow.seen id version p.evaluationWindowSeconds r.time) := by
  obtain ⟨henough, _⟩ := h
  rw [sampleCount_seen] at henough
  exact henough.trans hstored.sublist.countP_le

/-- **A PASS is decided on enough.** -/
theorem enough_pass {t : Tables} {c : EvaluationClock} {d : Deployment}
    (h : overallResult (t.checks c d p) = .pass) :
    Enough ⟨t.predictionMetrics, c.canary⟩ d.id d.canaryVersion p := by
  obtain ⟨henough, _, ⟨errorRate, hrate, hle⟩, _⟩ := verdict_pass.mp h
  have hcounts := versionSummary_counts t.predictionMetrics t.groundTruthLabels d.id d.canaryVersion
    ⟨c.canary, p.evaluationWindowSeconds, 0⟩
  unfold Enough canarySummary
  rw [← hcounts]
  exact ⟨henough.trans (Nat.min_le_right _ _), errorRate, hrate, hle⟩

end Seen

/-! ## 2. What is kept of it -/

/-- The canary of a rollout, and the policy it is judged by. -/
def Db.judgedBy (db : Db) (id : String) : Option (String × PolicyConfig) :=
  (db.deployment? id).bind fun d => d.policyConfig.map fun p => (d.canaryVersion, p)

/-- What a step may do to the evidence: metrics come, and no rollout gets another canary or policy. -/
structure Preserves (t t' : Tables) : Prop where
  judgedBy : ∀ id x, t.db.judgedBy id = some x → t'.db.judgedBy id = some x
  metrics : t.predictionMetrics <+: t'.predictionMetrics

section Preserves

variable {db : Db} {t : Tables} {d : Deployment} {p : PolicyConfig} {id version : String}

theorem judgedBy_of_row (hd : db.deployment? d.id = some d) (hp : d.policyConfig = some p) :
    db.judgedBy d.id = some (d.canaryVersion, p) := by
  unfold Db.judgedBy
  rw [hd, Option.bind_some, hp]
  rfl

theorem judgedBy_eq_some (h : db.judgedBy id = some (version, p)) :
    ∃ d, db.deployment? id = some d ∧ d.canaryVersion = version ∧ d.policyConfig = some p := by
  obtain ⟨d, hd, h⟩ := Option.bind_eq_some_iff.mp h
  obtain ⟨p', hp, h⟩ := Option.map_eq_some_iff.mp h
  cases h
  exact ⟨d, hd, rfl, hp⟩

theorem window_of_judgedBy (h : db.judgedBy id = some (version, p)) :
    db.window id = some p.evaluationWindowSeconds := by
  obtain ⟨d, hd, _, hp⟩ := judgedBy_eq_some h
  exact window_eq_some.mpr ⟨d, p, hd, hp, rfl⟩

theorem judgedBy_exec (env : Env) (req : Request) (h : db.judgedBy id = some (version, p)) :
    (req.exec env db).2.judgedBy id = some (version, p) := by
  obtain ⟨d, hd, rfl, hp⟩ := judgedBy_eq_some h
  obtain ⟨rfl, hd⟩ := found hd
  rcases exec_turns env req hd with ⟨hd', _⟩ | ⟨row, split, events, hturn, hid, hdb⟩
  · exact judgedBy_of_row hd' hp
  · have hrow : (req.exec env db).2.deployment? row.id = some row := by
      rw [hdb, applied_deployment?, if_pos rfl]
    have hjudged := judgedBy_of_row hrow (hturn.amends.policyConfig_eq.trans hp)
    rwa [hid, hturn.amends.canaryVersion_eq] at hjudged

theorem exec_metrics (c : ApiCall) (t : Tables) : t.predictionMetrics <+: (c.exec t).predictionMetrics := by
  cases c with
  | recordMetric now id payload =>
      simp only [ApiCall.exec]
      split
      · unfold recordMetric
        split
        · exact List.prefix_rfl
        · exact List.prefix_append _ _
      · exact List.prefix_rfl
  | evaluate env req =>
      show t.predictionMetrics <+: (req.exec env t).2.predictionMetrics
      rcases evaluate_cases env req t with ⟨e, h⟩ | ⟨d, _, _, h⟩
      · rw [h]
      · rw [h]
        exact List.prefix_rfl
  | lifecycle | pushed | reconcile | ingestLabel => exact List.prefix_rfl

theorem Preserves.refl (t : Tables) : Preserves t t := ⟨fun _ _ h => h, List.prefix_rfl⟩

theorem Preserves.trans {t t' t'' : Tables} (h : Preserves t t') (h' : Preserves t' t'') :
    Preserves t t'' :=
  ⟨fun id x hx => h'.judgedBy id x (h.judgedBy id x hx), h.metrics.trans h'.metrics⟩

/-- **No call takes evidence away.** -/
theorem preserves_call (c : ApiCall) (t : Tables) : Preserves t (c.exec t) where
  judgedBy := by
    rintro id ⟨version, p⟩ h
    rcases call_cases c t with ⟨env, req, rfl⟩ | ⟨events, he, _⟩
    · exact judgedBy_exec env req h
    · rw [he]
      exact h
  metrics := exec_metrics c t

end Preserves

/-- An evaluation writes its rows after it has read the canary's requests. -/
def WorkerLabel.Forward : WorkerLabel → Prop
  | .evaluate env _ => env.clock.canary < env.clock.now ∧ ∀ τ ∈ env.clock.evaluatedAt, env.clock.canary < τ
  | .call _ | .list | .fetch | .checkDue _ _ | .act _ _ | .raise | .crash | .finish => True

/-- **What is behind the verdicts on the diary**: the `i`-th evaluation has read `readAt i`, before it wrote
    its rows and a window after the rows of those before it, and a PASS has found enough there. -/
structure Proven (t : Tables) (g : Diary) (readAt : Nat → Reading) : Prop where
  enough : ∀ i j, g.judged[i]? = some j → j.verdict = .pass →
    ∃ version p, t.db.judgedBy j.deploymentId = some (version, p) ∧
      Enough (readAt i) j.deploymentId version p ∧ (readAt i).metrics <+: t.predictionMetrics
  before : ∀ i j, g.judged[i]? = some j → ∀ τ ∈ j.evaluatedAt, (readAt i).time < τ
  after : ∀ i i' j j', i < i' → g.judged[i]? = some j → g.judged[i']? = some j' →
    j.deploymentId = j'.deploymentId → ∀ n, t.db.window j.deploymentId = some n →
      ∀ τ ∈ j.evaluatedAt, τ + n * 10 ^ 6 ≤ (readAt i').time

section Steps

variable {past : List Time} {t t' : Tables} {task : Option Task} {g : Diary} {readAt : Nat → Reading}

theorem proven_start : Proven .empty {} readAt where
  enough _ _ h := nomatch h
  before _ _ h := nomatch h
  after _ _ _ _ _ h := nomatch h

/-- What preserves the policies preserves their windows. -/
theorem Preserves.window (ht : Preserves t t') {id : String} {n : Nat} (h : t.db.window id = some n) :
    t'.db.window id = some n := by
  obtain ⟨d, p, hd, hp, rfl⟩ := window_eq_some.mp h
  obtain ⟨rfl, hd⟩ := found hd
  exact window_of_judgedBy (ht.judgedBy _ _ (judgedBy_of_row hd hp))

theorem Proven.preserved (h : Proven t g readAt) (hs : Spacing past t task g) (ht : Preserves t t') :
    Proven t' g readAt where
  enough i j hj hpass := by
    obtain ⟨version, p, hjudged, henough, hread⟩ := h.enough i j hj hpass
    exact ⟨version, p, ht.judgedBy _ _ hjudged, henough, hread.trans ht.metrics⟩
  before := h.before
  after i i' j j' hlt hj hj' hsame n' hn' τ hτ := by
    obtain ⟨_, ⟨n, hn⟩, _⟩ := hs.onRecord j (List.mem_of_getElem? hj)
    rw [window_back (fun _ _ => ht.window) hn hn']
    exact h.after i i' j j' hlt hj hj' hsame n hn τ hτ

theorem getElem?_snoc {α : Type} {l : List α} {a x : α} {i : Nat} (h : (l ++ [a])[i]? = some x) :
    (i < l.length ∧ l[i]? = some x) ∨ (i = l.length ∧ x = a) := by
  by_cases hlt : i < l.length
  · rw [List.getElem?_append_left hlt] at h
    exact Or.inl ⟨hlt, h⟩
  · rw [List.getElem?_append_right (Nat.le_of_not_lt hlt), List.getElem?_singleton] at h
    split at h
    · cases h
      exact Or.inr ⟨by omega, rfl⟩
    · cases h

/-- An evaluation writes its rows at readings that its diary shows. -/
theorem row_after {c : EvaluationClock} {d : Deployment} {config : PolicyConfig} {τ : Time}
    (hforward : c.canary < c.now ∧ ∀ τ ∈ c.evaluatedAt, c.canary < τ)
    (hτ : τ ∈ (t.evaluationRows c d config).map PolicyEvaluation.evaluatedAt) : c.canary < τ := by
  obtain ⟨row, hrow, rfl⟩ := List.mem_map.mp hτ
  obtain ⟨i, _, rfl⟩ := List.mem_mapIdx.mp hrow
  show c.canary < c.row i
  unfold EvaluationClock.row
  rw [List.getD_eq_getElem?_getD]
  cases hi : c.evaluatedAt[i]? with
  | none => exact hforward.1
  | some at_ => exact hforward.2 at_ (List.mem_of_getElem? hi)

/-- **An evaluation behind its check** reads a window after every earlier one, and finds enough for a
    PASS. -/
theorem Proven.judge {out : DeploymentOut} {d : Deployment} {p : PolicyConfig} {c : EvaluationClock}
    (h : Proven t g readAt) (hs : Spacing past t (some (.due out)) g) (hid : d.id = out.deployment.id)
    (hd : t.db.deployment? d.id = some d) (hp : d.policyConfig = some p)
    (hclock : ∀ τ ∈ past, τ ≤ c.canary)
    (hforward : c.canary < c.now ∧ ∀ τ ∈ c.evaluatedAt, c.canary < τ) :
    Proven t (g.judge ⟨out.deployment.id, overallResult (t.checks c d p),
        (t.evaluationRows c d p).map PolicyEvaluation.evaluatedAt⟩)
      (Function.update readAt g.judged.length ⟨t.predictionMetrics, c.canary⟩) := by
  have hold : ∀ {i}, i < g.judged.length →
      Function.update readAt g.judged.length ⟨t.predictionMetrics, c.canary⟩ i = readAt i :=
    fun hlt => Function.update_of_ne (Nat.ne_of_lt hlt) _ _
  have hnew : Function.update readAt g.judged.length ⟨t.predictionMetrics, c.canary⟩
      g.judged.length = ⟨t.predictionMetrics, c.canary⟩ := Function.update_self ..
  refine ⟨?_, ?_, ?_⟩
  · intro i j hj hpass
    rcases getElem?_snoc hj with ⟨hlt, hj⟩ | ⟨rfl, rfl⟩
    · rw [hold hlt]
      exact h.enough i j hj hpass
    · rw [hnew, ← hid]
      exact ⟨d.canaryVersion, p, judgedBy_of_row hd hp, enough_pass hpass, List.prefix_rfl⟩
  · intro i j hj τ hτ
    rcases getElem?_snoc hj with ⟨hlt, hj⟩ | ⟨rfl, rfl⟩
    · rw [hold hlt]
      exact h.before i j hj τ hτ
    · rw [hnew]
      exact row_after hforward hτ
  · intro i i' j j' hlt hj hj' hsame n hn τ hτ
    rcases getElem?_snoc hj' with ⟨hlt', hj'⟩ | ⟨rfl, rfl⟩
    · rcases getElem?_snoc hj with ⟨_, hj⟩ | ⟨rfl, _⟩
      · rw [hold hlt']
        exact h.after i i' j j' hlt hj hj' hsame n hn τ hτ
      · omega
    · rcases getElem?_snoc hj with ⟨_, hj⟩ | ⟨rfl, _⟩
      · -- the check in between waited for those rows
        obtain ⟨checked, hchecked, hover⟩ := hs.waited out rfl
        rw [hnew]
        exact (hover j (List.mem_of_getElem? hj) hsame n hn τ hτ).trans (hclock checked hchecked)
      · omega

/-- Rows of evaluations are no evidence. -/
theorem Proven.recorded (h : Proven t g readAt) (rows : List PolicyEvaluation) :
    Proven (t.recorded rows) g readAt :=
  ⟨h.enough, h.before, h.after⟩

/-- Only the evaluations of the diary matter. -/
theorem Proven.of_judged {g' : Diary} (h : Proven t g readAt) (hg : g'.judged = g.judged) :
    Proven t g' readAt where
  enough i j hj := h.enough i j (hg ▸ hj)
  before i j hj := h.before i j (hg ▸ hj)
  after i i' j j' hlt hj hj' := h.after i i' j j' hlt (hg ▸ hj) (hg ▸ hj')

end Steps

section Run

variable {past : List Time} {w : WorkerState} {g : Diary} {l : WorkerLabel} {readAt : Nat → Reading}
  {x x' : WorkerState × Diary}

theorem note_judged (hl : ∀ env answered, l ≠ .evaluate env answered) :
    (Diary.note w l g).judged = g.judged := by
  unfold Diary.note
  split
  · exact absurd rfl (hl _ _)
  · rfl
  · rfl

/-- What the worker's POST /evaluate reads, and whether it is recorded, as a step of the run. -/
def ReadIn (x : WorkerState × Diary) (ls : List WorkerLabel) (i : Nat) (r : Reading) : Prop :=
  ∃ before env answered after y, ls = before ++ .evaluate env answered :: after ∧
    run WorkerState.recorded x before = some y ∧ y.2.judged.length = i ∧
      r = ⟨y.1.tables.predictionMetrics, env.clock.canary⟩

theorem ReadIn.later {ls : List WorkerLabel} {x1 : WorkerState × Diary} {i : Nat} {r : Reading}
    (h : ReadIn x1 ls i r) (hn : WorkerState.recorded x l = some x1) : ReadIn x (l :: ls) i r := by
  obtain ⟨before, env, answered, after, y, rfl, hy, hi, hr⟩ := h
  refine ⟨l :: before, env, answered, after, y, rfl, ?_, hi, hr⟩
  rw [run_cons, hn]
  exact hy

/-- What a step adds to the readings. -/
def Extends (w : WorkerState) (g g' : Diary) (l : WorkerLabel) (readAt readAt' : Nat → Reading) : Prop :=
  (g'.judged = g.judged ∧ readAt' = readAt) ∨
    ∃ env answered j, l = .evaluate env answered ∧ g'.judged = g.judged ++ [j] ∧
      readAt' = Function.update readAt g.judged.length ⟨w.tables.predictionMetrics, env.clock.canary⟩

theorem proven_evaluate {env : EvaluationEnv} {answered : Bool} (h : SpacedOut past (w, g))
    (hp : Proven w.tables g readAt) (hclock : ∀ τ ∈ past, ∀ τ' ∈ env.clock.readings, τ ≤ τ')
    (hforward : WorkerLabel.Forward (.evaluate env answered))
    (hx : WorkerState.recorded (w, g) (.evaluate env answered) = some x') :
    ∃ readAt', Proven x'.1.tables x'.2 readAt' ∧
      Extends w g x'.2 (.evaluate env answered) readAt readAt' := by
  obtain ⟨w', g'⟩ := x'
  obtain ⟨hn, hg⟩ := observed_eq_some.mp hx
  dsimp only at hn hg ⊢
  simp only [WorkerState.next] at hn
  split at hn
  · rename_i out ht
    have hdue : Spacing past w.tables (some (.due out)) g := ht ▸ h
    rcases evaluate_cases env (workerEvaluate out.deployment.id) w.tables with
      ⟨e, hexec⟩ | ⟨d, hd, ha, hexec⟩
    · rw [hexec] at hn
      cases hn
      have hsame : g'.judged = g.judged := by
        rw [hg]
        simp only [Diary.note, ht, hexec]
      exact ⟨readAt, hp.of_judged hsame, Or.inl ⟨hsame, rfl⟩⟩
    · rw [hexec] at hn
      cases hn
      obtain ⟨hid, hd⟩ := found hd
      have hid : out.deployment.id = d.id := hid
      obtain ⟨p, hpolicy, _⟩ := (hdue.shaped.2 d (deployment?_eq_some.mp hd).1).policy
      have hconfig : (workerEvaluate out.deployment.id).effectiveConfig env d = p := by
        show d.policyConfig.getD env.policyDefaults = p
        rw [hpolicy]
        rfl
      have hcanary : env.clock.canary ∈ env.clock.readings := List.mem_cons_of_mem _ List.mem_cons_self
      rw [hg]
      simp only [Diary.note, ht, hexec, newTimes_recorded, hconfig]
      exact ⟨_, (hp.judge hdue hid.symm hd hpolicy (fun τ hτ => hclock τ hτ _ hcanary)
        hforward).recorded _, Or.inr ⟨env, answered, _, rfl, rfl, rfl⟩⟩
  · cases hn

/-- **Every step keeps the evidence.** -/
theorem proven_step (h : SpacedOut past (w, g)) (hp : Proven w.tables g readAt)
    (hclock : ∀ τ ∈ past, ∀ τ' ∈ l.readings, τ ≤ τ') (hforward : l.Forward)
    (hx : WorkerState.recorded (w, g) l = some x') :
    ∃ readAt', Proven x'.1.tables x'.2 readAt' ∧ Extends w g x'.2 l readAt readAt' := by
  by_cases hl : ∃ env answered, l = .evaluate env answered
  · obtain ⟨env, answered, rfl⟩ := hl
    exact proven_evaluate h hp hclock hforward hx
  · obtain ⟨hn, hg⟩ := observed_eq_some.mp hx
    have hjudged : x'.2.judged = g.judged := by
      rw [hg]
      exact note_judged fun env answered he => hl ⟨env, answered, he⟩
    refine ⟨readAt, Proven.of_judged ?_ hjudged, Or.inl ⟨hjudged, rfl⟩⟩
    rcases worker_cases hn with ⟨rows, hrows, _⟩ | ⟨c, _, hw⟩ | ⟨env, _, id, action, _, _, hw⟩
    · rw [hrows]
      exact hp.recorded rows
    · rw [hw]
      exact hp.preserved h (preserves_call c w.tables)
    · rw [hw]
      exact hp.preserved h (preserves_call (.lifecycle env (action.request id)) w.tables)

/-- **Every run keeps the evidence**, and what its evaluations have read is what their steps read. -/
theorem proven_run (ls : List WorkerLabel) (h : SpacedOut past x) (hp : Proven x.1.tables x.2 readAt)
    (hpast : ∀ τ ∈ past, ∀ l ∈ ls, ∀ τ' ∈ l.readings, τ ≤ τ') (hclock : ClockMonotone ls)
    (hforward : ∀ l ∈ ls, l.Forward) (hr : run WorkerState.recorded x ls = some x') :
    ∃ readAt', Proven x'.1.tables x'.2 readAt' ∧
      (∀ i < x.2.judged.length, readAt' i = readAt i) ∧
      ∀ i, x.2.judged.length ≤ i → i < x'.2.judged.length → ReadIn x ls i (readAt' i) := by
  induction ls generalizing past x readAt with
  | nil =>
      cases hr
      exact ⟨readAt, hp, fun _ _ => rfl, fun i hle hlt => absurd hlt (Nat.not_lt.mpr hle)⟩
  | cons l ls ih =>
      rw [run_cons] at hr
      obtain ⟨hfirst, hrest⟩ := List.pairwise_cons.mp hclock
      obtain ⟨x1, hn, hr⟩ := Option.bind_eq_some_iff.mp hr
      have hnow : ∀ τ ∈ past, ∀ τ' ∈ l.readings, τ ≤ τ' := fun τ hτ => hpast τ hτ l List.mem_cons_self
      obtain ⟨readAt1, hp1, hadds⟩ := proven_step h hp hnow (hforward l List.mem_cons_self) hn
      obtain ⟨readAt', hp', hkept, hread⟩ := ih (spacing_step h hnow hn) hp1
        (by
          intro τ hτ l' hl' τ' hτ'
          rcases List.mem_append.mp hτ with hτ | hτ
          · exact hpast τ hτ l' (List.mem_cons_of_mem l hl') τ' hτ'
          · exact hfirst l' hl' τ hτ τ' hτ') hrest
        (fun l' hl' => hforward l' (List.mem_cons_of_mem l hl')) hr
      refine ⟨readAt', hp', ?_, ?_⟩
      · intro i hlt
        rcases hadds with ⟨hjudged, rfl⟩ | ⟨env, answered, j, _, hjudged, rfl⟩
        · exact hkept i (hjudged ▸ hlt)
        · have hgrown : i < x1.2.judged.length := by
            rw [hjudged, List.length_append]
            exact Nat.lt_add_right _ hlt
          rw [hkept i hgrown]
          exact Function.update_of_ne (Nat.ne_of_lt hlt) _ _
      · intro i hle hlt
        by_cases hold : x1.2.judged.length ≤ i
        · exact (hread i hold hlt).later hn
        · rcases hadds with ⟨hjudged, _⟩ | ⟨env, answered, j, rfl, hjudged, rfl⟩
          · exact absurd (hjudged ▸ hle) hold
          · -- the evaluation that this step is
            have hi : i = x.2.judged.length := by
              rw [hjudged, List.length_append, List.length_singleton] at hold
              omega
            refine ⟨[], env, answered, ls, x, rfl, rfl, hi.symm, ?_⟩
            rw [hkept i (Nat.lt_of_not_le hold), hi]
            exact Function.update_self ..

/-- Every run from the start is spaced and proven. -/
theorem evidence_run (ls : List WorkerLabel) (hclock : ClockMonotone ls) (hforward : ∀ l ∈ ls, l.Forward)
    (hrun : run WorkerState.recorded ({ tables := .empty }, {}) ls = some x) :
    ∃ past readAt, Spacing past x.1.tables x.1.task x.2 ∧ Proven x.1.tables x.2 readAt ∧
      ∀ i < x.2.judged.length, ReadIn ({ tables := .empty }, {}) ls i (readAt i) := by
  have hstart : SpacedOut [] ({ tables := .empty }, {}) := spacing_start
  have hnone : ∀ τ ∈ ([] : List Time), ∀ l ∈ ls, ∀ τ' ∈ l.readings, τ ≤ τ' :=
    fun _ hτ => (List.not_mem_nil hτ).elim
  have hunread : Proven .empty {} fun _ => ⟨[], 0⟩ := proven_start
  obtain ⟨readAt, hproven, _, hread⟩ := proven_run ls hstart hunread hnone hclock hforward hrun
  exact ⟨_, readAt, spacing_run ls hstart hnone hclock hrun, hproven, fun i hi =>
    hread i (Nat.zero_le i) hi⟩

/-- The evaluation behind an action that follows a PASS, and what it saw. -/
theorem enough_deed {t : Tables} {task : Option Task} (hs : Spacing past t task g)
    (hp : Proven t g readAt) {deed : Deed} (hdeed : deed ∈ g.deeds) (hpass : deed.action.verdict = .pass) :
    ∃ j, g.judged[deed.basis]? = some j ∧ j.deploymentId = deed.deploymentId ∧ j.verdict = .pass ∧
      j.evaluatedAt ≠ [] ∧ ∃ version p, t.db.judgedBy deed.deploymentId = some (version, p) ∧
        Enough (readAt deed.basis) deed.deploymentId version p ∧
          (readAt deed.basis).metrics <+: t.predictionMetrics := by
  obtain ⟨j, hj, ⟨hid, hverdict⟩, hne, _⟩ := hs.basis hdeed
  have hpass' := hverdict.symm.trans hpass
  obtain ⟨version, p, hjudged, henough, hread⟩ := hp.enough _ j hj hpass'
  rw [hid] at hjudged henough
  exact ⟨j, hj, hid, hpass', hne, version, p, hjudged, henough, hread⟩

end Run

/-! ## 3. What a promotion takes -/

/-- Disjoint windows do not count a request twice. -/
theorem counts_of_windows {metrics : List MetricRow} {id version : String} {p : PolicyConfig}
    (readings : List Reading)
    (hapart : readings.Pairwise fun r r' => r.time + p.evaluationWindowSeconds * 10 ^ 6 < r'.time)
    (henough : ∀ r ∈ readings, Enough r id version p ∧ r.metrics <+: metrics) :
    readings.length * p.minimumRequests ≤
      metrics.countP fun m => decide (m.deploymentId = id) && decide (m.modelVersion = version) := by
  let seen := fun r : Reading => MetricRow.seen id version p.evaluationWindowSeconds r.time
  let requests := metrics.filter fun m => decide (m.deploymentId = id) && decide (m.modelVersion = version)
  have hcount : ∀ r, requests.countP (seen r) = metrics.countP (seen r) := by
    intro r
    rw [List.countP_filter]
    refine List.countP_congr fun m _ => ?_
    simp only [seen, MetricRow.seen, Bool.and_eq_true]
    exact and_iff_left_of_imp And.left
  have hleast : ∀ n ∈ (readings.map seen).map requests.countP, p.minimumRequests ≤ n := by
    intro n hn
    rw [List.map_map] at hn
    obtain ⟨r, hr, rfl⟩ := List.mem_map.mp hn
    obtain ⟨hr, hread⟩ := henough r hr
    exact (hr.count hread).trans_eq (hcount r).symm
  have hsum := List.card_nsmul_le_sum _ _ hleast
  rw [List.length_map, List.length_map, smul_eq_mul] at hsum
  have hexclude : (readings.map seen).Pairwise fun q q' => ∀ m, q m = true → q' m = false :=
    List.pairwise_map.mpr (hapart.imp fun h m hm => seen_once h hm)
  calc readings.length * p.minimumRequests ≤ ((readings.map seen).map requests.countP).sum := hsum
    _ ≤ requests.length := Sorting.counts_add_up hexclude requests
    _ = _ := List.countP_eq_length_filter.symm

/-- **A promotion rests on requests of its own for every stage**: where nobody else advances or promotes it,
    a rollout that a run takes from a share to its promotion has been evaluated with PASS once for every
    stage above that share and once more; each of these evaluations found enough in what it read, in
    windows that have no request in common; so the canary has answered as many times the minimum. -/
theorem promotion_evidence (ls ls' : List WorkerLabel) (hclock : ClockMonotone (ls ++ ls'))
    (hforward : ∀ l ∈ ls ++ ls', l.Forward) (x x' : WorkerState × Diary)
    (hrun : run WorkerState.recorded ({ tables := .empty }, {}) ls = some x)
    (hrun' : run WorkerState.recorded x ls' = some x') (id : String) (hls : ∀ l ∈ ls', l.Aside id)
    (share : ℚ)
    (hshare : (x.1.tables.db.rollout? id).map Rollout.phase = some (.running share))
    (hpromoted : (x'.1.tables.db.rollout? id).map Rollout.phase = some .promoted) :
    ∃ d p, x'.1.tables.db.deployment? id = some d ∧ d.policyConfig = some p ∧
      (∃ evidence : List (Nat × Reading), evidence.length = stagesAbove share + 1 ∧
        (evidence.Pairwise fun e e' => e.1 < e'.1 ∧
          e.2.time + p.evaluationWindowSeconds * 10 ^ 6 < e'.2.time) ∧
        ∀ e ∈ evidence, ReadIn ({ tables := .empty }, {}) (ls ++ ls') e.1 e.2 ∧
          (∃ j, x'.2.judged[e.1]? = some j ∧ j.deploymentId = id ∧ j.verdict = .pass) ∧
          Enough e.2 id d.canaryVersion p ∧ e.2.metrics <+: x'.1.tables.predictionMetrics) ∧
      (stagesAbove share + 1) * p.minimumRequests ≤ x'.1.tables.predictionMetrics.countP fun m =>
        decide (m.deploymentId = id) && decide (m.modelVersion = d.canaryVersion) := by
  obtain ⟨first, rest, hsub, hlength, hpasses⟩ :=
    passes_paid ls ls' hrun hrun' hls share hshare hpromoted
  have hwhole : run WorkerState.recorded ({ tables := .empty }, {}) (ls ++ ls') = some x' := by
    rw [run_append, hrun]
    exact hrun'
  obtain ⟨past, readAt, hspaced, hproven, hread⟩ := evidence_run (ls ++ ls') hclock hforward hwhole
  have hin : (first :: rest).Sublist x'.2.deeds := hsub.trans (List.drop_sublist _ _)
  have hbehind : ∀ deed ∈ first :: rest, ∃ j, x'.2.judged[deed.basis]? = some j ∧ j.deploymentId = id ∧
      j.verdict = .pass ∧ j.evaluatedAt ≠ [] ∧ ∃ version p,
        x'.1.tables.db.judgedBy id = some (version, p) ∧ Enough (readAt deed.basis) id version p ∧
          (readAt deed.basis).metrics <+: x'.1.tables.predictionMetrics := by
    intro deed hdeed
    obtain ⟨rfl, hpass⟩ := hpasses deed hdeed
    exact enough_deed hspaced hproven (hin.subset hdeed) hpass
  obtain ⟨_, _, _, _, _, version, p, hjudged, _⟩ := hbehind first List.mem_cons_self
  obtain ⟨d, hd, rfl, hp⟩ := judgedBy_eq_some hjudged
  let evidence := (first :: rest).map fun deed => (deed.basis, readAt deed.basis)
  have hevidence : ∀ e ∈ evidence, ReadIn ({ tables := .empty }, {}) (ls ++ ls') e.1 e.2 ∧
      (∃ j, x'.2.judged[e.1]? = some j ∧ j.deploymentId = id ∧ j.verdict = .pass) ∧
      Enough e.2 id d.canaryVersion p ∧ e.2.metrics <+: x'.1.tables.predictionMetrics := by
    intro e he
    obtain ⟨deed, hdeed, rfl⟩ := List.mem_map.mp he
    obtain ⟨j, hj, hid, hpass, _, version', p', hjudged', henough, hstored⟩ := hbehind deed hdeed
    rw [hjudged] at hjudged'
    cases hjudged'
    exact ⟨hread _ (List.getElem?_eq_some_iff.mp hj).1, ⟨j, hj, hid, hpass⟩, henough, hstored⟩
  have hapart : evidence.Pairwise fun e e' => e.1 < e'.1 ∧
      e.2.time + p.evaluationWindowSeconds * 10 ^ 6 < e'.2.time := by
    refine List.pairwise_map.mpr ((hspaced.once.sublist hin).imp_of_mem ?_)
    intro deed deed' hdeed hdeed' hlt
    obtain ⟨j, hj, hid, _, hne, _⟩ := hbehind deed hdeed
    obtain ⟨j', hj', hid', _⟩ := hbehind deed' hdeed'
    obtain ⟨σ, hσ⟩ := List.exists_mem_of_ne_nil _ hne
    have hbefore := hproven.before _ j hj σ hσ
    have hafter := hproven.after _ _ j j' hlt hj hj' (hid.trans hid'.symm) _
      (hid ▸ window_of_judgedBy hjudged) σ hσ
    exact ⟨hlt, (Nat.add_lt_add_right hbefore _).trans_le hafter⟩
  have hcount : evidence.length = stagesAbove share + 1 := by
    rw [List.length_map, List.length_cons, hlength]
  refine ⟨d, p, hd, hp, ⟨evidence, hcount, hapart, hevidence⟩, ?_⟩
  have hleast := counts_of_windows (evidence.map Prod.snd)
    (List.pairwise_map.mpr (hapart.imp fun h => h.2)) (by
      intro r hr
      obtain ⟨e, he, rfl⟩ := List.mem_map.mp hr
      exact (hevidence e he).2.2)
  rwa [List.length_map, hcount] at hleast

/-- The two sweeps of a sample rollout have looked at a request each. -/
theorem promotion_evidence_sample :
    ∃ x' : WorkerState × Diary, ∃ version, (∃ evidence : List (Nat × Reading), evidence.length = 2 ∧
        (evidence.Pairwise fun e e' => e.1 < e'.1 ∧ e.2.time + 2 * 10 ^ 6 < e'.2.time) ∧
        ∀ e ∈ evidence, ReadIn ({ tables := .empty }, {}) (sampleBegin ++ sampleSweepTwice) e.1 e.2) ∧
      2 * 1 ≤ x'.1.tables.predictionMetrics.countP fun m =>
        decide (m.deploymentId = "d1") && decide (m.modelVersion = version) := by
  obtain ⟨x, x', hx, hx', hshare, hpromoted, _, _, hconfig⟩ := sampleSweepTwice_run
  have hforward : ∀ l ∈ sampleBegin ++ sampleSweepTwice, l.Forward := by
    simp only [sampleBegin, sampleSweepTwice, sampleRound, sampleVerdict, List.cons_append, List.nil_append,
      List.forall_mem_cons, WorkerLabel.Forward, List.not_mem_nil, false_imp_iff, implies_true]
    decide
  obtain ⟨d, p, hd, hp, ⟨evidence, hcount, hapart, hread⟩, hleast⟩ := promotion_evidence sampleBegin
    sampleSweepTwice sampleSweepTwice_clock hforward x x' hx hx' "d1" sampleSweepTwice_aside (3 / 5) hshare
    hpromoted
  have hone : stagesAbove (3 / 5) + 1 = 2 := by decide +kernel
  rw [hd, Option.bind_some, hp] at hconfig
  obtain ⟨hwindow, hminimum⟩ := List.cons.inj (Option.some.inj hconfig)
  obtain ⟨hminimum, _⟩ := List.cons.inj hminimum
  rw [hone, hminimum] at hleast
  rw [hwindow] at hapart
  exact ⟨x', d.canaryVersion, ⟨evidence, hcount.trans hone, hapart, fun e he => (hread e he).1⟩, hleast⟩

/-! ## 4. A canary that fails -/

/-- The rollout has not been taken further than the share: it stands there, or was frozen there, or has
    been rolled back. -/
def Rollout.Held (share : ℚ) (r : Rollout) : Prop :=
  r.phase = .running share ∨ r.phase = .frozen share ∨ r.phase = .rolledBack

section Held

variable {share : ℚ} {r : Rollout} {m : Move}

/-- Only a move forward takes a rollout further. -/
theorem held_proceed (h : r.Held share) (hm : m.forward = false) :
    (proceed Rollout.next r m).Held share := by
  cases hn : r.next m with
  | none =>
      rw [proceed_disabled hn]
      exact h
  | some r' =>
      rw [proceed_enabled hn]
      cases m with
      | advance => cases hm
      | promote => cases hm
      | cycle =>
          rcases h with hp | hp | hp
          · simp only [Rollout.next, hp] at hn
            split at hn
            · cases hn
              exact Or.inl rfl
            · cases hn
              exact Or.inr (Or.inl rfl)
          · simp [Rollout.next, hp] at hn
          · simp [Rollout.next, hp] at hn
      | rollback =>
          simp only [Rollout.next] at hn
          split at hn
          · cases hn
            exact Or.inr (Or.inr rfl)
          · cases hn
      | hold paused =>
          simp only [Rollout.next] at hn
          split at hn
          · cases hn
            exact h
          · cases hn

end Held

/-- Where every request has failed, so has the whole of them. -/
theorem errorRate_failed {statusCodes : List Nat} (hne : statusCodes ≠ [])
    (h : ∀ n ∈ statusCodes, 400 ≤ n) : errorRate statusCodes = some 1 := by
  have hcount : statusCodes.countP (fun n => decide (400 ≤ n)) = statusCodes.length :=
    List.countP_eq_length.mpr fun n hn => decide_eq_true (h n hn)
  have hpos : (statusCodes.length : ℚ) ≠ 0 := Nat.cast_ne_zero.mpr (mt List.length_eq_zero_iff.mp hne)
  unfold errorRate
  rw [if_neg hne, hcount, div_self hpos]

/-- A canary that only fails has never enough, under a policy that does not put up with that. -/
theorem not_enough_failed {r : Reading} {id version : String} {p : PolicyConfig}
    (hmax : p.reliability.maxErrorRatePercent < 100)
    (hfail : ∀ m ∈ r.metrics, m.deploymentId = id → m.modelVersion = version → 400 ≤ m.statusCode) :
    ¬Enough r id version p := by
  rintro ⟨_, e, herror, hle⟩
  unfold canarySummary computeVersionSummary at herror
  dsimp only at herror
  have hne : (((r.metrics.map MetricRow.counted).filter fun m =>
      decide (m.deploymentId = id) && decide (m.modelVersion = version) &&
        (Window.mk r.time p.evaluationWindowSeconds 0).contains m.createdAt).map
          fun m => m.statusCode) ≠ [] := by
    intro hnil
    rw [hnil] at herror
    cases herror
  rw [errorRate_failed hne] at herror
  · cases herror
    linarith
  · intro code hcode
    obtain ⟨row, hrow, rfl⟩ := List.mem_map.mp hcode
    obtain ⟨hrow, hseen⟩ := List.mem_filter.mp hrow
    obtain ⟨m, hm, rfl⟩ := List.mem_map.mp hrow
    simp only [Bool.and_eq_true, decide_eq_true_eq] at hseen
    have hstatus := hfail m hm hseen.1.1 hseen.1.2
    show 400 ≤ m.statusCode.toNat
    omega

/-- No PASS of `id` waits for its action. -/
def NoPass (id : String) (w : WorkerState) : Prop :=
  ∀ action, w.task = some (.decided id action) → action.verdict ≠ .pass

/-- What the run ends with says of `id` that its canary only fails. -/
structure OnlyFails (id : String) (t : Tables) : Prop where
  judged : ∃ version p, t.db.judgedBy id = some (version, p) ∧
    p.reliability.maxErrorRatePercent < 100 ∧
    ∀ m ∈ t.predictionMetrics, m.deploymentId = id → m.modelVersion = version → 400 ≤ m.statusCode

section Failing

variable {w w' : WorkerState} {l : WorkerLabel} {id : String} {share : ℚ} {t : Tables}

/-- A step takes no evidence away. -/
theorem preserves_step (hn : WorkerState.next w l = some w') : Preserves w.tables w'.tables := by
  rcases worker_cases hn with ⟨rows, hrows, _⟩ | ⟨c, _, rfl⟩ | ⟨env, _, id, action, _, _, rfl⟩
  · rw [hrows]
    exact ⟨fun _ _ h => h, List.prefix_rfl⟩
  · exact preserves_call c w.tables
  · exact preserves_call (.lifecycle env (action.request id)) w.tables

theorem preserves_run {ls : List WorkerLabel} (hrun : run WorkerState.next w ls = some w') :
    Preserves w.tables w'.tables :=
  run_inv (I := fun w' : WorkerState => Preserves w.tables w'.tables)
    (fun _ _ _ h hn => h.trans (preserves_step hn)) (Preserves.refl w.tables) hrun

/-- Only an evaluation decides; any other step that leaves a decided task has found it. -/
theorem decided_found {action : WorkerAction} (hl : ∀ env answered, l ≠ .evaluate env answered)
    (hn : WorkerState.next w l = some w') (htask : w'.task = some (.decided id action)) :
    w.task = some (.decided id action) := by
  cases l with
  | call c =>
      cases hn
      exact htask
  | list =>
      simp only [WorkerState.next] at hn
      split at hn
      · cases hn
      · cases hn
        cases htask
  | fetch =>
      simp only [WorkerState.next] at hn
      split at hn
      · rename_i ht _
        split at hn
        · split at hn
          · cases hn
            cases htask
          · cases hn
            exact htask
        · cases hn
          exact htask
      · cases hn
  | checkDue now default =>
      simp only [WorkerState.next] at hn
      split at hn
      · split at hn <;> cases hn <;> cases htask
      · cases hn
  | evaluate env answered => exact absurd rfl (hl env answered)
  | act env answered =>
      simp only [WorkerState.next] at hn
      split at hn <;> cases hn
      cases htask
  | raise =>
      simp only [WorkerState.next] at hn
      split at hn
      · cases hn
        cases htask
      · cases hn
        exact htask
      · cases hn
  | crash =>
      cases hn
      cases htask
  | finish =>
      simp only [WorkerState.next] at hn
      split at hn
      · split at hn <;> cases hn
        exact htask
      · cases hn

/-- Where the canary only fails at last, no evaluation before comes to a PASS. -/
theorem noPass_step (hlast : OnlyFails id t) (hgrounded : Grounded w) (h : NoPass id w)
    (hlater : Preserves w.tables t) (hn : WorkerState.next w l = some w') : NoPass id w' := by
  intro action htask hpass
  by_cases hl : ∃ env answered, l = .evaluate env answered
  · obtain ⟨env, answered, rfl⟩ := hl
    simp only [WorkerState.next] at hn
    split at hn
    · rename_i out hdue
      rcases evaluate_cases env (workerEvaluate out.deployment.id) w.tables with
        ⟨e, hexec⟩ | ⟨d, hd, ha, hexec⟩
      · rw [hexec] at hn
        cases hn
        cases htask
      · rw [hexec] at hn
        cases hn
        cases answered with
        | false => cases htask
        | true =>
            obtain ⟨hdecided, haction⟩ := Task.decided.inj (Option.some.inj htask)
            rw [← haction, decideAction_verdict] at hpass
            obtain ⟨hid, hd⟩ := found hd
            obtain ⟨p, hpolicy, _⟩ := (hgrounded.shaped.2 d (deployment?_eq_some.mp hd).1).policy
            have hconfig : (workerEvaluate out.deployment.id).effectiveConfig env d = p := by
              show d.policyConfig.getD env.policyDefaults = p
              rw [hpolicy]
              rfl
            rw [hconfig] at hpass
            obtain ⟨version, p', hjudged, hmax, hfail⟩ := hlast.judged
            have hsame := hlater.judgedBy _ _ (judgedBy_of_row hd hpolicy)
            have hid : d.id = id := hid.symm.trans hdecided
            rw [hid, hjudged] at hsame
            cases hsame
            refine not_enough_failed hmax ?_ (hid ▸ enough_pass hpass)
            intro m hm
            exact hfail m (hlater.metrics.subset hm)
    · cases hn
  · exact h action (decided_found (fun env answered he => hl ⟨env, answered, he⟩) hn htask) hpass

/-- **A step that follows no PASS takes the rollout no further.** -/
theorem held_step (hgrounded : Grounded w) (hno : NoPass id w) (hl : l.Aside id)
    (h : ∃ r, w.tables.db.rollout? id = some r ∧ r.Held share)
    (hn : WorkerState.next w l = some w') :
    ∃ r, w'.tables.db.rollout? id = some r ∧ r.Held share := by
  obtain ⟨r, hr, hheld⟩ := h
  have hpasses : (Diary.note w l {}).passes id = 0 := by
    unfold Diary.note
    split
    · split <;> rfl
    · rename_i id' action ht
      by_cases hid : id' = id
      · subst hid
        have hverdict := hno action ht
        simp [Diary.passes, Diary.act, Deed.passes, hverdict]
      · simp [Diary.passes, Diary.act, Deed.passes, hid]
    · rfl
  rcases move_step (g := {}) hgrounded hr hl hn with ⟨hr', _⟩ | ⟨m, hr', hforward, _⟩
  · exact ⟨r, hr', hheld⟩
  · refine ⟨_, hr', held_proceed hheld ?_⟩
    rw [hpasses] at hforward
    cases hm : m.forward with
    | false => rfl
    | true =>
        rw [hm] at hforward
        cases hforward

/-- Where the canary only fails at last, a run waits for no PASS and takes the rollout no further. -/
theorem failing_run (share : ℚ) (hlast : OnlyFails id t) (ls : List WorkerLabel) (hgrounded : Grounded w)
    (hno : NoPass id w) (hrun : run WorkerState.next w ls = some w')
    (hend : Preserves w'.tables t) :
    NoPass id w' ∧ ((∀ l ∈ ls, l.Aside id) →
      (∃ r, w.tables.db.rollout? id = some r ∧ r.Held share) →
        ∃ r, w'.tables.db.rollout? id = some r ∧ r.Held share) := by
  induction ls generalizing w with
  | nil =>
      cases hrun
      exact ⟨hno, fun _ h => h⟩
  | cons l ls ih =>
      have hlater : Preserves w.tables t := (preserves_run hrun).trans hend
      rw [run_cons] at hrun
      obtain ⟨w1, hn, hrun⟩ := Option.bind_eq_some_iff.mp hrun
      obtain ⟨hno', hheld⟩ := ih (grounded_step hgrounded hn)
        (noPass_step hlast hgrounded hno hlater hn) hrun
      refine ⟨hno', fun hls h => hheld (fun l' hl' => hls l' (List.mem_cons_of_mem l hl')) ?_⟩
      exact held_step hgrounded hno (hls l List.mem_cons_self) h hn

end Failing

/-- **A canary that only fails gets no further**: where nobody else advances or promotes it, a rollout whose
    canary has answered no request with success stands where it stood in the end, or was frozen there, or
    has been rolled back. -/
theorem failing_held (ls ls' : List WorkerLabel) (w w' : WorkerState)
    (hrun : run WorkerState.next { tables := .empty } ls = some w)
    (hrun' : run WorkerState.next w ls' = some w') (id : String) (hls : ∀ l ∈ ls', l.Aside id)
    (share : ℚ)
    (hshare : (w.tables.db.rollout? id).map Rollout.phase = some (.running share))
    (d : Deployment) (p : PolicyConfig) (hd : w'.tables.db.deployment? id = some d)
    (hp : d.policyConfig = some p) (hmax : p.reliability.maxErrorRatePercent < 100)
    (hfail : ∀ m ∈ w'.tables.predictionMetrics, m.deploymentId = id →
      m.modelVersion = d.canaryVersion → 400 ≤ m.statusCode) :
    ∃ r, w'.tables.db.rollout? id = some r ∧
      (r.phase = .running share ∨ r.phase = .frozen share ∨ r.phase = .rolledBack) := by
  obtain ⟨hid, hd⟩ := found hd
  have hlast : OnlyFails id w'.tables := ⟨d.canaryVersion, p, hid ▸ judgedBy_of_row hd hp, hmax, hfail⟩
  have hgrounded : Grounded w := run_inv (I := Grounded) (fun _ _ _ => grounded_step) grounded_start hrun
  have hstart : NoPass id { tables := .empty } := fun _ h => by cases h
  have hmiddle : NoPass id w :=
    (failing_run share hlast ls grounded_start hstart hrun (preserves_run hrun')).1
  obtain ⟨r, hr, hphase⟩ := Option.map_eq_some_iff.mp hshare
  exact (failing_run share hlast ls' hgrounded hmiddle hrun' (Preserves.refl _)).2 hls
    ⟨r, hr, Or.inl hphase⟩

/-- A sweep behind a request that failed. -/
def sampleFailing : List WorkerLabel :=
  sampleTraffic 20 ++ [.list, .fetch, .checkDue 20 300, sampleVerdict 20, .act (Env.after 30 "unused") true,
    .finish]

/-- The sample rollout is rolled back: it had been at three fifths. -/
theorem failing_held_sample : ∃ w' : WorkerState, ∃ r, w'.tables.db.rollout? "d1" = some r ∧
    (r.phase = .running (3 / 5) ∨ r.phase = .frozen (3 / 5) ∨ r.phase = .rolledBack) := by
  have hend : ((run WorkerState.next { tables := .empty } sampleBegin).bind fun w =>
      (run WorkerState.next w sampleFailing).map fun w' =>
        ((w.tables.db.rollout? "d1").map Rollout.phase,
          w'.tables.predictionMetrics.all fun m => decide (m.modelVersion = "v2" → 400 ≤ m.statusCode),
          (w'.tables.db.deployment? "d1").any fun d => decide (d.canaryVersion = "v2") &&
            d.policyConfig.any fun p => decide (p.reliability.maxErrorRatePercent < 100))) =
      some (some (.running (3 / 5)), true, true) := by
    decide +kernel
  obtain ⟨w, hw, hend⟩ := Option.bind_eq_some_iff.mp hend
  obtain ⟨w', hw', hend⟩ := Option.map_eq_some_iff.mp hend
  simp only [Prod.mk.injEq, List.all_eq_true, Option.any_eq_true, Bool.and_eq_true, decide_eq_true_eq] at hend
  obtain ⟨hshare, hmetrics, d, hd, hcanary, p, hp, hmax⟩ := hend
  have haside : ∀ l ∈ sampleFailing, l.Aside "d1" := by
    intro l hl c hc m hm
    subst hc
    simp only [sampleFailing, sampleTraffic, sampleVerdict, List.cons_append, List.nil_append, List.mem_cons,
      WorkerLabel.call.injEq, List.not_mem_nil, or_false, reduceCtorEq] at hl
    rcases hl with rfl | rfl <;> cases hm
  have hfail : ∀ m ∈ w'.tables.predictionMetrics, m.deploymentId = "d1" →
      m.modelVersion = d.canaryVersion → 400 ≤ m.statusCode := by
    intro m hm _ hversion
    exact hmetrics m hm (hversion.trans hcanary)
  exact ⟨w', failing_held sampleBegin sampleFailing w w' hw hw' "d1" haside (3 / 5) hshare d p hd hp
    hmax hfail⟩

end ModelOps
