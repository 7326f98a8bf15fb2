/-
  File:      ModelOps/Policy/QualityWindow.lean
  Subject:   The quality window on record, and the one that was read (app/policy/service.py).

  `compute_version_summary` reads the clock for its own window; `run_evaluation` reads it again for the
  window it stores. The stored one is the used one, moved on by the time between the two readings: rows
  LEAVE it at its start and ENTER it at its end.

  * `window_count_iff` -- two windows count alike exactly if as many leave as enter;
  * **`quality_window_iff`** -- the stored numbers are those of the stored window exactly if no quality
    check was made, or the leaving and the entering rows are in balance.
-/
import ModelOps.ControlPlane.Summary
import ModelOps.Policy.Evaluate
import ModelOps.Policy.Gates

namespace ModelOps

open Relational

/-! ## 1. Rows of a window -/

/-- The rows of the canary, each with its label. -/
def Tables.canaryRows (t : Tables) (d : Deployment) : List JoinedRow :=
  (t.predictionMetrics.filter fun m =>
    decide (m.deploymentId = d.id) && decide (m.modelVersion = d.canaryVersion)).map fun m =>
      ⟨m, m.predictionId.bind t.groundTruthLabels.get?⟩

/-- The row was created between the two times, both included. -/
def JoinedRow.within (start stop : Int) (r : JoinedRow) : Bool :=
  decide (start ≤ r.metric.createdAt) && decide ((r.metric.createdAt : Int) ≤ stop)

def Window.stop (w : Window) : Int := (w.now : Int) - w.windowEndOffsetSeconds * 10 ^ 6

def Window.start (w : Window) : Int := w.stop - w.windowSeconds * 10 ^ 6

theorem joinedRows_within (t : Tables) (d : Deployment) (w : Window) :
    joinedRows t.predictionMetrics t.groundTruthLabels d.id d.canaryVersion w =
      (t.canaryRows d).filter (JoinedRow.within w.start w.stop) := by
  have hcontains : ∀ m : MetricRow, w.contains m.createdAt =
      JoinedRow.within w.start w.stop ⟨m, m.predictionId.bind t.groundTruthLabels.get?⟩ := by
    intro m
    have hstop : ∀ at_ now offset : Nat,
        at_ + offset * 10 ^ 6 ≤ now ↔ (at_ : Int) ≤ (now : Int) - offset * 10 ^ 6 := by
      intro at_ now offset
      omega
    have hstart : ∀ at_ now offset window : Nat,
        now ≤ at_ + offset * 10 ^ 6 + window * 10 ^ 6 ↔
          (now : Int) - offset * 10 ^ 6 - window * 10 ^ 6 ≤ at_ := by
      intro at_ now offset window
      omega
    unfold Window.contains JoinedRow.within Window.start Window.stop
    rw [Bool.and_comm]
    congr 1
    · exact decide_eq_decide.mpr (hstart _ _ _ _)
    · exact decide_eq_decide.mpr (hstop _ _ _)
  have hsame : ∀ m : MetricRow, (decide (m.deploymentId = d.id) &&
      decide (m.modelVersion = d.canaryVersion) && w.contains m.createdAt) =
      ((JoinedRow.within w.start w.stop ∘ fun m => ⟨m, m.predictionId.bind t.groundTruthLabels.get?⟩) m &&
        (decide (m.deploymentId = d.id) && decide (m.modelVersion = d.canaryVersion))) := by
    intro m
    rw [Function.comp_apply, hcontains, Bool.and_comm]
  unfold joinedRows Tables.canaryRows
  rw [List.filter_map, List.filter_filter]
  simp only [hsame]

section Count

variable {β : Type} {u s leaves enters p : β → Bool} {l : List β} {n d d' : Nat}

/-- **Two windows count alike exactly if as many leave as enter.** -/
theorem window_count_iff (hleaves : ∀ x, leaves x = (u x && !s x))
    (henters : ∀ x, enters x = (s x && !u x)) :
    (l.filter u).countP p = (l.filter s).countP p ↔
      (l.filter leaves).countP p = (l.filter enters).countP p := by
  have hu := List.countP_eq_countP_filter_add (l.filter u) p s
  have hs := List.countP_eq_countP_filter_add (l.filter s) p u
  rw [List.filter_filter, List.filter_filter] at hu hs
  have hleft : (fun x => !s x && u x) = leaves := funext fun x => by rw [hleaves, Bool.and_comm]
  have hentered : (fun x => !u x && s x) = enters := funext fun x => by rw [henters, Bool.and_comm]
  have hboth : (fun x => s x && u x) = fun x => u x && s x := funext fun x => Bool.and_comm _ _
  simp only [hleft, hentered, hboth] at hu hs
  omega

theorem window_length_iff (hleaves : ∀ x, leaves x = (u x && !s x))
    (henters : ∀ x, enters x = (s x && !u x)) :
    (l.filter u).length = (l.filter s).length ↔
      (l.filter leaves).length = (l.filter enters).length := by
  have h := window_count_iff (p := fun _ => true) (l := l) hleaves henters
  simpa using h

/-- The same part has the same ratio to the same whole, and nothing has to any whole. -/
theorem ratio_eq_iff (h : n ≤ d) (h' : n ≤ d') :
    ratio n d = ratio n d' ↔ d = d' ∨ (n = 0 ∧ 0 < d ∧ 0 < d') := by
  constructor
  · intro he
    by_cases hd : d = 0
    · rw [hd] at he
      exact Or.inl (hd.trans (ratio_eq_none.mp (he.symm.trans (ratio_eq_none.mpr rfl))).symm)
    · have hd' : d' ≠ 0 := fun h0 => hd (ratio_eq_none.mp (he.trans (ratio_eq_none.mpr h0)))
      obtain ⟨x, hx⟩ := ratio_some (n := n) (Nat.pos_of_ne_zero hd)
      have hshare := (ratio_part h hx).2.2
      have hshare' := (ratio_part h' (he ▸ hx)).2.2
      rcases mul_eq_mul_left_iff.mp (hshare.trans hshare'.symm) with hsame | hzero
      · exact Or.inl (by exact_mod_cast hsame)
      · rw [hzero, zero_mul] at hshare
        refine Or.inr ⟨by exact_mod_cast hshare.symm, ?_, ?_⟩ <;> omega
  · rintro (rfl | ⟨rfl, hd, hd'⟩)
    · rfl
    · unfold ratio
      rw [if_pos hd, if_pos hd', Nat.cast_zero, zero_div, zero_div]

end Count

/-! ## 2. The two windows of an evaluation -/

/-- The window that the quality summary is read from. -/
def usedWindow (c : EvaluationClock) (config : PolicyConfig) : Window :=
  ⟨c.quality, config.evaluationWindowSeconds, config.labelMaturitySeconds⟩

/-- The window that the rows tell of. -/
def storedWindow (c : EvaluationClock) (config : PolicyConfig) : Window :=
  ⟨c.now, config.evaluationWindowSeconds, config.labelMaturitySeconds⟩

/-- In the used window, before the start of the stored one. -/
def JoinedRow.leaves (c : EvaluationClock) (config : PolicyConfig) (r : JoinedRow) : Bool :=
  r.within (usedWindow c config).start (usedWindow c config).stop &&
    decide ((r.metric.createdAt : Int) < (storedWindow c config).start)

/-- In the stored window, after the end of the used one. -/
def JoinedRow.enters (c : EvaluationClock) (config : PolicyConfig) (r : JoinedRow) : Bool :=
  r.within (storedWindow c config).start (storedWindow c config).stop &&
    decide ((usedWindow c config).stop < (r.metric.createdAt : Int))

/-- Both versions have as many rows in their windows as an evaluation asks for. -/
def Tables.MeetsMinimum (t : Tables) (c : EvaluationClock) (d : Deployment) (config : PolicyConfig) :
    Prop :=
  config.minimumRequests ≤ (joinedRows t.predictionMetrics t.groundTruthLabels d.id d.stableVersion
      ⟨c.stable, config.evaluationWindowSeconds, 0⟩).length ∧
    config.minimumRequests ≤ (joinedRows t.predictionMetrics t.groundTruthLabels d.id d.canaryVersion
      ⟨c.canary, config.evaluationWindowSeconds, 0⟩).length

/-- Between the two readings, as many labeled rows leave as enter, as many positive ones, and as many
    rows; or else the windows have rows, and none of them a label. -/
def Tables.Balanced (t : Tables) (c : EvaluationClock) (d : Deployment) (config : PolicyConfig) :
    Prop :=
  let leaving := (t.canaryRows d).filter (JoinedRow.leaves c config)
  let entering := (t.canaryRows d).filter (JoinedRow.enters c config)
  let used := (t.canaryRows d).filter
    (JoinedRow.within (usedWindow c config).start (usedWindow c config).stop)
  let stored := (t.canaryRows d).filter
    (JoinedRow.within (storedWindow c config).start (storedWindow c config).stop)
  (leaving.countP fun r => r.label.isSome) = (entering.countP fun r => r.label.isSome) ∧
    (leaving.countP fun r => r.positive && r.binary) =
      (entering.countP fun r => r.positive && r.binary) ∧
    (leaving.length = entering.length ∨
      (used.countP fun r => r.label.isSome) = 0 ∧ 0 < used.length ∧ 0 < stored.length)

instance (t : Tables) (c : EvaluationClock) (d : Deployment) (config : PolicyConfig) :
    Decidable (t.MeetsMinimum c d config) := inferInstanceAs (Decidable (_ ∧ _))

instance (t : Tables) (c : EvaluationClock) (d : Deployment) (config : PolicyConfig) :
    Decidable (t.Balanced c d config) := inferInstanceAs (Decidable (_ ∧ _))

/-- A quality row's numbers are those of the canary's rows in the window it stores. -/
def Reproduces (t : Tables) (d : Deployment) (row : PolicyEvaluation) : Prop :=
  ∃ start stop, row.qualityWindowStart = some start ∧ row.qualityWindowEnd = some stop ∧
    let m := summarize d.canaryVersion ((t.canaryRows d).filter (JoinedRow.within start stop))
    row.labeledSampleCount = some m.labeledSampleCount ∧ row.labelCoverage = m.labelCoverage ∧
      row.positiveLabelCount = some m.positiveLabelCount

section Windows

variable {t : Tables} {c : EvaluationClock} {d : Deployment} {config : PolicyConfig}

/-- The stored window is the used one, moved on. -/
theorem windows_moved (config : PolicyConfig) (hclock : c.quality ≤ c.now) :
    (usedWindow c config).start ≤ (storedWindow c config).start ∧
      (usedWindow c config).stop ≤ (storedWindow c config).stop := by
  have hnow : (c.quality : Int) ≤ (c.now : Int) := Int.ofNat_le.mpr hclock
  unfold Window.start Window.stop usedWindow storedWindow
  dsimp only
  constructor <;> omega

theorem leaves_eq (config : PolicyConfig) (hclock : c.quality ≤ c.now) (r : JoinedRow) :
    r.leaves c config =
      (r.within (usedWindow c config).start (usedWindow c config).stop &&
        !r.within (storedWindow c config).start (storedWindow c config).stop) := by
  have hmoved := (windows_moved config hclock).2
  rw [Bool.eq_iff_iff]
  simp only [JoinedRow.leaves, JoinedRow.within, Bool.and_eq_true, decide_eq_true_eq,
    Bool.not_eq_true', Bool.and_eq_false_iff, decide_eq_false_iff_not]
  omega

theorem enters_eq (config : PolicyConfig) (hclock : c.quality ≤ c.now) (r : JoinedRow) :
    r.enters c config =
      (r.within (storedWindow c config).start (storedWindow c config).stop &&
        !r.within (usedWindow c config).start (usedWindow c config).stop) := by
  have hmoved := (windows_moved config hclock).1
  rw [Bool.eq_iff_iff]
  simp only [JoinedRow.enters, JoinedRow.within, Bool.and_eq_true, decide_eq_true_eq,
    Bool.not_eq_true', Bool.and_eq_false_iff, decide_eq_false_iff_not]
  omega

/-- When two lists of rows have the same quality numbers. -/
theorem summarize_same_iff (version : String) (rows rows' : List JoinedRow) :
    ((summarize version rows).labeledSampleCount = (summarize version rows').labeledSampleCount ∧
        (summarize version rows).labelCoverage = (summarize version rows').labelCoverage ∧
        (summarize version rows).positiveLabelCount =
          (summarize version rows').positiveLabelCount) ↔
      (rows.countP fun r => r.label.isSome) = (rows'.countP fun r => r.label.isSome) ∧
        (rows.countP fun r => r.positive && r.binary) =
          (rows'.countP fun r => r.positive && r.binary) ∧
        (rows.length = rows'.length ∨
          (rows.countP fun r => r.label.isSome) = 0 ∧ 0 < rows.length ∧ 0 < rows'.length) := by
  have hcoverage : (rows.countP fun r => r.label.isSome) = (rows'.countP fun r => r.label.isSome) →
      ((summarize version rows).labelCoverage = (summarize version rows').labelCoverage ↔
        (rows.length = rows'.length ∨
          (rows.countP fun r => r.label.isSome) = 0 ∧ 0 < rows.length ∧ 0 < rows'.length)) := by
    intro hlabeled
    show ratio _ _ = ratio _ _ ↔ _
    rw [← hlabeled]
    exact ratio_eq_iff List.countP_le_length (hlabeled ▸ List.countP_le_length)
  rw [positiveLabelCount_eq, positiveLabelCount_eq]
  constructor
  · rintro ⟨hlabeled, hshare, hpositives⟩
    exact ⟨hlabeled, hpositives, (hcoverage hlabeled).mp hshare⟩
  · rintro ⟨hlabeled, hpositives, hlengths⟩
    exact ⟨hlabeled, (hcoverage hlabeled).mpr hlengths, hpositives⟩

/-- The numbers of the two windows are the same exactly if the rows between them are in balance. -/
theorem balanced_iff (hclock : c.quality ≤ c.now) :
    (let m := (t.comparison c d config).canaryQuality
      let m' := summarize d.canaryVersion ((t.canaryRows d).filter
        (JoinedRow.within (storedWindow c config).start (storedWindow c config).stop))
      m.labeledSampleCount = m'.labeledSampleCount ∧ m.labelCoverage = m'.labelCoverage ∧
        m.positiveLabelCount = m'.positiveLabelCount) ↔
      t.Balanced c d config := by
  have hused : (t.comparison c d config).canaryQuality = summarize d.canaryVersion
      ((t.canaryRows d).filter
        (JoinedRow.within (usedWindow c config).start (usedWindow c config).stop)) :=
    congrArg (summarize d.canaryVersion) (joinedRows_within t d (usedWindow c config))
  have hcount := fun p => window_count_iff (l := t.canaryRows d) (p := p)
    (leaves_eq config hclock) (enters_eq config hclock)
  have hlength := window_length_iff (l := t.canaryRows d)
    (leaves_eq config hclock) (enters_eq config hclock)
  dsimp only
  rw [hused, summarize_same_iff, hcount, hcount, hlength]
  rfl

/-! ## 3. The rows on record -/

/-- The quality checks are in an evaluation exactly if both versions have rows enough. -/
theorem quality_checked_iff :
    (∃ check ∈ t.checks c d config, check.policyName ∈ QUALITY_POLICY_NAMES) ↔
      t.MeetsMinimum c d config := by
  have henough : EnoughRequests (t.comparison c d config).stable (t.comparison c d config).canary
      config ↔ t.MeetsMinimum c d config := le_min_iff
  rw [← henough]
  unfold Tables.checks
  dsimp only
  by_cases h : EnoughRequests (t.comparison c d config).stable (t.comparison c d config).canary config
  · refine iff_of_true ⟨evaluateMinimumLabeledSamples (t.comparison c d config).canaryQuality
      config.minimumLabeledSamples, ?_, ?_⟩ h
    rotate_left
    · show "minimum_labeled_samples" ∈ QUALITY_POLICY_NAMES
      decide
    rw [evaluatePolicies_open h]
    refine List.mem_append_right _ ?_
    unfold evaluateQualityPolicies
    dsimp only
    split
    · exact List.mem_cons_self
    · exact List.mem_append_left _ List.mem_cons_self
  · refine iff_of_false ?_ h
    rw [evaluatePolicies_shut h]
    rintro ⟨check, hcheck, hname⟩
    rw [List.mem_singleton.mp hcheck] at hname
    have hother : "minimum_requests" ∉ QUALITY_POLICY_NAMES := by decide
    exact hother hname

/-- A quality row tells of the stored window, with the numbers of the used one. -/
theorem reproduces_iff {allocation : Option TrafficAllocation} {i : Nat} {check : PolicyCheckResult}
    (h : check.policyName ∈ QUALITY_POLICY_NAMES) (hclock : c.quality ≤ c.now) :
    Reproduces t d (evaluationRow c d config (t.comparison c d config) allocation i check) ↔
      t.Balanced c d config := by
  rw [← balanced_iff hclock]
  unfold Reproduces evaluationRow
  simp only [decide_eq_true h, if_true, Option.some_inj]
  constructor
  · rintro ⟨start, stop, rfl, rfl, hlabeled, hcoverage, hpositives⟩
    exact ⟨hlabeled, hcoverage, hpositives⟩
  · rintro ⟨hlabeled, hcoverage, hpositives⟩
    exact ⟨_, _, rfl, rfl, hlabeled, hcoverage, hpositives⟩

/-- The quality rows of an evaluation tell the numbers of the window they store, exactly if there are
    none or the rows between the two readings are in balance. -/
theorem rows_reproduce_iff (hclock : c.quality ≤ c.now) :
    (∀ row ∈ t.evaluationRows c d config,
        row.policyName ∈ QUALITY_POLICY_NAMES → Reproduces t d row) ↔
      ¬t.MeetsMinimum c d config ∨ t.Balanced c d config := by
  rw [← quality_checked_iff]
  constructor
  · intro h
    by_cases hchecked : ∃ check ∈ t.checks c d config, check.policyName ∈ QUALITY_POLICY_NAMES
    · obtain ⟨check, hcheck, hname⟩ := hchecked
      obtain ⟨i, hi, rfl⟩ := List.getElem_of_mem hcheck
      have hrow := h _ (List.mem_mapIdx.mpr ⟨i, hi, rfl⟩) hname
      exact Or.inr ((reproduces_iff hname hclock).mp hrow)
    · exact Or.inl hchecked
  · rintro h row hrow hname
    obtain ⟨i, hi, rfl⟩ := List.mem_mapIdx.mp hrow
    refine (reproduces_iff hname hclock).mpr (h.resolve_left (not_not.mpr ?_))
    exact ⟨_, List.getElem_mem hi, hname⟩

/-- **The recorded quality window is the window that was used**, as far as its numbers tell, exactly if
    the evaluation makes no quality check or the rows between the two readings are in balance. -/
theorem quality_window_iff (t : Tables) (c : EvaluationClock) (hclock : c.quality ≤ c.now)
    (d : Deployment) (config : PolicyConfig) :
    ∃ rows response, (runEvaluation c d config).eval tables t = .ok (some rows, response) ∧
      ((∀ row ∈ rows, row.policyName ∈ QUALITY_POLICY_NAMES → Reproduces t d row) ↔
        ¬t.MeetsMinimum c d config ∨ t.Balanced c d config) :=
  ⟨_, _, eval_runEvaluation, rows_reproduce_iff hclock⟩

/-- A labeled row of the canary at the start of a window that is read at `now`. -/
def sampleEdge : Tables where
  db := .empty
  predictionMetrics := [(sampleServed 20 (some 1) (some "p1")).row "d1" (40 * 10 ^ 6)]
  groundTruthLabels := (Table.empty _).put ⟨"p1", 1, 40 * 10 ^ 6, 41 * 10 ^ 6⟩
  policyEvaluations := []

/-- The clock moves on by `gap` between the quality summary and the row. -/
def sampleReadings (gap : Time) : EvaluationClock :=
  ⟨400 * 10 ^ 6, 400 * 10 ^ 6, 400 * 10 ^ 6, 400 * 10 ^ 6 + gap, []⟩

/-- A clock that stands still between the two readings. -/
theorem quality_window_iff_still :
    ∃ rows response, (runEvaluation (sampleReadings 0)
        (createdRow (Env.after 0 "d1") (sampleCreate "fraud-model") none)
        { samplePolicy with minimumRequests := 0 }).eval tables sampleEdge =
          .ok (some rows, response) ∧
      ∀ row ∈ rows, row.policyName ∈ QUALITY_POLICY_NAMES → Reproduces sampleEdge
        (createdRow (Env.after 0 "d1") (sampleCreate "fraud-model") none) row := by
  obtain ⟨rows, response, heval, hiff⟩ := quality_window_iff sampleEdge (sampleReadings 0)
    (Nat.le_refl _) (createdRow (Env.after 0 "d1") (sampleCreate "fraud-model") none)
    { samplePolicy with minimumRequests := 0 }
  exact ⟨rows, response, heval, hiff.mpr (Or.inr (by decide +kernel))⟩

/-- **The stored window need not be the used one**: a microsecond between the readings, and the row at
    the edge is in the numbers but not in the window. -/
theorem quality_window_moved :
    ¬∀ (t : Tables) (c : EvaluationClock), c.readings.Pairwise (· ≤ ·) →
      ∀ (d : Deployment) (config : PolicyConfig) (rows : List PolicyEvaluation)
        (response : EvaluateResponse),
      (runEvaluation c d config).eval tables t = .ok (some rows, response) →
      ∀ row ∈ rows, row.policyName ∈ QUALITY_POLICY_NAMES → Reproduces t d row := by
  intro h
  have hall := h sampleEdge (sampleReadings 1) (by decide +kernel)
    (createdRow (Env.after 0 "d1") (sampleCreate "fraud-model") none)
    { samplePolicy with minimumRequests := 0 } _ _ eval_runEvaluation
  exact absurd ((rows_reproduce_iff (Nat.le_succ _)).mp hall) (by decide +kernel)

end Windows

end ModelOps
