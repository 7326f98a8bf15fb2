/-
  File:      ModelOps/ControlPlane/Summary.lean
  Subject:   What a metrics summary says about the rows it is computed from.

  `summarize` is `compute_version_summary` after its query. Its counts are counts of rows
  (`tally_labeled`, `positiveLabelCount_eq`), its percentiles are points of one rising line
  (`percentile_eq`).

  * **`summary_consistent`** -- how the numbers of a summary relate to one another and to the rows;
  * **`percentile_safe`** -- a percentile of a sorted list is in range, and monotone in the percentage
    and in the data;
  * **`summarize_perm`** -- the order of the rows does not matter;
  * **`positives_counted_iff`** -- `positive_label_count` counts the positive labels exactly if no row
    with one has a prediction that is missing or neither 0 nor 1.
-/
import ModelOps.Lib.Interpolation
import ModelOps.ControlPlane.Join

namespace ModelOps

open Interpolation Relational

/-! ## 1. The summary of joined rows -/

/-- `compute_version_summary` of the rows its query returns. -/
def summarize (version : String) (rows : List JoinedRow) : VersionSummary :=
  let latencies := rows.map fun r => r.metric.latencyMs
  let delays := rows.filterMap JoinedRow.labelDelay
  let labeledSampleCount := rows.countP fun r => r.label.isSome
  let labeled := rows.filterMap JoinedRow.labeled
  let truePositives := tally labeled 1 1
  let falsePositives := tally labeled 1 0
  let falseNegatives := tally labeled 0 1
  let trueNegatives := tally labeled 0 0
  { version := version
    sampleCount := rows.length
    errorRate := errorRate (rows.map fun r => r.metric.statusCode.toNat)
    p50LatencyMs := percentileOf latencies 50
    p95LatencyMs := percentileOf latencies 95
    p99LatencyMs := percentileOf latencies 99
    precision := ratio truePositives (truePositives + falsePositives)
    «recall» := ratio truePositives (truePositives + falseNegatives)
    falsePositiveRate := ratio falsePositives (falsePositives + trueNegatives)
    labeledSampleCount := labeledSampleCount
    labelCoverage := ratio labeledSampleCount rows.length
    positiveLabelCount := truePositives + falseNegatives
    labelDelayP50Seconds := percentileOf delays 50
    labelDelayP95Seconds := percentileOf delays 95 }

theorem versionSummary_eq (metrics : List MetricRow)
    (labels : Table GroundTruthLabel.predictionId) (deploymentId version : String) (w : Window) :
    versionSummary metrics labels deploymentId version w =
      summarize version (joinedRows metrics labels deploymentId version w) := rfl

/-! ## 2. Counts -/

/-- The row's label is 1. -/
def JoinedRow.positive (r : JoinedRow) : Bool := r.label.any fun l => decide (l.actualLabel = 1)

/-- The row's prediction is 0 or 1. -/
def JoinedRow.binary (r : JoinedRow) : Bool :=
  decide (r.metric.prediction = some 0) || decide (r.metric.prediction = some 1)

section Counts

variable {β : Type} {p q : β → Bool} {l : List β} {rows : List JoinedRow} {n d : Nat} {x : ℚ}

theorem countP_disjoint (h : ∀ x ∈ l, p x = true → q x = false) :
    l.countP p + l.countP q = l.countP fun x => p x || q x := by
  induction l with
  | nil => rfl
  | cons x l ih =>
      have hrest := ih fun x hx => h x (List.mem_cons_of_mem _ hx)
      have hx := h x List.mem_cons_self
      simp only [List.countP_cons]
      cases hp : p x with
      | false => simp; omega
      | true =>
          rw [hx hp]
          simp
          omega

/-- A part counts as much as the whole exactly if it is the whole. -/
theorem countP_part_iff :
    (l.countP fun x => p x && q x) = l.countP p ↔ ∀ x ∈ l, p x = true → q x = true := by
  induction l with
  | nil => simp
  | cons x l ih =>
      have hle : (l.countP fun x => p x && q x) ≤ l.countP p :=
        List.countP_mono_left fun y _ hy => (Bool.and_eq_true_iff.mp hy).1
      rw [List.forall_mem_cons, ← ih]
      simp only [List.countP_cons]
      cases hp : p x with
      | false => simp
      | true =>
          cases hq : q x with
          | true => simp
          | false =>
              simp
              omega

/-- A cell of the confusion matrix counts rows. -/
theorem tally_labeled (prediction : Int) (actual : Nat) :
    tally (rows.filterMap JoinedRow.labeled) prediction actual =
      rows.countP fun r => decide (r.labeled = some (prediction, actual)) := by
  unfold tally
  rw [List.countP_filterMap]
  congr 1
  funext r
  cases r.labeled <;> simp

theorem labeled_eq_some {r : JoinedRow} {prediction : Int} {actual : Nat} :
    r.labeled = some (prediction, actual) ↔
      r.metric.prediction = some prediction ∧ r.label.map GroundTruthLabel.actualLabel = some actual := by
  unfold JoinedRow.labeled
  cases r.label <;> cases r.metric.prediction <;> simp [and_comm]

/-- **What `positive_label_count` counts**: the rows with a positive label and a binary prediction. -/
theorem positiveLabelCount_eq (version : String) (rows : List JoinedRow) :
    (summarize version rows).positiveLabelCount = rows.countP fun r => r.positive && r.binary := by
  show tally _ 1 1 + tally _ 0 1 = _
  rw [tally_labeled, tally_labeled, countP_disjoint]
  · congr 1
    funext r
    unfold JoinedRow.positive JoinedRow.binary
    simp only [labeled_eq_some]
    cases r.label <;> simp [Bool.and_or_distrib_left, Bool.or_comm, Bool.and_comm]
  · intro r _ h
    simp only [decide_eq_true_eq, decide_eq_false_iff_not] at h ⊢
    rw [h]
    simp

theorem ratio_eq_none : ratio n d = none ↔ d = 0 := by
  unfold ratio
  split
  · rename_i h
    exact iff_of_false (by simp) (Nat.ne_of_gt h)
  · rename_i h
    exact iff_of_true rfl (Nat.eq_zero_of_not_pos h)

/-- **A ratio of a part** lies between 0 and 1 and gives the part back. -/
theorem ratio_part (hle : n ≤ d) (h : x ∈ ratio n d) : 0 ≤ x ∧ x ≤ 1 ∧ x * d = n := by
  unfold ratio at h
  split at h
  · rename_i hd
    injection h with h
    have hpos : (0 : ℚ) < d := by exact_mod_cast hd
    have hpart : (n : ℚ) ≤ d := by exact_mod_cast hle
    rw [← h]
    exact ⟨by positivity, (div_le_one hpos).mpr hpart, div_mul_cancel₀ _ hpos.ne'⟩
  · cases h

theorem ratio_some (h : 0 < d) : ∃ x, ratio n d = some x := ⟨_, if_pos h⟩

/-- The error rate is the ratio of the rows whose status is an error. -/
theorem errorRate_eq (rows : List JoinedRow) :
    errorRate (rows.map fun r => r.metric.statusCode.toNat) =
      ratio (rows.countP fun r => decide (400 ≤ r.metric.statusCode)) rows.length := by
  have herror : ∀ code : Int, 400 ≤ code.toNat ↔ 400 ≤ code := fun code => by omega
  unfold errorRate ratio
  rw [List.countP_map, List.length_map]
  simp only [List.map_eq_nil_iff, Function.comp_def, herror]
  cases rows with
  | nil => rfl
  | cons r rows => rw [if_neg (List.cons_ne_nil r rows), if_pos (by simp)]

end Counts

/-! ## 3. Percentiles -/

section Percentiles

variable {l l' : List ℚ} {pct pct' : ℚ}

/-- Where in a list of `n` values the percentile lies. -/
def position (n : Nat) (pct : ℚ) : ℚ := ((n : ℚ) - 1) * (pct / 100)

theorem position_nonneg {n : Nat} (hn : 1 ≤ n) (h0 : 0 ≤ pct) : 0 ≤ position n pct := by
  have hone : (1 : ℚ) ≤ n := by exact_mod_cast hn
  unfold position
  exact mul_nonneg (sub_nonneg.mpr hone) (by positivity)

theorem position_mono {n : Nat} (hn : 1 ≤ n) (h : pct ≤ pct') : position n pct ≤ position n pct' := by
  have hone : (1 : ℚ) ≤ n := by exact_mod_cast hn
  unfold position
  exact mul_le_mul_of_nonneg_left (by linarith) (sub_nonneg.mpr hone)

theorem position_le_last {n : Nat} (hn : 1 ≤ n) (h1 : pct ≤ 100) :
    position n pct ≤ ((n - 1 : ℕ) : ℚ) := by
  have hend : position n 100 = ((n - 1 : ℕ) : ℚ) := by
    unfold position
    rw [div_self (by norm_num), mul_one, Nat.cast_sub hn, Nat.cast_one]
  rw [← hend]
  exact position_mono hn h1

/-- **A percentile of a sorted list is a point of its broken line**: no index is out of range. -/
theorem percentile_eq (h : l ≠ []) (h0 : 0 ≤ pct) (h1 : pct ≤ 100) :
    percentile l pct = some (interpolate (clamped l h) (position l.length pct)) := by
  have hpos := List.length_pos_of_ne_nil h
  have hk0 := position_nonneg hpos h0
  have hkn := position_le_last hpos h1
  unfold percentile
  unfold position at hk0 hkn ⊢
  generalize hk : ((l.length : ℚ) - 1) * (pct / 100) = k at hk0 hkn ⊢
  have hceil : ⌈k⌉₊ ≤ l.length - 1 := Nat.ceil_le.mpr hkn
  have hfloor : ⌊k⌋₊ ≤ l.length - 1 := (Nat.floor_le_ceil k).trans hceil
  split
  · rename_i hone
    -- one value: `k` is 0
    have hzero : k = ((0 : ℕ) : ℚ) := by
      rw [← hk, hone]
      simp
    rw [hzero, interpolate_natCast]
    exact getElem?_clamped h (Nat.zero_le _)
  · dsimp only
    rw [Int.floor_toNat, Int.ceil_toNat, ← natCast_floor_eq_intCast_floor hk0,
      ← natCast_ceil_eq_intCast_ceil hk0, getElem?_clamped h hfloor, getElem?_clamped h hceil,
      ← Int.natCast_floor_eq_floor hk0, ← Int.natCast_ceil_eq_ceil hk0]
    split
    · rename_i heq
      rw [interpolate_on _ hk0 (by exact_mod_cast heq)]
    · rename_i hne
      rw [interpolate_between _ (fun he => hne (by exact_mod_cast he))]
      rfl

theorem percentileOf_eq (pct : ℚ) (h : l ≠ []) (h0 : 0 ≤ pct) (h1 : pct ≤ 100) :
    ∃ hs : l.insertionSort (· ≤ ·) ≠ [], percentileOf l pct =
      some (interpolate (clamped (l.insertionSort (· ≤ ·)) hs) (position l.length pct)) := by
  have hs : l.insertionSort (· ≤ ·) ≠ [] := by
    rw [← List.length_pos_iff, List.length_insertionSort]
    exact List.length_pos_of_ne_nil h
  refine ⟨hs, ?_⟩
  unfold percentileOf
  rw [if_neg h, percentile_eq hs h0 h1, List.length_insertionSort]

theorem percentileOf_eq_none (h0 : 0 ≤ pct) (h1 : pct ≤ 100) : percentileOf l pct = none ↔ l = [] := by
  constructor
  · intro hnone
    by_contra h
    obtain ⟨_, hsome⟩ := percentileOf_eq pct h h0 h1
    rw [hsome] at hnone
    cases hnone
  · intro h
    exact if_pos h

/-- **Percentiles are in order**, between the least and the greatest value. -/
theorem percentiles_ordered (h : l ≠ []) :
    ∃ p50 p95 p99, percentileOf l 50 = some p50 ∧ percentileOf l 95 = some p95 ∧
      percentileOf l 99 = some p99 ∧ p50 ≤ p95 ∧ p95 ≤ p99 ∧
      ∃ least ∈ l, ∃ greatest ∈ l, (∀ x ∈ l, least ≤ x ∧ x ≤ greatest) ∧
        least ≤ p50 ∧ p99 ≤ greatest := by
  have hn := List.length_pos_of_ne_nil h
  have hsorted : (l.insertionSort (· ≤ ·)).Pairwise (· ≤ ·) := List.pairwise_insertionSort _ l
  obtain ⟨hs, h50⟩ := percentileOf_eq 50 h (by norm_num) (by norm_num)
  obtain ⟨_, h95⟩ := percentileOf_eq 95 h (by norm_num) (by norm_num)
  obtain ⟨_, h99⟩ := percentileOf_eq 99 h (by norm_num) (by norm_num)
  have hrise := clamped_mono hs hsorted
  have hmem : ∀ i, clamped _ hs i ∈ l := fun i =>
    (List.mem_insertionSort _).mp (clamped_mem hs i)
  refine ⟨_, _, _, h50, h95, h99, ?_, ?_, _, hmem 0, _, hmem (l.length - 1), ?_, ?_, ?_⟩
  · exact interpolate_mono hrise (position_nonneg hn (by norm_num)) (position_mono hn (by norm_num))
  · exact interpolate_mono hrise (position_nonneg hn (by norm_num)) (position_mono hn (by norm_num))
  · intro x hx
    have hx' := (List.mem_insertionSort (· ≤ ·)).mpr hx
    refine ⟨first_le hs hsorted hx', ?_⟩
    have hlast := le_last hs hsorted hx'
    rwa [List.length_insertionSort] at hlast
  · exact interpolate_ge_first hrise (position_nonneg hn (by norm_num))
  · exact interpolate_le_last hrise (position_nonneg hn (by norm_num))
      (position_le_last hn (by norm_num))

theorem percentileOf_perm (h : l.Perm l') : percentileOf l pct = percentileOf l' pct := by
  have hsorted : ∀ l : List ℚ, (l.insertionSort (· ≤ ·)).Pairwise (· ≤ ·) :=
    List.pairwise_insertionSort _
  have hperm : (l.insertionSort (· ≤ ·)).Perm (l'.insertionSort (· ≤ ·)) :=
    (List.perm_insertionSort _ l).trans (h.trans (List.perm_insertionSort _ l').symm)
  have hnil : l = [] ↔ l' = [] := by
    rw [← List.length_eq_zero_iff, ← List.length_eq_zero_iff, h.length_eq]
  unfold percentileOf
  rw [hperm.eq_of_pairwise' (hsorted l) (hsorted l')]
  simp only [hnil]

theorem percentile_raised (h : l ≠ []) (hle : List.Forall₂ (· ≤ ·) l l') (h0 : 0 ≤ pct)
    (h1 : pct ≤ 100) :
    ∃ x x', percentile l pct = some x ∧ percentile l' pct = some x' ∧ x ≤ x' := by
  have h' : l' ≠ [] := by
    rw [← List.length_pos_iff, ← hle.length_eq]
    exact List.length_pos_of_ne_nil h
  refine ⟨_, _, percentile_eq h h0 h1, percentile_eq h' h0 h1, ?_⟩
  rw [← hle.length_eq]
  exact interpolate_le_interpolate (clamped_le_clamped h h' hle)
    (position_nonneg (List.length_pos_of_ne_nil h) h0)

/-- **Percentile interpolation is safe and monotone**, in the percentage and in the data. -/
theorem percentile_safe {p q : ℚ} (h : l ≠ []) (hsorted : l.Pairwise (· ≤ ·)) (h0 : 0 ≤ p)
    (hpq : p ≤ q) (h1 : q ≤ 100) :
    ∃ x y, percentile l p = some x ∧ percentile l q = some y ∧
      AtRank l (((l.length : ℚ) - 1) * p / 100) x ∧ l.head h ≤ x ∧ x ≤ l.getLast h ∧ x ≤ y ∧
      ∀ l' : List ℚ, l'.Pairwise (· ≤ ·) → List.Forall₂ (· ≤ ·) l l' →
        ∃ x', percentile l' p = some x' ∧ x ≤ x' := by
  have hn := List.length_pos_of_ne_nil h
  have hp1 := hpq.trans h1
  have hx := percentile_eq h h0 hp1
  have hrise := clamped_mono h hsorted
  have hk0 := position_nonneg hn h0
  have hkn := position_le_last hn hp1
  refine ⟨_, _, hx, percentile_eq h (h0.trans hpq) h1, ?_, ?_, ?_, ?_, ?_⟩
  · rw [mul_div_assoc]
    exact interpolate_atRank h hkn
  · rw [← clamped_first h]
    exact interpolate_ge_first hrise hk0
  · rw [← clamped_last h]
    exact interpolate_le_last hrise hk0 hkn
  · exact interpolate_mono hrise hk0 (position_mono hn hpq)
  · intro l' _ hle
    obtain ⟨x, x', hx0, hx', hxx'⟩ := percentile_raised h hle h0 hp1
    rw [hx] at hx0
    injection hx0 with hx0
    exact ⟨x', hx', hx0 ▸ hxx'⟩

/-- The median and the 95th percentile of four latencies. -/
theorem percentile_safe_sample :
    ∃ x y, percentile [1, 2, 4, 8] 50 = some x ∧ percentile [1, 2, 4, 8] 95 = some y ∧ x ≤ y := by
  obtain ⟨x, y, hx, hy, _, _, _, hxy, _⟩ := percentile_safe (l := [1, 2, 4, 8]) (p := 50) (q := 95)
    (List.cons_ne_nil _ _) (by decide +kernel) (by norm_num) (by norm_num) (by norm_num)
  exact ⟨x, y, hx, hy, hxy⟩

end Percentiles

/-! ## 4. A summary is consistent -/

/-- The rows with a positive label that were predicted to be positive. -/
def truePositives (rows : List JoinedRow) : Nat :=
  rows.countP fun r => decide (r.metric.prediction = some 1) && r.positive

/-- How the numbers of a summary relate to one another and to the rows. -/
structure Consistent (rows : List JoinedRow) (s : VersionSummary) : Prop where
  sample_count : s.sampleCount = rows.length
  positives_le : s.positiveLabelCount ≤ s.labeledSampleCount
  labeled_le : s.labeledSampleCount ≤ s.sampleCount
  coverage : ∃ c, s.labelCoverage = some c ∧ c * s.sampleCount = s.labeledSampleCount
  error_rate : ∃ e, s.errorRate = some e ∧ 0 ≤ e ∧ e ≤ 1 ∧
    e * s.sampleCount = rows.countP fun r => decide (400 ≤ r.metric.statusCode)
  latencies : ∃ p50 p95 p99, s.p50LatencyMs = some p50 ∧ s.p95LatencyMs = some p95 ∧
    s.p99LatencyMs = some p99 ∧ p50 ≤ p95 ∧ p95 ≤ p99 ∧
    ∃ fastest ∈ rows, ∃ slowest ∈ rows,
      (∀ r ∈ rows, fastest.metric.latencyMs ≤ r.metric.latencyMs ∧
        r.metric.latencyMs ≤ slowest.metric.latencyMs) ∧
      fastest.metric.latencyMs ≤ p50 ∧ p99 ≤ slowest.metric.latencyMs
  recall_absent : s.recall = none ↔ s.positiveLabelCount = 0
  recall_share : ∀ x ∈ s.recall, 0 ≤ x ∧ x ≤ 1 ∧ x * s.positiveLabelCount = truePositives rows
  precision_share : ∀ x ∈ s.precision, 0 ≤ x ∧ x ≤ 1
  false_positive_share : ∀ x ∈ s.falsePositiveRate, 0 ≤ x ∧ x ≤ 1
  /-- the delays of the labeled rows have percentiles wherever there is one -/
  delays : (s.labelDelayP50Seconds = none ↔ s.labeledSampleCount = 0) ∧
    (s.labelDelayP95Seconds = none ↔ s.labeledSampleCount = 0)

section Consistency

variable {rows rows' : List JoinedRow} {version : String}

theorem truePositives_eq :
    tally (rows.filterMap JoinedRow.labeled) 1 1 = truePositives rows := by
  rw [tally_labeled]
  unfold truePositives JoinedRow.positive
  congr 1
  funext r
  simp only [labeled_eq_some]
  cases r.label <;> simp

theorem delays_nil :
    rows.filterMap JoinedRow.labelDelay = [] ↔ (rows.countP fun r => r.label.isSome) = 0 := by
  rw [List.filterMap_eq_nil_iff, List.countP_eq_zero]
  refine forall_congr' fun r => forall_congr' fun _ => ?_
  unfold JoinedRow.labelDelay
  cases r.label <;> simp

/-- **A metrics summary is internally consistent.** -/
theorem summary_consistent (version : String) (rows : List JoinedRow) (h : rows ≠ []) :
    Consistent rows (summarize version rows) where
  sample_count := rfl
  positives_le := by
    rw [positiveLabelCount_eq]
    refine List.countP_mono_left fun r _ hr => ?_
    have hpositive := (Bool.and_eq_true_iff.mp hr).1
    unfold JoinedRow.positive at hpositive
    cases hl : r.label with
    | none =>
        rw [hl] at hpositive
        cases hpositive
    | some l => rfl
  labeled_le := List.countP_le_length
  coverage := by
    obtain ⟨c, hc⟩ := ratio_some (n := rows.countP fun r => r.label.isSome)
      (List.length_pos_of_ne_nil h)
    exact ⟨c, hc, (ratio_part List.countP_le_length hc).2.2⟩
  error_rate := by
    obtain ⟨e, he⟩ := ratio_some
      (n := rows.countP fun r : JoinedRow => decide (400 ≤ r.metric.statusCode))
      (List.length_pos_of_ne_nil h)
    exact ⟨e, (errorRate_eq rows).trans he, ratio_part List.countP_le_length he⟩
  latencies := by
    have hne : (rows.map fun r => r.metric.latencyMs) ≠ [] := by simpa using h
    obtain ⟨p50, p95, p99, h50, h95, h99, h1, h2, _, hleast, _, hgreatest, hbounds, hlow, hhigh⟩ :=
      percentiles_ordered hne
    obtain ⟨fastest, hfastest, rfl⟩ := List.mem_map.mp hleast
    obtain ⟨slowest, hslowest, rfl⟩ := List.mem_map.mp hgreatest
    refine ⟨p50, p95, p99, h50, h95, h99, h1, h2, fastest, hfastest, slowest, hslowest, ?_, hlow, hhigh⟩
    exact fun r hr => hbounds _ (List.mem_map.mpr ⟨r, hr, rfl⟩)
  recall_absent := ratio_eq_none
  recall_share := by
    intro x hx
    obtain ⟨h0, h1, hpart⟩ := ratio_part (Nat.le_add_right _ _) hx
    exact ⟨h0, h1, hpart.trans (congrArg Nat.cast truePositives_eq)⟩
  precision_share := by
    intro x hx
    obtain ⟨h0, h1, _⟩ := ratio_part (Nat.le_add_right _ _) hx
    exact ⟨h0, h1⟩
  false_positive_share := by
    intro x hx
    obtain ⟨h0, h1, _⟩ := ratio_part (Nat.le_add_right _ _) hx
    exact ⟨h0, h1⟩
  delays := by
    refine ⟨?_, ?_⟩
    · exact (percentileOf_eq_none (by norm_num) (by norm_num)).trans delays_nil
    · exact (percentileOf_eq_none (by norm_num) (by norm_num)).trans delays_nil

/-- **The order of the rows does not matter.** -/
theorem summarize_perm (h : rows.Perm rows') : summarize version rows = summarize version rows' := by
  have hlabeled := h.filterMap JoinedRow.labeled
  have hlatencies : ∀ pct, percentileOf (rows.map fun r => r.metric.latencyMs) pct =
      percentileOf (rows'.map fun r => r.metric.latencyMs) pct := fun _ =>
    percentileOf_perm (h.map _)
  have hdelays : ∀ pct, percentileOf (rows.filterMap JoinedRow.labelDelay) pct =
      percentileOf (rows'.filterMap JoinedRow.labelDelay) pct := fun _ =>
    percentileOf_perm (h.filterMap _)
  have htally : ∀ p a, tally (rows.filterMap JoinedRow.labeled) p a =
      tally (rows'.filterMap JoinedRow.labeled) p a := fun _ _ => hlabeled.countP_eq _
  unfold summarize
  simp only [hlatencies, hdelays, htally, errorRate_eq, h.countP_eq, h.length_eq]

/-- **A metrics summary is internally consistent**, and the same for every order of its rows. -/
theorem summary_consistent_unordered (version : String) (rows : List JoinedRow) (h : rows ≠ []) :
    Consistent rows (summarize version rows) ∧
      ∀ rows' : List JoinedRow, rows.Perm rows' → summarize version rows' = summarize version rows :=
  ⟨summary_consistent version rows h, fun _ hperm => (summarize_perm hperm).symm⟩

/-- A row and the label of its prediction. -/
def sampleRow (ms : Nat) (prediction : Option Int) (predictionId : String) (label : Option Nat) :
    JoinedRow where
  metric := (sampleServed ms prediction (some predictionId)).row "d1" 9
  label := label.map fun n => ⟨predictionId, n, 10, 12⟩

/-- Five rows: labels that confirm, miss and refute a prediction, one yet to come, and an error. -/
def sampleRows : List JoinedRow :=
  [sampleRow 20 (some 1) "p1" (some 1), sampleRow 50 (some 0) "p2" (some 1),
    sampleRow 30 (some 1) "p3" (some 0), sampleRow 40 (some 1) "p4" none,
    ⟨{ (sampleServed 90 none none).row "d1" 9 with statusCode := 500 }, none⟩]

theorem summary_consistent_unordered_sample :
    Consistent sampleRows (summarize "v2" sampleRows) ∧
      summarize "v2" sampleRows.reverse = summarize "v2" sampleRows ∧
      (summarize "v2" sampleRows).labeledSampleCount = 3 ∧
      (summarize "v2" sampleRows).positiveLabelCount = 2 ∧
      (summarize "v2" sampleRows).recall = some (1 / 2) := by
  have h := summary_consistent_unordered "v2" sampleRows (List.cons_ne_nil _ _)
  exact ⟨h.1, h.2 _ (List.reverse_perm _).symm, by decide +kernel, by decide +kernel,
    by decide +kernel⟩

end Consistency

/-! ## 5. Positive labels -/

/-- **`positive_label_count` counts the positive labels** of the rows in scope exactly if none of these
    rows has a prediction that is missing or neither 0 nor 1. -/
theorem positives_counted_iff (metrics : List MetricRow)
    (labels : Table GroundTruthLabel.predictionId) (deploymentId version : String) (w : Window) :
    (versionSummary metrics labels deploymentId version w).positiveLabelCount =
        (joinedRows metrics labels deploymentId version w).countP JoinedRow.positive ↔
      ∀ r ∈ joinedRows metrics labels deploymentId version w, r.positive = true →
        r.binary = true := by
  rw [versionSummary_eq, positiveLabelCount_eq]
  exact countP_part_iff

/-- **A positive label of a prediction that was not reported is not counted**: the tables of two accepted
    requests. -/
theorem positive_uncounted :
    ∃ metrics labels, recordMetric 5 "d1" (sampleServed 20 none (some "p1")) [] = some metrics ∧
      ingestLabel 7 metrics (sampleLabel true 6) (.empty _) = (.ok .applied, labels, []) ∧
      (versionSummary metrics labels "d1" "v2" ⟨10, 60, 0⟩).positiveLabelCount ≠
        (joinedRows metrics labels "d1" "v2" ⟨10, 60, 0⟩).countP JoinedRow.positive := by
  refine ⟨_, _, rfl, rfl, ?_⟩
  decide +kernel

end ModelOps
