/-
  File:      ModelOps/Router/Draw.lean
  Subject:   The draw of `choose_target`: which requests go to which version.

  `random()` is a point of [0, 1). The targets stand side by side on it, each as long as its share of
  the weights, and the request goes to the target its point lies on.

  * **`draw_proportional`** -- a target's draws are one interval, as long as its share;
  * `drawn_weight` -- so a target without weight is never drawn.
-/
import ModelOps.Lib.WeightedChoice
import ModelOps.Router.Predict

namespace ModelOps

open WeightedChoice

/-- What `random()` returns. -/
def Drawn (draw : ℚ) : Prop := 0 ≤ draw ∧ draw < 1

instance (draw : ℚ) : Decidable (Drawn draw) := inferInstanceAs (Decidable (_ ∧ _))

/-- The weights of a config add up to this. -/
def RouterConfig.total (config : RouterConfig) : ℚ := (config.targets.map TargetWeight.weight).sum

section Draw

variable {config : RouterConfig} {draw : ℚ} {t : TargetWeight}

theorem pick_eq (t : TargetWeight) (ts : List TargetWeight) (cumulative x : ℚ) :
    pick t ts cumulative x = choose TargetWeight.weight t ts cumulative x := by
  induction ts generalizing t cumulative with
  | nil => rfl
  | cons t' ts ih =>
      unfold pick choose
      rw [ih t' (cumulative + t.weight)]

/-- The point of a draw lies below the total. -/
theorem point_bounds (config : RouterConfig) (h : Drawn draw) :
    0 ≤ draw * config.total ∧ draw * config.total < config.total := by
  have hpos : 0 < config.total := config.valid.weight_pos
  refine ⟨mul_nonneg h.1 hpos.le, ?_⟩
  calc draw * config.total < 1 * config.total := mul_lt_mul_of_pos_right h.2 hpos
    _ = config.total := one_mul _

/-- `choose_target` is the weighted choice of the point. -/
theorem chooseTarget_eq {ts : List TargetWeight} (h : config.targets = t :: ts) :
    chooseTarget config draw = some (choose TargetWeight.weight t ts 0 (draw * config.total)) := by
  unfold chooseTarget RouterConfig.total
  rw [h]
  exact congrArg some (pick_eq _ _ _ _)

theorem total_cons {ts : List TargetWeight} (h : config.targets = t :: ts) :
    config.total = ((t :: ts).map TargetWeight.weight).sum := by
  unfold RouterConfig.total
  rw [h]

/-- **A target without weight is never drawn.** -/
theorem drawn_weight (hdraw : Drawn draw) (h : chooseTarget config draw = some t) : 0 < t.weight := by
  cases hts : config.targets with
  | nil => exact absurd hts config.valid.nonempty
  | cons t' ts =>
      obtain ⟨h0, h1⟩ := point_bounds config hdraw
      rw [chooseTarget_eq hts] at h
      cases h
      exact choose_pos h0 (total_cons hts ▸ h1)

/-- The draws of the target after `before`. -/
theorem chooseTarget_iff {before : List TargetWeight} (hpre : before ++ [t] <+: config.targets)
    (hdraw : Drawn draw) :
    chooseTarget config draw = some t ↔
      (before.map TargetWeight.weight).sum ≤ draw * config.total ∧
        draw * config.total < (before.map TargetWeight.weight).sum + t.weight := by
  cases hts : config.targets with
  | nil => exact absurd hts config.valid.nonempty
  | cons t' ts =>
      obtain ⟨h0, h1⟩ := point_bounds config hdraw
      have hvalid := config.valid
      have hnodup : config.targets.Nodup := List.Nodup.of_map _ hvalid.versions_nodup
      rw [hts] at hpre hnodup
      rw [chooseTarget_eq hts, Option.some.injEq]
      refine choose_iff ?_ hnodup hpre h0 (total_cons hts ▸ h1)
      rw [← hts]
      exact hvalid.weights_nonneg

end Draw

/-- **The draws of a target are as many as its share**: they are one interval of [0, 1), as long as its
    weight in proportion to all weights. -/
theorem draw_proportional (config : RouterConfig) (t : TargetWeight) (ht : t ∈ config.targets) :
    ∃ left, 0 ≤ left ∧ left + t.weight / config.total ≤ 1 ∧
      ∀ draw, Drawn draw → (chooseTarget config draw = some t ↔
        left ≤ draw ∧ draw < left + t.weight / config.total) := by
  have hpos : 0 < config.total := config.valid.weight_pos
  obtain ⟨before, after, hsplit⟩ := List.append_of_mem ht
  have hsum : ∀ ts : List TargetWeight, (∀ t ∈ ts, t ∈ config.targets) →
      0 ≤ (ts.map TargetWeight.weight).sum := by
    intro ts hts
    refine List.sum_nonneg fun w hw => ?_
    obtain ⟨t, ht, rfl⟩ := List.mem_map.mp hw
    exact config.valid.weights_nonneg t (hts t ht)
  have hbefore := hsum before fun t ht => by rw [hsplit]; exact List.mem_append_left _ ht
  have hafter := hsum after fun t' ht' => by
    rw [hsplit]
    exact List.mem_append_right _ (List.mem_cons_of_mem t ht')
  have htotal : config.total =
      (before.map TargetWeight.weight).sum + (t.weight + (after.map TargetWeight.weight).sum) := by
    unfold RouterConfig.total
    rw [hsplit, List.map_append, List.sum_append, List.map_cons, List.sum_cons]
  have hpre : before ++ [t] <+: config.targets := ⟨after, by rw [hsplit]; simp⟩
  refine ⟨(before.map TargetWeight.weight).sum / config.total, div_nonneg hbefore hpos.le, ?_, ?_⟩
  · rw [← add_div, div_le_one hpos]
    linarith
  · intro draw hdraw
    rw [chooseTarget_iff hpre hdraw, ← add_div, div_le_iff₀ hpos, lt_div_iff₀ hpos]

/-- Three of four requests go to the first version, one to the other. -/
def sampleSplit : RouterConfig where
  modelName := "fraud-model"
  targets := [⟨"v1", 3 / 4⟩, ⟨"v2", 1 / 4⟩]
  valid :=
    { weights_nonneg := by norm_num
      nonempty := by simp
      versions_nodup := by simp
      weight_pos := by norm_num }

/-- The other version is drawn on an interval a quarter long. -/
theorem draw_proportional_sample :
    (⟨"v2", 1 / 4⟩ : TargetWeight) ∈ sampleSplit.targets ∧
      ∃ left, 0 ≤ left ∧ left + 1 / 4 / sampleSplit.total ≤ 1 ∧
        ∀ draw, Drawn draw → (chooseTarget sampleSplit draw = some ⟨"v2", 1 / 4⟩ ↔
          left ≤ draw ∧ draw < left + 1 / 4 / sampleSplit.total) := by
  have ht : (⟨"v2", 1 / 4⟩ : TargetWeight) ∈ sampleSplit.targets := by simp [sampleSplit]
  exact ⟨ht, draw_proportional sampleSplit ⟨"v2", 1 / 4⟩ ht⟩

end ModelOps
