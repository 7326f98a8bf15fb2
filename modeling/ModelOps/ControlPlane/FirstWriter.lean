/-
  File:      ModelOps/ControlPlane/FirstWriter.lean
  Subject:   Ground truth is first-writer-wins, however the sessions of ControlPlane/Labels.lean interleave.

  The lookup and the INSERT of a call are two steps, so several calls may be on their way to the INSERT
  of one prediction. The unique index lets one of them through; from then on the row stands, the others
  find it, and the one has still to say that it won.

  * `Turn` -- what a step of a session is for the label of one prediction;
  * `Owner` -- the invariant: who has the label, and how many answers have said so;
  * `act_looks` -- what an answer says of a metric is what the call's lookup of it found on record;
  * **`first_writer_wins`** -- rows, answers and events of every interleaving.
-/
import ModelOps.ControlPlane.Labels

namespace ModelOps

open Relational Interference

/-! ## 1. Who has the label -/

/-- The session's own row is in, and it has not said so yet. -/
def Standing.Holds (p : String) : Standing → Prop
  | .ingesting .committed call _ => call.predictionId = p
  | _ => False

/-- A call for `p` returned `applied` or `pending`. -/
def Report.wins (p : String) : Report → Bool
  | .returned call (.ok .applied) | .returned call (.ok .pending) => decide (call.predictionId = p)
  | _ => false

theorem next_holds (p : String) (rest : List LabelCall) : ¬(Standing.next rest).Holds p := by
  cases rest with
  | nil => exact id
  | cons call rest => exact id

theorem after_holds (p : String) (rest : List LabelCall) (result : LabelResult) :
    ¬(Standing.after rest result).Holds p := by
  cases result with
  | ok outcome => exact next_holds p rest
  | error e =>
      cases e with
      | conflict e => exact next_holds p rest
      | integrityError => exact id

/-- **What one step of a session is for the label of `p`**: nothing, the INSERT that takes it, or the
    answer that says so. -/
inductive Turn (p : String) (s : Standing) (t : QualityTables)
    (x : Standing × QualityTables × List Report) : Prop where
  | quiet (hlabel : x.2.1.groundTruthLabels.get? p = t.groundTruthLabels.get? p)
      (hheld : x.1.Holds p ↔ s.Holds p) (hwins : x.2.2.countP (Report.wins p) = 0)
  | takes (hfree : t.groundTruthLabels.get? p = none)
      (hlabel : x.2.1.groundTruthLabels.get? p ≠ none)
      (hheld : x.1.Holds p) (hwins : x.2.2.countP (Report.wins p) = 0)
  | answers (hlabel : x.2.1.groundTruthLabels.get? p = t.groundTruthLabels.get? p)
      (hheld : s.Holds p) (hafter : ¬x.1.Holds p) (hwins : x.2.2.countP (Report.wins p) = 1)

section Turns

variable {call : LabelCall} {t : QualityTables} {p : String} {rest : List LabelCall}

theorem resolve_turn {at_ : IngestAt} (existing : GroundTruthLabel) (hat : at_ ≠ .committed)
    (hstep : call.step t at_ = (call.resolve existing, t)) :
    Turn p (.ingesting at_ call rest) t (act (.ingesting at_ call rest) t) := by
  have hheld : ¬(Standing.ingesting at_ call rest).Holds p := by
    cases at_ with
    | committed => exact absurd rfl hat
    | _ => exact id
  unfold LabelCall.resolve at hstep
  split at hstep
  · have hact : act (.ingesting at_ call rest) t =
        (.after rest (.ok .noOp), t, [.returned call (.ok .noOp)]) := by
      simp only [act, hstep]
    rw [hact]
    exact .quiet rfl (iff_of_false (after_holds p rest (.ok .noOp)) hheld) rfl
  · have hact : act (.ingesting at_ call rest) t =
        (.ingesting (.conflicting existing) call rest, t, []) := by
      simp only [act, hstep]
    rw [hact]
    exact .quiet rfl (iff_of_false id hheld) rfl

theorem insert_turn :
    Turn p (.ingesting .insert call rest) t (act (.ingesting .insert call rest) t) := by
  cases hl : t.groundTruthLabels.get? call.predictionId with
  | some existing =>
      have hact : act (.ingesting .insert call rest) t = (.ingesting .relookup call rest, t, []) := by
        simp only [act, LabelCall.step, hl]
      rw [hact]
      exact .quiet rfl Iff.rfl rfl
  | none =>
      have hact : act (.ingesting .insert call rest) t = (.ingesting .committed call rest,
          { t with groundTruthLabels := t.groundTruthLabels.put call.row }, []) := by
        simp only [act, LabelCall.step, hl]
      rw [hact]
      by_cases hp : call.predictionId = p
      · subst hp
        refine .takes hl ?_ rfl rfl
        rw [show (t.groundTruthLabels.put call.row).get? call.predictionId = some call.row from
          Table.get?_put_self t.groundTruthLabels call.row]
        exact Option.some_ne_none _
      · exact .quiet (Table.get?_put_of_ne _ (Ne.symm hp)) (iff_of_false hp id) rfl

theorem committed_turn :
    Turn p (.ingesting .committed call rest) t (act (.ingesting .committed call rest) t) := by
  have hact : ∃ outcome : LabelIngestOutcome, (outcome = .applied ∨ outcome = .pending) ∧
      act (.ingesting .committed call rest) t =
        (.after rest (.ok outcome), t, [.returned call (.ok outcome)]) := by
    refine ⟨_, ?_, rfl⟩
    split
    · exact Or.inl rfl
    · exact Or.inr rfl
  obtain ⟨outcome, houtcome, hact⟩ := hact
  have hcount : [Report.returned call (.ok outcome)].countP (Report.wins p) =
      if call.predictionId = p then 1 else 0 := by
    rcases houtcome with rfl | rfl <;> simp [Report.wins, List.countP_cons]
  rw [hact]
  by_cases hp : call.predictionId = p
  · rw [if_pos hp] at hcount
    exact .answers rfl hp (after_holds p rest (.ok outcome)) hcount
  · rw [if_neg hp] at hcount
    exact .quiet rfl (iff_of_false (after_holds p rest (.ok outcome)) hp) hcount

/-- A refusal of a call takes nothing. -/
theorem refusal_turn {at_ : IngestAt} (t' : QualityTables) (e : LabelFailure)
    (hat : at_ ≠ .committed) (hstep : call.step t at_ = (.inr (.error e), t'))
    (hlabels : t'.groundTruthLabels = t.groundTruthLabels) :
    Turn p (.ingesting at_ call rest) t (act (.ingesting at_ call rest) t) := by
  have hheld : ¬(Standing.ingesting at_ call rest).Holds p := by
    cases at_ with
    | committed => exact absurd rfl hat
    | _ => exact id
  have hact : act (.ingesting at_ call rest) t =
      (.after rest (.error e), t', [.returned call (.error e)]) := by
    simp only [act, hstep]
  rw [hact]
  exact .quiet (by rw [hlabels]) (iff_of_false (after_holds p rest (.error e)) hheld) rfl

end Turns

theorem act_turn (p : String) (s : Standing) (t : QualityTables) : Turn p s t (act s t) := by
  cases s with
  | done => exact .quiet rfl Iff.rfl rfl
  | recording now deploymentId payload =>
      cases hr : recordMetric now deploymentId payload t.predictionMetrics with
      | none =>
          simp only [act, hr]
          exact .quiet rfl Iff.rfl rfl
      | some metrics =>
          simp only [act, hr]
          exact .quiet rfl Iff.rfl rfl
  | ingesting at_ call rest =>
      cases at_ with
      | lookup =>
          cases hl : t.groundTruthLabels.get? call.predictionId with
          | some existing =>
              exact resolve_turn existing (fun h => by cases h) (by simp only [LabelCall.step, hl])
          | none =>
              simp only [act, LabelCall.step, hl]
              exact .quiet rfl Iff.rfl rfl
      | insert => exact insert_turn
      | relookup =>
          cases hl : t.groundTruthLabels.get? call.predictionId with
          | some existing =>
              exact resolve_turn existing (fun h => by cases h) (by simp only [LabelCall.step, hl])
          | none =>
              exact refusal_turn t .integrityError (fun h => by cases h)
                (by simp only [LabelCall.step, hl]) rfl
      | committed => exact committed_turn
      | conflicting existing =>
          cases hm : findMetric t.predictionMetrics call.predictionId with
          | none =>
              exact refusal_turn t (.conflict (call.conflict existing none)) (fun h => by cases h)
                (by simp only [LabelCall.step, hm]) rfl
          | some metric =>
              simp only [act, LabelCall.step, hm]
              exact .quiet rfl Iff.rfl rfl
      | auditing existing deploymentId => exact refusal_turn _ _ (fun h => by cases h) rfl rfl

/-- How many answers so far said `applied` or `pending` of `p`. -/
def winners {ι : Type} (c : Config QualityTables Standing Report ι) (p : String) : Nat :=
  c.log.countP fun x => x.2.wins p

/-- **Who has the label of `p`**: nobody yet, one session that has not said so yet, or it was said.
    `n` is 0 where the label was there before. -/
inductive Owner {ι : Type} (p : String) (n : Nat) (c : Config QualityTables Standing Report ι) :
    Prop where
  | free (hn : n = 1) (hlabel : c.store.groundTruthLabels.get? p = none)
      (hheld : ∀ i, ¬(c.proc i).Holds p) (hwins : winners c p = 0)
  | held (hn : n = 1) (hlabel : c.store.groundTruthLabels.get? p ≠ none) (i : ι)
      (hheld : (c.proc i).Holds p) (hone : ∀ j, (c.proc j).Holds p → j = i)
      (hwins : winners c p = 0)
  | settled (hlabel : c.store.groundTruthLabels.get? p ≠ none) (hheld : ∀ i, ¬(c.proc i).Holds p)
      (hwins : winners c p = n)

section Owners

variable {ι : Type} [DecidableEq ι] {c : Config QualityTables Standing Report ι} {p : String} {n : Nat}

theorem winners_step (i : ι) : winners (c.step act i) p =
    winners c p + (act (c.proc i) c.store).2.2.countP (Report.wins p) := by
  unfold winners Config.step
  rw [List.countP_append, List.countP_map]
  rfl

theorem holds_step {i j : ι} (h : j ≠ i) : ((c.step act i).proc j).Holds p ↔ (c.proc j).Holds p := by
  rw [Config.step_proc_ne h]

theorem owner_step (h : Owner p n c) (i : ι) : Owner p n (c.step act i) := by
  have hself : ((c.step act i).proc i).Holds p ↔ (act (c.proc i) c.store).1.Holds p := by
    rw [Config.step_proc_self]
  have hstore : (c.step act i).store = (act (c.proc i) c.store).2.1 := rfl
  cases act_turn p (c.proc i) c.store with
  | quiet hlabel hquiet hwins =>
      -- nothing of what the invariant speaks of has changed
      have hheld : ∀ j, ((c.step act i).proc j).Holds p ↔ (c.proc j).Holds p := by
        intro j
        by_cases hj : j = i
        · subst hj
          exact hself.trans hquiet
        · exact holds_step hj
      have hcount : winners (c.step act i) p = winners c p := by
        rw [winners_step, hwins, Nat.add_zero]
      cases h with
      | free hn hl hno hw =>
          exact .free hn (by rw [hstore, hlabel, hl]) (fun j hj => hno j ((hheld j).mp hj))
            (by rw [hcount, hw])
      | held hn hl k hk hone hw =>
          exact .held hn (by rw [hstore, hlabel]; exact hl) k ((hheld k).mpr hk)
            (fun j hj => hone j ((hheld j).mp hj)) (by rw [hcount, hw])
      | settled hl hno hw =>
          exact .settled (by rw [hstore, hlabel]; exact hl) (fun j hj => hno j ((hheld j).mp hj))
            (by rw [hcount, hw])
  | takes hfree hlabel hheld hwins =>
      cases h with
      | free hn hl hno hw =>
          refine .held hn hlabel i (hself.mpr hheld) ?_ ?_
          · intro j hj
            by_contra hne
            exact hno j ((holds_step hne).mp hj)
          · rw [winners_step, hwins, hw]
      | held hn hl k hk hone hw => exact absurd hfree hl
      | settled hl hno hw => exact absurd hfree hl
  | answers hlabel hheld hafter hwins =>
      cases h with
      | free hn hl hno hw => exact absurd hheld (hno i)
      | held hn hl k hk hone hw =>
          refine .settled (by rw [hstore, hlabel]; exact hl) ?_ ?_
          · intro j hj
            by_cases hji : j = i
            · subst hji
              exact hafter (hself.mp hj)
            · exact hji ((hone j ((holds_step hji).mp hj)).trans (hone i hheld).symm)
          · rw [winners_step, hwins, hw, hn]
      | settled hl hno hw => exact absurd hheld (hno i)

theorem start_holds (w : Writer) : ¬w.start.Holds p := by
  cases w with
  | metric now deploymentId payload => exact id
  | labels calls => exact next_holds p calls

omit [DecidableEq ι] in
theorem owner_start (writers : ι → Writer) (t : QualityTables) (p : String) :
    Owner p (if (t.groundTruthLabels.get? p).isSome then 0 else 1)
      (Config.start t fun i => (writers i).start) := by
  cases hl : t.groundTruthLabels.get? p with
  | none => exact .free (by simp) hl (fun i => start_holds (writers i)) rfl
  | some row =>
      refine .settled ?_ (fun i => start_holds (writers i)) (by simp [winners, Config.start])
      show t.groundTruthLabels.get? p ≠ none
      rw [hl]
      exact Option.some_ne_none _

omit [DecidableEq ι] in
/-- Nobody holds the label any more. -/
theorem Owner.winners_done (h : Owner p n c) (hdone : ∀ i, c.proc i = .done) {row : GroundTruthLabel}
    (hrow : c.store.groundTruthLabels.get? p = some row) : winners c p = n := by
  cases h with
  | free hn hl hno hw => rw [hl] at hrow; cases hrow
  | held hn hl k hk hone hw => rw [hdone k] at hk; exact hk.elim
  | settled hl hno hw => exact hw

end Owners

/-! ## 2. First writer wins -/

/-- The calls a writer is sent with. -/
def Writer.calls : Writer → List LabelCall
  | .metric .. => []
  | .labels calls => calls

/-- The calls that have not returned. -/
def Standing.todo : Standing → List LabelCall
  | .ingesting _ call rest => call :: rest
  | _ => []

/-- The call a report is of. -/
def Report.call : Report → List LabelCall
  | .returned call _ => [call]
  | _ => []

/-- The events a report owes: one for a conflict with a prediction whose metric was found. -/
def Report.owes : Report → List DeploymentEvent
  | .returned call (.error (.conflict e)) => e.deploymentId.toList.map (e.event call.now)
  | _ => []

theorem next_todo (rest : List LabelCall) : (Standing.next rest).todo = rest := by
  cases rest <;> rfl

theorem act_events (s : Standing) (t : QualityTables) : (act s t).2.1.deploymentEvents =
    t.deploymentEvents ++ (act s t).2.2.flatMap Report.owes := by
  cases s with
  | done => exact (List.append_nil _).symm
  | recording now deploymentId payload =>
      cases hr : recordMetric now deploymentId payload t.predictionMetrics <;>
        simp [act, hr, Report.owes]
  | ingesting at_ call rest =>
      have hresolve : ∀ existing result, call.resolve existing = .inr result →
          (Report.returned call result).owes = [] := by
        intro existing result he
        unfold LabelCall.resolve at he
        split at he
        · cases he; rfl
        · cases he
      rw [act_ingesting]
      cases at_ with
      | lookup =>
          cases hl : t.groundTruthLabels.get? call.predictionId with
          | none => simp [LabelCall.step, hl]
          | some existing =>
              simp only [LabelCall.step, hl]
              cases hr : call.resolve existing with
              | inl at' => simp
              | inr result => simp [hresolve existing result hr]
      | insert => cases hl : t.groundTruthLabels.get? call.predictionId <;> simp [LabelCall.step, hl]
      | relookup =>
          cases hl : t.groundTruthLabels.get? call.predictionId with
          | none => simp [LabelCall.step, hl, Report.owes]
          | some existing =>
              simp only [LabelCall.step, hl]
              cases hr : call.resolve existing with
              | inl at' => simp
              | inr result => simp [hresolve existing result hr]
      | committed => simp [LabelCall.step, Report.owes]
      | conflicting existing =>
          cases hm : findMetric t.predictionMetrics call.predictionId with
          | none => simp [LabelCall.step, hm, Report.owes, LabelCall.conflict]
          | some metric => simp [LabelCall.step, hm]
      | auditing existing deploymentId => simp [LabelCall.step, Report.owes, LabelCall.conflict]

/-- The lookup of a metric that the next step is, and the metrics it is made in. -/
def Standing.looks (p : Standing) (t : QualityTables) : List (LabelCall × List MetricRow) :=
  match p with
  | .ingesting .committed call _ => [(call, t.predictionMetrics)]
  | .ingesting (.conflicting _) call _ => [(call, t.predictionMetrics)]
  | _ => []

/-- The answers that say something about a metric. -/
def Report.told : Report → List (LabelCall × LabelResult)
  | .returned call (.ok .applied) => [(call, .ok .applied)]
  | .returned call (.ok .pending) => [(call, .ok .pending)]
  | .returned call (.error (.conflict e)) => [(call, .error (.conflict e))]
  | _ => []

/-- The answer a session is about to give, its metric found and the event not yet committed. -/
def Standing.about : Standing → List (LabelCall × LabelResult)
  | .ingesting (.auditing existing deploymentId) call _ =>
      [(call, .error (.conflict (call.conflict existing (some deploymentId))))]
  | _ => []

/-- What an answer says is so of `metrics`: whether the prediction has one, and a conflict of which
    deployment. -/
inductive Saw (predictionId : String) (metrics : List MetricRow) : LabelResult → Prop where
  | applied (m : MetricRow) (hm : m ∈ metrics) (hp : m.predictionId = some predictionId) :
      Saw predictionId metrics (.ok .applied)
  | pending (hno : ∀ m ∈ metrics, m.predictionId ≠ some predictionId) :
      Saw predictionId metrics (.ok .pending)
  | conflict (e : LabelConflictError) (m : MetricRow) (hm : m ∈ metrics)
      (hp : m.predictionId = some predictionId) (he : e.deploymentId = some m.deploymentId) :
      Saw predictionId metrics (.error (.conflict e))
  | unknown (e : LabelConflictError) (hno : ∀ m ∈ metrics, m.predictionId ≠ some predictionId)
      (he : e.deploymentId = none) : Saw predictionId metrics (.error (.conflict e))

/-- The answer is the one to the lookup. -/
def Sees (x : LabelCall × LabelResult) (y : LabelCall × List MetricRow) : Prop :=
  x.1 = y.1 ∧ Saw x.1.predictionId y.2 x.2

theorem findMetric_some {metrics : List MetricRow} {p : String} {m : MetricRow}
    (h : findMetric metrics p = some m) : m ∈ metrics ∧ m.predictionId = some p :=
  ⟨List.mem_of_find?_eq_some h, by simpa using List.find?_some h⟩

theorem findMetric_none {metrics : List MetricRow} {p : String} (h : findMetric metrics p = none) :
    ∀ m ∈ metrics, m.predictionId ≠ some p := by
  intro m hm hp
  have hno := List.find?_eq_none.mp h m hm
  exact hno (decide_eq_true hp)

theorem next_about (rest : List LabelCall) : (Standing.next rest).about = [] := by
  cases rest <;> rfl

theorem after_about (rest : List LabelCall) (result : LabelResult) :
    (Standing.after rest result).about = [] := by
  cases result with
  | ok outcome => exact next_about rest
  | error e =>
      cases e with
      | conflict e => exact next_about rest
      | integrityError => rfl

section Looks

variable {call : LabelCall} {rest : List LabelCall} {t t' : QualityTables} {at_ : IngestAt}

/-- What a step that returns says. -/
theorem returned_looks {result : LabelResult} (h : call.step t at_ = (.inr result, t')) :
    (act (.ingesting at_ call rest) t).2.2.flatMap Report.told ++
      (act (.ingesting at_ call rest) t).1.about = (Report.returned call result).told := by
  rw [act_ingesting, h]
  show [Report.returned call result].flatMap Report.told ++ (Standing.after rest result).about = _
  rw [after_about, List.append_nil, List.flatMap_singleton]

/-- What a step that goes on is about to say. -/
theorem goes_looks {at' : IngestAt} (h : call.step t at_ = (.inl at', t')) :
    (act (.ingesting at_ call rest) t).2.2.flatMap Report.told ++
      (act (.ingesting at_ call rest) t).1.about = (Standing.ingesting at' call rest).about := by
  rw [act_ingesting, h]
  rfl

/-- A label that is there already is no answer about a metric. -/
theorem resolve_looks (existing : GroundTruthLabel) (h : call.step t at_ = (call.resolve existing, t)) :
    (act (.ingesting at_ call rest) t).2.2.flatMap Report.told ++
      (act (.ingesting at_ call rest) t).1.about = [] := by
  unfold LabelCall.resolve at h
  split at h
  · exact returned_looks h
  · exact goes_looks h

end Looks

/-- **What a step answers about a metric is what its session found**, at this step or the one before. -/
theorem act_looks (p : Standing) (t : QualityTables) :
    ∃ new, (act p t).2.2.flatMap Report.told ++ (act p t).1.about = p.about ++ new ∧
      List.Forall₂ Sees new (p.looks t) := by
  cases p with
  | done => exact ⟨[], rfl, .nil⟩
  | recording now deploymentId payload =>
      refine ⟨[], ?_, .nil⟩
      cases hr : recordMetric now deploymentId payload t.predictionMetrics <;>
        simp only [act, hr] <;> rfl
  | ingesting at_ call rest =>
      cases at_ with
      | lookup =>
          refine ⟨[], ?_, .nil⟩
          cases hl : t.groundTruthLabels.get? call.predictionId with
          | none =>
              have hstep : call.step t .lookup = (.inl .insert, t) := by simp only [LabelCall.step, hl]
              exact goes_looks hstep
          | some existing => exact resolve_looks existing (by simp only [LabelCall.step, hl])
      | insert =>
          refine ⟨[], ?_, .nil⟩
          cases hl : t.groundTruthLabels.get? call.predictionId with
          | none =>
              have hstep : call.step t .insert = (.inl .committed,
                  { t with groundTruthLabels := t.groundTruthLabels.put call.row }) := by
                simp only [LabelCall.step, hl]
              exact goes_looks hstep
          | some existing =>
              have hstep : call.step t .insert = (.inl .relookup, t) := by
                simp only [LabelCall.step, hl]
              exact goes_looks hstep
      | relookup =>
          refine ⟨[], ?_, .nil⟩
          cases hl : t.groundTruthLabels.get? call.predictionId with
          | none =>
              have hstep : call.step t .relookup = (.inr (.error .integrityError), t) := by
                simp only [LabelCall.step, hl]
              exact returned_looks hstep
          | some existing => exact resolve_looks existing (by simp only [LabelCall.step, hl])
      | committed =>
          cases hm : findMetric t.predictionMetrics call.predictionId with
          | none =>
              have hstep : call.step t .committed = (.inr (.ok .pending), t) := by
                simp only [LabelCall.step, hm]
                rfl
              exact ⟨[(call, .ok .pending)], returned_looks hstep,
                .cons ⟨rfl, .pending (findMetric_none hm)⟩ .nil⟩
          | some m =>
              obtain ⟨hmem, hp⟩ := findMetric_some hm
              have hstep : call.step t .committed = (.inr (.ok .applied), t) := by
                simp only [LabelCall.step, hm]
                rfl
              exact ⟨[(call, .ok .applied)], returned_looks hstep,
                .cons ⟨rfl, .applied m hmem hp⟩ .nil⟩
      | conflicting existing =>
          cases hm : findMetric t.predictionMetrics call.predictionId with
          | none =>
              have hstep : call.step t (.conflicting existing) =
                  (.inr (.error (.conflict (call.conflict existing none))), t) := by
                simp only [LabelCall.step, hm]
              exact ⟨[(call, .error (.conflict (call.conflict existing none)))], returned_looks hstep,
                .cons ⟨rfl, .unknown _ (findMetric_none hm) rfl⟩ .nil⟩
          | some m =>
              obtain ⟨hmem, hp⟩ := findMetric_some hm
              have hstep : call.step t (.conflicting existing) =
                  (.inl (.auditing existing m.deploymentId), t) := by
                simp only [LabelCall.step, hm]
              exact ⟨[(call, .error (.conflict (call.conflict existing (some m.deploymentId))))],
                goes_looks hstep, .cons ⟨rfl, .conflict _ m hmem hp rfl⟩ .nil⟩
      | auditing existing deploymentId =>
          refine ⟨[], ?_, .nil⟩
          rw [List.append_nil]
          have hstep : call.step t (.auditing existing deploymentId) =
              (.inr (.error (.conflict (call.conflict existing (some deploymentId)))),
                { t with deploymentEvents := t.deploymentEvents ++
                  [(call.conflict existing (some deploymentId)).event call.now deploymentId] }) := rfl
          exact returned_looks hstep

/-- A session that may rely on its assertion makes its calls one after another. -/
theorem act_todo {s : Standing} {t : QualityTables} (h : s.Knows t) :
    (act s t).2.2.flatMap Report.call ++ (act s t).1.todo = s.todo := by
  cases s with
  | done => rfl
  | recording now deploymentId payload =>
      cases hr : recordMetric now deploymentId payload t.predictionMetrics <;>
        simp only [act, hr] <;> rfl
  | ingesting at_ call rest =>
      rw [act_ingesting]
      obtain ⟨-, ⟨at', hstep, -⟩ | ⟨result, row, hstep, -, hanswers⟩⟩ :=
        step_knows (show Knows call t at_ from h)
      · rw [hstep]
        rfl
      · rw [hstep]
        show [call] ++ (Standing.after rest result).todo = call :: rest
        rw [hanswers.goes_on, next_todo]
        rfl

section Runs

variable {ι : Type} [DecidableEq ι]

/-- The sessions, before any of them took a step. -/
def sessions (writers : ι → Writer) (t : QualityTables) : Config QualityTables Standing Report ι :=
  .start t fun i => (writers i).start

omit [DecidableEq ι] in
theorem sessions_sound (writers : ι → Writer) (t : QualityTables) :
    Sound (fun _ p t => Standing.Knows t p) (fun _ e t => Report.Holds t e) (sessions writers t) := by
  refine sound_start fun i => ?_
  cases writers i with
  | metric now deploymentId payload => trivial
  | labels calls => exact next_knows t calls

theorem start_todo (w : Writer) : w.start.todo = w.calls := by
  cases w with
  | metric now deploymentId payload => rfl
  | labels calls => exact next_todo calls

variable (writers : ι → Writer) (t : QualityTables) (schedule : List ι)

/-- After enough turns the sessions are at their ends. -/
theorem done_of_turns (h : ∀ i, (writers i).start.left ≤ schedule.count i) (i : ι) :
    ((sessions writers t).run act schedule).proc i = .done := by
  have hleft : (((sessions writers t).run act schedule).proc i).left ≤
      (writers i).start.left - schedule.count i :=
    measure_run act_left schedule (sessions writers t) i
  have hi := h i
  exact left_eq_zero (by omega)

/-- A session at its end has made its calls. -/
theorem calls_done {i : ι} (hdone : ((sessions writers t).run act schedule).proc i = .done) :
    reported ((sessions writers t).run act schedule) Report.call i = (writers i).calls := by
  have hrun := reported_run session_rules (sessions_sound writers t)
    (fun _ _ _ => act_todo) schedule i
  have hfirst : ((sessions writers t).proc i).todo = (writers i).calls := start_todo (writers i)
  rw [hdone, hfirst] at hrun
  exact (List.append_nil _).symm.trans hrun

/-- What a call has answered is so. -/
theorem answer_holds {i : ι} {call : LabelCall} {result : LabelResult}
    (h : (i, Report.returned call result) ∈ ((sessions writers t).run act schedule).log) :
    ∃ row, ((sessions writers t).run act schedule).store.groundTruthLabels.get? call.predictionId =
      some row ∧ Answers call ((sessions writers t).run act schedule).store row result :=
  (session_rules.run (sessions_sound writers t) schedule).reports _ h

/-- The lookups of a metric that a session makes in the schedule. -/
def lookups (i : ι) : List (LabelCall × List MetricRow) :=
  noted act Standing.looks i (sessions writers t) schedule

/-- A session's answers about metrics, and the one it is about to give, are those to its lookups. -/
theorem answers_lookups (i : ι) :
    List.Forall₂ Sees (reported ((sessions writers t).run act schedule) Report.told i ++
      (((sessions writers t).run act schedule).proc i).about) (lookups writers t schedule i) := by
  have hstart : ((sessions writers t).proc i).about = [] := by
    show (writers i).start.about = []
    cases writers i with
    | metric now deploymentId payload => rfl
    | labels calls => exact next_about calls
  have hnothing : List.Forall₂ Sees (reported (sessions writers t) Report.told i ++
      ((sessions writers t).proc i).about) [] := by
    rw [hstart]
    exact .nil
  exact noted_run act_looks schedule i hnothing

/-- A call of a session at its end has left a row, its own or another's. -/
theorem row_of_call {i : ι} (hdone : ((sessions writers t).run act schedule).proc i = .done)
    {call : LabelCall} (hcall : call ∈ (writers i).calls) :
    ∃ row, ((sessions writers t).run act schedule).store.groundTruthLabels.get? call.predictionId =
      some row := by
  rw [← calls_done writers t schedule hdone] at hcall
  obtain ⟨⟨j, e⟩, he, hsaid⟩ := List.mem_flatMap.mp hcall
  split at hsaid
  · cases e with
    | returned call' result =>
        rw [List.mem_singleton.mp hsaid]
        obtain ⟨row, hrow, -⟩ := answer_holds writers t schedule he
        exact ⟨row, hrow⟩
    | recorded row => exact (List.not_mem_nil hsaid).elim
    | refused => exact (List.not_mem_nil hsaid).elim
  · exact (List.not_mem_nil hsaid).elim

/-- **What first-writer-wins says** of the sessions at `c`, started on `t`, where `looked` are the
    lookups of a metric that each has made. -/
structure FirstWriterWins (c : Config QualityTables Standing Report ι)
    (looked : ι → List (LabelCall × List MetricRow)) : Prop where
  /-- a committed label never changes -/
  stays : ∀ more p row, c.store.groundTruthLabels.get? p = some row →
    (c.run act more).store.groundTruthLabels.get? p = some row
  /-- an answer is true of the label on record -/
  answers : ∀ i call result, (i, Report.returned call result) ∈ c.log →
    ∃ row, c.store.groundTruthLabels.get? call.predictionId = some row ∧
      Answers call c.store row result
  /-- `applied`, `pending` and the conflicts are the answers to the lookups, one for one: they say
      whether a metric of the prediction was on record then, and a conflict of which deployment -/
  looked : ∀ i, List.Forall₂ Sees (reported c Report.told i ++ (c.proc i).about) (looked i)
  /-- the events are those of the conflicts that found a metric -/
  events : c.store.deploymentEvents = t.deploymentEvents ++ c.log.flatMap fun x => x.2.owes
  /-- at the end every call has returned, its prediction has one row, and one call has won it -/
  ends : (∀ i, c.proc i = .done) → ∀ i, reported c Report.call i = (writers i).calls ∧
    ∀ call ∈ (writers i).calls,
      (∃! row, row ∈ c.store.groundTruthLabels ∧ row.predictionId = call.predictionId) ∧
      winners c call.predictionId =
        if (t.groundTruthLabels.get? call.predictionId).isSome then 0 else 1

/-- **Ground truth is first-writer-wins**, in every interleaving of the sessions' steps, and the sessions
    are at their ends after enough turns. -/
theorem first_writer_wins :
    FirstWriterWins writers t ((sessions writers t).run act schedule) (lookups writers t schedule) ∧
      ((∀ i, (writers i).start.left ≤ schedule.count i) →
        ∀ i, ((sessions writers t).run act schedule).proc i = .done) := by
  refine ⟨⟨?_, fun _ _ _ => answer_holds writers t schedule, answers_lookups writers t schedule, ?_, ?_⟩,
    done_of_turns writers t schedule⟩
  · intro more p row hrow
    have hsound := session_rules.run (sessions_sound writers t) schedule
    exact (session_rules.guar_run Grows.refl (fun _ _ _ => Grows.trans) hsound more).labels p row hrow
  · exact written_run act_events schedule (List.append_nil _).symm
  · intro hdone i
    refine ⟨calls_done writers t schedule (hdone i), ?_⟩
    intro call hcall
    obtain ⟨row, hrow⟩ := row_of_call writers t schedule (hdone i) hcall
    constructor
    · refine ⟨row, Table.get?_eq_some.mp hrow, ?_⟩
      intro row' hrow'
      exact Option.some.inj ((Table.get?_eq_some.mpr hrow').symm.trans hrow)
    · have howner : Owner call.predictionId
          (if (t.groundTruthLabels.get? call.predictionId).isSome then 0 else 1)
          ((sessions writers t).run act schedule) :=
        Config.run_inv (I := Owner call.predictionId _) (fun _ i h => owner_step h i)
          (owner_start writers t call.predictionId) schedule
      exact howner.winners_done hdone hrow

end Runs

/-- A body of POST /api/labels for `p1`. -/
def sampleReport (label : Bool) : LabelIn where
  predictionId := "p1"
  actualLabel := label.toNat
  occurredAt := 3
  label_le_one := label.toNat_le

/-- The metric of `p1`, and two reports of it that differ. -/
def sampleReporters : Fin 3 → Writer :=
  ![.metric 5 "d1" ⟨"v2", 18, 200, some 1, some "p1", by decide⟩,
    .labels [⟨sampleReport true, 6⟩], .labels [⟨sampleReport false, 7⟩]]

/-- Both reports look the label up before either inserts it. The first to insert is `applied`, and the
    other one's conflict finds the metric of `d1`: its event is the one that is written. -/
theorem first_writer_wins_sample :
    let schedule : List (Fin 3) := [1, 2, 0, 1, 2, 1, 2, 2, 2]
    let c := (sessions sampleReporters .empty).run act schedule
    FirstWriterWins sampleReporters .empty c (lookups sampleReporters .empty schedule) ∧
      (∀ i, c.proc i = .done) ∧
      reported c Report.told 1 = [(⟨sampleReport true, 6⟩, .ok .applied)] ∧
      reported c Report.told 2 =
        [(⟨sampleReport false, 7⟩, .error (.conflict ⟨"p1", 1, 0, some "d1"⟩))] ∧
      c.store.deploymentEvents = [⟨"d1", .labelConflict "p1" 1 0, 7⟩] := by
  intro schedule c
  have hwins := first_writer_wins sampleReporters .empty schedule
  refine ⟨hwins.1, ?_, rfl, rfl, rfl⟩
  intro i
  fin_cases i <;> rfl

end ModelOps
