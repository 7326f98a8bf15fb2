/-
  File:      ModelOps/Worker/Pace.lean
  Subject:   How fast a worker can promote: a promotion is earned stage by stage, a window each.

  Nobody else advances or promotes. What a promotion still takes (`Rollout.ahead`) falls only by actions
  of the worker that follow a PASS, by one each; a promotion itself counts for one, since the worker
  promotes only a canary that has all the traffic.

  * `worker_cases` -- what a step of the worker does to the rollouts, to its task and to the diary;
  * `ahead_run` -- every stage is paid for by an action of its own;
  * **`promotion_paced`** -- so a promotion takes as many windows as there were stages left.
-/
import ModelOps.Lib.Sorting
import ModelOps.System.Rollouts
import ModelOps.Worker.Fleet
import ModelOps.Worker.Spacing

namespace ModelOps

open Relational Labelled Refinement

/-! ## 1. What a promotion takes -/

/-- The stages above, and the promotion. -/
def Rollout.ahead (r : Rollout) : Nat :=
  match r.phase with
  | .running share | .frozen share => stagesAbove share + 1
  | .promoted => 0
  -- it takes another rollout
  | .rolledBack => TRAFFIC_STAGES.length + 1

/-- The moves that bring a promotion nearer. -/
def Move.forward : Move → Bool
  | .advance | .promote => true
  | .cycle | .rollback | .hold _ => false

/-- While it is open, all the traffic is the canary's. -/
def Rollout.Full (r : Rollout) : Prop :=
  ∀ share, r.phase = .running share ∨ r.phase = .frozen share → share = 1

section Ahead

variable {r r' : Rollout} {m : Move} {db : Db} {d : Deployment} {share stage : ℚ}

theorem ahead_le (r : Rollout) : r.ahead ≤ TRAFFIC_STAGES.length + 1 := by
  unfold Rollout.ahead
  cases r.phase with
  | running share | frozen share => exact Nat.succ_le_succ (stagesAbove_le share)
  | promoted => exact Nat.zero_le _
  | rolledBack => exact Nat.le_refl _

theorem stageAbove_least (h : stageAbove share = some stage) {s : ℚ} (hs : s ∈ TRAFFIC_STAGES)
    (hlt : share < s) : stage ≤ s := by
  obtain ⟨_, before, after, hsplit, hbefore⟩ := List.find?_eq_some_iff_append.mp h
  have hsorted := stages_sorted
  rw [hsplit] at hsorted hs
  rcases List.mem_append.mp hs with hs | hs
  · -- the stages before it were passed over
    have hno := hbefore s hs
    rw [decide_eq_true hlt] at hno
    cases hno
  · rcases List.mem_cons.mp hs with rfl | hs
    · exact le_refl s
    · have htail := (List.pairwise_append.mp hsorted).2.1
      exact le_of_lt ((List.pairwise_cons.mp htail).1 s hs)

/-- Only one stage is left behind by an advance. -/
theorem stagesAbove_step (h : stageAbove share = some stage) :
    stagesAbove share ≤ stagesAbove stage + 1 := by
  have hall : ∀ s ∈ TRAFFIC_STAGES,
      stagesAbove s + 1 = TRAFFIC_STAGES.countP fun s' => decide (s ≤ s') := by decide +kernel
  rw [hall stage (stageAbove_mem h).1]
  refine List.countP_mono_left fun s hs hlt => ?_
  exact decide_eq_true (stageAbove_least h hs (of_decide_eq_true hlt))

/-- **A move forward brings a promotion nearer by one**, and no other move does. -/
theorem ahead_proceed (hfull : m = .promote → r.Full) :
    r.ahead ≤ (proceed Rollout.next r m).ahead + m.forward.toNat := by
  cases hn : r.next m with
  | none =>
      rw [proceed_disabled hn]
      exact Nat.le_add_right _ _
  | some r' =>
      rw [proceed_enabled hn]
      cases m with
      | advance =>
          simp only [Rollout.next] at hn
          split at hn
          · rename_i share hp
            obtain ⟨stage, hs, rfl⟩ := Option.map_eq_some_iff.mp hn
            have hstep := stagesAbove_step hs
            simpa only [Rollout.ahead, hp, Move.forward, Bool.toNat_true] using
              Nat.succ_le_succ hstep
          all_goals cases hn
      | cycle =>
          simp only [Rollout.next] at hn
          split at hn
          · rename_i share hp
            split at hn
            · cases hn
              simp [Rollout.ahead, hp]
            · cases hn
              simp [Rollout.ahead, hp]
          all_goals cases hn
      | promote =>
          have hfull := hfull rfl
          have hone : stagesAbove 1 = 0 := by decide +kernel
          simp only [Rollout.next] at hn
          split at hn
          · rename_i ho
            cases hn
            cases hp : r.phase with
            | running share =>
                simp [Rollout.ahead, hp, Move.forward, hfull share (Or.inl hp), hone]
            | frozen share =>
                simp [Rollout.ahead, hp, Move.forward, hfull share (Or.inr hp), hone]
            | promoted => rw [hp] at ho; cases ho
            | rolledBack => rw [hp] at ho; cases ho
          · cases hn
      | rollback =>
          simp only [Rollout.next] at hn
          split at hn
          · cases hn
            exact Nat.le_trans (ahead_le r) (Nat.le_add_right _ _)
          · cases hn
      | hold paused =>
          simp only [Rollout.next] at hn
          split at hn
          · cases hn
            exact Nat.le_add_right _ _
          · cases hn

/-- The share a promote of the worker finds. -/
theorem full_of_shows (hs : Shows db d r) (hsh : Shape db d)
    (hfull : d.Open → db.canaryWeight d = 1) : r.Full := by
  intro share hp
  have hphase := hs.phase
  have hopen : r.phase.open = true := by rcases hp with hp | hp <;> rw [hp] <;> rfl
  have hone := hfull ((shows_open hs hsh).mp hopen)
  rcases hsh.status_cases with hst | hst | hst | hst <;> rw [hst] at hphase <;>
    rcases hp with hp | hp <;> rw [hp] at hphase <;> cases hphase
  · exact hone
  · exact hone

end Ahead

/-! ## 2. One step of the worker -/

section Steps

variable {w w' : WorkerState} {l : WorkerLabel} {g g' : Diary} {id : String} {r : Rollout}

theorem follows_none {db : Db} {old task : Option Task} (h : task = none) :
    ∀ t ∈ task, Task.Follows db old t := by
  intro t ht
  rw [h] at ht
  cases ht

theorem recorded_nil (t : Tables) : t.recorded [] = t := by
  unfold Tables.recorded
  rw [List.append_nil]

/-- **What a step of the worker does**: it records at most rows of an evaluation and goes on with its task,
    or it is a call of somebody else, or its action. -/
theorem worker_cases (h : WorkerState.next w l = some w') :
    (∃ rows, w'.tables = w.tables.recorded rows ∧ (∀ t ∈ w'.task, Task.Follows w.tables.db w.task t) ∧
      ∀ g, (Diary.note w l g).deeds = g.deeds) ∨
    (∃ c, l = .call c ∧ w' = { w with tables := c.exec w.tables }) ∨
    ∃ env answered id action, l = .act env answered ∧ w.task = some (.decided id action) ∧
      w' = { w with
        tables := (ApiCall.lifecycle env (action.request id)).exec w.tables, task := none } := by
  cases l with
  | call c =>
      cases h
      exact Or.inr (Or.inl ⟨c, rfl, rfl⟩)
  | act env answered =>
      simp only [WorkerState.next] at h
      split at h
      · rename_i id action ht
        cases h
        exact Or.inr (Or.inr ⟨env, answered, id, action, rfl, ht, rfl⟩)
      · cases h
  | list =>
      simp only [WorkerState.next] at h
      split at h
      · cases h
      · cases h
        exact Or.inl ⟨[], (recorded_nil _).symm, follows_none rfl, fun _ => rfl⟩
  | fetch =>
      simp only [WorkerState.next] at h
      split at h
      · rename_i id rest ht hr
        split at h
        · rename_i out hout
          split at h
          · cases h
            refine Or.inl ⟨[], (recorded_nil _).symm, fun t htask => ?_, fun _ => rfl⟩
            cases htask
            rw [ht]
            exact .fetched hout
          · cases h
            exact Or.inl ⟨[], (recorded_nil _).symm, follows_none ht, fun _ => rfl⟩
        · cases h
          exact Or.inl ⟨[], (recorded_nil _).symm, follows_none ht, fun _ => rfl⟩
      · cases h
  | checkDue now default =>
      simp only [WorkerState.next] at h
      split at h
      · rename_i out hfetched
        split at h
        · cases h
          refine Or.inl ⟨[], (recorded_nil _).symm, fun t htask => ?_, fun _ => rfl⟩
          cases htask
          rw [hfetched]
          exact .due out
        · cases h
          exact Or.inl ⟨[], (recorded_nil _).symm, follows_none rfl, fun _ => rfl⟩
      · cases h
  | evaluate env answered =>
      have hdeeds : ∀ g, (Diary.note w (.evaluate env answered) g).deeds = g.deeds := by
        intro g
        unfold Diary.note
        split
        · rename_i hl _
          split <;> rfl
        · rename_i hl _
          cases hl
        · rfl
      simp only [WorkerState.next] at h
      split at h
      · rename_i out hdue
        rcases evaluate_cases env (workerEvaluate out.deployment.id) w.tables with
          ⟨e, hexec⟩ | ⟨d, hd, ha, hexec⟩
        · rw [hexec] at h
          cases h
          exact Or.inl ⟨[], (recorded_nil _).symm, follows_none rfl, hdeeds⟩
        · rw [hexec] at h
          cases h
          refine Or.inl ⟨_, rfl, fun t htask => ?_, hdeeds⟩
          cases answered with
          | false => cases htask
          | true =>
              cases htask
              rw [hdue]
              exact .decided out _
      · cases h
  | raise =>
      simp only [WorkerState.next] at h
      split at h
      · cases h
        exact Or.inl ⟨[], (recorded_nil _).symm, follows_none rfl, fun _ => rfl⟩
      · rename_i ht hr
        cases h
        exact Or.inl ⟨[], (recorded_nil _).symm, follows_none ht, fun _ => rfl⟩
      · cases h
  | crash =>
      cases h
      exact Or.inl ⟨[], (recorded_nil _).symm, follows_none rfl, fun _ => rfl⟩
  | finish =>
      simp only [WorkerState.next] at h
      split at h
      · split at h
        · rename_i ht _ _
          cases h
          exact Or.inl ⟨[], (recorded_nil _).symm, follows_none ht, fun _ => rfl⟩
        · cases h
      · cases h

/-- The rows have their shape, and the worker's task is backed. -/
structure Grounded (w : WorkerState) : Prop where
  shaped : Schema w.tables.db ∧ Shaped w.tables.db
  backed : ∀ t ∈ w.task, t.Backed w.tables.db

theorem grounded_start : Grounded { tables := .empty } where
  shaped := ⟨schema_empty, shaped_empty⟩
  backed _ ht := nomatch ht

theorem backed_call {t : Task} {tables : Tables} (c : ApiCall) (hsh : Shaped tables.db)
    (h : t.Backed tables.db) : t.Backed (c.exec tables).db := by
  rcases call_cases c tables with ⟨env, req, rfl⟩ | ⟨events, he, _⟩
  · exact backed_exec env req hsh h
  · rw [he]
    cases t with
    | fetched out => exact h
    | due out => exact h
    | decided id action => cases action <;> exact h

theorem grounded_step (h : Grounded w) (hn : WorkerState.next w l = some w') : Grounded w' := by
  rcases worker_cases hn with ⟨rows, hrows, hfollows, _⟩ | ⟨c, _, rfl⟩ |
    ⟨env, _, id, action, _, _, rfl⟩
  · refine ⟨by rw [hrows]; exact h.shaped, fun t ht => ?_⟩
    rw [hrows]
    exact follows_backed (hfollows t ht) h.shaped.2 h.backed
  · exact ⟨after_shaped [c] h.shaped, fun t ht => backed_call c h.shaped.2 (h.backed t ht)⟩
  · refine ⟨after_shaped [.lifecycle env (action.request id)] h.shaped, fun t ht => ?_⟩
    cases ht

/-- An action of the worker on `id` that follows a PASS. -/
def Deed.passes (id : String) (deed : Deed) : Bool :=
  decide (deed.deploymentId = id) && decide (deed.action.verdict = .pass)

def Diary.passes (g : Diary) (id : String) : Nat := g.deeds.countP (Deed.passes id)

theorem action_forward (action : WorkerAction) :
    action.move.forward = decide (action.verdict = .pass) := by
  cases action <;> rfl

/-- What others ask for brings no promotion of `id` nearer. -/
def WorkerLabel.Aside (id : String) (l : WorkerLabel) : Prop :=
  ∀ c, l = .call c → ∀ m, c.move id = some m → m.forward = false

/-- **What a step does to one rollout**: nothing, or a move; and a move forward is an action behind a PASS,
    a promotion one that finds the canary with all the traffic. -/
theorem move_step (h : Grounded w) (hr : w.tables.db.rollout? id = some r) (hl : l.Aside id)
    (hn : WorkerState.next w l = some w') :
    (w'.tables.db.rollout? id = some r ∧ (Diary.note w l g).passes id = g.passes id) ∨
    ∃ m, w'.tables.db.rollout? id = some (proceed Rollout.next r m) ∧
      (Diary.note w l g).passes id = g.passes id + m.forward.toNat ∧ (m = .promote → r.Full) := by
  rcases worker_cases hn with ⟨rows, hrows, _, hdeeds⟩ | ⟨c, rfl, rfl⟩ |
    ⟨env, answered, id', action, rfl, htask, rfl⟩
  · refine Or.inl ⟨by rw [hrows]; exact hr, ?_⟩
    unfold Diary.passes
    rw [hdeeds g]
  · cases hm : c.move id with
    | none => exact Or.inl ⟨(history_refines id).stutters h.shaped hr hm, rfl⟩
    | some m =>
        have hforward := hl c rfl m hm
        refine Or.inr ⟨m, (history_refines id).moves h.shaped hr hm, ?_, ?_⟩
        · rw [hforward]
          rfl
        · rintro rfl
          cases hforward
  · let c := ApiCall.lifecycle env (action.request id')
    have hmove : c.move id = if id' = id then some action.move else none := action_move action id id'
    have hpasses : (Diary.note w (.act env answered) g).passes id =
        g.passes id + (Deed.passes id ⟨id', action, g.judged.length - 1⟩).toNat := by
      simp only [Diary.note, htask, Diary.passes, Diary.act, List.countP_append, List.countP_singleton]
      cases Deed.passes id ⟨id', action, g.judged.length - 1⟩ <;> rfl
    rw [hpasses]
    by_cases hid : id' = id
    · subst hid
      rw [if_pos rfl] at hmove
      refine Or.inr ⟨_, (history_refines id').moves h.shaped hr hmove, ?_, ?_⟩
      · rw [action_forward]
        simp [Deed.passes]
      · intro hpromote
        cases action with
        | promote =>
            obtain ⟨d, hd, hs⟩ := rollout?_eq_some.mp hr
            obtain ⟨d', hd', hone⟩ := h.backed _ htask
            rw [hd] at hd'
            cases hd'
            exact full_of_shows hs (h.shaped.2 d (deployment?_eq_some.mp hd).1) hone
        | advanceTraffic => cases hpromote
        | rollback => cases hpromote
        | recordInconclusive => cases hpromote
    · rw [if_neg hid] at hmove
      refine Or.inl ⟨(history_refines id).stutters h.shaped hr hmove, ?_⟩
      simp [Deed.passes, hid]

/-- **What a step takes off the way ahead, an action behind a PASS has paid for.** -/
theorem ahead_step (h : Grounded w) (hr : w.tables.db.rollout? id = some r) (hl : l.Aside id)
    (hn : WorkerState.next w l = some w') :
    ∃ r', w'.tables.db.rollout? id = some r' ∧
      r.ahead + g.passes id ≤ r'.ahead + (Diary.note w l g).passes id := by
  rcases move_step (g := g) h hr hl hn with ⟨hr', hpasses⟩ | ⟨m, hr', hpasses, hfull⟩
  · exact ⟨r, hr', Nat.le_of_eq (congrArg _ hpasses.symm)⟩
  · have hpaid := ahead_proceed hfull
    exact ⟨_, hr', by omega⟩

end Steps

/-! ## 3. Every run -/

section Run

variable {x x' : WorkerState × Diary} {id : String} {r : Rollout}

theorem deeds_grow {l : WorkerLabel} (hn : WorkerState.recorded x l = some x') :
    x.2.deeds <+: x'.2.deeds := by
  obtain ⟨hn, hg⟩ := observed_eq_some.mp hn
  rw [hg]
  rcases worker_cases hn with ⟨_, _, _, hdeeds⟩ | ⟨c, rfl, _⟩ | ⟨env, answered, id, action, rfl, htask, _⟩
  · rw [hdeeds]
  · exact List.prefix_rfl
  · simp only [Diary.note, htask]
    exact List.prefix_append _ _

/-- **A run pays for what a promotion takes**, with as many actions behind a PASS. -/
theorem ahead_run (ls : List WorkerLabel) (hls : ∀ l ∈ ls, l.Aside id) (h : Grounded x.1)
    (hr : x.1.tables.db.rollout? id = some r) (hrun : run WorkerState.recorded x ls = some x') :
    ∃ r', x'.1.tables.db.rollout? id = some r' ∧ x.2.deeds <+: x'.2.deeds ∧
      r.ahead + x.2.passes id ≤ r'.ahead + x'.2.passes id := by
  induction ls generalizing x r with
  | nil =>
      cases hrun
      exact ⟨r, hr, List.prefix_rfl, Nat.le_refl _⟩
  | cons l ls ih =>
      rw [run_cons] at hrun
      cases hn : WorkerState.recorded x l with
      | none =>
          rw [hn] at hrun
          cases hrun
      | some x1 =>
          rw [hn] at hrun
          obtain ⟨hnext, hg⟩ := observed_eq_some.mp hn
          obtain ⟨r1, hr1, hpaid⟩ := ahead_step (g := x.2) h hr (hls l List.mem_cons_self) hnext
          rw [← hg] at hpaid
          obtain ⟨r', hr', hgrown, hpaid'⟩ := ih (fun l' hl' => hls l' (List.mem_cons_of_mem l hl'))
            (grounded_step h hnext) hr1 hrun
          exact ⟨r', hr', (deeds_grow hn).trans hgrown, hpaid.trans hpaid'⟩

/-- The new actions behind a PASS, as far as a promotion has taken them. -/
theorem passes_new (id : String) (k : Nat) (hgrown : x.2.deeds <+: x'.2.deeds)
    (h : x.2.passes id + (k + 1) ≤ x'.2.passes id) :
    ∃ first rest, (first :: rest).Sublist (x'.2.deeds.drop x.2.deeds.length) ∧ rest.length = k ∧
      ∀ deed ∈ first :: rest, deed.deploymentId = id ∧ deed.action.verdict = .pass := by
  obtain ⟨new, hnew⟩ := hgrown
  have hdrop : x'.2.deeds.drop x.2.deeds.length = new := by rw [← hnew, List.drop_left]
  have hcount : k + 1 ≤ (new.filter (Deed.passes id)).length := by
    unfold Diary.passes at h
    rw [← hnew, List.countP_append] at h
    rw [← List.countP_eq_length_filter]
    omega
  rw [hdrop]
  cases htake : (new.filter (Deed.passes id)).take (k + 1) with
  | nil =>
      have hlength := congrArg List.length htake
      rw [List.length_take, List.length_nil] at hlength
      omega
  | cons first rest =>
      have hsub : (first :: rest).Sublist (new.filter (Deed.passes id)) :=
        htake ▸ List.take_sublist _ _
      refine ⟨first, rest, hsub.trans List.filter_sublist, ?_, ?_⟩
      · have hlength := congrArg List.length htake
        rw [List.length_take, List.length_cons] at hlength
        omega
      · intro deed hdeed
        have hpasses := (List.mem_filter.mp (hsub.subset hdeed)).2
        simpa [Deed.passes] using hpasses

/-- **A rollout that a run takes from a share to its promotion has paid for it**: one action behind a PASS for
    every stage above, and one more. -/
theorem passes_paid (ls ls' : List WorkerLabel)
    (hrun : run WorkerState.recorded ({ tables := .empty }, {}) ls = some x)
    (hrun' : run WorkerState.recorded x ls' = some x') (hls : ∀ l ∈ ls', l.Aside id) (share : ℚ)
    (hshare : (x.1.tables.db.rollout? id).map Rollout.phase = some (.running share))
    (hpromoted : (x'.1.tables.db.rollout? id).map Rollout.phase = some .promoted) :
    ∃ first rest, (first :: rest).Sublist (x'.2.deeds.drop x.2.deeds.length) ∧
      rest.length = stagesAbove share ∧
      ∀ deed ∈ first :: rest, deed.deploymentId = id ∧ deed.action.verdict = .pass := by
  obtain ⟨r, hr, hphase⟩ := Option.map_eq_some_iff.mp hshare
  obtain ⟨r', hr', hphase'⟩ := Option.map_eq_some_iff.mp hpromoted
  have hgrounded : Grounded x.1 := run_inv (I := fun x : WorkerState × Diary => Grounded x.1)
    (fun _ _ _ h hn => grounded_step h (observed_eq_some.mp hn).1) grounded_start hrun
  obtain ⟨r'', hr'', hgrown, hpaid⟩ := ahead_run ls' hls hgrounded hr hrun'
  rw [hr'] at hr''
  cases hr''
  have hahead : r.ahead = stagesAbove share + 1 := by
    unfold Rollout.ahead
    rw [hphase]
  have hdone : r'.ahead = 0 := by
    unfold Rollout.ahead
    rw [hphase']
  exact passes_new id (stagesAbove share) hgrown (by omega)

/-- What the actions on one deployment have been waiting for. -/
theorem OnePerWindow.paced (h : OnePerWindow x) {first : Deed} {rest : List Deed}
    (hsub : (first :: rest).Sublist x.2.deeds)
    (hid : ∀ deed ∈ first :: rest, deed.deploymentId = id) {d : Deployment} {p : PolicyConfig}
    (hd : x.1.tables.db.deployment? id = some d) (hp : d.policyConfig = some p) :
    ∀ last ∈ rest.getLast?, ∀ j j', x.2.judged[first.basis]? = some j →
      x.2.judged[last.basis]? = some j' → ∀ τ ∈ j.evaluatedAt, ∀ τ' ∈ j'.evaluatedAt,
        τ + rest.length * (p.evaluationWindowSeconds * 10 ^ 6) ≤ τ' := by
  intro last hlast j j' hj hj' τ hτ τ' hτ'
  refine Sorting.gaps_add_up (fun deed τ => ∃ j, x.2.judged[deed.basis]? = some j ∧
    τ ∈ j.evaluatedAt) ?_ ?_ hlast ⟨j, hj, hτ⟩ ⟨j', hj', hτ'⟩
  · refine (h.spaced.sublist hsub).imp_of_mem ?_
    rintro deed deed' hdeed hdeed' hspaced σ σ' ⟨k, hk, hσ⟩ ⟨k', hk', hσ'⟩
    have hsame := hid deed hdeed
    exact hspaced (hsame.trans (hid deed' hdeed').symm) d p (hsame ▸ hd) hp k k' hk hk' σ hσ σ' hσ'
  · intro deed hdeed
    obtain ⟨k, hk, _, hne⟩ := h.own deed (hsub.subset (List.mem_cons_of_mem first hdeed))
    obtain ⟨σ, hσ⟩ := List.exists_mem_of_ne_nil _ hne
    exact ⟨σ, k, hk, hσ⟩

/-- **A promotion is earned stage by stage**: where nobody else advances or promotes it, a rollout that a
    run takes from a share to its promotion was taken there by actions of the worker, one for every stage
    above that share and one more; each follows a PASS of its own, no two of them the same evaluation, and
    from the first of these evaluations to the last, a window has passed for every stage. -/
theorem promotion_paced (ls ls' : List WorkerLabel) (hclock : ClockMonotone (ls ++ ls'))
    (x x' : WorkerState × Diary)
    (hrun : run WorkerState.recorded ({ tables := .empty }, {}) ls = some x)
    (hrun' : run WorkerState.recorded x ls' = some x') (id : String) (hls : ∀ l ∈ ls', l.Aside id)
    (share : ℚ)
    (hshare : (x.1.tables.db.rollout? id).map Rollout.phase = some (.running share))
    (hpromoted : (x'.1.tables.db.rollout? id).map Rollout.phase = some .promoted) :
    ∃ first rest, (first :: rest).Sublist (x'.2.deeds.drop x.2.deeds.length) ∧
      rest.length = stagesAbove share ∧
      (∀ deed ∈ first :: rest, deed.deploymentId = id ∧ deed.action.verdict = .pass ∧
        ∃ j, x'.2.judged[deed.basis]? = some j ∧ j.Warrants id deed.action ∧ j.evaluatedAt ≠ []) ∧
      ((first :: rest).Pairwise fun deed deed' => deed.basis < deed'.basis) ∧
      ∃ d p, x'.1.tables.db.deployment? id = some d ∧ d.policyConfig = some p ∧
        ∀ last ∈ rest.getLast?, ∀ j j', x'.2.judged[first.basis]? = some j →
          x'.2.judged[last.basis]? = some j' → ∀ τ ∈ j.evaluatedAt, ∀ τ' ∈ j'.evaluatedAt,
            τ + rest.length * (p.evaluationWindowSeconds * 10 ^ 6) ≤ τ' := by
  obtain ⟨first, rest, hsub, hlength, hpasses⟩ :=
    passes_paid ls ls' hrun hrun' hls share hshare hpromoted
  -- and its payments are spaced
  have hwhole : run WorkerState.recorded ({ tables := .empty }, {}) (ls ++ ls') = some x' := by
    rw [run_append, hrun]
    exact hrun'
  have hstart : SpacedOut [] ({ tables := .empty }, {}) := spacing_start
  have hspaced : OnePerWindow x' := spacing_onePerWindow (spacing_run (ls ++ ls') hstart
    (fun _ hτ => (List.not_mem_nil hτ).elim) hclock hwhole)
  have hin : (first :: rest).Sublist x'.2.deeds := hsub.trans (List.drop_sublist _ _)
  obtain ⟨r', hr', _⟩ := Option.map_eq_some_iff.mp hpromoted
  obtain ⟨d, hd, hs⟩ := rollout?_eq_some.mp hr'
  obtain ⟨p, hp, _⟩ := hs.policy
  refine ⟨first, rest, hsub, hlength, ?_, hspaced.once.sublist hin, d, p, hd, hp, ?_⟩
  · intro deed hdeed
    obtain ⟨hid, hverdict⟩ := hpasses deed hdeed
    obtain ⟨j, hj, hwarrants, hne⟩ := hspaced.own deed (hin.subset hdeed)
    exact ⟨hid, hverdict, j, hj, hid ▸ hwarrants, hne⟩
  · exact hspaced.paced hin (fun deed hdeed => (hpasses deed hdeed).1) hd hp

end Run

/-- A rollout that begins at three fifths, judged every two seconds by one request and one label. -/
def sampleShort : CreateDeploymentRequest :=
  { sampleCreate "fraud-model" with
    canaryWeight := 3 / 5
    policyConfig := some { samplePolicy with
      minimumRequests := 1, evaluationWindowSeconds := 2, labelMaturitySeconds := 0
      minimumLabeledSamples := 1, minimumPositiveLabels := 1
      window_pos := by decide }
    weight_nonneg := by decide +kernel
    weight_le_one := by decide +kernel
    weight_proper := by decide +kernel }

/-- A request of each version, the canary's a fraud that it found; then a sweep. -/
def sampleRound (now : Time) (predictionId : String) : List WorkerLabel :=
  [.call (.recordMetric now "d1" (sampleMetric "v1" 200)),
    .call (.recordMetric now "d1" { sampleMetric "v2" 200 with
      prediction := some 1, predictionId := some predictionId }),
    .call (.ingestLabel now ⟨predictionId, 1, now, le_refl 1⟩),
    .list, .fetch, .checkDue now 300, sampleVerdict now, .act (Env.after (now + 10) "unused") true,
    .finish]

theorem sampleRound_aside (now : Time) (predictionId : String) :
    ∀ l ∈ sampleRound now predictionId, l.Aside "d1" := by
  intro l hl c hc m hm
  subst hc
  simp only [sampleRound, sampleVerdict, List.mem_cons, WorkerLabel.call.injEq, List.not_mem_nil,
    or_false, reduceCtorEq] at hl
  rcases hl with rfl | rfl | rfl <;> cases hm

/-- The rollout, and the two sweeps that take it to its promotion. -/
def sampleBegin : List WorkerLabel :=
  [.call (.lifecycle (Env.after 0 "d1") (.create sampleShort none))]

def sampleSweepTwice : List WorkerLabel := sampleRound 20 "p1" ++ sampleRound 3000000 "p2"

theorem sampleSweepTwice_run : ∃ x x' : WorkerState × Diary,
    run WorkerState.recorded ({ tables := .empty }, {}) sampleBegin = some x ∧
      run WorkerState.recorded x sampleSweepTwice = some x' ∧
      (x.1.tables.db.rollout? "d1").map Rollout.phase = some (.running (3 / 5)) ∧
      (x'.1.tables.db.rollout? "d1").map Rollout.phase = some .promoted ∧
      x.2.deeds.length = 0 ∧ x'.2.deeds.length = 2 ∧
      ((x'.1.tables.db.deployment? "d1").bind Deployment.policyConfig).map
        (fun p => [p.evaluationWindowSeconds, p.minimumRequests]) = some [2, 1] := by
  have hend : ((run WorkerState.recorded ({ tables := .empty }, {}) sampleBegin).bind fun x =>
      (run WorkerState.recorded x sampleSweepTwice).map fun x' =>
        ((x.1.tables.db.rollout? "d1").map Rollout.phase,
          (x'.1.tables.db.rollout? "d1").map Rollout.phase, x.2.deeds.length, x'.2.deeds.length,
          ((x'.1.tables.db.deployment? "d1").bind Deployment.policyConfig).map
            fun p => [p.evaluationWindowSeconds, p.minimumRequests])) =
      some (some (.running (3 / 5)), some .promoted, 0, 2, some [2, 1]) := by decide +kernel
  obtain ⟨x, hx, hend⟩ := Option.bind_eq_some_iff.mp hend
  obtain ⟨x', hx', hend⟩ := Option.map_eq_some_iff.mp hend
  simp only [Prod.mk.injEq] at hend
  exact ⟨x, x', hx, hx', hend⟩

theorem sampleSweepTwice_clock : ClockMonotone (sampleBegin ++ sampleSweepTwice) := by
  unfold ClockMonotone
  decide

theorem sampleSweepTwice_aside : ∀ l ∈ sampleSweepTwice, l.Aside "d1" := fun l hl =>
  (List.mem_append.mp hl).elim (sampleRound_aside 20 "p1" l) (sampleRound_aside 3000000 "p2" l)

/-- Two sweeps take it to its promotion, two seconds apart. -/
theorem promotion_paced_sample :
    ∃ x' : WorkerState × Diary, ∃ first last, x'.2.deeds = [first, last] ∧
      ∀ j j', x'.2.judged[first.basis]? = some j → x'.2.judged[last.basis]? = some j' →
        ∀ τ ∈ j.evaluatedAt, ∀ τ' ∈ j'.evaluatedAt, τ + 1 * (2 * 10 ^ 6) ≤ τ' := by
  obtain ⟨x, x', hx, hx', hshare, hpromoted, hnone, htwo, hconfig⟩ := sampleSweepTwice_run
  obtain ⟨first, rest, hsub, hlength, _, _, d, p, hd, hp, hpaced⟩ := promotion_paced sampleBegin
    sampleSweepTwice sampleSweepTwice_clock x x' hx hx' "d1" sampleSweepTwice_aside (3 / 5) hshare hpromoted
  have hone : rest.length = 1 := hlength.trans (by decide +kernel)
  obtain ⟨last, rfl⟩ := List.length_eq_one_iff.mp hone
  rw [hnone, List.drop_zero] at hsub
  rw [hd, Option.bind_some, hp] at hconfig
  obtain ⟨hwindow, _⟩ := List.cons.inj (Option.some.inj hconfig)
  refine ⟨x', first, last, (hsub.eq_of_length htwo.symm).symm, fun j j' hj hj' τ hτ τ' hτ' => ?_⟩
  have hgap := hpaced last rfl j j' hj hj' τ hτ τ' hτ'
  rw [hwindow] at hgap
  exact hgap

end ModelOps
