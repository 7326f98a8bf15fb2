/-
  File:      ModelOps/Dashboard/Page.lean
  Subject:   The deployment page over the control plane: what it shows while answers overtake each other.

  The page reads the deployment when it opens and again on every `refetch` (`useAsync`, lib/useAsync.ts);
  the clean-up of an effect drops the answer of the request before. Requests are served among the calls of
  everybody, a click's own action among them.

  * `Newer` -- what a later read may show: the same row, or a later version of one that was not settled;
  * **`page_never_back`** -- the page never goes back to an older version;
  * **`page_shows_action`** -- a refetch behind an action shows that action, or what has come after it.
-/
import ModelOps.Lib.LatestWins
import ModelOps.System.Rollouts

namespace ModelOps

open Relational Labelled LatestWins

/-! ## 1. Reads -/

/-- What `request` (lib/api.ts) throws. -/
inductive ApiError where
  /-- the status is 0 -/
  | unreachable
  | refused (e : ServiceError)

/-- The row that GET /api/deployments/{id} answers with. -/
def Tables.getDeployment (id : String) (t : Tables) : Except ApiError Deployment :=
  match t.db.deployment? id with
  | some d => .ok d
  | none => .error (.refused (.deploymentNotFound id))

/-- The row of a deployment as it may be read later. -/
def Newer (d d' : Deployment) : Prop := d' = d ∨ d.Open ∧ d.versionId < d'.versionId

/-- The row is there, and no older than `d`. -/
def KnownRow (id : String) (t : Tables) (d : Deployment) : Prop :=
  ∃ d', t.db.deployment? id = some d' ∧ Newer d d'

section Reads

variable {d d' d'' : Deployment} {t : Tables} {id : String}

theorem Newer.trans (h : Newer d d') (h' : Newer d' d'') : Newer d d'' := by
  rcases h with rfl | ⟨ho, hlt⟩
  · exact h'
  · rcases h' with rfl | ⟨_, hlt'⟩
    · exact Or.inr ⟨ho, hlt⟩
    · exact Or.inr ⟨ho, hlt.trans hlt'⟩

/-- What is settled stays as it is. -/
theorem Newer.settled (h : Newer d d') (hd : ¬d.Open) : d' = d := h.resolve_right fun h => hd h.1

/-- **A call leaves a row as it is, or makes it a later version.** -/
theorem call_newer (c : ApiCall) (hd : t.db.deployment? id = some d) :
    ∃ d', (c.exec t).db.deployment? id = some d' ∧ Newer d d' := by
  obtain ⟨rfl, hd⟩ := found hd
  rcases call_cases c t with ⟨env, req, rfl⟩ | ⟨events, he, _⟩
  · rcases exec_turns env req hd with ⟨hd', _⟩ | ⟨row, split, events, hturn, hid, hdb⟩
    · exact ⟨d, hd', Or.inl rfl⟩
    · refine ⟨row, ?_, Or.inr ⟨hturn.amends.was_open, ?_⟩⟩
      · show (req.exec env t.db).2.deployment? d.id = some row
        rw [hdb, applied_deployment?, if_pos hid.symm]
      · rw [hturn.amends.versionId_eq]
        exact Nat.lt_succ_self _
  · exact ⟨d, by rw [he]; exact hd, Or.inl rfl⟩

theorem read_row {d : Deployment} (h : t.getDeployment id = .ok d) : t.db.deployment? id = some d := by
  unfold Tables.getDeployment at h
  split at h
  · rename_i d' hd'
    rw [hd', Except.ok.inj h]
  · cases h

/-- **Reads of one deployment age.** -/
theorem rows_age (id : String) :
    Ages (fun t c => ApiCall.exec c t) (Tables.getDeployment id) (KnownRow id) Newer where
  refl _ := Or.inl rfl
  reads h := ⟨_, read_row h, Or.inl rfl⟩
  steps c h := by
    obtain ⟨d', hd', hnewer⟩ := h
    obtain ⟨d'', hd'', hnewer'⟩ := call_newer c hd'
    exact ⟨d'', hd'', hnewer.trans hnewer'⟩
  newer h hread := by
    obtain ⟨d', hd', hnewer⟩ := h
    rw [read_row hread] at hd'
    cases hd'
    exact hnewer

end Reads

/-! ## 2. The page -/

/-- The page of a deployment over the tables. -/
abbrev Page := Reader Tables Deployment ApiError

/-- `DeploymentDetailPage`, among the calls of everybody. -/
abbrev Page.next (id : String) : Page → LatestWins.Label ApiCall ApiError → Option Page :=
  LatestWins.next (fun t c => ApiCall.exec c t) (Tables.getDeployment id)

/-- **The page never goes back**: whatever is called meanwhile, however often it refetches, and in
    whatever order requests are served, fail and are answered, a row it shows after another is the same
    row or a later version of one that was not settled. -/
theorem page_never_back (id : String) (t : Tables) (ls ls' : List (LatestWins.Label ApiCall ApiError))
    (x x' : Page) (hrun : run (Page.next id) (.start t) ls = some x)
    (hrun' : run (Page.next id) x ls' = some x') (d d' : Deployment) (hd : x.shown = some d)
    (hd' : x'.shown = some d') : Newer d d' :=
  never_back (rows_age id) hrun hrun' hd hd'

/-- **A refetch behind an action shows it**: once everything that was under way has arrived, the page shows
    the row the action left, or a later version of it; a row that the action settled is shown as it is. -/
theorem page_shows_action (id : String) (t : Tables)
    (ls between ls' : List (LatestWins.Label ApiCall ApiError)) (x x' : Page)
    (hrun : run (Page.next id) (.start t) ls = some x) (c : ApiCall) (d : Deployment)
    (hleft : (c.exec x.server).db.deployment? id = some d)
    (hrun' : run (Page.next id) x (.server c :: between ++ .rerun :: ls') = some x')
    (hpending : x'.pending = []) (hanswers : x'.answers = []) (d' : Deployment)
    (hd' : x'.shown = some d') : Newer d d' ∧ (¬d.Open → d' = d) := by
  have hnewer : Newer d d' := by
    rw [run_append] at hrun'
    obtain ⟨x2, hx2, hrest⟩ := Option.bind_eq_some_iff.mp hrun'
    have hbetween : run (Page.next id) { x with server := c.exec x.server } between = some x2 := hx2
    -- the action has committed before its answer starts the refetch
    have hknown : KnownRow id x2.server d :=
      run_inv (I := fun y : Page => KnownRow id y.server d) (fun _ _ _ h hn => known_step (rows_age id) h hn)
        ⟨d, hleft, Or.inl rfl⟩ hbetween
    have hwhole : run (Page.next id) (.start t) (ls ++ (.server c :: between)) = some x2 := by
      rw [run_append, hrun]
      exact hx2
    exact reads_own (rows_age id) hwhole hknown hrest hpending hanswers hd'
  exact ⟨hnewer, hnewer.settled⟩

/-- Two reads overtake each other: the first is served before a promotion, and answered last. -/
def sampleReads : List (LatestWins.Label ApiCall ApiError) :=
  [.serve 0, .server (.lifecycle (Env.after 10 "unused") (.promote "d1" .manual)), .rerun, .serve 1,
    .deliver 1, .deliver 0]

/-- The promotion stays on the page. -/
theorem page_never_back_sample :
    ∃ x x' : Page, ∃ d d', x.shown = some d ∧ d.status = .promoted ∧ x'.shown = some d' ∧ Newer d d' := by
  have hfirst : ((run (Page.next "d1") (.start (Tables.empty.after (sampleHistory.take 1)))
      (sampleReads.take 5)).bind fun x => (run (Page.next "d1") x (sampleReads.drop 5)).bind fun x' =>
        x.shown.bind fun d => x'.shown.map fun d' => (d.status, d'.status)) =
      some (.promoted, .promoted) := by decide +kernel
  obtain ⟨x, hx, h⟩ := Option.bind_eq_some_iff.mp hfirst
  obtain ⟨x', hx', h⟩ := Option.bind_eq_some_iff.mp h
  obtain ⟨d, hd, h⟩ := Option.bind_eq_some_iff.mp h
  obtain ⟨d', hd', h⟩ := Option.map_eq_some_iff.mp h
  exact ⟨x, x', d, d', hd, (Prod.mk.inj h).1, hd', page_never_back "d1" _ _ _ x x' hx hx' d d' hd hd'⟩

theorem page_shows_action_sample :
    ∃ x' : Page, ∃ d d', d.status = .promoted ∧ x'.shown = some d' ∧ d' = d := by
  let action := ApiCall.lifecycle (Env.after 10 "unused") (.promote "d1" .manual)
  have hend : ((run (Page.next "d1") (.start (Tables.empty.after (sampleHistory.take 1)))
      [.serve 0]).bind fun x => ((action.exec x.server).db.deployment? "d1").bind fun d =>
        (run (Page.next "d1") x (sampleReads.drop 1)).bind fun x' => x'.shown.map fun d' =>
          (d.status, x'.pending, x'.answers.length)) = some (.promoted, [], 0) := by decide +kernel
  obtain ⟨x, hx, h⟩ := Option.bind_eq_some_iff.mp hend
  obtain ⟨d, hd, h⟩ := Option.bind_eq_some_iff.mp h
  obtain ⟨x', hx', h⟩ := Option.bind_eq_some_iff.mp h
  obtain ⟨d', hd', h⟩ := Option.map_eq_some_iff.mp h
  simp only [Prod.mk.injEq, List.length_eq_zero_iff] at h
  obtain ⟨hstatus, hpending, hanswers⟩ := h
  have hshows := page_shows_action "d1" _ [.serve 0] [] [.serve 1, .deliver 1, .deliver 0] x x' hx action
    d hd hx' hpending hanswers d' hd'
  have hsettled : ¬d.Open := by
    unfold Deployment.Open
    rw [hstatus]
    decide
  exact ⟨x', d, d', hstatus, hd', hshows.2 hsettled⟩

end ModelOps
