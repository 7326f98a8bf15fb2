/-
  File:      ModelOps/ControlPlane/Changes.lean
  Subject:   The reachability events of a deployment, over any sequence of
             `record_router_reachability_change` calls with other events between them.

  The call keeps no flag: it asks the deployment's own history whether its last word on the router was
  `router_unreachable`. The events therefore are the NEWS of the reported values (`happen_said`):

  * **`events_are_changes`** -- they alternate, start with `router_unreachable`, are as many as the
    changes of what was reported after an initial "reachable", and end where the reports end.
-/
import ModelOps.ControlPlane.Reachability

namespace ModelOps

open Relational Signal

/-! ## 1. What happens to a deployment -/

/-- The deployment's events about the router's reachability, oldest first. -/
def Db.said (db : Db) (id : String) : List DeploymentEvent :=
  db.deploymentEvents.filter fun e => decide (e.deploymentId = id) && e.body.reachability

/-- An event that says nothing about the router's reachability. -/
structure OtherEvent where
  event : DeploymentEvent
  unrelated : event.body.reachability = false

/-- A call of `record_router_reachability_change` and the time of its event, or another event. -/
inductive Happening where
  | record (now : Time) (deploymentId : String) (reachable : Bool)
  | other (e : OtherEvent)

def Happening.apply (db : Db) : Happening → Db
  | .record now deploymentId reachable => recordRouterReachabilityChange now db deploymentId reachable
  | .other e => db.noted [e.event]

/-- The tables after all of it. -/
def happen (db : Db) (hs : List Happening) : Db := hs.foldl Happening.apply db

/-- What was reported of the router to the deployment. -/
def reports (id : String) (hs : List Happening) : List Bool :=
  hs.filterMap fun
    | .record _ deploymentId reachable => if deploymentId = id then some reachable else none
    | .other _ => none

section Step

variable {db : Db} {id id' : String} {now : Time} {b : Bool}

theorem said_noted (e : DeploymentEvent) :
    (db.noted [e]).said id =
      db.said id ++ if decide (e.deploymentId = id) && e.body.reachability then [e] else [] := by
  unfold Db.said
  rw [noted_events, List.filter_append, List.filter_singleton]
  cases decide (e.deploymentId = id) && e.body.reachability <;> rfl

theorem said_record_ne (h : id' ≠ id) :
    (recordRouterReachabilityChange now db id' b).said id = db.said id := by
  rcases record_cases now db id' b with he | he
  · rw [he]
  · rw [he, said_noted, decide_eq_false h, Bool.false_and]
    simp

/-- **A call adds one event, exactly where it brings news.** -/
theorem said_record :
    (recordRouterReachabilityChange now db id b).said id =
      db.said id ++ if b = (db.seen id).last then [] else [⟨id, reachabilityBody b, now⟩] := by
  have hnews : b ≠ db.wasUnreachable id ↔ b = (db.seen id).last := by
    show b ≠ db.wasUnreachable id ↔ b = !db.wasUnreachable id
    cases b <;> cases db.wasUnreachable id <;> decide
  have hbody : (reachabilityBody b).reachability = true := by cases b <;> rfl
  unfold recordRouterReachabilityChange
  by_cases hb : b = (db.seen id).last
  · rw [if_pos (hnews.mpr hb), if_pos hb, List.append_nil]
  · rw [if_neg (fun h => hb (hnews.mp h)), if_neg hb, said_noted]
    simp [hbody]

/-- Whatever happens, the history only grows. -/
theorem apply_said (db : Db) (id : String) (h : Happening) :
    ∃ added, (h.apply db).said id = db.said id ++ added := by
  cases h with
  | record now deploymentId reachable =>
      by_cases hid : deploymentId = id
      · subst hid
        exact ⟨_, said_record⟩
      · exact ⟨[], by rw [List.append_nil]; exact said_record_ne hid⟩
  | other e => exact ⟨_, said_noted e.event⟩

theorem happen_grown (hs : List Happening) (db : Db) (id : String) :
    ∃ added, (happen db hs).said id = db.said id ++ added := by
  induction hs generalizing db with
  | nil => exact ⟨[], (List.append_nil _).symm⟩
  | cons h hs ih =>
      obtain ⟨first, hfirst⟩ := apply_said db id h
      obtain ⟨rest, hrest⟩ := ih (h.apply db)
      exact ⟨first ++ rest, by rw [← List.append_assoc, ← hfirst]; exact hrest⟩

end Step

/-! ## 2. The history is the news -/

/-- The deployment's reachability events have strictly increasing timestamps. -/
def Rising (db : Db) (id : String) : Prop :=
  (db.said id).Pairwise fun e e' => e.createdAt < e'.createdAt

instance (db : Db) (id : String) : Decidable (Rising db id) :=
  inferInstanceAs (Decidable (List.Pairwise _ _))

/-- An event that is written is newer than all that was said before it. -/
theorem record_newest {db : Db} {id : String} {now : Time} {b : Bool} (hs : List Happening)
    (h : Rising (happen db (.record now id b :: hs)) id) :
    b = (db.seen id).last ∨ ∀ e ∈ db.deploymentEvents, e.deploymentId = id →
      e.body.reachability = true → e.createdAt < now := by
  by_cases hb : b = (db.seen id).last
  · exact Or.inl hb
  · refine Or.inr fun e he hid hr => ?_
    obtain ⟨added, hadded⟩ := happen_grown hs ((Happening.record now id b).apply db) id
    have hrising : Rising (happen ((Happening.record now id b).apply db) hs) id := h
    have hfirst : ((Happening.record now id b).apply db).said id = _ := said_record
    unfold Rising at hrising
    rw [hadded, hfirst, if_neg hb, List.append_assoc, List.pairwise_append] at hrising
    have hmem : e ∈ db.said id := List.mem_filter.mpr ⟨he, by simp [hid, hr]⟩
    exact hrising.2.2 e hmem _ List.mem_cons_self

/-- **What a deployment's history says of the router is the news of what was reported.** -/
theorem happen_said (hs : List Happening) (db : Db) (id : String) (h : Rising (happen db hs) id) :
    ((happen db hs).said id).map (·.body) =
      (db.said id).map (·.body) ++
        (news (db.seen id).last (reports id hs)).map reachabilityBody := by
  induction hs generalizing db with
  | nil => simp [happen, reports, news]
  | cons x hs ih =>
      have hrest : ((happen db (x :: hs)).said id).map (·.body) = _ := ih (x.apply db) h
      rw [hrest]
      cases x with
      | other e =>
          have hunseen : ((Happening.other e).apply db).seen id = db.seen id :=
            noted_seen fun _ => e.unrelated
          have hsaid : ((Happening.other e).apply db).said id = db.said id := by
            rw [Happening.apply, said_noted, e.unrelated, Bool.and_false]
            exact List.append_nil _
          rw [hunseen, hsaid]
          rfl
      | record now id' b =>
          by_cases hid : id' = id
          · subst hid
            have hadded : ((Happening.record now id' b).apply db).said id' = _ := said_record
            have hlast : (((Happening.record now id' b).apply db).seen id').last = b := by
              have hseen : ((Happening.record now id' b).apply db).seen id' = _ :=
                record_seen_newer (record_newest hs h)
              rw [hseen, see_last]
            have hreports : reports id' (.record now id' b :: hs) = b :: reports id' hs := by
              simp [reports]
            rw [hreports, news_cons, hlast, hadded]
            split <;> simp
          · have hunseen : ((Happening.record now id' b).apply db).seen id = db.seen id :=
              record_seen_ne hid
            have hsaid : ((Happening.record now id' b).apply db).said id = db.said id :=
              said_record_ne hid
            have hreports : reports id (.record now id' b :: hs) = reports id hs := by
              simp [reports, hid]
            rw [hunseen, hsaid, hreports]

/-! ## 3. Exactly the changes -/

/-- Of a deployment nobody spoke of yet, the router counts as reachable. -/
theorem seen_fresh {db : Db} {id : String} (h : db.said id = []) : (db.seen id).last = true := by
  have hnone : latestBy DeploymentEvent.createdAt
      (fun e => decide (e.deploymentId = id) && e.body.reachability) db.deploymentEvents = none := by
    refine latestBy_eq_none.mpr fun e he => ?_
    exact Bool.eq_false_iff.mpr (List.filter_eq_nil_iff.mp h e he)
  show (!db.wasUnreachable id) = true
  unfold Db.wasUnreachable
  rw [hnone]
  rfl

theorem reachabilityBody_injective : Function.Injective reachabilityBody := by
  intro b b' h
  revert h
  cases b <;> cases b' <;> decide

theorem reachabilityBody_down {b : Bool} : reachabilityBody b = .routerUnreachable ↔ b = false := by
  cases b <;> decide

/-- **Reachability events record exactly the changes**: over any calls and other events, with the
    deployment's reachability events in the order of their times, these alternate, start with
    `router_unreachable`, are as many as the changes of `true` and then what was reported, and end with
    `router_unreachable` exactly if the last report was "unreachable". -/
theorem events_are_changes (db : Db) (id : String) (hs : List Happening) (hfresh : db.said id = [])
    (hrising : Rising (happen db hs) id) :
    (((happen db hs).said id).map (·.body)).IsChain (· ≠ ·) ∧
      (∀ e ∈ ((happen db hs).said id).head?, e.body = .routerUnreachable) ∧
      ((happen db hs).said id).length = changesIn (true :: reports id hs) ∧
      ((∃ e ∈ ((happen db hs).said id).getLast?, e.body = .routerUnreachable) ↔
        (reports id hs).getLast? = some false) := by
  have hbodies := happen_said hs db id hrising
  rw [hfresh, seen_fresh hfresh, List.map_nil, List.nil_append] at hbodies
  have halternates := news_alternates true (reports id hs)
  have hlast := news_last true (reports id hs)
  have hlength := news_length true (reports id hs)
  refine ⟨?_, ?_, ?_, ?_⟩
  · rw [hbodies]
    refine (List.isChain_map _).mpr (halternates.tail.imp ?_)
    exact fun b b' hne h => hne (reachabilityBody_injective h)
  · intro e he
    -- the first of the news is a change, from "reachable"
    have hhead := congrArg List.head? hbodies
    rw [List.head?_map, Option.mem_def.mp he, List.head?_map] at hhead
    obtain ⟨b, hb, hbody⟩ := Option.map_eq_some_iff.mp hhead.symm
    have hdown : true ≠ b := halternates.rel_head? hb
    exact hbody.symm.trans (reachabilityBody_down.mpr (Bool.eq_false_iff.mpr hdown.symm))
  · rw [← hlength, ← List.length_map (f := (·.body)), hbodies, List.length_map]
  · have hend := congrArg List.getLast? hbodies
    rw [List.getLast?_map, List.getLast?_map] at hend
    rw [← news_last_other (show false ≠ true by decide)]
    constructor
    · rintro ⟨e, he, hbody⟩
      rw [Option.mem_def.mp he] at hend
      obtain ⟨b, hb, hsame⟩ := Option.map_eq_some_iff.mp hend.symm
      rw [hb, reachabilityBody_down.mp (hsame.trans hbody)]
    · intro hdown
      rw [hdown] at hend
      obtain ⟨e, he, hbody⟩ := Option.map_eq_some_iff.mp hend
      exact ⟨e, he, hbody⟩

/-- Down after an unrelated event, still down, and up again. -/
def sampleOutage (other : DeploymentEvent) (h : other.body.reachability = false) : List Happening :=
  [.record 11 "d1" true, .record 12 "d1" false, .other ⟨other, h⟩, .record 14 "d1" false,
    .record 15 "d1" true, .record 16 "d1" false]

/-- A deployment just created: three changes, the last of them down. -/
theorem events_are_changes_outage :
    ((happen sampleCreated (sampleOutage ⟨"d1", .routerReconciled none 0 "d1" 1, 13⟩ (@rfl Bool false))).said
        "d1").length = 3 := by
  have h := (events_are_changes sampleCreated "d1"
    (sampleOutage ⟨"d1", .routerReconciled none 0 "d1" 1, 13⟩ (@rfl Bool false)) (by decide +kernel)
    (by decide +kernel)).2.2.1
  exact h

end ModelOps
