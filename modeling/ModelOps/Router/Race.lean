/-
  File:      ModelOps/Router/Race.lean
  Subject:   Concurrent calls of PUT /router/config.

  `put_config` reads the store, decides, and writes the store: two locked operations with nothing
  that keeps another call out between them. `Race.next` is one of those operations of one call.

  * `Overtakes` -- a call writes while another one, of a smaller revision, stands between its read
    and its write;
  * `doomed_stays` -- the call that was overtaken keeps its decision, so it ends by writing an older
    revision over a newer one;
  * **`put_race_iff`** -- the store never goes back and ends with the greatest revision accepted,
    exactly in the runs in which no call overtakes another.
-/
import ModelOps.Lib.Transition
import ModelOps.Router.Config
import Mathlib.Order.Bounds.Basic

namespace ModelOps

open Labelled

/-! ## 1. Calls -/

/-- Where a call of `put_config` stands. -/
inductive Call where
  /-- before its `store.get` -/
  | called
  /-- it was not refused: its `store.set` is next -/
  | checked
  | answered (statusCode : Nat)
  deriving DecidableEq, Repr

/-- The router's store, and the calls. -/
structure Race (ι : Type) where
  config : RouterConfig
  call : ι → Call

section Calls

variable {ι : Type} [DecidableEq ι]

def Race.start (initial : RouterConfig) : Race ι := ⟨initial, fun _ => .called⟩

def Race.set (r : Race ι) (i : ι) (c : Call) : Race ι :=
  { r with call := Function.update r.call i c }

@[simp] theorem race_set_config (r : Race ι) (i : ι) (c : Call) : (r.set i c).config = r.config := rfl

@[simp] theorem race_set_self (r : Race ι) (i : ι) (c : Call) : (r.set i c).call i = c := by
  simp [Race.set]

theorem race_set_ne (r : Race ι) {i j : ι} (c : Call) (h : j ≠ i) :
    (r.set i c).call j = r.call j := by
  simp [Race.set, h]

/-- The next operation on the store of call `i`, which puts `calls i`. -/
def Race.next (s : RouterSettings) (calls : ι → RouterConfig) (r : Race ι) (i : ι) :
    Option (Race ι) :=
  match r.call i with
  | .called =>
      match putCheck s (calls i) r.config with
      | .ok () => some (r.set i .checked)
      | .error e => some (r.set i (.answered e.statusCode))
  | .checked => some { r.set i (.answered 200) with config := calls i }
  | .answered _ => none

/-- The store did not go back. -/
def Forward (r : Race ι) (_ : ι) (r' : Race ι) : Prop := r.config.revision ≤ r'.config.revision

/-- Call `i` writes while a call of a smaller revision stands between its read and its write. -/
def Overtakes (calls : ι → RouterConfig) (r : Race ι) (i : ι) : Prop :=
  r.call i = .checked ∧ ∃ j, j ≠ i ∧ r.call j = .checked ∧ (calls j).revision < (calls i).revision

/-- The revisions the store may end with: the first one, and those answered 200. -/
def Accepted (calls : ι → RouterConfig) (initial : RouterConfig) (r : Race ι) : Set Int :=
  {n | n = initial.revision ∨ ∃ i, r.call i = .answered 200 ∧ n = (calls i).revision}

variable {s : RouterSettings} {calls : ι → RouterConfig} {r r' : Race ι} {i : ι}
  {initial : RouterConfig}

/-- **The three steps of a call.** -/
theorem next_cases (h : Race.next s calls r i = some r') :
    (r.call i = .called ∧ ¬Stale (calls i) r.config ∧ r' = r.set i .checked) ∨
    (r.call i = .called ∧ ∃ e : PutError, r' = r.set i (.answered e.statusCode)) ∨
    (r.call i = .checked ∧ r' = { r.set i (.answered 200) with config := calls i }) := by
  unfold Race.next at h
  cases hc : r.call i with
  | called =>
      rw [hc] at h
      cases hp : putCheck s (calls i) r.config with
      | ok u =>
          simp only [hp] at h
          exact Or.inl ⟨rfl, (putCheck_ok.mp hp).2, (Option.some.inj h).symm⟩
      | error e =>
          simp only [hp] at h
          exact Or.inr (Or.inl ⟨rfl, e, (Option.some.inj h).symm⟩)
  | checked =>
      rw [hc] at h
      exact Or.inr (Or.inr ⟨rfl, (Option.some.inj h).symm⟩)
  | answered n =>
      rw [hc] at h
      cases h

theorem statusCode_ne (e : PutError) : e.statusCode ≠ 200 := by
  cases e <;> simp [PutError.statusCode]

/-! ## 2. Runs without overtaking -/

/-- What holds while no call overtakes another. -/
structure Ordered (calls : ι → RouterConfig) (initial : RouterConfig) (r : Race ι) : Prop where
  model : r.config.modelName = initial.modelName
  below : ∀ i, r.call i = .checked → r.config.revision ≤ (calls i).revision
  greatest : IsGreatest (Accepted calls initial r) r.config.revision

omit [DecidableEq ι] in
theorem ordered_start : Ordered calls initial (Race.start initial) where
  model := rfl
  below i h := by cases h
  greatest := by
    refine ⟨Or.inl rfl, ?_⟩
    rintro n (rfl | ⟨i, hi, _⟩)
    · exact le_refl _
    · cases hi

/-- A call that is answered otherwise than by 200, or not yet, adds no revision. -/
theorem accepted_set (h : r.call i ≠ .answered 200) {c : Call} (hc : c ≠ .answered 200) :
    Accepted calls initial (r.set i c) = Accepted calls initial r := by
  ext n
  constructor
  · rintro (h' | ⟨j, hj, hn⟩)
    · exact Or.inl h'
    · by_cases hji : j = i
      · subst hji
        rw [race_set_self] at hj
        exact absurd hj hc
      · rw [race_set_ne r c hji] at hj
        exact Or.inr ⟨j, hj, hn⟩
  · rintro (h' | ⟨j, hj, hn⟩)
    · exact Or.inl h'
    · have hji : j ≠ i := by
        rintro rfl
        exact h hj
      exact Or.inr ⟨j, (race_set_ne r c hji).trans hj, hn⟩

/-- **A step that does not overtake keeps the order and moves forward.** -/
theorem ordered_step (hmodel : ∀ i, (calls i).modelName = initial.modelName)
    (h : Ordered calls initial r) (hno : ¬Overtakes calls r i)
    (hs : Race.next s calls r i = some r') : Ordered calls initial r' ∧ Forward r i r' := by
  have hbelow : ∀ c, c ≠ .checked → ∀ j, (r.set i c).call j = .checked →
      r.config.revision ≤ (calls j).revision := by
    intro c hc j hj
    by_cases hji : j = i
    · subst hji
      rw [race_set_self] at hj
      exact absurd hj hc
    · rw [race_set_ne r c hji] at hj
      exact h.below j hj
  rcases next_cases hs with ⟨hc, hfresh, rfl⟩ | ⟨hc, e, rfl⟩ | ⟨hc, rfl⟩
  · refine ⟨⟨h.model, ?_, ?_⟩, le_refl _⟩
    · intro j hj
      by_cases hji : j = i
      · subst hji
        -- the check read this very config
        by_contra hlt
        refine hfresh ⟨(hmodel j).trans h.model.symm, ?_⟩
        rw [race_set_config] at hlt
        omega
      · rw [race_set_ne r _ hji] at hj
        exact h.below j hj
    · rw [race_set_config, accepted_set (by rw [hc]; decide) (by decide)]
      exact h.greatest
  · refine ⟨⟨h.model, ?_, ?_⟩, le_refl _⟩
    · exact hbelow _ (by simp)
    · rw [race_set_config, accepted_set (by rw [hc]; decide) (by simp [statusCode_ne])]
      exact h.greatest
  · have hle : r.config.revision ≤ (calls i).revision := h.below i hc
    refine ⟨⟨hmodel i, ?_, Or.inr ⟨i, race_set_self r i _, rfl⟩, ?_⟩, hle⟩
    · intro j hj
      have hji : j ≠ i := by
        rintro rfl
        rw [race_set_self] at hj
        cases hj
      have hj' : r.call j = .checked := (race_set_ne r _ hji).symm.trans hj
      by_contra hlt
      exact hno ⟨hc, j, hji, hj', by
        have : ¬(calls i).revision ≤ (calls j).revision := hlt
        omega⟩
    · rintro n (rfl | ⟨j, hj, rfl⟩)
      · exact (h.greatest.2 (Or.inl rfl)).trans hle
      · by_cases hji : j = i
        · subst hji
          exact le_refl _
        · have hj' : r.call j = .answered 200 := (race_set_ne r _ hji).symm.trans hj
          exact (h.greatest.2 (Or.inr ⟨j, hj', rfl⟩)).trans hle

/-! ## 3. Runs with overtaking -/

/-- Call `i` decided to write a revision older than the one the store holds now. -/
def Doomed (calls : ι → RouterConfig) (i : ι) (r : Race ι) : Prop :=
  r.call i = .checked ∧ (calls i).revision < r.config.revision

/-- While the store does not go back, the decision stays and is not carried out. -/
theorem doomed_stays {j : ι} (h : Doomed calls i r) (hf : Forward r j r')
    (hs : Race.next s calls r j = some r') : Doomed calls i r' := by
  obtain ⟨hc, hlt⟩ := h
  have hji : j ≠ i := by
    rintro rfl
    rcases next_cases hs with ⟨hc', _⟩ | ⟨hc', _⟩ | ⟨_, rfl⟩
    · rw [hc] at hc'
      cases hc'
    · rw [hc] at hc'
      cases hc'
    · have hle : r.config.revision ≤ (calls j).revision := hf
      omega
  have hstay : ∀ c, (r.set j c).call i = .checked := fun c =>
    (race_set_ne r c (Ne.symm hji)).trans hc
  refine ⟨?_, lt_of_lt_of_le hlt hf⟩
  rcases next_cases hs with ⟨_, _, rfl⟩ | ⟨_, _, rfl⟩ | ⟨_, rfl⟩
  · exact hstay _
  · exact hstay _
  · exact hstay _

theorem overtaken_doomed (ho : Overtakes calls r i) (hs : Race.next s calls r i = some r') :
    ∃ j, Doomed calls j r' := by
  obtain ⟨hc, j, hji, hj, hlt⟩ := ho
  rcases next_cases hs with ⟨hc', _⟩ | ⟨hc', _⟩ | ⟨_, rfl⟩
  · rw [hc] at hc'
    cases hc'
  · rw [hc] at hc'
    cases hc'
  · exact ⟨j, (race_set_ne r _ hji).trans hj, hlt⟩

/-- If every call returns and the store never goes back, no call overtook another. -/
theorem forward_no_overtake : ∀ {schedule : List ι} {r t : Race ι},
    run (Race.next s calls) r schedule = some t → (∀ i, ∃ n, t.call i = .answered n) →
    Along (Race.next s calls) Forward r schedule →
    Along (Race.next s calls) (fun r i _ => ¬Overtakes calls r i) r schedule
  | [], _, _, _, _, _ => trivial
  | i :: l, r, t, hrun, hall, hf => by
      intro r' hs
      obtain ⟨_, hrest⟩ := hf r' hs
      have hrun' : run (Race.next s calls) r' l = some t := by
        rw [run_cons, hs] at hrun
        exact hrun
      refine ⟨?_, forward_no_overtake hrun' hall hrest⟩
      intro ho
      obtain ⟨j, hd⟩ := overtaken_doomed ho hs
      have hkeep : ∀ r k r', Doomed calls j r → Forward r k r' →
          Race.next s calls r k = some r' → Doomed calls j r' :=
        fun _ _ _ hd hf hs => doomed_stays hd hf hs
      have hend : Doomed calls j t := run_inv_along hkeep hd hrest hrun'
      obtain ⟨n, hn⟩ := hall j
      rw [hend.1] at hn
      cases hn

/-! ## 4. The race -/

/-- **Concurrent PUTs of one model**: in a run in which every call returns, the store's revision
    never decreases and ends as the greatest of the first one and those answered 200, if and only if
    no call writes while one of a smaller revision stands between its read and its write. -/
theorem put_race_iff (s : RouterSettings) (calls : ι → RouterConfig) (initial : RouterConfig)
    (hmodel : ∀ i, (calls i).modelName = initial.modelName) (schedule : List ι) (t : Race ι)
    (hrun : run (Race.next s calls) (Race.start initial) schedule = some t)
    (hall : ∀ i, ∃ n, t.call i = .answered n) :
    (Along (Race.next s calls) Forward (Race.start initial) schedule ∧
      IsGreatest (Accepted calls initial t) t.config.revision) ↔
    Along (Race.next s calls) (fun r i _ => ¬Overtakes calls r i) (Race.start initial) schedule := by
  constructor
  · intro h
    exact forward_no_overtake hrun hall h.1
  · intro h
    obtain ⟨hforward, hend⟩ := along_run h ordered_start (ordered_step hmodel)
    exact ⟨hforward, (hend t hrun).greatest⟩

end Calls

/-- Two calls, of revisions 2 and 3. -/
def sampleCalls (i : Fin 2) : RouterConfig := sampleConfig (i.val + 2)

/-- One after the other. -/
theorem put_race_iff_sample :
    ∃ t, run (Race.next sampleRouter sampleCalls) (Race.start (sampleConfig 1)) [0, 0, 1, 1] = some t ∧
      ((Along (Race.next sampleRouter sampleCalls) Forward (Race.start (sampleConfig 1))
          [0, 0, 1, 1] ∧
        IsGreatest (Accepted sampleCalls (sampleConfig 1) t) t.config.revision) ↔
      Along (Race.next sampleRouter sampleCalls) (fun r i _ => ¬Overtakes sampleCalls r i)
        (Race.start (sampleConfig 1)) [0, 0, 1, 1]) := by
  have hsome : (run (Race.next sampleRouter sampleCalls) (Race.start (sampleConfig 1))
      [0, 0, 1, 1]).isSome = true := by decide +kernel
  have hdone : (run (Race.next sampleRouter sampleCalls) (Race.start (sampleConfig 1))
      [0, 0, 1, 1]).map (fun t => (t.call 0, t.call 1)) =
        some (.answered 200, .answered 200) := by decide +kernel
  obtain ⟨t, ht⟩ := Option.isSome_iff_exists.mp hsome
  refine ⟨t, ht, put_race_iff sampleRouter sampleCalls (sampleConfig 1) (fun _ => rfl) _ t ht ?_⟩
  rw [ht] at hdone
  simp only [Option.map_some, Option.some.injEq, Prod.mk.injEq] at hdone
  intro i
  fin_cases i
  · exact ⟨200, hdone.1⟩
  · exact ⟨200, hdone.2⟩

/-- **A lost race**: the call of revision 2 reads first and writes last. -/
theorem put_race_lost :
    ¬∀ (schedule : List (Fin 2)) (t : Race (Fin 2)),
      run (Race.next sampleRouter sampleCalls) (Race.start (sampleConfig 1)) schedule = some t →
      (∀ i, ∃ n, t.call i = .answered n) →
      Along (Race.next sampleRouter sampleCalls) Forward (Race.start (sampleConfig 1)) schedule ∧
        IsGreatest (Accepted sampleCalls (sampleConfig 1) t) t.config.revision := by
  intro h
  have hsome : (run (Race.next sampleRouter sampleCalls) (Race.start (sampleConfig 1))
      [0, 1, 1, 0]).isSome = true := by decide +kernel
  have hdone : (run (Race.next sampleRouter sampleCalls) (Race.start (sampleConfig 1))
      [0, 1, 1, 0]).map (fun t => (t.call 0, t.call 1, t.config.revision)) =
        some (.answered 200, .answered 200, 2) := by decide +kernel
  obtain ⟨t, ht⟩ := Option.isSome_iff_exists.mp hsome
  rw [ht] at hdone
  simp only [Option.map_some, Option.some.injEq, Prod.mk.injEq] at hdone
  obtain ⟨h0, h1, hrev⟩ := hdone
  have hall : ∀ i, ∃ n, t.call i = .answered n := by
    intro i
    fin_cases i
    · exact ⟨200, h0⟩
    · exact ⟨200, h1⟩
  have hle : (3 : Int) ≤ t.config.revision := (h _ t ht hall).2.2 (Or.inr ⟨1, h1, rfl⟩)
  omega

end ModelOps
