/-
  File:      ModelOps/Lib/Transition.lean
  Subject:   LABELLED TRANSITION SYSTEMS given by a partial step function, and their runs.

  `next s l` is the state after a step with label `l`, `none` where `l` is not enabled in `s`.
  The label carries what the environment decides, so a run is a list of labels.

  * `run` -- the state after a list of labels, `none` if one of them was not enabled; `run_append`
    and `run_idle` take a run apart;
  * `Along P` -- `P s l s'` holds at every step a list of labels takes;
  * `run_inv`, `run_inv_along`, `along_of_inv` -- what one step preserves, a run preserves, also
    where each step may assume a condition that holds along the run;
  * `along_run` -- the same for a step lemma that says both what is preserved and what the step does;
  * `observed` -- the system with an observer beside it, who notes every step and disturbs none.
-/
import Mathlib.Tactic.Common

namespace Labelled

variable {σ ℓ : Type}

/-- The state after the labels `ls`. -/
def run (next : σ → ℓ → Option σ) : σ → List ℓ → Option σ
  | s, [] => some s
  | s, l :: ls => (next s l).bind fun s' => run next s' ls

/-- `P` holds at every step that `ls` takes from `s`. -/
def Along (next : σ → ℓ → Option σ) (P : σ → ℓ → σ → Prop) : σ → List ℓ → Prop
  | _, [] => True
  | s, l :: ls => ∀ s', next s l = some s' → P s l s' ∧ Along next P s' ls

instance decidableAlong (next : σ → ℓ → Option σ) (P : σ → ℓ → σ → Prop)
    [∀ s l s', Decidable (P s l s')] : ∀ (s : σ) (ls : List ℓ), Decidable (Along next P s ls)
  | _, [] => isTrue trivial
  | s, l :: ls =>
      match h : next s l with
      | none => isTrue fun s' hs => by
          rw [h] at hs
          cases hs
      | some t =>
          have : Decidable (Along next P t ls) := decidableAlong next P t ls
          decidable_of_iff (P s l t ∧ Along next P t ls)
            ⟨fun hp s' hs => by
              rw [h] at hs
              cases hs
              exact hp, fun hp => hp t h⟩

variable {next : σ → ℓ → Option σ} {I : σ → Prop} {P Q : σ → ℓ → σ → Prop}

theorem run_cons (s : σ) (l : ℓ) (ls : List ℓ) :
    run next s (l :: ls) = (next s l).bind fun s' => run next s' ls := rfl

theorem run_append (s : σ) (ls ls' : List ℓ) :
    run next s (ls ++ ls') = (run next s ls).bind fun s' => run next s' ls' := by
  induction ls generalizing s with
  | nil => rfl
  | cons l ls ih =>
      rw [List.cons_append, run_cons, run_cons]
      cases next s l with
      | none => rfl
      | some t => exact ih t

/-- Labels that change nothing. -/
theorem run_idle {ls : List ℓ} (h : ∀ l ∈ ls, ∀ s, next s l = some s) (s : σ) :
    run next s ls = some s := by
  induction ls with
  | nil => rfl
  | cons l ls ih =>
      rw [run_cons, h l List.mem_cons_self]
      exact ih fun l' hl' => h l' (List.mem_cons_of_mem l hl')

/-- **What each step preserves along the run, the run preserves.** -/
theorem run_inv_along (hstep : ∀ s l s', I s → P s l s' → next s l = some s' → I s') :
    ∀ {s s' : σ} {ls : List ℓ}, I s → Along next P s ls → run next s ls = some s' → I s'
  | s, s', [], h0, _, hr => by
      cases hr
      exact h0
  | s, s', l :: ls, h0, hP, hr => by
      rw [run_cons] at hr
      cases hn : next s l with
      | none => rw [hn] at hr; cases hr
      | some t =>
          rw [hn] at hr
          obtain ⟨hp, hrest⟩ := hP t hn
          exact run_inv_along hstep (hstep s l t h0 hp hn) hrest hr

theorem along_true : ∀ (s : σ) (ls : List ℓ), Along next (fun _ _ _ => True) s ls
  | _, [] => trivial
  | _, _ :: ls => fun s' _ => ⟨trivial, along_true s' ls⟩

/-- **What every step preserves, every run preserves.** -/
theorem run_inv (hstep : ∀ s l s', I s → next s l = some s' → I s') {s s' : σ} {ls : List ℓ}
    (h0 : I s) (hr : run next s ls = some s') : I s' :=
  run_inv_along (P := fun _ _ _ => True) (fun s l s' h _ hn => hstep s l s' h hn) h0
    (along_true s ls) hr

/-- An invariant turns a condition on the steps of a run into a property of its steps. -/
theorem along_of_inv (hstep : ∀ s l s', I s → P s l s' → next s l = some s' → I s')
    (hQ : ∀ s l s', I s → P s l s' → next s l = some s' → Q s l s') :
    ∀ {s : σ} {ls : List ℓ}, I s → Along next P s ls → Along next Q s ls
  | _, [], _, _ => trivial
  | s, l :: _, h0, hP => fun t hn =>
      ⟨hQ s l t h0 (hP t hn).1 hn,
        along_of_inv hstep hQ (hstep s l t h0 (hP t hn).1 hn) (hP t hn).2⟩

/-- **The run lemma of a step lemma.** -/
theorem along_run {s : σ} {ls : List ℓ} (hP : Along next P s ls) (h0 : I s)
    (hstep : ∀ {s l s'}, I s → P s l s' → next s l = some s' → I s' ∧ Q s l s') :
    Along next Q s ls ∧ ∀ s', run next s ls = some s' → I s' := by
  have hkeep : ∀ s l s', I s → P s l s' → next s l = some s' → I s' :=
    fun s l s' hi hp hn => (hstep hi hp hn).1
  have hdoes : ∀ s l s', I s → P s l s' → next s l = some s' → Q s l s' :=
    fun s l s' hi hp hn => (hstep hi hp hn).2
  exact ⟨along_of_inv hkeep hdoes h0 hP, fun s' hr => run_inv_along hkeep h0 hP hr⟩

/-- The system, and what an observer has noted of its steps. -/
def observed {γ : Type} (next : σ → ℓ → Option σ) (note : σ → ℓ → γ → γ) (x : σ × γ) (l : ℓ) :
    Option (σ × γ) :=
  (next x.1 l).map fun s' => (s', note x.1 l x.2)

theorem observed_eq_some {γ : Type} {note : σ → ℓ → γ → γ} {x x' : σ × γ} {l : ℓ} :
    observed next note x l = some x' ↔ next x.1 l = some x'.1 ∧ x'.2 = note x.1 l x.2 := by
  unfold observed
  rw [Option.map_eq_some_iff]
  constructor
  · rintro ⟨s', hs, rfl⟩
    exact ⟨hs, rfl⟩
  · rintro ⟨hs, hg⟩
    exact ⟨x'.1, hs, by rw [← hg]⟩

end Labelled
