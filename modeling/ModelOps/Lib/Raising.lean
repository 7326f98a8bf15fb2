/-
  File:      ModelOps/Lib/Raising.lean
  Subject:   STATEMENTS THAT MAY RAISE, over a state: sequences, `try`/`finally`, and handlers that
             swallow an exception.

  * `Stmt` -- what a statement raises, if anything, and the state it leaves;
  * `perform`, `attempt` -- a single effect that happens, does not happen, or happens and raises all the
    same;
  * `block`, `tryFinally`, `swallow` -- the constructs, with an equation for each way they go;
  * **`keeps_block`**, **`keeps_tryFinally`** -- what every statement keeps holds wherever it is left;
  * `performs_returns` -- a sequence of effects ends normally exactly if each of them does;
  * `raisesOnly_block` -- a sequence raises what its statements raise.
-/
import Mathlib.Tactic.Common

namespace Raising

variable {ε σ : Type}

/-! ## 1. Statements -/

/-- What is raised, if anything, and the state that is left. -/
abbrev Stmt (ε σ : Type) := σ → Option ε × σ

/-- How a single effect ends: an exception comes before it has taken place or after. -/
inductive Ending (ε : Type) where
  | returns
  | raises (e : ε) (applied : Bool)
  deriving DecidableEq

/-- The effect takes place. -/
def Ending.applies : Ending ε → Bool
  | .returns => true
  | .raises _ applied => applied

@[simp] theorem applies_returns : (Ending.returns : Ending ε).applies = true := rfl

@[simp] theorem applies_raises (e : ε) (applied : Bool) :
    (Ending.raises e applied).applies = applied := rfl

def Ending.raised : Ending ε → Option ε
  | .returns => none
  | .raises e _ => some e

def Ending.map {ε' : Type} (f : ε' → ε) : Ending ε' → Ending ε
  | .returns => .returns
  | .raises e applied => .raises (f e) applied

/-- One effect. -/
def perform (ending : Ending ε) (effect : σ → σ) : Stmt ε σ := fun s =>
  (ending.raised, if ending.applies then effect s else s)

/-- One effect that raises `e` where it raises. -/
def attempt (e : ε) (ending : Ending Unit) (effect : σ → σ) : Stmt ε σ :=
  perform (ending.map fun _ => e) effect

/-- One statement after the other, up to the first that raises. -/
def block : List (Stmt ε σ) → Stmt ε σ
  | [] => fun s => (none, s)
  | p :: ps => fun s =>
      match (p s).1 with
      | none => block ps (p s).2
      | some e => (some e, (p s).2)

/-- `finally`: runs in any case; an exception of its own replaces that of the body. -/
def tryFinally (body final : Stmt ε σ) : Stmt ε σ := fun s =>
  ((final (body s).2).1 <|> (body s).1, (final (body s).2).2)

/-- A handler of some exceptions that does nothing. -/
def swallow (caught : ε → Bool) (body : Stmt ε σ) : Stmt ε σ := fun s =>
  ((body s).1.filter fun e => !caught e, (body s).2)

/-! ## 2. The ways they go -/

section Ways

variable {p body final : Stmt ε σ} {ps qs : List (Stmt ε σ)} {s : σ} {e : ε} {ending : Ending ε}
  {effect : σ → σ} {caught : ε → Bool}

@[simp] theorem perform_state :
    (perform ending effect s).2 = if ending.applies then effect s else s := rfl

theorem raised_eq_none : ending.raised = none ↔ ending = .returns := by
  cases ending <;> simp [Ending.raised]

theorem perform_returns : (perform ending effect s).1 = none ↔ ending = .returns := raised_eq_none

@[simp] theorem attempt_state {ending : Ending Unit} :
    (attempt e ending effect s).2 = if ending.applies then effect s else s := by
  cases ending <;> rfl

theorem attempt_returns {ending : Ending Unit} :
    (attempt e ending effect s).1 = none ↔ ending = .returns := by
  cases ending <;> simp [attempt, perform, Ending.map, Ending.raised]

@[simp] theorem block_nil : block ([] : List (Stmt ε σ)) s = (none, s) := rfl

theorem block_cons_returns (h : (p s).1 = none) : block (p :: ps) s = block ps (p s).2 := by
  unfold block
  rw [h]
  cases ps <;> rfl

theorem block_cons_raises (h : (p s).1 = some e) : block (p :: ps) s = (some e, (p s).2) := by
  unfold block
  rw [h]

/-- A sequence ends normally exactly if its first statement does and then the others do. -/
theorem block_cons_ends :
    (block (p :: ps) s).1 = none ↔ (p s).1 = none ∧ (block ps (p s).2).1 = none := by
  cases h : (p s).1 with
  | none => simp [block_cons_returns h]
  | some e => simp [block_cons_raises h]

/-- What a sequence raises, one of its statements does, and those before it end normally. -/
theorem block_cons_raised (h : (block (p :: ps) s).1 = some e) :
    (p s).1 = some e ∨ (p s).1 = none ∧ (block ps (p s).2).1 = some e := by
  cases hp : (p s).1 with
  | none => exact Or.inr ⟨rfl, by rwa [block_cons_returns hp] at h⟩
  | some e' => exact Or.inl (by rwa [block_cons_raises hp] at h)

theorem block_cons_state :
    (block (p :: ps) s).2 = if (p s).1 = none then (block ps (p s).2).2 else (p s).2 := by
  cases h : (p s).1 with
  | none => simp [block_cons_returns h]
  | some e => simp [block_cons_raises h]

@[simp] theorem block_single_state : (block [p] s).2 = (p s).2 := by
  rw [block_cons_state]
  split <;> rfl

@[simp] theorem tryFinally_state : (tryFinally body final s).2 = (final (body s).2).2 := rfl

@[simp] theorem swallow_state : (swallow caught body s).2 = (body s).2 := rfl

theorem swallow_returns :
    (swallow caught body s).1 = none ↔ ∀ e, (body s).1 = some e → caught e = true := by
  unfold swallow
  cases (body s).1 with
  | none => simp
  | some e => simp [Option.filter]

/-- **A sequence of effects ends normally exactly if each of them does.** -/
theorem performs_returns {α : Type} {ending : α → Ending ε} {effect : α → σ → σ} {l : List α} :
    (block (l.map fun a => perform (ending a) (effect a)) s).1 = none ↔
      ∀ a ∈ l, ending a = .returns := by
  induction l generalizing s with
  | nil => simp
  | cons a l ih =>
      rw [List.map_cons, List.forall_mem_cons]
      cases ha : ending a with
      | returns =>
          have hp : (perform (ending a) (effect a) s).1 = none := perform_returns.mpr ha
          rw [← ha, block_cons_returns hp, ih]
          simp [ha]
      | raises e applied =>
          have hp : (perform (.raises e applied) (effect a) s).1 = some e := rfl
          rw [block_cons_raises hp]
          simp

end Ways

/-! ## 3. What holds wherever a statement is left -/

/-- The statement keeps an assertion, whether it ends normally or raises. -/
def Keeps (I : σ → Prop) (p : Stmt ε σ) : Prop := ∀ s, I s → I (p s).2

section Keeping

variable {I : σ → Prop} {p body final : Stmt ε σ} {ps : List (Stmt ε σ)} {ending : Ending ε}
  {effect : σ → σ} {caught : ε → Bool}

theorem keeps_perform (h : ∀ s, I s → I (effect s)) : Keeps I (perform ending effect) := by
  intro s hs
  rw [perform_state]
  split
  · exact h s hs
  · exact hs

theorem keeps_attempt {e : ε} {ending : Ending Unit} (h : ∀ s, I s → I (effect s)) :
    Keeps I (attempt e ending effect) := keeps_perform h

theorem keeps_nil : Keeps I (block ([] : List (Stmt ε σ))) := fun _ hs => hs

theorem keeps_cons (hp : Keeps I p) (hps : Keeps I (block ps)) : Keeps I (block (p :: ps)) := by
  intro s hs
  rw [block_cons_state]
  split
  · exact hps _ (hp s hs)
  · exact hp s hs

theorem keeps_block (h : ∀ p ∈ ps, Keeps I p) : Keeps I (block ps) := by
  induction ps with
  | nil => exact keeps_nil
  | cons p ps ih =>
      obtain ⟨hp, hps⟩ := List.forall_mem_cons.mp h
      exact keeps_cons hp (ih hps)

theorem keeps_tryFinally (hbody : Keeps I body) (hfinal : Keeps I final) :
    Keeps I (tryFinally body final) := fun s hs => hfinal _ (hbody s hs)

theorem keeps_swallow (h : Keeps I body) : Keeps I (swallow caught body) := h

end Keeping

/-! ## 4. What a statement may raise -/

/-- Whatever the statement raises is so. -/
def RaisesOnly (P : ε → Prop) (p : Stmt ε σ) : Prop := ∀ s e, (p s).1 = some e → P e

section Raised

variable {P : ε → Prop} {ps : List (Stmt ε σ)} {e : ε} {effect : σ → σ}

theorem raisesOnly_attempt {ending : Ending Unit} (h : P e) :
    RaisesOnly P (attempt e ending effect : Stmt ε σ) := by
  intro s e' he
  cases ending with
  | returns => cases he
  | raises _ applied =>
      cases he
      exact h

/-- **A sequence raises what its statements raise.** -/
theorem raisesOnly_block (h : ∀ p ∈ ps, RaisesOnly P p) : RaisesOnly P (block ps) := by
  induction ps with
  | nil => exact fun s e he => by cases he
  | cons p ps ih =>
      obtain ⟨hp, hps⟩ := List.forall_mem_cons.mp h
      intro s e he
      cases block_cons_raised he with
      | inl hr => exact hp s e hr
      | inr hr => exact ih hps _ e hr.2

end Raised

end Raising
