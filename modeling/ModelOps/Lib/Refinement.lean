/-
  File:      ModelOps/Lib/Refinement.lean
  Subject:   ABSTRACT MACHINES, and systems that refine them.

  An abstract machine is a partial function `next : α → μ → Option α` over moves; a move that is not
  enabled leaves the state as it is (`proceed`). A system is a total function `exec : σ → ℓ → σ`; each of
  its steps makes at most one move of the machine.

  * `Refines` -- the obligations of a refinement: an invariant, and one step seen through `abs`;
  * `Refines.run` -- so a whole run, seen through `abs`, is the machine's run over the moves alone;
  * `Ranked` -- a rank that no move raises and every costly move lowers;
  * `Refines.pays` -- so the costly steps of every run of the system are paid out of the rank.
-/
import Mathlib.Tactic.Common

namespace Refinement

variable {σ ℓ α μ : Type}

/-! ## 1. The machine -/

/-- One move; a move that is not enabled does nothing. -/
def proceed (next : α → μ → Option α) (a : α) (m : μ) : α := (next a m).getD a

def proceedAll (next : α → μ → Option α) (a : α) (ms : List μ) : α := ms.foldl (proceed next) a

section Machine

variable {next : α → μ → Option α} {a a' : α} {m : μ} {ms ms' : List μ}

theorem proceed_enabled (h : next a m = some a') : proceed next a m = a' := by
  unfold proceed
  rw [h]
  rfl

theorem proceed_disabled (h : next a m = none) : proceed next a m = a := by
  unfold proceed
  rw [h]
  rfl

theorem proceedAll_cons : proceedAll next a (m :: ms) = proceedAll next (proceed next a m) ms := rfl

end Machine

/-- A rank that no move raises, and that every costly move lowers. -/
structure Ranked (next : α → μ → Option α) (costly : α → μ → Bool) (rank : α → Nat) : Prop where
  holds : ∀ {a m a'}, next a m = some a' → rank a' ≤ rank a
  falls : ∀ {a m a'}, next a m = some a' → costly a m = true → rank a' < rank a

/-- A move does not raise the rank, enabled or not. -/
theorem Ranked.proceed_le {next : α → μ → Option α} {costly : α → μ → Bool} {rank : α → Nat}
    (h : Ranked next costly rank) (a : α) (m : μ) : rank (proceed next a m) ≤ rank a := by
  cases hn : next a m with
  | none =>
      exact Nat.le_of_eq (congrArg rank (proceed_disabled hn))
  | some b =>
      rw [proceed_enabled hn]
      exact h.holds hn

/-! ## 2. Refinement -/

section Systems

variable (exec : σ → ℓ → σ)

/-- The moves that the steps of a run make. -/
def moves (move : σ → ℓ → Option μ) : σ → List ℓ → List μ
  | _, [] => []
  | s, l :: ls => (move s l).toList ++ moves move (exec s l) ls

/-- How many steps of a run are marked. -/
def countSteps (marked : σ → ℓ → Bool) : σ → List ℓ → Nat
  | _, [] => 0
  | s, l :: ls => (marked s l).toNat + countSteps marked (exec s l) ls

/-- Where the move of a step depends on its label alone. -/
theorem moves_of_labels (move : ℓ → Option μ) (s : σ) (ls : List ℓ) :
    moves exec (fun _ => move) s ls = ls.filterMap move := by
  induction ls generalizing s with
  | nil => rfl
  | cons l ls ih =>
      rw [moves, ih (exec s l)]
      cases hm : move l with
      | none => rw [List.filterMap_cons_none hm]; rfl
      | some m => rw [List.filterMap_cons_some hm]; rfl

/-- Through `abs`, a step of the system is its move, where it makes one. -/
structure Refines (inv : σ → Prop) (abs : σ → Option α) (move : σ → ℓ → Option μ)
    (next : α → μ → Option α) : Prop where
  keeps : ∀ {s} l, inv s → inv (exec s l)
  stutters : ∀ {s a l}, inv s → abs s = some a → move s l = none → abs (exec s l) = some a
  moves : ∀ {s a l m}, inv s → abs s = some a → move s l = some m →
    abs (exec s l) = some (proceed next a m)

variable {exec} {inv : σ → Prop} {abs : σ → Option α} {move : σ → ℓ → Option μ}
  {next : α → μ → Option α} {s : σ} {a : α}

theorem Refines.keeps_run (h : Refines exec inv abs move next) (ls : List ℓ) (hi : inv s) :
    inv (ls.foldl exec s) := by
  induction ls generalizing s with
  | nil => exact hi
  | cons l ls ih => exact ih (h.keeps l hi)

/-- **Through `abs`, a run of the system is the machine's run over its moves.** -/
theorem Refines.run (h : Refines exec inv abs move next) (ls : List ℓ) (hi : inv s)
    (ha : abs s = some a) :
    abs (ls.foldl exec s) = some (proceedAll next a (Refinement.moves exec move s ls)) := by
  induction ls generalizing s a with
  | nil => exact ha
  | cons l ls ih =>
      rw [List.foldl_cons, Refinement.moves]
      cases hm : move s l with
      | none => exact ih (h.keeps l hi) (h.stutters hi ha hm)
      | some m =>
          rw [Option.toList_some, List.singleton_append, proceedAll_cons]
          exact ih (h.keeps l hi) (h.moves hi ha hm)

/-- **A run pays for its costly steps out of the rank.** -/
theorem Refines.pays (h : Refines exec inv abs move next) {costly : α → μ → Bool} {rank : α → Nat}
    (hrank : Ranked next costly rank) {marked : σ → ℓ → Bool}
    (hmarked : ∀ {s a l}, inv s → abs s = some a → marked s l = true →
      ∃ m, move s l = some m ∧ (next a m).isSome = true ∧ costly a m = true)
    (ls : List ℓ) (hi : inv s) (ha : abs s = some a) :
    countSteps exec marked s ls + rank (proceedAll next a (Refinement.moves exec move s ls)) ≤ rank a := by
  induction ls generalizing s a with
  | nil => exact Nat.le_of_eq (Nat.zero_add _)
  | cons l ls ih =>
      rw [countSteps, Refinement.moves]
      cases hc : marked s l with
      | false =>
          cases hm : move s l with
          | none =>
              have hrest := ih (h.keeps l hi) (h.stutters hi ha hm)
              simpa using hrest
          | some m =>
              have hrest := ih (h.keeps l hi) (h.moves hi ha hm)
              have hle := hrank.proceed_le a m
              rw [Option.toList_some, List.singleton_append, proceedAll_cons]
              simp only [Bool.toNat_false]
              omega
      | true =>
          obtain ⟨m, hm, hsome, hcostly⟩ := hmarked hi ha hc
          obtain ⟨b, hn⟩ := Option.isSome_iff_exists.mp hsome
          have hrest := ih (h.keeps l hi) (h.moves hi ha hm)
          have hlt := hrank.falls hn hcostly
          rw [proceed_enabled hn] at hrest
          rw [hm, Option.toList_some, List.singleton_append, proceedAll_cons, proceed_enabled hn]
          simp only [Bool.toNat_true]
          omega

end Systems

end Refinement
