/-
  File:      ModelOps/Lib/Batching.lean
  Subject:   BOUNDED BATCHES OUT OF A QUEUE: entries are appended, and each flush takes the first few of
             the entries that are ready for it.

  * `drawn`, `left` -- what one flush takes and what it leaves; `left_eq_nil`: it leaves nothing exactly
    if everything is ready and fits;
  * `Queue.run` -- appends and flushes in any order;
  * **`run_perm`** -- no entry is lost or taken twice, whatever is ready when;
  * **`run_in_order`** -- where readiness follows the order of the queue, the batches are its front.
-/
import Mathlib.Tactic.Common

namespace Batching

/-! ## 1. One batch -/

section Draw

variable {α : Type} {ready : α → Bool} {n : Nat} {l : List α}

/-- The first `n` of the entries that are ready. -/
def drawn (ready : α → Bool) (n : Nat) (l : List α) : List α := (l.filter ready).take n

/-- The entries that are not drawn. -/
def left (ready : α → Bool) : Nat → List α → List α
  | _, [] => []
  | 0, a :: l => a :: l
  | n + 1, a :: l => if ready a then left ready n l else a :: left ready (n + 1) l

@[simp] theorem left_zero (ready : α → Bool) (l : List α) : left ready 0 l = l := by
  cases l <;> rfl

theorem drawn_ready {a : α} (h : a ∈ drawn ready n l) : ready a = true :=
  (List.mem_filter.mp (List.mem_of_mem_take h)).2

theorem drawn_length : (drawn ready n l).length ≤ n := List.length_take_le n _

theorem drawn_append_left_perm (ready : α → Bool) (n : Nat) (l : List α) :
    (drawn ready n l ++ left ready n l).Perm l := by
  unfold drawn
  induction l generalizing n with
  | nil => simp [left]
  | cons a l ih =>
      cases n with
      | zero => simp
      | succ n =>
          unfold left
          by_cases ha : ready a = true
          · rw [if_pos ha, List.filter_cons_of_pos ha]
            exact (ih n).cons a
          · rw [if_neg ha, List.filter_cons_of_neg ha]
            exact List.perm_middle.trans ((ih (n + 1)).cons a)

theorem left_none (h : ∀ a ∈ l, ready a = false) : left ready n l = l := by
  induction l with
  | nil => rfl
  | cons a l ih =>
      cases n with
      | zero => rfl
      | succ n =>
          unfold left
          rw [if_neg (by simp [h a]), ih fun b hb => h b (List.mem_cons_of_mem a hb)]

/-- **Where the ready entries come first**, a batch is the front of the queue. -/
theorem drawn_append_left (h : l.Pairwise fun a b => ready b = true → ready a = true) :
    drawn ready n l ++ left ready n l = l := by
  unfold drawn
  induction l generalizing n with
  | nil => simp [left]
  | cons a l ih =>
      obtain ⟨hfirst, hrest⟩ := List.pairwise_cons.mp h
      cases n with
      | zero => simp
      | succ n =>
          by_cases ha : ready a = true
          · rw [List.filter_cons_of_pos ha, left, if_pos ha]
            exact congrArg (a :: ·) (ih hrest)
          · -- nothing behind an entry that is not ready is ready
            have hnone : ∀ b ∈ a :: l, ready b = false := by
              intro b hb
              cases hr : ready b with
              | false => rfl
              | true =>
                  cases List.mem_cons.mp hb with
                  | inl he => exact absurd (he ▸ hr) ha
                  | inr hb => exact absurd (hfirst b hb hr) ha
            rw [left_none hnone, List.filter_eq_nil_iff.mpr fun b hb => by simp [hnone b hb]]
            simp

/-- **A flush leaves nothing exactly if everything is ready and fits.** -/
theorem left_eq_nil : left ready n l = [] ↔ l.length ≤ n ∧ ∀ a ∈ l, ready a = true := by
  induction l generalizing n with
  | nil => simp [left]
  | cons a l ih =>
      cases n with
      | zero => simp
      | succ n =>
          unfold left
          by_cases ha : ready a = true
          · rw [if_pos ha, ih]
            simp [ha]
          · rw [if_neg ha]
            simp [ha]

end Draw

/-! ## 2. Appends and flushes -/

/-- The entries that wait, and the batches taken so far, each with what it was taken for. -/
structure Queue (σ α : Type) where
  waiting : List α
  batches : List (σ × List α)

inductive Op (σ α : Type) where
  | push (a : α)
  | flush (s : σ)

section Run

variable {σ α : Type} (ready : σ → α → Bool) (size : Nat)

def Queue.start (σ α : Type) : Queue σ α := ⟨[], []⟩

/-- Every entry taken, in the order in which it was. -/
def Queue.taken (q : Queue σ α) : List α := q.batches.flatMap Prod.snd

def Queue.step (q : Queue σ α) : Op σ α → Queue σ α
  | .push a => { q with waiting := q.waiting ++ [a] }
  | .flush s =>
      { waiting := left (ready s) size q.waiting
        batches := q.batches ++ [(s, drawn (ready s) size q.waiting)] }

def Queue.run (q : Queue σ α) (ops : List (Op σ α)) : Queue σ α := ops.foldl (Queue.step ready size) q

def Op.pushed : Op σ α → List α
  | .push a => [a]
  | .flush _ => []

variable {ready size} {q : Queue σ α} {ops : List (Op σ α)}

@[simp] theorem taken_start : (Queue.start σ α).taken = [] := rfl

theorem run_append (ops' : List (Op σ α)) :
    q.run ready size (ops ++ ops') = (q.run ready size ops).run ready size ops' := List.foldl_append

theorem taken_flush (s : σ) :
    (q.step ready size (.flush s)).taken = q.taken ++ drawn (ready s) size q.waiting := by
  simp [Queue.taken, Queue.step]

theorem step_perm (op : Op σ α) :
    ((q.step ready size op).taken ++ (q.step ready size op).waiting).Perm
      (q.taken ++ q.waiting ++ op.pushed) := by
  cases op with
  | push a =>
      show (q.taken ++ (q.waiting ++ [a])).Perm _
      rw [← List.append_assoc]
      exact .rfl
  | flush s =>
      rw [taken_flush, List.append_assoc]
      show List.Perm _ (q.taken ++ q.waiting ++ [])
      rw [List.append_nil]
      exact (drawn_append_left_perm (ready s) size q.waiting).append_left q.taken

/-- **No entry is lost or taken twice.** -/
theorem run_perm (ready : σ → α → Bool) (size : Nat) (q : Queue σ α) (ops : List (Op σ α)) :
    ((q.run ready size ops).taken ++ (q.run ready size ops).waiting).Perm
      (q.taken ++ q.waiting ++ ops.flatMap Op.pushed) := by
  induction ops generalizing q with
  | nil => simp [Queue.run]
  | cons op ops ih =>
      refine (ih (q.step ready size op)).trans ?_
      rw [List.flatMap_cons, ← List.append_assoc]
      exact (step_perm op).append_right _

theorem step_in_order (ready : σ → α → Bool) (size : Nat) (op : Op σ α)
    (h : ∀ s, op = .flush s → q.waiting.Pairwise fun a b => ready s b = true → ready s a = true) :
    (q.step ready size op).taken ++ (q.step ready size op).waiting =
      q.taken ++ q.waiting ++ op.pushed := by
  cases op with
  | push a =>
      show q.taken ++ (q.waiting ++ [a]) = _
      rw [← List.append_assoc]
      rfl
  | flush s =>
      rw [taken_flush, List.append_assoc]
      show q.taken ++ (_ ++ left (ready s) size q.waiting) = q.taken ++ q.waiting ++ []
      rw [drawn_append_left (h s rfl), List.append_nil]

/-- **The batches are the front of what was appended**, where an entry is ready whenever one behind it
    is. -/
theorem run_in_order (ready : σ → α → Bool) (size : Nat) {r : α → α → Prop}
    (hready : ∀ s a b, r a b → ready s b = true → ready s a = true)
    (h : (q.taken ++ q.waiting ++ ops.flatMap Op.pushed).Pairwise r) :
    (q.run ready size ops).taken ++ (q.run ready size ops).waiting =
      q.taken ++ q.waiting ++ ops.flatMap Op.pushed := by
  induction ops generalizing q with
  | nil => simp [Queue.run]
  | cons op ops ih =>
      rw [List.flatMap_cons, ← List.append_assoc] at h ⊢
      have hqueue : q.waiting.Pairwise r :=
        (List.pairwise_append.mp (List.pairwise_append.mp (List.pairwise_append.mp h).1).1).2.1
      have hstep := step_in_order ready size op fun s _ => hqueue.imp fun hab => hready s _ _ hab
      rw [← hstep] at h ⊢
      exact ih h

/-- A batch holds what was ready for it, and no more than fits. -/
def Fitting (ready : σ → α → Bool) (size : Nat) (b : σ × List α) : Prop :=
  b.2.length ≤ size ∧ ∀ a ∈ b.2, ready b.1 a = true

theorem step_fitting (op : Op σ α) (h : ∀ b ∈ q.batches, Fitting ready size b) :
    ∀ b ∈ (q.step ready size op).batches, Fitting ready size b := by
  cases op with
  | push a => exact h
  | flush s =>
      intro b hb
      cases List.mem_append.mp hb with
      | inl hb => exact h b hb
      | inr hb =>
          rw [List.mem_singleton.mp hb]
          exact ⟨drawn_length, fun a => drawn_ready⟩

theorem run_fitting (h : ∀ b ∈ q.batches, Fitting ready size b) :
    ∀ b ∈ (q.run ready size ops).batches, Fitting ready size b := by
  induction ops generalizing q with
  | nil => exact h
  | cons op ops ih => exact ih (step_fitting op h)

/-- What waits after a last flush. -/
theorem run_flush_waiting (s : σ) :
    (q.run ready size (ops ++ [.flush s])).waiting = [] ↔
      (q.run ready size ops).waiting.length ≤ size ∧
        ∀ a ∈ (q.run ready size ops).waiting, ready s a = true := by
  rw [run_append]
  exact left_eq_nil

end Run

end Batching
