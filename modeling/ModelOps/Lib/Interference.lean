/-
  File:      ModelOps/Lib/Interference.lean
  Subject:   PROCESSES THAT STEP BY TURNS on a shared store, and the rely-guarantee rule for them.

  A process stands somewhere (`π`), and one atomic step of it (`act`) reads and writes the store and
  may report something. A schedule names the process of each step; who is where, what is in the store
  and what was reported so far, by whom, is a `Config`.

  * `Config.run_inv` -- what one step of any process keeps, every schedule keeps;
  * **`Rules.run`** -- rely-guarantee: each process keeps an assertion about where it stands, changes the
    store only as the guarantee says, and the guarantee upsets no assertion. Then all assertions hold
    in every interleaving, and what was reported stays true;
  * `written_run` -- what the steps write is what the reports owe, in the order of the log;
  * `reported_run` -- what a process reported and what it has still to do are together constant;
  * `noted_run` -- what a process reports is, one for one, what a bystander notes of its steps;
  * `count_reported` -- what was reported in all is the sum over the processes;
  * `measure_run` -- a process whose steps bring it closer to its end is there after enough of them.
-/
import Mathlib.Algebra.BigOperators.Group.Finset.Piecewise
import Mathlib.Data.Fintype.Basic
import Mathlib.Data.List.Basic
import Mathlib.Data.List.Forall2
import Mathlib.Logic.Function.Basic

namespace Interference

variable {σ π ε ι : Type}

/-- One step: where the process stands afterwards, the store, and the reports. -/
abbrev Act (σ π ε : Type) := π → σ → π × σ × List ε

/-- The store, where each process stands, and what was reported by whom. -/
structure Config (σ π ε ι : Type) where
  store : σ
  proc : ι → π
  log : List (ι × ε)

namespace Config

/-- Nothing was done yet. -/
def start (s : σ) (proc : ι → π) : Config σ π ε ι := ⟨s, proc, []⟩

variable [DecidableEq ι]

/-- One step of process `i`. -/
def step (act : Act σ π ε) (c : Config σ π ε ι) (i : ι) : Config σ π ε ι where
  store := (act (c.proc i) c.store).2.1
  proc := Function.update c.proc i (act (c.proc i) c.store).1
  log := c.log ++ (act (c.proc i) c.store).2.2.map fun e => (i, e)

/-- The steps of a schedule. -/
def run (act : Act σ π ε) (c : Config σ π ε ι) (schedule : List ι) : Config σ π ε ι :=
  schedule.foldl (step act) c

variable {act : Act σ π ε} {c : Config σ π ε ι}

theorem run_append (l l' : List ι) : c.run act (l ++ l') = (c.run act l).run act l' :=
  List.foldl_append

theorem step_proc_self (i : ι) : (c.step act i).proc i = (act (c.proc i) c.store).1 :=
  Function.update_self ..

theorem step_proc_ne {i j : ι} (h : j ≠ i) : (c.step act i).proc j = c.proc j :=
  Function.update_of_ne h ..

/-- **What one step keeps, every schedule keeps.** -/
theorem run_inv {I : Config σ π ε ι → Prop} (hstep : ∀ c i, I c → I (c.step act i))
    (h : I c) (schedule : List ι) : I (c.run act schedule) := by
  induction schedule generalizing c with
  | nil => exact h
  | cons i l ih => exact ih (hstep c i h)

end Config

/-! ## 1. Rely and guarantee -/

/-- **The premises of the rule**: `Local i p s` is what process `i` may rely on where it stands at `p`,
    `Holds` what a report says of the store, `Guar` how a step may change the store. -/
structure Rules (act : Act σ π ε) (Local : ι → π → σ → Prop) (Holds : ι → ε → σ → Prop)
    (Guar : σ → σ → Prop) : Prop where
  /-- a step keeps the process's own assertion, meets the guarantee and reports what is so -/
  own : ∀ i p s, Local i p s → Local i (act p s).1 (act p s).2.1 ∧ Guar s (act p s).2.1 ∧
    ∀ e ∈ (act p s).2.2, Holds i e (act p s).2.1
  /-- the others' steps leave it alone -/
  stable : ∀ i p s s', Local i p s → Guar s s' → Local i p s'
  lasting : ∀ i e s s', Holds i e s → Guar s s' → Holds i e s'

section Rule

variable {act : Act σ π ε} {Local : ι → π → σ → Prop} {Holds : ι → ε → σ → Prop}
  {Guar : σ → σ → Prop} {c : Config σ π ε ι}

/-- Every process is where it may rely on its assertion, and what was reported is so. -/
structure Sound (Local : ι → π → σ → Prop) (Holds : ι → ε → σ → Prop) (c : Config σ π ε ι) :
    Prop where
  own : ∀ i, Local i (c.proc i) c.store
  reports : ∀ x ∈ c.log, Holds x.1 x.2 c.store

theorem sound_start {s : σ} {proc : ι → π} (h : ∀ i, Local i (proc i) s) :
    Sound Local Holds (Config.start s proc) where
  own := h
  reports _ hx := (List.not_mem_nil hx).elim

variable [DecidableEq ι]

theorem Rules.step (hR : Rules act Local Holds Guar) (h : Sound Local Holds c) (i : ι) :
    Sound Local Holds (c.step act i) := by
  obtain ⟨hlocal, hguar, hholds⟩ := hR.own i (c.proc i) c.store (h.own i)
  constructor
  · intro j
    by_cases hj : j = i
    · subst hj
      rw [Config.step_proc_self]
      exact hlocal
    · rw [Config.step_proc_ne hj]
      exact hR.stable j _ _ _ (h.own j) hguar
  · intro x hx
    rcases List.mem_append.mp hx with hx | hx
    · exact hR.lasting _ _ _ _ (h.reports x hx) hguar
    · obtain ⟨e, he, rfl⟩ := List.mem_map.mp hx
      exact hholds e he

/-- **The rely-guarantee rule.** -/
theorem Rules.run (hR : Rules act Local Holds Guar) (h : Sound Local Holds c) (schedule : List ι) :
    Sound Local Holds (c.run act schedule) :=
  Config.run_inv (I := Sound Local Holds) (fun _ i hc => hR.step hc i) h schedule

/-- A run changes the store as the guarantee says. -/
theorem Rules.guar_run (hR : Rules act Local Holds Guar) (hrefl : ∀ s, Guar s s)
    (htrans : ∀ s s' s'', Guar s s' → Guar s' s'' → Guar s s'') (h : Sound Local Holds c)
    (schedule : List ι) : Guar c.store (c.run act schedule).store := by
  induction schedule generalizing c with
  | nil => exact hrefl c.store
  | cons i l ih =>
      have hfirst := (hR.own i (c.proc i) c.store (h.own i)).2.1
      exact htrans _ _ _ hfirst (ih (hR.step h i))

end Rule

/-! ## 2. What was reported -/

section Reports

variable {β : Type} {act : Act σ π ε} {c : Config σ π ε ι} [DecidableEq ι]

/-- **What the steps write is what the reports owe**, in the order of the log. -/
theorem written_run {written : σ → List β} {owes : ε → List β}
    (hact : ∀ p s, written (act p s).2.1 = written s ++ (act p s).2.2.flatMap owes)
    (schedule : List ι) {base : List β}
    (h : written c.store = base ++ c.log.flatMap fun x => owes x.2) :
    written (c.run act schedule).store =
      base ++ (c.run act schedule).log.flatMap fun x => owes x.2 := by
  refine Config.run_inv
    (I := fun c => written c.store = base ++ c.log.flatMap fun x => owes x.2) ?_ h schedule
  intro c i hc
  show written (act (c.proc i) c.store).2.1 = _
  rw [hact, hc]
  simp [Config.step, List.flatMap_append, List.flatMap_map]

/-- What process `i` has reported, as far as `said` reads it. -/
def reported (c : Config σ π ε ι) (said : ε → List β) (i : ι) : List β :=
  c.log.flatMap fun x => if x.1 = i then said x.2 else []

/-- A step that moves what it has done from what there is to do to what was reported. -/
theorem reported_step {todo : π → List β} {said : ε → List β} {j : ι}
    (hact : (act (c.proc j) c.store).2.2.flatMap said ++ todo (act (c.proc j) c.store).1 =
      todo (c.proc j)) (i : ι) :
    reported (c.step act j) said i ++ todo ((c.step act j).proc i) =
      reported c said i ++ todo (c.proc i) := by
  by_cases hj : i = j
  · subst hj
    rw [Config.step_proc_self]
    have hself : reported (c.step act i) said i =
        reported c said i ++ (act (c.proc i) c.store).2.2.flatMap said := by
      simp [reported, Config.step, List.flatMap_append, List.flatMap_map]
    rw [hself, List.append_assoc, hact]
  · rw [Config.step_proc_ne hj]
    have hother : reported (c.step act j) said i = reported c said i := by
      simp [reported, Config.step, List.flatMap_append, List.flatMap_map, Ne.symm hj]
    rw [hother]

/-- **What a process reported and what it has still to do are together constant**, if each step moves
    what it has done from the one to the other. -/
theorem reported_run {Local : ι → π → σ → Prop} {Holds : ι → ε → σ → Prop} {Guar : σ → σ → Prop}
    (hR : Rules act Local Holds Guar) (hsound : Sound Local Holds c) {todo : π → List β}
    {said : ε → List β}
    (hact : ∀ i p s, Local i p s → (act p s).2.2.flatMap said ++ todo (act p s).1 = todo p)
    (schedule : List ι) (i : ι) :
    reported (c.run act schedule) said i ++ todo ((c.run act schedule).proc i) =
      reported c said i ++ todo (c.proc i) := by
  refine (Config.run_inv (I := fun c' => Sound Local Holds c' ∧
    reported c' said i ++ todo (c'.proc i) = reported c said i ++ todo (c.proc i)) ?_
    ⟨hsound, rfl⟩ schedule).2
  intro c' j h
  exact ⟨hR.step h.1 j, (reported_step (hact j _ _ (h.1.own j)) i).trans h.2⟩

/-- What a bystander notes of the steps of process `i`. -/
def noted {γ : Type} (act : Act σ π ε) (note : π → σ → List γ) (i : ι) :
    Config σ π ε ι → List ι → List γ
  | _, [] => []
  | c, j :: l =>
      (if j = i then note (c.proc i) c.store else []) ++ noted act note i (c.step act j) l

/-- **What a process has reported, with what it owes, is one for one what was noted of its steps**, in
    this order, if each step is: it pays what it owed, and owes or reports what is noted of it. -/
theorem noted_run {γ : Type} {R : β → γ → Prop} {note : π → σ → List γ} {said : ε → List β}
    {owed : π → List β} (hact : ∀ p s, ∃ new, (act p s).2.2.flatMap said ++ owed (act p s).1 =
      owed p ++ new ∧ List.Forall₂ R new (note p s)) (schedule : List ι) (i : ι) {before : List γ}
    (h : List.Forall₂ R (reported c said i ++ owed (c.proc i)) before) :
    List.Forall₂ R (reported (c.run act schedule) said i ++ owed ((c.run act schedule).proc i))
      (before ++ noted act note i c schedule) := by
  induction schedule generalizing c before with
  | nil =>
      rw [noted, List.append_nil]
      exact h
  | cons j l ih =>
      rw [noted, ← List.append_assoc]
      refine ih ?_
      by_cases hj : j = i
      · subst hj
        obtain ⟨new, hnew, hR⟩ := hact (c.proc j) c.store
        have hself : reported (c.step act j) said j =
            reported c said j ++ (act (c.proc j) c.store).2.2.flatMap said := by
          simp [reported, Config.step, List.flatMap_append, List.flatMap_map]
        rw [hself, Config.step_proc_self, List.append_assoc, hnew, ← List.append_assoc, if_pos rfl]
        exact List.rel_append h hR
      · have hother : reported (c.step act j) said i = reported c said i := by
          simp [reported, Config.step, List.flatMap_append, List.flatMap_map, hj]
        rw [hother, Config.step_proc_ne (Ne.symm hj), if_neg hj, List.append_nil]
        exact h

/-- **What was reported is the sum over the processes of what each of them reported.** -/
theorem count_reported [Fintype ι] (said : ε → List β) (q : β → Bool) :
    (c.log.flatMap fun x => said x.2).countP q = ∑ i, (reported c said i).countP q := by
  unfold reported
  induction c.log with
  | nil => simp
  | cons x log ih =>
      have hone : ∑ i, (if x.1 = i then said x.2 else []).countP q = (said x.2).countP q := by
        rw [Finset.sum_eq_single x.1]
        · rw [if_pos rfl]
        · intro i _ hi
          rw [if_neg (Ne.symm hi)]
          rfl
        · intro h
          exact absurd (Finset.mem_univ x.1) h
      simp only [List.flatMap_cons, List.countP_append, Finset.sum_add_distrib, hone, ih]

end Reports

/-! ## 3. Turns -/

/-- **A process whose steps bring it closer to its end is there after enough of them**, whatever the
    others do between them. -/
theorem measure_run [DecidableEq ι] {act : Act σ π ε} {left : π → Nat}
    (hact : ∀ p s, left (act p s).1 ≤ left p - 1) (schedule : List ι) (c : Config σ π ε ι) (i : ι) :
    left ((c.run act schedule).proc i) ≤ left (c.proc i) - schedule.count i := by
  induction schedule generalizing c with
  | nil => exact Nat.le_of_eq (Nat.sub_zero _).symm
  | cons j l ih =>
      have hrest := ih (c.step act j)
      have hrun : c.run act (j :: l) = (c.step act j).run act l := rfl
      rw [hrun]
      by_cases hj : i = j
      · subst hj
        have hfirst := hact (c.proc i) c.store
        rw [Config.step_proc_self] at hrest
        rw [List.count_cons_self]
        omega
      · rw [Config.step_proc_ne hj] at hrest
        rw [List.count_cons_of_ne (Ne.symm hj)]
        exact hrest

end Interference
