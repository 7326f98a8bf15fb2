/-
  File:      ModelOps/Lib/Sorting.lean
  Subject:   SORTING of a list that has grown, in number or in its values; and lists whose elements stand a
             gap apart, or are told apart.

  * **`insertionSort_insert`** -- elements above all the others are sorted behind them, wherever in the
    list they stood;
  * **`insertionSort_raised`** -- a list of greater values is greater place by place when it is sorted;
  * `gaps_add_up` -- from the first of a list to its last there are as many gaps as elements between;
  * `counts_add_up` -- tests that no element passes two of count no more than all of them.
-/
import Mathlib.Algebra.GroupWithZero.Nat
import Mathlib.Data.List.Sort
import Mathlib.Data.List.Forall2
import Mathlib.Order.Defs.LinearOrder

namespace Sorting

variable {α : Type} {r : α → α → Prop} [DecidableRel r] {a : α} {l l' : List α}

/-- An element that goes before all of `l'` is inserted into `l`. -/
theorem orderedInsert_append_left (h : ∀ y ∈ l', r a y) :
    (l ++ l').orderedInsert r a = l.orderedInsert r a ++ l' := by
  induction l with
  | nil =>
      cases l' with
      | nil => rfl
      | cons y l' => exact List.orderedInsert_cons_of_le r l' (h y List.mem_cons_self)
  | cons b l ih =>
      simp only [List.cons_append, List.orderedInsert_cons]
      split
      · rfl
      · rw [ih, List.cons_append]

/-- An element that goes before none of `l` is inserted into `l'`. -/
theorem orderedInsert_append_right (h : ∀ x ∈ l, ¬r a x) :
    (l ++ l').orderedInsert r a = l ++ l'.orderedInsert r a := by
  induction l with
  | nil => rfl
  | cons b l ih =>
      have hrest := ih fun x hx => h x (List.mem_cons_of_mem b hx)
      rw [List.cons_append, List.orderedInsert_of_not_le r (l ++ l') (h b List.mem_cons_self), hrest]
      rfl

/-- **Elements above all the others are sorted behind them.** -/
theorem insertionSort_insert (xs new ys : List α)
    (h : ∀ x ∈ xs ++ ys, ∀ y ∈ new, r x y ∧ ¬r y x) :
    (xs ++ (new ++ ys)).insertionSort r = (xs ++ ys).insertionSort r ++ new.insertionSort r := by
  induction xs with
  | nil =>
      simp only [List.nil_append] at h ⊢
      induction new with
      | nil => exact (List.append_nil _).symm
      | cons a new ih =>
          have hrest := ih fun x hx y hy => h x hx y (List.mem_cons_of_mem a hy)
          rw [List.cons_append, List.insertionSort_cons, hrest, List.insertionSort_cons]
          refine orderedInsert_append_right fun x hx => (h x ?_ a List.mem_cons_self).2
          exact (List.mem_insertionSort r).mp hx
  | cons a xs ih =>
      have hrest := ih fun x hx y hy => h x (List.mem_cons_of_mem a hx) y hy
      rw [List.cons_append, List.insertionSort_cons, hrest, List.cons_append,
        List.insertionSort_cons]
      refine orderedInsert_append_left fun y hy => (h a List.mem_cons_self y ?_).1
      exact (List.mem_insertionSort r).mp hy

section Raised

variable {β : Type} [LinearOrder β] {x x' : β} {xs xs' : List β}

/-- A greater value inserted into greater values. -/
theorem orderedInsert_raised (hx : x ≤ x') (h : List.Forall₂ (· ≤ ·) xs xs') (hs : xs.Pairwise (· ≤ ·))
    (hs' : xs'.Pairwise (· ≤ ·)) :
    List.Forall₂ (· ≤ ·) (xs.orderedInsert (· ≤ ·) x) (xs'.orderedInsert (· ≤ ·) x') := by
  induction h generalizing x x' with
  | nil => exact .cons hx .nil
  | @cons y y' ys ys' hy h ih =>
      obtain ⟨hleast, hs⟩ := List.pairwise_cons.mp hs
      obtain ⟨hleast', hs'⟩ := List.pairwise_cons.mp hs'
      -- a least element is inserted in front
      have hfront : ys.orderedInsert (· ≤ ·) y = y :: ys := by
        cases ys with
        | nil => rfl
        | cons z zs => exact List.orderedInsert_cons_of_le _ _ (hleast z List.mem_cons_self)
      have hfront' : ys'.orderedInsert (· ≤ ·) y' = y' :: ys' := by
        cases ys' with
        | nil => rfl
        | cons z zs => exact List.orderedInsert_cons_of_le _ _ (hleast' z List.mem_cons_self)
      rw [List.orderedInsert_cons, List.orderedInsert_cons]
      split
      · rename_i hxy
        split
        · exact .cons hx (.cons hy h)
        · rename_i hxy'
          refine .cons (hxy.trans hy) ?_
          rw [← hfront]
          exact ih (hy.trans (le_of_not_ge hxy')) hs hs'
      · rename_i hxy
        split
        · rename_i hxy'
          refine .cons ((le_of_not_ge hxy).trans hx) ?_
          rw [← hfront']
          exact ih (hx.trans hxy') hs hs'
        · exact .cons hy (ih hx hs hs')

/-- **Greater values, sorted, are greater place by place.** -/
theorem insertionSort_raised (h : List.Forall₂ (· ≤ ·) xs xs') :
    List.Forall₂ (· ≤ ·) (xs.insertionSort (· ≤ ·)) (xs'.insertionSort (· ≤ ·)) := by
  induction h with
  | nil => exact .nil
  | cons hx _ ih =>
      exact orderedInsert_raised hx ih (List.pairwise_insertionSort _ _) (List.pairwise_insertionSort _ _)

end Raised

/-- Elements stand for the times of what they hold; the gaps between them add up. -/
theorem gaps_add_up (times : α → Nat → Prop) {gap : Nat} {first last : α} {rest : List α}
    (h : (first :: rest).Pairwise fun x y => ∀ τ τ', times x τ → times y τ' → τ + gap ≤ τ')
    (hne : ∀ x ∈ rest, ∃ τ, times x τ) (hlast : last ∈ rest.getLast?) {τ τ' : Nat} (hτ : times first τ)
    (hτ' : times last τ') : τ + rest.length * gap ≤ τ' := by
  induction rest generalizing first τ with
  | nil => cases hlast
  | cons x rest ih =>
      obtain ⟨hfirst, hrest⟩ := List.pairwise_cons.mp h
      cases rest with
      | nil =>
          cases hlast
          simpa using hfirst x List.mem_cons_self τ τ' hτ hτ'
      | cons y rest =>
          -- the next one is passed at some time
          obtain ⟨σ, hσ⟩ := hne x List.mem_cons_self
          have hstep := hfirst x List.mem_cons_self τ σ hτ hσ
          have hon := ih hrest (fun z hz => hne z (List.mem_cons_of_mem x hz)) hlast hσ
          rw [List.length_cons, Nat.succ_mul]
          omega

/-- What is counted by tests that exclude each other. -/
theorem counts_add_up {tests : List (α → Bool)} (h : tests.Pairwise fun p q => ∀ x, p x = true → q x = false)
    (l : List α) : (tests.map l.countP).sum ≤ l.length := by
  induction tests generalizing l with
  | nil => exact Nat.zero_le _
  | cons p tests ih =>
      obtain ⟨hp, htests⟩ := List.pairwise_cons.mp h
      -- the other tests count among what `p` leaves
      have hothers : tests.map l.countP = tests.map (l.filter fun x => !p x).countP := by
        refine List.map_congr_left fun q hq => ?_
        rw [List.countP_filter]
        refine List.countP_congr fun x _ => ?_
        cases hx : p x with
        | false => rw [Bool.not_false, Bool.and_true]
        | true => rw [hp q hq x hx, Bool.false_and]
      have hlength : l.length = l.countP p + (l.filter fun x => !p x).length := by
        rw [List.countP_eq_length_filter]
        exact List.length_eq_length_filter_add p
      have hrest := ih htests (l.filter fun x => !p x)
      rw [List.map_cons, List.sum_cons, hothers]
      omega

end Sorting
