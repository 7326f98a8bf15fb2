/-
  File:      ModelOps/Lib/WeightedChoice.lean
  Subject:   WEIGHTED CHOICE from a list, by a point below the total of the weights.

  The items of a list stand side by side on a line, each as long as its weight; a point on the line
  chooses the item it lies on. `choose` walks the line from its left end, and gives the last item where
  the point lies on none.

  * `choose_slot` -- the chosen item is one the point lies on;
  * `slot_unique` -- a point lies on at most one item;
  * `choose_iff` -- so, in a list without duplicates, an item is chosen exactly by the points on it.
-/
import Mathlib.Algebra.Order.BigOperators.Group.List
import Mathlib.Algebra.Order.Field.Basic
import Mathlib.Tactic.Linarith

namespace WeightedChoice

variable {α K : Type} [Field K] [LinearOrder K]

/-- The first item whose right end lies beyond `x`, and the last one if there is none; the line
    starts at `left`. -/
def choose (weight : α → K) (a : α) : List α → (left x : K) → α
  | [], _, _ => a
  | b :: bs, left, x =>
      if x < left + weight a then a else choose weight b bs (left + weight a) x

/-- The item `a`, with `before` to its left, and `x` on it. -/
structure Slot (weight : α → K) (x : K) (as before : List α) (a : α) : Prop where
  isPrefix : before ++ [a] <+: as
  left_le : (before.map weight).sum ≤ x
  lt_right : x < (before.map weight).sum + weight a

variable {weight : α → K} {a a' : α} {as bs before before' : List α} {left x : K}

section Slots

variable [IsStrictOrderedRing K]

/-- **The chosen item is one the point lies on.** -/
theorem choose_slot (h0 : left ≤ x) (h1 : x < left + ((a :: as).map weight).sum) :
    ∃ before, Slot weight (x - left) (a :: as) before (choose weight a as left x) := by
  induction as generalizing a left with
  | nil =>
      refine ⟨[], List.prefix_refl _, ?_, ?_⟩
      · simpa using h0
      · simp only [List.map_cons, List.map_nil, List.sum_cons, List.sum_nil, add_zero] at h1 ⊢
        simp only [choose]
        linarith
  | cons b bs ih =>
      unfold choose
      split
      · rename_i hlt
        refine ⟨[], ⟨b :: bs, rfl⟩, ?_, ?_⟩
        · simpa using h0
        · simp only [List.map_nil, List.sum_nil, zero_add]
          linarith
      · rename_i hge
        have hx : x < left + weight a + ((b :: bs).map weight).sum := by
          rw [List.map_cons, List.sum_cons] at h1
          linarith
        obtain ⟨before, hp, hl, hr⟩ := ih (not_lt.mp hge) hx
        refine ⟨a :: before, List.prefix_cons_inj a |>.mpr hp, ?_, ?_⟩
        · rw [List.map_cons, List.sum_cons]
          linarith
        · rw [List.map_cons, List.sum_cons]
          linarith

/-- Where one of two items stands to the left of the other, no point lies on both. -/
theorem slot_apart (hw : ∀ a ∈ as, 0 ≤ weight a) (h : Slot weight x as before a)
    (h' : Slot weight x as before' a') (hlen : before.length < before'.length) : False := by
  have hpre : before ++ [a] <+: before' :=
    List.prefix_of_prefix_length_le h.isPrefix ((List.prefix_append _ _).trans h'.isPrefix)
      (by rw [List.length_append]; exact hlen)
  obtain ⟨rest, hrest⟩ := hpre
  have hnonneg : 0 ≤ (rest.map weight).sum := by
    refine List.sum_nonneg fun w hmem => ?_
    obtain ⟨c, hc, rfl⟩ := List.mem_map.mp hmem
    refine hw c (((List.prefix_append before' [a']).trans h'.isPrefix).subset ?_)
    rw [← hrest]
    exact List.mem_append_right _ hc
  have hle := h'.left_le
  have hlt := h.lt_right
  rw [← hrest, List.map_append, List.sum_append, List.map_append, List.sum_append] at hle
  simp only [List.map_cons, List.map_nil, List.sum_cons, List.sum_nil, add_zero] at hle
  linarith

/-- **A point lies on at most one item.** -/
theorem slot_unique (hw : ∀ a ∈ as, 0 ≤ weight a) (h : Slot weight x as before a)
    (h' : Slot weight x as before' a') : before = before' ∧ a = a' := by
  have hlen : before.length = before'.length := by
    rcases Nat.lt_trichotomy before.length before'.length with hlt | heq | hlt
    · exact (slot_apart hw h h' hlt).elim
    · exact heq
    · exact (slot_apart hw h' h hlt).elim
  have heq : before ++ [a] = before' ++ [a'] :=
    (List.prefix_of_prefix_length_le h.isPrefix h'.isPrefix
      (by simp [hlen])).eq_of_length (by simp [hlen])
  obtain ⟨hb, ha⟩ := List.append_inj heq hlen
  exact ⟨hb, List.singleton_inj.mp ha⟩

/-- **An item is chosen exactly by the points on it.** -/
theorem choose_iff (hw : ∀ c ∈ a :: as, 0 ≤ weight c) (hnodup : (a :: as).Nodup)
    (hpre : before ++ [a'] <+: a :: as) (h0 : 0 ≤ x) (h1 : x < ((a :: as).map weight).sum) :
    choose weight a as 0 x = a' ↔
      (before.map weight).sum ≤ x ∧ x < (before.map weight).sum + weight a' := by
  have hend : x < 0 + ((a :: as).map weight).sum := by simpa using h1
  obtain ⟨chosen, hslot⟩ := choose_slot h0 hend
  rw [sub_zero] at hslot
  constructor
  · intro hc
    rw [hc] at hslot
    -- without duplicates, an item has one place
    have hsame : chosen = before := by
      obtain ⟨r, hr⟩ := hslot.isPrefix
      obtain ⟨r', hr'⟩ := hpre
      have hnd : (chosen ++ [a'] ++ r).Nodup := hr ▸ hnodup
      have hnd' : (before ++ [a'] ++ r').Nodup := hr' ▸ hnodup
      rw [List.append_assoc, List.singleton_append] at hr hr' hnd hnd'
      exact (List.append_cons_inj_of_notMem (by grind) (by grind)).mp (hr.trans hr'.symm) |>.1
    rw [← hsame]
    exact ⟨hslot.left_le, hslot.lt_right⟩
  · rintro ⟨hl, hr⟩
    exact (slot_unique hw hslot ⟨hpre, hl, hr⟩).2

/-- The chosen item has a weight. -/
theorem choose_pos (h0 : 0 ≤ x) (h1 : x < ((a :: as).map weight).sum) :
    0 < weight (choose weight a as 0 x) := by
  have hend : x < 0 + ((a :: as).map weight).sum := by simpa using h1
  obtain ⟨before, hslot⟩ := choose_slot h0 hend
  have hl := hslot.left_le
  have hr := hslot.lt_right
  linarith

end Slots

end WeightedChoice
