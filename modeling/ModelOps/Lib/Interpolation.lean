/-
  File:      ModelOps/Lib/Interpolation.lean
  Subject:   LINEAR INTERPOLATION BETWEEN THE VALUES OF A SEQUENCE, over an ordered field with floors.

  * `interpolate f k` -- the broken line through the points `(n, f n)`;
  * **`interpolate_mono`** -- it rises where the sequence does;
  * **`interpolate_le_interpolate`** -- it is raised where the points are;
  * `clamped l` -- a non-empty list as a sequence, constant after its end; it rises where the list is
    sorted, so quantiles of a sorted list are in order and between its first and last value;
  * `AtRank l k x` -- what the line is at the rank `k`, said with the list's own indices.
-/
import Mathlib.Algebra.Order.Floor.Ring
import Mathlib.Algebra.Order.Floor.Semifield
import Mathlib.Tactic.Linarith
import Mathlib.Tactic.Ring

namespace Interpolation

/-! ## 1. The broken line -/

section Line

variable {α : Type*} [Field α] [LinearOrder α] [IsStrictOrderedRing α] [FloorSemiring α]

/-- The line from `f n` to `f (n + 1)`, at `k` between `n` and `n + 1`. -/
def interpolate (f : ℕ → α) (k : α) : α :=
  f ⌊k⌋₊ + (f (⌊k⌋₊ + 1) - f ⌊k⌋₊) * (k - ⌊k⌋₊)

variable {f : ℕ → α} {j k : α}

theorem interpolate_natCast (f : ℕ → α) (n : ℕ) : interpolate f (n : α) = f n := by
  unfold interpolate
  rw [Nat.floor_natCast, sub_self, mul_zero, add_zero]

theorem le_interpolate (hf : Monotone f) (hk : 0 ≤ k) : f ⌊k⌋₊ ≤ interpolate f k := by
  have hrise : 0 ≤ f (⌊k⌋₊ + 1) - f ⌊k⌋₊ := sub_nonneg.mpr (hf (Nat.le_succ _))
  have hpart : 0 ≤ k - ⌊k⌋₊ := sub_nonneg.mpr (Nat.floor_le hk)
  unfold interpolate
  linarith [mul_nonneg hrise hpart]

theorem interpolate_le (hf : Monotone f) (k : α) : interpolate f k ≤ f (⌊k⌋₊ + 1) := by
  have hrise : 0 ≤ f (⌊k⌋₊ + 1) - f ⌊k⌋₊ := sub_nonneg.mpr (hf (Nat.le_succ _))
  have hpart : k - ⌊k⌋₊ ≤ 1 := by linarith [Nat.lt_floor_add_one k]
  unfold interpolate
  linarith [mul_le_of_le_one_right hrise hpart]

/-- **The line rises where the sequence does.** -/
theorem interpolate_mono (hf : Monotone f) (hj : 0 ≤ j) (h : j ≤ k) :
    interpolate f j ≤ interpolate f k := by
  rcases Nat.lt_or_eq_of_le (Nat.floor_mono h) with hlt | heq
  · calc interpolate f j ≤ f (⌊j⌋₊ + 1) := interpolate_le hf j
      _ ≤ f ⌊k⌋₊ := hf hlt
      _ ≤ interpolate f k := le_interpolate hf (hj.trans h)
  · -- on one piece it is the slope that counts
    have hrise : 0 ≤ f (⌊k⌋₊ + 1) - f ⌊k⌋₊ := sub_nonneg.mpr (hf (Nat.le_succ _))
    unfold interpolate
    rw [heq]
    linarith [mul_le_mul_of_nonneg_left (sub_le_sub_right h (⌊k⌋₊ : α)) hrise]

theorem interpolate_ge_first (hf : Monotone f) (hk : 0 ≤ k) : f 0 ≤ interpolate f k :=
  (hf (Nat.zero_le _)).trans (le_interpolate hf hk)

theorem interpolate_le_last (hf : Monotone f) (hk : 0 ≤ k) {n : ℕ} (h : k ≤ n) :
    interpolate f k ≤ f n :=
  (interpolate_mono hf hk h).trans (le_of_eq (interpolate_natCast f n))

/-- **The line is raised where the points are.** -/
theorem interpolate_le_interpolate {g : ℕ → α} (h : ∀ n, f n ≤ g n) (hk : 0 ≤ k) :
    interpolate f k ≤ interpolate g k := by
  have hlow : 0 ≤ k - ⌊k⌋₊ := sub_nonneg.mpr (Nat.floor_le hk)
  have hhigh : 0 ≤ 1 - (k - ⌊k⌋₊) := by linarith [Nat.lt_floor_add_one k]
  calc interpolate f k = f ⌊k⌋₊ * (1 - (k - ⌊k⌋₊)) + f (⌊k⌋₊ + 1) * (k - ⌊k⌋₊) := by
        unfold interpolate
        ring
    _ ≤ g ⌊k⌋₊ * (1 - (k - ⌊k⌋₊)) + g (⌊k⌋₊ + 1) * (k - ⌊k⌋₊) :=
        add_le_add (mul_le_mul_of_nonneg_right (h _) hhigh) (mul_le_mul_of_nonneg_right (h _) hlow)
    _ = interpolate g k := by
        unfold interpolate
        ring

/-- Strictly between `i` and `i + 1`, the line between their values. -/
theorem interpolate_inside (f : ℕ → α) {i : ℕ} (hlow : (i : α) < k) (hhigh : k < i + 1) :
    interpolate f k = f i + (f (i + 1) - f i) * (k - i) := by
  have hfloor : ⌊k⌋₊ = i := (Nat.floor_eq_iff ((Nat.cast_nonneg i).trans hlow.le)).mpr ⟨hlow.le, hhigh⟩
  unfold interpolate
  rw [hfloor]

/-- Between two neighbours, the weighted mean of their values. -/
theorem interpolate_between (f : ℕ → α) (hne : ⌊k⌋₊ ≠ ⌈k⌉₊) :
    interpolate f k = f ⌊k⌋₊ * (⌈k⌉₊ - k) + f ⌈k⌉₊ * (k - ⌊k⌋₊) := by
  have hceil : ⌈k⌉₊ = ⌊k⌋₊ + 1 := by
    have hle := Nat.floor_le_ceil k
    have hsucc := Nat.ceil_le_floor_add_one k
    omega
  unfold interpolate
  rw [hceil]
  push_cast
  ring

/-- On a point of the sequence, its value. -/
theorem interpolate_on (f : ℕ → α) (hk : 0 ≤ k) (heq : ⌊k⌋₊ = ⌈k⌉₊) : interpolate f k = f ⌊k⌋₊ := by
  have hpoint : k = (⌊k⌋₊ : α) := le_antisymm (by rw [heq]; exact Nat.le_ceil k) (Nat.floor_le hk)
  conv_lhs => rw [hpoint]
  exact interpolate_natCast f _

end Line

/-! ## 2. A list as a sequence -/

section Clamped

variable {α : Type*} {l : List α}

/-- The values of a non-empty list, the last one for ever after. -/
def clamped (l : List α) (h : l ≠ []) (i : ℕ) : α :=
  l.get ⟨min i (l.length - 1), by have := List.length_pos_of_ne_nil h; omega⟩

theorem clamped_mem (h : l ≠ []) (i : ℕ) : clamped l h i ∈ l := List.get_mem l _

theorem getElem?_clamped (h : l ≠ []) {i : ℕ} (hi : i ≤ l.length - 1) :
    l[i]? = some (clamped l h i) := by
  have hlt : i < l.length := by
    have := List.length_pos_of_ne_nil h
    omega
  unfold clamped
  rw [List.getElem?_eq_getElem hlt]
  simp [Nat.min_eq_left hi]

theorem clamped_mono [Preorder α] (h : l ≠ []) (hsorted : l.Pairwise (· ≤ ·)) :
    Monotone (clamped l h) := by
  intro i j hij
  have hpos := List.length_pos_of_ne_nil h
  unfold clamped
  rcases Nat.lt_or_eq_of_le (min_le_min_right (l.length - 1) hij) with hlt | heq
  · exact List.pairwise_iff_getElem.mp hsorted _ _ _ _ hlt
  · exact le_of_eq (by congr 2)

theorem clamped_first (h : l ≠ []) : clamped l h 0 = l.head h := by
  unfold clamped
  simp [List.head_eq_getElem]

theorem clamped_last (h : l ≠ []) : clamped l h (l.length - 1) = l.getLast h := by
  unfold clamped
  simp [List.getLast_eq_getElem]

/-- Raised values are a raised sequence. -/
theorem clamped_le_clamped [Preorder α] {l' : List α} (h : l ≠ []) (h' : l' ≠ [])
    (hle : List.Forall₂ (· ≤ ·) l l') (i : ℕ) : clamped l h i ≤ clamped l' h' i := by
  have hlength := hle.length_eq
  have hpos := List.length_pos_of_ne_nil h
  unfold clamped
  have hget := hle.get (i := min i (l.length - 1)) (by omega) (by omega)
  simpa only [hlength] using hget

theorem exists_clamped (h : l ≠ []) {x : α} (hx : x ∈ l) :
    ∃ i ≤ l.length - 1, clamped l h i = x := by
  obtain ⟨i, hi⟩ := List.get_of_mem hx
  refine ⟨i, by omega, ?_⟩
  rw [← hi]
  unfold clamped
  congr 2
  omega

theorem first_le [Preorder α] (h : l ≠ []) (hsorted : l.Pairwise (· ≤ ·)) {x : α} (hx : x ∈ l) :
    clamped l h 0 ≤ x := by
  obtain ⟨i, _, rfl⟩ := exists_clamped h hx
  exact clamped_mono h hsorted (Nat.zero_le i)

theorem le_last [Preorder α] (h : l ≠ []) (hsorted : l.Pairwise (· ≤ ·)) {x : α} (hx : x ∈ l) :
    x ≤ clamped l h (l.length - 1) := by
  obtain ⟨i, hi, rfl⟩ := exists_clamped h hx
  exact clamped_mono h hsorted hi

end Clamped

section Rank

variable {α : Type*} [Field α] [LinearOrder α] [IsStrictOrderedRing α] [FloorSemiring α]

/-- `x` is what a list has at the rank `k`: a member at a whole rank, else the point of the line between
    the two neighbours. -/
structure AtRank (l : List α) (k x : α) : Prop where
  member : ∀ i : ℕ, k = i → l[i]? = some x
  between : ∀ i : ℕ, (i : α) < k → k < i + 1 → ∃ low high, l[i]? = some low ∧
    l[i + 1]? = some high ∧ x = low + (high - low) * (k - i)

theorem interpolate_atRank {l : List α} {k : α} (h : l ≠ []) (hk : k ≤ ((l.length - 1 : ℕ) : α)) :
    AtRank l k (interpolate (clamped l h) k) where
  member := by
    intro i hi
    rw [hi, interpolate_natCast]
    rw [hi] at hk
    exact getElem?_clamped h (by exact_mod_cast hk)
  between := by
    intro i hlow hhigh
    have hi : i < l.length - 1 := by exact_mod_cast hlow.trans_le hk
    exact ⟨_, _, getElem?_clamped h hi.le, getElem?_clamped h hi, interpolate_inside _ hlow hhigh⟩

end Rank

end Interpolation
