/-
  File:      ModelOps/Lib/Decimal.lean
  Subject:   ROUNDING TO DECIMALS, TIES TO EVEN, over exact rationals.

  * `roundHalfEven q` -- the integer nearest to `q`, the even one of two equally near;
    `Nearest` is its specification and `nearest_unique` says that it has one solution;
  * `round d q` -- `q` to `d` decimals.

  **`round_compl`**: for `d ≥ 1` the roundings of `q` and of `1 - q` add up to exactly `1`, also on
  ties, because `10 ^ d` is even. `round_nonneg` and `round_le_one` keep them in `[0, 1]`;
  `round_pos_iff` says when one is lost.
-/
import Mathlib

namespace Decimal

/-- `n` is an integer nearest to `q`, and an even one where two are. -/
def Nearest (q : ℚ) (n : ℤ) : Prop := |q - n| < 1 / 2 ∨ (|q - n| = 1 / 2 ∧ Even n)

/-- The nearest integer, ties to even. -/
def roundHalfEven (q : ℚ) : ℤ :=
  if q - ⌊q⌋ < 1 / 2 then ⌊q⌋
  else if 1 / 2 < q - ⌊q⌋ then ⌊q⌋ + 1
  else if ⌊q⌋ % 2 = 0 then ⌊q⌋ else ⌊q⌋ + 1

theorem nearest_roundHalfEven (q : ℚ) : Nearest q (roundHalfEven q) := by
  have h0 : (0 : ℚ) ≤ q - ⌊q⌋ := sub_nonneg.mpr (Int.floor_le q)
  have h1 : q - ⌊q⌋ < 1 := by linarith [Int.lt_floor_add_one q]
  unfold roundHalfEven Nearest
  split
  · left
    rwa [abs_of_nonneg h0]
  · rename_i hlow
    split
    · left
      push_cast
      rw [abs_lt]
      constructor <;> linarith
    · rename_i hhigh
      have htie : q - ⌊q⌋ = 1 / 2 := le_antisymm (not_lt.mp hhigh) (not_lt.mp hlow)
      right
      split
      · rename_i hev
        exact ⟨by rw [abs_of_nonneg h0, htie], Int.even_iff.mpr hev⟩
      · rename_i hodd
        refine ⟨?_, ?_⟩
        · push_cast
          rw [show q - (⌊q⌋ + 1) = -(1 / 2) by linarith, abs_neg, abs_of_pos (by norm_num)]
        · have : ¬ Even ⌊q⌋ := fun h => hodd (Int.even_iff.mp h)
          exact (Int.not_even_iff_odd.mp this).add_one

/-- The specification has one solution. -/
theorem nearest_unique {q : ℚ} {m n : ℤ} (hm : Nearest q m) (hn : Nearest q n) : m = n := by
  -- both lie within `1 / 2` of `q`, so they are equal or neighbours on a tie
  have hle : ∀ k, Nearest q k → |q - k| ≤ 1 / 2 := fun k hk => hk.elim le_of_lt fun h => h.1.le
  have hmn : |(m : ℚ) - n| ≤ |q - m| + |q - n| := by
    rw [show (m : ℚ) - n = -(q - m) + (q - n) by ring]
    exact (abs_add_le _ _).trans (by rw [abs_neg])
  by_contra hne
  have hint : (1 : ℤ) ≤ |m - n| := Int.one_le_abs (sub_ne_zero.mpr hne)
  have hone : (1 : ℚ) ≤ |(m : ℚ) - n| := by exact_mod_cast hint
  have em : |q - m| = 1 / 2 := le_antisymm (hle m hm) (by linarith [hle n hn])
  have en : |q - n| = 1 / 2 := le_antisymm (hle n hn) (by linarith [hle m hm])
  have evm : Even m := hm.elim (fun h => absurd em h.ne) And.right
  have evn : Even n := hn.elim (fun h => absurd en h.ne) And.right
  have hdist : |(m : ℚ) - n| = 1 := le_antisymm (by linarith) hone
  have hd : |m - n| = 1 := by exact_mod_cast hdist
  have : Even (m - n) := evm.sub evn
  rcases (abs_eq (by norm_num : (0 : ℤ) ≤ 1)).mp hd with h | h <;> rw [h] at this <;>
    exact absurd this (by decide)

theorem roundHalfEven_eq {q : ℚ} {n : ℤ} (h : Nearest q n) : roundHalfEven q = n :=
  nearest_unique (nearest_roundHalfEven q) h

@[simp] theorem roundHalfEven_intCast (n : ℤ) : roundHalfEven n = n :=
  roundHalfEven_eq (Or.inl (by simp))

theorem roundHalfEven_mono {p q : ℚ} (h : p ≤ q) : roundHalfEven p ≤ roundHalfEven q := by
  by_contra hlt
  have hp := nearest_roundHalfEven p
  have hq := nearest_roundHalfEven q
  set m := roundHalfEven p with hm
  set n := roundHalfEven q with hn
  have hle : ∀ (x : ℚ) (k : ℤ), Nearest x k → |x - k| ≤ 1 / 2 := fun x k hk =>
    hk.elim le_of_lt fun h => h.1.le
  have hnm : (n : ℚ) + 1 ≤ m := by exact_mod_cast not_le.mp hlt
  have h1 := (abs_le.mp (hle p m hp)).1
  have h2 := (abs_le.mp (hle q n hq)).2
  -- the only room left is `p = q` half way between `n` and `m`, and then both round alike
  have hpq : p = q := by linarith
  exact hlt (le_of_eq (by rw [hm, hn, hpq]))

/-- A half itself is rounded away. -/
theorem roundHalfEven_pos_iff {q : ℚ} : 0 < roundHalfEven q ↔ 1 / 2 < q := by
  constructor
  · intro h
    by_contra hle
    have hhalf : roundHalfEven (1 / 2) = 0 := roundHalfEven_eq (Or.inr ⟨by norm_num, by decide⟩)
    have hmono := roundHalfEven_mono (not_lt.mp hle)
    omega
  · intro h
    by_contra hle
    have hn : ((roundHalfEven q : ℤ) : ℚ) ≤ 0 := by exact_mod_cast not_lt.mp hle
    rcases nearest_roundHalfEven q with hlt | ⟨heq, _⟩
    · linarith [(abs_lt.mp hlt).2]
    · -- the tie itself would put `q` at most at a half
      have hq := le_abs_self (q - roundHalfEven q)
      linarith

/-- Rounding commutes with the reflection at an integer. -/
theorem roundHalfEven_sub {k : ℤ} (hk : Even k) (q : ℚ) :
    roundHalfEven (k - q) = k - roundHalfEven q := by
  apply roundHalfEven_eq
  have hq := nearest_roundHalfEven q
  have he : (k : ℚ) - q - ((k - roundHalfEven q : ℤ) : ℚ) = -(q - roundHalfEven q) := by
    push_cast
    ring
  unfold Nearest
  rw [he, abs_neg]
  exact hq.imp id fun h => ⟨h.1, hk.sub h.2⟩

/-! ## To decimals -/

/-- `q` to `d` decimals. -/
def round (d : ℕ) (q : ℚ) : ℚ := roundHalfEven (q * 10 ^ d) / 10 ^ d

variable {d : ℕ} {q : ℚ}

theorem round_mono {p : ℚ} (h : p ≤ q) : round d p ≤ round d q := by
  unfold round
  gcongr
  exact_mod_cast roundHalfEven_mono (by gcongr)

/-- A decimal with `d` places is its own rounding. -/
theorem round_of_int {n : ℤ} (h : q * 10 ^ d = n) : round d q = q := by
  unfold round
  rw [h, roundHalfEven_intCast, ← h]
  field_simp

@[simp] theorem round_zero : round d 0 = 0 := round_of_int (n := 0) (by simp)

@[simp] theorem round_one : round d 1 = 1 := round_of_int (n := 10 ^ d) (by simp)

theorem round_nonneg (h : 0 ≤ q) : 0 ≤ round d q := by
  simpa using round_mono (d := d) h

theorem round_le_one (h : q ≤ 1) : round d q ≤ 1 := by
  simpa using round_mono (d := d) h

/-- **What survives rounding**: more than half a unit of the last place. -/
theorem round_pos_iff : 0 < round d q ↔ 1 / 2 < q * 10 ^ d := by
  rw [← roundHalfEven_pos_iff]
  unfold round
  rw [div_pos_iff_of_pos_right (by positivity)]
  exact Int.cast_pos

/-- **The two sides of a split add up to exactly one.** -/
theorem round_compl (hd : 1 ≤ d) (q : ℚ) : round d (1 - q) + round d q = 1 := by
  have hev : Even ((10 : ℤ) ^ d) := (by decide : Even (10 : ℤ)).pow_of_ne_zero (by omega)
  have h := roundHalfEven_sub hev (q * 10 ^ d)
  push_cast at h
  unfold round
  rw [show (1 - q) * 10 ^ d = 10 ^ d - q * 10 ^ d by ring, h]
  push_cast
  field_simp
  ring

end Decimal
