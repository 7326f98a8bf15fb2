/-
  File:      ModelOps/Lib/Signal.lean
  Subject:   CHANGES OF A SIGNAL: what a reporter says that speaks only when the value it sees is not
             the one it saw last.

  * `Seen.see`, `Seen.all` -- one value, and a list of them;
  * `all_silent_iff` -- it is silent exactly while the signal stays where it was;
  * `all_constant` -- a constant one changes at most once;
  * `news` -- the values it speaks up for: they alternate (`news_alternates`), the last of them is where
    the signal stands (`news_last`), and there is one for each change (`news_length`).
-/
import Mathlib.Tactic.Common

namespace Signal

/-- The value seen last, and how often it changed. -/
structure Seen (α : Type) where
  last : α
  changes : Nat
  deriving DecidableEq

variable {α : Type} [DecidableEq α]

def Seen.see (s : Seen α) (b : α) : Seen α := if b = s.last then s else ⟨b, s.changes + 1⟩

def Seen.all (s : Seen α) (bs : List α) : Seen α := bs.foldl Seen.see s

variable {s : Seen α} {b : α} {bs bs' : List α}

theorem see_same (h : b = s.last) : s.see b = s := if_pos h

theorem see_other (h : b ≠ s.last) : s.see b = ⟨b, s.changes + 1⟩ := if_neg h

@[simp] theorem see_last (s : Seen α) (b : α) : (s.see b).last = b := by
  unfold Seen.see
  split
  · rename_i h
    exact h.symm
  · rfl

@[simp] theorem all_nil (s : Seen α) : s.all [] = s := rfl

@[simp] theorem all_cons (s : Seen α) (b : α) (bs : List α) : s.all (b :: bs) = (s.see b).all bs := rfl

theorem all_append (s : Seen α) (bs bs' : List α) : s.all (bs ++ bs') = (s.all bs).all bs' :=
  List.foldl_append

theorem all_mono (s : Seen α) (bs : List α) : s.changes ≤ (s.all bs).changes := by
  induction bs generalizing s with
  | nil => exact Nat.le_refl _
  | cons b bs ih =>
      refine Nat.le_trans ?_ (ih (s.see b))
      by_cases h : b = s.last
      · exact Nat.le_of_eq (by rw [see_same h])
      · rw [see_other h]
        exact Nat.le_succ _

/-- A signal that stays where it was says nothing. -/
theorem all_steady (h : ∀ b ∈ bs, b = s.last) : s.all bs = s := by
  induction bs with
  | nil => rfl
  | cons b bs ih =>
      rw [all_cons, see_same (h b List.mem_cons_self)]
      exact ih fun b' hb' => h b' (List.mem_cons_of_mem b hb')

/-- **A signal is silent exactly while it stays where it was.** -/
theorem all_silent_iff : (s.all bs).changes ≤ s.changes ↔ ∀ b ∈ bs, b = s.last := by
  constructor
  · intro h b hb
    induction bs with
    | nil => cases hb
    | cons b0 bs ih =>
        rw [all_cons] at h
        by_cases h0 : b0 = s.last
        · rw [see_same h0] at h
          rcases List.mem_cons.mp hb with rfl | hb
          · exact h0
          · exact ih h hb
        · have hmono := all_mono (s.see b0) bs
          rw [see_other h0] at h hmono
          have hchanged : s.changes + 1 ≤ s.changes := Nat.le_trans hmono h
          omega
  · intro h
    exact Nat.le_of_eq (by rw [all_steady h])

/-- **A constant signal changes at most once.** -/
theorem all_constant (h : ∀ b' ∈ bs, b' = b) : (s.all bs).changes ≤ s.changes + 1 := by
  cases bs with
  | nil => exact Nat.le_succ _
  | cons b0 bs =>
      have hrest : (s.see b0).all bs = s.see b0 := by
        refine all_steady ?_
        intro b' hb'
        rw [see_last, h b' (List.mem_cons_of_mem b0 hb'), h b0 List.mem_cons_self]
      rw [all_cons, hrest]
      by_cases hb : b0 = s.last
      · rw [see_same hb]
        exact Nat.le_succ _
      · exact Nat.le_of_eq (by rw [see_other hb])

/-- The values that differ from the one before, `last` standing before the first. -/
def news : α → List α → List α
  | _, [] => []
  | last, b :: bs => if b = last then news last bs else b :: news b bs

/-- How many neighbours of a list differ. -/
def changesIn (bs : List α) : Nat := (bs.zip bs.tail).countP fun p => decide (p.2 ≠ p.1)

theorem changesIn_cons (b b' : α) (bs : List α) :
    changesIn (b :: b' :: bs) = changesIn (b' :: bs) + if b' = b then 0 else 1 := by
  unfold changesIn
  rw [List.tail_cons, List.zip_cons_cons, List.countP_cons]
  simp

/-- **What is said alternates**, and starts with a change. -/
theorem news_alternates (last : α) (bs : List α) : (last :: news last bs).IsChain (· ≠ ·) := by
  induction bs generalizing last with
  | nil => exact .singleton last
  | cons b bs ih =>
      unfold news
      split
      · exact ih last
      · rename_i hb
        exact List.isChain_cons_cons.mpr ⟨Ne.symm hb, ih b⟩

/-- **What was said last is where the signal stands.** -/
theorem news_last (last : α) (bs : List α) :
    (last :: news last bs).getLast? = (last :: bs).getLast? := by
  induction bs generalizing last with
  | nil => rfl
  | cons b bs ih =>
      unfold news
      rw [List.getLast?_cons_cons]
      split
      · rename_i hb
        rw [ih last, hb]
      · rw [List.getLast?_cons_cons]
        exact ih b

theorem news_last_other {last b : α} (h : b ≠ last) (bs : List α) :
    (news last bs).getLast? = some b ↔ bs.getLast? = some b := by
  have hlast := news_last last bs
  rw [List.getLast?_cons, List.getLast?_cons, Option.some_inj] at hlast
  have hget : ∀ o : Option α, o = some b ↔ o.getD last = b := by
    intro o
    cases o with
    | none => exact ⟨fun ho => (by cases ho), fun ho => absurd ho.symm h⟩
    | some b' => exact Option.some_inj
  rw [hget, hget, hlast]

/-- **One value is said for each change.** -/
theorem news_length (last : α) (bs : List α) : (news last bs).length = changesIn (last :: bs) := by
  induction bs generalizing last with
  | nil => rfl
  | cons b bs ih =>
      unfold news
      rw [changesIn_cons]
      split
      · rename_i hb
        rw [ih last, hb, Nat.add_zero]
      · rw [List.length_cons, ih b]

theorem news_cons (last b : α) (bs : List α) :
    news last (b :: bs) = (if b = last then [] else [b]) ++ news b bs := by
  rw [news]
  split
  · rename_i hb
    rw [hb, List.nil_append]
  · rfl

end Signal
