/-
  File:      ModelOps/Lib/Publication.lean
  Subject:   PUBLICATION LOGS: one channel, many owners, one running number.

  A channel is the list of what was published on it, oldest first, each entry with its owner. The
  number of an entry is its position, counted from 1, so numbers are never reused and the newest
  entry carries the length of the log.

  * `entryAt l n` -- the entry with number `n`; appending never changes an old one
    (`entryAt_append`), so whoever holds a pair (number, entry) holds it forever;
  * `Latest l o n c` -- the newest entry of owner `o` is number `n` with content `c`. Only the owner of
    the last entry holds the greatest number (`Latest.lt_of_ne_last`).
-/
import Mathlib.Data.List.Basic

namespace Publication

variable {ω γ : Type}

/-- Entry number `n`, counted from 1. -/
def entryAt (l : List (ω × γ)) (n : Nat) : Option (ω × γ) :=
  match n with
  | 0 => none
  | n + 1 => l[n]?

theorem entryAt_le {l : List (ω × γ)} {n : Nat} {e : ω × γ} (h : entryAt l n = some e) :
    1 ≤ n ∧ n ≤ l.length := by
  cases n with
  | zero => cases h
  | succ n =>
      have := (List.getElem?_eq_some_iff.mp h).1
      omega

/-- Appending leaves every numbered entry alone. -/
theorem entryAt_append {l : List (ω × γ)} {n : Nat} {e : ω × γ} (h : entryAt l n = some e)
    (l' : List (ω × γ)) : entryAt (l ++ l') n = some e := by
  cases n with
  | zero => cases h
  | succ n =>
      have hn := (List.getElem?_eq_some_iff.mp h).1
      show (l ++ l')[n]? = some e
      rw [List.getElem?_append_left hn]
      exact h

@[simp] theorem entryAt_append_new (l : List (ω × γ)) (e : ω × γ) :
    entryAt (l ++ [e]) (l.length + 1) = some e := by
  simp [entryAt]

/-- An entry of the longer log is old, or it is the new one. -/
theorem entryAt_append_cases {l : List (ω × γ)} {n : Nat} {e e' : ω × γ}
    (h : entryAt (l ++ [e']) n = some e) :
    entryAt l n = some e ∨ (n = l.length + 1 ∧ e = e') := by
  have hn := entryAt_le h
  rw [List.length_append, List.length_singleton] at hn
  by_cases hl : n = l.length + 1
  · subst hl
    rw [entryAt_append_new] at h
    exact Or.inr ⟨rfl, (Option.some.inj h).symm⟩
  · left
    cases n with
    | zero => cases h
    | succ n =>
        have hlt : n < l.length := by omega
        have h' : (l ++ [e'])[n]? = some e := h
        rw [List.getElem?_append_left hlt] at h'
        exact h'

/-- The entry that carries the greatest number is the last one. -/
theorem entryAt_length {l : List (ω × γ)} {e : ω × γ} (h : entryAt l l.length = some e) :
    l.getLast? = some e := by
  rw [List.getLast?_eq_getElem?]
  cases hl : l.length with
  | zero => rw [hl] at h; cases h
  | succ n => rw [hl] at h; exact h

/-- **The newest entry of owner `o` is number `n` with content `c`.** -/
structure Latest (l : List (ω × γ)) (o : ω) (n : Nat) (c : γ) : Prop where
  entry : entryAt l n = some (o, c)
  newest : ∀ n' c', entryAt l n' = some (o, c') → n' ≤ n

namespace Latest

variable {l : List (ω × γ)} {o o' : ω} {n n' : Nat} {c c' : γ}

theorem le_length (h : Latest l o n c) : n ≤ l.length := (entryAt_le h.entry).2

theorem pos (h : Latest l o n c) : 1 ≤ n := (entryAt_le h.entry).1

/-- Publishing gives the owner the greatest number. -/
theorem append_self (l : List (ω × γ)) (o : ω) (c : γ) :
    Latest (l ++ [(o, c)]) o (l.length + 1) c where
  entry := entryAt_append_new l (o, c)
  newest n' c' h := by
    have := (entryAt_le h).2
    simpa using this

/-- Another owner's publication leaves the newest entry of `o` alone. -/
theorem append_other (h : Latest l o n c) (hne : o ≠ o') (c' : γ) :
    Latest (l ++ [(o', c')]) o n c where
  entry := entryAt_append h.entry _
  newest n' c'' h' := by
    rcases entryAt_append_cases h' with h' | ⟨_, e⟩
    · exact h.newest n' c'' h'
    · exact absurd (congrArg Prod.fst e) hne

/-- Only the owner of the last entry holds the greatest number. -/
theorem lt_of_ne_last (h : Latest l o n c) {e : ω × γ} (hl : l.getLast? = some e) (hne : o ≠ e.1) :
    n < l.length := by
  refine Nat.lt_of_le_of_ne h.le_length fun hn => ?_
  have hlast := entryAt_length (hn ▸ h.entry)
  rw [hl] at hlast
  exact hne (congrArg Prod.fst (Option.some.inj hlast)).symm

/-- The owner of the last entry holds the greatest number and the last content. -/
theorem of_last (h : Latest l o n c) {c' : γ} (hl : l.getLast? = some (o, c')) :
    n = l.length ∧ c = c' := by
  have he : entryAt l l.length = some (o, c') := by
    rw [List.getLast?_eq_getElem?] at hl
    have hlen := (List.getElem?_eq_some_iff.mp hl).1
    cases hn : l.length with
    | zero => omega
    | succ k => rw [hn] at hl; exact hl
  have hle := h.newest _ _ he
  have hn : n = l.length := Nat.le_antisymm h.le_length hle
  refine ⟨hn, ?_⟩
  have e := h.entry
  rw [hn, he] at e
  simpa using e.symm

end Latest

end Publication
