/-
  File:      ModelOps/Lib/Slot.lean
  Subject:   ONE SLOT FOR MANY VERSIONED KEYS: what a rule that compares versions only against the value
             it holds lets through.

  A slot holds one value. An offer is refused if it is not admitted, or if the slot holds a value of the
  same key with this version or a later one. A value of another key always gets in, so the slot forgets
  what it had accepted of the first one.

  * `Rule.Returns` -- an offer of a key the slot does not hold, at or below a version it once accepted;
  * **`ascending_iff`** -- the versions accepted of each key ascend exactly if no offer returns.
-/
import ModelOps.Lib.Transition
import Mathlib.Order.Lattice
import Mathlib.Data.List.Pairwise

namespace Versioned

open Labelled

/-- The value held, and everything accepted so far, in order. -/
structure Slot (α : Type) where
  current : α
  accepted : List α := []

/-- What a value is compared by, and which values are admitted at all. -/
structure Rule (α κ τ : Type) where
  key : α → κ
  version : α → τ
  admits : α → Bool

variable {α κ τ : Type} [DecidableEq κ] [LinearOrder τ] (R : Rule α κ τ)

namespace Rule

/-- The slot holds this version of the key, or a later one. -/
def Stale (x current : α) : Prop := R.key x = R.key current ∧ R.version x ≤ R.version current

instance (x current : α) : Decidable (R.Stale x current) := inferInstanceAs (Decidable (_ ∧ _))

def offer (slot : Slot α) (x : α) : Slot α :=
  if R.admits x = true ∧ ¬R.Stale x slot.current then ⟨x, slot.accepted ++ [x]⟩ else slot

/-- Of two values of one key, the one accepted later has the greater version. -/
def Ascending (accepted : List α) : Prop :=
  accepted.Pairwise fun x y => R.key x = R.key y → R.version x < R.version y

/-- The slot holds another key, and once accepted this version of the offer's key or a later one. -/
def Returns (slot : Slot α) (x : α) : Prop :=
  R.admits x = true ∧ R.key x ≠ R.key slot.current ∧
    ∃ y ∈ slot.accepted, R.key y = R.key x ∧ R.version x ≤ R.version y

/-- The slot holds the greatest version accepted of the key it holds. -/
def Top (slot : Slot α) : Prop :=
  ∀ y ∈ slot.accepted, R.key y = R.key slot.current → R.version y ≤ R.version slot.current

end Rule

variable {R} {slot : Slot α} {x : α}

theorem offer_accepted (ha : R.admits x = true) (hs : ¬R.Stale x slot.current) :
    R.offer slot x = ⟨x, slot.accepted ++ [x]⟩ :=
  if_pos ⟨ha, hs⟩

/-- An offer is accepted, or the slot stays. -/
theorem offer_cases (R : Rule α κ τ) (slot : Slot α) (x : α) :
    (R.admits x = true ∧ ¬R.Stale x slot.current ∧ R.offer slot x = ⟨x, slot.accepted ++ [x]⟩) ∨
    R.offer slot x = slot := by
  by_cases h : R.admits x = true ∧ ¬R.Stale x slot.current
  · exact Or.inl ⟨h.1, h.2, if_pos h⟩
  · exact Or.inr (if_neg h)

/-- Nothing accepted is taken back. -/
theorem offers_grow (slot : Slot α) (xs : List α) :
    slot.accepted <+: (xs.foldl R.offer slot).accepted := by
  induction xs generalizing slot with
  | nil => exact List.prefix_refl _
  | cons x xs ih =>
      refine List.IsPrefix.trans ?_ (ih (R.offer slot x))
      rcases offer_cases R slot x with ⟨_, _, h⟩ | h
      · rw [h]
        exact List.prefix_append _ _
      · exact ⟨[], by rw [h, List.append_nil]⟩

/-- An offer that returns breaks the order. -/
theorem returns_breaks (hr : R.Returns slot x) : ¬R.Ascending (R.offer slot x).accepted := by
  obtain ⟨ha, hkey, y, hy, hyx, hle⟩ := hr
  rw [offer_accepted ha fun hs => hkey hs.1]
  intro hasc
  have hlt := (List.pairwise_append.mp hasc).2.2 y hy x (List.mem_singleton.mpr rfl) hyx
  exact absurd hle (not_le_of_gt hlt)

/-- **An offer that does not return keeps the order**, and the slot holds the greatest version of its
    key. -/
theorem offer_keeps (htop : R.Top slot) (hasc : R.Ascending slot.accepted)
    (hr : ¬R.Returns slot x) : R.Top (R.offer slot x) ∧ R.Ascending (R.offer slot x).accepted := by
  rcases offer_cases R slot x with ⟨ha, hs, h⟩ | h
  · rw [h]
    -- below everything of its key: by the slot where it holds the key, by the history where not
    have hbelow : ∀ y ∈ slot.accepted, R.key y = R.key x → R.version y < R.version x := by
      intro y hy hyx
      by_contra hle
      rw [not_lt] at hle
      by_cases hkey : R.key x = R.key slot.current
      · exact hs ⟨hkey, le_trans hle (htop y hy (hyx.trans hkey))⟩
      · exact hr ⟨ha, hkey, y, hy, hyx, hle⟩
    refine ⟨?_, List.pairwise_append.mpr ⟨hasc, List.pairwise_singleton _ _, ?_⟩⟩
    · intro y hy hyx
      rcases List.mem_append.mp hy with hy | hy
      · exact le_of_lt (hbelow y hy hyx)
      · rw [List.mem_singleton.mp hy]
    · intro y hy z hz hyz
      rw [List.mem_singleton.mp hz] at hyz ⊢
      exact hbelow y hy hyz
  · rw [h]
    exact ⟨htop, hasc⟩

/-- **The versions accepted of each key ascend exactly if no offer returns.** -/
theorem ascending_iff (htop : R.Top slot) (hasc : R.Ascending slot.accepted) (xs : List α) :
    R.Ascending (xs.foldl R.offer slot).accepted ↔
      Along (fun slot x => some (R.offer slot x)) (fun slot x _ => ¬R.Returns slot x) slot xs := by
  induction xs generalizing slot with
  | nil => exact ⟨fun _ => trivial, fun _ => hasc⟩
  | cons x xs ih =>
      by_cases hr : R.Returns slot x
      · constructor
        · intro h
          exact absurd (h.sublist (offers_grow (R.offer slot x) xs).sublist) (returns_breaks hr)
        · intro h
          exact absurd hr (h _ rfl).1
      · obtain ⟨htop', hasc'⟩ := offer_keeps htop hasc hr
        constructor
        · intro h s hs
          cases hs
          exact ⟨hr, (ih htop' hasc').mp h⟩
        · intro h
          exact (ih htop' hasc').mpr (h _ rfl).2

end Versioned
