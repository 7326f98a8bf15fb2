/-
  File:      ModelOps/Lib/Http.lean
  Subject:   WHAT A CALL OF AN HTTP CLIENT COMES TO, over any type of bodies.

  A call raises, or is answered with some status; `raise_for_status` raises the same exception for
  every status outside 200..299. `checked_eq_some` is all that a caller has to know.
-/
import Mathlib.Tactic.Common

namespace Http

inductive Answer (β : Type) where
  /-- no answer: refused, timed out, garbled -/
  | httpError
  | answered (statusCode : Nat) (body : β)

/-- `response.is_success`. -/
def isSuccess (statusCode : Nat) : Bool := decide (200 ≤ statusCode) && decide (statusCode ≤ 299)

variable {β : Type} {a : Answer β} {b : β}

/-- The body of an answer that `raise_for_status` lets through; `none` is the error. -/
def Answer.checked : Answer β → Option β
  | .httpError => none
  | .answered statusCode body => if isSuccess statusCode then some body else none

theorem checked_eq_some :
    a.checked = some b ↔ ∃ statusCode, a = .answered statusCode b ∧ isSuccess statusCode = true := by
  cases a with
  | httpError =>
      refine iff_of_false (fun h => by cases h) ?_
      rintro ⟨_, h, _⟩
      cases h
  | answered statusCode body =>
      show (if isSuccess statusCode = true then some body else none) = some b ↔ _
      constructor
      · intro h
        by_cases hs : isSuccess statusCode = true
        · rw [if_pos hs] at h
          cases h
          exact ⟨statusCode, rfl, hs⟩
        · rw [if_neg hs] at h
          cases h
      · rintro ⟨_, h, hs⟩
        cases h
        exact if_pos hs

end Http
