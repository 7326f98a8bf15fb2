/-
  File:      ModelOps/Lib/Table.lean
  Subject:   KEYED TABLES: rows with a primary key, and the two queries a program asks of them.

  A `Table key` carries, as a field, that no two of its rows share a key, so a table that breaks
  its primary key cannot be built. The operations:

  * `get?` -- the row of a key; `mem_iff_get?` says that it finds every row;
  * `put` -- replace the row with the same key, or append: what an UPDATE by key and a permitted
    INSERT do. `mem_put`, `get?_put_self` and `get?_put_of_ne` are all a caller needs, and
    `unique_put` keeps a unique index on other columns;
  * `latestBy f p` -- `SELECT .. WHERE p ORDER BY f DESC LIMIT 1` over a list of rows.
-/
import Mathlib.Data.List.MinMax
import Mathlib.Data.List.Nodup

namespace Relational

/-- Rows with pairwise distinct primary keys. -/
structure Table {κ ρ : Type} (key : ρ → κ) where
  rows : List ρ
  keys_nodup : (rows.map key).Nodup

section Rows

variable {κ ρ : Type} [DecidableEq κ] {key : ρ → κ}

/-- Replace the first row with the key of `r`, or append `r`. -/
def upsert (key : ρ → κ) (r : ρ) : List ρ → List ρ
  | [] => [r]
  | r' :: rs => if key r' = key r then r :: rs else r' :: upsert key r rs

theorem mem_keys_upsert (r : ρ) (k : κ) : ∀ rs : List ρ,
    k ∈ (upsert key r rs).map key ↔ k = key r ∨ k ∈ rs.map key
  | [] => by simp [upsert]
  | r' :: rs => by
      unfold upsert
      split
      · rename_i h
        simp [h]
      · simp only [List.map_cons, List.mem_cons, mem_keys_upsert r k rs]
        tauto

theorem nodup_keys_upsert (r : ρ) : ∀ rs : List ρ,
    (rs.map key).Nodup → ((upsert key r rs).map key).Nodup
  | [], _ => by simp [upsert]
  | r' :: rs, h => by
      simp only [List.map_cons, List.nodup_cons] at h
      unfold upsert
      split
      · rename_i e
        simpa [← e] using h
      · rename_i hne
        simp only [List.map_cons, List.nodup_cons, mem_keys_upsert, not_or]
        exact ⟨⟨hne, h.1⟩, nodup_keys_upsert r rs h.2⟩

theorem mem_upsert (r x : ρ) : ∀ rs : List ρ, (rs.map key).Nodup →
    (x ∈ upsert key r rs ↔ x = r ∨ (x ∈ rs ∧ key x ≠ key r))
  | [], _ => by simp [upsert]
  | r' :: rs, h => by
      simp only [List.map_cons, List.nodup_cons] at h
      unfold upsert
      split
      · rename_i e
        -- the replaced row was the only one with this key
        have hrest : ∀ y ∈ rs, key y ≠ key r := fun y hy hk =>
          h.1 (by rw [e, ← hk]; exact List.mem_map_of_mem hy)
        simp only [List.mem_cons]
        constructor
        · rintro (rfl | hx)
          · exact Or.inl rfl
          · exact Or.inr ⟨Or.inr hx, hrest x hx⟩
        · rintro (rfl | ⟨rfl | hx, hk⟩)
          · exact Or.inl rfl
          · exact absurd e hk
          · exact Or.inr hx
      · rename_i hne
        simp only [List.mem_cons, mem_upsert r x rs h.2]
        constructor
        · rintro (rfl | rfl | ⟨hx, hk⟩)
          · exact Or.inr ⟨Or.inl rfl, hne⟩
          · exact Or.inl rfl
          · exact Or.inr ⟨Or.inr hx, hk⟩
        · rintro (rfl | ⟨rfl | hx, hk⟩)
          · exact Or.inr (Or.inl rfl)
          · exact Or.inl rfl
          · exact Or.inr (Or.inr ⟨hx, hk⟩)

/-- Rows the predicate does not select come and go unseen. -/
theorem filter_upsert (r : ρ) (p : ρ → Bool) (hr : p r = false) : ∀ rs : List ρ,
    (∀ x ∈ rs, key x = key r → p x = false) → (upsert key r rs).filter p = rs.filter p
  | [], _ => by simp [upsert, hr]
  | r' :: rs, h => by
      unfold upsert
      split
      · rename_i e
        simp [hr, h r' (by simp) e]
      · rw [List.filter_cons, List.filter_cons,
          filter_upsert r p hr rs fun x hx => h x (List.mem_cons_of_mem r' hx)]

end Rows

namespace Table

variable {κ ρ : Type} {key : ρ → κ}

instance : Membership ρ (Table key) := ⟨fun t r => r ∈ t.rows⟩

instance [DecidableEq ρ] (t : Table key) (r : ρ) : Decidable (r ∈ t) :=
  inferInstanceAs (Decidable (r ∈ t.rows))

theorem mem_rows {t : Table key} {r : ρ} : r ∈ t.rows ↔ r ∈ t := Iff.rfl

def empty (key : ρ → κ) : Table key := ⟨[], List.nodup_nil⟩

@[simp] theorem not_mem_empty (r : ρ) : r ∉ empty key := List.not_mem_nil

/-- Two rows with one key are one row. -/
theorem eq_of_key {t : Table key} {r r' : ρ} (hr : r ∈ t) (hr' : r' ∈ t) (hk : key r = key r') :
    r = r' :=
  List.inj_on_of_nodup_map t.keys_nodup hr hr' hk

variable [DecidableEq κ]

/-- The row with key `k`. -/
def get? (t : Table key) (k : κ) : Option ρ := t.rows.find? fun r => decide (key r = k)

/-- Replace the row with the key of `r`, or append it. -/
def put (t : Table key) (r : ρ) : Table key :=
  ⟨upsert key r t.rows, nodup_keys_upsert r t.rows t.keys_nodup⟩

@[simp] theorem mem_put {t : Table key} {r x : ρ} :
    x ∈ t.put r ↔ x = r ∨ (x ∈ t ∧ key x ≠ key r) :=
  mem_upsert r x t.rows t.keys_nodup

theorem get?_eq_none {t : Table key} {k : κ} : t.get? k = none ↔ ∀ r ∈ t, key r ≠ k := by
  simp [get?, mem_rows]

theorem get?_eq_some {t : Table key} {k : κ} {r : ρ} : t.get? k = some r ↔ r ∈ t ∧ key r = k := by
  constructor
  · intro h
    exact ⟨List.mem_of_find?_eq_some h, by simpa using List.find?_some h⟩
  · rintro ⟨hr, hk⟩
    cases hg : t.get? k with
    | none => exact absurd hk (get?_eq_none.mp hg r hr)
    | some r' =>
        have hr' : r' ∈ t := List.mem_of_find?_eq_some hg
        have hk' : key r' = k := by simpa using List.find?_some hg
        rw [eq_of_key hr' hr (hk'.trans hk.symm)]

theorem mem_iff_get? {t : Table key} {r : ρ} : r ∈ t ↔ t.get? (key r) = some r := by
  simp [get?_eq_some]

@[simp] theorem get?_put_self (t : Table key) (r : ρ) : (t.put r).get? (key r) = some r := by
  simp [get?_eq_some]

theorem get?_put_of_ne (t : Table key) {r : ρ} {k : κ} (h : k ≠ key r) :
    (t.put r).get? k = t.get? k := by
  cases hg : t.get? k with
  | none =>
      rw [get?_eq_none] at hg ⊢
      intro x hx
      rcases mem_put.mp hx with rfl | ⟨hx, _⟩
      · exact fun e => h e.symm
      · exact hg x hx
  | some x =>
      rw [get?_eq_some] at hg ⊢
      exact ⟨mem_put.mpr (Or.inr ⟨hg.1, fun e => h (hg.2 ▸ e)⟩), hg.2⟩

/-- The row of any key after a `put`, by cases on whose key it is. -/
theorem get?_put (t : Table key) (r : ρ) (k : κ) :
    (t.put r).get? k = if k = key r then some r else t.get? k := by
  split
  · rename_i h
    rw [h, get?_put_self]
  · rename_i h
    exact get?_put_of_ne t h

/-- A relation that held rows apart still does after a `put` that no other row is related to: what
    a unique index on other columns needs. -/
theorem unique_put {t : Table key} {r : ρ} {R : ρ → ρ → Prop} (hsymm : ∀ x y, R x y → R y x)
    (ht : ∀ x ∈ t, ∀ y ∈ t, R x y → x = y) (hr : ∀ x ∈ t, key x ≠ key r → ¬R r x) :
    ∀ x ∈ t.put r, ∀ y ∈ t.put r, R x y → x = y := by
  intro x hx y hy h
  rcases mem_put.mp hx with rfl | hx'
  · rcases mem_put.mp hy with rfl | hy'
    · rfl
    · exact absurd h (hr y hy'.1 hy'.2)
  · rcases mem_put.mp hy with rfl | hy'
    · exact absurd (hsymm _ _ h) (hr x hx'.1 hx'.2)
    · exact ht x hx'.1 y hy'.1 h

end Table

/-! ## The newest row -/

section Latest

variable {ρ τ : Type} [LinearOrder τ] {f : ρ → τ} {p : ρ → Bool} {l : List ρ} {r : ρ}

/-- `SELECT .. WHERE p ORDER BY f DESC LIMIT 1`. -/
def latestBy (f : ρ → τ) (p : ρ → Bool) (l : List ρ) : Option ρ := (l.filter p).argmax f

theorem latestBy_mem (h : latestBy f p l = some r) :
    r ∈ l ∧ p r = true ∧ ∀ r' ∈ l, p r' = true → f r' ≤ f r := by
  have hm := List.mem_filter.mp (List.argmax_mem h)
  exact ⟨hm.1, hm.2, fun r' hr' hp => List.le_of_mem_argmax (List.mem_filter.mpr ⟨hr', hp⟩) h⟩

theorem latestBy_eq_none : latestBy f p l = none ↔ ∀ r ∈ l, p r = false := by
  unfold latestBy
  rw [List.argmax_eq_none, List.filter_eq_nil_iff]
  simp

/-- A row strictly above every other candidate is the newest. -/
theorem latestBy_eq_some (hr : r ∈ l) (hp : p r = true)
    (hmax : ∀ r' ∈ l, p r' = true → r' ≠ r → f r' < f r) : latestBy f p l = some r := by
  cases h : latestBy f p l with
  | none =>
      have := latestBy_eq_none.mp h r hr
      rw [hp] at this
      cases this
  | some r' =>
      obtain ⟨hr', hp', hle⟩ := latestBy_mem h
      by_cases e : r' = r
      · rw [e]
      · exact absurd (hle r hr hp) (not_le_of_gt (hmax r' hr' hp' e))

/-- A row appended above every earlier candidate is the newest. -/
theorem latestBy_append_newest (hp : p r = true) (hmax : ∀ r' ∈ l, p r' = true → f r' < f r) :
    latestBy f p (l ++ [r]) = some r := by
  refine latestBy_eq_some (by simp) hp fun r' hr' hp' hne => ?_
  rcases List.mem_append.mp hr' with h | h
  · exact hmax r' h hp'
  · exact absurd (List.mem_singleton.mp h) hne

/-- An appended row the query does not select changes nothing. -/
theorem latestBy_append_other (hp : p r = false) : latestBy f p (l ++ [r]) = latestBy f p l := by
  simp [latestBy, List.filter_append, hp]

/-- A `put` of a row the query selects neither before nor after changes nothing. -/
theorem latestBy_put_other {κ : Type} [DecidableEq κ] {key : ρ → κ} {t : Table key} (hr : p r = false)
    (hold : ∀ x ∈ t, key x = key r → p x = false) :
    latestBy f p (t.put r).rows = latestBy f p t.rows :=
  congrArg (List.argmax f) (filter_upsert r p hr t.rows hold)

end Latest

end Relational
