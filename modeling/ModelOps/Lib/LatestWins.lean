/-
  File:      ModelOps/Lib/LatestWins.lean
  Subject:   A READER that asks again and again, and shows the answer of its last request only.

  Requests are served one at a time, in any order and at any time, and so their answers arrive. An answer
  is dropped if another request has been made since (`Reader.deliver`). `Known s a` says that the server's
  state is no older than the answer `a`, and `le a b` that `b` is no older than `a` (`Ages`).

  * `Since` -- what requests from some number on are answered with is no older than `a`;
  * **`never_back`** -- what is shown is never followed by anything older;
  * `quiet_latest` -- when nothing is under way, the answer shown is the last request's;
  * **`reads_own`** -- so what the server knows when a request is made is shown in the end.
-/
import ModelOps.Lib.Transition

namespace LatestWins

open Labelled

/-! ## 1. The reader -/

/-- The reader, the server, and what is under way between them. -/
structure Reader (σ α ε : Type) where
  server : σ
  /-- the number of the last request -/
  current : Nat
  /-- requests that have not been served -/
  pending : List Nat
  answers : List (Nat × Except ε α)
  shown : Option α
  error : Option ε
  loading : Bool
  /-- whose answer it was; the reader itself keeps no such number -/
  source : Option Nat

inductive Label (ℓ ε : Type) where
  /-- a step of the server -/
  | server (l : ℓ)
  /-- the reader asks again -/
  | rerun
  /-- the server answers a request -/
  | serve (n : Nat)
  /-- a request fails on its way -/
  | fail (n : Nat) (e : ε)
  /-- an answer arrives -/
  | deliver (n : Nat)

section Machine

variable {σ α ε ℓ : Type}

/-- It has asked once. -/
def Reader.start (s : σ) : Reader σ α ε where
  server := s
  current := 0
  pending := [0]
  answers := []
  shown := none
  error := none
  loading := true
  source := none

def Reader.answer (x : Reader σ α ε) (n : Nat) (a : Except ε α) : Reader σ α ε :=
  { x with pending := x.pending.erase n, answers := x.answers ++ [(n, a)] }

/-- Another request has been made since: its answer is dropped. -/
def Reader.deliver (x : Reader σ α ε) (n : Nat) (a : Except ε α) : Reader σ α ε :=
  let rest := x.answers.filter fun y => decide (y.1 ≠ n)
  if n = x.current then
    match a with
    | .ok a => { x with
        answers := rest, shown := some a, error := none, loading := false, source := some n }
    | .error e => { x with
        answers := rest, shown := none, error := some e, loading := false, source := some n }
  else { x with answers := rest }

variable (step : σ → ℓ → σ) (read : σ → Except ε α)

def next (x : Reader σ α ε) : Label ℓ ε → Option (Reader σ α ε)
  | .server l => some { x with server := step x.server l }
  | .rerun => some { x with current := x.current + 1, pending := x.pending ++ [x.current + 1] }
  | .serve n => if n ∈ x.pending then some (x.answer n (read x.server)) else none
  | .fail n e => if n ∈ x.pending then some (x.answer n (.error e)) else none
  | .deliver n => (x.answers.find? fun y => decide (y.1 = n)).map fun y => x.deliver n y.2

end Machine

/-- Known answers, and which answers are newer. -/
structure Ages {σ α ε ℓ : Type} (step : σ → ℓ → σ) (read : σ → Except ε α) (Known : σ → α → Prop)
    (le : α → α → Prop) : Prop where
  refl : ∀ a, le a a
  reads : ∀ {s a}, read s = .ok a → Known s a
  steps : ∀ {s a} l, Known s a → Known (step s l) a
  newer : ∀ {s a b}, Known s a → read s = .ok b → le a b

/-! ## 2. One step -/

section Steps

variable {σ α ε ℓ : Type} {step : σ → ℓ → σ} {read : σ → Except ε α} {Known : σ → α → Prop}
  {le : α → α → Prop} {x x' : Reader σ α ε} {l : Label ℓ ε} {ls : List (Label ℓ ε)} {n n0 : Nat} {a b : α}

/-- Every request is one of those made, and the last one is under way or has been answered. -/
structure Numbered (x : Reader σ α ε) : Prop where
  le_current : ∀ y ∈ x.answers, y.1 ≤ x.current
  pending_le : ∀ n ∈ x.pending, n ≤ x.current
  source_le : ∀ n ∈ x.source, n ≤ x.current
  last : x.current ∈ x.pending ∨ x.current ∈ x.answers.map Prod.fst ∨ x.source = some x.current

theorem numbered_start (s : σ) : Numbered (.start s : Reader σ α ε) where
  le_current _ hy := (List.not_mem_nil hy).elim
  pending_le _ hn := Nat.le_of_eq (List.mem_singleton.mp hn)
  source_le _ hn := nomatch hn
  last := Or.inl (List.mem_singleton_self 0)

theorem numbered_answer (h : Numbered x) (hn : n ∈ x.pending) (y : Except ε α) :
    Numbered (x.answer n y) where
  le_current z hz := by
    rcases List.mem_append.mp hz with hz | hz
    · exact h.le_current z hz
    · rw [List.mem_singleton.mp hz]
      exact h.pending_le n hn
  pending_le m hm := h.pending_le m (List.mem_of_mem_erase hm)
  source_le := h.source_le
  last := by
    show x.current ∈ x.pending.erase n ∨ x.current ∈ (x.answers ++ [(n, y)]).map Prod.fst ∨ _
    rw [List.map_append, List.mem_append]
    rcases h.last with hp | ha | hs
    · by_cases hsame : x.current = n
      · exact Or.inr (Or.inl (Or.inr (List.mem_singleton.mpr hsame)))
      · exact Or.inl ((List.mem_erase_of_ne hsame).mpr hp)
    · exact Or.inr (Or.inl (Or.inl ha))
    · exact Or.inr (Or.inr hs)

/-- What an answer that arrives leaves. -/
theorem deliver_cases (x : Reader σ α ε) (n : Nat) (y : Except ε α) :
    (x.deliver n y).server = x.server ∧ (x.deliver n y).current = x.current ∧
      (x.deliver n y).pending = x.pending ∧
      (x.deliver n y).answers = x.answers.filter (fun z => decide (z.1 ≠ n)) ∧
      ((n ≠ x.current ∧ (x.deliver n y).shown = x.shown ∧ (x.deliver n y).source = x.source) ∨
        (n = x.current ∧ (x.deliver n y).source = some n ∧
          ∀ b ∈ (x.deliver n y).shown, y = .ok b)) := by
  unfold Reader.deliver
  by_cases h : n = x.current
  · rw [if_pos h]
    cases y with
    | error e => exact ⟨rfl, rfl, rfl, rfl, Or.inr ⟨h, rfl, fun b hb => nomatch hb⟩⟩
    | ok a => exact ⟨rfl, rfl, rfl, rfl, Or.inr ⟨h, rfl, fun b hb => congrArg Except.ok (Option.some.inj hb)⟩⟩
  · rw [if_neg h]
    exact ⟨rfl, rfl, rfl, rfl, Or.inl ⟨h, rfl, rfl⟩⟩

theorem numbered_deliver (h : Numbered x) (y : Except ε α) : Numbered (x.deliver n y) := by
  obtain ⟨_, hcurrent, hpending, hanswers, hshown⟩ := deliver_cases x n y
  refine ⟨fun z hz => ?_, fun m hm => ?_, fun m hm => ?_, ?_⟩
  · rw [hanswers] at hz
    rw [hcurrent]
    exact h.le_current z (List.mem_filter.mp hz).1
  · rw [hpending] at hm
    rw [hcurrent]
    exact h.pending_le m hm
  · rw [hcurrent]
    rcases hshown with ⟨_, _, hsource⟩ | ⟨hsame, hsource, _⟩
    · rw [hsource] at hm
      exact h.source_le m hm
    · rw [hsource] at hm
      exact Nat.le_of_eq ((Option.some.inj hm).symm.trans hsame)
  · rw [hcurrent, hpending, hanswers]
    rcases hshown with ⟨hother, _, hsource⟩ | ⟨hsame, hsource, _⟩
    · rcases h.last with hp | ha | hs
      · exact Or.inl hp
      · obtain ⟨z, hz, hzn⟩ := List.mem_map.mp ha
        refine Or.inr (Or.inl (List.mem_map.mpr ⟨z, List.mem_filter.mpr ⟨hz, ?_⟩, hzn⟩))
        rw [hzn]
        exact decide_eq_true (Ne.symm hother)
      · exact Or.inr (Or.inr (hsource.trans hs))
    · rw [← hsame]
      exact Or.inr (Or.inr hsource)

/-- **What a step of the system is.** -/
theorem reader_cases (h : next step read x l = some x') :
    (∃ l', l = .server l' ∧ x' = { x with server := step x.server l' }) ∨
    (l = .rerun ∧ x' = { x with current := x.current + 1, pending := x.pending ++ [x.current + 1] }) ∨
    (∃ n y, n ∈ x.pending ∧ x' = x.answer n y ∧ ∀ b, y = .ok b → read x.server = .ok b) ∨
    ∃ n y, (n, y) ∈ x.answers ∧ x' = x.deliver n y := by
  cases l with
  | server l =>
      cases h
      exact Or.inl ⟨l, rfl, rfl⟩
  | rerun =>
      cases h
      exact Or.inr (Or.inl ⟨rfl, rfl⟩)
  | serve n =>
      obtain ⟨hn, h⟩ := Option.ite_none_right_eq_some.mp h
      cases h
      exact Or.inr (Or.inr (Or.inl ⟨n, _, hn, rfl, fun _ hb => hb⟩))
  | fail n e =>
      obtain ⟨hn, h⟩ := Option.ite_none_right_eq_some.mp h
      cases h
      exact Or.inr (Or.inr (Or.inl ⟨n, _, hn, rfl, fun _ hb => nomatch hb⟩))
  | deliver n =>
      obtain ⟨y, hy, rfl⟩ := Option.map_eq_some_iff.mp h
      have hn : y.1 = n := by simpa using List.find?_some hy
      refine Or.inr (Or.inr (Or.inr ⟨n, y.2, ?_, rfl⟩))
      rw [← hn]
      exact List.mem_of_find?_eq_some hy

theorem numbered_step (h : Numbered x) (hn : next step read x l = some x') : Numbered x' := by
  rcases reader_cases hn with ⟨l', _, rfl⟩ | ⟨_, rfl⟩ | ⟨n, y, hp, rfl, _⟩ | ⟨n, y, _, rfl⟩
  · exact ⟨h.le_current, h.pending_le, h.source_le, h.last⟩
  · refine ⟨fun y hy => Nat.le_succ_of_le (h.le_current y hy), fun m hm => ?_,
      fun m hm => Nat.le_succ_of_le (h.source_le m hm), Or.inl (List.mem_append_right _ (List.mem_singleton_self _))⟩
    rcases List.mem_append.mp hm with hm | hm
    · exact Nat.le_succ_of_le (h.pending_le m hm)
    · exact Nat.le_of_eq (List.mem_singleton.mp hm)
  · exact numbered_answer h hp y
  · exact numbered_deliver h y

/-- The server knows `a`, and so do the answers to the requests from `n0` on. -/
structure Since (Known : σ → α → Prop) (le : α → α → Prop) (n0 : Nat) (a : α) (x : Reader σ α ε) :
    Prop where
  known : Known x.server a
  answers : ∀ n b, (n, .ok b) ∈ x.answers → n0 ≤ n → le a b
  shown : ∀ b ∈ x.shown, ∀ n ∈ x.source, n0 ≤ n → le a b

/-- **No step takes away what the server knows.** -/
theorem since_step (hages : Ages step read Known le) (h : Since Known le n0 a x)
    (hn : next step read x l = some x') : Since Known le n0 a x' := by
  rcases reader_cases hn with ⟨l', _, rfl⟩ | ⟨_, rfl⟩ | ⟨n, y, _, rfl, hy⟩ | ⟨n, y, hmem, rfl⟩
  · exact ⟨hages.steps l' h.known, h.answers, h.shown⟩
  · exact ⟨h.known, h.answers, h.shown⟩
  · refine ⟨h.known, fun m b hb hm => ?_, h.shown⟩
    rcases List.mem_append.mp hb with hb | hb
    · exact h.answers m b hb hm
    · -- it is served now
      obtain ⟨_, rfl⟩ := Prod.mk.inj (List.mem_singleton.mp hb)
      exact hages.newer h.known (hy b rfl)
  · obtain ⟨hserver, _, _, hanswers, hshown⟩ := deliver_cases x n y
    refine ⟨hserver ▸ h.known, fun m b hb hm => ?_, fun b hb m hm hle => ?_⟩
    · rw [hanswers] at hb
      exact h.answers m b (List.mem_filter.mp hb).1 hm
    · rcases hshown with ⟨_, hsame, hsource⟩ | ⟨_, hsource, hnew⟩
      · rw [hsame] at hb
        rw [hsource] at hm
        exact h.shown b hb m hm hle
      · rw [hsource, Option.mem_some_iff] at hm
        subst hm
        rw [hnew b hb] at hmem
        exact h.answers n b hmem hle

/-- What is shown is known, and so are the answers under way. -/
structure Fresh (Known : σ → α → Prop) (le : α → α → Prop) (x : Reader σ α ε) : Prop where
  numbered : Numbered x
  known : ∀ n b, (n, .ok b) ∈ x.answers → Known x.server b
  shown : ∀ a ∈ x.shown, Known x.server a ∧
    ∀ n b, (n, .ok b) ∈ x.answers → x.current ≤ n → le a b

theorem fresh_start (s : σ) : Fresh Known le (.start s : Reader σ α ε) where
  numbered := numbered_start s
  known _ _ h := (List.not_mem_nil h).elim
  shown _ h := nomatch h

/-- **What is shown is older than nothing that its reader will take up.** -/
theorem fresh_step (hages : Ages step read Known le) (h : Fresh Known le x)
    (hn : next step read x l = some x') : Fresh Known le x' := by
  have hnumbered := numbered_step h.numbered hn
  rcases reader_cases hn with ⟨l', _, rfl⟩ | ⟨_, rfl⟩ | ⟨n, y, hp, rfl, hy⟩ | ⟨n, y, hmem, rfl⟩
  · refine ⟨hnumbered, fun n b hb => hages.steps l' (h.known n b hb), fun a ha => ?_⟩
    obtain ⟨hknown, hanswers⟩ := h.shown a ha
    exact ⟨hages.steps l' hknown, hanswers⟩
  · -- what is under way answers an earlier request
    refine ⟨hnumbered, h.known, fun a ha => ⟨(h.shown a ha).1, fun n b hb hle => ?_⟩⟩
    have hlt := h.numbered.le_current _ hb
    exact absurd hle (Nat.not_le.mpr (Nat.lt_succ_of_le hlt))
  · refine ⟨hnumbered, fun m b hb => ?_, fun a ha => ⟨(h.shown a ha).1, fun m b hb hle => ?_⟩⟩
    · rcases List.mem_append.mp hb with hb | hb
      · exact h.known m b hb
      · obtain ⟨_, rfl⟩ := Prod.mk.inj (List.mem_singleton.mp hb)
        exact hages.reads (hy b rfl)
    · rcases List.mem_append.mp hb with hb | hb
      · exact (h.shown a ha).2 m b hb hle
      · obtain ⟨_, rfl⟩ := Prod.mk.inj (List.mem_singleton.mp hb)
        exact hages.newer (h.shown a ha).1 (hy b rfl)
  · obtain ⟨hserver, hcurrent, _, hanswers, hshown⟩ := deliver_cases x n y
    refine ⟨hnumbered, fun m b hb => ?_, fun a ha => ?_⟩
    · rw [hanswers] at hb
      rw [hserver]
      exact h.known m b (List.mem_filter.mp hb).1
    · rw [hserver, hanswers, hcurrent]
      rcases hshown with ⟨_, hsame, _⟩ | ⟨hn', _, hnew⟩
      · rw [hsame] at ha
        obtain ⟨hknown, hle⟩ := h.shown a ha
        exact ⟨hknown, fun m b hb => hle m b (List.mem_filter.mp hb).1⟩
      · rw [hnew a ha] at hmem
        refine ⟨h.known n a hmem, fun m b hb hle => ?_⟩
        -- no other answer to the last request is under way
        obtain ⟨hb, hother⟩ := List.mem_filter.mp hb
        have hm := Nat.le_antisymm (h.numbered.le_current _ hb) hle
        exact absurd (hm.trans hn'.symm) (of_decide_eq_true hother)

/-- From here on, nothing older than `a` is shown. -/
structure Floor (Known : σ → α → Prop) (le : α → α → Prop) (n0 : Nat) (a : α) (x : Reader σ α ε) :
    Prop where
  since : Since Known le n0 a x
  reached : n0 ≤ x.current
  above : ∀ b ∈ x.shown, le a b

theorem Fresh.floor (hages : Ages step read Known le) (h : Fresh Known le x) (ha : a ∈ x.shown) :
    Floor Known le x.current a x := by
  have habove : ∀ b ∈ x.shown, le a b := fun b hb => by
    rw [Option.mem_unique hb ha]
    exact hages.refl a
  exact ⟨⟨(h.shown a ha).1, (h.shown a ha).2, fun b hb _ _ _ => habove b hb⟩, Nat.le_refl _, habove⟩

theorem floor_step (hages : Ages step read Known le) (h : Floor Known le n0 a x)
    (hn : next step read x l = some x') : Floor Known le n0 a x' := by
  have hsince := since_step hages h.since hn
  rcases reader_cases hn with ⟨l', _, rfl⟩ | ⟨_, rfl⟩ | ⟨n, y, _, rfl, _⟩ | ⟨n, y, _, rfl⟩
  · exact ⟨hsince, h.reached, h.above⟩
  · exact ⟨hsince, Nat.le_succ_of_le h.reached, h.above⟩
  · exact ⟨hsince, h.reached, h.above⟩
  · obtain ⟨_, hcurrent, _, _, hshown⟩ := deliver_cases x n y
    refine ⟨hsince, hcurrent ▸ h.reached, fun b hb => ?_⟩
    rcases hshown with ⟨_, hsame, _⟩ | ⟨hn', hsource, _⟩
    · rw [hsame] at hb
      exact h.above b hb
    · exact hsince.shown b hb n hsource (hn' ▸ h.reached)

/-! ## 3. Every run -/

theorem run_fresh (hages : Ages step read Known le) {s : σ}
    (hr : run (next step read) (.start s) ls = some x) : Fresh Known le x :=
  run_inv (fun _ _ _ h hn => fresh_step hages h hn) (fresh_start s) hr

/-- **What is shown is never followed by anything older**, in whatever order answers arrive. -/
theorem never_back (hages : Ages step read Known le) {s : σ} {ls' : List (Label ℓ ε)}
    (hr : run (next step read) (.start s) ls = some x) (hr' : run (next step read) x ls' = some x')
    (ha : a ∈ x.shown) (hb : b ∈ x'.shown) : le a b :=
  (run_inv (I := Floor Known le x.current a) (fun _ _ _ h hn => floor_step hages h hn)
    ((run_fresh hages hr).floor hages ha) hr').above b hb

/-- **When nothing is under way, the answer that is shown is the last request's.** -/
theorem quiet_latest {s : σ} (hr : run (next step read) (.start s) ls = some x) (hp : x.pending = [])
    (ha : x.answers = []) : x.source = some x.current := by
  have hnumbered : Numbered x := run_inv (fun _ _ _ h hn => numbered_step h hn) (numbered_start s) hr
  have hlast := hnumbered.last
  rw [hp, ha] at hlast
  simpa using hlast

theorem current_step (hn : next step read x l = some x') : x.current ≤ x'.current := by
  rcases reader_cases hn with ⟨l', _, rfl⟩ | ⟨_, rfl⟩ | ⟨n, y, _, rfl, _⟩ | ⟨n, y, _, rfl⟩
  · exact Nat.le_refl _
  · exact Nat.le_succ _
  · exact Nat.le_refl _
  · exact Nat.le_of_eq (deliver_cases x n y).2.1.symm

theorem known_step (hages : Ages step read Known le) (h : Known x.server a)
    (hn : next step read x l = some x') : Known x'.server a := by
  rcases reader_cases hn with ⟨l', _, rfl⟩ | ⟨_, rfl⟩ | ⟨n, y, _, rfl, _⟩ | ⟨n, y, _, rfl⟩
  · exact hages.steps l' h
  · exact h
  · exact h
  · exact (deliver_cases x n y).1 ▸ h

/-- **What the server knows when a request is made is shown**, once nothing is under way any more. -/
theorem reads_own (hages : Ages step read Known le) {s : σ} {ls' : List (Label ℓ ε)}
    (hr : run (next step read) (.start s) ls = some x) (hknown : Known x.server a)
    (hr' : run (next step read) x (.rerun :: ls') = some x') (hp : x'.pending = [])
    (ha : x'.answers = []) (hb : b ∈ x'.shown) : le a b := by
  have hfresh := run_fresh hages hr
  let x1 : Reader σ α ε := { x with
    current := x.current + 1, pending := x.pending ++ [x.current + 1] }
  have hstart : Since Known le (x.current + 1) a x1 := by
    refine ⟨hknown, fun m c hc hle => ?_, fun c hc m hm hle => ?_⟩
    · exact absurd (hfresh.numbered.le_current _ hc) (Nat.not_le.mpr hle)
    · exact absurd (hfresh.numbered.source_le m hm) (Nat.not_le.mpr hle)
  have hwhole : run (next step read) (.start s) (ls ++ .rerun :: ls') = some x' := by
    rw [run_append, hr]
    exact hr'
  have hlatest : x'.source = some x'.current := quiet_latest hwhole hp ha
  have hreached : x1.current ≤ x'.current :=
    run_inv (I := fun y : Reader σ α ε => x1.current ≤ y.current)
      (fun _ _ _ h hn => Nat.le_trans h (current_step hn)) (Nat.le_refl _) hr'
  exact (run_inv (I := Since Known le (x.current + 1) a) (fun _ _ _ h hn => since_step hages h hn)
    hstart hr').shown b hb _ hlatest hreached

end Steps

end LatestWins
