/-
  File:      ModelOps/Lib/Transaction.lean
  Subject:   OPTIMISTIC TRANSACTIONS: programs of reads against a shared store, their serial
             meaning, their interleavings, and a rule for commit-order serializability.

  A request's code is a tree (`Txn`): it reads the committed store, it may flush a row whose
  uniqueness the store then reserves for it, and it ends in a change to commit, in a reply
  without a change, or in an error. The tree has two meanings:

  * `Txn.eval` -- all reads against one store: the serial run (`run`);
  * `Config.step` -- one read, one flush or one commit of one of many sessions.

  **`CommitOrder`** is the rule that connects them. It asks for a property `Tracks` of a session
  (the row it holds, where it stands) that its own steps and every other session's
  commit keep, and which at a successful commit says that the serial run would commit the same
  change. Then every interleaving ends in the store that the committed sessions, run one after
  another in commit order, produce (`serial_of_commitOrder`).

  `Config.step_store` says which step changes the store, `Config.steps_moment` finds the step of a
  session that brought something about, and `Config.step_running` says what a step can have been.

  Two tools for giving a `Tracks`: `Follows` (the reads made so far have the answers the store
  would give now) and `Only` (which reads a program can make at all); `Follows.transport` moves
  the first along a change of the store that the second excludes from the program's reads.
-/
import Mathlib.Data.Fintype.Basic
import Mathlib.Logic.Function.Basic

namespace Transact

/-! ## 1. Programs -/

/-- The words between a session and its store. -/
structure Interface where
  Query : Type
  Answer : Query → Type
  /-- what a flushed INSERT asks the unique indexes for -/
  Row : Type
  Verdict : Type
  /-- what a commit writes -/
  Change : Type
  /-- why a commit can be refused -/
  Refusal : Type

/-- A session's code. -/
inductive Txn (I : Interface) (ε α : Type) : Type where
  | done (a : α) : Txn I ε α
  | fail (e : ε) : Txn I ε α
  | read (q : I.Query) (k : I.Answer q → Txn I ε α) : Txn I ε α
  | reserve (r : I.Row) (k : I.Verdict → Txn I ε α) : Txn I ε α

variable {I : Interface} {ε α β ρ σ ι : Type}

namespace Txn

def bind (x : Txn I ε α) (f : α → Txn I ε β) : Txn I ε β :=
  match x with
  | .done a => f a
  | .fail e => .fail e
  | .read q k => .read q fun a => (k a).bind f
  | .reserve r k => .reserve r fun v => (k v).bind f

instance : Monad (Txn I ε) where
  pure := .done
  bind := bind

@[simp] theorem pure_eq (a : α) : (pure a : Txn I ε α) = .done a := rfl

@[simp] theorem done_bind (a : α) (f : α → Txn I ε β) : (done a : Txn I ε α) >>= f = f a := rfl

@[simp] theorem fail_bind (e : ε) (f : α → Txn I ε β) : (fail e : Txn I ε α) >>= f = fail e := rfl

/-- One query. -/
def ask (q : I.Query) : Txn I ε (I.Answer q) := .read q .done

/-- One flush. -/
def flush (r : I.Row) : Txn I ε I.Verdict := .reserve r .done

end Txn

/-- What a session's code ends in: the change to commit, if any, and the reply after it. -/
abbrev Code (I : Interface) (ε ρ : Type) := Txn I ε (Option I.Change × ρ)

/-! ## 2. Stores and the serial meaning -/

/-- A store that answers queries, checks unique indexes and commits changes whole or not at all. -/
structure Store (I : Interface) (σ : Type) where
  answer : σ → (q : I.Query) → I.Answer q
  /-- what the unique indexes say to an INSERT of the row -/
  probe : σ → I.Row → I.Verdict
  granted : I.Verdict → Bool
  /-- two uncommitted rows that the unique indexes cannot both admit -/
  clash : I.Row → I.Row → Bool
  clash_symm : ∀ r r', clash r r' = clash r' r
  commit : σ → I.Change → Except I.Refusal σ

/-- How a session ended. -/
inductive Outcome (I : Interface) (ε ρ : Type) : Type where
  | replied (x : ρ) : Outcome I ε ρ
  | failed (e : ε) : Outcome I ε ρ
  | refused (x : ρ) (why : I.Refusal) : Outcome I ε ρ

namespace Txn

/-- All reads and flushes of the program against one store. -/
def eval (S : Store I σ) (s : σ) : Txn I ε α → Except ε α
  | .done a => .ok a
  | .fail e => .error e
  | .read q k => (k (S.answer s q)).eval S s
  | .reserve r k => (k (S.probe s r)).eval S s

variable {S : Store I σ} {s : σ}

@[simp] theorem eval_done (a : α) : (done a : Txn I ε α).eval S s = .ok a := rfl

@[simp] theorem eval_fail (e : ε) : (fail e : Txn I ε α).eval S s = .error e := rfl

@[simp] theorem eval_read (q : I.Query) (k : I.Answer q → Txn I ε α) :
    (read q k).eval S s = (k (S.answer s q)).eval S s := rfl

theorem eval_bind (x : Txn I ε α) (f : α → Txn I ε β) :
    (x >>= f).eval S s = (x.eval S s).bind fun a => (f a).eval S s := by
  induction x with
  | done a => rfl
  | fail e => rfl
  | read q k ih => exact ih (S.answer s q)
  | reserve r k ih => exact ih (S.probe s r)

end Txn

/-- The serial run of a session: all its reads, then its commit, with nothing in between. -/
def run (S : Store I σ) (s : σ) (c : Code I ε ρ) : Outcome I ε ρ × σ :=
  match c.eval S s with
  | .error e => (.failed e, s)
  | .ok (none, x) => (.replied x, s)
  | .ok (some w, x) =>
      match S.commit s w with
      | .ok s' => (.replied x, s')
      | .error why => (.refused x why, s)

/-- The serial run of a list of sessions. -/
def runAll (S : Store I σ) (code : ι → Code I ε ρ) (s : σ) (order : List ι) : σ :=
  order.foldl (fun s i => (run S s (code i)).2) s

theorem runAll_append (S : Store I σ) (code : ι → Code I ε ρ) (s : σ) (order : List ι) (i : ι) :
    runAll S code s (order ++ [i]) = (run S (runAll S code s order) (code i)).2 := by
  simp [runAll]

theorem run_commit {S : Store I σ} {s s' : σ} {c : Code I ε ρ} {w : I.Change} {x : ρ}
    (h : c.eval S s = .ok (some w, x)) (hw : S.commit s w = .ok s') :
    run S s c = (.replied x, s') := by
  simp [run, h, hw]

/-- An invariant of every committed change is an invariant of every serial run. -/
theorem run_inv {S : Store I σ} {P : σ → Prop} {s : σ} {c : Code I ε ρ} (h0 : P s)
    (h : ∀ w x s', c.eval S s = .ok (some w, x) → S.commit s w = .ok s' → P s') :
    P (run S s c).2 := by
  unfold run
  split
  · exact h0
  · exact h0
  · rename_i w x hw
    split
    · rename_i s' hs'
      exact h w x s' hw hs'
    · exact h0

/-! ## 3. Interleavings -/

/-- A session: running, with the row the unique indexes hold for it, or finished. -/
inductive Proc (I : Interface) (ε ρ : Type) : Type where
  | running (held : Option I.Row) (code : Code I ε ρ) : Proc I ε ρ
  | finished (committed : Bool) (outcome : Outcome I ε ρ) : Proc I ε ρ

/-- The row a session holds: released when the session ends. -/
def Proc.held : Proc I ε ρ → Option I.Row
  | .running h _ => h
  | .finished _ _ => none

/-- The committed store, the sessions, and the order in which sessions committed. -/
structure Config (I : Interface) (ε ρ σ ι : Type) where
  store : σ
  proc : ι → Proc I ε ρ
  log : List ι

/-- Every session at the start of its code. -/
def Config.start (s : σ) (code : ι → Code I ε ρ) : Config I ε ρ σ ι :=
  ⟨s, fun i => .running none (code i), []⟩

section Interleaving

variable [DecidableEq ι]

/-- Session `i` moves to `p`; store and log stay. -/
def Config.set (c : Config I ε ρ σ ι) (i : ι) (p : Proc I ε ρ) : Config I ε ρ σ ι :=
  { c with proc := Function.update c.proc i p }

@[simp] theorem Config.set_store (c : Config I ε ρ σ ι) (i : ι) (p : Proc I ε ρ) :
    (c.set i p).store = c.store := rfl

@[simp] theorem Config.set_log (c : Config I ε ρ σ ι) (i : ι) (p : Proc I ε ρ) :
    (c.set i p).log = c.log := rfl

@[simp] theorem Config.set_proc_self (c : Config I ε ρ σ ι) (i : ι) (p : Proc I ε ρ) :
    (c.set i p).proc i = p := by
  simp [Config.set]

theorem Config.set_proc_ne (c : Config I ε ρ σ ι) {i j : ι} (p : Proc I ε ρ) (h : j ≠ i) :
    (c.set i p).proc j = c.proc j := by
  simp [Config.set, h]

/-- A session put where it stands. -/
theorem Config.set_same {c : Config I ε ρ σ ι} {i : ι} {p : Proc I ε ρ} (h : c.proc i = p) :
    c.set i p = c := by
  subst h
  simp [Config.set]

variable [Fintype ι]

/-- Some other session holds a row that excludes `r`. -/
def Config.blocked (S : Store I σ) (c : Config I ε ρ σ ι) (i : ι) (r : I.Row) : Prop :=
  ∃ j, j ≠ i ∧ ((c.proc j).held.any fun r' => S.clash r' r) = true

instance (S : Store I σ) (c : Config I ε ρ σ ι) (i : ι) (r : I.Row) :
    Decidable (c.blocked S i r) :=
  inferInstanceAs (Decidable (∃ _, _ ∧ _))

/-- One step of session `i`. A flush waits while another session holds a clashing row. -/
def Config.step (S : Store I σ) (c : Config I ε ρ σ ι) (i : ι) : Config I ε ρ σ ι :=
  match c.proc i with
  | .finished _ _ => c
  | .running _ (.fail e) => c.set i (.finished false (.failed e))
  | .running h (.read q k) => c.set i (.running h (k (S.answer c.store q)))
  | .running h (.reserve r k) =>
      if c.blocked S i r then c
      else
        let v := S.probe c.store r
        c.set i (.running (if S.granted v then some r else h) (k v))
  | .running _ (.done (none, x)) => c.set i (.finished false (.replied x))
  | .running _ (.done (some w, x)) =>
      match S.commit c.store w with
      | .ok s' => { c.set i (.finished true (.replied x)) with store := s', log := c.log ++ [i] }
      | .error why => c.set i (.finished false (.refused x why))

/-- The sessions step in the order of `schedule`. -/
def Config.steps (S : Store I σ) (c : Config I ε ρ σ ι) (schedule : List ι) : Config I ε ρ σ ι :=
  schedule.foldl (fun c i => c.step S i) c

theorem Config.steps_append (S : Store I σ) (c : Config I ε ρ σ ι) (l l' : List ι) :
    c.steps S (l ++ l') = (c.steps S l).steps S l' := by
  simp [Config.steps]

end Interleaving

/-! ## 4. The commit-order rule -/

/-- **The premises of commit-order serializability**: `Good` holds of every committed store, and
    `Tracks i s h c` of session `i` when it holds `h` and stands at `c`. `May i s c` is what a run
    grants whenever session `i` reads at `c` from the store `s`; a rule about all runs grants
    nothing (`fun _ _ _ => True`). -/
structure CommitOrder (S : Store I σ) (Good : σ → Prop) (May : ι → σ → Code I ε ρ → Prop)
    (Tracks : ι → σ → Option I.Row → Code I ε ρ → Prop) (code : ι → Code I ε ρ) : Prop where
  start : ∀ i s, Good s → Tracks i s none (code i)
  read : ∀ i s h q k, Good s → May i s (.read q k) → Tracks i s h (.read q k) →
    Tracks i s h (k (S.answer s q))
  reserve : ∀ i s h r k, Good s → Tracks i s h (.reserve r k) →
    Tracks i s (if S.granted (S.probe s r) then some r else h) (k (S.probe s r))
  commit : ∀ i s s' h w x, Good s → Tracks i s h (.done (some w, x)) → S.commit s w = .ok s' →
    (code i).eval S s = .ok (some w, x)
  good : ∀ i s s' h w x, Good s → Tracks i s h (.done (some w, x)) → S.commit s w = .ok s' →
    Good s'
  others : ∀ i s s' h w x j h' c', Good s → Tracks i s h (.done (some w, x)) →
    S.commit s w = .ok s' → (∀ r ∈ h, ∀ r' ∈ h', S.clash r r' = false) →
    Tracks j s h' c' → Tracks j s' h' c'

section Rule

variable {S : Store I σ} {Good : σ → Prop} {May : ι → σ → Code I ε ρ → Prop}
  {Tracks : ι → σ → Option I.Row → Code I ε ρ → Prop} {code : ι → Code I ε ρ} {s0 : σ}

/-- What holds of every configuration an interleaving reaches. -/
structure Serial (S : Store I σ) (Good : σ → Prop)
    (Tracks : ι → σ → Option I.Row → Code I ε ρ → Prop) (code : ι → Code I ε ρ) (s0 : σ)
    (c : Config I ε ρ σ ι) : Prop where
  good : Good c.store
  tracks : ∀ i h p, c.proc i = .running h p → Tracks i c.store h p
  apart : ∀ i j, i ≠ j → ∀ r ∈ (c.proc i).held, ∀ r' ∈ (c.proc j).held, S.clash r r' = false
  order : c.store = runAll S code s0 c.log
  once : c.log.Nodup
  logged : ∀ i, i ∈ c.log ↔ ∃ o, c.proc i = .finished true o

theorem serial_start (hR : CommitOrder S Good May Tracks code) (h0 : Good s0) :
    Serial S Good Tracks code s0 (Config.start s0 code) where
  good := h0
  tracks i h p e := by
    obtain ⟨rfl, rfl⟩ : none = h ∧ code i = p := by simpa [Config.start] using e
    exact hR.start i s0 h0
  apart i j _ r hr := by simp [Config.start, Proc.held] at hr
  order := rfl
  once := List.nodup_nil
  logged i := by simp [Config.start]

variable [DecidableEq ι]

/-- A step that leaves the store and the log alone: only session `i` changes. -/
theorem Serial.set {c : Config I ε ρ σ ι} (hc : Serial S Good Tracks code s0 c) {i : ι}
    {p : Proc I ε ρ} (hrun : ∃ h q, c.proc i = .running h q) (hp : ∀ o, p ≠ .finished true o)
    (htr : ∀ h q, p = .running h q → Tracks i c.store h q)
    (hap : ∀ j, j ≠ i → ∀ r ∈ p.held, ∀ r' ∈ (c.proc j).held, S.clash r r' = false) :
    Serial S Good Tracks code s0 (c.set i p) where
  good := hc.good
  tracks j h q e := by
    by_cases hj : j = i
    · subst hj
      exact htr h q (by simpa using e)
    · rw [c.set_proc_ne p hj] at e
      exact hc.tracks j h q e
  apart j k hjk r hr r' hr' := by
    by_cases hj : j = i
    · subst hj
      rw [c.set_proc_self] at hr
      rw [c.set_proc_ne p hjk.symm] at hr'
      exact hap k hjk.symm r hr r' hr'
    · rw [c.set_proc_ne p hj] at hr
      by_cases hk : k = i
      · subst hk
        rw [c.set_proc_self] at hr'
        rw [S.clash_symm]
        exact hap j hjk r' hr' r hr
      · rw [c.set_proc_ne p hk] at hr'
        exact hc.apart j k hjk r hr r' hr'
  order := hc.order
  once := hc.once
  logged j := by
    by_cases hj : j = i
    · subst hj
      obtain ⟨h, q, e⟩ := hrun
      simp [hc.logged, e, hp]
    · rw [c.set_log, c.set_proc_ne p hj]
      exact hc.logged j

variable [Fintype ι]

/-- Session `i`, if it is about to read, is granted what the run grants. -/
def Config.Grants (May : ι → σ → Code I ε ρ → Prop) (c : Config I ε ρ σ ι) (i : ι) : Prop :=
  ∀ h q k, c.proc i = .running h (.read q k) → May i c.store (.read q k)

/-- **Every step keeps the invariant.** -/
theorem serial_step (hR : CommitOrder S Good May Tracks code) {c : Config I ε ρ σ ι}
    (hc : Serial S Good Tracks code s0 c) (i : ι) (hmay : c.Grants May i) :
    Serial S Good Tracks code s0 (c.step S i) := by
  cases hp : c.proc i with
  | finished b o => simpa [Config.step, hp] using hc
  | running h p =>
      have ht := hc.tracks i h p hp
      have hend : ∀ o, Serial S Good Tracks code s0 (c.set i (.finished false o)) := fun o =>
        hc.set ⟨h, p, hp⟩ (by simp) (by simp) (by simp [Proc.held])
      have hapart : ∀ j, j ≠ i → ∀ r ∈ h, ∀ r' ∈ (c.proc j).held, S.clash r r' = false := by
        intro j hj r hr
        exact hc.apart i j hj.symm r (by rw [hp]; exact hr)
      match p, ht, hp with
      | .fail e, _, hp => simpa [Config.step, hp] using hend (.failed e)
      | .done (none, x), _, hp => simpa [Config.step, hp] using hend (.replied x)
      | .read q k, ht, hp =>
          have hn : Serial S Good Tracks code s0
              (c.set i (.running h (k (S.answer c.store q)))) :=
            hc.set ⟨h, _, hp⟩ (by simp)
              (fun h' q' e => by
                obtain ⟨rfl, rfl⟩ : h = h' ∧ k (S.answer c.store q) = q' := by simpa using e
                exact hR.read _ _ _ _ _ hc.good (hmay _ _ _ hp) ht)
              hapart
          simpa [Config.step, hp] using hn
      | .reserve r k, ht, hp =>
          by_cases hb : c.blocked S i r
          · simpa [Config.step, hp, hb] using hc
          · -- nobody else holds a clashing row, so holding `r` keeps the sessions apart
            have hfree : ∀ j, j ≠ i → ∀ r' ∈ (c.proc j).held, S.clash r r' = false := by
              intro j hj r' hr'
              rw [S.clash_symm]
              by_contra hcl
              exact hb ⟨j, hj, by
                rw [Option.mem_def.mp hr']
                simpa using hcl⟩
            have hn : Serial S Good Tracks code s0 (c.set i
                (.running (if S.granted (S.probe c.store r) then some r else h)
                  (k (S.probe c.store r)))) :=
              hc.set ⟨h, _, hp⟩ (by simp)
                (fun h' q' e => by
                  obtain ⟨rfl, rfl⟩ := by simpa using e
                  exact hR.reserve _ _ _ _ _ hc.good ht)
                (fun j hj a ha r' hr' => by
                  change a ∈ (if S.granted (S.probe c.store r) then some r else h) at ha
                  split at ha
                  · obtain rfl : r = a := by simpa using ha
                    exact hfree j hj r' hr'
                  · exact hapart j hj a ha r' hr')
            simpa [Config.step, hp, hb] using hn
      | .done (some w, x), ht, hp =>
          cases hw : S.commit c.store w with
          | error why => simpa [Config.step, hp, hw] using hend (.refused x why)
          | ok s' =>
              have heval := hR.commit _ _ _ _ _ _ hc.good ht hw
              have hbase := hc.set (p := .finished false (.replied x)) ⟨h, _, hp⟩ (by simp)
                (by simp) (by simp [Proc.held])
              have hfresh : i ∉ c.log := by
                rw [hc.logged]
                simp [hp]
              have hstep : c.step S i =
                  { c.set i (.finished true (.replied x)) with store := s', log := c.log ++ [i] } := by
                simp [Config.step, hp, hw]
              rw [hstep]
              refine ⟨hR.good _ _ _ _ _ _ hc.good ht hw, fun j h' q e => ?_, ?_, ?_, ?_, ?_⟩
              · by_cases hj : j = i
                · subst hj
                  simp at e
                · have e' : c.proc j = .running h' q := by
                    rw [← c.set_proc_ne (.finished true (.replied x)) hj]
                    exact e
                  exact hR.others _ _ _ _ _ _ _ _ _ hc.good ht hw
                    (fun r hr r' hr' => hapart j hj r hr r' (by rw [e']; exact hr'))
                    (hc.tracks j h' q e')
              · intro j k hjk r hr r' hr'
                refine hbase.apart j k hjk r ?_ r' ?_
                · by_cases hj : j = i
                  · subst hj; simp [Proc.held] at hr
                  · simpa [c.set_proc_ne _ hj] using hr
                · by_cases hk : k = i
                  · subst hk; simp [Proc.held] at hr'
                  · simpa [c.set_proc_ne _ hk] using hr'
              · show s' = runAll S code s0 (c.log ++ [i])
                rw [runAll_append, ← hc.order, run_commit heval hw]
              · show (c.log ++ [i]).Nodup
                exact List.nodup_append.mpr ⟨hc.once, List.nodup_singleton i, fun a ha b hb => by
                  rw [List.mem_singleton.mp hb]
                  exact fun e => hfresh (e ▸ ha)⟩
              · intro j
                show j ∈ c.log ++ [i] ↔ ∃ o, (c.set i _).proc j = .finished true o
                by_cases hj : j = i
                · subst hj; simp
                · rw [c.set_proc_ne _ hj, List.mem_append, hc.logged j]
                  simp [hj]

theorem serial_steps (hR : CommitOrder S Good May Tracks code) {c : Config I ε ρ σ ι}
    (hc : Serial S Good Tracks code s0 c) (schedule : List ι)
    (hmay : ∀ l i l', schedule = l ++ i :: l' → (c.steps S l).Grants May i) :
    Serial S Good Tracks code s0 (c.steps S schedule) := by
  induction schedule generalizing c with
  | nil => exact hc
  | cons i l ih =>
      refine ih (serial_step hR hc i (hmay [] i l rfl)) ?_
      intro l1 j l2 e
      exact hmay (i :: l1) j l2 (by rw [e]; rfl)

/-- **Commit-order serializability**: every interleaving of the sessions whose reads are granted
    satisfies `Serial`; in particular its store is the one the committed sessions produce one after
    another. -/
theorem serial_of_commitOrder (hR : CommitOrder S Good May Tracks code) (h0 : Good s0)
    (schedule : List ι)
    (hmay : ∀ l i l', schedule = l ++ i :: l' → ((Config.start s0 code).steps S l).Grants May i) :
    Serial S Good Tracks code s0 ((Config.start s0 code).steps S schedule) :=
  serial_steps hR (serial_start hR h0) schedule hmay

/-- A step leaves the store alone, or it is the commit of a session. -/
theorem Config.step_store (S : Store I σ) (c : Config I ε ρ σ ι) (i : ι) :
    (c.step S i).store = c.store ∨
    ∃ h w x, c.proc i = .running h (.done (some w, x)) ∧
      S.commit c.store w = .ok (c.step S i).store := by
  cases hp : c.proc i with
  | finished b o => simp [Config.step, hp]
  | running h p =>
      match p, hp with
      | .fail e, hp => simp [Config.step, hp]
      | .done (none, x), hp => simp [Config.step, hp]
      | .read q k, hp => simp [Config.step, hp]
      | .reserve r k, hp =>
          left
          by_cases hb : c.blocked S i r <;> simp [Config.step, hp, hb]
      | .done (some w, x), hp =>
          cases hw : S.commit c.store w with
          | error why => simp [Config.step, hp, hw]
          | ok s' =>
              right
              exact ⟨h, w, x, rfl, by simp [Config.step, hp, hw]⟩

/-- The session ended in an error of its own, or its commit was refused. -/
def Outcome.IsError : Outcome I ε ρ → Prop
  | .replied _ => False
  | .failed _ => True
  | .refused _ _ => True

/-- A step of another session leaves a session where it stands. -/
theorem Config.step_proc_ne (S : Store I σ) (c : Config I ε ρ σ ι) {i j : ι} (h : i ≠ j) :
    (c.step S j).proc i = c.proc i := by
  have hset : ∀ p, (c.set j p).proc i = c.proc i := fun p => c.set_proc_ne p h
  unfold Config.step
  split
  · rfl
  · exact hset _
  · exact hset _
  · split
    · rfl
    · exact hset _
  · exact hset _
  · split
    · exact hset _
    · exact hset _

end Rule

/-! ## 5. Tools for tracking a session -/

/-- `c'` is what is left of `c` after reads whose answers are the store's own. -/
inductive Follows (S : Store I σ) (s : σ) : Txn I ε α → Txn I ε α → Prop where
  | here (c : Txn I ε α) : Follows S s c c
  | read (q : I.Query) (k : I.Answer q → Txn I ε α) (c' : Txn I ε α)
      (h : Follows S s (k (S.answer s q)) c') : Follows S s (.read q k) c'

/-- Every read and every end of the program: reads in `Q`, results in `F`, no flush. -/
def Only (Q : I.Query → Prop) (F : α → Prop) : Txn I ε α → Prop
  | .done a => F a
  | .fail _ => True
  | .read q k => Q q ∧ ∀ a, Only Q F (k a)
  | .reserve _ _ => False

section Tools

variable {S : Store I σ} {s s' : σ} {Q : I.Query → Prop} {F : α → Prop} {G : β → Prop}

theorem Follows.eval_eq {c c' : Txn I ε α} (h : Follows S s c c') : c.eval S s = c'.eval S s := by
  induction h with
  | here c => rfl
  | read q k c' _ ih => exact ih

theorem Follows.snoc {c : Txn I ε α} {q : I.Query} {k : I.Answer q → Txn I ε α}
    (h : Follows S s c (.read q k)) : Follows S s c (k (S.answer s q)) := by
  generalize hd : Txn.read q k = d at h
  induction h with
  | here c =>
      subst hd
      exact .read q k _ (.here _)
  | read q' k' c' _ ih => exact .read q' k' _ (ih hd)

theorem Follows.only {c c' : Txn I ε α} (h : Follows S s c c') (ho : Only Q F c) :
    Only Q F c' := by
  induction h with
  | here c => exact ho
  | read q k c' _ ih => exact ih (ho.2 _)

/-- Reads whose answers the change of store keeps stay followed. -/
theorem Follows.transport {c c' : Txn I ε α} (h : Follows S s c c') (ho : Only Q F c)
    (hq : ∀ q, Q q → S.answer s' q = S.answer s q) : Follows S s' c c' := by
  induction h with
  | here c => exact .here c
  | read q k c' _ ih =>
      refine .read q k c' ?_
      rw [hq q ho.1]
      exact ih (ho.2 _)

theorem Only.bind {x : Txn I ε α} {f : α → Txn I ε β} (hx : Only Q F x)
    (hf : ∀ a, F a → Only Q G (f a)) : Only Q G (x >>= f) := by
  induction x with
  | done a => exact hf a hx
  | fail e => trivial
  | read q k ih => exact ⟨hx.1, fun a => ih a (hx.2 a)⟩
  | reserve r k _ => exact hx.elim

/-- Every error the program can end in. -/
def Errors (P : ε → Prop) : Txn I ε α → Prop
  | .done _ => True
  | .fail e => P e
  | .read _ k => ∀ a, Errors P (k a)
  | .reserve _ k => ∀ v, Errors P (k v)

theorem Errors.bind {P : ε → Prop} {x : Txn I ε α} {f : α → Txn I ε β} (hx : Errors P x)
    (hf : ∀ a, Errors P (f a)) : Errors P (x >>= f) := by
  induction x with
  | done a => exact hf a
  | fail e => exact hx
  | read q k ih => exact fun a => ih a (hx a)
  | reserve r k ih => exact fun v => ih v (hx v)

end Tools

/-! ## 6. One session of a run -/

section Session

variable [DecidableEq ι] [Fintype ι] {S : Store I σ} {c : Config I ε ρ σ ι} {i : ι}

/-- **Where a session stands after a step of its own**: it waits, or it read, or it flushed. -/
theorem Config.step_running {held : Option I.Row} {code : Code I ε ρ}
    (h : (c.step S i).proc i = .running held code) :
    c.proc i = .running held code ∨
      (∃ q k, c.proc i = .running held (.read q k) ∧ code = k (S.answer c.store q)) ∨
      ∃ held' r k, c.proc i = .running held' (.reserve r k) ∧ code = k (S.probe c.store r) := by
  have hset : ∀ {p}, (c.set i p).proc i = .running held code → p = .running held code :=
    fun hp => (c.set_proc_self i _).symm.trans hp
  unfold Config.step at h
  split at h
  · exact Or.inl h
  · cases hset h
  · rename_i q k hp
    cases hset h
    exact Or.inr (Or.inl ⟨q, k, hp, rfl⟩)
  · rename_i held' r k hp
    split at h
    · exact Or.inl h
    · cases hset h
      exact Or.inr (Or.inr ⟨held', r, k, hp, rfl⟩)
  · cases hset h
  · split at h
    · cases hset (p := .finished true _) h
    · cases hset h

/-- Where it fails by a step of its own, its code was the error. -/
theorem Config.step_failed {committed : Bool} {e : ε}
    (h : (c.step S i).proc i = .finished committed (.failed e)) :
    c.proc i = .finished committed (.failed e) ∨ ∃ held, c.proc i = .running held (.fail e) := by
  have hset : ∀ {p}, (c.set i p).proc i = .finished committed (.failed e) →
      p = .finished committed (.failed e) :=
    fun hp => (c.set_proc_self i _).symm.trans hp
  unfold Config.step at h
  split at h
  · exact Or.inl h
  · rename_i held e' hp
    cases hset h
    exact Or.inr ⟨held, hp⟩
  · cases hset h
  · split at h
    · exact Or.inl h
    · cases hset h
  · cases hset h
  · split at h
    · cases hset (p := .finished true _) h
    · cases hset h

/-- What a program hands on to all that can follow its first step, holds of a session's code
    throughout. -/
theorem Config.steps_code {T : Code I ε ρ → Prop} (hread : ∀ q k, T (.read q k) → ∀ a, T (k a))
    (hreserve : ∀ r k, T (.reserve r k) → ∀ v, T (k v))
    (h : ∀ held code, c.proc i = .running held code → T code) (schedule : List ι) :
    ∀ held code, (c.steps S schedule).proc i = .running held code → T code := by
  induction schedule using List.reverseRecOn with
  | nil => exact h
  | append_singleton schedule j ih =>
      intro held code hcode
      rw [c.steps_append] at hcode
      by_cases hj : i = j
      · subst hj
        rcases Config.step_running hcode with hp | ⟨q, k, hp, rfl⟩ | ⟨held', r, k, hp, rfl⟩
        · exact ih held code hp
        · exact hread q k (ih held _ hp) _
        · exact hreserve r k (ih held' _ hp) _
      · exact ih held code (((c.steps S schedule).step_proc_ne S hj).symm.trans hcode)

/-- **The step that made it so**: what holds of a session after a run and did not before it, some
    step of the session itself brought about. -/
theorem Config.steps_moment {Q : Proc I ε ρ → Prop} (h0 : ¬Q (c.proc i)) {schedule : List ι}
    (h : Q ((c.steps S schedule).proc i)) :
    ∃ l l', schedule = l ++ i :: l' ∧ ¬Q ((c.steps S l).proc i) ∧ Q ((c.steps S (l ++ [i])).proc i) := by
  induction schedule using List.reverseRecOn with
  | nil => exact absurd h h0
  | append_singleton schedule j ih =>
      by_cases hbefore : Q ((c.steps S schedule).proc i)
      · obtain ⟨l, l', rfl, hl, hl'⟩ := ih hbefore
        exact ⟨l, l' ++ [j], by simp, hl, hl'⟩
      · have hj : i = j := by
          by_contra hj
          rw [c.steps_append] at h
          exact hbefore (((c.steps S schedule).step_proc_ne S hj) ▸ h)
        subst hj
        exact ⟨schedule, [], rfl, hbefore, h⟩

end Session

end Transact
