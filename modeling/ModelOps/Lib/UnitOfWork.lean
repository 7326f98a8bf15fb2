/-
  File:      ModelOps/Lib/UnitOfWork.lean
  Subject:   SESSIONS STATEMENT BY STATEMENT: code that stages changes, flushes, commits and rolls back
             wherever it likes, and sends messages between its statements.

  Where a `Transact.Txn` has its one commit at its end, a `Script` has its statements where the code
  has them. The session keeps what was staged until a commit writes it or a rollback drops it; a
  refused flush or commit leaves it unusable until it is rolled back; its end closes it, and whatever
  was staged is gone.

  * `statement` -- what one statement does to its session, the store and the network;
  * `Config.step` -- one statement of one of many sessions; `Script.exec` -- a session that runs alone,
    which is what its own steps amount to (`Config.steps_alone`);
  * `Settled`, `Careful` -- nothing fails any more, and: what commits or sends is settled from there on;
  * **`Careful.inert`** -- a careful session that ends in an error has written nothing and sent
    nothing, whatever ran beside it.
-/
import ModelOps.Lib.Transaction

namespace UnitOfWork

open Transact (Interface Store)

/-! ## 1. Scripts -/

/-- A session's code. `μ` are the messages it can send, `κ` what they are answered with. -/
inductive Script (I : Interface) (μ κ ε α : Type) : Type where
  | done (a : α) : Script I μ κ ε α
  | raise (e : ε) : Script I μ κ ε α
  | read (q : I.Query) (k : I.Answer q → Script I μ κ ε α) : Script I μ κ ε α
  /-- the unit of work is `w` from here on -/
  | stage (w : I.Change) (k : Script I μ κ ε α) : Script I μ κ ε α
  | flush (r : I.Row) (k : I.Verdict → Script I μ κ ε α) : Script I μ κ ε α
  | commit (k : Option I.Refusal → Script I μ κ ε α) : Script I μ κ ε α
  | rollback (k : Script I μ κ ε α) : Script I μ κ ε α
  | send (m : μ) (k : κ → Script I μ κ ε α) : Script I μ κ ε α

variable {I : Interface} {μ κ ε α β ρ σ ι : Type}

namespace Script

def bind (x : Script I μ κ ε α) (f : α → Script I μ κ ε β) : Script I μ κ ε β :=
  match x with
  | .done a => f a
  | .raise e => .raise e
  | .read q k => .read q fun a => (k a).bind f
  | .stage w k => .stage w (k.bind f)
  | .flush r k => .flush r fun v => (k v).bind f
  | .commit k => .commit fun why => (k why).bind f
  | .rollback k => .rollback (k.bind f)
  | .send m k => .send m fun a => (k a).bind f

instance : Monad (Script I μ κ ε) where
  pure := .done
  bind := bind

@[simp] theorem pure_eq (a : α) : (pure a : Script I μ κ ε α) = .done a := rfl

@[simp] theorem done_bind (a : α) (f : α → Script I μ κ ε β) :
    (done a : Script I μ κ ε α) >>= f = f a := rfl

@[simp] theorem raise_bind (e : ε) (f : α → Script I μ κ ε β) :
    (raise e : Script I μ κ ε α) >>= f = raise e := rfl

@[simp] theorem read_bind (q : I.Query) (k : I.Answer q → Script I μ κ ε α)
    (f : α → Script I μ κ ε β) : read q k >>= f = read q fun a => k a >>= f := rfl

@[simp] theorem stage_bind (w : I.Change) (k : Script I μ κ ε α) (f : α → Script I μ κ ε β) :
    stage w k >>= f = stage w (k >>= f) := rfl

@[simp] theorem flush_bind (r : I.Row) (k : I.Verdict → Script I μ κ ε α)
    (f : α → Script I μ κ ε β) : flush r k >>= f = flush r fun v => k v >>= f := rfl

@[simp] theorem commit_bind (k : Option I.Refusal → Script I μ κ ε α) (f : α → Script I μ κ ε β) :
    commit k >>= f = commit fun why => k why >>= f := rfl

@[simp] theorem rollback_bind (k : Script I μ κ ε α) (f : α → Script I μ κ ε β) :
    rollback k >>= f = rollback (k >>= f) := rfl

@[simp] theorem send_bind (m : μ) (k : κ → Script I μ κ ε α) (f : α → Script I μ κ ε β) :
    send m k >>= f = send m fun a => k a >>= f := rfl

theorem bind_assoc {γ : Type} (x : Script I μ κ ε α) (f : α → Script I μ κ ε β)
    (g : β → Script I μ κ ε γ) : x >>= f >>= g = x >>= fun a => f a >>= g := by
  induction x with
  | done a => rfl
  | raise e => rfl
  | read q k ih => exact congrArg (read q) (funext ih)
  | stage w k ih => exact congrArg (stage w) ih
  | flush r k ih => exact congrArg (flush r) (funext ih)
  | commit k ih => exact congrArg commit (funext ih)
  | rollback k ih => exact congrArg rollback ih
  | send m k ih => exact congrArg (send m) (funext ih)

end Script

/-! ## 2. One statement -/

/-- What a session holds between its statements. -/
structure Held (I : Interface) where
  /-- flushed and not committed: the unique indexes hold it for this session -/
  row : Option I.Row := none
  /-- the unit of work -/
  staged : Option I.Change := none
  /-- a flush or a commit was refused, and not rolled back yet -/
  aborted : Bool := false

/-- How a session fails. -/
inductive Failure (ε : Type) where
  | raised (e : ε)
  /-- a statement to a session that has to be rolled back first -/
  | pendingRollback
  deriving DecidableEq

/-- A session: at its next statement, or closed. -/
inductive Proc (I : Interface) (μ κ ε ρ : Type) : Type where
  | running (held : Held I) (code : Script I μ κ ε ρ) : Proc I μ κ ε ρ
  | closed (ending : Except (Failure ε) ρ) : Proc I μ κ ε ρ

/-- The row a session holds: released when it is closed. -/
def Proc.row : Proc I μ κ ε ρ → Option I.Row
  | .running u _ => u.row
  | .closed _ => none

/-- What one statement leads to. -/
structure Effect (I : Interface) (μ κ ε ρ σ : Type) where
  proc : Proc I μ κ ε ρ
  store : σ
  committed : Option I.Change := none
  sent : Option μ := none

/-- What a session holds after a flush. -/
def Held.flushed (S : Store I σ) (s : σ) (u : Held I) (r : I.Row) : Held I :=
  if S.granted (S.probe s r) then { u with row := some r } else { u with row := none, aborted := true }

/-- The statements that a session which has to be rolled back first refuses. -/
def Script.asks : Script I μ κ ε α → Bool
  | .read _ _ => true
  | .flush _ _ => true
  | .commit _ => true
  | _ => false

/-- One statement of a session that holds `u`, against the store `s`; a message is answered `reply`. -/
def attempt (S : Store I σ) (s : σ) (reply : κ) (u : Held I) :
    Script I μ κ ε ρ → Effect I μ κ ε ρ σ
  | .done x => ⟨.closed (.ok x), s, none, none⟩
  | .raise e => ⟨.closed (.error (.raised e)), s, none, none⟩
  | .stage w k => ⟨.running { u with staged := some w } k, s, none, none⟩
  | .rollback k => ⟨.running {} k, s, none, none⟩
  | .send m k => ⟨.running u (k reply), s, none, some m⟩
  | .read q k => ⟨.running u (k (S.answer s q)), s, none, none⟩
  | .flush r k => ⟨.running (u.flushed S s r) (k (S.probe s r)), s, none, none⟩
  | .commit k =>
      match u.staged with
      | none => ⟨.running {} (k none), s, none, none⟩
      | some w =>
          match S.commit s w with
          | .ok s' => ⟨.running {} (k none), s', some w, none⟩
          | .error why =>
              ⟨.running { u with row := none, aborted := true } (k (some why)), s, none, none⟩

/-- The same of any session. -/
def statement (S : Store I σ) (s : σ) (reply : κ) (u : Held I) (code : Script I μ κ ε ρ) :
    Effect I μ κ ε ρ σ :=
  if u.aborted && code.asks then ⟨.closed (.error .pendingRollback), s, none, none⟩
  else attempt S s reply u code

/-- **A commit**: nothing is staged, or the store takes what is, or it refuses it. -/
theorem attempt_commit (S : Store I σ) (s : σ) (reply : κ) (u : Held I)
    (k : Option I.Refusal → Script I μ κ ε ρ) :
    (u.staged = none ∧ attempt S s reply u (.commit k) = ⟨.running {} (k none), s, none, none⟩) ∨
      (∃ w s', u.staged = some w ∧ S.commit s w = .ok s' ∧
        attempt S s reply u (.commit k) = ⟨.running {} (k none), s', some w, none⟩) ∨
      ∃ w why, u.staged = some w ∧ S.commit s w = .error why ∧ attempt S s reply u (.commit k) =
        ⟨.running { u with row := none, aborted := true } (k (some why)), s, none, none⟩ := by
  unfold attempt
  cases hu : u.staged with
  | none => exact Or.inl ⟨rfl, rfl⟩
  | some w =>
      right
      dsimp only
      cases hw : S.commit s w with
      | ok s' => exact Or.inl ⟨w, s', rfl, hw, rfl⟩
      | error why => exact Or.inr ⟨w, why, rfl, hw, rfl⟩

@[simp] theorem flushed_staged (S : Store I σ) (s : σ) (u : Held I) (r : I.Row) :
    (u.flushed S s r).staged = u.staged := by
  unfold Held.flushed
  split <;> rfl

/-- Only a commit changes the store, and it leaves what it wrote. -/
theorem statement_store (S : Store I σ) (s : σ) (reply : κ) (u : Held I) (code : Script I μ κ ε ρ) :
    (statement S s reply u code).store =
      ((statement S s reply u code).committed.elim s fun w =>
        ((S.commit s w).toOption).getD s) := by
  unfold statement
  split
  · rfl
  · cases code with
    | done x => rfl
    | raise e => rfl
    | stage w k => rfl
    | rollback k => rfl
    | send m k => rfl
    | read q k => rfl
    | flush r k => rfl
    | commit k =>
        rcases attempt_commit S s reply u k with ⟨_, h⟩ | ⟨w, s', _, hw, h⟩ | ⟨w, why, _, hw, h⟩
        · rw [h]
          rfl
        · rw [h]
          show s' = ((S.commit s w).toOption).getD s
          rw [hw]
          rfl
        · rw [h]
          rfl

/-! ## 3. Many sessions -/

/-- The committed store, the sessions, what each committed and what each sent, in order. -/
structure Config (I : Interface) (μ κ ε ρ σ ι : Type) where
  store : σ
  proc : ι → Proc I μ κ ε ρ
  log : List (ι × I.Change)
  sent : List (ι × μ)

/-- Every session at the start of its code. -/
def Config.start (s : σ) (code : ι → Script I μ κ ε ρ) : Config I μ κ ε ρ σ ι :=
  ⟨s, fun i => .running {} (code i), [], []⟩

/-- The store after the commits of `log`. -/
def replay (S : Store I σ) (s : σ) (log : List (ι × I.Change)) : σ :=
  log.foldl (fun s x => ((S.commit s x.2).toOption).getD s) s

theorem replay_append (S : Store I σ) (s : σ) (l l' : List (ι × I.Change)) :
    replay S s (l ++ l') = replay S (replay S s l) l' := by
  unfold replay
  exact List.foldl_append

section Tagged

variable {γ : Type} {l : List (ι × γ)} {o : Option γ} {i j : ι}

theorem mem_tagged {x : ι × γ} :
    x ∈ l ++ o.toList.map (fun w => (i, w)) ↔ x ∈ l ∨ x.1 = i ∧ o = some x.2 := by
  obtain ⟨j, w⟩ := x
  simp only [List.mem_append, List.mem_map, Option.mem_toList, Prod.mk.injEq]
  constructor
  · rintro (h | ⟨w', hw, rfl, rfl⟩)
    · exact Or.inl h
    · exact Or.inr ⟨rfl, hw⟩
  · rintro (h | ⟨rfl, hw⟩)
    · exact Or.inl h
    · exact Or.inr ⟨w, hw, rfl, rfl⟩

/-- What another session adds, and nothing, leave a session without an entry. -/
theorem not_mem_tagged (h : ∀ w, (i, w) ∉ l) (ho : i = j → o = none) :
    ∀ w, (i, w) ∉ l ++ o.toList.map (fun w => (j, w)) := by
  intro w hmem
  rcases mem_tagged.mp hmem with hmem | ⟨hij, hw⟩
  · exact h w hmem
  · rw [ho hij] at hw
    cases hw

end Tagged

section Steps

variable [DecidableEq ι]

/-- Session `i` made a statement. -/
def Config.take (c : Config I μ κ ε ρ σ ι) (i : ι) (e : Effect I μ κ ε ρ σ) :
    Config I μ κ ε ρ σ ι where
  store := e.store
  proc := Function.update c.proc i e.proc
  log := c.log ++ e.committed.toList.map fun w => (i, w)
  sent := c.sent ++ e.sent.toList.map fun m => (i, m)

variable [Fintype ι]

/-- The session is about to flush a row that another session's flushed row excludes. -/
def Config.waits (S : Store I σ) (c : Config I μ κ ε ρ σ ι) (i : ι) : Script I μ κ ε ρ → Bool
  | .flush r _ => decide (∃ j, j ≠ i ∧ ((c.proc j).row.any fun r' => S.clash r' r) = true)
  | _ => false

/-- The next statement of session `i`. A flush waits while another session holds a clashing row. -/
def Config.step (S : Store I σ) (c : Config I μ κ ε ρ σ ι) (i : ι) (reply : κ) :
    Config I μ κ ε ρ σ ι :=
  match c.proc i with
  | .closed _ => c
  | .running u code => if c.waits S i code then c else c.take i (statement S c.store reply u code)

/-- The sessions in the order of `schedule`; each entry says what a message would be answered. -/
def Config.steps (S : Store I σ) (c : Config I μ κ ε ρ σ ι) (schedule : List (ι × κ)) :
    Config I μ κ ε ρ σ ι :=
  schedule.foldl (fun c x => c.step S x.1 x.2) c

theorem Config.steps_append (S : Store I σ) (c : Config I μ κ ε ρ σ ι) (l l' : List (ι × κ)) :
    c.steps S (l ++ l') = (c.steps S l).steps S l' := by
  unfold Config.steps
  exact List.foldl_append

/-- The error a session has ended in. -/
def Config.failed (c : Config I μ κ ε ρ σ ι) (i : ι) : Option (Failure ε) :=
  match c.proc i with
  | .closed (.error e) => some e
  | _ => none

section Stepping

variable {S : Store I σ} {c : Config I μ κ ε ρ σ ι} {i j : ι} {reply : κ}

/-- **A step**: nothing happens, or the session makes its statement. -/
theorem Config.step_cases (S : Store I σ) (c : Config I μ κ ε ρ σ ι) (i : ι) (reply : κ) :
    c.step S i reply = c ∨ ∃ u code, c.proc i = .running u code ∧
      c.step S i reply = c.take i (statement S c.store reply u code) := by
  unfold Config.step
  cases hp : c.proc i with
  | closed ending => exact Or.inl rfl
  | running u code =>
      dsimp only
      split
      · exact Or.inl rfl
      · exact Or.inr ⟨u, code, rfl, rfl⟩

omit [Fintype ι] in
theorem Config.take_proc_ne {e : Effect I μ κ ε ρ σ} (h : j ≠ i) :
    (c.take i e).proc j = c.proc j :=
  Function.update_of_ne h ..

omit [Fintype ι] in
theorem Config.take_proc_self {e : Effect I μ κ ε ρ σ} : (c.take i e).proc i = e.proc :=
  Function.update_self ..

/-- What was committed stays in the log. -/
theorem Config.step_log (x : ι × I.Change) (h : x ∈ c.log) : x ∈ (c.step S i reply).log := by
  rcases c.step_cases S i reply with hc | ⟨u, code, _, hc⟩
  · rw [hc]
    exact h
  · rw [hc]
    exact mem_tagged.mpr (Or.inl h)

theorem Config.steps_log (schedule : List (ι × κ)) (x : ι × I.Change) (h : x ∈ c.log) :
    x ∈ (c.steps S schedule).log := by
  induction schedule generalizing c with
  | nil => exact h
  | cons y schedule ih => exact ih (Config.step_log x h)

/-- A step that changes the store is a commit in the log. -/
theorem Config.step_store (h : (c.step S i reply).store ≠ c.store) :
    ∃ w, (i, w) ∈ (c.step S i reply).log := by
  rcases c.step_cases S i reply with hc | ⟨u, code, _, hc⟩
  · rw [hc] at h
    exact absurd rfl h
  · rw [hc] at h ⊢
    have hs := statement_store S c.store reply u code
    cases hw : (statement S c.store reply u code).committed with
    | none =>
        rw [hw] at hs
        exact absurd hs h
    | some w => exact ⟨w, mem_tagged.mpr (Or.inr ⟨rfl, hw⟩)⟩

theorem Config.step_replay {s : σ} (hc : c.store = replay S s c.log) :
    (c.step S i reply).store = replay S s (c.step S i reply).log := by
  rcases c.step_cases S i reply with h | ⟨u, code, _, h⟩
  · rw [h]
    exact hc
  · rw [h]
    show (statement S c.store reply u code).store = replay S s (c.log ++ _)
    rw [replay_append, ← hc, statement_store]
    cases (statement S c.store reply u code).committed <;> rfl

/-- **The store is what its commits make of it.** -/
theorem Config.steps_replay {s : σ} (hc : c.store = replay S s c.log) (schedule : List (ι × κ)) :
    (c.steps S schedule).store = replay S s (c.steps S schedule).log := by
  induction schedule generalizing c with
  | nil => exact hc
  | cons x schedule ih => exact ih (Config.step_replay hc)

end Stepping

end Steps

/-! ## 4. Careful scripts -/

/-- From here on nothing fails with an error in `P`; a change in `sure` is refused by no store. `w` is
    what is staged. -/
def Settled (P : ε → Prop) (sure : I.Change → Prop) :
    Option I.Change → Script I μ κ ε α → Prop
  | _, .done _ => True
  | _, .raise e => ¬P e
  | w, .read _ k => ∀ a, Settled P sure w (k a)
  | _, .stage w k => Settled P sure (some w) k
  | w, .flush _ k => ∀ v, Settled P sure w (k v)
  | w, .commit k => Settled P sure none (k none) ∧
      ((∃ w', w = some w' ∧ sure w') ∨ ∀ why, Settled P sure w (k (some why)))
  | _, .rollback k => Settled P sure none k
  | w, .send _ k => ∀ a, Settled P sure w (k a)

/-- Whatever commits, and whatever is sent, the code is settled from there on. -/
def Careful (P : ε → Prop) (sure : I.Change → Prop) :
    Option I.Change → Script I μ κ ε α → Prop
  | _, .done _ => True
  | _, .raise _ => True
  | w, .read _ k => ∀ a, Careful P sure w (k a)
  | _, .stage w k => Careful P sure (some w) k
  | w, .flush _ k => ∀ v, Careful P sure w (k v)
  | w, .commit k => Settled P sure none (k none) ∧ ∀ why, Careful P sure w (k (some why))
  | _, .rollback k => Careful P sure none k
  | w, .send _ k => ∀ a, Settled P sure w (k a)

section Rules

variable {P : ε → Prop} {sure : I.Change → Prop} {S : Store I σ} {s : σ} {u : Held I} {reply : κ}

/-- A session that fails with no error in `P` any more. -/
def Proc.Safe (P : ε → Prop) (sure : I.Change → Prop) : Proc I μ κ ε ρ → Prop
  | .running u code => Settled P sure u.staged code
  | .closed ending => ∀ e, ending = .error (.raised e) → ¬P e

/-- A session that is careful as long as it runs. -/
def Proc.Cares (P : ε → Prop) (sure : I.Change → Prop) : Proc I μ κ ε ρ → Prop
  | .running u code => Careful P sure u.staged code
  | .closed _ => True

/-- **A statement keeps a settled session safe.** -/
theorem Settled.statement (hsure : ∀ s w, sure w → ∃ s', S.commit s w = .ok s')
    {code : Script I μ κ ε ρ} (h : Settled P sure u.staged code) :
    (statement S s reply u code).proc.Safe P sure := by
  unfold UnitOfWork.statement
  split
  · intro e he
    cases he
  · cases code with
    | done x =>
        intro e he
        cases he
    | raise e =>
        intro e' he
        cases he
        exact h
    | stage w k => exact h
    | rollback k => exact h
    | send m k => exact h reply
    | read q k => exact h (S.answer s q)
    | flush r k =>
        show Settled P sure (u.flushed S s r).staged _
        rw [flushed_staged]
        exact h (S.probe s r)
    | commit k =>
        rcases attempt_commit S s reply u k with ⟨_, hx⟩ | ⟨w, s', _, _, hx⟩ | ⟨w, why, hw, hc, hx⟩
        · rw [hx]
          exact h.1
        · rw [hx]
          exact h.1
        · rw [hx]
          rcases h.2 with ⟨w', hw', hs⟩ | hrefused
          · -- no store refuses it
            obtain rfl : w = w' := Option.some.inj (hw.symm.trans hw')
            obtain ⟨s', hs'⟩ := hsure s w hs
            rw [hs'] at hc
            cases hc
          · exact hrefused why

/-- **A statement of a careful session** commits and sends nothing and leaves it careful, or leaves it
    safe. -/
theorem Careful.statement (S : Store I σ) (s : σ) (reply : κ) {code : Script I μ κ ε ρ}
    (h : Careful P sure u.staged code) :
    ((statement S s reply u code).committed = none ∧ (statement S s reply u code).sent = none ∧
        (statement S s reply u code).proc.Cares P sure) ∨
      (statement S s reply u code).proc.Safe P sure := by
  unfold UnitOfWork.statement
  split
  · exact Or.inl ⟨rfl, rfl, trivial⟩
  · cases code with
    | done x => exact Or.inl ⟨rfl, rfl, trivial⟩
    | raise e => exact Or.inl ⟨rfl, rfl, trivial⟩
    | stage w k => exact Or.inl ⟨rfl, rfl, h⟩
    | rollback k => exact Or.inl ⟨rfl, rfl, h⟩
    | send m k => exact Or.inr (h reply)
    | read q k => exact Or.inl ⟨rfl, rfl, h (S.answer s q)⟩
    | flush r k =>
        refine Or.inl ⟨rfl, rfl, ?_⟩
        show Careful P sure (u.flushed S s r).staged _
        rw [flushed_staged]
        exact h (S.probe s r)
    | commit k =>
        rcases attempt_commit S s reply u k with ⟨_, hx⟩ | ⟨w, s', _, _, hx⟩ | ⟨w, why, hw, _, hx⟩
        · rw [hx]
          exact Or.inr h.1
        · rw [hx]
          exact Or.inr h.1
        · rw [hx]
          exact Or.inl ⟨rfl, rfl, h.2 why⟩

variable [DecidableEq ι]

/-- Session `i` is safe, or it has written and sent nothing so far, and is careful. -/
def Config.Inert (P : ε → Prop) (sure : I.Change → Prop) (i : ι) (c : Config I μ κ ε ρ σ ι) : Prop :=
  (c.proc i).Safe P sure ∨
    (∀ w, (i, w) ∉ c.log) ∧ (∀ m, (i, m) ∉ c.sent) ∧ (c.proc i).Cares P sure

variable [Fintype ι] {c : Config I μ κ ε ρ σ ι} {i : ι}

theorem Config.Inert.step (hsure : ∀ s w, sure w → ∃ s', S.commit s w = .ok s')
    (h : c.Inert P sure i) (j : ι) (reply : κ) : (c.step S j reply).Inert P sure i := by
  rcases c.step_cases S j reply with hc | ⟨u, code, hp, hc⟩
  · rw [hc]
    exact h
  · rw [hc]
    by_cases hij : i = j
    · subst hij
      unfold Config.Inert at h ⊢
      rw [hp] at h
      rw [Config.take_proc_self]
      rcases h with hs | ⟨hlog, hsent, hcares⟩
      · exact Or.inl (Settled.statement hsure hs)
      · rcases Careful.statement S c.store reply hcares with ⟨hw, hm, hk⟩ | hs
        · exact Or.inr ⟨not_mem_tagged hlog fun _ => hw, not_mem_tagged hsent fun _ => hm, hk⟩
        · exact Or.inl hs
    · unfold Config.Inert
      rw [Config.take_proc_ne hij]
      rcases h with hs | ⟨hlog, hsent, hcares⟩
      · exact Or.inl hs
      · have hother : ∀ {o : Prop}, i = j → o := fun h => absurd h hij
        exact Or.inr ⟨not_mem_tagged hlog hother, not_mem_tagged hsent hother, hcares⟩

theorem Config.Inert.steps (hsure : ∀ s w, sure w → ∃ s', S.commit s w = .ok s')
    (h : c.Inert P sure i) (schedule : List (ι × κ)) : (c.steps S schedule).Inert P sure i := by
  induction schedule generalizing c with
  | nil => exact h
  | cons x schedule ih => exact ih (h.step hsure x.1 x.2)

/-- **Careful sessions fail inertly**: where a session ends in an error of `P`, none of its own
    statements changed the store, no commit of it is in the log and no message of it was sent,
    whatever the other sessions are. -/
theorem Careful.inert (hsure : ∀ s w, sure w → ∃ s', S.commit s w = .ok s')
    (code : ι → Script I μ κ ε ρ) (i : ι) (hcode : Careful P sure none (code i))
    {schedule : List (ι × κ)} {e : ε} (he : P e)
    (hfail : ((Config.start s code).steps S schedule).failed i = some (.raised e)) :
    (∀ l reply l', schedule = l ++ (i, reply) :: l' →
        ((Config.start s code).steps S (l ++ [(i, reply)])).store =
          ((Config.start s code).steps S l).store) ∧
      (∀ w, (i, w) ∉ ((Config.start s code).steps S schedule).log) ∧
      ∀ m, (i, m) ∉ ((Config.start s code).steps S schedule).sent := by
  have h0 : (Config.start s code : Config I μ κ ε ρ σ ι).Inert P sure i :=
    Or.inr ⟨fun _ h => (List.not_mem_nil h).elim, fun _ h => (List.not_mem_nil h).elim, hcode⟩
  have hclosed : ((Config.start s code).steps S schedule).proc i =
      .closed (.error (.raised e)) := by
    unfold Config.failed at hfail
    split at hfail
    · rename_i e' hp
      cases hfail
      exact hp
    · cases hfail
  rcases h0.steps hsure schedule with hsafe | ⟨hlog, hsent, _⟩
  · rw [hclosed] at hsafe
    exact absurd he (hsafe e rfl)
  · refine ⟨?_, hlog, hsent⟩
    intro l reply l' hl
    by_contra hne
    rw [Config.steps_append] at hne
    obtain ⟨w, hw⟩ := Config.step_store (S := S) hne
    -- the commit would still be in the log
    refine hlog w ?_
    rw [hl, show l ++ (i, reply) :: l' = (l ++ [(i, reply)]) ++ l' by simp, Config.steps_append]
    refine Config.steps_log l' _ ?_
    rw [Config.steps_append]
    exact hw

end Rules

/-! ## 5. How scripts compose -/

section Composing

variable {P : ε → Prop} {sure : I.Change → Prop}

theorem Settled.bind {x : Script I μ κ ε α} {f : α → Script I μ κ ε β} {w : Option I.Change}
    (hx : Settled P sure w x) (hf : ∀ w a, Settled P sure w (f a)) : Settled P sure w (x >>= f) := by
  induction x generalizing w with
  | done a => exact hf w a
  | raise e => exact hx
  | read q k ih => exact fun a => ih a (hx a)
  | stage w' k ih => exact ih hx
  | flush r k ih => exact fun v => ih v (hx v)
  | commit k ih =>
      refine ⟨ih none hx.1, ?_⟩
      rcases hx.2 with hs | hrefused
      · exact Or.inl hs
      · exact Or.inr fun why => ih (some why) (hrefused why)
  | rollback k ih => exact ih hx
  | send m k ih => exact fun a => ih a (hx a)

theorem Careful.bind {x : Script I μ κ ε α} {f : α → Script I μ κ ε β} {w : Option I.Change}
    (hx : Careful P sure w x) (hf : ∀ w a, Careful P sure w (f a))
    (hsettled : ∀ w a, Settled P sure w (f a)) : Careful P sure w (x >>= f) := by
  induction x generalizing w with
  | done a => exact hf w a
  | raise e => trivial
  | read q k ih => exact fun a => ih a (hx a)
  | stage w' k ih => exact ih hx
  | flush r k ih => exact fun v => ih v (hx v)
  | commit k ih => exact ⟨hx.1.bind hsettled, fun why => ih (some why) (hx.2 why)⟩
  | rollback k ih => exact ih hx
  | send m k ih => exact fun a => (hx a).bind hsettled

/-- A script that neither commits nor sends. -/
def Silent : Script I μ κ ε α → Prop
  | .done _ => True
  | .raise _ => True
  | .read _ k => ∀ a, Silent (k a)
  | .stage _ k => Silent k
  | .flush _ k => ∀ v, Silent (k v)
  | .commit _ => False
  | .rollback k => Silent k
  | .send _ _ => False

/-- **What comes before the first commit may fail as it likes.** -/
theorem Silent.careful {x : Script I μ κ ε α} {f : α → Script I μ κ ε β} {w : Option I.Change}
    (hx : Silent x) (hf : ∀ w a, Careful P sure w (f a)) : Careful P sure w (x >>= f) := by
  induction x generalizing w with
  | done a => exact hf w a
  | raise e => trivial
  | read q k ih => exact fun a => ih a (hx a)
  | stage w' k ih => exact ih hx
  | flush r k ih => exact fun v => ih v (hx v)
  | commit k _ => exact hx.elim
  | rollback k ih => exact ih hx
  | send m k _ => exact hx.elim

end Composing

/-! ## 6. A session alone -/

/-- How a session that runs alone ends, and what it leaves. -/
structure Alone (μ ε σ α : Type) where
  ending : Except (Failure ε) α
  store : σ
  sent : List μ

def Alone.sends (m : μ) (r : Alone μ ε σ α) : Alone μ ε σ α := { r with sent := m :: r.sent }

/-- All statements of a session, with nothing beside it; every message is answered `reply`. -/
def Script.exec (S : Store I σ) (reply : κ) :
    Script I μ κ ε α → Held I → σ → Alone μ ε σ α
  | .done x, _, s => ⟨.ok x, s, []⟩
  | .raise e, _, s => ⟨.error (.raised e), s, []⟩
  | .stage w k, u, s => k.exec S reply { u with staged := some w } s
  | .rollback k, _, s => k.exec S reply {} s
  | .send m k, u, s => ((k reply).exec S reply u s).sends m
  | .read q k, u, s =>
      if u.aborted then ⟨.error .pendingRollback, s, []⟩ else (k (S.answer s q)).exec S reply u s
  | .flush r k, u, s =>
      if u.aborted then ⟨.error .pendingRollback, s, []⟩
      else (k (S.probe s r)).exec S reply (u.flushed S s r) s
  | .commit k, u, s =>
      if u.aborted then ⟨.error .pendingRollback, s, []⟩
      else
        match u.staged with
        | none => (k none).exec S reply {} s
        | some w =>
            match S.commit s w with
            | .ok s' => (k none).exec S reply {} s'
            | .error why =>
                (k (some why)).exec S reply { u with row := none, aborted := true } s

/-! What a session that need not be rolled back does next. -/

section Exec

variable {S : Store I σ} {s s' : σ} {reply : κ} {u : Held I}

theorem exec_read (hu : u.aborted = false) (q : I.Query) (k : I.Answer q → Script I μ κ ε α) :
    (Script.read q k).exec S reply u s = (k (S.answer s q)).exec S reply u s := by
  show (if u.aborted then _ else _) = _
  rw [hu]
  rfl

theorem exec_flush (hu : u.aborted = false) (r : I.Row) (k : I.Verdict → Script I μ κ ε α) :
    (Script.flush r k).exec S reply u s = (k (S.probe s r)).exec S reply (u.flushed S s r) s := by
  show (if u.aborted then _ else _) = _
  rw [hu]
  rfl

theorem exec_commit_ok {w : I.Change} (hu : u.aborted = false) (hw : u.staged = some w)
    (h : S.commit s w = .ok s') (k : Option I.Refusal → Script I μ κ ε α) :
    (Script.commit k).exec S reply u s = (k none).exec S reply {} s' := by
  rw [Script.exec, hu, hw]
  simp only [h, Bool.false_eq_true, if_false]

theorem exec_commit_error {w : I.Change} {why : I.Refusal} (hu : u.aborted = false)
    (hw : u.staged = some w) (h : S.commit s w = .error why)
    (k : Option I.Refusal → Script I μ κ ε α) :
    (Script.commit k).exec S reply u s =
      (k (some why)).exec S reply { u with row := none, aborted := true } s := by
  rw [Script.exec, hu, hw]
  simp only [h, Bool.false_eq_true, if_false]

end Exec

section Alone

variable [DecidableEq ι] [Fintype ι] {S : Store I σ} {reply : κ} {i : ι}

/-- Statements of session `i` alone lead from `c` to the end of `r`. -/
def Config.Ends (S : Store I σ) (reply : κ) (i : ι) (c : Config I μ κ ε ρ σ ι) (r : Alone μ ε σ ρ) :
    Prop :=
  ∃ n, (c.steps S (List.replicate n (i, reply))).proc i = .closed r.ending ∧
    (c.steps S (List.replicate n (i, reply))).store = r.store ∧
    (c.steps S (List.replicate n (i, reply))).sent = c.sent ++ r.sent.map fun m => (i, m)

variable {c : Config I μ κ ε ρ σ ι} {u : Held I} {code : Script I μ κ ε ρ}

/-- Nobody else holds a row: the session need not wait. -/
def Config.Free (c : Config I μ κ ε ρ σ ι) (i : ι) : Prop := ∀ j, j ≠ i → (c.proc j).row = none

theorem Config.step_free (hp : c.proc i = .running u code) (hfree : c.Free i) :
    c.step S i reply = c.take i (statement S c.store reply u code) := by
  have hwaits : c.waits S i code = false := by
    cases code with
    | flush r k =>
        refine decide_eq_false ?_
        rintro ⟨j, hj, hrow⟩
        rw [hfree j hj] at hrow
        cases hrow
    | _ => rfl
  unfold Config.step
  rw [hp]
  dsimp only
  rw [hwaits]
  rfl

omit [Fintype ι] in
theorem Config.Free.take (hfree : c.Free i) (e : Effect I μ κ ε ρ σ) : (c.take i e).Free i := by
  intro j hj
  rw [Config.take_proc_ne hj]
  exact hfree j hj

/-- The session ends by its next statement. -/
theorem Config.Ends.close (hp : c.proc i = .running u code) (hfree : c.Free i)
    {ending : Except (Failure ε) ρ}
    (h : statement S c.store reply u code = ⟨.closed ending, c.store, none, none⟩) :
    c.Ends S reply i ⟨ending, c.store, []⟩ := by
  have hstep : c.steps S (List.replicate 1 (i, reply)) =
      c.take i ⟨.closed ending, c.store, none, none⟩ := by
    show c.step S i reply = _
    rw [Config.step_free hp hfree, h]
  refine ⟨1, ?_⟩
  rw [hstep]
  exact ⟨Config.take_proc_self, rfl, rfl⟩

/-- It goes on after its next statement. -/
theorem Config.Ends.next (hp : c.proc i = .running u code) (hfree : c.Free i)
    {e : Effect I μ κ ε ρ σ} (he : statement S c.store reply u code = e) {r : Alone μ ε σ ρ}
    (h : (c.take i e).Ends S reply i r) :
    c.Ends S reply i (e.sent.elim r r.sends) := by
  obtain ⟨n, hproc, hstore, hsent⟩ := h
  have hstep : c.steps S (List.replicate (n + 1) (i, reply)) =
      (c.take i e).steps S (List.replicate n (i, reply)) := by
    show (c.step S i reply).steps S _ = _
    rw [Config.step_free hp hfree, he]
  refine ⟨n + 1, ?_⟩
  rw [hstep, hproc, hstore, hsent]
  cases hm : e.sent with
  | none => exact ⟨rfl, rfl, by simp [Config.take, hm]⟩
  | some m => exact ⟨rfl, rfl, by simp [Config.take, hm, Alone.sends]⟩

theorem statement_pending {s : σ} (h : (u.aborted && code.asks) = true) :
    statement S s reply u code = ⟨.closed (.error .pendingRollback), s, none, none⟩ :=
  if_pos h

theorem statement_usable {s : σ} (h : (u.aborted && code.asks) = false) :
    statement S s reply u code = attempt S s reply u code := by
  unfold statement
  rw [h]
  rfl

/-- **A session that nobody makes wait ends as it does alone.** -/
theorem Config.steps_alone (hp : c.proc i = .running u code) (hfree : c.Free i) :
    c.Ends S reply i (code.exec S reply u c.store) := by
  have hself : ∀ {c : Config I μ κ ε ρ σ ι} {e : Effect I μ κ ε ρ σ} {p : Proc I μ κ ε ρ}, e.proc = p →
      (c.take i e).proc i = p := fun h => Config.take_proc_self.trans h
  induction code generalizing c u with
  | done x => exact Config.Ends.close hp hfree (statement_usable (Bool.and_false _))
  | raise e => exact Config.Ends.close hp hfree (statement_usable (Bool.and_false _))
  | stage w k ih =>
      exact Config.Ends.next hp hfree (statement_usable (Bool.and_false _))
        (ih (hself rfl) (hfree.take _))
  | rollback k ih =>
      exact Config.Ends.next hp hfree (statement_usable (Bool.and_false _))
        (ih (hself rfl) (hfree.take _))
  | send m k ih =>
      exact Config.Ends.next hp hfree (statement_usable (Bool.and_false _))
        (ih reply (hself rfl) (hfree.take _))
  | read q k ih =>
      unfold Script.exec
      cases ha : u.aborted with
      | true => exact Config.Ends.close hp hfree (statement_pending (by rw [ha]; rfl))
      | false =>
          exact Config.Ends.next hp hfree (statement_usable (by rw [ha]; rfl))
            (ih _ (hself rfl) (hfree.take _))
  | flush r k ih =>
      unfold Script.exec
      cases ha : u.aborted with
      | true => exact Config.Ends.close hp hfree (statement_pending (by rw [ha]; rfl))
      | false =>
          exact Config.Ends.next hp hfree (statement_usable (by rw [ha]; rfl))
            (ih _ (hself rfl) (hfree.take _))
  | commit k ih =>
      unfold Script.exec
      cases ha : u.aborted with
      | true => exact Config.Ends.close hp hfree (statement_pending (by rw [ha]; rfl))
      | false =>
          have he : statement S c.store reply u (.commit k) = attempt S c.store reply u (.commit k) :=
            statement_usable (by rw [ha]; rfl)
          rcases attempt_commit S c.store reply u k with
            ⟨hw, hx⟩ | ⟨w, s', hw, hs, hx⟩ | ⟨w, why, hw, hs, hx⟩
          · rw [hw]
            exact Config.Ends.next hp hfree (he.trans hx) (ih _ (hself rfl) (hfree.take _))
          · rw [hw]
            dsimp only
            rw [hs]
            exact Config.Ends.next hp hfree (he.trans hx) (ih _ (hself rfl) (hfree.take _))
          · rw [hw]
            dsimp only
            rw [hs, ← hw]
            exact Config.Ends.next hp hfree (he.trans hx) (ih _ (hself rfl) (hfree.take _))

end Alone

end UnitOfWork
