/-
  File:      ModelOps/Benchmarks/LabelFeeder.lean
  Subject:   The label feeder of the load generator: `_LabelFeeder`.

  Labels wait in a queue until their delay is over and are posted in batches; `stop` flushes once more.

  * `LabelFeeder` -- `queueLabel`, `dueBatch`, `flushOnce`, `stop`, as the code has them;
  * `dueBatch_eq`, `run_eq` -- it is a queue with bounded batches;
  * **`posted_once`** -- whatever the clocks read, no label is lost from the queue or posted twice;
  * **`delivered_iff`** -- with clocks that do not go back the posts are the front of the labels
    queued; they are all of them exactly if the last flush finds at most 50 labels, all due.
-/
import Mathlib.Algebra.Order.Ring.Rat
import Mathlib.Tactic.Linarith
import ModelOps.ControlPlane.Models
import ModelOps.Lib.Batching

namespace ModelOps

open Batching

/-! ## 1. The feeder -/

/-- An element of `_queue`. -/
structure QueuedLabel where
  sendAt : ℚ
  predictionId : String
  actualLabel : Int
  deriving DecidableEq

/-- An element of a body posted to /api/labels/batch. -/
structure LabelBody where
  predictionId : String
  actualLabel : Int
  occurredAt : Time
  deriving DecidableEq

/-- `_LabelFeeder`, with the bodies it has posted. -/
structure LabelFeeder where
  labelDelaySeconds : ℚ
  labelCoverage : ℚ
  queue : List QueuedLabel
  posted : List (List LabelBody)

/-- `_LABEL_FLUSH_BATCH_SIZE`. -/
def labelFlushBatchSize : Nat := 50

/-- `__init__`. -/
def LabelFeeder.new (labelDelaySeconds labelCoverage : ℚ) : LabelFeeder :=
  ⟨labelDelaySeconds, labelCoverage, [], []⟩

/-- `queue_label`: `draw` is `random.random()`, `now` is `time.monotonic()`. -/
def LabelFeeder.queueLabel (f : LabelFeeder) (draw now : ℚ) (predictionId : String)
    (actualLabel : Int) : LabelFeeder :=
  if f.labelCoverage < draw then f
  else { f with queue := f.queue ++ [⟨now + f.labelDelaySeconds, predictionId, actualLabel⟩] }

/-- One turn of the loop in `_due_batch`, on `due` and `remaining`. -/
def sortOut (now : ℚ) (lists : List (String × Int) × List QueuedLabel) (e : QueuedLabel) :
    List (String × Int) × List QueuedLabel :=
  if e.sendAt ≤ now ∧ lists.1.length < labelFlushBatchSize then
    (lists.1 ++ [(e.predictionId, e.actualLabel)], lists.2)
  else (lists.1, lists.2 ++ [e])

/-- `_due_batch`: the batch, and the queue that remains. -/
def dueBatch (now : ℚ) (queue : List QueuedLabel) : List (String × Int) × List QueuedLabel :=
  queue.foldl (sortOut now) ([], [])

/-- What a flush reads from the clocks: `time.monotonic()` and `datetime.now(UTC)`. -/
structure FlushTime where
  now : ℚ
  nowIso : Time

/-- `_flush_once`. -/
def LabelFeeder.flushOnce (f : LabelFeeder) (t : FlushTime) : LabelFeeder :=
  let batch := dueBatch t.now f.queue
  if batch.1.isEmpty then { f with queue := batch.2 }
  else
    let body := batch.1.map fun label => ⟨label.1, label.2, t.nowIso⟩
    { f with queue := batch.2, posted := f.posted ++ [body] }

/-- What the feeder does before it is stopped: calls of `queue_label`, turns of the loop in `_run`. -/
inductive FeederEvent where
  | queueLabel (draw now : ℚ) (predictionId : String) (actualLabel : Int)
  | flush (t : FlushTime)

def LabelFeeder.apply (f : LabelFeeder) : FeederEvent → LabelFeeder
  | .queueLabel draw now predictionId actualLabel => f.queueLabel draw now predictionId actualLabel
  | .flush t => f.flushOnce t

def LabelFeeder.run (f : LabelFeeder) (events : List FeederEvent) : LabelFeeder :=
  events.foldl LabelFeeder.apply f

/-- `stop`: the thread leaves its loop, flushes a last time and is joined. -/
def LabelFeeder.stop (f : LabelFeeder) (t : FlushTime) : LabelFeeder := f.flushOnce t

/-! ## 2. The feeder as a queue with bounded batches -/

/-- The label is due at a flush. -/
def due (t : FlushTime) (e : QueuedLabel) : Bool := decide (e.sendAt ≤ t.now)

/-- The body posted for a batch. -/
def bodyOf (b : FlushTime × List QueuedLabel) : List LabelBody :=
  b.2.map fun e => ⟨e.predictionId, e.actualLabel, b.1.nowIso⟩

/-- The label a call of `queue_label` adds, at the feeder's delay and coverage. -/
def FeederEvent.accepted (delay coverage : ℚ) : FeederEvent → List QueuedLabel
  | .queueLabel draw now predictionId actualLabel =>
      if coverage < draw then [] else [⟨now + delay, predictionId, actualLabel⟩]
  | .flush _ => []

def FeederEvent.ops (delay coverage : ℚ) : FeederEvent → List (Op FlushTime QueuedLabel)
  | .flush t => [.flush t]
  | e => (e.accepted delay coverage).map .push

section Refinement

variable {f : LabelFeeder} {q : Queue FlushTime QueuedLabel} {delay coverage : ℚ}
  {events : List FeederEvent}

theorem sortOut_foldl (t : FlushTime) (queue : List QueuedLabel) (batch : List (String × Int))
    (remaining : List QueuedLabel) (n : Nat) (hn : batch.length + n = labelFlushBatchSize) :
    queue.foldl (sortOut t.now) (batch, remaining) =
      (batch ++ (drawn (due t) n queue).map fun e => (e.predictionId, e.actualLabel),
        remaining ++ left (due t) n queue) := by
  induction queue generalizing batch remaining n with
  | nil => simp [drawn, left]
  | cons e queue ih =>
      rw [List.foldl_cons]
      cases n with
      | zero =>
          -- the batch is full
          have hskip : sortOut t.now (batch, remaining) e = (batch, remaining ++ [e]) :=
            if_neg fun h => absurd h.2 (by dsimp only; omega)
          rw [hskip, ih _ _ 0 hn]
          simp [drawn]
      | succ n =>
          by_cases hdue : e.sendAt ≤ t.now
          · have htake : sortOut t.now (batch, remaining) e =
                (batch ++ [(e.predictionId, e.actualLabel)], remaining) :=
              if_pos ⟨hdue, by dsimp only; omega⟩
            have hready : due t e = true := decide_eq_true hdue
            rw [htake, ih _ _ n (by simp; omega)]
            unfold drawn
            rw [left, if_pos hready, List.filter_cons_of_pos hready]
            simp
          · have hskip : sortOut t.now (batch, remaining) e = (batch, remaining ++ [e]) :=
              if_neg fun h => hdue h.1
            have hready : ¬ due t e = true := fun h => hdue (of_decide_eq_true h)
            rw [hskip, ih _ _ (n + 1) hn]
            unfold drawn
            rw [left, if_neg hready, List.filter_cons_of_neg hready]
            simp

/-- **`_due_batch` draws the first 50 labels that are due.** -/
theorem dueBatch_eq (t : FlushTime) (queue : List QueuedLabel) :
    dueBatch t.now queue =
      ((drawn (due t) labelFlushBatchSize queue).map fun e => (e.predictionId, e.actualLabel),
        left (due t) labelFlushBatchSize queue) :=
  sortOut_foldl t queue [] [] labelFlushBatchSize (Nat.zero_add _)

/-- The feeder's queue is the queue's, its posts are the batches that are not empty. -/
structure FeedsFrom (f : LabelFeeder) (q : Queue FlushTime QueuedLabel) : Prop where
  queue : f.queue = q.waiting
  posted : f.posted = (q.batches.filter fun b => !b.2.isEmpty).map bodyOf

theorem flushOnce_feeds (h : FeedsFrom f q) (t : FlushTime) :
    FeedsFrom (f.flushOnce t) (q.step due labelFlushBatchSize (.flush t)) := by
  simp only [LabelFeeder.flushOnce, Queue.step, dueBatch_eq, h.queue]
  generalize drawn (due t) labelFlushBatchSize q.waiting = batch
  cases batch with
  | nil => exact ⟨rfl, by simp [h.posted]⟩
  | cons e batch => exact ⟨rfl, by simp [h.posted, bodyOf]⟩

theorem queueLabel_feeds (h : FeedsFrom f q) (draw now : ℚ) (predictionId : String)
    (actualLabel : Int) :
    FeedsFrom (f.queueLabel draw now predictionId actualLabel)
      (q.run due labelFlushBatchSize ((FeederEvent.queueLabel draw now predictionId actualLabel).ops
        f.labelDelaySeconds f.labelCoverage)) := by
  unfold LabelFeeder.queueLabel
  by_cases hdraw : f.labelCoverage < draw
  · simp only [FeederEvent.ops, FeederEvent.accepted, if_pos hdraw]
    exact h
  · simp only [FeederEvent.ops, FeederEvent.accepted, if_neg hdraw]
    exact ⟨by simp [Queue.run, Queue.step, h.queue], h.posted⟩

theorem apply_feeds (h : FeedsFrom f q) (e : FeederEvent) :
    FeedsFrom (f.apply e)
      (q.run due labelFlushBatchSize (e.ops f.labelDelaySeconds f.labelCoverage)) := by
  cases e with
  | flush t => exact flushOnce_feeds h t
  | queueLabel draw now predictionId actualLabel =>
      exact queueLabel_feeds h draw now predictionId actualLabel

theorem apply_settings (f : LabelFeeder) (e : FeederEvent) :
    (f.apply e).labelDelaySeconds = f.labelDelaySeconds ∧
      (f.apply e).labelCoverage = f.labelCoverage := by
  cases e with
  | flush t =>
      simp only [LabelFeeder.apply, LabelFeeder.flushOnce]
      split <;> exact ⟨rfl, rfl⟩
  | queueLabel =>
      simp only [LabelFeeder.apply, LabelFeeder.queueLabel]
      split <;> exact ⟨rfl, rfl⟩

theorem run_feeds (h : FeedsFrom f q) (hdelay : f.labelDelaySeconds = delay)
    (hcoverage : f.labelCoverage = coverage) (events : List FeederEvent) :
    FeedsFrom (f.run events)
      (q.run due labelFlushBatchSize (events.flatMap (FeederEvent.ops delay coverage))) := by
  induction events generalizing f q with
  | nil => exact h
  | cons e events ih =>
      obtain ⟨hd, hc⟩ := apply_settings f e
      rw [List.flatMap_cons, run_append]
      have hstep := apply_feeds h e
      rw [hdelay, hcoverage] at hstep
      exact ih hstep (hd.trans hdelay) (hc.trans hcoverage)

theorem ops_pushed (events : List FeederEvent) :
    (events.flatMap (FeederEvent.ops delay coverage)).flatMap Op.pushed =
      events.flatMap (FeederEvent.accepted delay coverage) := by
  induction events with
  | nil => rfl
  | cons e events ih =>
      rw [List.flatMap_cons, List.flatMap_append, List.flatMap_cons, ih]
      congr 1
      cases e with
      | flush t => rfl
      | queueLabel draw now predictionId actualLabel =>
          by_cases hdraw : coverage < draw
          · simp [FeederEvent.ops, FeederEvent.accepted, hdraw]
          · simp [FeederEvent.ops, FeederEvent.accepted, hdraw, Op.pushed]

end Refinement

/-! ## 3. What is posted -/

/-- What the monotonic clock reads at an event. -/
def FeederEvent.now : FeederEvent → ℚ
  | .queueLabel _ now _ _ => now
  | .flush t => t.now

/-- The feeder when `stop` returns. -/
def stoppedFeeder (delay coverage : ℚ) (events : List FeederEvent) (last : FlushTime) : LabelFeeder :=
  ((LabelFeeder.new delay coverage).run events).stop last

/-- The labels accepted into the queue, in order. -/
def acceptedLabels (delay coverage : ℚ) (events : List FeederEvent) : List QueuedLabel :=
  events.flatMap (FeederEvent.accepted delay coverage)

/-- The batches behind the posts: none is empty or has more than 50 labels, no label is posted before
    its delay is over. -/
structure PostedAs (f : LabelFeeder) (batches : List (FlushTime × List QueuedLabel)) : Prop where
  bodies : f.posted = batches.map bodyOf
  nonempty : ∀ b ∈ batches, b.2 ≠ []
  fitting : ∀ b ∈ batches, Fitting due labelFlushBatchSize b

/-- Every label queued has been posted, once, when `stop` returns. -/
def AllPosted (delay coverage : ℚ) (events : List FeederEvent) (last : FlushTime) : Prop :=
  ∃ batches : List (FlushTime × List QueuedLabel),
    (stoppedFeeder delay coverage events last).posted = batches.map bodyOf ∧
      (batches.flatMap Prod.snd).Perm (acceptedLabels delay coverage events)

section Delivery

variable {delay coverage : ℚ} {events : List FeederEvent} {last : FlushTime} {f : LabelFeeder}
  {batches : List (FlushTime × List QueuedLabel)}

/-- The run of a feeder as a queue, with the last flush. -/
def feederQueue (delay coverage : ℚ) (events : List FeederEvent) (last : FlushTime) :
    Queue FlushTime QueuedLabel :=
  (Queue.start _ _).run due labelFlushBatchSize
    (events.flatMap (FeederEvent.ops delay coverage) ++ [.flush last])

theorem run_new_feeds (delay coverage : ℚ) (events : List FeederEvent) :
    FeedsFrom ((LabelFeeder.new delay coverage).run events)
      ((Queue.start _ _).run due labelFlushBatchSize
        (events.flatMap (FeederEvent.ops delay coverage))) :=
  run_feeds ⟨rfl, rfl⟩ rfl rfl events

theorem stopped_feeds (delay coverage : ℚ) (events : List FeederEvent) (last : FlushTime) :
    FeedsFrom (stoppedFeeder delay coverage events last) (feederQueue delay coverage events last) := by
  unfold feederQueue
  rw [run_append]
  exact flushOnce_feeds (run_new_feeds delay coverage events) last

theorem flatMap_nonempty (batches : List (FlushTime × List QueuedLabel)) :
    (batches.filter fun b => !b.2.isEmpty).flatMap Prod.snd = batches.flatMap Prod.snd := by
  induction batches with
  | nil => rfl
  | cons b batches ih =>
      obtain ⟨t, labels⟩ := b
      cases labels with
      | nil => simpa using ih
      | cons e labels => simpa using ih

/-- What is posted is what the queue's batches hold. -/
theorem stopped_postedAs (delay coverage : ℚ) (events : List FeederEvent) (last : FlushTime) :
    ∃ batches, PostedAs (stoppedFeeder delay coverage events last) batches ∧
      batches.flatMap Prod.snd = (feederQueue delay coverage events last).taken := by
  refine ⟨(feederQueue delay coverage events last).batches.filter fun b => !b.2.isEmpty, ?_,
    flatMap_nonempty _⟩
  have hfitting : ∀ b ∈ (feederQueue delay coverage events last).batches,
      Fitting due labelFlushBatchSize b := run_fitting fun b hb => by cases hb
  constructor
  · exact (stopped_feeds delay coverage events last).posted
  · intro b hb hnil
    have hsome := (List.mem_filter.mp hb).2
    rw [hnil] at hsome
    cases hsome
  · exact fun b hb => hfitting b (List.mem_filter.mp hb).1

theorem feederQueue_pushed :
    (events.flatMap (FeederEvent.ops delay coverage) ++ [Op.flush last]).flatMap Op.pushed =
      acceptedLabels delay coverage events := by
  rw [List.flatMap_append, ops_pushed]
  exact List.append_nil _

/-- **No label is lost from the queue or posted twice**, whatever the clocks read. -/
theorem posted_once (delay coverage : ℚ) (events : List FeederEvent) (last : FlushTime) :
    ∃ batches, PostedAs (stoppedFeeder delay coverage events last) batches ∧
      (batches.flatMap Prod.snd ++ (stoppedFeeder delay coverage events last).queue).Perm
        (acceptedLabels delay coverage events) := by
  obtain ⟨batches, hposted, htaken⟩ := stopped_postedAs delay coverage events last
  refine ⟨batches, hposted, ?_⟩
  rw [htaken, (stopped_feeds delay coverage events last).queue]
  have hperm := run_perm due labelFlushBatchSize (Queue.start _ _)
    (events.flatMap (FeederEvent.ops delay coverage) ++ [.flush last])
  rw [feederQueue_pushed] at hperm
  exact hperm

/-- The delay is the same for every label: they become due in the order of the clock. -/
theorem accepted_sorted (h : (events.map FeederEvent.now).Pairwise (· ≤ ·)) :
    (acceptedLabels delay coverage events).Pairwise fun a b => a.sendAt ≤ b.sendAt := by
  unfold acceptedLabels
  have hat : ∀ (e : FeederEvent) (a : QueuedLabel), a ∈ e.accepted delay coverage →
      a.sendAt = e.now + delay := by
    intro e a ha
    cases e with
    | flush t => cases ha
    | queueLabel draw now predictionId actualLabel =>
        simp only [FeederEvent.accepted] at ha
        split at ha
        · cases ha
        · rw [List.mem_singleton.mp ha]
          rfl
  rw [List.pairwise_flatMap]
  constructor
  · intro e _
    cases e with
    | flush t => exact .nil
    | queueLabel draw now predictionId actualLabel =>
        simp only [FeederEvent.accepted]
        split
        · exact .nil
        · exact List.pairwise_singleton _ _
  · refine (List.pairwise_map.mp h).imp ?_
    intro e e' hle a ha b hb
    rw [hat e a ha, hat e' b hb]
    linarith

/-- With clocks that do not go back, the posts are the front of the labels queued. -/
theorem posted_in_order (h : (events.map FeederEvent.now).Pairwise (· ≤ ·)) (last : FlushTime) :
    ∃ batches, PostedAs (stoppedFeeder delay coverage events last) batches ∧
      batches.flatMap Prod.snd ++ (stoppedFeeder delay coverage events last).queue =
        acceptedLabels delay coverage events := by
  obtain ⟨batches, hposted, htaken⟩ := stopped_postedAs delay coverage events last
  refine ⟨batches, hposted, ?_⟩
  rw [htaken, (stopped_feeds delay coverage events last).queue]
  have hready : ∀ (t : FlushTime) (a b : QueuedLabel), a.sendAt ≤ b.sendAt → due t b = true →
      due t a = true := fun t a b hab hb => decide_eq_true (hab.trans (of_decide_eq_true hb))
  have hsorted : ((Queue.start FlushTime QueuedLabel).taken ++
      (Queue.start FlushTime QueuedLabel).waiting ++
      (events.flatMap (FeederEvent.ops delay coverage) ++ [Op.flush last]).flatMap Op.pushed).Pairwise
        fun a b : QueuedLabel => a.sendAt ≤ b.sendAt := by
    rw [feederQueue_pushed]
    exact accepted_sorted h
  have hrun := run_in_order due labelFlushBatchSize hready hsorted
  rw [feederQueue_pushed] at hrun
  exact hrun

theorem bodies_length (h : f.posted = batches.map bodyOf) :
    (batches.flatMap Prod.snd).length = f.posted.flatten.length := by
  rw [h]
  simp [List.length_flatten, List.length_flatMap, bodyOf, Function.comp_def]

theorem stopped_queue_nil (delay coverage : ℚ) (events : List FeederEvent) (last : FlushTime) :
    (stoppedFeeder delay coverage events last).queue = [] ↔
      ((LabelFeeder.new delay coverage).run events).queue.length ≤ labelFlushBatchSize ∧
        ∀ e ∈ ((LabelFeeder.new delay coverage).run events).queue, e.sendAt ≤ last.now := by
  rw [(stopped_feeds delay coverage events last).queue, (run_new_feeds delay coverage events).queue]
  refine (run_flush_waiting last).trans (and_congr_right fun _ => ?_)
  exact forall_congr' fun e => forall_congr' fun _ => decide_eq_true_iff

/-- **The posts are the front of the labels queued**, none early; they are all of them exactly if the
    last flush finds at most 50 labels, all due. -/
theorem delivered_iff (delay coverage : ℚ) (events : List FeederEvent) (last : FlushTime)
    (h : (events.map FeederEvent.now).Pairwise (· ≤ ·)) :
    (∃ batches, PostedAs (stoppedFeeder delay coverage events last) batches ∧
      batches.flatMap Prod.snd <+: acceptedLabels delay coverage events) ∧
    (AllPosted delay coverage events last ↔
      ((LabelFeeder.new delay coverage).run events).queue.length ≤ labelFlushBatchSize ∧
        ∀ e ∈ ((LabelFeeder.new delay coverage).run events).queue, e.sendAt ≤ last.now) := by
  obtain ⟨batches, hposted, hqueue⟩ := posted_in_order h last
  refine ⟨⟨batches, hposted, _, hqueue⟩, ?_⟩
  rw [← stopped_queue_nil]
  constructor
  · intro hall
    obtain ⟨batches', hbodies, hall⟩ := hall
    have hlength := congrArg List.length hqueue
    rw [List.length_append, bodies_length hposted.bodies, ← bodies_length hbodies,
      hall.length_eq] at hlength
    exact List.length_eq_zero_iff.mp (by omega)
  · intro hnil
    rw [hnil, List.append_nil] at hqueue
    exact ⟨batches, hposted.bodies, .of_eq hqueue⟩

/-- Four labels, one of which is not drawn, and two flushes before the last. -/
def sampleFeeding : List FeederEvent :=
  [.queueLabel 0 0 "p1" 1, .queueLabel (1 / 4) 3 "p2" 0, .flush ⟨11, 11⟩, .queueLabel (3 / 4) 12 "p3" 1,
    .queueLabel (1 / 2) 12 "p4" 1, .flush ⟨14, 14⟩]

/-- The last flush finds one label, and it is due: three posts of one label each, and none is missing. -/
theorem delivered_iff_sample :
    AllPosted 10 (1 / 2) sampleFeeding ⟨25, 25⟩ ∧
      (stoppedFeeder 10 (1 / 2) sampleFeeding ⟨25, 25⟩).posted.map List.length = [1, 1, 1] ∧
      ∃ batches, PostedAs (stoppedFeeder 10 (1 / 2) sampleFeeding ⟨25, 25⟩) batches ∧
        batches.flatMap Prod.snd <+: acceptedLabels 10 (1 / 2) sampleFeeding := by
  have h := delivered_iff 10 (1 / 2) sampleFeeding ⟨25, 25⟩ (by decide +kernel)
  exact ⟨h.2.mpr ⟨by decide +kernel, by decide +kernel⟩, by decide +kernel, h.1⟩

/-- **A label that is not due at the last flush is never posted**: `stop` after 5 of its 10 seconds. -/
theorem label_dropped :
    ([FeederEvent.queueLabel 0 0 "p1" 1, .flush ⟨5, 5⟩].map FeederEvent.now).Pairwise (· ≤ ·) ∧
      ¬ AllPosted 10 1 [.queueLabel 0 0 "p1" 1] ⟨5, 5⟩ := by
  refine ⟨by decide +kernel, ?_⟩
  intro hall
  obtain ⟨batches, hbodies, hall⟩ := hall
  have hnone : (stoppedFeeder 10 1 [.queueLabel 0 0 "p1" 1] ⟨5, 5⟩).posted = [] := by decide +kernel
  rw [hbodies, List.map_eq_nil_iff] at hnone
  rw [hnone] at hall
  exact absurd hall.length_eq (by decide +kernel)

end Delivery

end ModelOps
