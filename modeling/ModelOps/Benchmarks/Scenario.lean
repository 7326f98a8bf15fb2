/-
  File:      ModelOps/Benchmarks/Scenario.lean
  Subject:   One benchmark scenario: `run_scenario` and the fault it injects.

  Any statement may raise, and an HTTP call may raise after it has taken effect. What counts of a
  statement is what it does to the faults of the serving containers and to the health check thread.

  * `runScenario` -- the statements of `run_scenario` in their order, with its `try`, `with` and
    `finally`;
  * `prologue_faults`, `tryBody_faults`, `finally_faults` -- what each part does to a fault;
  * **`fault_off_iff`** -- when a run leaves no fault: exactly if its end reaches the reset, or there
    was no fault to be reset;
  * **`fault_left_on`** -- the request that sets the fault takes effect and raises: nothing resets it.
-/
import Mathlib.Data.Rat.Defs
import Mathlib.Logic.Function.Basic
import ModelOps.Lib.Raising

namespace ModelOps

open Raising

/-! ## 1. Scenarios -/

inductive FaultTarget where
  | latency
  | error
  deriving DecidableEq

inductive ExpectedOutcome where
  | rollback
  | promote
  | inconclusiveFreeze
  | throughputOnly
  deriving DecidableEq

/-- What a serving container injects. -/
structure FaultSetting where
  latencyMs : Int
  errorRate : ℚ
  deriving DecidableEq

def FaultSetting.off : FaultSetting := ⟨0, 0⟩

/-- `Scenario`, the fields `run_scenario` decides by. -/
structure Scenario where
  faultTarget : Option FaultTarget
  faultLatencyMs : Int
  faultErrorRate : ℚ
  expectedOutcome : ExpectedOutcome
  needsStableSideHealthChecks : Bool

def Scenario.fault (sc : Scenario) : FaultSetting := ⟨sc.faultLatencyMs, sc.faultErrorRate⟩

/-- What the statements change: the faults of the containers, `health_check_stop`, and
    `health_check_thread` with whether it was started. -/
structure BenchmarkState where
  faults : FaultTarget → FaultSetting
  healthCheckStop : Bool
  healthCheckThread : Option Bool

inductive BenchmarkError where
  | httpError
  | other
  deriving DecidableEq

/-- The statements of `run_scenario`. -/
inductive Statement where
  | loadDuration
  | waitBudget
  | setFault
  | makeStopEvent
  | noThread
  | openClient
  | createDeployment
  | deploymentId
  | makeThread
  | startThread
  | outputPrefix
  | startLocust
  | waitForOutcome
  | finishLocust
  | events
  | evaluations
  | startedAt
  | noTimes
  | timeToDetect
  | timeToAction
  | observedStatus
  | targetStatus
  | observedOutcome
  | result
  | closeClient
  | stopHealthChecks
  | joinThread
  | resetFault
  deriving DecidableEq

/-- How each statement ends. -/
abbrev Pattern := Statement → Ending BenchmarkError

/-! ## 2. `run_scenario` -/

section Run

variable (p : Pattern) (sc : Scenario)

/-- Statements that change neither a fault nor the thread. -/
def plain (statements : List Statement) : Stmt BenchmarkError BenchmarkState :=
  block (statements.map fun st => perform (p st) id)

/-- `_set_fault_injection`. -/
def setFaultInjection (st : Statement) (target : FaultTarget) (setting : FaultSetting) :
    Stmt BenchmarkError BenchmarkState :=
  perform (p st) fun s => { s with faults := Function.update s.faults target setting }

/-- `_reset_fault_injection`: an HTTP error is logged. -/
def resetFaultInjection : Option FaultTarget → Stmt BenchmarkError BenchmarkState
  | none => block []
  | some target =>
      swallow (fun e => decide (e = .httpError)) (setFaultInjection p .resetFault target .off)

/-- `health_check_thread.join(timeout=10)` where there is a thread: one that was not started raises. -/
def joinHealthChecks : Stmt BenchmarkError BenchmarkState := fun s =>
  match s.healthCheckThread with
  | none => (none, s)
  | some false => (some .other, s)
  | some true => perform (p .joinThread) id s

/-- Up to the `try`. -/
def prologue : Stmt BenchmarkError BenchmarkState :=
  block
    [ plain p [.loadDuration, .waitBudget],
      (match sc.faultTarget with
        | none => block []
        | some target => setFaultInjection p .setFault target sc.fault),
      perform (p .makeStopEvent) fun s => { s with healthCheckStop := false },
      perform (p .noThread) fun s => { s with healthCheckThread := none } ]

/-- `if scenario.needs_stable_side_health_checks`. -/
def healthChecks : Stmt BenchmarkError BenchmarkState :=
  if sc.needsStableSideHealthChecks then
    block
      [ perform (p .makeThread) fun s => { s with healthCheckThread := some false },
        perform (p .startThread) fun s => { s with healthCheckThread := some true } ]
  else block []

/-- The times that are computed for the outcome a scenario expects. -/
def ExpectedOutcome.times : ExpectedOutcome → List Statement
  | .rollback => [.timeToDetect, .timeToAction]
  | .promote => [.timeToAction]
  | .inconclusiveFreeze => [.timeToAction]
  | .throughputOnly => []

/-- From the load to the result. -/
def measurement : List Statement :=
  [.outputPrefix, .startLocust, .waitForOutcome, .finishLocust, .events, .evaluations, .startedAt,
    .noTimes] ++ sc.expectedOutcome.times ++
    [.observedStatus, .targetStatus, .observedOutcome, .result]

/-- The `try`: a client is open around everything in it. -/
def tryBody : Stmt BenchmarkError BenchmarkState :=
  block
    [ plain p [.openClient],
      tryFinally
        (block
          [ plain p [.createDeployment, .deploymentId],
            healthChecks p sc,
            plain p (measurement sc) ])
        (plain p [.closeClient]) ]

def finallyBlock : Stmt BenchmarkError BenchmarkState :=
  block
    [ perform (p .stopHealthChecks) fun s => { s with healthCheckStop := true },
      joinHealthChecks p,
      resetFaultInjection p sc.faultTarget ]

/-- `run_scenario`. -/
def runScenario : Stmt BenchmarkError BenchmarkState :=
  block [prologue p sc, tryFinally (tryBody p sc) (finallyBlock p sc)]

end Run

/-! ## 3. What each part does to a fault -/

section Parts

variable {p : Pattern} {sc : Scenario} {s : BenchmarkState} {target : FaultTarget}
  {statements : List Statement}

theorem plain_returns :
    (plain p statements s).1 = none ↔ ∀ st ∈ statements, p st = .returns := performs_returns

@[simp] theorem plain_state : (plain p statements s).2 = s :=
  keeps_block (I := fun s' => s' = s)
    (fun q hq => by
      obtain ⟨st, _, rfl⟩ := List.mem_map.mp hq
      exact keeps_perform fun _ h => h) s rfl

/-- The request that sets the fault takes effect. -/
def SetTaken (p : Pattern) : Prop :=
  p .loadDuration = .returns ∧ p .waitBudget = .returns ∧ (p .setFault).applies = true

instance : Decidable (SetTaken p) := inferInstanceAs (Decidable (_ ∧ _ ∧ _))

/-- The statements before the `try`. -/
def beforeTry : List Statement := [.loadDuration, .waitBudget, .setFault, .makeStopEvent, .noThread]

theorem setFaultInjection_faults {st : Statement} {setting : FaultSetting} :
    (setFaultInjection p st target setting s).2.faults =
      if (p st).applies then Function.update s.faults target setting else s.faults := by
  unfold setFaultInjection
  rw [perform_state]
  split <;> rfl

/-- **What the prologue does to a fault.** -/
theorem prologue_faults (h : sc.faultTarget = some target) :
    (prologue p sc s).2.faults =
      if SetTaken p then Function.update s.faults target sc.fault else s.faults := by
  unfold prologue
  rw [h]
  by_cases hstart : p .loadDuration = .returns ∧ p .waitBudget = .returns
  · have hplain : (plain p [.loadDuration, .waitBudget] s).1 = none :=
      plain_returns.mpr (by simpa using hstart)
    have htaken : SetTaken p ↔ (p .setFault).applies = true := by
      simp [SetTaken, hstart.1, hstart.2]
    rw [block_cons_returns hplain, plain_state]
    simp only [htaken, ← setFaultInjection_faults]
    -- what comes after the request keeps the faults
    have hrest : ∀ F : FaultTarget → FaultSetting, Keeps (fun s' => s'.faults = F) (block
        [ perform (p .makeStopEvent) fun s : BenchmarkState => { s with healthCheckStop := false },
          perform (p .noThread) fun s => { s with healthCheckThread := none } ]) := by
      intro F
      exact keeps_cons (keeps_perform fun _ hs => hs)
        (keeps_cons (keeps_perform fun _ hs => hs) keeps_nil)
    rw [block_cons_state]
    split
    · exact hrest _ _ rfl
    · rfl
  · have hplain : (plain p [.loadDuration, .waitBudget] s).1 ≠ none := fun h =>
      hstart (by simpa using plain_returns.mp h)
    rw [block_cons_state, if_neg hplain, plain_state, if_neg fun h => hstart ⟨h.1, h.2.1⟩]

/-- The prologue gets to the `try` exactly if nothing in it raises. -/
theorem prologue_returns (h : sc.faultTarget = some target) :
    (prologue p sc s).1 = none ↔ ∀ st ∈ beforeTry, p st = .returns := by
  unfold prologue
  rw [h]
  simp only [block_cons_ends, plain_returns, setFaultInjection, perform_returns, beforeTry,
    block_nil, List.forall_mem_cons, and_true]
  simp [and_assoc]

/-- There is no thread yet at the `try`. -/
theorem prologue_thread (h : (prologue p sc s).1 = none) :
    (prologue p sc s).2.healthCheckThread = none := by
  unfold prologue at h ⊢
  simp only [block_cons_ends, perform_returns] at h
  obtain ⟨h1, h2, h3, h4, _⟩ := h
  rw [block_cons_returns h1, block_cons_returns h2, block_cons_returns (perform_returns.mpr h3),
    block_cons_returns (perform_returns.mpr h4)]
  simp [h4, Ending.applies]

theorem keeps_plain (I : BenchmarkState → Prop) : Keeps I (plain p statements) := by
  intro s hs
  rw [plain_state]
  exact hs

theorem healthChecks_faults (F : FaultTarget → FaultSetting) :
    Keeps (fun s => s.faults = F) (healthChecks p sc) := by
  unfold healthChecks
  split
  · exact keeps_cons (keeps_perform fun _ hs => hs)
      (keeps_cons (keeps_perform fun _ hs => hs) keeps_nil)
  · exact keeps_nil

/-- **The `try` leaves the faults alone**, wherever it is left. -/
theorem tryBody_faults (F : FaultTarget → FaultSetting) :
    Keeps (fun s => s.faults = F) (tryBody p sc) := by
  have hclient : Keeps (fun s => s.faults = F)
      (block [plain p [.createDeployment, .deploymentId], healthChecks p sc,
        plain p (measurement sc)]) :=
    keeps_cons (keeps_plain _) (keeps_cons (healthChecks_faults F)
      (keeps_cons (keeps_plain _) keeps_nil))
  exact keeps_cons (keeps_plain _)
    (keeps_cons (keeps_tryFinally hclient (keeps_plain _)) keeps_nil)

/-- `health_check_thread` has been assigned when the `try` is left. -/
def ThreadMade (p : Pattern) (sc : Scenario) : Prop :=
  (∀ st ∈ [Statement.openClient, .createDeployment, .deploymentId], p st = .returns) ∧
    sc.needsStableSideHealthChecks = true ∧ (p .makeThread).applies = true

instance : Decidable (ThreadMade p sc) := inferInstanceAs (Decidable (_ ∧ _ ∧ _))

/-- A thread that has been made has been started. -/
def ThreadStarted (p : Pattern) : Prop := p .makeThread = .returns ∧ (p .startThread).applies = true

instance : Decidable (ThreadStarted p) := inferInstanceAs (Decidable (_ ∧ _))

theorem healthChecks_thread (h : s.healthCheckThread = none) :
    (healthChecks p sc s).2.healthCheckThread =
      if sc.needsStableSideHealthChecks = true ∧ (p .makeThread).applies = true then
        some (decide (ThreadStarted p))
      else none := by
  unfold healthChecks
  cases hneeds : sc.needsStableSideHealthChecks with
  | false => simp [h]
  | true =>
      rw [if_pos rfl, block_cons_state, block_single_state]
      simp only [perform_returns, perform_state]
      cases hmake : p .makeThread with
      | returns =>
          have hstarted : ThreadStarted p ↔ (p .startThread).applies = true := by
            simp [ThreadStarted, hmake]
          simp only [hstarted]
          cases hstart : (p .startThread).applies <;> simp
      | raises e applied =>
          have hstarted : ¬ ThreadStarted p := by simp [ThreadStarted, hmake]
          cases applied <;> simp [hstarted, h]

/-- **The thread when the `try` is left.** -/
theorem tryBody_thread (h : s.healthCheckThread = none) :
    (tryBody p sc s).2.healthCheckThread =
      if ThreadMade p sc then some (decide (ThreadStarted p)) else none := by
  unfold tryBody
  by_cases hopen : p .openClient = .returns
  · have hplain : (plain p [.openClient] s).1 = none := plain_returns.mpr (by simpa using hopen)
    rw [block_cons_returns hplain, block_single_state, tryFinally_state, plain_state, plain_state]
    by_cases hcreate : p .createDeployment = .returns ∧ p .deploymentId = .returns
    · have hmade : ThreadMade p sc ↔
          sc.needsStableSideHealthChecks = true ∧ (p .makeThread).applies = true := by
        simp [ThreadMade, hopen, hcreate.1, hcreate.2]
      have hsteps : (plain p [.createDeployment, .deploymentId] s).1 = none :=
        plain_returns.mpr (by simpa using hcreate)
      rw [block_cons_returns hsteps, plain_state, block_cons_state, block_single_state, plain_state,
        ite_self, healthChecks_thread h]
      simp only [hmade]
    · have hsteps : ¬ (plain p [.createDeployment, .deploymentId] s).1 = none := fun hr =>
        hcreate (by simpa using plain_returns.mp hr)
      have hmade : ¬ ThreadMade p sc := fun hm => hcreate ⟨hm.1 _ (by simp), hm.1 _ (by simp)⟩
      rw [block_cons_state, if_neg hsteps, plain_state, if_neg hmade, h]
  · have hplain : ¬ (plain p [.openClient] s).1 = none := fun hr =>
      hopen (by simpa using plain_returns.mp hr)
    have hmade : ¬ ThreadMade p sc := fun hm => hopen (hm.1 _ (by simp))
    rw [block_cons_state, if_neg hplain, plain_state, if_neg hmade, h]

/-- Waiting for the thread does not raise. -/
theorem joinHealthChecks_returns :
    (joinHealthChecks p s).1 = none ↔ ∀ started, s.healthCheckThread = some started →
      started = true ∧ p .joinThread = .returns := by
  unfold joinHealthChecks
  cases hthread : s.healthCheckThread with
  | none => simp
  | some started =>
      cases started with
      | false => simp
      | true => simp [perform_returns]

theorem joinHealthChecks_state : (joinHealthChecks p s).2 = s := by
  unfold joinHealthChecks
  split
  · rfl
  · rfl
  · rw [perform_state]
    exact ite_self s

/-- **What the `finally` does to a fault**: it is reset where neither statement before raises. -/
theorem finally_faults (h : sc.faultTarget = some target) (hreset : (p .resetFault).applies = true) :
    (finallyBlock p sc s).2.faults =
      if p .stopHealthChecks = .returns ∧
        (∀ started, s.healthCheckThread = some started → started = true ∧ p .joinThread = .returns)
      then Function.update s.faults target .off else s.faults := by
  unfold finallyBlock
  rw [h, block_cons_state]
  simp only [perform_returns]
  by_cases hstop : p .stopHealthChecks = .returns
  · rw [if_pos hstop, block_cons_state]
    simp only [joinHealthChecks_returns, joinHealthChecks_state, block_single_state, perform_state,
      hstop, applies_returns, if_true, true_and]
    split
    · rw [resetFaultInjection, swallow_state, setFaultInjection_faults, if_pos hreset]
    · rfl
  · rw [if_neg hstop, if_neg fun hr => hstop hr.1, perform_state]
    split <;> rfl

/-! ## 4. When a run leaves no fault -/

/-- The end of the run reaches the reset: no statement before the `try` raises, and neither stopping the
    health checks does nor waiting for their thread. -/
def ResetSent (p : Pattern) (sc : Scenario) : Prop :=
  (∀ st ∈ beforeTry, p st = .returns) ∧ p .stopHealthChecks = .returns ∧
    (ThreadMade p sc → ThreadStarted p ∧ p .joinThread = .returns)

instance : Decidable (ResetSent p sc) := inferInstanceAs (Decidable (_ ∧ _ ∧ _))

/-- **What a run does to a fault.** -/
theorem runScenario_faults (h : sc.faultTarget = some target)
    (hreset : (p .resetFault).applies = true) :
    (runScenario p sc s).2.faults target = .off ↔
      ResetSent p sc ∨ (if SetTaken p then sc.fault = .off else s.faults target = .off) := by
  have hleft : (prologue p sc s).2.faults target = .off ↔
      (if SetTaken p then sc.fault = .off else s.faults target = .off) := by
    rw [prologue_faults h]
    split
    · rw [Function.update_self]
    · rfl
  unfold runScenario
  by_cases htry : ∀ st ∈ beforeTry, p st = .returns
  · have hreturns := (prologue_returns (s := s) h).mpr htry
    rw [block_cons_returns hreturns, block_single_state, tryFinally_state, finally_faults h hreset,
      tryBody_thread (prologue_thread hreturns), tryBody_faults _ _ rfl]
    have hjoin : (∀ started, (if ThreadMade p sc then some (decide (ThreadStarted p)) else none) =
        some started → started = true ∧ p .joinThread = .returns) ↔
          (ThreadMade p sc → ThreadStarted p ∧ p .joinThread = .returns) := by
      by_cases hmade : ThreadMade p sc
      · simp [hmade]
      · simp [hmade]
    simp only [hjoin]
    split
    · rename_i hsent
      rw [Function.update_self]
      exact iff_of_true rfl (Or.inl ⟨htry, hsent.1, hsent.2⟩)
    · rename_i hsent
      rw [hleft, or_iff_right fun hs => hsent ⟨hs.2.1, hs.2.2⟩]
  · have hraises : ¬ (prologue p sc s).1 = none := fun hr => htry ((prologue_returns h).mp hr)
    rw [block_cons_state, if_neg hraises, hleft, or_iff_right fun hs => htry hs.1]

end Parts

/-- **When a run leaves no fault**, however it ends: its end reaches the reset, or nothing was to be
    reset (the fault that was set is none, or none was set where there was none before). -/
theorem fault_off_iff (p : Pattern) (sc : Scenario) (target : FaultTarget) (s : BenchmarkState)
    (h : sc.faultTarget = some target) (hreset : (p .resetFault).applies = true) :
    (((runScenario p sc s).2.faults target).latencyMs = 0 ∧
        ((runScenario p sc s).2.faults target).errorRate = 0) ↔
      ResetSent p sc ∨ (if SetTaken p then sc.fault = .off else s.faults target = .off) := by
  rw [← runScenario_faults h hreset]
  generalize (runScenario p sc s).2.faults target = setting
  obtain ⟨latencyMs, errorRate⟩ := setting
  simp [FaultSetting.off]

/-- The scenario with injected latency. -/
def latencyFailure : Scenario := ⟨some .latency, 400, 0, .rollback, false⟩

/-- Containers with no fault, and no health checks. -/
def quiet : BenchmarkState := ⟨fun _ => .off, false, none⟩

/-- Every statement returns but one. -/
def failsAt (st : Statement) (e : BenchmarkError) (applied : Bool) : Pattern := fun st' =>
  if st' = st then .raises e applied else .returns

/-- The load cannot be started. -/
theorem fault_off_iff_sample :
    ((runScenario (failsAt .startLocust .other false) latencyFailure quiet).2.faults
        .latency).latencyMs = 0 ∧
      ((runScenario (failsAt .startLocust .other false) latencyFailure quiet).2.faults
        .latency).errorRate = 0 :=
  (fault_off_iff (failsAt .startLocust .other false) latencyFailure .latency quiet rfl rfl).mpr
    (Or.inl (by decide))

/-- **A fault is left on**: the request that sets it takes effect, and its answer is lost. -/
theorem fault_left_on :
    latencyFailure.faultTarget = some .latency ∧
      (failsAt .setFault .httpError true .resetFault).applies = true ∧
      (runScenario (failsAt .setFault .httpError true) latencyFailure quiet).1 = some .httpError ∧
      ((runScenario (failsAt .setFault .httpError true) latencyFailure quiet).2.faults
        .latency).latencyMs = 400 :=
  ⟨rfl, rfl, rfl, rfl⟩

end ModelOps
