/-
  File:      ModelOps/Benchmarks/Runs.lean
  Subject:   Benchmark runs started from the dashboard: `start_benchmark_run` and `_monitor_run`.

  A run's row is committed as RUNNING before the steps that may fail, and only the end of its monitor
  changes that. A second run is refused while there is a RUNNING row.

  * `startBenchmarkRun`, `monitorRun` -- the two functions, a statement each of which may raise;
  * `BenchmarkService.next` -- calls, spawned subprocesses and monitors that end, in any order;
  * **`startClean_iff`**, **`monitorClean_iff`** -- when a call that raises leaves no RUNNING row, and
    when a monitor that ends leaves its row finished;
  * **`refused_only_while_monitored`** -- in a run of the service whose steps all meet these conditions
    a call is refused only for a run that is monitored;
  * **`run_stuck`** -- a step that fails leaves a row RUNNING for ever.
-/
import ModelOps.ControlPlane.Models
import ModelOps.Lib.Json
import ModelOps.Lib.Raising
import ModelOps.Lib.Transition

namespace ModelOps

open Labelled Python Raising

/-! ## 1. Runs -/

inductive BenchmarkRunStatus where
  | running
  | completed
  | failed
  deriving DecidableEq

structure BenchmarkRun where
  id : String
  scenario : String
  status : BenchmarkRunStatus
  result : Option Json
  errorMessage : Option String
  startedAt : Time
  completedAt : Option Time

/-- The keys of `SCENARIOS`. -/
def scenarioKeys : List String :=
  ["baseline", "latency-failure", "error-failure", "quality-failure", "success"]

/-- What `start_benchmark_run` raises: `UnknownScenarioError`, `BenchmarkAlreadyRunningError`, and
    whatever a step of it does. -/
inductive StartError where
  | unknownScenario (scenario : String)
  | alreadyRunning (runningRunId : String)
  | other
  deriving DecidableEq

/-- The table, the runs whose subprocess is being spawned, and those that are monitored. -/
structure BenchmarkService where
  rows : List BenchmarkRun
  spawning : List String
  monitored : List String

/-! ## 2. `start_benchmark_run` -/

/-- The steps of `start_benchmark_run` that may raise. -/
inductive StartStep where
  | query
  | commit
  | refresh
  | mkdir
  | spawn
  | createTask
  | track
  deriving DecidableEq

abbrev StartPattern := StartStep → Ending Unit

/-- `get_running_run`. -/
def getRunningRun (rows : List BenchmarkRun) : Option BenchmarkRun :=
  rows.find? fun r => decide (r.status = .running)

section Start

variable (p : StartPattern) (key runId : String) (now : Time)

def newRun : BenchmarkRun := ⟨runId, key, .running, none, none, now, none⟩

def checkScenario : Stmt StartError BenchmarkService := fun s =>
  if key ∈ scenarioKeys then (none, s) else (some (.unknownScenario key), s)

def refuseSecond : Stmt StartError BenchmarkService := fun s =>
  match getRunningRun s.rows with
  | none => (none, s)
  | some existing => (some (.alreadyRunning existing.id), s)

/-- `db.add` and `db.commit`: the id is the primary key. -/
def insertRun : Stmt StartError BenchmarkService := fun s =>
  if s.rows.any fun r => decide (r.id = runId) then (some .other, s)
  else attempt .other (p .commit) (fun s => { s with rows := s.rows ++ [newRun key runId now] }) s

/-- Up to the subprocess. -/
def beginRun : Stmt StartError BenchmarkService :=
  block
    [ checkScenario key,
      attempt .other (p .query) id,
      refuseSecond,
      insertRun p key runId now,
      attempt .other (p .refresh) id,
      attempt .other (p .mkdir) id ]

/-- The subprocess, and the task that monitors it. -/
def superviseRun : Stmt StartError BenchmarkService :=
  block
    [ attempt .other (p .spawn) id,
      attempt .other (p .createTask) fun s => { s with monitored := s.monitored ++ [runId] },
      attempt .other (p .track) id ]

/-- `start_benchmark_run`. -/
def startBenchmarkRun : Stmt StartError BenchmarkService :=
  block [beginRun p key runId now, superviseRun p runId]

end Start

/-! ## 3. `_monitor_run` -/

/-- The steps of `_monitor_run` that may raise, reading the report apart. -/
inductive MonitorStep where
  | communicate
  | openSession
  | getRun
  | reportExists
  | commit
  | closeSession
  deriving DecidableEq

abbrev MonitorPattern := MonitorStep → Ending Unit

inductive MonitorError where
  | osError
  | jsonDecodeError
  | unicodeDecodeError
  | other
  deriving DecidableEq

/-- The subprocess when it has ended: its output as decoded. -/
structure BenchmarkProcess where
  returncode : Int
  output : String

/-- The report of a scenario. -/
inductive ReportFile where
  | absent
  | unreadable
  | bytes (content : ByteArray)

/-- The table, and the session's `run`. -/
structure MonitorState where
  rows : List BenchmarkRun
  run : Option BenchmarkRun

/-- `except (OSError, json.JSONDecodeError)`. -/
def MonitorError.caught : MonitorError → Bool
  | .osError => true
  | .jsonDecodeError => true
  | .unicodeDecodeError => false
  | .other => false

section Monitor

variable (loads : String → Except MonitorError Json) (p : MonitorPattern) (runId : String)
  (process : BenchmarkProcess) (report : ReportFile) (now : Time)

def setRun (f : BenchmarkRun → BenchmarkRun) : Stmt MonitorError MonitorState := fun s =>
  (none, { s with run := s.run.map f })

/-- `json.loads(report_path.read_text())`. -/
def loadReport : ReportFile → Except MonitorError (Option Json)
  | .absent => .ok none
  | .unreadable => .error .osError
  | .bytes content =>
      match String.fromUTF8? content with
      | none => .error .unicodeDecodeError
      | some text => (loads text).map some

/-- `run.result = ...`, where there is a report. -/
def readReport : Stmt MonitorError MonitorState := fun s =>
  match loadReport loads report with
  | .error e => (some e, s)
  | .ok none => (none, s)
  | .ok (some result) => setRun (fun r => { r with result := some result }) s

/-- `tail`. -/
def BenchmarkProcess.tail (process : BenchmarkProcess) : String :=
  if process.output = "" then "(no output captured)"
  else String.ofList (process.output.toList.drop (process.output.length - 4000))

def recordOutcome : Stmt MonitorError MonitorState :=
  if process.returncode = 0 then
    block
      [ setRun fun r => { r with completedAt := some now, status := .completed },
        attempt .other (p .reportExists) id,
        swallow MonitorError.caught (readReport loads report) ]
  else
    setRun fun r =>
      { r with completedAt := some now, status := .failed, errorMessage := some process.tail }

/-- The row as the session has it. -/
def MonitorState.flushed (s : MonitorState) : MonitorState :=
  match s.run with
  | none => s
  | some run => { s with rows := s.rows.map fun r => if r.id = run.id then run else r }

/-- What follows `db.get`: nothing where the row has vanished. -/
def finishRun : Stmt MonitorError MonitorState := fun s =>
  match s.run with
  | none => (none, s)
  | some _ =>
      block
        [ recordOutcome loads p process report now,
          attempt .other (p .commit) MonitorState.flushed ] s

/-- `_monitor_run`. -/
def monitorRun : Stmt MonitorError MonitorState :=
  block
    [ attempt .other (p .communicate) id,
      attempt .other (p .openSession) id,
      tryFinally
        (block
          [ attempt .other (p .getRun) fun s =>
              { s with run := s.rows.find? fun r => decide (r.id = runId) },
            finishRun loads p process report now ])
        (attempt .other (p .closeSession) id) ]

end Monitor

/-! ## 4. A call that raises -/

section Starting

variable {p : StartPattern} {key runId : String} {now : Time} {s : BenchmarkService}

theorem checkScenario_returns : (checkScenario key s).1 = none ↔ key ∈ scenarioKeys := by
  unfold checkScenario
  split <;> simp_all

@[simp] theorem checkScenario_state : (checkScenario key s).2 = s := by
  unfold checkScenario
  split <;> rfl

theorem refuseSecond_returns : (refuseSecond s).1 = none ↔ getRunningRun s.rows = none := by
  unfold refuseSecond
  cases getRunningRun s.rows <;> simp

@[simp] theorem refuseSecond_state : (refuseSecond s).2 = s := by
  unfold refuseSecond
  cases getRunningRun s.rows <;> rfl

theorem insertRun_returns : (insertRun p key runId now s).1 = none ↔
    (∀ r ∈ s.rows, r.id ≠ runId) ∧ p .commit = .returns := by
  unfold insertRun
  by_cases hfresh : ∀ r ∈ s.rows, r.id ≠ runId
  · rw [if_neg (by simpa using hfresh), attempt_returns, and_iff_right hfresh]
  · rw [if_pos (by simpa using hfresh)]
    simp [hfresh]

theorem insertRun_state : (insertRun p key runId now s).2 =
    if (∀ r ∈ s.rows, r.id ≠ runId) ∧ (p .commit).applies = true then
      { s with rows := s.rows ++ [newRun key runId now] }
    else s := by
  unfold insertRun
  by_cases hfresh : ∀ r ∈ s.rows, r.id ≠ runId
  · rw [if_neg (by simpa using hfresh), attempt_state]
    simp only [and_iff_right hfresh]
  · rw [if_pos (by simpa using hfresh), if_neg fun h => hfresh h.1]

/-- The call inserts its row. -/
def Inserts (p : StartPattern) (key runId : String) (s : BenchmarkService) : Prop :=
  key ∈ scenarioKeys ∧ p .query = .returns ∧ getRunningRun s.rows = none ∧
    (∀ r ∈ s.rows, r.id ≠ runId) ∧ (p .commit).applies = true

theorem block_ids {x : StartStep} {y : StartStep} :
    (block [attempt StartError.other (p x) id, attempt .other (p y) id] s).2 = s :=
  keeps_cons (keeps_attempt fun _ h => h) (keeps_cons (keeps_attempt fun _ h => h) keeps_nil)
    (I := fun s' => s' = s) s rfl

/-- **A call up to its subprocess** inserts a row, or changes nothing. -/
theorem beginRun_state [Decidable (Inserts p key runId s)] : (beginRun p key runId now s).2 =
    if Inserts p key runId s then { s with rows := s.rows ++ [newRun key runId now] } else s := by
  unfold beginRun
  rw [block_cons_state]
  simp only [checkScenario_returns, checkScenario_state]
  by_cases hkey : key ∈ scenarioKeys
  · rw [if_pos hkey, block_cons_state]
    simp only [attempt_returns, attempt_state, id_eq, ite_self]
    by_cases hquery : p .query = .returns
    · rw [if_pos hquery, block_cons_state]
      simp only [refuseSecond_returns, refuseSecond_state]
      by_cases hnone : getRunningRun s.rows = none
      · rw [if_pos hnone, block_cons_state, block_ids, ite_self, insertRun_state]
        simp only [Inserts, hkey, hquery, hnone, true_and]
      · rw [if_neg hnone, if_neg fun h => hnone h.2.2.1]
    · rw [if_neg hquery, if_neg fun h => hquery h.2.1]
  · rw [if_neg hkey, if_neg fun h => hkey h.1]

theorem beginRun_returns : (beginRun p key runId now s).1 = none ↔
    Inserts p key runId s ∧ p .commit = .returns ∧ p .refresh = .returns ∧ p .mkdir = .returns := by
  unfold beginRun Inserts
  simp only [block_cons_ends, block_nil, checkScenario_returns, checkScenario_state, attempt_returns,
    attempt_state, refuseSecond_returns, refuseSecond_state, insertRun_returns, id_eq, ite_self]
  constructor
  · intro h
    obtain ⟨h1, h2, h3, ⟨h4, h5⟩, h6, h7, _⟩ := h
    exact ⟨⟨h1, h2, h3, h4, by rw [h5]; rfl⟩, h5, h6, h7⟩
  · intro h
    obtain ⟨⟨h1, h2, h3, h4, _⟩, h5, h6, h7⟩ := h
    exact ⟨h1, h2, h3, ⟨h4, h5⟩, h6, h7, trivial⟩

theorem superviseRun_returns : (superviseRun p runId s).1 = none ↔
    p .spawn = .returns ∧ p .createTask = .returns ∧ p .track = .returns := by
  unfold superviseRun
  simp only [block_cons_ends, block_nil, attempt_returns, and_true]

theorem superviseRun_rows (R : List BenchmarkRun) :
    Keeps (fun s => s.rows = R) (superviseRun p runId) :=
  keeps_cons (keeps_attempt fun _ h => h)
    (keeps_cons (keeps_attempt fun _ h => h) (keeps_cons (keeps_attempt fun _ h => h) keeps_nil))

/-- The steps from the commit on. -/
def fromCommit : List StartStep := [.commit, .refresh, .mkdir, .spawn, .createTask, .track]

/-- A call that raises has left no RUNNING row of its own. -/
def StartClean (p : StartPattern) (key runId : String) (now : Time) (s : BenchmarkService) : Prop :=
  (startBenchmarkRun p key runId now s).1 ≠ none →
    ∀ r ∈ (startBenchmarkRun p key runId now s).2.rows, r.status = .running → r ∈ s.rows

theorem startBenchmarkRun_returns : (startBenchmarkRun p key runId now s).1 = none ↔
    Inserts p key runId s ∧ ∀ x ∈ fromCommit, p x = .returns := by
  unfold startBenchmarkRun
  rw [block_cons_ends, beginRun_returns, block_cons_ends, superviseRun_returns]
  simp [fromCommit, and_assoc]

theorem startBenchmarkRun_rows [Decidable (Inserts p key runId s)] :
    (startBenchmarkRun p key runId now s).2.rows =
      if Inserts p key runId s then s.rows ++ [newRun key runId now] else s.rows := by
  unfold startBenchmarkRun
  have hrows : (block [superviseRun p runId] (beginRun p key runId now s).2).2.rows =
      (beginRun p key runId now s).2.rows :=
    keeps_cons (superviseRun_rows _) keeps_nil _ rfl
  rw [block_cons_state, apply_ite BenchmarkService.rows, hrows, ite_self, beginRun_state]
  split <;> rfl

/-- **A call that raises leaves no RUNNING row exactly if no step fails once its row is committed.** -/
theorem startClean_iff : StartClean p key runId now s ↔
    (Inserts p key runId s → ∀ x ∈ fromCommit, p x = .returns) := by
  classical
  unfold StartClean
  rw [ne_eq, startBenchmarkRun_returns, startBenchmarkRun_rows]
  by_cases hinserts : Inserts p key runId s
  · rw [if_pos hinserts]
    have hnew : newRun key runId now ∉ s.rows := fun h => hinserts.2.2.2.1 _ h rfl
    constructor
    · intro hclean _
      by_contra hfails
      exact hnew (hclean (fun h => hfails h.2) _ (List.mem_append_right _ List.mem_cons_self) rfl)
    · intro hreturns hraises
      exact absurd ⟨hinserts, hreturns hinserts⟩ hraises
  · rw [if_neg hinserts]
    exact iff_of_true (fun _ r hr _ => hr) fun h => absurd h hinserts

end Starting

/-! ## 5. A monitor that ends -/

section Monitoring

variable {loads : String → Except MonitorError Json} {p : MonitorPattern} {runId : String}
  {process : BenchmarkProcess} {report : ReportFile} {now : Time} {s : MonitorState}
  {rows : List BenchmarkRun}

/-- Whatever reading the report raises is caught. -/
def ReportReads (loads : String → Except MonitorError Json) (report : ReportFile) : Prop :=
  ∀ e, loadReport loads report = .error e → e.caught = true

/-- Nothing that is not caught is raised before the commit. -/
def Concludes (loads : String → Except MonitorError Json) (p : MonitorPattern)
    (process : BenchmarkProcess) (report : ReportFile) : Prop :=
  process.returncode = 0 → p .reportExists = .returns ∧ ReportReads loads report

/-- The monitor gets to its commit, and that takes effect. -/
def Records (loads : String → Except MonitorError Json) (p : MonitorPattern)
    (process : BenchmarkProcess) (report : ReportFile) : Prop :=
  p .communicate = .returns ∧ p .openSession = .returns ∧ p .getRun = .returns ∧
    Concludes loads p process report ∧ (p .commit).applies = true

/-- The session's row is the one monitored, and it is COMPLETED or FAILED. -/
def SessionFinished (runId : String) (s : MonitorState) : Prop :=
  ∃ r, s.run = some r ∧ r.id = runId ∧ r.status ≠ .running

theorem readReport_returns :
    (swallow MonitorError.caught (readReport loads report) s).1 = none ↔ ReportReads loads report := by
  rw [swallow_returns]
  unfold readReport ReportReads
  cases loadReport loads report with
  | error e => simp
  | ok loaded => cases loaded <;> simp [setRun]

theorem readReport_finished :
    Keeps (SessionFinished runId) (swallow MonitorError.caught (readReport loads report)) := by
  refine keeps_swallow fun s hs => ?_
  unfold readReport
  cases loadReport loads report with
  | error e => exact hs
  | ok loaded =>
      cases loaded with
      | none => exact hs
      | some result =>
          obtain ⟨r, hr, hid, hstatus⟩ := hs
          exact ⟨{ r with result := some result }, by simp [setRun, hr], hid, hstatus⟩

theorem readReport_rows (R : List BenchmarkRun) : Keeps (fun s => s.rows = R)
    (swallow MonitorError.caught (readReport loads report)) := by
  refine keeps_swallow fun s hs => ?_
  unfold readReport
  cases loadReport loads report with
  | error e => exact hs
  | ok loaded => cases loaded <;> exact hs

theorem recordOutcome_returns : (recordOutcome loads p process report now s).1 = none ↔
    Concludes loads p process report := by
  unfold recordOutcome Concludes
  by_cases hcode : process.returncode = 0
  · rw [if_pos hcode]
    simp [block_cons_ends, attempt_returns, readReport_returns, setRun, hcode]
  · rw [if_neg hcode]
    exact iff_of_true rfl fun h => absurd h hcode

/-- **Wherever it is left, the outcome has been recorded in the session**, and not in the table. -/
theorem recordOutcome_finished (loads : String → Except MonitorError Json) (p : MonitorPattern)
    (process : BenchmarkProcess) (report : ReportFile) (now : Time) {r : BenchmarkRun}
    (hrun : s.run = some r) :
    SessionFinished r.id (recordOutcome loads p process report now s).2 ∧
      (recordOutcome loads p process report now s).2.rows = s.rows := by
  unfold recordOutcome
  split
  · rw [block_cons_returns rfl]
    constructor
    · exact keeps_cons (keeps_attempt fun _ h => h) (keeps_cons readReport_finished keeps_nil) _
        ⟨_, congrArg (Option.map _) hrun, rfl, by simp⟩
    · exact keeps_cons (keeps_attempt fun _ h => h) (keeps_cons (readReport_rows _) keeps_nil) _ rfl
  · exact ⟨⟨_, congrArg (Option.map _) hrun, rfl, by simp⟩, rfl⟩

/-- What the commit writes: the row monitored, and nothing else. -/
theorem flushed_rows (h : SessionFinished runId s) :
    ∀ r ∈ s.flushed.rows, (r.id = runId → r.status ≠ .running) ∧ (r.id ≠ runId → r ∈ s.rows) := by
  obtain ⟨run, hrun, hid, hstatus⟩ := h
  unfold MonitorState.flushed
  rw [hrun]
  intro r hr
  obtain ⟨r', hr', rfl⟩ := List.mem_map.mp hr
  by_cases heq : r'.id = run.id
  · rw [if_pos heq]
    exact ⟨fun _ => hstatus, fun hne => absurd hid hne⟩
  · rw [if_neg heq]
    exact ⟨fun h => absurd (h.trans hid.symm) heq, fun _ => hr'⟩

theorem finishRun_recorded {r : BenchmarkRun} (hrun : s.run = some r)
    (hok : Concludes loads p process report) (hcommit : (p .commit).applies = true) :
    (finishRun loads p process report now s).2 =
      (recordOutcome loads p process report now s).2.flushed := by
  unfold finishRun
  rw [hrun]
  show (block _ s).2 = _
  rw [block_cons_returns (recordOutcome_returns.mpr hok), block_single_state, attempt_state,
    if_pos hcommit]

theorem finishRun_unrecorded
    (h : ¬ (Concludes loads p process report ∧ (p .commit).applies = true)) :
    (finishRun loads p process report now s).2.rows = s.rows := by
  unfold finishRun
  cases hrun : s.run with
  | none => rfl
  | some r =>
      have hrows := (recordOutcome_finished loads p process report now hrun).2
      show (block _ s).2.rows = _
      rw [block_cons_state, block_single_state, attempt_state]
      split
      · rename_i hreturns
        rw [if_neg fun hcommit => h ⟨recordOutcome_returns.mp hreturns, hcommit⟩]
        exact hrows
      · exact hrows

/-- The table when a monitor has ended. -/
def monitoredRows (loads : String → Except MonitorError Json) (p : MonitorPattern) (runId : String)
    (process : BenchmarkProcess) (report : ReportFile) (now : Time) (rows : List BenchmarkRun) :
    List BenchmarkRun :=
  (monitorRun loads p runId process report now ⟨rows, none⟩).2.rows

/-- The session has read the row to be recorded. -/
def sessionOf (runId : String) (rows : List BenchmarkRun) : MonitorState :=
  ⟨rows, rows.find? fun r => decide (r.id = runId)⟩

theorem monitoredRows_eq (hcommunicate : p .communicate = .returns)
    (hsession : p .openSession = .returns) (hget : p .getRun = .returns) :
    monitoredRows loads p runId process report now rows =
      (finishRun loads p process report now (sessionOf runId rows)).2.rows := by
  unfold monitoredRows monitorRun
  rw [block_cons_returns (attempt_returns.mpr hcommunicate),
    block_cons_returns (attempt_returns.mpr hsession), block_single_state, tryFinally_state,
    attempt_state, id_eq, ite_self, block_cons_returns (attempt_returns.mpr hget),
    block_single_state]
  simp only [attempt_state, hcommunicate, hsession, hget, applies_returns, if_true, id_eq]
  rfl

/-- **A monitor that does not record an outcome leaves the table as it was.** -/
theorem monitoredRows_unrecorded (h : ¬ Records loads p process report) :
    monitoredRows loads p runId process report now rows = rows := by
  by_cases hstart : p .communicate = .returns ∧ p .openSession = .returns ∧ p .getRun = .returns
  · obtain ⟨hcommunicate, hsession, hget⟩ := hstart
    rw [monitoredRows_eq hcommunicate hsession hget]
    exact finishRun_unrecorded fun hends => h ⟨hcommunicate, hsession, hget, hends.1, hends.2⟩
  · unfold monitoredRows monitorRun
    rw [block_cons_state]
    simp only [attempt_returns, attempt_state, id_eq, ite_self]
    split
    · rename_i hcommunicate
      rw [block_cons_state]
      simp only [attempt_returns, attempt_state, id_eq, ite_self, block_single_state,
        tryFinally_state]
      split
      · rename_i hsession
        have hget : ¬ p .getRun = .returns := fun hget => hstart ⟨hcommunicate, hsession, hget⟩
        have hraises : ¬ (attempt MonitorError.other (p .getRun)
            (fun s : MonitorState => { s with run := s.rows.find? fun r => decide (r.id = runId) })
            ⟨rows, none⟩).1 = none := fun hr => hget (attempt_returns.mp hr)
        rw [block_cons_state, if_neg hraises, attempt_state]
        split <;> rfl
      · rfl
    · rfl

/-- **A monitor that records an outcome** leaves its row finished and the others alone. -/
theorem monitoredRows_recorded (h : Records loads p process report) :
    ∀ r ∈ monitoredRows loads p runId process report now rows,
      (r.id = runId → r.status ≠ .running) ∧ (r.id ≠ runId → r ∈ rows) := by
  obtain ⟨hcommunicate, hsession, hget, hok, hcommit⟩ := h
  rw [monitoredRows_eq hcommunicate hsession hget]
  cases hfind : rows.find? fun r => decide (r.id = runId) with
  | none =>
      -- the row has vanished
      have hnone : (sessionOf runId rows).run = none := hfind
      unfold finishRun
      rw [hnone]
      intro r hr
      have hid : r.id ≠ runId := by simpa using List.find?_eq_none.mp hfind r hr
      exact ⟨fun he => absurd he hid, fun _ => hr⟩
  | some run =>
      have hrun : (sessionOf runId rows).run = some run := hfind
      have hid : run.id = runId := by simpa using List.find?_some hfind
      obtain ⟨hfinished, hrows⟩ := recordOutcome_finished loads p process report now hrun
      rw [finishRun_recorded hrun hok hcommit]
      rw [hid] at hfinished
      intro r hr
      have hflushed := flushed_rows hfinished r hr
      rw [hrows] at hflushed
      exact hflushed

/-- A monitor that has ended leaves no RUNNING row of its run. -/
def MonitorClean (loads : String → Except MonitorError Json) (p : MonitorPattern) (runId : String)
    (process : BenchmarkProcess) (report : ReportFile) (now : Time) (rows : List BenchmarkRun) : Prop :=
  ∀ r ∈ monitoredRows loads p runId process report now rows, r.id = runId → r.status ≠ .running

/-- **A monitor that ends leaves its row finished exactly if it gets to its commit**, or the row was not
    RUNNING any more. -/
theorem monitorClean_iff : MonitorClean loads p runId process report now rows ↔
    Records loads p process report ∨ ∀ r ∈ rows, r.id = runId → r.status ≠ .running := by
  by_cases hrecords : Records loads p process report
  · exact iff_of_true (fun r hr => (monitoredRows_recorded hrecords r hr).1) (Or.inl hrecords)
  · unfold MonitorClean
    rw [monitoredRows_unrecorded hrecords, or_iff_right hrecords]

end Monitoring

/-! ## 6. The service -/

/-- What happens: a call up to the point where it waits for its subprocess, the end of that wait, a
    monitor that ends, and a row that is removed. -/
inductive BenchmarkEvent where
  | call (p : StartPattern) (key runId : String) (now : Time)
  | spawned (p : StartPattern) (runId : String)
  | ended (p : MonitorPattern) (runId : String) (process : BenchmarkProcess) (report : ReportFile)
      (now : Time)
  | removed (runId : String)

def BenchmarkService.next (loads : String → Except MonitorError Json) (s : BenchmarkService) :
    BenchmarkEvent → Option BenchmarkService
  | .call p key runId now =>
      let r := beginRun p key runId now s
      some (if r.1 = none then { r.2 with spawning := r.2.spawning ++ [runId] } else r.2)
  | .spawned p runId =>
      if runId ∈ s.spawning then
        some (superviseRun p runId { s with spawning := s.spawning.filter (· ≠ runId) }).2
      else none
  | .ended p runId process report now =>
      if runId ∈ s.monitored then
        some
          { s with
            rows := monitoredRows loads p runId process report now s.rows
            monitored := s.monitored.filter (· ≠ runId) }
      else none
  | .removed runId => some { s with rows := s.rows.filter (·.id ≠ runId) }

/-- Every RUNNING row is that of a run whose subprocess is being spawned or monitored. -/
def Accounted (s : BenchmarkService) : Prop :=
  ∀ r ∈ s.rows, r.status = .running → r.id ∈ s.spawning ∨ r.id ∈ s.monitored

/-- No step of a call fails once its row is committed, no monitor ends without recording, and no call
    comes while another waits for its subprocess. -/
def Orderly (loads : String → Except MonitorError Json) (s : BenchmarkService) :
    BenchmarkEvent → BenchmarkService → Prop
  | .call p key runId _, _ => s.spawning = [] ∧
      (Inserts p key runId s → p .commit = .returns ∧ p .refresh = .returns ∧ p .mkdir = .returns)
  | .spawned p _, _ => p .spawn = .returns ∧ p .createTask = .returns ∧ p .track = .returns
  | .ended p runId process report _, _ => Records loads p process report ∨
      ∀ r ∈ s.rows, r.id = runId → r.status ≠ .running
  | .removed _, _ => True

/-- A call that is refused is refused for a run that is monitored. -/
def RefusedMonitored (s : BenchmarkService) : BenchmarkEvent → BenchmarkService → Prop
  | .call p key runId now, _ => ∀ existing,
      (beginRun p key runId now s).1 = some (.alreadyRunning existing) → existing ∈ s.monitored
  | _, _ => True

section Service

variable {loads : String → Except MonitorError Json} {p : StartPattern} {key runId : String}
  {now : Time} {s s' : BenchmarkService}

/-- A call that is not interrupted is `start_benchmark_run`. -/
theorem next_call_spawned (h : (beginRun p key runId now s).1 = none) (hnew : runId ∉ s.spawning) :
    run (BenchmarkService.next loads) s [.call p key runId now, .spawned p runId] =
      some (startBenchmarkRun p key runId now s).2 := by
  classical
  have hspawning : (beginRun p key runId now s).2.spawning = s.spawning := by
    rw [beginRun_state]
    split <;> rfl
  have hfilter : (s.spawning ++ [runId]).filter (· ≠ runId) = s.spawning := by
    rw [List.filter_append, List.filter_eq_self.mpr fun i hi => by
      simpa using fun he : i = runId => hnew (he ▸ hi)]
    simp
  rw [run_cons]
  simp only [BenchmarkService.next, if_pos h, Option.bind_some]
  rw [run_cons]
  simp only [BenchmarkService.next, List.mem_append, List.mem_singleton, or_true, if_true,
    Option.bind_some, hspawning, hfilter]
  unfold startBenchmarkRun
  rw [block_cons_returns h, block_single_state, ← hspawning]
  rfl

theorem getRunningRun_some {rows : List BenchmarkRun} {r : BenchmarkRun}
    (h : getRunningRun rows = some r) : r ∈ rows ∧ r.status = .running :=
  ⟨List.mem_of_find?_eq_some h, by simpa using List.find?_some h⟩

/-- Inserting the row, and what follows it, refuses nothing. -/
theorem insertRun_raisesOnly (existing : String) :
    RaisesOnly (· ≠ .alreadyRunning existing) (insertRun p key runId now) := by
  have hother : StartError.other ≠ .alreadyRunning existing := fun h => by cases h
  intro s e he
  unfold insertRun at he
  split at he
  · cases he
    exact hother
  · exact raisesOnly_attempt (P := (· ≠ .alreadyRunning existing)) hother s e he

/-- A call is refused for a RUNNING row. -/
theorem beginRun_refused {existing : String}
    (h : (beginRun p key runId now s).1 = some (.alreadyRunning existing)) :
    ∃ r ∈ s.rows, r.status = .running ∧ r.id = existing := by
  have hattempt : ∀ x, RaisesOnly (· ≠ .alreadyRunning existing)
      (attempt StartError.other (p x) (id : BenchmarkService → BenchmarkService)) :=
    fun x => raisesOnly_attempt fun h => by cases h
  unfold beginRun at h
  cases block_cons_raised h with
  | inl hr =>
      unfold checkScenario at hr
      split at hr
      · cases hr
      · cases hr
  | inr hrest =>
      rw [checkScenario_state] at hrest
      cases block_cons_raised hrest.2 with
      | inl hr => exact absurd rfl (hattempt .query s _ hr)
      | inr hrest =>
          rw [attempt_state, id_eq, ite_self] at hrest
          cases block_cons_raised hrest.2 with
          | inl hr =>
              unfold refuseSecond at hr
              cases hfind : getRunningRun s.rows with
              | none =>
                  rw [hfind] at hr
                  cases hr
              | some r =>
                  rw [hfind] at hr
                  cases hr
                  exact ⟨r, (getRunningRun_some hfind).1, (getRunningRun_some hfind).2, rfl⟩
          | inr hrest =>
              have hafter : RaisesOnly (· ≠ .alreadyRunning existing)
                  (block [insertRun p key runId now, attempt .other (p .refresh) id,
                    attempt .other (p .mkdir) id]) := by
                refine raisesOnly_block ?_
                simp only [List.forall_mem_cons, List.not_mem_nil, false_implies, implies_true,
                  and_true]
                exact ⟨insertRun_raisesOnly existing, hattempt .refresh, hattempt .mkdir⟩
              exact absurd rfl (hafter _ _ hrest.2)

theorem call_accounted (h : Accounted s)
    (hends : Inserts p key runId s →
      p .commit = .returns ∧ p .refresh = .returns ∧ p .mkdir = .returns)
    (hnext : BenchmarkService.next loads s (.call p key runId now) = some s') : Accounted s' := by
  classical
  simp only [BenchmarkService.next, Option.some.injEq] at hnext
  subst hnext
  by_cases hinserts : Inserts p key runId s
  · rw [if_pos (beginRun_returns.mpr ⟨hinserts, hends hinserts⟩), beginRun_state, if_pos hinserts]
    intro r hr hstatus
    cases List.mem_append.mp hr with
    | inl hr =>
        cases h r hr hstatus with
        | inl hspawning => exact Or.inl (List.mem_append_left _ hspawning)
        | inr hmonitored => exact Or.inr hmonitored
    | inr hr =>
        rw [List.mem_singleton.mp hr]
        exact Or.inl (List.mem_append_right _ List.mem_cons_self)
  · rw [if_neg fun hreturns => hinserts (beginRun_returns.mp hreturns).1, beginRun_state,
      if_neg hinserts]
    exact h

theorem superviseRun_state
    (h : p .spawn = .returns ∧ p .createTask = .returns ∧ p .track = .returns) :
    (superviseRun p runId s).2 = { s with monitored := s.monitored ++ [runId] } := by
  unfold superviseRun
  rw [block_cons_returns (attempt_returns.mpr h.1), block_cons_returns (attempt_returns.mpr h.2.1),
    block_single_state]
  simp [h.1, h.2.1]

theorem spawned_accounted (h : Accounted s)
    (hreturns : p .spawn = .returns ∧ p .createTask = .returns ∧ p .track = .returns)
    (hnext : BenchmarkService.next loads s (.spawned p runId) = some s') : Accounted s' := by
  simp only [BenchmarkService.next, superviseRun_state hreturns] at hnext
  split at hnext
  · injection hnext with hnext
    subst hnext
    intro r hr hstatus
    by_cases hid : r.id = runId
    · exact Or.inr (List.mem_append_right _ (List.mem_singleton.mpr hid))
    · cases h r hr hstatus with
      | inl hspawning => exact Or.inl (List.mem_filter.mpr ⟨hspawning, by simpa using hid⟩)
      | inr hmonitored => exact Or.inr (List.mem_append_left _ hmonitored)
  · cases hnext

theorem ended_accounted {p : MonitorPattern} {process : BenchmarkProcess} {report : ReportFile}
    (h : Accounted s)
    (hends : Records loads p process report ∨ ∀ r ∈ s.rows, r.id = runId → r.status ≠ .running)
    (hnext : BenchmarkService.next loads s (.ended p runId process report now) = some s') :
    Accounted s' := by
  simp only [BenchmarkService.next] at hnext
  split at hnext
  · injection hnext with hnext
    subst hnext
    intro r hr hstatus
    have hid : r.id ≠ runId := fun hid => monitorClean_iff.mpr hends r hr hid hstatus
    have hrow : r ∈ s.rows := by
      by_cases hrecords : Records loads p process report
      · exact (monitoredRows_recorded hrecords r hr).2 hid
      · have hr' : r ∈ monitoredRows loads p runId process report now s.rows := hr
        rwa [monitoredRows_unrecorded hrecords] at hr'
    cases h r hrow hstatus with
    | inl hspawning => exact Or.inl hspawning
    | inr hmonitored => exact Or.inr (List.mem_filter.mpr ⟨hmonitored, by simpa using hid⟩)
  · cases hnext

/-- **One step** keeps every RUNNING row accounted for, and refuses a call only for a run monitored. -/
theorem next_accounted {e : BenchmarkEvent} (h : Accounted s) (horderly : Orderly loads s e s')
    (hnext : BenchmarkService.next loads s e = some s') :
    Accounted s' ∧ RefusedMonitored s e s' := by
  cases e with
  | call p key runId now =>
      refine ⟨call_accounted h horderly.2 hnext, ?_⟩
      intro existing hrefused
      obtain ⟨r, hr, hstatus, hid⟩ := beginRun_refused hrefused
      cases h r hr hstatus with
      | inl hspawning =>
          rw [horderly.1] at hspawning
          cases hspawning
      | inr hmonitored => exact hid ▸ hmonitored
  | spawned p runId => exact ⟨spawned_accounted h horderly hnext, trivial⟩
  | ended p runId process report now => exact ⟨ended_accounted h horderly hnext, trivial⟩
  | removed runId =>
      refine ⟨?_, trivial⟩
      injection hnext with hnext
      subst hnext
      exact fun r hr hstatus => h r (List.mem_of_mem_filter hr) hstatus

end Service

/-! ## 7. No run is left RUNNING -/

/-- **A call is refused only while a run is monitored**, in every run of the service whose steps all
    meet the conditions. -/
theorem refused_only_while_monitored (loads : String → Except MonitorError Json)
    {s : BenchmarkService} {events : List BenchmarkEvent} (h : Accounted s)
    (horderly : Along (BenchmarkService.next loads) (Orderly loads) s events) :
    Along (BenchmarkService.next loads) RefusedMonitored s events ∧
      ∀ s', run (BenchmarkService.next loads) s events = some s' → Accounted s' :=
  along_run horderly h fun hs hp hn => next_accounted hs hp hn

/-- **When no run is left RUNNING**: a call that raises leaves no RUNNING row exactly if no step fails
    once its row is committed, a monitor that ends leaves its row finished exactly if it gets to its
    commit, and where every step of a run of the service is so, and no call comes while another waits
    for its subprocess, a call is refused only for a run that is monitored. -/
theorem no_run_left_running (loads : String → Except MonitorError Json) :
    (∀ p key runId now s, StartClean p key runId now s ↔
      (Inserts p key runId s → ∀ x ∈ fromCommit, p x = .returns)) ∧
    (∀ p runId process report now rows, MonitorClean loads p runId process report now rows ↔
      Records loads p process report ∨ ∀ r ∈ rows, r.id = runId → r.status ≠ .running) ∧
    ∀ s events, Accounted s → Along (BenchmarkService.next loads) (Orderly loads) s events →
      Along (BenchmarkService.next loads) RefusedMonitored s events ∧
        ∀ s', run (BenchmarkService.next loads) s events = some s' → Accounted s' :=
  ⟨fun _ _ _ _ _ => startClean_iff, fun _ _ _ _ _ _ => monitorClean_iff,
    fun _ _ => refused_only_while_monitored loads⟩

def noService : BenchmarkService := ⟨[], [], []⟩

/-- Every step of a call returns but one. -/
def startFailsAt (x : StartStep) : StartPattern := fun y => if y = x then .raises () false else .returns

/-- A call, its subprocess, and a second call. -/
theorem no_run_left_running_sample :
    Along (BenchmarkService.next fun _ => .ok .null) RefusedMonitored noService
      [.call (fun _ => .returns) "baseline" "r1" 0, .spawned (fun _ => .returns) "r1",
        .call (fun _ => .returns) "success" "r2" 1] := by
  refine ((no_run_left_running fun _ => .ok .null).2.2 noService _ (fun r hr => by cases hr) ?_).1
  intro s1 h1
  injection h1 with h1
  subst h1
  refine ⟨⟨rfl, fun _ => ⟨rfl, rfl, rfl⟩⟩, ?_⟩
  intro s2 h2
  injection h2 with h2
  subst h2
  refine ⟨⟨rfl, rfl, rfl⟩, ?_⟩
  intro s3 h3
  injection h3 with h3
  subst h3
  exact ⟨⟨rfl, fun _ => ⟨rfl, rfl, rfl⟩⟩, trivial⟩

/-- **A row is left RUNNING**: the results directory cannot be made, the call raises, nothing is
    monitored, and every later call is refused; or the report is not UTF-8, and the monitor ends
    without recording. -/
theorem run_stuck :
    (startBenchmarkRun (startFailsAt .mkdir) "baseline" "r1" 0 noService).1 = some .other ∧
      ¬ StartClean (startFailsAt .mkdir) "baseline" "r1" 0 noService ∧
      (startBenchmarkRun (startFailsAt .mkdir) "baseline" "r1" 0 noService).2.monitored = [] ∧
      (startBenchmarkRun (fun _ => .returns) "success" "r2" 1
        (startBenchmarkRun (startFailsAt .mkdir) "baseline" "r1" 0 noService).2).1 =
          some (.alreadyRunning "r1") ∧
      ¬ MonitorClean (fun _ => .ok .null) (fun _ => .returns) "r1" ⟨0, ""⟩ (.bytes ⟨#[0xff]⟩) 5
        [newRun "baseline" "r1" 0] := by
  refine ⟨rfl, ?_, rfl, rfl, ?_⟩
  · intro hclean
    have hrow := hclean (fun h => by cases h) (newRun "baseline" "r1" 0) List.mem_cons_self rfl
    cases hrow
  · intro hclean
    exact hclean (newRun "baseline" "r1" 0) List.mem_cons_self rfl rfl

end ModelOps
