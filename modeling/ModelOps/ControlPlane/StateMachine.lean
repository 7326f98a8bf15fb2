/-
  File:      ModelOps/ControlPlane/StateMachine.lean
  Subject:   The deployment's states and the transitions between them
             (app/control_plane/models.py, app/control_plane/state_machine.py).

  PENDING -> DEPLOYING -> CANARY_RUNNING -> EVALUATING -> (PROMOTING -> PROMOTED |
                                                           ROLLING_BACK -> ROLLED_BACK |
                                                           INCONCLUSIVE)

  * `ALLOWED_TRANSITIONS`, `validateTransition` -- the table and its check, with the error's text;
  * `terminal_stuck` -- no transition leaves a terminal status.
-/
import Mathlib.Tactic.Common

namespace ModelOps

inductive DeploymentStatus where
  | pending
  | deploying
  | canaryRunning
  | evaluating
  | promoting
  | promoted
  | rollingBack
  | rolledBack
  | failed
  | inconclusive
  deriving DecidableEq, Repr

namespace DeploymentStatus

/-- The column's value. -/
def value : DeploymentStatus → String
  | .pending => "PENDING"
  | .deploying => "DEPLOYING"
  | .canaryRunning => "CANARY_RUNNING"
  | .evaluating => "EVALUATING"
  | .promoting => "PROMOTING"
  | .promoted => "PROMOTED"
  | .rollingBack => "ROLLING_BACK"
  | .rolledBack => "ROLLED_BACK"
  | .failed => "FAILED"
  | .inconclusive => "INCONCLUSIVE"

/-- `TERMINAL_STATUSES`. -/
def terminal : DeploymentStatus → Bool
  | .promoted | .rolledBack | .failed => true
  | _ => false

/-- `ACTIVE_STATUSES`: still rolling out or being judged. -/
def active : DeploymentStatus → Bool
  | .canaryRunning | .evaluating => true
  | _ => false

/-- `_AUTHORITATIVE_TERMINAL_STATUSES`: the final split stays the router's desired state. -/
def authoritativeTerminal : DeploymentStatus → Bool
  | .promoted | .rolledBack => true
  | _ => false

theorem not_terminal_of_active {s : DeploymentStatus} (h : s.active = true) :
    s.terminal = false := by
  cases s <;> simp_all [active, terminal]

end DeploymentStatus

open DeploymentStatus

def ALLOWED_TRANSITIONS : DeploymentStatus → List DeploymentStatus
  | .pending => [.deploying, .failed]
  | .deploying => [.canaryRunning, .failed]
  | .canaryRunning => [.evaluating, .failed]
  | .evaluating => [.promoting, .rollingBack, .inconclusive, .failed]
  | .promoting => [.promoted, .failed]
  | .rollingBack => [.rolledBack, .failed]
  | .inconclusive => [.promoting, .rollingBack]
  | .promoted => []
  | .rolledBack => []
  | .failed => []

/-- The transition that was asked for and is not in the table. -/
structure InvalidTransitionError where
  current : DeploymentStatus
  target : DeploymentStatus
  deriving DecidableEq, Repr

def InvalidTransitionError.message (e : InvalidTransitionError) : String :=
  s!"Cannot transition deployment from {e.current.value} to {e.target.value}"

def validateTransition (current target : DeploymentStatus) : Except InvalidTransitionError Unit :=
  if target ∈ ALLOWED_TRANSITIONS current then .ok () else .error ⟨current, target⟩

theorem validateTransition_ok {current target : DeploymentStatus} :
    validateTransition current target = .ok () ↔ target ∈ ALLOWED_TRANSITIONS current := by
  unfold validateTransition
  split <;> simp_all

/-- No transition leaves a terminal status. -/
theorem terminal_stuck {s : DeploymentStatus} (h : s.terminal = true) : ALLOWED_TRANSITIONS s = [] := by
  cases s <;> simp_all [terminal, ALLOWED_TRANSITIONS]

end ModelOps
