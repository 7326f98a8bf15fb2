import ModelOps.Lib.Table
import ModelOps.Lib.Transaction
import ModelOps.Lib.UnitOfWork
import ModelOps.Lib.Transition
import ModelOps.Lib.Decimal
import ModelOps.Lib.Publication
import ModelOps.Lib.Slot
import ModelOps.Lib.Signal
import ModelOps.Lib.Json
import ModelOps.Lib.Http
import ModelOps.Lib.Interference
import ModelOps.Lib.Sorting
import ModelOps.Policy.Config
import ModelOps.ControlPlane.StateMachine
import ModelOps.ControlPlane.Models
import ModelOps.ControlPlane.Service
import ModelOps.ControlPlane.ServiceSpec
import ModelOps.ControlPlane.Schema
import ModelOps.ControlPlane.Routing
import ModelOps.ControlPlane.Concurrency
import ModelOps.ControlPlane.Frozen
import ModelOps.Router.Config
import ModelOps.Router.Race
import ModelOps.Router.Generations
import ModelOps.Router.Predict
import ModelOps.ControlPlane.Metrics
import ModelOps.Router.Counting
import ModelOps.ControlPlane.Labels
import ModelOps.ControlPlane.FirstWriter
import ModelOps.ControlPlane.Join
import ModelOps.ControlPlane.Migration
import ModelOps.Policy.Engine
import ModelOps.ControlPlane.Reconcile
import ModelOps.ControlPlane.Reachability
import ModelOps.Policy.Evaluate
import ModelOps.Policy.Gates
import ModelOps.Policy.Explain
import ModelOps.System.Joint
import ModelOps.System.Delivery
import ModelOps.System.Convergence
import ModelOps.System.Restart
import ModelOps.System.History
import ModelOps.System.Sessions
import ModelOps.System.Idempotency
import ModelOps.System.Timeline
import ModelOps.System.Twins
import ModelOps.System.Audit
import ModelOps.System.Verdicts
import ModelOps.Worker.Loop
import ModelOps.Worker.Retries
import ModelOps.Worker.Hold
import ModelOps.Worker.Fleet
import ModelOps.Worker.Ramp
import ModelOps.Worker.Spacing
import ModelOps.Worker.Crash
import ModelOps.ControlPlane.Changes
import ModelOps.ControlPlane.Create
import ModelOps.ControlPlane.Summary
import ModelOps.Policy.QualityWindow
import ModelOps.System.Dashboard
import ModelOps.System.Startup
import ModelOps.System.Peer
import ModelOps.System.Blocker
import ModelOps.Benchmarks.LabelFeeder
import ModelOps.Benchmarks.Scenario
import ModelOps.Benchmarks.Runs
import ModelOps.Lib.FileTree
import ModelOps.Registry.Local
import ModelOps.Lib.Refinement
import ModelOps.Lib.WeightedChoice
import ModelOps.ControlPlane.Rollout
import ModelOps.System.Rollouts
import ModelOps.Router.Draw
import ModelOps.System.Exposure
import ModelOps.Worker.RunOnce
import ModelOps.Worker.Pace
import ModelOps.Worker.Clean
import ModelOps.Worker.Finish
import ModelOps.Worker.Record
import ModelOps.Lib.LatestWins
import ModelOps.Dashboard.Page
import ModelOps.Lib.FileWrites
import ModelOps.Registry.Publish
import ModelOps.Serving.App
import ModelOps.Dashboard.Actions
import ModelOps.Dashboard.NewDeployment
import ModelOps.System.WorseCanary
import ModelOps.Worker.Evidence
import ModelOps.System.Outcome
