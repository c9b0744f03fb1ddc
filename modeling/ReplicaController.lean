import ReplicaController.Batch.Executor
import ReplicaController.Json.Writer
import ReplicaController.Main
import ReplicaController.Proofs.SortedMap
import ReplicaController.Proofs.Workload.Governed
import ReplicaController.Scenario.Session
import ReplicaController.Proofs.Store.Reachable
import ReplicaController.Proofs.Store.Served
import ReplicaController.Proofs.Batch.Effect
import ReplicaController.Proofs.Pass.Footprint
import ReplicaController.Proofs.Pass.Calm
import ReplicaController.Proofs.Pass.Frame
import ReplicaController.Proofs.Pass.Ceiling
import ReplicaController.Proofs.Pass.Survivors
import ReplicaController.Proofs.Worker.Visits
import ReplicaController.Proofs.Worker.Convergence
import ReplicaController.Proofs.Batch.Collection
import ReplicaController.Proofs.Pass.Course
import ReplicaController.Proofs.Pass.Report
import ReplicaController.Proofs.Pass.Settled
import ReplicaController.Proofs.Pass.Isolation
import ReplicaController.Proofs.Store.Versions
import ReplicaController.Proofs.Pass.Protocol
import ReplicaController.Proofs.Worker.Retries
import ReplicaController.Proofs.Worker.Records
import ReplicaController.Proofs.Store.Roster
import ReplicaController.Proofs.Pass.InFlight
import ReplicaController.Proofs.Pass.Intruders
import ReplicaController.Proofs.Json.RoundTrip
import ReplicaController.Proofs.Batch.Cancellation
import ReplicaController.Proofs.Pass.Contested
import ReplicaController.Proofs.Batch.Trace
import ReplicaController.Proofs.Batch.Collisions
import ReplicaController.Proofs.Pass.Notices
import ReplicaController.Proofs.Labels.Meaning
import ReplicaController.Proofs.Scaling.Ranking
import ReplicaController.Proofs.Worker.Backoff
import ReplicaController.Proofs.Settings
import ReplicaController.Proofs.Worker.Rounds
import ReplicaController.Proofs.Shutdown
import ReplicaController.Proofs.Stamp
import ReplicaController.Proofs.Pass.Statuses
