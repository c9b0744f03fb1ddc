import ReplicaController.Batch.Summary
import ReplicaController.Labels.Selector
import ReplicaController.Scaling.Adjustment
import ReplicaController.Scaling.Drain
import ReplicaController.Workload.Counts

/-!
# What a pass comes to

A pass over a workload finds that it is gone, fails, or reports: the adjustment it set out to make,
why that could not be made in full, and the status that is stored now.
-/

namespace ReplicaController

structure PassConfig where
  burst : Nat
  policy : VictimPolicy
  deriving DecidableEq, Repr

namespace Pass

def defaultConfig : PassConfig := ⟨Adjustment.defaultBurst, .default⟩

inductive Error
  | fetch (key : Key) (source : StoreError)
  | selector (key : Key) (source : SelectorError)
  | list (key : Key) (source : StoreError)
  | commit (key : Key) (source : StoreError)
  | cancelled (key : Key)
  deriving DecidableEq, Repr

namespace Error

def message : Error → String
  | .fetch key e => "failed to fetch workload " ++ key.text ++ ": " ++ e.message
  | .selector key e => "invalid selector on workload " ++ key.text ++ ": " ++ e.message
  | .list key e => "failed to list instances of workload " ++ key.text ++ ": " ++ e.message
  | .commit key e => "failed to commit status of workload " ++ key.text ++ ": " ++ e.message
  | .cancelled key => "reconciliation of workload " ++ key.text ++ " cancelled"

/-- Nothing but a change of the workload can help. -/
def isValidation : Error → Bool
  | .selector .. => true
  | _ => false

end Error

/-- Why the adjustment was not made in full. -/
inductive ReplicaError
  | batch (e : Batch.Error)
  | owner (e : OwnerFault)
  deriving DecidableEq, Repr

def ReplicaError.message : ReplicaError → String
  | .batch e => e.message
  | .owner e => "invalid controller reference: " ++ e.message

structure Report where
  adjustment : Adjustment
  skippedReplicaManagement : Bool
  replicaError : Option ReplicaError
  status : WorkloadStatus
  statusWritten : Bool
  convergence : Convergence
  deriving DecidableEq, Repr

inductive Outcome
  | workloadGone
  | reconciled (report : Report)
  deriving DecidableEq, Repr

end Pass

end ReplicaController
