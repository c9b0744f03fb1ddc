import ReplicaController.Instance.Basic
import ReplicaController.Labels.Selector

/-!
# Workloads

A workload asks for a number of instances that match its selector, to be made from its template. It
stores the status that was last observed and at which generation that was. The version counts its
writes.
-/

namespace ReplicaController

structure InstanceTemplate where
  labels : Labels
  spec : Payload
  deriving Inhabited

structure WorkloadSpec where
  replicas : UInt32
  selector : LabelSelector
  template : InstanceTemplate
  minReadySeconds : UInt32

structure WorkloadStatus where
  replicas : UInt32
  readyReplicas : UInt32
  availableReplicas : UInt32
  observedGeneration : Int64
  deriving DecidableEq, Repr, Inhabited

structure Workload where
  ns : String
  name : String
  uid : Uid
  generation : Int64
  resourceVersion : UInt64
  deletionTimestamp : Option Instant
  spec : WorkloadSpec
  status : WorkloadStatus

namespace Workload

def kind : String := "PodSet"

def apiVersion : String := "pixiu.pixiu.io/v1alpha1"

def key (w : Workload) : Key := ⟨w.ns, w.name⟩

def isBeingDeleted (w : Workload) : Bool := w.deletionTimestamp.isSome

/-- The reference that the instances of the workload carry. -/
def controllerRef (w : Workload) : OwnerReference :=
  ⟨apiVersion, kind, w.name, w.uid, true, true⟩

end Workload

end ReplicaController
