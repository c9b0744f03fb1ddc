import ReplicaController.Instant.Basic
import ReplicaController.Json.Normal
import ReplicaController.Key
import ReplicaController.Labels.Basic
import ReplicaController.Instance.Owner

/-!
# Instances

An instance is one running unit. It is active until it has succeeded or failed, so one that is
being torn down still counts. It belongs to the object named by its first controller reference. It
is available once it has been ready for long enough.
-/

namespace ReplicaController

inductive Phase
  | pending
  | running
  | succeeded
  | failed
  | terminating
  deriving DecidableEq, Repr, Inhabited

def Phase.text : Phase → String
  | .pending => "pending"
  | .running => "running"
  | .succeeded => "succeeded"
  | .failed => "failed"
  | .terminating => "terminating"

def Phase.ofText? : String → Option Phase
  | "pending" => some .pending
  | "running" => some .running
  | "succeeded" => some .succeeded
  | "failed" => some .failed
  | "terminating" => some .terminating
  | _ => none

/-- Whether an instance is ready, and since when it has been so. -/
structure Readiness where
  ready : Bool
  since : Instant
  deriving DecidableEq

structure Instance where
  ns : String
  name : String
  uid : Uid
  labels : Labels
  ownerReferences : List OwnerReference
  phase : Phase
  readiness : Option Readiness
  created : Instant
  spec : Payload

namespace Instance

def key (i : Instance) : Key := ⟨i.ns, i.name⟩

def controllerRef? (i : Instance) : Option OwnerReference := i.ownerReferences.find? (·.controller)

def isActive (i : Instance) : Bool :=
  match i.phase with
  | .succeeded | .failed => false
  | .pending | .running | .terminating => true

def isOwnedBy (i : Instance) (uid : Uid) : Bool :=
  match i.controllerRef? with
  | some r => r.uid == uid
  | none => false

def isReady (i : Instance) : Bool :=
  match i.readiness with
  | some r => r.ready
  | none => false

def isAvailable (i : Instance) (minReadySeconds : UInt32) (now : Instant) : Bool :=
  match i.readiness with
  | none => false
  | some r =>
    r.ready && (minReadySeconds == 0 ||
      match r.since.addSeconds? minReadySeconds.toNat with
      | some t => t.notAfter now
      | none => false)

/-- The active instances that `uid` controls, in their order. -/
def activeOwned (uid : Uid) (instances : List Instance) : List Instance :=
  (instances.filter (·.isOwnedBy uid)).filter (·.isActive)

end Instance

end ReplicaController
