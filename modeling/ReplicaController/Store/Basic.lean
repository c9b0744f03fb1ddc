import ReplicaController.Span
import ReplicaController.Store.Cluster
import ReplicaController.Store.Error

/-!
# The store in memory

A store answers calls from its cluster, unless a fault is planned for them, and counts them. A
creation or deletion is in flight from the moment it enters until it leaves; its fault is looked up
and its effect takes place when it leaves. A status is written only from a copy of the stored
version, which the write raises by one.
-/

namespace ReplicaController

structure Faults where
  get : Option StoreError
  list : Option StoreError
  updateStatus : Option StoreError
  /-- Upcoming creations that find the store unavailable. -/
  failingCreates : Nat
  /-- Upcoming creations that find their name taken. -/
  conflictingCreates : Nat
  failingDeletes : List String
  terminatingNamespaces : List String
  /-- How long each creation and deletion stays in flight. -/
  latency : Option Span

def Faults.none : Faults := ⟨.none, .none, .none, 0, 0, [], [], .none⟩

structure CallTally where
  gets : Nat
  lists : Nat
  creates : Nat
  deletes : Nat
  statusUpdates : Nat
  inFlight : Nat
  maxInFlight : Nat
  deriving DecidableEq, Repr

def CallTally.zero : CallTally := ⟨0, 0, 0, 0, 0, 0, 0⟩

/-- One more creation or deletion is in flight. -/
def CallTally.enter (t : CallTally) : CallTally :=
  { t with inFlight := t.inFlight + 1, maxInFlight := max t.maxInFlight (t.inFlight + 1) }

def CallTally.leave (t : CallTally) : CallTally := { t with inFlight := t.inFlight - 1 }

structure Store where
  cluster : Cluster
  faults : Faults
  tally : CallTally

namespace Store

def ofCluster (c : Cluster) : Store := ⟨c, .none, .zero⟩

def getWorkload (key : Key) (s : Store) : Answer Workload × Store :=
  let s := { s with tally := { s.tally with gets := s.tally.gets + 1 } }
  match s.faults.get with
  | some e => (.error e, s)
  | none =>
    match s.cluster.workload? key with
    | some w => (.ok w, s)
    | none => (.error (.notFound .workload key), s)

def listWorkloads (s : Store) : Answer (List Workload) × Store :=
  (.ok s.cluster.workloads.values, s)

def listInstances (ns : String) (selector : Selector) (s : Store) : Answer (List Instance) × Store :=
  let s := { s with tally := { s.tally with lists := s.tally.lists + 1 } }
  match s.faults.list with
  | some e => (.error e, s)
  | none => (.ok (s.cluster.list ns selector), s)

def updateStatus (w : Workload) (s : Store) : Answer Workload × Store :=
  let s := { s with tally := { s.tally with statusUpdates := s.tally.statusUpdates + 1 } }
  match s.faults.updateStatus with
  | some e => (.error e, s)
  | none =>
    match s.cluster.workload? w.key with
    | none => (.error (.notFound .workload w.key), s)
    | some stored =>
      if stored.resourceVersion = w.resourceVersion then
        let written := { stored with
          status := w.status, resourceVersion := stored.resourceVersion + 1 }
        let workloads := s.cluster.workloads.insert w.key written
        (.ok written, { s with cluster := { s.cluster with workloads } })
      else
        (.error (.conflict .workload w.key w.resourceVersion stored.resourceVersion), s)

def enterCreate (s : Store) : Store :=
  { s with tally := { s.tally with creates := s.tally.creates + 1 }.enter }

def enterDelete (s : Store) : Store :=
  { s with tally := { s.tally with deletes := s.tally.deletes + 1 }.enter }

/-- The planned fault of a creation, and the plan that remains. -/
def faultOfCreate (f : Faults) (i : Instance) : Option StoreError × Faults :=
  if f.terminatingNamespaces.contains i.ns then (some (.namespaceTerminating i.ns), f)
  else if 0 < f.conflictingCreates then
    (some (.alreadyExists .unit i.key), { f with conflictingCreates := f.conflictingCreates - 1 })
  else if 0 < f.failingCreates then
    (some (.unavailable "injected create failure"), { f with failingCreates := f.failingCreates - 1 })
  else (none, f)

def leaveCreate (i : Instance) (s : Store) : Answer Unit × Store :=
  let s := { s with tally := s.tally.leave }
  let (fault, faults) := faultOfCreate s.faults i
  let s := { s with faults }
  match fault with
  | some e => (.error e, s)
  | none =>
    if s.cluster.hasInstance i.key then (.error (.alreadyExists .unit i.key), s)
    else (.ok (), { s with cluster := s.cluster.addInstance i })

def leaveDelete (key : Key) (s : Store) : Answer Unit × Store :=
  let s := { s with tally := s.tally.leave }
  if s.faults.failingDeletes.contains key.name then
    (.error (.unavailable "injected delete failure"), s)
  else if s.cluster.hasInstance key then
    (.ok (), { s with cluster := s.cluster.removeInstance key })
  else (.error (.notFound .unit key), s)

def createInstance (i : Instance) (s : Store) : Answer Unit × Store := leaveCreate i s.enterCreate

def deleteInstance (key : Key) (s : Store) : Answer Unit × Store := leaveDelete key s.enterDelete

end Store

end ReplicaController
