import ReplicaController.Workload.Basic

/-!
# The records of a cluster

Workloads by key, and instances in the order in which they are listed. An instance that is put goes
to the end and takes the place of any other with its key.
-/

namespace ReplicaController

structure Cluster where
  workloads : SortedMap Key Workload
  instances : List Instance

namespace Cluster

def empty : Cluster := ⟨.empty, []⟩

instance : Inhabited Cluster := ⟨empty⟩

def workload? (c : Cluster) (key : Key) : Option Workload := c.workloads.find? key

def putWorkload (c : Cluster) (w : Workload) : Cluster :=
  { c with workloads := c.workloads.insert w.key w }

def removeWorkload (c : Cluster) (key : Key) : Cluster :=
  { c with workloads := c.workloads.erase key }

def ofWorkloads (ws : List Workload) : Cluster := ws.foldl putWorkload empty

def hasInstance (c : Cluster) (key : Key) : Bool := c.instances.any (·.key == key)

def addInstance (c : Cluster) (i : Instance) : Cluster :=
  { c with instances := c.instances ++ [i] }

def removeInstance (c : Cluster) (key : Key) : Cluster :=
  { c with instances := c.instances.filter fun i => !(i.key == key) }

def putInstance (c : Cluster) (i : Instance) : Cluster := (c.removeInstance i.key).addInstance i

/-- The instances with the first of that key changed. -/
def changeFirst (key : Key) (f : Instance → Instance) : List Instance → List Instance
  | [] => []
  | i :: is => if i.key == key then f i :: is else i :: changeFirst key f is

def setPhase (c : Cluster) (key : Key) (phase : Phase) : Cluster :=
  { c with instances := changeFirst key (fun i => { i with phase }) c.instances }

/-- Mark an instance running, and ready or not as of `now`. -/
def setReady (c : Cluster) (key : Key) (ready : Bool) (now : Instant) : Cluster :=
  let change (i : Instance) := { i with phase := .running, readiness := some ⟨ready, now⟩ }
  { c with instances := changeFirst key change c.instances }

def instancesIn (c : Cluster) (ns : String) : List Instance :=
  c.instances.filter fun i => i.ns == ns

def list (c : Cluster) (ns : String) (selector : Selector) : List Instance :=
  c.instances.filter fun i => i.ns == ns && selector.selects i.labels

end Cluster

end ReplicaController
