import ReplicaController.Workload.Basic

/-!
# Status

The counts of a list of active instances at a moment, whether they have to be written, and what
they say about convergence.
-/

namespace ReplicaController

structure Counts where
  replicas : UInt32
  ready : UInt32
  available : UInt32
  deriving DecidableEq, Repr, Inhabited

/-- A count, or the largest count there is. -/
def clampCount (n : Nat) : UInt32 := UInt32.ofNat (min n (UInt32.size - 1))

namespace Counts

def ofActive (active : List Instance) (minReadySeconds : UInt32) (now : Instant) : Counts where
  replicas := clampCount active.length
  ready := UInt32.ofNat (active.countP (·.isReady))
  available := UInt32.ofNat (active.countP fun i => i.isReady && i.isAvailable minReadySeconds now)

def toStatus (c : Counts) (generation : Int64) : WorkloadStatus :=
  ⟨c.replicas, c.ready, c.available, generation⟩

/-- The stored status says something else, or said it of another generation. -/
def needsCommit (c : Counts) (stored : WorkloadStatus) (generation : Int64) : Bool :=
  stored != c.toStatus generation

end Counts

inductive Convergence
  | converged
  | converging
  | degraded
  deriving DecidableEq, Repr

namespace Convergence

def text : Convergence → String
  | .converged => "Converged"
  | .converging => "Converging"
  | .degraded => "Degraded"

def evaluate (desired : UInt32) (c : Counts) (hadErrors : Bool) : Convergence :=
  if hadErrors then .degraded
  else if c.replicas = desired ∧ c.available = desired then .converged
  else .converging

def isConverged (c : Convergence) : Bool := c == .converged

end Convergence

end ReplicaController
