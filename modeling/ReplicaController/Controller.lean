import ReplicaController.Store.Backend
import ReplicaController.Worker.Ticks

/-!
# The controller

A controller is a worker whose passes go against a backend without ever seeing shutdown. It keeps a
journal of the events that its passes record.
-/

namespace ReplicaController

/-- A state with the events that were recorded on it, in their order. -/
structure Journal (σ : Type) where
  state : σ
  events : List Event

namespace Controller

variable {σ : Type}

/-- The operations of a batch run one after another, and nothing breaks them off. -/
def conditions : Pass.Conditions := ⟨.inOrder, none⟩

def duty (B : Backend σ) (config : PassConfig) : Worker.Duty (Journal σ) where
  list j :=
    let (a, state) := B.listWorkloads j.state
    (a, { j with state })
  pass key j :=
    let (ending, state) := Pass.run B config conditions key j.state
    (.ended ending.result, ⟨state, j.events ++ ending.events⟩)

def start (pace : WorkerPace) (clock : Nat → Span) (state : σ) : Worker.State (Journal σ) :=
  Worker.start pace clock ⟨state, []⟩

/-- Do what a tick asks, and take the events out of the journal. -/
def tick (B : Backend σ) (config : PassConfig) (t : Worker.Tick) (s : Worker.State (Journal σ)) :
    List Event × Worker.State (Journal σ) :=
  let s := Worker.onTick (duty B config) s t
  (s.inner.events, { s with inner := { s.inner with events := [] } })

end Controller

end ReplicaController
