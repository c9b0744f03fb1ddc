import ReplicaController.Worker.Round

/-!
# The ticks of the worker

Two clocks tick from one moment on, each at its own interval: one for resyncs and one for retries. A
resync comes before a retry of the same moment, and a tick that was missed is made up for as soon as
possible.
-/

namespace ReplicaController

namespace Worker

variable {σ : Type}

/-- What the worker does at a tick of one of its two clocks. -/
inductive Tick
  | resync
  | retry
  deriving DecidableEq, Repr

def onTick (d : Duty σ) (s : State σ) : Tick → State σ
  | .resync => (resync d s).2
  | .retry => (retryDue d s).2

/-- The moments before `stop` at which a clock of that period ticks, the first of them zero. -/
def tickTimes (period stop : Span) : List Nat :=
  if period.nanos = 0 then []
  else (List.range ((stop.nanos + period.nanos - 1) / period.nanos)).map (· * period.nanos)

/-- The ticks before `stop` in order of time, a resync before a retry of the same moment. -/
def ticks (pace : WorkerPace) (stop : Span) : List Tick :=
  let resyncs := (tickTimes pace.resyncInterval stop).map fun t => (t, Tick.resync)
  let retries := (tickTimes pace.requeueTick stop).map fun t => (t, Tick.retry)
  ((resyncs ++ retries).mergeSort fun a b => a.1 ≤ b.1).map (·.2)

/-- The worker's loop up to `stop`. -/
def runUntil (d : Duty σ) (pace : WorkerPace) (stop : Span) (s : State σ) : State σ :=
  (ticks pace stop).foldl (onTick d) s

end Worker

/-- The moments at which the two clocks tick next. -/
structure Alarms where
  resync : Span
  retry : Span
  deriving DecidableEq, Repr

namespace Alarms

def start (now : Span) : Alarms := ⟨now, now⟩

/-- The next tick with its moment, a resync before a retry of the same moment, and the ones after. -/
def next (pace : WorkerPace) (a : Alarms) : (Worker.Tick × Span) × Alarms :=
  if a.resync ≤ a.retry then
    ((.resync, a.resync), { a with resync := a.resync + pace.resyncInterval })
  else ((.retry, a.retry), { a with retry := a.retry + pace.requeueTick })

end Alarms

end ReplicaController
