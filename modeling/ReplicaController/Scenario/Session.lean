import ReplicaController.Scenario.Script
import ReplicaController.Shutdown.Channel
import ReplicaController.Worker.Ticks

/-!
# Sessions

A session is a scene with a controller at work in it: passes on demand, a worker with its failure
records, the events that were recorded, and a shutdown channel that the passes watch. Shutdown that
is up before a batch cancels it at once, and its operations land after the pass.
-/

namespace ReplicaController.Scenario

structure Stage where
  scene : Scene
  config : PassConfig
  channel : Shutdown.Channel
  recording : Bool
  events : Array Event

/-- With latency all operations of a batch are in the store before the first of them goes on. -/
def planOf (f : Faults) : Batch.Schedule :=
  if f.latency.any fun d => 0 < d.nanos then .lockstep else .inOrder

namespace Stage

/-- A batch waits on the channel from its first moment on. -/
def conditions (s : Stage) : Pass.Conditions where
  plan := planOf s.scene.world.store.faults
  halt := if ((Shutdown.Waiter.start 0).poll s.channel).isNone then some ⟨0, true⟩ else none

def record (events : List Event) (s : Stage) : Stage :=
  if s.recording then { s with events := s.events ++ events } else s

/-- A pass, and after it what it left under way. -/
def reconcile (key : Key) (s : Stage) : Except Pass.Error Pass.Outcome × Stage :=
  let c := s.conditions
  let (ending, scene) := Pass.run Scene.backend s.config c key s.scene
  let (rest, scene) := Batch.finish Scene.backend c.plan ⟨ending.leftover, []⟩ scene
  (ending.result, { s with scene }.record (ending.events ++ rest.events))

def duty : Worker.Duty Stage where
  list s :=
    let (a, scene) := Scene.backend.listWorkloads s.scene
    (a, { s with scene })
  pass key s :=
    let (r, s) := s.reconcile key
    (.ended r, s)

end Stage

structure Session where
  pace : WorkerPace
  worker : Worker.State Stage

namespace Session

/-- The worker's clock stands still during a session. -/
def clock : Nat → Span := fun _ => .zero

def stage (s : Session) : Stage := s.worker.inner

def scene (s : Session) : Scene := s.stage.scene

def cluster (s : Session) : Cluster := s.scene.cluster

def onStage {α : Type} (f : Stage → α × Stage) (s : Session) : α × Session :=
  let (a, inner) := f s.worker.inner
  (a, { s with worker := { s.worker with inner } })

def onScene {α : Type} (f : Scene → α × Scene) (s : Session) : α × Session :=
  s.onStage fun stage =>
    let (a, scene) := f stage.scene
    (a, { stage with scene })

def onStore {α : Type} (f : Store → α × Store) (s : Session) : α × Session :=
  s.onScene (Scene.onStore f)

def onCluster (f : Cluster → Cluster) (s : Session) : Session :=
  (s.onScene fun scene => ((), scene.onCluster f)).2

def meantKey (s : Session) (key : Key) : Key := Scenario.meantKey s.scene.generated key

def start (world : World) (pass : PassConfig) (pace : WorkerPace) (recording : Bool) : Session :=
  let scene : Scene := ⟨world, #[], #[], [], []⟩
  ⟨pace, Worker.start pace clock ⟨scene, pass, .new false, recording, #[]⟩⟩

def reconcile (key : Key) (s : Session) : Except Pass.Error Pass.Outcome × Session :=
  s.onStage (Stage.reconcile key)

def resync (s : Session) : RoundTally × Session :=
  let (tally, worker) := Worker.resync Stage.duty s.worker
  (tally, { s with worker })

def retryDue (s : Session) : RoundTally × Session :=
  let (tally, worker) := Worker.retryDue Stage.duty s.worker
  (tally, { s with worker })

def runFor (stop : Span) (s : Session) : Session :=
  { s with worker := Worker.runUntil Stage.duty s.pace stop s.worker }

def failures (s : Session) (key : Key) : UInt32 := Worker.failures s.worker key

def onChannel (f : Shutdown.Channel → Shutdown.Channel) (s : Session) : Session :=
  (s.onStage fun stage => ((), { stage with channel := f stage.channel })).2

def setFaults (f : Faults → Faults) (s : Session) : Session :=
  (s.onStore fun store => ((), { store with faults := f store.faults })).2

/-- New rules, with the calls counted from here on. -/
def setRules (rules : List Rule) (s : Session) : Session :=
  (s.onScene fun scene => ((), { scene with rules, seen := [] })).2

def setReady (key : Key) (ready : Bool) (s : Session) : Session :=
  (s.onScene fun scene =>
    let (t, world) := scene.world.now
    ((), { scene with world }.onCluster (·.setReady key ready t))).2

/-- Copies of an instance with numbers behind its name. -/
def fill (i : Instance) (count : Nat) (s : Session) : Session :=
  s.onCluster fun c => (List.range count).foldl
    (fun c n => c.putInstance { i with name := i.name ++ "-" ++ toString n }) c

/-- Commit counts from a caller's copy of a workload, by a call that is logged. -/
def commit (w : Workload) (counts : Counts) (s : Session) : Answer Pass.Commit × Session :=
  s.onScene (Pass.commit Scene.backend w counts)

def countEvents (reason : String) (s : Session) : Nat :=
  s.stage.events.toList.countP fun e => e.reason.text == reason

end Session

end ReplicaController.Scenario
