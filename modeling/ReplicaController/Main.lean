import ReplicaController.Controller
import ReplicaController.Draws
import ReplicaController.Seed
import ReplicaController.Settings
import Std.Time.DateTime.Timestamp

/-!
# The program

The settings come from the environment. The store begins with the workloads of the seed file, and
the worker ticks until the program is stopped from outside. Events are printed as they occur.
-/

namespace ReplicaController.Main

/-- The environment variables that are set, for a lookup without effects. -/
def environment : IO (String → Option String) := do
  let mut found : SortedMap String String := .empty
  for name in Settings.variableNames do
    if let some value ← IO.getEnv name then
      found := found.insert name value
  return found.find?

/-- The content of a file, absent if it cannot be read. -/
def content (path : String) : IO (Option ByteArray) :=
  try return some (← IO.FS.readBinFile path) catch _ => return none

def present : IO Instant := do
  let t ← Std.Time.Timestamp.now
  return (Instant.ofEpochNanos? t.toNanosecondsSinceUnixEpoch.val).getD .epoch

/-- The time since some fixed moment. -/
def elapsed : IO Span := return ⟨← IO.monoNanosNow⟩

def randomWord : IO UInt64 := do
  let bytes ← IO.getRandomBytes 8
  return bytes.toList.foldl (fun n b => 256 * n + b.toUInt64) 0

def freshSeed : IO DrawSeed := return ⟨← randomWord, ← randomWord⟩

/-- Give the world a new supply of draws, and let the clocks show the present moment for one tick:
passes over a store in memory take no time to speak of. -/
def supply (s : Worker.State (Journal World)) : IO (Worker.State (Journal World)) := do
  let seed ← freshSeed
  let now ← present
  let moment ← elapsed
  let world := { s.inner.state with
    draws := seed.draw now, drawn := 0, clock := fun _ => now, readings := 0 }
  return { s with
    clock := fun _ => moment
    readings := 0
    inner := { s.inner with state := world } }

/-- The longest sleep without a look at the clock, in milliseconds. -/
def longestSleep : Nat := 60000

partial def waitUntil (moment : Span) : IO Unit := do
  let now ← elapsed
  if now < moment then
    let millis := (moment.nanos - now.nanos) / 1000000 + 1
    IO.sleep (min millis longestSleep).toUInt32
    waitUntil moment

def print (settings : Settings) (events : List Event) : IO Unit := do
  let out ← IO.getStdout
  for e in events do
    if e.severity.isShown settings.logLevel then out.putStrLn e.text
  out.flush

partial def serve (settings : Settings) (alarms : Alarms) (s : Worker.State (Journal World)) :
    IO Unit := do
  let ((tick, moment), alarms) := alarms.next settings.workerPace
  waitUntil moment
  let (events, s) := Controller.tick World.backend settings.passConfig tick (← supply s)
  print settings events
  serve settings alarms s

def seedWorkloads (settings : Settings) : IO (Except Seed.Error (List Workload)) :=
  match settings.seedFile with
  | none => return .ok []
  | some path => return Seed.load path (← content path)

def fail (report : String) : IO UInt32 := do
  IO.eprintln ("Error: " ++ report)
  return 1

def run : IO UInt32 := do
  match Settings.ofLookup (← environment) with
  | .error e => fail e.report
  | .ok settings =>
    match ← seedWorkloads settings with
    | .error e => fail e.message
    | .ok workloads =>
      let now ← present
      let moment ← elapsed
      let world : World :=
        ⟨.ofCluster (.ofWorkloads workloads), (← freshSeed).draw now, 0, fun _ => now, 0⟩
      serve settings (.start moment) (Controller.start settings.workerPace (fun _ => moment) world)
      return 0

end ReplicaController.Main

def main : IO UInt32 := ReplicaController.Main.run
