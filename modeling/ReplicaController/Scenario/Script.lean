import ReplicaController.Scenario.Alias
import ReplicaController.Store.Backend

/-!
# Scripted stores

A scene is the store in memory with a log of the calls that the controller makes, and with a script
of what happens before the `n`-th call of a kind: other writers change the cluster, and then the
call may be refused without reaching the store.
-/

namespace ReplicaController.Scenario

inductive CallKind
  | get
  | listWorkloads
  | list
  | create
  | delete
  | updateStatus
  deriving DecidableEq, Repr

def CallKind.text : CallKind → String
  | .get => "get"
  | .listWorkloads => "list_workloads"
  | .list => "list"
  | .create => "create"
  | .delete => "delete"
  | .updateStatus => "update_status"

inductive Call
  | get (key : Key)
  | listWorkloads
  | list (ns : String) (selector : Selector)
  | create (i : Instance)
  | delete (key : Key)
  | updateStatus (w : Workload)

def Call.kind : Call → CallKind
  | .get _ => .get
  | .listWorkloads => .listWorkloads
  | .list _ _ => .list
  | .create _ => .create
  | .delete _ => .delete
  | .updateStatus _ => .updateStatus

/-- What another writer does to the cluster. -/
inductive Intervention
  | removeInstance (key : Key)
  | putWorkload (w : Workload)
  | removeWorkload (key : Key)
  | putInstance (i : Instance)

structure Rule where
  call : CallKind
  nth : Nat
  interventions : List Intervention
  error : Option StoreError

structure Scene where
  world : World
  log : Array Call
  /-- The names that creations came with, the first one first. -/
  generated : Array String
  rules : List Rule
  /-- The kinds of the calls since the rules were set. -/
  seen : List CallKind

namespace Scene

def cluster (s : Scene) : Cluster := s.world.store.cluster

def onStore {α : Type} (f : Store → α × Store) (s : Scene) : α × Scene :=
  let (a, world) := s.world.onStore f
  (a, { s with world })

def onCluster (f : Cluster → Cluster) (s : Scene) : Scene :=
  (s.onStore fun store => ((), { store with cluster := f store.cluster })).2

def intervene (s : Scene) : Intervention → Scene
  | .removeInstance key => (s.onStore (Store.deleteInstance (meantKey s.generated key))).2
  | .putWorkload w => s.onCluster (·.putWorkload w)
  | .removeWorkload key => s.onCluster (·.removeWorkload key)
  | .putInstance i => s.onCluster (·.putInstance i)

/-- Follow the rules for this call, up to the first that refuses it. -/
def follow : List Rule → Scene → Option StoreError × Scene
  | [], s => (none, s)
  | r :: rules, s =>
    let s := r.interventions.foldl intervene s
    match r.error with
    | some e => (some e, s)
    | none => follow rules s

def noteName (call : Call) (s : Scene) : Scene :=
  match call with
  | .create i => { s with generated := s.generated.push i.name }
  | _ => s

/-- Log a call and do what the script says about it. -/
def observe (call : Call) (s : Scene) : Option StoreError × Scene :=
  let seen := call.kind :: s.seen
  let nth := seen.count call.kind
  let s := noteName call { s with log := s.log.push call, seen }
  follow (s.rules.filter fun r => r.call == call.kind && r.nth == nth) s

/-- Make a call that is logged and may be refused. -/
def guarded {α : Type} (call : Call) (f : World → Answer α × World) (s : Scene) :
    Answer α × Scene :=
  match s.observe call with
  | (some e, s) => (.error e, s)
  | (none, s) =>
    let (a, world) := f s.world
    (a, { s with world })

def callOf : Mutation → Call
  | .create i => .create i
  | .delete key => .delete key

def backend : Backend Scene where
  getWorkload key := guarded (.get key) (World.backend.getWorkload key)
  listWorkloads := guarded .listWorkloads World.backend.listWorkloads
  listInstances ns selector :=
    guarded (.list ns selector) (World.backend.listInstances ns selector)
  enter m := guarded (callOf m) (World.backend.enter m)
  leave m s :=
    let (a, world) := World.backend.leave m s.world
    (a, { s with world })
  updateStatus w := guarded (.updateStatus w) (World.backend.updateStatus w)
  draw s :=
    let (d, world) := s.world.draw
    (d, { s with world })
  now s :=
    let (t, world) := s.world.now
    (t, { s with world })

end Scene

end ReplicaController.Scenario
