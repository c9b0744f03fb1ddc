import ReplicaController.Batch.Run
import ReplicaController.Pass.Outcome

/-!
# A pass over one workload

A pass fetches the workload, lists its instances, runs one batch of creates or deletes, lists again
if there was something to do, and commits the status if it changed. A failure to fetch, to parse the
selector, to list or to commit ends the pass. Failures inside the batch are reported, and the status
is that of what is there afterwards. When shutdown is seen before the batch is done, the pass ends
and leaves the operations that are under way to go on by themselves.
-/

namespace ReplicaController.Pass

/-- What a pass comes to, the events it recorded, and the operations it left under way. -/
structure Ending where
  result : Except Error Outcome
  events : List Event
  leftover : List Batch.Slot

def Ending.error (e : Error) : Ending := ⟨.error e, [], []⟩

/-- Whether a status was written, with the workload as it is stored. -/
inductive Commit
  | unchanged (w : Workload)
  | updated (w : Workload)

namespace Commit

def workload : Commit → Workload
  | .unchanged w => w
  | .updated w => w

def wasWritten : Commit → Bool
  | .unchanged _ => false
  | .updated _ => true

end Commit

variable {σ : Type}

/-- Write the counts as the status of the caller's copy, unless that says the same already. -/
def commit (B : Backend σ) (w : Workload) (counts : Counts) (s : σ) : Answer Commit × σ :=
  if counts.needsCommit w.status w.generation then
    match B.updateStatus { w with status := counts.toStatus w.generation } s with
    | (.ok stored, s) => (.ok (.updated stored), s)
    | (.error e, s) => (.error e, s)
  else (.ok (.unchanged w), s)

/-- The moment at which shutdown is seen: after so many steps of the batch. If every operation has
ended by then, it is seen before or after the last result is collected. -/
structure Halt where
  steps : Nat
  beforeCollection : Bool
  deriving DecidableEq, Repr

/-- In which order the operations of a batch go on, and when shutdown is seen, if at all. -/
structure Conditions where
  plan : Batch.Schedule
  halt : Option Halt

/-- What became of the adjustment. -/
inductive Action
  | applied (error : Option ReplicaError) (events : List Event)
  | cancelled (events : List Event) (leftover : List Batch.Slot)

/-- The error of a batch in which every operation came to its end. -/
def batchError (kind : Batch.Kind) (results : List Batch.Result) : Option ReplicaError :=
  match Batch.summarize kind results with
  | .ok _ => none
  | .error e => some (.batch e)

def runBatch (B : Backend σ) (c : Conditions) (kind : Batch.Kind) (ops : List Batch.Operation)
    (s : σ) : Action × σ :=
  let p := Batch.Progress.start ops
  match c.halt with
  | none =>
    let (p, s) := Batch.finish B c.plan p s
    (.applied (batchError kind p.results) p.events, s)
  | some halt =>
    let (p, s) := Batch.run B c.plan (min halt.steps p.work) p s
    if p.isFinished && (ops.isEmpty || !halt.beforeCollection) then
      (.applied (batchError kind p.results) p.events, s)
    else (.cancelled p.events p.slots, s)

/-- Create or delete instances as the adjustment asks. -/
def manage (B : Backend σ) (config : PassConfig) (c : Conditions) (w : Workload)
    (active : List Instance) (adjustment : Adjustment) (s : σ) : Action × σ :=
  match adjustment.kind with
  | .none => (.applied none [], s)
  | .create =>
    match Stamp.ofWorkload w with
    | .error e => (.applied (some (.owner e)) [], s)
    | .ok stamp => runBatch B c .create (List.replicate adjustment.amount (.create stamp)) s
  | .delete =>
    let victims := config.policy.select active adjustment.amount
    runBatch B c .delete (victims.map fun i => .delete i.key) s

/-- The adjustment of a workload; one that is being deleted has nothing to do. -/
def adjustmentOf (config : PassConfig) (w : Workload) (active : List Instance) : Adjustment :=
  if w.isBeingDeleted then .nothing
  else .between active.length w.spec.replicas.toNat config.burst

/-- The instances to count: those listed again, or the first listing if that cannot be had. -/
def observe (B : Backend σ) (w : Workload) (selector : Selector) (adjustment : Adjustment)
    (active : List Instance) (s : σ) : List Instance × σ :=
  if adjustment.isNone then (active, s)
  else
    match B.listInstances w.ns selector s with
    | (.ok listed, s) => (Instance.activeOwned w.uid listed, s)
    | (.error _, s) => (active, s)

/-- Count, commit and report. -/
def conclude (B : Backend σ) (key : Key) (w : Workload) (selector : Selector)
    (adjustment : Adjustment) (active : List Instance) (error : Option ReplicaError)
    (events : List Event) (s : σ) : Ending × σ :=
  let (observed, s) := observe B w selector adjustment active s
  let (now, s) := B.now s
  let counts := Counts.ofActive observed w.spec.minReadySeconds now
  match commit B w counts s with
  | (.error e, s) => (⟨.error (.commit key e), events, []⟩, s)
  | (.ok written, s) =>
    let report : Report := {
      adjustment
      skippedReplicaManagement := w.isBeingDeleted
      replicaError := error
      status := written.workload.status
      statusWritten := written.wasWritten
      convergence := .evaluate w.spec.replicas counts error.isSome }
    (⟨.ok (.reconciled report), events, []⟩, s)

/-- Everything from the first listing on. -/
def act (B : Backend σ) (config : PassConfig) (c : Conditions) (key : Key) (w : Workload)
    (selector : Selector) (listed : List Instance) (s : σ) : Ending × σ :=
  let active := Instance.activeOwned w.uid listed
  let adjustment := adjustmentOf config w active
  match manage B config c w active adjustment s with
  | (.cancelled events leftover, s) => (⟨.error (.cancelled w.key), events, leftover⟩, s)
  | (.applied error events, s) => conclude B key w selector adjustment active error events s

def run (B : Backend σ) (config : PassConfig) (c : Conditions) (key : Key) (s : σ) : Ending × σ :=
  match B.getWorkload key s with
  | (.error e, s) =>
    if e.isNotFound then (⟨.ok .workloadGone, [], []⟩, s) else (.error (.fetch key e), s)
  | (.ok w, s) =>
    match w.spec.selector.parse with
    | .error e => (.error (.selector key e), s)
    | .ok selector =>
      match B.listInstances w.ns selector s with
      | (.error e, s) => (.error (.list key e), s)
      | (.ok listed, s) => act B config c key w selector listed s

end ReplicaController.Pass
