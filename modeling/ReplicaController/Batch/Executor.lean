import ReplicaController.Batch.Summary

/-!
# The executor of a batch

The executor invokes the operation of each slot in turn and then waits. Operations come to their end
in any order, by an answer or by breaking off, and some never; the executor collects what has ended
in any order and keeps each answer in its slot. It returns the summary once everything is collected,
or that the batch is cancelled once shutdown has been raised. Operations that are still under way
then go on by themselves.
-/

namespace ReplicaController.Batch

/-- What an operation comes to if it is left alone. -/
inductive Fate
  | answers (answer : Answer Unit)
  | breaksOff
  | hangs

def Fate.canEnd : Fate → Bool
  | .hangs => false
  | _ => true

/-- What is collected of an operation that has ended; one that broke off leaves nothing. -/
def Fate.result : Fate → Result
  | .answers a => some a
  | _ => none

inductive Stage
  | waiting
  | invoked
  | ended
  | collected
  deriving DecidableEq, Repr

structure Task where
  fate : Fate
  stage : Stage

/-- Each slot has its task, and a place for the result that is collected from it. -/
structure Executor where
  kind : Kind
  tasks : List Task
  results : List Result
  raised : Bool
  dropped : Bool
  returned : Option (Except Error Summary)

namespace Executor

inductive Event
  | invoke (slot : Nat)
  | finish (slot : Nat)
  | collect (slot : Nat)
  | raise
  | drop
  | cancel
  | complete
  deriving DecidableEq, Repr

/-- An empty batch has returned before anything can happen. -/
def start (kind : Kind) (fates : List Fate) : Executor where
  kind
  tasks := fates.map fun f => ⟨f, .waiting⟩
  results := fates.map fun _ => none
  raised := false
  dropped := false
  returned := if fates.isEmpty then some (.ok ⟨0, 0, 0⟩) else none

def allInvoked (x : Executor) : Bool := x.tasks.all fun t => t.stage != .waiting

/-- The results that have been collected. -/
def completed (x : Executor) : Nat := x.results.countP (·.isSome)

/-- The operations that have come to an end, collected or not. -/
def finished (x : Executor) : Nat :=
  x.tasks.countP fun t => t.stage == .ended || t.stage == .collected

/-- The results with one more in its slot. -/
def put (results : List Result) (slot : Nat) : Result → List Result
  | some a => results.set slot (some a)
  | none => results

/-- Move the task of a slot from one stage to the next, if it is there. -/
def advance (x : Executor) (slot : Nat) (here there : Stage) : Option Executor :=
  match x.tasks[slot]? with
  | some t =>
    if t.stage = here then some { x with tasks := x.tasks.set slot { t with stage := there } }
    else none
  | none => none

/-- Collect the task of a slot that has ended, and keep the answer if there is one. -/
def collect (x : Executor) (slot : Nat) : Option Executor :=
  match x.tasks[slot]? with
  | some t =>
    (x.advance slot .ended .collected).map fun y =>
      { y with results := put x.results slot t.fate.result }
  | none => none

/-- What happens at an event; nothing if the event cannot happen. -/
def step (x : Executor) (e : Event) : Option Executor :=
  match e with
  | .invoke slot =>
    if (x.tasks.take slot).all (fun t => t.stage != .waiting) then x.advance slot .waiting .invoked
    else none
  | .finish slot =>
    if (x.tasks[slot]?).any (·.fate.canEnd) then x.advance slot .invoked .ended else none
  | .collect slot =>
    if x.allInvoked && x.returned.isNone then x.collect slot else none
  | .raise => if x.dropped then none else some { x with raised := true }
  | .drop => some { x with dropped := true }
  | .cancel =>
    if x.allInvoked && x.returned.isNone && x.raised then
      some { x with returned := some (.error (.cancelled x.kind x.tasks.length x.completed)) }
    else none
  | .complete =>
    if x.returned.isNone && x.tasks.all (·.stage == .collected) then
      some { x with returned := some (summarize x.kind x.results) }
    else none

def run (x : Executor) (events : List Event) : Option Executor := events.foldlM step x

/-- When shutdown is raised, if at all. -/
inductive Shutdown
  | never
  | before
  | idle
  | dropped
  deriving DecidableEq, Repr

def invocations (fates : List Fate) : List Event := (List.range fates.length).map .invoke

/-- The slots whose operations can end. -/
def endable (fates : List Fate) : List Nat :=
  fates.zipIdx.filterMap fun f => if f.1.canEnd then some f.2 else none

def settlement (fates : List Fate) : List Event := (endable fates).map .finish

def collection (fates : List Fate) : List Event := (endable fates).map .collect

/-- The events of a batch in slot order, up to the moment when everything is quiet. -/
def history (shutdown : Shutdown) (fates : List Fate) : List Event :=
  let quiet := invocations fates ++ settlement fates ++ collection fates
  if fates.isEmpty then []
  else match shutdown with
    | .never => quiet ++ if fates.all (·.canEnd) then [.complete] else []
    | .dropped => .drop :: quiet ++ if fates.all (·.canEnd) then [.complete] else []
    | .before => .raise :: invocations fates ++ .cancel :: settlement fates
    | .idle => quiet ++ if fates.all (·.canEnd) then [.complete, .raise] else [.raise, .cancel]

end Executor

end ReplicaController.Batch
