import ReplicaController.Batch.Summary
import ReplicaController.Event
import ReplicaController.Store.Backend

/-!
# Operations of a batch

An operation creates an instance or deletes one. A slot holds its operation about to call the
store, inside a call, or finished. A creation whose name is taken calls again with a new draw, five
times at most; every other answer finishes the operation, with the event that it deserves.

`step` takes a slot one moment further, and `work` bounds the moments that are left.
-/

namespace ReplicaController.Batch

inductive Operation
  | create (stamp : Stamp)
  | delete (key : Key)

/-- The most calls that one creation makes. -/
def maxAttempts : Nat := 5

inductive Slot
  | calling (op : Operation) (attempt : Nat)
  | inside (op : Operation) (attempt : Nat) (call : Mutation)
  | finished (outcome : Answer Unit)

namespace Slot

def start (op : Operation) : Slot := .calling op 1

def isFinished : Slot → Bool
  | .finished _ => true
  | _ => false

def isInside : Slot → Bool
  | .inside .. => true
  | _ => false

def attempt : Slot → Nat
  | .calling _ n => n
  | .inside _ n _ => n
  | .finished _ => 0

def result : Slot → Result
  | .finished outcome => some outcome
  | _ => none

/-- A bound on the steps that the slot can still take. -/
def work : Slot → Nat
  | .calling _ n => 2 * (maxAttempts - n) + 2
  | .inside _ n _ => 2 * (maxAttempts - n) + 1
  | .finished _ => 0

/-- The slot after the answer to the call of its operation, and the events to record. -/
def answered (op : Operation) (attempt : Nat) (call : Mutation) (answer : Answer Unit) :
    Slot × List Event :=
  match call, answer with
  | .create i, .ok () => (.finished (.ok ()), [.created i.key])
  | .create i, .error e =>
    if e.isAlreadyExists ∧ attempt < maxAttempts then (.calling op (attempt + 1), [])
    else (.finished (.error e), [.createFailed i.key e])
  | .delete key, .ok () => (.finished (.ok ()), [.deleted key])
  | .delete key, .error e =>
    if e.isNotFound then (.finished (.error e), [])
    else (.finished (.error e), [.deleteFailed key e])

variable {σ : Type}

/-- The next call of an operation; a creation takes a draw. -/
def nextCall (B : Backend σ) (op : Operation) (s : σ) : Mutation × σ :=
  match op with
  | .create stamp =>
    let (d, s) := B.draw s
    (.create (stamp.build d), s)
  | .delete key => (.delete key, s)

def step (B : Backend σ) (slot : Slot) (s : σ) : (Slot × List Event) × σ :=
  match slot with
  | .calling op n =>
    let (call, s) := nextCall B op s
    match B.enter call s with
    | (.ok (), s) => ((.inside op n call, []), s)
    | (.error e, s) => (answered op n call (.error e), s)
  | .inside op n call =>
    let (answer, s) := B.leave call s
    (answered op n call answer, s)
  | .finished outcome => ((.finished outcome, []), s)

end Slot

end ReplicaController.Batch
