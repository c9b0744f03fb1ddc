import ReplicaController.Worker.Backoff
import ReplicaController.Pass.Run

/-!
# The worker

The worker makes one pass at a time. A resync passes over every workload that is listed, in key
order, and forgets the failures of all others. A retry passes over the keys whose retry is due. A
failed pass is recorded for a retry under the text of its key, as of the moment at which it failed.
Any other outcome clears the record, and a pass that is stopped or cancelled ends the round and
leaves the records alone.
-/

namespace ReplicaController

/-- How often the worker does what, and how long a failed workload waits. -/
structure WorkerPace where
  resyncInterval : Span
  requeueTick : Span
  requeueBase : Span
  requeueCeiling : Span
  deriving DecidableEq, Repr

/-- What the passes of a round came to. -/
structure RoundTally where
  reconciled : Nat
  gone : Nat
  requeued : Nat
  deriving DecidableEq, Repr, Inhabited

namespace Worker

def defaultResync : Span := .ofSecs 30

def defaultPace : WorkerPace :=
  ⟨defaultResync, .ofMillis 250, Backoff.defaultBase, Backoff.defaultCeiling⟩

/-- A pass that shutdown stopped, or one that came to its end. -/
inductive Attempt
  | stopped
  | ended (result : Except Pass.Error Pass.Outcome)

/-- What a worker works with: a listing, and passes over single workloads. -/
structure Duty (σ : Type) where
  list : σ → Answer (List Workload) × σ
  pass : Key → σ → Attempt × σ

inductive Triggered
  | reconciled
  | gone
  | requeued
  | stopped
  deriving DecidableEq, Repr

/-- The failure records, the clock with the number of its readings so far, and the state that passes
work on. -/
structure State (σ : Type) where
  backoff : Backoff
  clock : Nat → Span
  readings : Nat
  inner : σ

variable {σ : Type}

namespace State

/-- Read the clock. -/
def now (s : State σ) : Span × State σ :=
  (s.clock s.readings, { s with readings := s.readings + 1 })

def clear (text : String) (s : State σ) : State σ := { s with backoff := s.backoff.clear text }

/-- Record a failure as of the moment at which it has become known. -/
def recordFailure (key : Key) (s : State σ) : State σ :=
  let (now, s) := s.now
  { s with backoff := (s.backoff.recordFailure key.text now).2 }

end State

/-- What an attempt counts as, and the failure records after it. -/
def settle (key : Key) (s : State σ) : Attempt → Triggered × State σ
  | .stopped => (.stopped, s)
  | .ended (.ok .workloadGone) => (.gone, s.clear key.text)
  | .ended (.ok (.reconciled _)) => (.reconciled, s.clear key.text)
  | .ended (.error (.cancelled _)) => (.stopped, s)
  | .ended (.error _) => (.requeued, s.recordFailure key)

def count (tally : RoundTally) : Triggered → RoundTally
  | .reconciled => { tally with reconciled := tally.reconciled + 1 }
  | .gone => { tally with gone := tally.gone + 1 }
  | .requeued => { tally with requeued := tally.requeued + 1 }
  | .stopped => tally

def trigger (d : Duty σ) (key : Key) (s : State σ) : Triggered × State σ :=
  let (attempt, inner) := d.pass key s.inner
  settle key { s with inner } attempt

/-- Pass over the keys in turn, until one pass is stopped. -/
def round (d : Duty σ) : List Key → RoundTally → State σ → RoundTally × State σ
  | [], tally, s => (tally, s)
  | key :: keys, tally, s =>
    match trigger d key s with
    | (.stopped, s) => (tally, s)
    | (t, s) => round d keys (count tally t) s

def noPasses : RoundTally := ⟨0, 0, 0⟩

/-- The keys of the listed workloads in key order. -/
def sortedKeys (ws : List Workload) : List Key :=
  (ws.map Workload.key).mergeSort fun a b => compare a b != .gt

/-- Forget the failures of all other keys. -/
def State.keepOnly (keys : List Key) (s : State σ) : State σ :=
  { s with backoff := s.backoff.retain fun text => keys.any fun k => k.text == text }

def resync (d : Duty σ) (s : State σ) : RoundTally × State σ :=
  match d.list s.inner with
  | (.error _, inner) => (noPasses, { s with inner })
  | (.ok ws, inner) =>
    let keys := sortedKeys ws
    round d keys noPasses ({ s with inner }.keepOnly keys)

/-- Pass over the keys with these texts in turn; a text that is no key is forgotten. -/
def retryRound (d : Duty σ) : List String → RoundTally → State σ → RoundTally × State σ
  | [], tally, s => (tally, s)
  | text :: texts, tally, s =>
    match Key.parse text with
    | .error _ => retryRound d texts tally (s.clear text)
    | .ok key =>
      match trigger d key s with
      | (.stopped, s) => (tally, s)
      | (t, s) => retryRound d texts (count tally t) s

/-- What is due is settled by one look at the clock, however long the passes take. -/
def retryDue (d : Duty σ) (s : State σ) : RoundTally × State σ :=
  let (now, s) := s.now
  retryRound d (s.backoff.due now) noPasses s

def failures (s : State σ) (key : Key) : UInt32 := s.backoff.failureCount key.text

/-- A worker whose clock shows these moments, one at each reading. -/
def start (pace : WorkerPace) (clock : Nat → Span) (inner : σ) : State σ :=
  ⟨.new pace.requeueBase pace.requeueCeiling, clock, 0, inner⟩

end Worker

end ReplicaController
