import ReplicaController.SortedMap
import ReplicaController.Span

/-!
# Backoff of retries

Each key that failed has a count of its failures in a row and the moment at which its retry is due.
The delay doubles with every failure from the base up to the ceiling. Moments are read from a clock
that only moves forward, as the span since its start.
-/

namespace ReplicaController

structure Failure where
  count : UInt32
  due : Span
  deriving DecidableEq, Repr

structure Backoff where
  base : Span
  ceiling : Span
  failures : SortedMap String Failure
  deriving DecidableEq

namespace Backoff

def defaultBase : Span := .ofMillis 500

def defaultCeiling : Span := .ofSecs 300

/-- The longest delay, whatever the ceiling. -/
def longest : Span := .ofSecs 86400

def new (base ceiling : Span) : Backoff :=
  let base := min base longest
  ⟨base, min (max ceiling base) longest, .empty⟩

/-- The delay doubles at most this many times. -/
def maxDoublings : Nat := 31

def delay (b : Backoff) (count : UInt32) : Span :=
  min (b.base.scale (Nat.pow 2 (min (count.toNat - 1) maxDoublings))) b.ceiling

def failureCount (b : Backoff) (key : String) : UInt32 :=
  match b.failures.find? key with
  | some f => f.count
  | none => 0

/-- One more, or the largest count there is. -/
def nextCount (n : UInt32) : UInt32 := if n = 0xFFFFFFFF then n else n + 1

/-- Record a failure at `now`, and the delay until its retry is due. -/
def recordFailure (b : Backoff) (key : String) (now : Span) : Span × Backoff :=
  let count := nextCount (b.failureCount key)
  let d := b.delay count
  (d, { b with failures := b.failures.insert key ⟨count, now + d⟩ })

/-- The keys whose retry is due, in their order. -/
def due (b : Backoff) (now : Span) : List String :=
  (b.failures.filter fun _ f => f.due ≤ now).keys

def clear (b : Backoff) (key : String) : Backoff := { b with failures := b.failures.erase key }

def retain (b : Backoff) (keep : String → Bool) : Backoff :=
  { b with failures := b.failures.filter fun k _ => keep k }

end Backoff

end ReplicaController
