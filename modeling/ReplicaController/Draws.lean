import ReplicaController.Stamp

/-!
# Draws from a seed

A seed of two words gives a draw for every number. The words of a draw come from a counter that is
mixed so that each of its bits reaches every bit of the word. All steps of the mixing can be undone,
so the words that one seed gives for different counters differ.
-/

namespace ReplicaController

structure DrawSeed where
  high : UInt64
  low : UInt64
  deriving DecidableEq, Repr

namespace DrawSeed

def mix (z : UInt64) : UInt64 :=
  let z := (z ^^^ (z >>> 30)) * 0xBF58476D1CE4E5B9
  let z := (z ^^^ (z >>> 27)) * 0x94D049BB133111EB
  z ^^^ (z >>> 31)

/-- The distance of the counters in the space of words. -/
def stride : UInt64 := 0x9E3779B97F4A7C15

def word (seed : UInt64) (n : Nat) : UInt64 := mix (seed + .ofNat n * stride)

/-- One hundred and twenty-eight bits. -/
def bits (s : DrawSeed) (n : Nat) : Nat :=
  (word s.high n).toNat * UInt64.size + (word s.low n).toNat

def uid (s : DrawSeed) (n : Nat) : Uid := .ofRandom (.ofNat 128 (s.bits n))

/-- The uid of an instance and, for its name, the number of another. -/
def draw (s : DrawSeed) (created : Instant) (n : Nat) : Draw where
  uid := s.uid (2 * n)
  suffix := (s.uid (2 * n + 1)).bits.toNat
  created

end DrawSeed

end ReplicaController
