import ReplicaController.Text.Numeral

/-!
# Spans of time

A span is a whole number of nanoseconds. Its text is in the largest unit that leaves a whole part,
seconds, milli-, micro- or nanoseconds, with the fraction cut after its last digit that counts.
-/

namespace ReplicaController

structure Span where
  nanos : Nat
  deriving DecidableEq, Repr, Inhabited

namespace Span

instance : LE Span := ⟨fun a b => a.nanos ≤ b.nanos⟩

instance : LT Span := ⟨fun a b => a.nanos < b.nanos⟩

instance (a b : Span) : Decidable (a ≤ b) := inferInstanceAs (Decidable (a.nanos ≤ b.nanos))

instance (a b : Span) : Decidable (a < b) := inferInstanceAs (Decidable (a.nanos < b.nanos))

instance : Min Span := ⟨fun a b => ⟨min a.nanos b.nanos⟩⟩

instance : Max Span := ⟨fun a b => ⟨max a.nanos b.nanos⟩⟩

instance : Add Span := ⟨fun a b => ⟨a.nanos + b.nanos⟩⟩

def zero : Span := ⟨0⟩

def ofSecs (n : Nat) : Span := ⟨n * 1000000000⟩

def ofMillis (n : Nat) : Span := ⟨n * 1000000⟩

def wholeSecs (s : Span) : Nat := s.nanos / 1000000000

def subsecNanos (s : Span) : Nat := s.nanos % 1000000000

def scale (s : Span) (n : Nat) : Span := ⟨s.nanos * n⟩

/-- The fraction `part / 10 ^ places` behind its point, or nothing if it is zero. -/
def fractionText (part places : Nat) : List Char :=
  if part = 0 then []
  else '.' :: ((Text.padded places part).reverse.dropWhile (· == '0')).reverse

def inUnit (nanos places : Nat) (unit : String) : String :=
  let whole := Text.natDigits (nanos / Nat.pow 10 places)
  String.ofList (whole ++ fractionText (nanos % Nat.pow 10 places) places) ++ unit

def text (s : Span) : String :=
  if 1000000000 ≤ s.nanos then inUnit s.nanos 9 "s"
  else if 1000000 ≤ s.nanos then inUnit s.nanos 6 "ms"
  else if 1000 ≤ s.nanos then inUnit s.nanos 3 "µs"
  else inUnit s.nanos 0 "ns"

end Span

end ReplicaController
