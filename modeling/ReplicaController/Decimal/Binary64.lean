/-!
# Doubles as bits, and decimals scaled into them

A double is kept as its sixty-four bits, so that equality is equality of what is stored. A decimal
is taken in as a whole number of at most sixty-four bits and a power of ten, applied in double
arithmetic with one rounding for each factor; a result past the largest double is refused.
-/

namespace ReplicaController.Decimal

structure Binary64 where
  bits : UInt64
  deriving DecidableEq, Repr

namespace Binary64

def ofFloat (x : Float) : Binary64 := ⟨x.toBits⟩

def isNegative (x : Binary64) : Bool := x.bits >>> 63 == 1

/-- The mantissa and the power of two of a finite value without its sign. -/
def parts (x : Binary64) : Nat × Int :=
  let e := ((x.bits >>> 52) &&& 0x7FF).toNat
  let f := (x.bits &&& 0xFFFFFFFFFFFFF).toNat
  if e = 0 then (f, -1074) else (0x10000000000000 + f, (e : Int) - 1075)

/-- The value below is half as far away as the value above. -/
def narrowBelow (x : Binary64) : Bool :=
  (x.bits &&& 0xFFFFFFFFFFFFF) == 0 && ((x.bits >>> 52) &&& 0x7FF) > 1

end Binary64

/-- The largest power of ten that one factor may have. -/
def maxPower : Nat := 308

def powerOfTen (n : Nat) : Float := Float.ofScientific 1 false n

/-- Divide by the largest power until what is left is one factor or the value has run out. -/
def scaleDown (x : Float) (n : Nat) : Float :=
  if n ≤ maxPower then x / powerOfTen n
  else if x == 0 then x
  else scaleDown (x / powerOfTen maxPower) (n - maxPower)
termination_by n
decreasing_by simp only [maxPower] at *; omega

def scaleUp? (x : Float) (n : Nat) : Option Float :=
  if n ≤ maxPower then
    let y := x * powerOfTen n
    if y.isInf then none else some y
  else if x == 0 then some x
  else none

/-- The double for `significand * 10 ^ exponent`, with a minus sign if asked. -/
def scaled? (negative : Bool) (significand : Nat) (exponent : Int) : Option Binary64 :=
  let x := Float.ofScientific significand false 0
  let y? := match exponent with
    | .ofNat n => scaleUp? x n
    | .negSucc n => some (scaleDown x (n + 1))
  y?.map fun y => .ofFloat (if negative then -y else y)

end ReplicaController.Decimal
