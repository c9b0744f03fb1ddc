import ReplicaController.Decimal.Binary64
import ReplicaController.Text.Numeral

/-!
# The fewest digits that read back

A finite double stands for the interval of reals that round to it. `shortest` looks for a point of
the coarsest decimal grid in that interval, trying the two neighbours of the value on each grid and
taking the nearer one, the even one if both are equally near. `text` lays the digits out:
positionally with a point for values from `10⁻⁵` up to `10¹⁶`, and with an exponent beyond.
-/

namespace ReplicaController.Decimal

open Text (natDigits zeros)

/-- The decimal `digits * 10 ^ exponent`. -/
structure Digits where
  digits : Nat
  exponent : Int
  deriving DecidableEq, Repr

def tens (n : Nat) : Nat := Nat.pow 10 n

def twos (n : Nat) : Nat := Nat.pow 2 n

/-- Compare `a * 10 ^ i` with `n * 2 ^ j`. -/
def compareScaled (a : Nat) (i : Int) (n : Nat) (j : Int) : Ordering :=
  compare (a * tens i.toNat * twos (-j).toNat) (n * twos j.toNat * tens (-i).toNat)

/-- The decimal lies among the reals that round to the value, ends included for an even mantissa. -/
def readsBack (x : Binary64) (d : Digits) : Bool :=
  let (m, q) := x.parts
  let low := compareScaled d.digits d.exponent (4 * m - if x.narrowBelow then 1 else 2) (q - 2)
  let high := compareScaled d.digits d.exponent (4 * m + 2) (q - 2)
  let closed := m % 2 == 0
  (low == .gt || closed && low == .eq) && (high == .lt || closed && high == .eq)

/-- A power of ten that lifts every positive double above one. -/
def lift : Nat := 330

/-- The least `k` with the value below `10 ^ k`. -/
def magnitude (x : Binary64) : Int :=
  let (m, q) := x.parts
  ((natDigits (m * twos q.toNat * tens lift / twos (-q).toNat)).length : Int) - lift

/-- The neighbour on the grid of `n` leading digits that reads back, the nearer one if both do. -/
def onGrid? (x : Binary64) (n : Nat) : Option Digits :=
  let (m, q) := x.parts
  let g := magnitude x - n
  let num := m * twos q.toNat * tens (-g).toNat
  let den := twos (-q).toNat * tens g.toNat
  let low : Digits := ⟨num / den, g⟩
  let high : Digits := ⟨num / den + 1, g⟩
  match readsBack x low, readsBack x high with
  | false, false => none
  | true, false => some low
  | false, true => some high
  | true, true =>
    match compare (2 * num) ((2 * (num / den) + 1) * den) with
    | .lt => some low
    | .gt => some high
    | .eq => some (if low.digits % 2 = 0 then low else high)

def exact (x : Binary64) : Digits :=
  let (m, q) := x.parts
  ⟨m * twos q.toNat * Nat.pow 5 (-q).toNat, if q < 0 then q else 0⟩

def shortest (x : Binary64) : Digits :=
  ((List.range' 1 17).findSome? (onGrid? x)).getD (exact x)

/-- Digits without trailing zeros, and the place of the point counted from the first digit. -/
def Digits.layout (d : Digits) : List Char × Int :=
  let cs := natDigits d.digits
  let kept := (cs.reverse.dropWhile (· == '0')).reverse
  (kept, cs.length + d.exponent)

def layoutText (digits : List Char) (point : Int) : List Char :=
  if 0 < point ∧ point ≤ 16 then
    let p := point.toNat
    if digits.length ≤ p then digits ++ zeros (p - digits.length) ++ ['.', '0']
    else digits.take p ++ '.' :: digits.drop p
  else if -5 < point ∧ point ≤ 0 then
    ['0', '.'] ++ zeros (-point).toNat ++ digits
  else
    let e := point - 1
    let exponent := (if e < 0 then ['-'] else []) ++ natDigits e.natAbs
    match digits with
    | [d] => d :: 'e' :: exponent
    | d :: ds => d :: '.' :: ds ++ 'e' :: exponent
    | [] => []

/-- The text of a finite double. -/
def text (x : Binary64) : String :=
  let body :=
    if x.parts.1 = 0 then ['0', '.', '0']
    else
      let (digits, point) := (shortest x).layout
      layoutText digits point
  String.ofList (if x.isNegative then '-' :: body else body)

end ReplicaController.Decimal
