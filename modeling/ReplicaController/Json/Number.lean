import ReplicaController.Json.Basic
import ReplicaController.Text.Numeral

/-!
# Numbers of a document

A number without fraction and exponent that fits sixty-four bits, signed or unsigned, is an
integer; every other number is a double, and so is minus zero. The double is made from as many
leading digits as fit sixty-four bits.
-/

namespace ReplicaController.Json

open Text (isDigit digitValue decimalValue)

/-- The parts of a written number: sign, whole digits, fraction digits, exponent. -/
structure Numeral where
  negative : Bool
  whole : List Char
  fraction : List Char
  exponent : Option Int

def wholePart? (cs : List Char) : Option (List Char × List Char) :=
  match cs.takeWhile isDigit with
  | [] => none
  | '0' :: _ :: _ => none
  | digits => some (digits, cs.dropWhile isDigit)

def fractionPart? : List Char → Option (List Char × List Char)
  | '.' :: cs =>
    match cs.takeWhile isDigit with
    | [] => none
    | digits => some (digits, cs.dropWhile isDigit)
  | cs => some ([], cs)

def exponentSign : List Char → Bool × List Char
  | '+' :: cs => (false, cs)
  | '-' :: cs => (true, cs)
  | cs => (false, cs)

def exponentPart? : List Char → Option (Option Int)
  | [] => some none
  | c :: cs =>
    if c = 'e' ∨ c = 'E' then
      let (negative, digits) := exponentSign cs
      if digits.isEmpty || !digits.all isDigit then none
      else
        let n : Int := decimalValue digits
        some (some (if negative then -n else n))
    else none

def Numeral.ofChars? (cs : List Char) : Option Numeral :=
  let (negative, cs) := match cs with
    | '-' :: cs => (true, cs)
    | cs => (false, cs)
  match wholePart? cs with
  | none => none
  | some (whole, cs) =>
    match fractionPart? cs with
    | none => none
    | some (fraction, cs) => (exponentPart? cs).map fun e => ⟨negative, whole, fraction, e⟩

/-- One above the largest unsigned integer of sixty-four bits. -/
def wordLimit : Nat := UInt64.size

/-- Take whole digits while the value fits a word; the digits left out are counted. -/
def takeWhole (n : Nat) : List Char → Nat × Nat
  | [] => (n, 0)
  | c :: cs =>
    let next := 10 * n + digitValue c
    if next < wordLimit then takeWhole next cs else (n, cs.length + 1)

/-- Take fraction digits while the value fits a word; the digits taken are counted. -/
def takeFraction (n : Nat) : List Char → Nat × Nat
  | [] => (n, 0)
  | c :: cs =>
    let next := 10 * n + digitValue c
    if next < wordLimit then
      let (m, taken) := takeFraction next cs
      (m, taken + 1)
    else (n, 0)

def Numeral.double? (x : Numeral) : Option Decimal.Binary64 :=
  let (n, left) := takeWhole 0 x.whole
  let (m, taken) := takeFraction n x.fraction
  Decimal.scaled? x.negative m ((left : Int) - taken + x.exponent.getD 0)

/-- The least signed integer of sixty-four bits is this far below zero. -/
def lowest : Nat := 0x8000000000000000

def Numeral.integer? (x : Numeral) : Option Int :=
  if x.fraction.isEmpty && x.exponent.isNone then
    let n := decimalValue x.whole
    if x.negative then
      if 0 < n ∧ n ≤ lowest then some (-(n : Int)) else none
    else
      if n < wordLimit then some n else none
  else none

def Numeral.toJson (x : Numeral) : Json :=
  match x.integer? with
  | some n => .int n
  | none =>
    match x.double? with
    | some d => .double d
    | none => .unreadable

end ReplicaController.Json
