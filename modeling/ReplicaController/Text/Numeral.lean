/-!
# Unsigned decimal numerals

A number is written as its ASCII digits. A numeral of a limited size is read as an optional plus
sign and digits, from the left, and the first character at fault decides: one that is no digit, or a
digit that lifts the value to the limit.
-/

namespace ReplicaController.Text

inductive NumeralError
  | empty
  | invalidDigit
  | tooLarge
  deriving DecidableEq, Repr

def NumeralError.message : NumeralError → String
  | .empty => "cannot parse integer from empty string"
  | .invalidDigit => "invalid digit found in string"
  | .tooLarge => "number too large to fit in target type"

def isDigit (c : Char) : Bool := '0' ≤ c && c ≤ '9'

def digitValue (c : Char) : Nat := c.toNat - '0'.toNat

/-- The value of decimal digits, the first of them the most significant. -/
def decimalValue (digits : List Char) : Nat :=
  digits.foldl (fun n c => 10 * n + digitValue c) 0

def natDigits (n : Nat) : List Char := Nat.toDigits 10 n

def zeros (n : Nat) : List Char := List.replicate n '0'

/-- The digits of a number behind zeros, `width` characters if they are enough. -/
def padded (width n : Nat) : List Char :=
  let digits := natDigits n
  zeros (width - digits.length) ++ digits

def dropPlus : List Char → List Char
  | '+' :: cs => cs
  | cs => cs

def scanDigits (limit : Nat) : Nat → List Char → Except NumeralError Nat
  | n, [] => .ok n
  | n, c :: cs =>
    if isDigit c then
      let next := 10 * n + digitValue c
      if next < limit then scanDigits limit next cs else .error .tooLarge
    else .error .invalidDigit

def readNumeral (limit : Nat) (cs : List Char) : Except NumeralError Nat :=
  match cs with
  | [] => .error .empty
  | _ :: _ =>
    match dropPlus cs with
    | [] => .error .invalidDigit
    | digits => scanDigits limit 0 digits

end ReplicaController.Text
