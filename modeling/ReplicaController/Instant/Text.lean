import ReplicaController.Instant.Basic
import ReplicaController.Text.Blank
import ReplicaController.Text.Numeral

/-!
# The text of an instant

An instant is written as date, `T`, time and `Z`, with a sign before years of other than four
digits and with no fraction, milli-, micro- or nanoseconds, whichever is exact first. It is read
with one or two digits in each part but the year, blanks between the parts, `T`, `t` or a blank
before the time, and a zone: `Z`, `UTC` in any case, or hours and minutes ahead of it.
-/

namespace ReplicaController.Instant

open Text (isDigit decimalValue padded trimStart isBlank)

def yearText (y : Int) : List Char :=
  if 0 ≤ y ∧ y ≤ 9999 then padded 4 y.toNat
  else (if y < 0 then '-' else '+') :: padded 4 y.natAbs

def fractionText (nano : Nat) : List Char :=
  if nano = 0 then []
  else if nano % 1000000 = 0 then '.' :: padded 3 (nano / 1000000)
  else if nano % 1000 = 0 then '.' :: padded 6 (nano / 1000)
  else '.' :: padded 9 nano

def text (t : Instant) : String :=
  let d := Date.ofDay t.day
  let second := t.second % 60 + t.nano / 1000000000
  String.ofList (yearText d.year ++ '-' :: padded 2 d.month ++ '-' :: padded 2 d.day ++ 'T' ::
    padded 2 (t.second / 3600) ++ ':' :: padded 2 (t.second / 60 % 60) ++ ':' :: padded 2 second ++
    fractionText (t.nano % 1000000000) ++ ['Z'])

/-- At least one and at most `width` digits. -/
def number? (width : Nat) (cs : List Char) : Option (Nat × List Char) :=
  match (cs.take width).takeWhile isDigit with
  | [] => none
  | digits => some (decimalValue digits, cs.drop digits.length)

/-- One above the largest year that can be read. -/
def yearLimit : Nat := 0x8000000000000000

/-- Digits without a limit on their number. -/
def signedYear? (cs : List Char) : Option (Nat × List Char) :=
  match number? cs.length cs with
  | some (n, rest) => if n < yearLimit then some (n, rest) else none
  | none => none

def year? (cs : List Char) : Option (Int × List Char) :=
  match trimStart cs with
  | '-' :: cs => (signedYear? cs).map fun r => (-(r.1 : Int), r.2)
  | '+' :: cs => (signedYear? cs).map fun r => ((r.1 : Int), r.2)
  | cs => (number? 4 cs).map fun r => ((r.1 : Int), r.2)

/-- A part of at most two digits, with blanks before it. -/
def part? (cs : List Char) : Option (Nat × List Char) := number? 2 (trimStart cs)

/-- A mark with blanks before it. -/
def mark? (c : Char) (cs : List Char) : Option (List Char) :=
  match trimStart cs with
  | d :: ds => if d = c then some ds else none
  | [] => none

def date? (cs : List Char) : Option (Date × List Char) := do
  let (year, cs) ← year? cs
  let cs ← mark? '-' cs
  let (month, cs) ← part? cs
  let cs ← mark? '-' cs
  let (day, cs) ← part? cs
  some (⟨year, month, day⟩, cs)

/-- Digits behind a point, as nanoseconds; digits past the ninth are passed over. -/
def fraction? : List Char → Option (Nat × List Char)
  | '.' :: cs =>
    match (cs.take 9).takeWhile isDigit with
    | [] => none
    | digits => some (decimalValue digits * Nat.pow 10 (9 - digits.length), cs.dropWhile isDigit)
  | cs => some (0, cs)

/-- Second of the day and nanosecond; second sixty is a leap second. -/
def time? (cs : List Char) : Option ((Nat × Nat) × List Char) := do
  let (hour, cs) ← part? cs
  let cs ← mark? ':' cs
  let (minute, cs) ← part? cs
  let cs ← mark? ':' cs
  let (second, cs) ← part? cs
  let (nano, cs) ← fraction? cs
  if hour < 24 ∧ minute < 60 ∧ second ≤ 60 then
    let whole := hour * 3600 + minute * 60
    if second = 60 then some ((whole + 59, nano + 1000000000), cs)
    else some ((whole + second, nano), cs)
  else none

def twoDigits? : List Char → Option (Nat × List Char)
  | a :: b :: cs =>
    if isDigit a && isDigit b then some (decimalValue [a, b], cs) else none
  | _ => none

/-- Seconds ahead of universal time, less than a day. -/
def offset? (negative : Bool) (cs : List Char) : Option (Int × List Char) := do
  let (hours, cs) ← twoDigits? cs
  let (minutes, cs) ← twoDigits? (cs.dropWhile fun c => c == ':' || isBlank c)
  if hours < 24 ∧ minutes < 60 then
    let n : Int := hours * 3600 + minutes * 60
    some (if negative then -n else n, cs)
  else none

def zone? (cs : List Char) : Option (Int × List Char) :=
  let cs := trimStart cs
  if (cs.take 3).map Char.toUpper = ['U', 'T', 'C'] then some (0, cs.drop 3)
  else match cs with
    | 'Z' :: rest | 'z' :: rest => some (0, rest)
    | '+' :: rest => offset? false rest
    | '-' :: rest | '−' :: rest => offset? true rest
    | _ => none

def separator? : List Char → Option (List Char)
  | 'T' :: cs | 't' :: cs | ' ' :: cs => some cs
  | _ => none

def ofText? (s : String) : Option Instant := do
  let (date, cs) ← date? s.toList
  let cs ← separator? cs
  let ((second, nano), cs) ← time? cs
  let (offset, cs) ← zone? cs
  if (trimStart cs).isEmpty && date.isValid then
    let s := date.toDay * 86400 + second - offset
    ofParts? (s / 86400) (s % 86400).toNat nano
  else none

end ReplicaController.Instant
