import ReplicaController.Text.Hex

/-!
# Unique identifiers

A uid has one hundred and twenty-eight bits, written as lower-case hexadecimal digits in groups of
eight, four, four, four and twelve. It is read in either case, also without hyphens, in braces, or
behind `urn:uuid:`.
-/

namespace ReplicaController

structure Uid where
  bits : BitVec 128
  deriving DecidableEq, Repr, Inhabited

namespace Uid

def nil : Uid := ⟨0⟩

/-- The digits of a number in base sixteen, `count` of them. -/
def hexText : Nat → Nat → List Char
  | 0, _ => []
  | count + 1, n => hexText count (n / 16) ++ [Text.hexDigit (n % 16)]

/-- Hyphens after the eighth, twelfth, sixteenth and twentieth digit. -/
def hyphenate (cs : List Char) : List Char :=
  cs.take 8 ++ '-' :: (cs.drop 8).take 4 ++ '-' :: (cs.drop 12).take 4 ++
    '-' :: (cs.drop 16).take 4 ++ '-' :: cs.drop 20

def text (u : Uid) : String := String.ofList (hyphenate (hexText 32 u.bits.toNat))

def hexValueOf? (cs : List Char) : Option Nat :=
  cs.foldlM (fun n c => (Text.hexValue? c).map fun v => 16 * n + v) 0

def ofDigits? (cs : List Char) : Option Uid :=
  if cs.length = 32 then (hexValueOf? cs).map fun n => ⟨BitVec.ofNat 128 n⟩ else none

def ofHyphenated? (cs : List Char) : Option Uid :=
  let digits := cs.filter (· != '-')
  if cs.length = 36 ∧ hyphenate digits = cs then ofDigits? digits else none

def urnMark : List Char := ['u', 'r', 'n', ':', 'u', 'u', 'i', 'd', ':']

def ofText? (s : String) : Option Uid :=
  let cs := s.toList
  if cs.length = 32 then ofDigits? cs
  else if cs.length = 36 then ofHyphenated? cs
  else if cs.length = 38 ∧ cs.head? = some '\x7b' ∧ cs.getLast? = some '\x7d' then
    ofHyphenated? (cs.tail.dropLast)
  else if cs.length = 45 ∧ cs.take 9 = urnMark then ofHyphenated? (cs.drop 9)
  else none

/-- The uid with these random bits: the version is four and the variant begins with one and zero. -/
def ofRandom (bits : BitVec 128) : Uid :=
  ⟨(bits &&& ~~~(0xF000C000000000000000#128)) ||| 0x40008000000000000000#128⟩

def version (u : Uid) : BitVec 4 := u.bits.extractLsb' 76 4

def variant (u : Uid) : BitVec 2 := u.bits.extractLsb' 62 2

def isRandom (u : Uid) : Bool := u.version == 4 && u.variant == 2

end Uid

end ReplicaController
