import ReplicaController.Decimal.Binary64
import ReplicaController.SortedMap

/-!
# JSON documents

A document as it was written: object fields keep their order and their duplicates. What the grammar
admits but nothing can hold (a number beyond the largest double, half of a surrogate pair, nesting
past the limit) is an unreadable node, which does no harm until somebody looks at it.

The normal form of a document has its object fields in key order, of fields with one name the last.
A payload is a document in normal form; `ofJson?` takes the normal form of any readable document
and leaves a payload as it is.
-/

namespace ReplicaController

open Decimal (Binary64)

inductive Json
  | null
  | bool (value : Bool)
  | int (value : Int)
  | double (value : Binary64)
  | str (value : String)
  | arr (items : List Json)
  | obj (fields : List (String × Json))
  | unreadable
  deriving Inhabited, Repr

namespace Json

/-- Fields in key order, the last of each name. -/
def sortFields (fields : List (String × Json)) : List (String × Json) :=
  (SortedMap.ofList fields).entries

mutual

def normal? : Json → Option Json
  | .arr items => (normalItems? items).map .arr
  | .obj fields => (normalFields? fields).map fun fs => .obj (sortFields fs)
  | .unreadable => none
  | .null => some .null
  | .bool b => some (.bool b)
  | .int n => some (.int n)
  | .double x => some (.double x)
  | .str s => some (.str s)

def normalItems? : List Json → Option (List Json)
  | [] => some []
  | j :: js =>
    match normal? j, normalItems? js with
    | some j, some js => some (j :: js)
    | _, _ => none

def normalFields? : List (String × Json) → Option (List (String × Json))
  | [] => some []
  | (k, j) :: fs =>
    match normal? j, normalFields? fs with
    | some j, some fs => some ((k, j) :: fs)
    | _, _ => none

end

/-- Every node of the document can be held. -/
def isReadable (j : Json) : Bool := j.normal?.isSome

end Json

end ReplicaController
