import ReplicaController.Json.Normal

/-!
# Values on the wire

`Wire α` pairs the document of a value with the reading of a document. A record is read from an
object, where an unknown name is passed over and a known one may stand once, or from an array of
its fields in order. A field that is absent takes its default if it has one.
-/

namespace ReplicaController

class Wire (α : Type) where
  encode : α → Json
  decode : Json → Option α

namespace Wire

instance : Wire String where
  encode := .str
  decode
    | .str s => some s
    | _ => none

instance : Wire Bool where
  encode := .bool
  decode
    | .bool b => some b
    | _ => none

instance : Wire UInt32 where
  encode n := .int n.toNat
  decode
    | .int (.ofNat n) => if n < UInt32.size then some (.ofNat n) else none
    | _ => none

instance : Wire UInt64 where
  encode n := .int n.toNat
  decode
    | .int (.ofNat n) => if n < UInt64.size then some (.ofNat n) else none
    | _ => none

instance : Wire Int64 where
  encode n := .int n.toInt
  decode
    | .int n => if Int64.minValue.toInt ≤ n ∧ n ≤ Int64.maxValue.toInt then some (.ofInt n) else none
    | _ => none

instance : Wire Payload where
  encode := Payload.json
  decode := Payload.ofJson?

/-- Read every item of a list, or nothing. -/
def decodeAll {α : Type} (read : Json → Option α) : List Json → Option (List α)
  | [] => some []
  | j :: js =>
    match read j, decodeAll read js with
    | some a, some as => some (a :: as)
    | _, _ => none

instance {α : Type} [Wire α] : Wire (List α) where
  encode as := .arr (as.map encode)
  decode
    | .arr items => decodeAll decode items
    | _ => none

instance {α : Type} [Wire α] : Wire (Option α) where
  encode
    | none => .null
    | some a => encode a
  decode
    | .null => some none
    | j => (decode j).map some

def decodeEntries {α : Type} (read : Json → Option α) :
    List (String × Json) → Option (List (String × α))
  | [] => some []
  | (k, j) :: fs =>
    match read j, decodeEntries read fs with
    | some a, some as => some ((k, a) :: as)
    | _, _ => none

instance {α : Type} [Wire α] : Wire (SortedMap String α) where
  encode m := .obj (m.entries.map fun e => (e.1, encode e.2))
  decode
    | .obj fields => (decodeEntries decode fields).map .ofList
    | _ => none

/-- The values of a field, of which a record may have one. -/
def fieldValues (name : String) (fields : List (String × Json)) : List Json :=
  fields.filterMap fun f => if f.1 = name then some f.2 else none

/-- The field of that name, if it is there; a name that stands twice is refused. -/
def field? (name : String) (fields : List (String × Json)) : Option (Option Json) :=
  match fieldValues name fields with
  | [] => some none
  | [j] => some (some j)
  | _ => none

def objectFields? (fields : List (String × Json)) : List String → Option (List (Option Json))
  | [] => some []
  | name :: names =>
    match field? name fields, objectFields? fields names with
    | some f, some fs => some (f :: fs)
    | _, _ => none

/-- Items in place of fields, the missing ones at the end absent. -/
def arrayFields? : List Json → List String → Option (List (Option Json))
  | [], names => some (names.map fun _ => none)
  | _ :: _, [] => none
  | j :: js, _ :: names => (arrayFields? js names).map (some j :: ·)

/-- The fields of a record with the given names, one entry for each name. -/
def fields? (names : List String) : Json → Option (List (Option Json))
  | .obj fields => objectFields? fields names
  | .arr items => arrayFields? items names
  | _ => none

variable {α : Type} [Wire α]

def required : Option Json → Option α
  | some j => decode j
  | none => none

def optional (default : α) : Option Json → Option α
  | some j => decode j
  | none => some default

end Wire

end ReplicaController
