import ReplicaController.Json.Token

/-!
# Reading a document

The reader takes tokens one by one, with the open arrays and objects on a stack. A document is
exactly one value. An array or object that is opened inside as many others as the nesting limit
allows is unreadable.
-/

namespace ReplicaController.Json

/-- The deepest nesting of arrays and objects that can be held. -/
def maxDepth : Nat := 127

/-- What an open array or object holds so far, the last first; a name is absent if unreadable. -/
inductive Frame
  | items (done : List Json)
  | fields (done : List (String × Json)) (readable : Bool)
  | field (done : List (String × Json)) (readable : Bool) (name : Option String)

inductive ReadState
  | value
  | firstItem
  | firstName
  | name
  | colon
  | afterValue
  | finished (document : Json)

/-- Hand a complete value to the innermost open array or object. -/
def deliver (j : Json) : List Frame → Option (ReadState × List Frame)
  | [] => some (.finished j, [])
  | .items done :: rest => some (.afterValue, .items (j :: done) :: rest)
  | .field done readable name :: rest =>
    match name with
    | some k => some (.afterValue, .fields ((k, j) :: done) readable :: rest)
    | none => some (.afterValue, .fields done false :: rest)
  | .fields _ _ :: _ => none

/-- Close the innermost array or object, which is unreadable past the nesting limit. -/
def close (j : Json) (rest : List Frame) : Option (ReadState × List Frame) :=
  deliver (if rest.length < maxDepth then j else .unreadable) rest

def closeItems : List Frame → Option (ReadState × List Frame)
  | .items done :: rest => close (.arr done.reverse) rest
  | _ => none

def closeFields : List Frame → Option (ReadState × List Frame)
  | .fields done readable :: rest =>
    close (if readable then .obj done.reverse else .unreadable) rest
  | _ => none

def readValue (stack : List Frame) : Token → Option (ReadState × List Frame)
  | .openArray => some (.firstItem, .items [] :: stack)
  | .openObject => some (.firstName, .fields [] true :: stack)
  | .null => deliver .null stack
  | .bool b => deliver (.bool b) stack
  | .number j => deliver j stack
  | .text (some s) => deliver (.str s) stack
  | .text none => deliver .unreadable stack
  | _ => none

def readName (stack : List Frame) : Token → Option (ReadState × List Frame)
  | .text name =>
    match stack with
    | .fields done readable :: rest => some (.colon, .field done readable name :: rest)
    | _ => none
  | _ => none

def readStep (state : ReadState) (stack : List Frame) (t : Token) :
    Option (ReadState × List Frame) :=
  match state, t with
  | .value, t => readValue stack t
  | .firstItem, .closeArray => closeItems stack
  | .firstItem, t => readValue stack t
  | .firstName, .closeObject => closeFields stack
  | .firstName, t => readName stack t
  | .name, t => readName stack t
  | .colon, .colon => some (.value, stack)
  | .afterValue, .closeArray => closeItems stack
  | .afterValue, .closeObject => closeFields stack
  | .afterValue, .comma =>
    match stack with
    | .items _ :: _ => some (.value, stack)
    | .fields _ _ :: _ => some (.name, stack)
    | _ => none
  | _, _ => none

def readFrom (state : ReadState) (stack : List Frame) : List Token → Option Json
  | [] =>
    match state with
    | .finished j => some j
    | _ => none
  | t :: ts =>
    match readStep state stack t with
    | some (state, stack) => readFrom state stack ts
    | none => none

/-- The document of a text, if the text is one. -/
def read? (text : String) : Option Json := (lex? text).bind (readFrom .value [])

end ReplicaController.Json
