import ReplicaController.Key

/-!
# Errors of the store

What a store may answer instead of doing what it was asked.
-/

namespace ReplicaController

inductive ObjectKind
  | workload
  | unit
  deriving DecidableEq, Repr

def ObjectKind.text : ObjectKind → String
  | .workload => "workload"
  | .unit => "instance"

inductive StoreError
  | notFound (kind : ObjectKind) (key : Key)
  | conflict (kind : ObjectKind) (key : Key) (expected actual : UInt64)
  | alreadyExists (kind : ObjectKind) (key : Key)
  | namespaceTerminating (ns : String)
  | unavailable (reason : String)
  | internal (reason : String)
  deriving DecidableEq, Repr

namespace StoreError

def message : StoreError → String
  | .notFound kind key => kind.text ++ " " ++ key.text ++ " not found"
  | .conflict kind key expected actual =>
    "conflict writing " ++ kind.text ++ " " ++ key.text ++ ": expected resource version " ++
      toString expected.toNat ++ ", found " ++ toString actual.toNat
  | .alreadyExists kind key => kind.text ++ " " ++ key.text ++ " already exists"
  | .namespaceTerminating ns => "namespace " ++ ns ++ " is terminating"
  | .unavailable reason => "store unavailable: " ++ reason
  | .internal reason => "store error: " ++ reason

def isNotFound : StoreError → Bool
  | .notFound .. => true
  | _ => false

def isConflict : StoreError → Bool
  | .conflict .. => true
  | _ => false

def isAlreadyExists : StoreError → Bool
  | .alreadyExists .. => true
  | _ => false

end StoreError

/-- The answer to a call: a value or an error. -/
abbrev Answer (α : Type) := Except StoreError α

end ReplicaController
