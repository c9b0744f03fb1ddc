import ReplicaController.Json.Reader
import ReplicaController.Json.Records

/-!
# Seed files

A seed file holds the workloads that a store begins with, as one array. The file may be missing or
not be text, or its text may be no such array.
-/

namespace ReplicaController.Seed

inductive Error
  | unreadable (path : String)
  | malformed (path : String)
  deriving DecidableEq, Repr

def Error.message : Error → String
  | .unreadable path => "failed to read seed file " ++ path
  | .malformed path => "failed to parse seed file " ++ path

def parse? (text : String) : Option (List Workload) := (Json.read? text).bind Wire.decode

/-- The workloads of a file with this content, if there is such a file. -/
def load (path : String) (content : Option ByteArray) : Except Error (List Workload) :=
  match content.bind String.fromUTF8? with
  | none => .error (.unreadable path)
  | some text =>
    match parse? text with
    | none => .error (.malformed path)
    | some ws => .ok ws

end ReplicaController.Seed
