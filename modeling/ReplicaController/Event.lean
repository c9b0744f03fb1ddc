import ReplicaController.Store.Error

/-!
# Events

Notices about what an operation did to an instance, or failed to do.
-/

namespace ReplicaController

inductive Severity
  | normal
  | warning
  deriving DecidableEq, Repr

def Severity.text : Severity → String
  | .normal => "Normal"
  | .warning => "Warning"

/-- Events of this severity are shown at that level of the log. -/
def Severity.isShown (level : String) : Severity → Bool
  | .normal => ["info", "debug", "trace"].contains level
  | .warning => ["warn", "info", "debug", "trace"].contains level

inductive Reason
  | successfulCreate
  | failedCreate
  | successfulDelete
  | failedDelete
  deriving DecidableEq, Repr

def Reason.text : Reason → String
  | .successfulCreate => "SuccessfulCreate"
  | .failedCreate => "FailedCreate"
  | .successfulDelete => "SuccessfulDelete"
  | .failedDelete => "FailedDelete"

structure Event where
  object : Key
  severity : Severity
  reason : Reason
  message : String
  deriving DecidableEq, Repr

namespace Event

def text (e : Event) : String :=
  e.severity.text ++ " " ++ e.reason.text ++ " " ++ e.object.text ++ ": " ++ e.message

def created (key : Key) : Event :=
  ⟨key, .normal, .successfulCreate, "Created instance " ++ key.name⟩

def createFailed (key : Key) (e : StoreError) : Event :=
  ⟨key, .warning, .failedCreate, "Error creating instance " ++ key.name ++ ": " ++ e.message⟩

def deleted (key : Key) : Event :=
  ⟨key, .normal, .successfulDelete, "Deleted instance " ++ key.name⟩

def deleteFailed (key : Key) (e : StoreError) : Event :=
  ⟨key, .warning, .failedDelete, "Error deleting instance " ++ key.name ++ ": " ++ e.message⟩

end Event

end ReplicaController
