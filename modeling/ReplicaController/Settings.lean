import ReplicaController.Text.Blank
import ReplicaController.Worker.Round

/-!
# Settings

The controller is set up from named variables. A numeric variable is a numeral of less than
sixty-four bits with blanks around it. The resync interval and the burst are not zero, and the first
retry delay is not above the longest. The first variable at fault, in the order of the fields, is
reported.
-/

namespace ReplicaController

structure Settings where
  logLevel : String
  resyncInterval : Span
  requeueBase : Span
  requeueCeiling : Span
  burst : Nat
  policy : VictimPolicy
  seedFile : Option String
  deriving DecidableEq, Repr

namespace Settings

def logLevelName : String := "PODSET_LOG_LEVEL"

def resyncName : String := "PODSET_RESYNC_INTERVAL_SECS"

def baseName : String := "PODSET_REQUEUE_BASE_MS"

def ceilingName : String := "PODSET_REQUEUE_MAX_SECS"

def burstName : String := "PODSET_BURST_REPLICAS"

def policyName : String := "PODSET_VICTIM_POLICY"

def seedFileName : String := "PODSET_SEED_FILE"

/-- The variables that are looked up. -/
def variableNames : List String :=
  [logLevelName, resyncName, baseName, ceilingName, burstName, policyName, seedFileName]

inductive Error
  | invalidNumber (name raw : String) (cause : Text.NumeralError)
  | zero (name : String)
  | ceilingBelowBase (ceiling base : Span)
  | invalidPolicy (cause : VictimPolicy.ParseError)
  deriving DecidableEq, Repr

namespace Error

def headline : Error → String
  | .invalidNumber name raw _ => "invalid " ++ name ++ ": " ++ Text.quoted raw
  | .zero name => name ++ " must be greater than zero"
  | .ceilingBelowBase ceiling base =>
    "requeue ceiling " ++ ceiling.text ++ " is below base delay " ++ base.text
  | .invalidPolicy _ => "invalid " ++ policyName

def cause? : Error → Option String
  | .invalidNumber _ _ cause => some cause.message
  | .invalidPolicy cause => some cause.message
  | _ => none

/-- The error, and its cause if it has one. -/
def message (e : Error) : String :=
  match e.cause? with
  | some c => e.headline ++ ": " ++ c
  | none => e.headline

/-- The error as a paragraph, and its cause as another. -/
def report (e : Error) : String :=
  match e.cause? with
  | some c => e.headline ++ "\n\nCaused by:\n    " ++ c
  | none => e.headline

end Error

def numberLimit : Nat := UInt64.size

/-- The number in a variable, or the default if it is not set. -/
def number (lookup : String → Option String) (name : String) (default : Nat) : Except Error Nat :=
  match lookup name with
  | none => .ok default
  | some raw =>
    match Text.readNumeral numberLimit (Text.trim raw.toList) with
    | .ok n => .ok n
    | .error e => .error (.invalidNumber name raw e)

def policyOf (lookup : String → Option String) : Except Error VictimPolicy :=
  match lookup policyName with
  | none => .ok .default
  | some raw =>
    match VictimPolicy.parse raw with
    | .ok p => .ok p
    | .error e => .error (.invalidPolicy e)

/-- An empty name stands for no file. -/
def seedFileOf (lookup : String → Option String) : Option String :=
  (lookup seedFileName).filter fun s => s != ""

def ofLookup (lookup : String → Option String) : Except Error Settings := do
  let resync ← number lookup resyncName (Worker.defaultResync.nanos / 1000000000)
  if resync = 0 then throw (.zero resyncName)
  let baseMillis ← number lookup baseName (Backoff.defaultBase.nanos / 1000000)
  let ceilingSecs ← number lookup ceilingName (Backoff.defaultCeiling.nanos / 1000000000)
  let base := Span.ofMillis baseMillis
  let ceiling := Span.ofSecs ceilingSecs
  if ceiling < base then throw (.ceilingBelowBase ceiling base)
  let burst ← number lookup burstName Adjustment.defaultBurst
  if burst = 0 then throw (.zero burstName)
  let policy ← policyOf lookup
  return {
    logLevel := (lookup logLevelName).getD "info"
    resyncInterval := .ofSecs resync
    requeueBase := base
    requeueCeiling := ceiling
    burst
    policy
    seedFile := seedFileOf lookup }

def passConfig (s : Settings) : PassConfig := ⟨s.burst, s.policy⟩

def workerPace (s : Settings) : WorkerPace :=
  { Worker.defaultPace with
    resyncInterval := s.resyncInterval
    requeueBase := s.requeueBase
    requeueCeiling := s.requeueCeiling }

end Settings

end ReplicaController
