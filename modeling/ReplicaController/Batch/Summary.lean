import ReplicaController.Store.Error

/-!
# The outcome of a batch

A batch runs one operation in each of its slots. Its summary looks only at what each slot came to:
a deletion of what was not there counts as done, a slot without a result as a failure, and the
first failure is that of the lowest slot.
-/

namespace ReplicaController.Batch

inductive Kind
  | create
  | delete
  deriving DecidableEq, Repr

def Kind.text : Kind → String
  | .create => "create"
  | .delete => "delete"

structure Summary where
  attempted : Nat
  succeeded : Nat
  alreadyAbsent : Nat
  deriving DecidableEq, Repr

inductive Error
  | partialFailure (kind : Kind) (attempted failed : Nat) (first : StoreError)
  | cancelled (kind : Kind) (attempted completed : Nat)
  deriving DecidableEq, Repr

def Error.message : Error → String
  | .partialFailure kind attempted failed first =>
    toString failed ++ " of " ++ toString attempted ++ " " ++ kind.text ++
      " operations failed: " ++ first.message
  | .cancelled kind attempted completed =>
    kind.text ++ " batch cancelled with " ++ toString completed ++ " of " ++ toString attempted ++
      " operations finished"

/-- The result of a slot, absent if its operation broke off. -/
abbrev Result := Option (Answer Unit)

/-- The fault of a slot whose operation broke off. -/
def brokenOff : StoreError := .internal "operation did not complete"

inductive Verdict
  | succeeded
  | alreadyAbsent
  | failed (e : StoreError)
  deriving DecidableEq

def judge (kind : Kind) : Result → Verdict
  | some (.ok ()) => .succeeded
  | some (.error e) => if kind = .delete ∧ e.isNotFound then .alreadyAbsent else .failed e
  | none => .failed brokenOff

/-- The counts so far, and the first failure. -/
structure Account where
  summary : Summary
  failed : Nat
  first : Option StoreError

namespace Account

def start (attempted : Nat) : Account := ⟨⟨attempted, 0, 0⟩, 0, none⟩

/-- A later failure leaves the first one in its place. -/
def record (kind : Kind) (a : Account) (r : Result) : Account :=
  let { attempted, succeeded, alreadyAbsent } := a.summary
  match judge kind r with
  | .succeeded => { a with summary := ⟨attempted, succeeded + 1, alreadyAbsent⟩ }
  | .alreadyAbsent => { a with summary := ⟨attempted, succeeded, alreadyAbsent + 1⟩ }
  | .failed e => { a with failed := a.failed + 1, first := a.first.or (some e) }

def outcome (kind : Kind) (a : Account) : Except Error Summary :=
  match a.first with
  | none => .ok a.summary
  | some first => .error (.partialFailure kind a.summary.attempted a.failed first)

end Account

def summarize (kind : Kind) (results : List Result) : Except Error Summary :=
  (results.foldl (Account.record kind) (.start results.length)).outcome kind

end ReplicaController.Batch
