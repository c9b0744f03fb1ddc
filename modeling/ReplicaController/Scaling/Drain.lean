import ReplicaController.Instance.Basic

/-!
# Victims of a scale-down

The observed policy takes the first active instances in the order in which they were listed. The
ranked policy takes those first that are torn down already, then the pending, then the ones that
are not ready and the ready ones last; the newest goes first among equals, and the order of the
list decides between instances of one age.
-/

namespace ReplicaController

inductive DrainRank
  | terminating
  | pending
  | notReady
  | ready
  deriving DecidableEq, Repr

namespace DrainRank

def rank : DrainRank → Nat
  | .terminating => 0
  | .pending => 1
  | .notReady => 2
  | .ready => 3

def ofInstance (i : Instance) : DrainRank :=
  match i.phase with
  | .terminating => .terminating
  | .pending => .pending
  | .running | .succeeded | .failed => if i.isReady then .ready else .notReady

end DrainRank

/-- `i` may be drained no later than `j`. -/
def drainsBefore (i j : Instance) : Bool :=
  let a := (DrainRank.ofInstance i).rank
  let b := (DrainRank.ofInstance j).rank
  a < b || a == b && j.created.notAfter i.created

inductive VictimPolicy
  | observed
  | ranked
  deriving DecidableEq, Repr, Inhabited

namespace VictimPolicy

def default : VictimPolicy := .observed

def text : VictimPolicy → String
  | .observed => "observed"
  | .ranked => "ranked"

structure ParseError where
  text : String
  deriving DecidableEq, Repr

def ParseError.message (e : ParseError) : String :=
  "unknown victim policy " ++ Text.quoted e.text ++ ", expected \"observed\" or \"ranked\""

def parse (s : String) : Except ParseError VictimPolicy :=
  if s = "observed" then .ok .observed
  else if s = "ranked" then .ok .ranked
  else .error ⟨s⟩

/-- The active instances in the order in which they would go. -/
def order : VictimPolicy → List Instance → List Instance
  | .observed, active => active
  | .ranked, active => active.mergeSort drainsBefore

def select (p : VictimPolicy) (active : List Instance) (count : Nat) : List Instance :=
  (p.order active).take count

end VictimPolicy

end ReplicaController
