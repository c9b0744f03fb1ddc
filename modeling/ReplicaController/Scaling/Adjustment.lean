/-!
# The adjustment of a workload

What a pass has to do to bring the active count to the desired one: the direction, and an amount of
at most the burst ceiling.
-/

namespace ReplicaController

inductive Direction
  | create
  | delete
  | none
  deriving DecidableEq, Repr

def Direction.text : Direction → String
  | .create => "create"
  | .delete => "delete"
  | .none => "none"

structure Adjustment where
  kind : Direction
  amount : Nat
  deriving DecidableEq, Repr

namespace Adjustment

/-- The most creates or deletes of one pass, unless told otherwise. -/
def defaultBurst : Nat := 500

def nothing : Adjustment := ⟨.none, 0⟩

def isNone (d : Adjustment) : Bool := d.kind == .none

def between (active desired burst : Nat) : Adjustment :=
  if active < desired then ⟨.create, min (desired - active) burst⟩
  else if desired < active then ⟨.delete, min (active - desired) burst⟩
  else nothing

theorem between_eq_nothing_iff {active desired burst : Nat} :
    between active desired burst = nothing ↔ active = desired := by
  unfold between nothing
  split
  · simp; omega
  · split
    · simp; omega
    · simp; omega

theorem amount_between_le (active desired burst : Nat) :
    (between active desired burst).amount ≤ burst := by
  unfold between nothing
  split
  · exact Nat.min_le_right _ _
  · split
    · exact Nat.min_le_right _ _
    · exact Nat.zero_le _

end Adjustment

end ReplicaController
