import ReplicaController.Uid

/-!
# Owner references

A reference from an instance to an object that manages it. A controller reference is valid if its
three texts are not empty, its uid is not nil and both of its flags are set; the first condition
that fails, in this order, is the fault.
-/

namespace ReplicaController

structure OwnerReference where
  apiVersion : String
  kind : String
  name : String
  uid : Uid
  controller : Bool
  blockOwnerDeletion : Bool
  deriving DecidableEq, Repr, Inhabited

inductive OwnerFault
  | missingApiVersion
  | missingKind
  | missingName
  | nilUid
  | notController
  | noBlockOwnerDeletion
  deriving DecidableEq, Repr

def OwnerFault.message : OwnerFault → String
  | .missingApiVersion => "controller reference has an empty api version"
  | .missingKind => "controller reference has an empty kind"
  | .missingName => "controller reference has an empty name"
  | .nilUid => "controller reference has a nil uid"
  | .notController => "owner reference is not marked as controller"
  | .noBlockOwnerDeletion => "controller reference does not block owner deletion"

namespace OwnerReference

def fault? (r : OwnerReference) : Option OwnerFault :=
  if r.apiVersion = "" then some .missingApiVersion
  else if r.kind = "" then some .missingKind
  else if r.name = "" then some .missingName
  else if r.uid = Uid.nil then some .nilUid
  else if r.controller = false then some .notController
  else if r.blockOwnerDeletion = false then some .noBlockOwnerDeletion
  else none

theorem fault?_eq_none_iff {r : OwnerReference} :
    r.fault? = none ↔ r.apiVersion ≠ "" ∧ r.kind ≠ "" ∧ r.name ≠ "" ∧ r.uid ≠ Uid.nil ∧
      r.controller = true ∧ r.blockOwnerDeletion = true := by
  unfold fault?
  repeat' split
  all_goals simp_all

end OwnerReference

end ReplicaController
