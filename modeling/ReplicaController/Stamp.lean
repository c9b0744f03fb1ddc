import ReplicaController.Workload.Basic

/-!
# Stamping instances

A stamp is made for a valid controller reference and turns random draws into pending instances. An
instance has the labels of the template, or those of the selector if the template has none, and a
name of the first characters of its owner's name, a hyphen and a random suffix. The suffix is five
digits in base twenty-seven, the least significant first, in an alphabet without vowels.
-/

namespace ReplicaController

/-- What is random or read from a clock in a new instance. -/
structure Draw where
  uid : Uid
  suffix : Nat
  created : Instant

structure Stamp where
  ns : String
  nameBase : String
  labels : Labels
  spec : Payload
  owner : OwnerReference

namespace Stamp

def maxNameBase : Nat := 57

def suffixLength : Nat := 5

def alphabet : List Char := [
  'b', 'c', 'd', 'f', 'g', 'h', 'j', 'k', 'l', 'm', 'n', 'p', 'q', 'r', 's', 't', 'v', 'w', 'x',
  'z', '2', '4', '5', '6', '7', '8', '9']

def letter (n : Nat) : Char := alphabet.getD (n % alphabet.length) 'b'

/-- The `count` lowest digits of `n`, the lowest first. -/
def suffixDigits : Nat → Nat → List Char
  | 0, _ => []
  | count + 1, n => letter n :: suffixDigits count (n / alphabet.length)

def suffix (n : Nat) : String := String.ofList (suffixDigits suffixLength n)

/-- The characters of `name` that a stamped name begins with, and the hyphen. -/
def baseOf (name : String) : String := String.ofList (name.toList.take maxNameBase ++ ['-'])

def labelsOf (template : InstanceTemplate) (selectorLabels : Labels) : Labels :=
  if template.labels.isEmpty then selectorLabels else template.labels

def new (ns : String) (template : InstanceTemplate) (selectorLabels : Labels)
    (owner : OwnerReference) : Except OwnerFault Stamp :=
  match owner.fault? with
  | some e => .error e
  | none => .ok ⟨ns, baseOf owner.name, labelsOf template selectorLabels, template.spec, owner⟩

def build (s : Stamp) (d : Draw) : Instance where
  ns := s.ns
  name := s.nameBase ++ suffix d.suffix
  uid := d.uid
  labels := s.labels
  ownerReferences := [s.owner]
  phase := .pending
  readiness := none
  created := d.created
  spec := s.spec

/-- The stamp of the instances of a workload. -/
def ofWorkload (w : Workload) : Except OwnerFault Stamp :=
  new w.ns w.spec.template w.spec.selector.matchLabels w.controllerRef

end Stamp

end ReplicaController
