import ReplicaController.Labels.Basic
import ReplicaController.Text.Cut
import ReplicaController.Text.Numeral
import ReplicaController.Text.Quoted

/-!
# Selectors

A label selector is what a workload stores: labels that must be there, and expressions whose
operators are texts. Parsing it checks every key, operator and number of values, labels first in
key order and then expressions in list order, and gives the requirements to match labels against.
A selector without any requirement would match everything and is refused.
-/

namespace ReplicaController

structure Expression where
  key : String
  operator : String
  values : List String
  deriving DecidableEq, Repr, Inhabited

structure LabelSelector where
  matchLabels : Labels
  matchExpressions : List Expression
  deriving DecidableEq, Inhabited

def LabelSelector.ofLabels (labels : Labels) : LabelSelector := ⟨labels, []⟩

inductive Operator
  | isIn
  | notIn
  | present
  | absent
  deriving DecidableEq, Repr

namespace Operator

def text : Operator → String
  | .isIn => "In"
  | .notIn => "NotIn"
  | .present => "Exists"
  | .absent => "DoesNotExist"

def ofText? : String → Option Operator
  | "In" => some .isIn
  | "NotIn" => some .notIn
  | "Exists" => some .present
  | "DoesNotExist" => some .absent
  | _ => none

/-- The operator compares the value of the label. -/
def takesValues : Operator → Bool
  | .isIn | .notIn => true
  | .present | .absent => false

end Operator

inductive SelectorError
  | empty
  | invalidKey (key : String)
  | unknownOperator (key operator : String)
  | missingValues (key : String) (operator : Operator)
  | unexpectedValues (key : String) (operator : Operator)
  deriving DecidableEq, Repr

def SelectorError.message : SelectorError → String
  | .empty => "selector is empty and would match every instance"
  | .invalidKey k => "invalid label key " ++ Text.quoted k
  | .unknownOperator k o =>
    "unknown selector operator " ++ Text.quoted o ++ " for key " ++ Text.quoted k
  | .missingValues k o =>
    "operator " ++ o.text ++ " on key " ++ Text.quoted k ++ " requires at least one value"
  | .unexpectedValues k o =>
    "operator " ++ o.text ++ " on key " ++ Text.quoted k ++ " must not carry values"

namespace LabelKey

/-- The longest name of a label key, in characters, all of them ASCII. -/
def maxName : Nat := 63

def isAlphanumeric (c : Char) : Bool :=
  Text.isDigit c || ('a' ≤ c && c ≤ 'z') || ('A' ≤ c && c ≤ 'Z')

def isNameChar (c : Char) : Bool := isAlphanumeric c || c == '-' || c == '_' || c == '.'

def isName (cs : List Char) : Bool :=
  cs.all isNameChar && cs.head?.any isAlphanumeric && cs.getLast?.any isAlphanumeric &&
    cs.length ≤ maxName

/-- A name, or a name behind a domain that is not empty and ends at the first slash. -/
def isValid (key : String) : Bool :=
  match Text.cutOnce '/' key.toList with
  | some (domain, name) => !domain.isEmpty && isName name
  | none => isName key.toList

end LabelKey

/-- Texts in order, each once. -/
abbrev TextSet := SortedMap String Unit

def TextSet.ofTexts (texts : List String) : TextSet := .ofList (texts.map fun t => (t, ()))

structure Requirement where
  key : String
  operator : Operator
  values : TextSet
  deriving DecidableEq

namespace Requirement

def isMet (r : Requirement) (labels : Labels) : Bool :=
  match r.operator, labels.find? r.key with
  | .isIn, some v => r.values.contains v
  | .isIn, none => false
  | .notIn, some v => !r.values.contains v
  | .notIn, none => true
  | .present, v => v.isSome
  | .absent, v => v.isNone

def text (r : Requirement) : String :=
  let values := ",".intercalate r.values.keys
  match r.operator with
  | .isIn =>
    if r.values.entries.length = 1 then r.key ++ "=" ++ values
    else r.key ++ " in (" ++ values ++ ")"
  | .notIn => r.key ++ " notin (" ++ values ++ ")"
  | .present => r.key
  | .absent => "!" ++ r.key

def ofLabel (key value : String) : Except SelectorError Requirement :=
  if LabelKey.isValid key then .ok ⟨key, .isIn, .ofTexts [value]⟩ else .error (.invalidKey key)

def ofExpression (e : Expression) : Except SelectorError Requirement :=
  if LabelKey.isValid e.key then
    match Operator.ofText? e.operator with
    | none => .error (.unknownOperator e.key e.operator)
    | some op =>
      if op.takesValues && e.values.isEmpty then .error (.missingValues e.key op)
      else if !op.takesValues && !e.values.isEmpty then .error (.unexpectedValues e.key op)
      else .ok ⟨e.key, op, .ofTexts e.values⟩
  else .error (.invalidKey e.key)

end Requirement

/-- The results of all, or the first error. -/
def allOk {α β ε : Type} (f : α → Except ε β) : List α → Except ε (List β)
  | [] => .ok []
  | a :: as =>
    match f a with
    | .error e => .error e
    | .ok b =>
      match allOk f as with
      | .error e => .error e
      | .ok bs => .ok (b :: bs)

structure Selector where
  requirements : List Requirement
  deriving DecidableEq

namespace Selector

def selects (s : Selector) (labels : Labels) : Bool := s.requirements.all (·.isMet labels)

def text (s : Selector) : String := ",".intercalate (s.requirements.map Requirement.text)

end Selector

def LabelSelector.parse (s : LabelSelector) : Except SelectorError Selector :=
  if s.matchLabels.isEmpty && s.matchExpressions.isEmpty then .error .empty
  else
    match allOk (fun e => Requirement.ofLabel e.1 e.2) s.matchLabels.entries with
    | .error e => .error e
    | .ok fromLabels =>
      match allOk Requirement.ofExpression s.matchExpressions with
      | .error e => .error e
      | .ok fromExpressions => .ok ⟨fromLabels ++ fromExpressions⟩

end ReplicaController
