import ReplicaController.Stamp

/-!
# Generated names by number

A scenario cannot know the random suffixes of generated names, so it speaks of the `n`-th of them by
its number behind a hash sign in place of the suffix.
-/

namespace ReplicaController.Scenario

/-- A generated name with its suffix replaced by its number. -/
def aliasOf (name : String) (n : Nat) : String :=
  let cs := name.toList
  String.ofList (cs.take (cs.length - Stamp.suffixLength)) ++ "#" ++ toString n

/-- The number behind the last hash sign, if nothing but digits is there. -/
def numberOf? (name : String) : Option Nat :=
  let tail := name.toList.reverse.takeWhile fun c => c != '#'
  if tail.length < name.toList.length && !tail.isEmpty && tail.all Text.isDigit then
    some (Text.decimalValue tail.reverse)
  else none

/-- The name that is meant: the generated one if it is its alias, and otherwise the text itself. -/
def meant (generated : Array String) (name : String) : String :=
  match numberOf? name with
  | none => name
  | some n =>
    match generated[n - 1]? with
    | some real => if 0 < n && aliasOf real n == name then real else name
    | none => name

def meantKey (generated : Array String) (key : Key) : Key := ⟨key.ns, meant generated key.name⟩

end ReplicaController.Scenario
