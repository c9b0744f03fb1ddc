import ReplicaController.Text.Cut
import ReplicaController.Text.Quoted

/-!
# Keys

An object is known by its namespace and its name. Keys are ordered by namespace, then by name. The
text of a key is `namespace/name`; reading it back cuts at the first slash, so a namespace that
holds a slash does not survive.
-/

namespace ReplicaController

structure Key where
  ns : String
  name : String
  deriving DecidableEq, Repr, Inhabited

namespace Key

instance : Ord Key := ⟨compareLex (compareOn Key.ns) (compareOn Key.name)⟩

instance : Std.TransOrd Key :=
  inferInstanceAs (Std.TransCmp (compareLex (compareOn Key.ns) (compareOn Key.name)))

theorem compare_eq_then (a b : Key) :
    compare a b = (compare a.ns b.ns).then (compare a.name b.name) := rfl

instance : Std.LawfulEqOrd Key where
  eq_of_compare {a b} h := by
    rw [compare_eq_then, Ordering.then_eq_eq] at h
    obtain ⟨hn, hm⟩ := h
    cases a; cases b
    exact Key.mk.injEq .. ▸ ⟨Std.LawfulEqCmp.eq_of_compare hn, Std.LawfulEqCmp.eq_of_compare hm⟩

def text (k : Key) : String := k.ns ++ "/" ++ k.name

structure ParseError where
  text : String
  deriving DecidableEq, Repr

def ParseError.message (e : ParseError) : String :=
  "expected namespace/name, got " ++ Text.quoted e.text

def parse (s : String) : Except ParseError Key :=
  match Text.cutOnce '/' s.toList with
  | some (ns, name) =>
    if ns.isEmpty || name.isEmpty then .error ⟨s⟩
    else .ok ⟨String.ofList ns, String.ofList name⟩
  | none => .error ⟨s⟩

end Key

end ReplicaController
