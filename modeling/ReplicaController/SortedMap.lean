/-!
# Maps whose entries stand in key order

A sorted map is a list of entries with strictly rising keys. Two maps with the same entries are
equal, reading the entries gives them in key order, and writing a key that is present replaces its
value.
-/

namespace ReplicaController

structure SortedMap (κ α : Type) [Ord κ] where
  entries : List (κ × α)
  rising : entries.Pairwise fun a b => compare a.1 b.1 = .lt

namespace SortedMap

variable {κ α β : Type} [Ord κ]

theorem ext {m n : SortedMap κ α} (h : m.entries = n.entries) : m = n := by
  cases m; cases n; simp_all

instance [DecidableEq κ] [DecidableEq α] : DecidableEq (SortedMap κ α) := fun m n =>
  if h : m.entries = n.entries then isTrue (ext h) else isFalse fun e => h (e ▸ rfl)

def empty : SortedMap κ α := ⟨[], .nil⟩

instance : Inhabited (SortedMap κ α) := ⟨empty⟩

def isEmpty (m : SortedMap κ α) : Bool := m.entries.isEmpty

def keys (m : SortedMap κ α) : List κ := m.entries.map (·.1)

def values (m : SortedMap κ α) : List α := m.entries.map (·.2)

def find? (m : SortedMap κ α) (k : κ) : Option α :=
  (m.entries.find? fun e => compare e.1 k == .eq).map (·.2)

def contains (m : SortedMap κ α) (k : κ) : Bool := (m.find? k).isSome

def filter (keep : κ → α → Bool) (m : SortedMap κ α) : SortedMap κ α :=
  ⟨m.entries.filter fun e => keep e.1 e.2, m.rising.filter _⟩

def erase (m : SortedMap κ α) (k : κ) : SortedMap κ α :=
  m.filter fun k' _ => compare k' k != .eq

/-- The entries with `k` set to `v`, in place of an equal key or before the first greater one. -/
def insertEntry (k : κ) (v : α) : List (κ × α) → List (κ × α)
  | [] => [(k, v)]
  | e :: es =>
    match compare k e.1 with
    | .lt => (k, v) :: e :: es
    | .eq => (k, v) :: es
    | .gt => e :: insertEntry k v es

theorem mem_insertEntry {k : κ} {v : α} {es : List (κ × α)} {x : κ × α}
    (h : x ∈ insertEntry k v es) : x = (k, v) ∨ x ∈ es := by
  induction es with
  | nil => simpa [insertEntry] using h
  | cons e es ih =>
    unfold insertEntry at h
    split at h
    · simpa using h
    · rcases List.mem_cons.mp h with h | h
      · exact .inl h
      · exact .inr (List.mem_cons_of_mem _ h)
    · rcases List.mem_cons.mp h with h | h
      · exact .inr (h ▸ List.mem_cons_self)
      · exact (ih h).imp_right (List.mem_cons_of_mem _)

variable [Std.TransOrd κ]

theorem rising_insertEntry {k : κ} {v : α} {es : List (κ × α)}
    (h : es.Pairwise fun a b => compare a.1 b.1 = .lt) :
    (insertEntry k v es).Pairwise fun a b => compare a.1 b.1 = .lt := by
  induction es with
  | nil => simp [insertEntry]
  | cons e es ih =>
    obtain ⟨head, tail⟩ := List.pairwise_cons.mp h
    unfold insertEntry
    split
    · rename_i hk
      refine List.pairwise_cons.mpr ⟨fun x hx => ?_, h⟩
      rcases List.mem_cons.mp hx with rfl | hx
      · exact hk
      · exact Std.TransCmp.lt_trans hk (head x hx)
    · rename_i hk
      exact List.pairwise_cons.mpr
        ⟨fun x hx => Std.TransCmp.lt_of_eq_of_lt hk (head x hx), tail⟩
    · rename_i hk
      refine List.pairwise_cons.mpr ⟨fun x hx => ?_, ih tail⟩
      rcases mem_insertEntry hx with rfl | hx
      · exact Std.OrientedCmp.lt_of_gt hk
      · exact head x hx

def insert (m : SortedMap κ α) (k : κ) (v : α) : SortedMap κ α :=
  ⟨insertEntry k v m.entries, rising_insertEntry m.rising⟩

/-- Of entries with equal keys the last one stays. -/
def ofList (es : List (κ × α)) : SortedMap κ α :=
  es.foldl (fun m e => m.insert e.1 e.2) empty

theorem mem_insert {m : SortedMap κ α} {k : κ} {v : α} {x : κ × α}
    (h : x ∈ (m.insert k v).entries) : x = (k, v) ∨ x ∈ m.entries :=
  mem_insertEntry h

theorem mem_ofList {es : List (κ × α)} {x : κ × α} (h : x ∈ (ofList es).entries) : x ∈ es := by
  suffices ∀ (m : SortedMap κ α),
      x ∈ (es.foldl (fun m e => m.insert e.1 e.2) m).entries → x ∈ m.entries ∨ x ∈ es by
    simpa [empty] using this empty h
  clear h
  induction es with
  | nil => exact fun m h => .inl h
  | cons e es ih =>
    intro m h
    rcases ih _ h with h | h
    · rcases mem_insert h with rfl | h
      · exact .inr List.mem_cons_self
      · exact .inl h
    · exact .inr (List.mem_cons_of_mem _ h)

end SortedMap

end ReplicaController
