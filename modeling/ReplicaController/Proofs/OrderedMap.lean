import Mathlib.Data.List.Nodup
import Mathlib.Logic.Function.Basic

/-!
# Ordered maps

A map whose keys are distinct and stand in an order. Putting a key moves it to the end, or adds it
there; a change of a value leaves the order alone. What happens at some keys leaves the others as
they are, in the same order.
-/

namespace ReplicaController

structure OrderedMap (κ α : Type) where
  keys : List κ
  get? : κ → Option α
  nodup : keys.Nodup
  mem_keys : ∀ k, k ∈ keys ↔ (get? k).isSome

namespace OrderedMap

variable {κ α : Type}

def empty : OrderedMap κ α := ⟨[], fun _ => none, .nil, by simp⟩

def values (m : OrderedMap κ α) : List α := m.keys.filterMap m.get?

@[ext]
theorem ext {m m' : OrderedMap κ α} (hkeys : m.keys = m'.keys) (hget : m.get? = m'.get?) :
    m = m' := by
  cases m
  cases m'
  congr

/-- The keys with `p` stand in the same order in both maps, with the same values. -/
structure SameWhere (p : κ → Bool) (m m' : OrderedMap κ α) : Prop where
  keys : m'.keys.filter p = m.keys.filter p
  get? : ∀ k, p k = true → m'.get? k = m.get? k

theorem SameWhere.refl (p : κ → Bool) (m : OrderedMap κ α) : m.SameWhere p m :=
  ⟨rfl, fun _ _ => rfl⟩

theorem SameWhere.trans {p : κ → Bool} {m m' m'' : OrderedMap κ α} (h : m.SameWhere p m')
    (h' : m'.SameWhere p m'') : m.SameWhere p m'' :=
  ⟨h'.keys.trans h.keys, fun k hk => (h'.get? k hk).trans (h.get? k hk)⟩

theorem SameWhere.ne_of_eq_true {p : κ → Bool} {k l : κ} (hk : p k = false)
    (hl : p l = true) : l ≠ k := by
  rintro rfl
  rw [hk] at hl
  contradiction

variable [DecidableEq κ]

def put (m : OrderedMap κ α) (k : κ) (v : α) : OrderedMap κ α where
  keys := m.keys.erase k ++ [k]
  get? := Function.update m.get? k (some v)
  nodup := by
    refine List.nodup_append.mpr ⟨m.nodup.erase k, List.nodup_singleton k, ?_⟩
    intro a ha b hb
    rw [List.mem_singleton] at hb
    exact hb ▸ (m.nodup.mem_erase_iff.mp ha).1
  mem_keys l := by
    rw [List.mem_append, List.mem_singleton, m.nodup.mem_erase_iff]
    by_cases h : l = k
    · simp [h]
    · simp [h, m.mem_keys]

def erase (m : OrderedMap κ α) (k : κ) : OrderedMap κ α where
  keys := m.keys.erase k
  get? := Function.update m.get? k none
  nodup := m.nodup.erase k
  mem_keys l := by
    rw [m.nodup.mem_erase_iff]
    by_cases h : l = k
    · simp [h]
    · simp [h, m.mem_keys]

def change (m : OrderedMap κ α) (k : κ) (f : α → α) : OrderedMap κ α where
  keys := m.keys
  get? := Function.update m.get? k ((m.get? k).map f)
  nodup := m.nodup
  mem_keys l := by
    by_cases h : l = k
    · simp [h, m.mem_keys]
    · simp [h, m.mem_keys]

variable (m : OrderedMap κ α) {k l : κ}

theorem keys_put (k : κ) (v : α) : (m.put k v).keys = m.keys.erase k ++ [k] := rfl

@[simp]
theorem get?_put_self (k : κ) (v : α) : (m.put k v).get? k = some v := Function.update_self ..

theorem get?_put_of_ne (v : α) (h : l ≠ k) : (m.put k v).get? l = m.get? l :=
  Function.update_of_ne h ..

@[simp]
theorem get?_erase_self (k : κ) : (m.erase k).get? k = none := Function.update_self ..

theorem get?_erase_of_ne (h : l ≠ k) : (m.erase k).get? l = m.get? l := Function.update_of_ne h ..

@[simp]
theorem get?_change_self (k : κ) (f : α → α) : (m.change k f).get? k = (m.get? k).map f :=
  Function.update_self ..

theorem get?_change_of_ne (f : α → α) (h : l ≠ k) : (m.change k f).get? l = m.get? l :=
  Function.update_of_ne h ..

theorem put_erase (k : κ) (v : α) : (m.erase k).put k v = m.put k v := by
  apply ext
  · have habsent : k ∉ (m.erase k).keys := m.nodup.not_mem_erase
    rw [keys_put, keys_put, List.erase_of_not_mem habsent]
    rfl
  · exact Function.update_idem ..

theorem values_put_of_notMem (h : k ∉ m.keys) (v : α) :
    (m.put k v).values = m.values ++ [v] := by
  have hkeys : (m.put k v).keys = m.keys ++ [k] := by
    rw [keys_put, List.erase_of_not_mem h]
  have hold : m.keys.filterMap (m.put k v).get? = m.keys.filterMap m.get? :=
    List.filterMap_congr fun l hl => m.get?_put_of_ne v (by rintro rfl; exact h hl)
  rw [values, hkeys, List.filterMap_append, hold]
  simp [values]

namespace SameWhere

variable {p : κ → Bool}

theorem filter_erase (hk : p k = false) (ks : List κ) : (ks.erase k).filter p = ks.filter p := by
  rw [← List.erase_filter, List.erase_of_not_mem]
  simp [hk]

theorem put (hk : p k = false) (v : α) : m.SameWhere p (m.put k v) where
  keys := by simp [OrderedMap.put, filter_erase hk, hk]
  get? _ hl := m.get?_put_of_ne v (ne_of_eq_true hk hl)

theorem erase (hk : p k = false) : m.SameWhere p (m.erase k) where
  keys := filter_erase hk m.keys
  get? _ hl := m.get?_erase_of_ne (ne_of_eq_true hk hl)

theorem change (hk : p k = false) (f : α → α) : m.SameWhere p (m.change k f) where
  keys := rfl
  get? _ hl := m.get?_change_of_ne f (ne_of_eq_true hk hl)

end SameWhere

end OrderedMap

end ReplicaController
