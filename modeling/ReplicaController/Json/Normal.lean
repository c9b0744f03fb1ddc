import ReplicaController.Json.Basic

/-!
# Normal forms stay as they are

`normal?` has its results for fixed points, which makes the documents in normal form a type of
their own.
-/

namespace ReplicaController

namespace SortedMap

variable {κ α : Type} [Ord κ]

theorem insertEntry_of_all_lt {k : κ} {v : α} {es : List (κ × α)}
    (h : ∀ e ∈ es, compare k e.1 = .gt) : insertEntry k v es = es ++ [(k, v)] := by
  induction es with
  | nil => rfl
  | cons e es ih =>
    have he := h e List.mem_cons_self
    simp [insertEntry, he, ih fun x hx => h x (List.mem_cons_of_mem e hx)]

variable [Std.TransOrd κ]

theorem entries_foldl_insert {es : List (κ × α)} {m : SortedMap κ α}
    (h : (m.entries ++ es).Pairwise fun a b => compare a.1 b.1 = .lt) :
    (es.foldl (fun m e => m.insert e.1 e.2) m).entries = m.entries ++ es := by
  induction es generalizing m with
  | nil => simp
  | cons e es ih =>
    have he : (m.insert e.1 e.2).entries = m.entries ++ [e] := by
      refine insertEntry_of_all_lt fun x hx => ?_
      exact Std.OrientedCmp.gt_of_lt
        ((List.pairwise_append.mp h).2.2 x hx e List.mem_cons_self)
    rw [List.foldl_cons, ih (by rw [he]; simpa using h), he]
    simp

theorem ofList_entries (m : SortedMap κ α) : ofList m.entries = m := by
  have h : (ofList m.entries).entries = empty.entries ++ m.entries :=
    entries_foldl_insert (by simpa [empty] using m.rising)
  exact ext (by simpa [empty] using h)

end SortedMap

namespace Json

theorem sortFields_sortFields (fields : List (String × Json)) :
    sortFields (sortFields fields) = sortFields fields := by
  simp [sortFields, SortedMap.ofList_entries]

theorem normalItems?_eq_self {items : List Json} (h : ∀ j ∈ items, j.normal? = some j) :
    normalItems? items = some items := by
  induction items with
  | nil => rfl
  | cons j js ih =>
    simp [normalItems?, h j List.mem_cons_self, ih fun i hi => h i (List.mem_cons_of_mem j hi)]

theorem normalFields?_eq_self {fields : List (String × Json)}
    (h : ∀ f ∈ fields, f.2.normal? = some f.2) : normalFields? fields = some fields := by
  induction fields with
  | nil => rfl
  | cons f fs ih =>
    obtain ⟨k, j⟩ := f
    simp [normalFields?, h (k, j) List.mem_cons_self,
      ih fun i hi => h i (List.mem_cons_of_mem (k, j) hi)]

mutual

theorem normal?_of_normal? : ∀ {j v : Json}, j.normal? = some v → v.normal? = some v
  | .null, _, h | .bool _, _, h | .int _, _, h | .double _, _, h | .str _, _, h => by
    simp only [normal?, Option.some.injEq] at h
    subst h
    rfl
  | .unreadable, _, h => by simp [normal?] at h
  | .arr items, v, h => by
    simp only [normal?, Option.map_eq_some_iff] at h
    obtain ⟨vs, hvs, rfl⟩ := h
    simp [normal?, normalItems?_eq_self (normalItems?_fixed hvs)]
  | .obj fields, v, h => by
    simp only [normal?, Option.map_eq_some_iff] at h
    obtain ⟨vs, hvs, rfl⟩ := h
    have fixed : ∀ f ∈ sortFields vs, f.2.normal? = some f.2 :=
      fun f hf => normalFields?_fixed hvs f (SortedMap.mem_ofList hf)
    simp [normal?, normalFields?_eq_self fixed, sortFields_sortFields]

theorem normalItems?_fixed :
    ∀ {items vs : List Json}, normalItems? items = some vs → ∀ v ∈ vs, v.normal? = some v
  | [], _, h, v, hv => by
    simp only [normalItems?, Option.some.injEq] at h
    simp [← h] at hv
  | j :: js, _, h, v, hv => by
    unfold normalItems? at h
    split at h
    · rename_i w ws hw hws
      simp only [Option.some.injEq] at h
      subst h
      rcases List.mem_cons.mp hv with rfl | hv
      · exact normal?_of_normal? hw
      · exact normalItems?_fixed hws v hv
    · simp at h

theorem normalFields?_fixed :
    ∀ {fields vs : List (String × Json)}, normalFields? fields = some vs →
      ∀ v ∈ vs, v.2.normal? = some v.2
  | [], _, h, v, hv => by
    simp only [normalFields?, Option.some.injEq] at h
    simp [← h] at hv
  | (k, j) :: fs, _, h, v, hv => by
    unfold normalFields? at h
    split at h
    · rename_i w ws hw hws
      simp only [Option.some.injEq] at h
      subst h
      rcases List.mem_cons.mp hv with rfl | hv
      · exact normal?_of_normal? hw
      · exact normalFields?_fixed hws v hv
    · simp at h

end

end Json

/-- A document in normal form. -/
structure Payload where
  json : Json
  normal : json.normal? = some json

namespace Payload

theorem ext {p q : Payload} (h : p.json = q.json) : p = q := by
  cases p; cases q; simp_all

def null : Payload := ⟨.null, rfl⟩

instance : Inhabited Payload := ⟨null⟩

def ofJson? (j : Json) : Option Payload :=
  match h : j.normal? with
  | some v => some ⟨v, Json.normal?_of_normal? h⟩
  | none => none

theorem ofJson?_json (p : Payload) : ofJson? p.json = some p := by
  unfold ofJson?
  split
  · rename_i v h
    have hv : v = p.json := by simpa [p.normal] using h.symm
    exact congrArg some (ext hv)
  · rename_i h
    simp [p.normal] at h

end Payload

end ReplicaController
