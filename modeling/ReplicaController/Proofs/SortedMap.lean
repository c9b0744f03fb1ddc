import ReplicaController.SortedMap

/-!
# Reading a sorted map back

Looking a key up is membership of its entry. An insertion or an erasure changes what is found at its
own key and nothing else, and a filter on keys changes nothing at the keys that it keeps.
-/

namespace ReplicaController.SortedMap

variable {κ α : Type} [Ord κ]

variable [Std.LawfulEqOrd κ]

theorem ne_of_compare_lt {a b : κ} (h : compare a b = .lt) : a ≠ b := by
  rintro rfl
  have self : compare a a = .eq := Std.ReflCmp.compare_self
  rw [self] at h
  contradiction

theorem nodup_keys (m : SortedMap κ α) : m.keys.Nodup := by
  unfold keys List.Nodup
  rw [List.pairwise_map]
  exact m.rising.imp ne_of_compare_lt

theorem eq_of_mem_entries {m : SortedMap κ α} {x y : κ × α} (hx : x ∈ m.entries)
    (hy : y ∈ m.entries) (hk : x.1 = y.1) : x = y := by
  have rising := m.rising
  generalize m.entries = es at hx hy rising
  induction es with
  | nil => simp at hx
  | cons e es ih =>
    obtain ⟨head, tail⟩ := List.pairwise_cons.mp rising
    rw [List.mem_cons] at hx hy
    rcases hx with rfl | hx
    · rcases hy with rfl | hy
      · rfl
      · exact absurd hk (ne_of_compare_lt (head y hy))
    · rcases hy with rfl | hy
      · exact absurd hk.symm (ne_of_compare_lt (head x hx))
      · exact ih hx hy tail

theorem find?_eq_some_iff {m : SortedMap κ α} {k : κ} {v : α} :
    m.find? k = some v ↔ (k, v) ∈ m.entries := by
  unfold find?
  rw [Option.map_eq_some_iff]
  constructor
  · rintro ⟨e, he, rfl⟩
    have hk : e.1 = k := by simpa using List.find?_some he
    exact hk ▸ List.mem_of_find?_eq_some he
  · intro h
    cases hf : m.entries.find? fun e => compare e.1 k == .eq with
    | none =>
      have hne := List.find?_eq_none.mp hf _ h
      simp at hne
    | some e =>
      have hk : e.1 = k := by simpa using List.find?_some hf
      exact ⟨e, rfl, congrArg Prod.snd (eq_of_mem_entries (List.mem_of_find?_eq_some hf) h hk)⟩

theorem mem_keys_iff {m : SortedMap κ α} {k : κ} : k ∈ m.keys ↔ ∃ v, m.find? k = some v := by
  unfold keys
  rw [List.mem_map]
  constructor
  · rintro ⟨⟨k, v⟩, hm, rfl⟩
    exact ⟨v, find?_eq_some_iff.mpr hm⟩
  · rintro ⟨v, hf⟩
    exact ⟨(k, v), find?_eq_some_iff.mp hf, rfl⟩

theorem contains_iff {m : SortedMap κ α} {k : κ} : m.contains k = true ↔ k ∈ m.keys := by
  rw [contains, Option.isSome_iff_exists, mem_keys_iff]

theorem find?_of_find?_erase {m : SortedMap κ α} {k l : κ} {v : α}
    (h : (m.erase k).find? l = some v) : m.find? l = some v := by
  rw [find?_eq_some_iff] at h ⊢
  exact (List.mem_filter.mp h).1

theorem find?_filter_eq_some_iff {m : SortedMap κ α} {keep : κ → α → Bool} {k : κ} {v : α} :
    (m.filter keep).find? k = some v ↔ m.find? k = some v ∧ keep k v = true := by
  rw [find?_eq_some_iff, find?_eq_some_iff]
  exact List.mem_filter

theorem find?_filter (m : SortedMap κ α) (keep : κ → Bool) (k : κ) :
    (m.filter fun l _ => keep l).find? k = if keep k then m.find? k else none := by
  ext v
  rw [find?_filter_eq_some_iff]
  by_cases h : keep k = true
  · simp [h]
  · simp [h]

theorem find?_erase_self (m : SortedMap κ α) (k : κ) : (m.erase k).find? k = none := by
  rw [erase, find?_filter, if_neg (by simp)]

theorem find?_erase_of_ne (m : SortedMap κ α) {k l : κ} (h : l ≠ k) :
    (m.erase k).find? l = m.find? l := by
  rw [erase, find?_filter, if_pos (by simpa using h)]

variable [Std.TransOrd κ]

theorem mem_insertEntry_iff {k : κ} {v : α} {es : List (κ × α)} {x : κ × α}
    (rising : es.Pairwise fun a b => compare a.1 b.1 = .lt) :
    x ∈ insertEntry k v es ↔ x = (k, v) ∨ x ∈ es ∧ x.1 ≠ k := by
  induction es with
  | nil => simp [insertEntry]
  | cons e es ih =>
    obtain ⟨head, tail⟩ := List.pairwise_cons.mp rising
    unfold insertEntry
    split
    · rename_i hk
      have above : ∀ y ∈ e :: es, y.1 ≠ k := by
        intro y hy
        rcases List.mem_cons.mp hy with rfl | hy
        · exact (ne_of_compare_lt hk).symm
        · exact (ne_of_compare_lt (Std.TransCmp.lt_trans hk (head y hy))).symm
      rw [List.mem_cons]
      exact or_congr_right ⟨fun h => ⟨h, above x h⟩, And.left⟩
    · rename_i hk
      have heq : k = e.1 := Std.LawfulEqCmp.eq_of_compare hk
      have above : ∀ y ∈ es, y.1 ≠ k := fun y hy => heq ▸ (ne_of_compare_lt (head y hy)).symm
      rw [List.mem_cons, List.mem_cons]
      refine or_congr_right ⟨fun h => ⟨.inr h, above x h⟩, ?_⟩
      rintro ⟨rfl | h, hne⟩
      · exact absurd heq.symm hne
      · exact h
    · rename_i hk
      have hne : e.1 ≠ k := ne_of_compare_lt (Std.OrientedCmp.lt_of_gt hk)
      rw [List.mem_cons, List.mem_cons, ih tail]
      constructor
      · rintro (rfl | rfl | h)
        · exact .inr ⟨.inl rfl, hne⟩
        · exact .inl rfl
        · exact .inr ⟨.inr h.1, h.2⟩
      · rintro (rfl | ⟨rfl | h, hx⟩)
        · exact .inr (.inl rfl)
        · exact .inl rfl
        · exact .inr (.inr ⟨h, hx⟩)

theorem find?_insert_self (m : SortedMap κ α) (k : κ) (v : α) :
    (m.insert k v).find? k = some v :=
  find?_eq_some_iff.mpr ((mem_insertEntry_iff m.rising).mpr (.inl rfl))

theorem find?_insert_of_ne (m : SortedMap κ α) {k l : κ} (v : α) (h : l ≠ k) :
    (m.insert k v).find? l = m.find? l := by
  ext u
  rw [find?_eq_some_iff, find?_eq_some_iff]
  change (l, u) ∈ insertEntry k v m.entries ↔ _
  rw [mem_insertEntry_iff m.rising]
  constructor
  · rintro (heq | hm)
    · exact absurd (Prod.mk.inj heq).1 h
    · exact hm.1
  · exact fun hm => .inr ⟨hm, h⟩

theorem mem_keys_insert {m : SortedMap κ α} {k l : κ} {v : α} :
    l ∈ (m.insert k v).keys ↔ l = k ∨ l ∈ m.keys := by
  rw [mem_keys_iff, mem_keys_iff]
  by_cases h : l = k
  · subst h
    simp [find?_insert_self]
  · simp [find?_insert_of_ne _ _ h, h]

theorem mem_keys_ofList {es : List (κ × α)} {k : κ} : k ∈ (ofList es).keys ↔ k ∈ es.map (·.1) := by
  have hfold (m : SortedMap κ α) : k ∈ (es.foldl (fun m e => m.insert e.1 e.2) m).keys ↔
      k ∈ m.keys ∨ k ∈ es.map (·.1) := by
    induction es generalizing m with
    | nil => simp
    | cons e es ih =>
      rw [List.foldl_cons, ih, mem_keys_insert, List.map_cons, List.mem_cons, or_assoc,
        or_left_comm]
  rw [ofList, hfold]
  exact or_iff_right List.not_mem_nil

end ReplicaController.SortedMap
