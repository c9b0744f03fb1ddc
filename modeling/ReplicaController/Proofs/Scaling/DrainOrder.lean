import ReplicaController.Scaling.Drain

/-!
# The order in which instances are drained

Being drained no later is a total preorder, so the ranked order is that of a stable sort. Sorting
commutes with the choice of some of the instances: whatever is left of a list is drained in the
order that it has among all of them. The same holds of the observed order.
-/

namespace ReplicaController

namespace Instant

instance : Std.TransOrd Instant :=
  inferInstanceAs (Std.TransCmp (compareLex (compareOn Instant.day)
    (compareLex (compareOn Instant.second) (compareOn Instant.nano))))

instance : Std.LawfulEqOrd Instant where
  eq_of_compare {a b} h := by
    change (compare a.day b.day).then ((compare a.second b.second).then (compare a.nano b.nano)) =
      .eq at h
    simp only [Ordering.then_eq_eq, Std.LawfulEqCmp.compare_eq_iff_eq] at h
    obtain ⟨hday, hsecond, hnano⟩ := h
    cases a
    cases b
    simp_all

theorem notAfter_eq_isLE (a b : Instant) : a.notAfter b = (compare a b).isLE := by
  unfold notAfter
  cases compare a b <;> rfl

theorem notAfter_trans {a b c : Instant} (hab : a.notAfter b = true) (hbc : b.notAfter c = true) :
    a.notAfter c = true := by
  rw [notAfter_eq_isLE] at hab hbc ⊢
  exact Std.TransCmp.isLE_trans hab hbc

theorem notAfter_total (a b : Instant) : a.notAfter b = true ∨ b.notAfter a = true := by
  have hswap : compare b a = (compare a b).swap := Std.OrientedCmp.eq_swap
  rw [notAfter_eq_isLE, notAfter_eq_isLE, hswap]
  cases compare a b <;> simp

end Instant

theorem drainsBefore_iff {i j : Instance} :
    drainsBefore i j = true ↔
      (DrainRank.ofInstance i).rank < (DrainRank.ofInstance j).rank ∨
      (DrainRank.ofInstance i).rank = (DrainRank.ofInstance j).rank ∧
        j.created.notAfter i.created = true := by
  simp [drainsBefore]

theorem drainsBefore_trans (i j k : Instance) (hij : drainsBefore i j = true)
    (hjk : drainsBefore j k = true) : drainsBefore i k = true := by
  rw [drainsBefore_iff] at hij hjk ⊢
  rcases hij with hij | ⟨hij, hji⟩
  · left
    omega
  · rcases hjk with hjk | ⟨hjk, hkj⟩
    · left
      omega
    · right
      exact ⟨hij.trans hjk, Instant.notAfter_trans hkj hji⟩

theorem drainsBefore_total (i j : Instance) : (drainsBefore i j || drainsBefore j i) = true := by
  rw [Bool.or_eq_true, drainsBefore_iff, drainsBefore_iff]
  by_cases hlt : (DrainRank.ofInstance i).rank < (DrainRank.ofInstance j).rank
  · exact .inl (.inl hlt)
  · by_cases hgt : (DrainRank.ofInstance j).rank < (DrainRank.ofInstance i).rank
    · exact .inr (.inl hgt)
    · have heq : (DrainRank.ofInstance i).rank = (DrainRank.ofInstance j).rank := by omega
      rcases Instant.notAfter_total j.created i.created with h | h
      · exact .inl (.inr ⟨heq, h⟩)
      · exact .inr (.inr ⟨heq.symm, h⟩)

section StableSort

variable {α : Type} {le : α → α → Bool}

/-- A list that turns once from what is not above `a` to what is splits in one way only. -/
theorem eq_filter_of_turn {a : α} {below above : List α} (hb : ∀ b ∈ below, (!le a b) = true)
    (ha : ∀ b ∈ above, le a b = true) :
    below = (below ++ above).filter (fun b => !le a b) ∧
      above = (below ++ above).filter (fun b => le a b) := by
  rw [List.filter_append, List.filter_append]
  have hb' : below.filter (fun b => le a b) = [] := by
    apply List.filter_eq_nil_iff.mpr
    intro b hmem
    simpa using hb b hmem
  have ha' : above.filter (fun b => !le a b) = [] := by
    apply List.filter_eq_nil_iff.mpr
    intro b hmem
    simpa using ha b hmem
  rw [List.filter_eq_self.mpr hb, List.filter_eq_self.mpr ha, hb', ha']
  simp

theorem mergeSort_cons_eq (trans : ∀ a b c, le a b = true → le b c = true → le a c = true)
    (total : ∀ a b, (le a b || le b a) = true) (a : α) (l : List α) :
    (a :: l).mergeSort le = (l.mergeSort le).filter (fun b => !le a b) ++
      a :: (l.mergeSort le).filter (fun b => le a b) := by
  obtain ⟨below, above, hcons, hl, hb⟩ := List.mergeSort_cons trans total a l
  have sorted := List.pairwise_mergeSort trans total (a :: l)
  rw [hcons] at sorted
  have ha : ∀ b ∈ above, le a b = true :=
    (List.pairwise_cons.mp (List.pairwise_append.mp sorted).2.1).1
  obtain ⟨hbelow, habove⟩ := eq_filter_of_turn hb ha
  rw [hcons, hl, ← hbelow, ← habove]

theorem mergeSort_filter (trans : ∀ a b c, le a b = true → le b c = true → le a c = true)
    (total : ∀ a b, (le a b || le b a) = true) (p : α → Bool) (l : List α) :
    (l.filter p).mergeSort le = (l.mergeSort le).filter p := by
  induction l with
  | nil => simp
  | cons a l ih =>
    by_cases ha : p a = true
    · rw [List.filter_cons_of_pos ha, mergeSort_cons_eq trans total, ih,
        mergeSort_cons_eq trans total a l, List.filter_append, List.filter_cons_of_pos ha]
      simp only [List.filter_filter, Bool.and_comm]
    · obtain ⟨below, above, hcons, hl, -⟩ := List.mergeSort_cons trans total a l
      rw [List.filter_cons_of_neg ha, ih, hcons, hl, List.filter_append, List.filter_append,
        List.filter_cons_of_neg ha]

end StableSort

namespace VictimPolicy

theorem order_perm (p : VictimPolicy) (active : List Instance) : (p.order active).Perm active := by
  cases p with
  | observed => exact .refl _
  | ranked => exact List.mergeSort_perm active drainsBefore

theorem order_filter (p : VictimPolicy) (keep : Instance → Bool) (active : List Instance) :
    p.order (active.filter keep) = (p.order active).filter keep := by
  cases p with
  | observed => rfl
  | ranked => exact mergeSort_filter drainsBefore_trans drainsBefore_total keep active

theorem mem_of_mem_select {p : VictimPolicy} {active : List Instance} {count : Nat} {i : Instance}
    (h : i ∈ p.select active count) : i ∈ active :=
  (p.order_perm active).subset (List.mem_of_mem_take h)

theorem nodup_keys_order {active : List Instance} (h : (active.map Instance.key).Nodup)
    (p : VictimPolicy) : ((p.order active).map Instance.key).Nodup :=
  ((p.order_perm active).map Instance.key).nodup_iff.mpr h

theorem nodup_keys_select {active : List Instance} (h : (active.map Instance.key).Nodup)
    (p : VictimPolicy) (count : Nat) : ((p.select active count).map Instance.key).Nodup :=
  ((List.take_sublist count _).map Instance.key).nodup (nodup_keys_order h p)

theorem length_select (p : VictimPolicy) (active : List Instance) (count : Nat) :
    (p.select active count).length = min count active.length := by
  rw [select, List.length_take, (p.order_perm active).length_eq]

/-- The instances that would go last, `desired` of them. -/
def last (p : VictimPolicy) (active : List Instance) (desired : Nat) : List Instance :=
  (p.order active).drop (active.length - desired)

variable {p : VictimPolicy} {active : List Instance} {desired : Nat}

theorem length_last (h : desired ≤ active.length) : (p.last active desired).length = desired := by
  rw [last, List.length_drop, (p.order_perm active).length_eq]
  omega

theorem mem_of_mem_last {i : Instance} (h : i ∈ p.last active desired) : i ∈ active :=
  (p.order_perm active).subset (List.mem_of_mem_drop h)

theorem key_ne_of_last (hnodup : (active.map Instance.key).Nodup) {count : Nat}
    (hcount : count ≤ active.length - desired) {i j : Instance} (hi : i ∈ p.select active count)
    (hj : j ∈ p.last active desired) : i.key ≠ j.key := by
  have hsplit := nodup_keys_order hnodup p
  rw [← List.take_append_drop (active.length - desired) (p.order active), List.map_append] at hsplit
  have hi' : i ∈ (p.order active).take (active.length - desired) :=
    (List.take_sublist_take_left hcount).subset hi
  exact (List.nodup_append.mp hsplit).2.2 i.key (List.mem_map_of_mem hi') j.key
    (List.mem_map_of_mem hj)

theorem order_filter_eq {keep : Instance → Bool}
    (hkeep : ∀ i ∈ p.last active desired, keep i = true) :
    p.order (active.filter keep) =
      ((p.order active).take (active.length - desired)).filter keep ++ p.last active desired := by
  have hsplit := List.take_append_drop (active.length - desired) (p.order active)
  rw [order_filter, ← hsplit, List.filter_append, hsplit]
  congr 1
  exact List.filter_eq_self.mpr hkeep

theorem last_filter (hle : desired ≤ active.length) {keep : Instance → Bool}
    (hkeep : ∀ i ∈ p.last active desired, keep i = true) :
    p.last (active.filter keep) desired = p.last active desired := by
  have horder := order_filter_eq hkeep
  have hlength := congrArg List.length horder
  rw [(p.order_perm _).length_eq, List.length_append, length_last hle] at hlength
  have hdrop : (active.filter keep).length - desired =
      (((p.order active).take (active.length - desired)).filter keep).length := by omega
  rw [last, hdrop, horder, List.drop_left]

theorem filter_eq_last (hnodup : (active.map Instance.key).Nodup) (hle : desired ≤ active.length)
    {keep : Instance → Bool} (hkeep : ∀ i ∈ p.last active desired, keep i = true)
    (hlength : (active.filter keep).length = desired) :
    active.filter keep =
      active.filter fun i => ((p.last active desired).map Instance.key).contains i.key := by
  have horder := congrArg List.length (order_filter_eq hkeep)
  rw [(p.order_perm _).length_eq, List.length_append, length_last hle, hlength] at horder
  have hnil : ((p.order active).take (active.length - desired)).filter keep = [] :=
    List.eq_nil_of_length_eq_zero (by omega)
  apply List.filter_congr
  intro i hi
  have hmem := (p.order_perm active).mem_iff.mpr hi
  rw [← List.take_append_drop (active.length - desired) (p.order active), List.mem_append] at hmem
  rcases hmem with hfirst | hlast
  · have hdropped : keep i = false := by simpa using List.filter_eq_nil_iff.mp hnil i hfirst
    have habsent : i.key ∉ (p.last active desired).map Instance.key := by
      intro hkey
      obtain ⟨j, hj, heq⟩ := List.mem_map.mp hkey
      exact key_ne_of_last hnodup (Nat.le_refl _) hfirst hj heq.symm
    simp [hdropped, habsent]
  · have hpresent : i.key ∈ (p.last active desired).map Instance.key := List.mem_map_of_mem hlast
    rw [hkeep i hlast, List.contains_iff_mem.mpr hpresent]

end VictimPolicy

end ReplicaController
