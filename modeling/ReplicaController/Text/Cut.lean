/-!
# Cutting a text at a mark

`cutOnce` parts a text at the first occurrence of a character, which belongs to neither part.
-/

namespace ReplicaController.Text

def cutOnce (mark : Char) : List Char → Option (List Char × List Char)
  | [] => none
  | c :: cs =>
    if c = mark then some ([], cs)
    else (cutOnce mark cs).map fun parts => (c :: parts.1, parts.2)

theorem cutOnce_append {mark : Char} {before : List Char} (after : List Char)
    (h : mark ∉ before) : cutOnce mark (before ++ mark :: after) = some (before, after) := by
  induction before with
  | nil => simp [cutOnce]
  | cons c cs ih =>
    have hc : c ≠ mark := fun e => h (e ▸ List.mem_cons_self)
    have hcs : mark ∉ cs := fun m => h (List.mem_cons_of_mem c m)
    simp [cutOnce, hc, ih hcs]

theorem cutOnce_eq_some_iff {mark : Char} {cs before after : List Char} :
    cutOnce mark cs = some (before, after) ↔ cs = before ++ mark :: after ∧ mark ∉ before := by
  constructor
  · intro h
    induction cs generalizing before with
    | nil => simp [cutOnce] at h
    | cons c cs ih =>
      unfold cutOnce at h
      split at h
      · rename_i hc; simp_all
      · rename_i hc
        obtain ⟨⟨b, a⟩, hb, he⟩ := Option.map_eq_some_iff.mp h
        obtain ⟨rfl, rfl⟩ := Prod.mk.inj he
        obtain ⟨rfl, hn⟩ := ih hb
        exact ⟨rfl, fun m => (List.mem_cons.mp m).elim (fun e => hc e.symm) hn⟩
  · rintro ⟨rfl, h⟩
    exact cutOnce_append after h

theorem cutOnce_eq_none_iff {mark : Char} {cs : List Char} :
    cutOnce mark cs = none ↔ mark ∉ cs := by
  induction cs with
  | nil => simp [cutOnce]
  | cons c cs ih =>
    by_cases hc : c = mark
    · simp [cutOnce, hc]
    · have hm : ¬ mark = c := fun e => hc e.symm
      simp [cutOnce, hc, hm, ih]

end ReplicaController.Text
