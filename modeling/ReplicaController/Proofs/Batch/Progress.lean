import ReplicaController.Batch.Run

/-!
# What holds of every run of a batch

A step of a batch is a step of one slot that is not finished, with the other slots as they are. What
each such step keeps holds after every run, for every schedule. Each step lowers the work of its
slot, so a batch that takes all its steps ends with every slot finished.
-/

namespace ReplicaController.Batch

theorem forall_mem_exchange {α : Type} {P : α → Prop} {before after : List α} {old new : α}
    (h : ∀ a ∈ before ++ old :: after, P a) (hnew : P new) :
    ∀ a ∈ before ++ new :: after, P a := by
  intro a ha
  rw [List.mem_append, List.mem_cons] at ha
  rcases ha with ha | rfl | ha
  · exact h a (List.mem_append_left _ ha)
  · exact hnew
  · exact h a (List.mem_append_right _ (List.mem_cons_of_mem old ha))

theorem getElem?_exchange {α : Type} {before : List α} {k : Nat} (hk : k ≠ before.length)
    (after : List α) (old new : α) :
    (before ++ new :: after)[k]? = (before ++ old :: after)[k]? := by
  rw [List.getElem?_append, List.getElem?_append]
  split
  · rfl
  · rw [List.getElem?_cons, List.getElem?_cons, if_neg (by omega), if_neg (by omega)]

variable {σ : Type} (B : Backend σ)

theorem Slot.answered_cases (op : Operation) (n : Nat) (call : Mutation) (answer : Answer Unit) :
    (∃ outcome, (answered op n call answer).1 = .finished outcome) ∨
      ∃ i, call = .create i ∧ n < maxAttempts ∧
        (answered op n call answer).1 = .calling op (n + 1) := by
  unfold answered
  split
  · exact .inl ⟨_, rfl⟩
  · split
    · rename_i hagain
      exact .inr ⟨_, rfl, hagain.2, rfl⟩
    · exact .inl ⟨_, rfl⟩
  · exact .inl ⟨_, rfl⟩
  · split
    · exact .inl ⟨_, rfl⟩
    · exact .inl ⟨_, rfl⟩

theorem Slot.work_answered_lt (op : Operation) (n : Nat) (call : Mutation) (answer : Answer Unit) :
    (answered op n call answer).1.work < (Slot.inside op n call).work := by
  have hinside : (Slot.inside op n call).work = 2 * (maxAttempts - n) + 1 := rfl
  rcases answered_cases op n call answer with ⟨outcome, heq⟩ | ⟨i, -, hn, heq⟩
  · rw [heq]
    exact Nat.succ_pos _
  · have hcalling : (Slot.calling op (n + 1)).work = 2 * (maxAttempts - (n + 1)) + 2 := rfl
    rw [heq, hcalling, hinside]
    omega

theorem Slot.work_step_lt {slot : Slot} (h : slot.isFinished = false) (s : σ) :
    (slot.step B s).1.1.work < slot.work := by
  cases slot with
  | calling op n =>
    have hlt : ∀ call, (Slot.inside op n call).work < (Slot.calling op n).work :=
      fun _ => Nat.lt_succ_self _
    unfold step
    dsimp only
    split
    · exact hlt _
    · exact Nat.lt_trans (work_answered_lt op n _ _) (hlt _)
  | inside op n call => exact work_answered_lt op n call _
  | finished outcome => contradiction

theorem totalWork_append (xs ys : List Slot) :
    totalWork (xs ++ ys) = totalWork xs + totalWork ys := by
  induction xs with
  | nil => simp [totalWork]
  | cons x xs ih => simp only [List.cons_append, totalWork, ih, Nat.add_assoc]

namespace Progress

theorem mem_unfinished {p : Progress} {n : Nat} :
    n ∈ p.unfinished ↔ ∃ slot, p.slots[n]? = some slot ∧ slot.isFinished = false := by
  unfold unfinished
  rw [List.mem_filterMap]
  constructor
  · rintro ⟨⟨slot, m⟩, hm, h⟩
    split at h
    · contradiction
    · rename_i hf
      obtain rfl := Option.some.inj h
      exact ⟨slot, List.mem_zipIdx_iff_getElem?.mp hm, by simpa using hf⟩
  · rintro ⟨slot, hs, hf⟩
    exact ⟨(slot, n), List.mem_zipIdx_iff_getElem?.mpr hs, by simp [hf]⟩

theorem pick_mem_unfinished {p : Progress} (h : p.isFinished = false) (choice : Nat) :
    p.pick choice ∈ p.unfinished := by
  have hne : p.unfinished ≠ [] := by
    intro hnil
    obtain ⟨slot, hm, hf⟩ := List.all_eq_false.mp h
    obtain ⟨n, hn⟩ := List.mem_iff_getElem?.mp hm
    have hmem := mem_unfinished.mpr ⟨slot, hn, by simpa using hf⟩
    rw [hnil] at hmem
    contradiction
  have hlt : choice % p.unfinished.length < p.unfinished.length :=
    Nat.mod_lt _ (List.length_pos_iff.mpr hne)
  unfold pick
  simp only [List.getD_eq_getElem?_getD, List.getElem?_eq_getElem hlt, Option.getD_some]
  exact List.getElem_mem hlt

theorem exists_stepAt {p : Progress} (h : p.isFinished = false) (choice : Nat) (s : σ) :
    ∃ before slot after, slot.isFinished = false ∧ p.slots = before ++ slot :: after ∧
      before.length = p.pick choice ∧ p.stepAt B (p.pick choice) s =
        (⟨before ++ (slot.step B s).1.1 :: after, p.events ++ (slot.step B s).1.2⟩,
          (slot.step B s).2) := by
  obtain ⟨slot, hs, hf⟩ := mem_unfinished.mp (pick_mem_unfinished h choice)
  obtain ⟨hlt, hget⟩ := List.getElem?_eq_some_iff.mp hs
  obtain ⟨before, after, hsplit, hlength, hset⟩ :=
    @List.exists_of_set Slot _ (slot.step B s).1.1 p.slots hlt
  rw [hget] at hsplit
  refine ⟨before, slot, after, hf, hsplit, hlength, ?_⟩
  unfold stepAt
  simp only [hs, hset]

end Progress

/-- The induction over a run: what the steps of single slots keep, the run keeps. -/
theorem run_induction {P : Progress → σ → Prop}
    (step : ∀ before slot after events s, slot.isFinished = false →
      P ⟨before ++ slot :: after, events⟩ s →
      P ⟨before ++ (slot.step B s).1.1 :: after, events ++ (slot.step B s).1.2⟩ (slot.step B s).2)
    (plan : Schedule) (n : Nat) {p : Progress} {s : σ} (h : P p s) :
    P (run B plan n p s).1 (run B plan n p s).2 := by
  induction n generalizing p s with
  | zero => exact h
  | succ n ih =>
    unfold run
    split
    · exact h
    · rename_i hf
      obtain ⟨before, slot, after, hslot, hsplit, -, hstep⟩ :=
        Progress.exists_stepAt B (by simpa using hf) (plan n p.slots) s
      rw [hstep]
      apply ih
      apply step before slot after p.events s hslot
      rw [← hsplit]
      exact h

theorem run_isFinished (plan : Schedule) {n : Nat} {p : Progress} (h : p.work ≤ n) (s : σ) :
    (run B plan n p s).1.isFinished = true := by
  induction n generalizing p s with
  | zero =>
    unfold run
    apply List.all_eq_true.mpr
    intro slot hm
    obtain ⟨xs, ys, hsplit⟩ := List.append_of_mem hm
    have hwork : p.work = totalWork xs + (slot.work + totalWork ys) := by
      rw [Progress.work, hsplit, totalWork_append, totalWork]
    cases slot with
    | calling op k => have : (Slot.calling op k).work ≠ 0 := Nat.succ_ne_zero _; omega
    | inside op k call => have : (Slot.inside op k call).work ≠ 0 := Nat.succ_ne_zero _; omega
    | finished outcome => rfl
  | succ n ih =>
    unfold run
    split
    · assumption
    · rename_i hf
      obtain ⟨before, slot, after, hslot, hsplit, -, hstep⟩ :=
        Progress.exists_stepAt B (by simpa using hf) (plan n p.slots) s
      rw [hstep]
      apply ih
      have hlt := slot.work_step_lt B hslot s
      rw [Progress.work, hsplit, totalWork_append, totalWork] at h
      rw [Progress.work, totalWork_append, totalWork]
      omega

theorem finish_isFinished (plan : Schedule) (p : Progress) (s : σ) :
    (finish B plan p s).1.isFinished = true := run_isFinished B plan (Nat.le_refl _) s

def Operation.Makes : Operation → Mutation → Prop
  | .create stamp, call => ∃ d, call = .create (stamp.build d)
  | .delete key, call => call = .delete key

/-- Every call that the slot is inside or may still make has the property. -/
def Slot.Calls (P : Mutation → Prop) : Slot → Prop
  | .calling op _ => ∀ call, op.Makes call → P call
  | .inside op _ call => (∀ call, op.Makes call → P call) ∧ P call
  | .finished _ => True

/-- Calls with the property `P` keep `Q`. -/
structure CallsKeepIf (P : Mutation → Prop) (Q : σ → Prop) : Prop where
  enter : ∀ call s, P call → Q s → Q (B.enter call s).2
  leave : ∀ call s, P call → Q s → Q (B.leave call s).2
  draw : ∀ s, Q s → Q (B.draw s).2

/-- The calls that the operations of a batch make keep the property. -/
structure CallsKeep (P : σ → Prop) : Prop where
  enter : ∀ m s, P s → P (B.enter m s).2
  leave : ∀ m s, P s → P (B.leave m s).2
  draw : ∀ s, P s → P (B.draw s).2

variable {B}

section CallsKeepIf

variable {P : Mutation → Prop} {Q : σ → Prop}

theorem Slot.calls_answered {op : Operation} (h : ∀ call, op.Makes call → P call) (n : Nat)
    (call : Mutation) (answer : Answer Unit) : (answered op n call answer).1.Calls P := by
  rcases answered_cases op n call answer with ⟨outcome, heq⟩ | ⟨i, -, -, heq⟩
  · exact heq ▸ trivial
  · exact heq ▸ h

theorem Slot.step_keepsIf (keeps : CallsKeepIf B P Q) {slot : Slot} (hslot : slot.Calls P) {s : σ}
    (h : Q s) : (slot.step B s).1.1.Calls P ∧ Q (slot.step B s).2 := by
  cases slot with
  | calling op n =>
    have hnext : P (nextCall B op s).1 ∧ Q (nextCall B op s).2 := by
      cases op with
      | create stamp => exact ⟨hslot _ ⟨_, rfl⟩, keeps.draw s h⟩
      | delete key => exact ⟨hslot _ rfl, h⟩
    have henter := keeps.enter (nextCall B op s).1 _ hnext.1 hnext.2
    unfold step
    dsimp only
    split
    · rename_i he
      rw [he] at henter
      exact ⟨⟨hslot, hnext.1⟩, henter⟩
    · rename_i he
      rw [he] at henter
      exact ⟨calls_answered hslot n _ _, henter⟩
  | inside op n call => exact ⟨calls_answered hslot.1 n call _, keeps.leave call s hslot.2 h⟩
  | finished outcome => exact ⟨trivial, h⟩

theorem run_keepsIf (keeps : CallsKeepIf B P Q) (plan : Schedule) (n : Nat) {p : Progress} {s : σ}
    (hslots : ∀ slot ∈ p.slots, slot.Calls P) (h : Q s) :
    (∀ slot ∈ (run B plan n p s).1.slots, slot.Calls P) ∧ Q (run B plan n p s).2 := by
  refine run_induction B (P := fun p s => (∀ slot ∈ p.slots, slot.Calls P) ∧ Q s) ?_ plan n
    ⟨hslots, h⟩
  rintro before slot after events s - ⟨hall, hs⟩
  obtain ⟨hnext, hs'⟩ := Slot.step_keepsIf keeps (hall slot (by simp)) hs
  exact ⟨forall_mem_exchange hall hnext, hs'⟩

end CallsKeepIf

theorem Slot.calls_true (slot : Slot) : slot.Calls fun _ => True := by
  cases slot with
  | calling op n => exact fun _ _ => trivial
  | inside op n call => exact ⟨fun _ _ => trivial, trivial⟩
  | finished outcome => trivial

theorem run_keeps {P : σ → Prop} (keeps : CallsKeep B P) (plan : Schedule) (n : Nat)
    (p : Progress) {s : σ} (h : P s) : P (run B plan n p s).2 := by
  have keepsIf : CallsKeepIf B (fun _ => True) P :=
    ⟨fun call s _ => keeps.enter call s, fun call s _ => keeps.leave call s, keeps.draw⟩
  exact (run_keepsIf keepsIf plan n (fun slot _ => slot.calls_true) h).2

end ReplicaController.Batch
