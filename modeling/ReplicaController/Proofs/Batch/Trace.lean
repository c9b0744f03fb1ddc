import Mathlib.Data.List.Basic
import Mathlib.Data.List.Induction
import ReplicaController.Proofs.Batch.Progress

/-!
# The calls of a batch

The trace of a run lists the calls that were answered in it, each with the slot that made it and
the state that it found. What a slot has come to is told by the calls that it made: all but the last
one were creations that collided, and the last one gave the outcome and the event. So the events of
a run are those that its calls deserve.
-/

namespace ReplicaController.Batch

/-- A call that was answered, made by the operation of a slot as its `attempt`-th. -/
structure Reply (σ : Type) where
  slot : Nat
  op : Operation
  attempt : Nat
  call : Mutation
  answer : Answer Unit
  found : σ

variable {σ : Type} {B : Backend σ}

namespace Reply

def collides (r : Reply σ) : Bool :=
  match r.call, r.answer with
  | .create _, .error e => e.isAlreadyExists
  | _, _ => false

theorem collides_of_ok {r : Reply σ} (h : r.answer = .ok ()) : r.collides = false := by
  unfold collides
  rw [h]
  split
  · contradiction
  · rfl

def retried (r : Reply σ) : Bool := r.collides && r.attempt < maxAttempts

/-- The event that the call deserves if it is the last one of its operation. -/
def notice? (r : Reply σ) : Option Event :=
  match r.call, r.answer with
  | .create i, .ok () => some (.created i.key)
  | .create i, .error e => some (.createFailed i.key e)
  | .delete key, .ok () => some (.deleted key)
  | .delete key, .error e => if e.isNotFound then none else some (.deleteFailed key e)

def event? (r : Reply σ) : Option Event := if r.retried then none else r.notice?

end Reply

namespace Slot

/-- The call that is answered in the next step of the slot, if one is. -/
def reply? (B : Backend σ) (place : Nat) (slot : Slot) (s : σ) : Option (Reply σ) :=
  match slot with
  | .calling op n =>
    let (call, s) := nextCall B op s
    match (B.enter call s).1 with
    | .ok () => none
    | .error e => some ⟨place, op, n, call, .error e, s⟩
  | .inside op n call => some ⟨place, op, n, call, (B.leave call s).1, s⟩
  | .finished _ => none

theorem answered_eq (r : Reply σ) : answered r.op r.attempt r.call r.answer =
    (if r.retried then .calling r.op (r.attempt + 1) else .finished r.answer, r.event?.toList) := by
  obtain ⟨slot, op, n, call, answer, found⟩ := r
  unfold answered Reply.event? Reply.retried Reply.collides Reply.notice?
  cases call with
  | create i =>
    cases answer with
    | ok => rfl
    | error e => cases h : e.isAlreadyExists <;> by_cases hn : n < maxAttempts <;> simp [h, hn]
  | delete key =>
    cases answer with
    | ok => rfl
    | error e => cases h : e.isNotFound <;> simp [h]

end Slot

/-- The calls that are answered in a run, in their order. -/
def trace (B : Backend σ) (plan : Schedule) : Nat → Progress → σ → List (Reply σ)
  | 0, _, _ => []
  | n + 1, p, s =>
    if p.isFinished then []
    else
      let place := p.pick (plan n p.slots)
      let (p', s') := p.stepAt B place s
      ((p.slots[place]?).bind (·.reply? B place s)).toList ++ trace B plan n p' s'

theorem trace_induction {P : List (Reply σ) → Progress → σ → Prop}
    (step : ∀ told before slot after events s, slot.isFinished = false →
      P told ⟨before ++ slot :: after, events⟩ s →
      P (told ++ (slot.reply? B before.length s).toList)
        ⟨before ++ (slot.step B s).1.1 :: after, events ++ (slot.step B s).1.2⟩ (slot.step B s).2)
    (plan : Schedule) (n : Nat) {p : Progress} {s : σ} (h : P [] p s) :
    P (trace B plan n p s) (run B plan n p s).1 (run B plan n p s).2 := by
  suffices ∀ told, P told p s →
      P (told ++ trace B plan n p s) (run B plan n p s).1 (run B plan n p s).2 from this [] h
  clear h
  induction n generalizing p s with
  | zero =>
    intro told h
    simpa [trace, run] using h
  | succ n ih =>
    intro told h
    unfold run trace
    split
    · simpa using h
    · rename_i hf
      obtain ⟨before, slot, after, hslot, hsplit, hplace, hstep⟩ :=
        Progress.exists_stepAt B (by simpa using hf) (plan n p.slots) s
      have hthere : p.slots[before.length]? = some slot := by simp [hsplit]
      dsimp only
      rw [hstep, ← hplace, hthere, ← List.append_assoc]
      apply ih
      apply step _ before slot after p.events s hslot
      rw [← hsplit]
      exact h

theorem forall_mem_trace {P : Reply σ → Prop}
    (h : ∀ place slot s r, Slot.reply? B place slot s = some r → P r) (plan : Schedule) (n : Nat)
    (p : Progress) (s : σ) : ∀ r ∈ trace B plan n p s, P r := by
  refine trace_induction (P := fun told _ _ => ∀ r ∈ told, P r) ?_ plan n (by simp)
  intro told before slot after events s _ htold r hr
  rcases List.mem_append.mp hr with hr | hr
  · exact htold r hr
  · exact h before.length slot s r (Option.mem_toList.mp hr)

/-- The calls that the slot at this place has made. -/
def callsOf (place : Nat) (told : List (Reply σ)) : List (Reply σ) := told.filter (·.slot == place)

theorem callsOf_append {place : Nat} {more : List (Reply σ)} (h : ∀ r ∈ more, r.slot = place)
    (told : List (Reply σ)) : callsOf place (told ++ more) = callsOf place told ++ more := by
  rw [callsOf, List.filter_append, List.filter_eq_self.mpr fun r hr => beq_iff_eq.mpr (h r hr)]
  rfl

theorem callsOf_append_of_ne {place k : Nat} {more : List (Reply σ)}
    (h : ∀ r ∈ more, r.slot = place) (hk : k ≠ place) (told : List (Reply σ)) :
    callsOf k (told ++ more) = callsOf k told := by
  have hnone : more.filter (·.slot == k) = [] :=
    List.filter_eq_nil_iff.mpr fun r hr heq => hk (h r hr ▸ (beq_iff_eq.mp heq).symm)
  rw [callsOf, List.filter_append, hnone, List.append_nil]
  rfl

theorem perm_callsOf {n : Nat} {told : List (Reply σ)} (h : ∀ r ∈ told, r.slot < n) :
    told.Perm ((List.range n).flatMap (callsOf · told)) := by
  induction n generalizing told with
  | zero =>
    have hnil : told = [] :=
      List.eq_nil_iff_forall_not_mem.mpr fun r hr => absurd (h r hr) (by simp)
    rw [hnil]
    rfl
  | succ n ih =>
    let rest := told.filter fun r => !(r.slot == n)
    have hrest : ∀ r ∈ rest, r.slot < n := by
      intro r hr
      obtain ⟨hmem, hne⟩ := List.mem_filter.mp hr
      have hlt := h r hmem
      have hne' : r.slot ≠ n := by simpa using hne
      omega
    have hsame : ∀ k ∈ List.range n, callsOf k rest = callsOf k told := by
      intro k hk
      rw [callsOf, callsOf, List.filter_filter]
      refine List.filter_congr fun r _ => ?_
      have hne : k ≠ n := Nat.ne_of_lt (List.mem_range.mp hk)
      by_cases hr : r.slot = k
      · simp [hr, hne]
      · simp [hr]
    have hsplit : (rest ++ callsOf n told).Perm told :=
      List.perm_append_comm.trans (List.filter_append_perm (fun r : Reply σ => r.slot == n) told)
    rw [List.range_succ, List.flatMap_append, List.flatMap_singleton, ← List.flatMap_congr hsame]
    exact hsplit.symm.trans ((ih hrest).append_right _)

/-- The last call of each of so many slots that has made one. -/
def lasts (n : Nat) (told : List (Reply σ)) : List (Reply σ) :=
  (List.range n).filterMap fun k => (callsOf k told).getLast?

theorem filterMap_places {α : Type} (l : List α) :
    (List.range l.length).filterMap (fun k => l[k]?) = l := by
  induction l using List.reverseRecOn with
  | nil => rfl
  | append_singleton l a ih =>
    have hfront : ∀ k ∈ List.range l.length, (l ++ [a])[k]? = l[k]? := fun k hk =>
      List.getElem?_append_left (List.mem_range.mp hk)
    rw [List.length_append, List.length_singleton, List.range_succ, List.filterMap_append,
      List.filterMap_congr hfront, ih]
    simp

/-- The first calls of an operation, each followed by another one. -/
structure Going (op : Operation) (told : List (Reply σ)) : Prop where
  makes : ∀ r ∈ told, r.op = op ∧ op.Makes r.call
  attempts : told.map (·.attempt) = List.range' 1 told.length
  retried : ∀ r ∈ told, r.retried = true
  length_lt : told.length < maxAttempts

/-- What the calls of an operation tell of its slot. -/
inductive Story (op : Operation) : List (Reply σ) → Slot → Prop
  | calling {told : List (Reply σ)} (going : Going op told) :
    Story op told (.calling op (told.length + 1))
  | inside {told : List (Reply σ)} {call : Mutation} (going : Going op told)
    (makes : op.Makes call) : Story op told (.inside op (told.length + 1) call)
  | finished {told : List (Reply σ)} {last : Reply σ} (going : Going op told) (op_eq : last.op = op)
    (makes : op.Makes last.call) (attempt_eq : last.attempt = told.length + 1)
    (retried : last.retried = false) : Story op (told ++ [last]) (.finished last.answer)

theorem Slot.nextCall_makes (B : Backend σ) (op : Operation) (s : σ) :
    op.Makes (nextCall B op s).1 := by
  cases op with
  | create stamp => exact ⟨_, rfl⟩
  | delete key => rfl

variable {op : Operation} {told : List (Reply σ)} {slot : Slot}

theorem Going.nil (op : Operation) : Going op ([] : List (Reply σ)) :=
  ⟨by simp, rfl, by simp, Nat.succ_pos 4⟩

theorem Going.answered (h : Going op told) {r : Reply σ} (hop : r.op = op)
    (hmakes : op.Makes r.call) (hattempt : r.attempt = told.length + 1) :
    Story op (told ++ [r]) (Slot.answered r.op r.attempt r.call r.answer).1 := by
  rw [Slot.answered_eq]
  cases hretried : r.retried with
  | false => exact .finished h hop hmakes hattempt hretried
  | true =>
    have hlt : r.attempt < maxAttempts := by
      rw [Reply.retried, Bool.and_eq_true, decide_eq_true_eq] at hretried
      exact hretried.2
    have hgoing : Going op (told ++ [r]) := by
      refine ⟨?_, ?_, ?_, ?_⟩
      · intro t ht
        rcases List.mem_append.mp ht with ht | ht
        · exact h.makes t ht
        · exact List.mem_singleton.mp ht ▸ ⟨hop, hmakes⟩
      · rw [List.map_append, h.attempts, List.length_append, List.length_singleton,
          List.range'_concat]
        simp [hattempt, Nat.add_comm]
      · intro t ht
        rcases List.mem_append.mp ht with ht | ht
        · exact h.retried t ht
        · exact List.mem_singleton.mp ht ▸ hretried
      · simpa [hattempt] using hlt
    have hlength : r.attempt + 1 = (told ++ [r]).length + 1 := by simp [hattempt]
    rw [if_pos rfl, hop, hlength]
    exact .calling hgoing

theorem Going.collides (h : Going op told) : ∀ r ∈ told, r.collides = true := by
  intro r hr
  have hretried := h.retried r hr
  rw [Reply.retried, Bool.and_eq_true] at hretried
  exact hretried.1

theorem filterMap_event?_singleton (r : Reply σ) :
    [r].filterMap Reply.event? = r.event?.toList := by
  cases h : r.event? <;> simp [h]

theorem Going.filterMap_event? (h : Going op told) : told.filterMap Reply.event? = [] :=
  List.filterMap_eq_nil_iff.mpr fun r hr => by simp [Reply.event?, h.retried r hr]

theorem Story.step (h : Story op told slot) (hf : slot.isFinished = false) (place : Nat) (s : σ) :
    Story op (told ++ (slot.reply? B place s).toList) (slot.step B s).1.1 ∧
      (slot.step B s).1.2 = (slot.reply? B place s).toList.filterMap Reply.event? ∧
      ∀ r ∈ (slot.reply? B place s).toList, r.slot = place := by
  have hanswered : ∀ (going : Going op told) (call : Mutation), op.Makes call →
      ∀ (answer : Answer Unit) (found : σ),
      let r : Reply σ := ⟨place, op, told.length + 1, call, answer, found⟩
      Story op (told ++ [r]) (Slot.answered op (told.length + 1) call answer).1 ∧
      (Slot.answered op (told.length + 1) call answer).2 = [r].filterMap Reply.event? ∧
      ∀ t ∈ [r], t.slot = place := by
    intro going call hmakes answer found r
    refine ⟨going.answered (r := r) rfl hmakes rfl, ?_, by simp [r]⟩
    rw [filterMap_event?_singleton]
    exact congrArg Prod.snd (Slot.answered_eq r)
  cases h with
  | calling going =>
    have hmakes := Slot.nextCall_makes B op s
    simp only [Slot.step, Slot.reply?]
    generalize Slot.nextCall B op s = next at hmakes ⊢
    obtain ⟨call, s₁⟩ := next
    dsimp only at hmakes ⊢
    cases henter : B.enter call s₁ with
    | mk answer s₂ =>
      cases answer with
      | ok => simpa using Story.inside going hmakes
      | error e => exact hanswered going call hmakes (.error e) s₁
  | inside going hmakes => exact hanswered going _ hmakes _ s
  | finished => contradiction

/-- How a batch of these operations stands, and what the calls that were answered tell of it. -/
structure Accounted (ops : List Operation) (told : List (Reply σ)) (p : Progress) : Prop where
  length_eq : p.slots.length = ops.length
  story : ∀ k op slot, ops[k]? = some op → p.slots[k]? = some slot → Story op (callsOf k told) slot
  events_eq : p.events = told.filterMap Reply.event?
  slot_lt : ∀ r ∈ told, r.slot < ops.length

namespace Accounted

variable {ops : List Operation}

theorem start (ops : List Operation) : Accounted ops ([] : List (Reply σ)) (.start ops) where
  length_eq := by simp [Progress.start]
  story := by
    intro k op slot hop hslot
    simp only [Progress.start, List.getElem?_map, hop, Option.map_some, Option.some.injEq] at hslot
    exact hslot ▸ .calling (.nil op)
  events_eq := rfl
  slot_lt := by simp

theorem step {before after : List Slot} {events : List Event} {s : σ}
    (h : Accounted ops told ⟨before ++ slot :: after, events⟩) (hf : slot.isFinished = false) :
    Accounted ops (told ++ (slot.reply? B before.length s).toList)
      ⟨before ++ (slot.step B s).1.1 :: after, events ++ (slot.step B s).1.2⟩ := by
  obtain ⟨hlength, hstory, hevents, hlt⟩ := h
  have hplace : before.length < ops.length := by
    rw [← hlength]
    simp
  have hown := hstory before.length ops[before.length] slot (List.getElem?_eq_getElem hplace)
    (by simp)
  obtain ⟨hnext, hmade, hslot⟩ := hown.step hf before.length s (B := B)
  refine ⟨by simpa using hlength, ?_, ?_, ?_⟩
  · intro k op slot' hop hslot'
    by_cases hk : k = before.length
    · subst hk
      obtain rfl : ops[before.length] = op := by
        simpa [List.getElem?_eq_getElem hplace] using hop
      obtain rfl : (slot.step B s).1.1 = slot' := by simpa using hslot'
      exact callsOf_append hslot told ▸ hnext
    · rw [callsOf_append_of_ne hslot hk]
      exact hstory k op slot' hop ((getElem?_exchange hk after slot _).symm.trans hslot')
  · rw [List.filterMap_append, hmade]
    exact congrArg (· ++ _) hevents
  · intro r hr
    rcases List.mem_append.mp hr with hr | hr
    · exact hlt r hr
    · exact hslot r hr ▸ hplace

theorem of_trace (B : Backend σ) (plan : Schedule) (n : Nat) (ops : List Operation) (s : σ) :
    Accounted ops (trace B plan n (.start ops) s) (run B plan n (.start ops) s).1 :=
  trace_induction (P := fun told p _ => Accounted ops told p)
    (fun _ _ _ _ _ _ hf h => h.step hf) plan n (.start ops)

/-- Each operation that is finished has made a last call, which gave its outcome. -/
theorem exists_last {p : Progress} (h : Accounted ops told p) (hfin : p.isFinished = true) {k : Nat}
    {op : Operation} (hop : ops[k]? = some op) :
    ∃ earlier last, callsOf k told = earlier ++ [last] ∧ Going op earlier ∧ last.op = op ∧
      op.Makes last.call ∧ last.attempt = earlier.length + 1 ∧ last.retried = false ∧
      p.slots[k]? = some (.finished last.answer) := by
  have hk : k < p.slots.length := by
    rw [h.length_eq]
    exact (List.getElem?_eq_some_iff.mp hop).1
  have hslot : p.slots[k]? = some p.slots[k] := List.getElem?_eq_getElem hk
  have hend := List.all_eq_true.mp hfin _ (List.getElem_mem hk)
  have hstory := h.story k op _ hop hslot
  generalize p.slots[k] = slot at hslot hend hstory
  generalize callsOf k told = calls at hstory
  cases hstory with
  | calling | inside => contradiction
  | finished going hop hmakes hattempt hretried =>
    exact ⟨_, _, rfl, going, hop, hmakes, hattempt, hretried, hslot⟩

theorem perm {p : Progress} (h : Accounted ops told p) :
    told.Perm ((List.range ops.length).flatMap (callsOf · told)) := perm_callsOf h.slot_lt

theorem slots_eq {p : Progress} (h : Accounted ops told p) (hfin : p.isFinished = true) :
    p.slots = (lasts ops.length told).map fun r => .finished r.answer := by
  rw [lasts, List.map_filterMap, ← filterMap_places p.slots, h.length_eq]
  refine List.filterMap_congr fun k hk => ?_
  obtain ⟨earlier, last, hcalls, -, -, -, -, -, hslot⟩ :=
    h.exists_last hfin (List.getElem?_eq_getElem (List.mem_range.mp hk))
  rw [hslot, hcalls, List.getLast?_concat, Option.map_some]

theorem length_lasts {p : Progress} (h : Accounted ops told p) (hfin : p.isFinished = true) :
    (lasts ops.length told).length = ops.length := by
  have hlength := congrArg List.length (h.slots_eq hfin)
  rw [List.length_map, h.length_eq] at hlength
  exact hlength.symm

/-- The events of a finished batch are those that the last calls of its operations deserve. -/
theorem events_perm {p : Progress} (h : Accounted ops told p) (hfin : p.isFinished = true) :
    p.events.Perm ((lasts ops.length told).filterMap Reply.notice?) := by
  rw [h.events_eq]
  refine (h.perm.filterMap _).trans (List.Perm.of_eq ?_)
  rw [lasts, List.filterMap_filterMap, List.filterMap_flatMap, List.filterMap_eq_flatMap_toList]
  refine List.flatMap_congr fun k hk => ?_
  obtain ⟨earlier, last, hcalls, going, -, -, -, hretried, -⟩ :=
    h.exists_last hfin (List.getElem?_eq_getElem (List.mem_range.mp hk))
  rw [hcalls, List.filterMap_append, going.filterMap_event?, filterMap_event?_singleton,
    List.getLast?_concat]
  simp [Reply.event?, hretried]

end Accounted

end ReplicaController.Batch
