import ReplicaController.Batch.Executor
import ReplicaController.Proofs.Batch.Summary

/-!
# What an executor returns

Each event but a signal takes one task from its stage to the next, or makes the executor return. So
a batch whose operations all come to an end, and that shutdown does not reach, gets as far as its
return in every order of events. What it returns are the counts of its slots, or the error of the
lowest slot that failed, and the order of events has no part in it.
-/

namespace ReplicaController.Batch

namespace Fate

def isOk : Fate → Bool
  | .answers (.ok _) => true
  | _ => false

def isAbsent : Fate → Bool
  | .answers (.error e) => e.isNotFound
  | _ => false

def fails (kind : Kind) (f : Fate) : Bool := !f.isOk && !(kind == .delete && f.isAbsent)

/-- The error of an operation that fails, a fixed one if it gives no answer. -/
def error : Fate → StoreError
  | .answers (.error e) => e
  | _ => brokenOff

variable {kind : Kind} {f : Fate}

theorem isAbsent_of_isOk (h : f.isOk = true) : f.isAbsent = false := by
  cases f with
  | answers a =>
    cases a with
    | ok u => rfl
    | error e => contradiction
  | breaksOff | hangs => rfl

theorem judge_result (kind : Kind) (f : Fate) :
    judge kind f.result =
      if f.isOk then .succeeded
      else if kind == .delete && f.isAbsent then .alreadyAbsent
      else .failed f.error := by
  cases f with
  | answers a =>
    cases a with
    | ok u => rfl
    | error e => simp [result, judge, isOk, isAbsent, error]
  | breaksOff | hangs => simp [result, judge, isOk, isAbsent, error]

theorem judge_beq_succeeded (kind : Kind) (f : Fate) :
    (judge kind f.result == .succeeded) = f.isOk := by
  rw [judge_result]
  by_cases hok : f.isOk = true
  · simp [hok]
  · by_cases habsent : (kind == .delete && f.isAbsent) = true
    · simp [hok, habsent]
    · simp [hok, habsent]

theorem judge_beq_alreadyAbsent (kind : Kind) (f : Fate) :
    (judge kind f.result == .alreadyAbsent) = (kind == .delete && f.isAbsent) := by
  rw [judge_result]
  by_cases hok : f.isOk = true
  · simp [hok, isAbsent_of_isOk hok]
  · by_cases habsent : (kind == .delete && f.isAbsent) = true
    · simp [hok, habsent]
    · simp [hok, habsent]

theorem failure?_judge (kind : Kind) (f : Fate) :
    (judge kind f.result).failure? = if f.fails kind then some f.error else none := by
  rw [judge_result, fails]
  by_cases hok : f.isOk = true
  · simp [hok, Verdict.failure?]
  · by_cases habsent : (kind == .delete && f.isAbsent) = true
    · simp [hok, habsent, Verdict.failure?]
    · simp [hok, habsent, Verdict.failure?]

end Fate

section Summary

variable (kind : Kind) (fates : List Fate)

def absentees : Nat := fates.countP fun f => kind == .delete && f.isAbsent

theorem count_succeeded :
    ((fates.map Fate.result).map (judge kind)).count .succeeded = fates.countP (·.isOk) := by
  rw [List.count, List.map_map, List.countP_map]
  exact List.countP_congr fun f _ => by simp [Fate.judge_beq_succeeded]

theorem count_alreadyAbsent :
    ((fates.map Fate.result).map (judge kind)).count .alreadyAbsent = absentees kind fates := by
  rw [List.count, List.map_map, List.countP_map]
  exact List.countP_congr fun f _ => by simp [Fate.judge_beq_alreadyAbsent]

theorem failuresOf_map_result :
    failuresOf kind (fates.map Fate.result) = (fates.filter (·.fails kind)).map Fate.error := by
  induction fates with
  | nil => rfl
  | cons f fates ih =>
    rw [List.map_cons, failuresOf_cons, Fate.failure?_judge, ih]
    by_cases h : f.fails kind = true
    · simp [h]
    · simp [h]

theorem length_eq_countP :
    fates.countP (·.isOk) + absentees kind fates + fates.countP (·.fails kind) = fates.length := by
  unfold absentees
  induction fates with
  | nil => rfl
  | cons f fates ih =>
    have hone : (if f.isOk = true then 1 else 0) +
        (if (kind == .delete && f.isAbsent) = true then 1 else 0) +
        (if f.fails kind = true then 1 else 0) = 1 := by
      by_cases hok : f.isOk = true
      · simp [Fate.fails, hok, Fate.isAbsent_of_isOk hok]
      · by_cases habsent : (kind == .delete && f.isAbsent) = true
        · simp [Fate.fails, hok, habsent]
        · simp [Fate.fails, hok, habsent]
    simp only [List.countP_cons, List.length_cons]
    omega

/-- What a batch of these operations reports: its counts if no slot failed, and otherwise how many
failed and the error of the lowest of them. -/
structure Reports (r : Except Error Summary) : Prop where
  ok : (∀ f ∈ fates, f.fails kind = false) →
    r = .ok ⟨fates.length, fates.countP (·.isOk), absentees kind fates⟩
  partialFailure : ∀ before f after, fates = before ++ f :: after →
    (∀ g ∈ before, g.fails kind = false) → f.fails kind = true →
    r = .error (.partialFailure kind fates.length (fates.countP (·.fails kind)) f.error)

theorem reports_summarize : Reports kind fates (summarize kind (fates.map Fate.result)) := by
  have hfailures := failuresOf_map_result kind fates
  constructor
  · intro hnone
    have hnil : fates.filter (·.fails kind) = [] :=
      List.filter_eq_nil_iff.mpr fun f hf => by simp [hnone f hf]
    rw [hnil, List.map_nil] at hfailures
    simp only [summarize_eq, hfailures, count_succeeded, count_alreadyAbsent, List.length_map]
  · intro before f after hsplit hbefore hf
    have hnil : before.filter (·.fails kind) = [] :=
      List.filter_eq_nil_iff.mpr fun g hg => by simp [hbefore g hg]
    have hfirst : fates.filter (·.fails kind) = f :: after.filter (·.fails kind) := by
      rw [hsplit, List.filter_append, hnil, List.nil_append, List.filter_cons_of_pos hf]
    rw [hfirst, List.map_cons] at hfailures
    rw [List.countP_eq_length_filter, hfirst]
    simp only [summarize_eq, hfailures, List.length_map, List.length_cons]

end Summary

def Stage.rank : Stage → Nat
  | .waiting => 3
  | .invoked => 2
  | .ended => 1
  | .collected => 0

def totalRank : List Task → Nat
  | [] => 0
  | t :: ts => t.stage.rank + totalRank ts

theorem Stage.rank_injective : Function.Injective Stage.rank := by
  intro s t h
  cases s <;> cases t <;> first | rfl | contradiction

theorem totalRank_append (ts us : List Task) :
    totalRank (ts ++ us) = totalRank ts + totalRank us := by
  induction ts with
  | nil => simp [totalRank]
  | cons t ts ih => simp only [List.cons_append, totalRank, ih, Nat.add_assoc]

theorem totalRank_waiting (fates : List Fate) :
    totalRank (fates.map fun f => ⟨f, .waiting⟩) = 3 * fates.length := by
  induction fates with
  | nil => rfl
  | cons f fates ih =>
    rw [List.map_cons, totalRank, ih, List.length_cons, Nat.mul_succ, Nat.add_comm]
    rfl

/-- What the slot of the task holds. -/
def Task.kept (t : Task) : Result := if t.stage = .collected then t.fate.result else none

namespace Executor

/-- The events, other than signals, that are still to come. -/
def work (x : Executor) : Nat := totalRank x.tasks + if x.returned.isNone then 1 else 0

def Event.isSignal : Event → Bool
  | .raise | .drop => true
  | _ => false

/-- The slot whose task the event moves on, and the stage that it takes the task out of. -/
def Event.leaves? : Event → Option (Nat × Stage)
  | .invoke slot => some (slot, .waiting)
  | .finish slot => some (slot, .invoked)
  | .collect slot => some (slot, .ended)
  | .raise | .drop | .cancel | .complete => none

variable {x y : Executor} {kind : Kind} {fates : List Fate}

theorem isSignal_of_leaves {e : Event} {slot : Nat} {here : Stage}
    (h : e.leaves? = some (slot, here)) : e.isSignal = false := by
  cases e with
  | invoke | finish | collect => rfl
  | raise | drop | cancel | complete => cases h

theorem advance_eq_some {slot : Nat} {here there : Stage}
    (h : x.advance slot here there = some y) :
    ∃ before fate after, x.tasks = before ++ ⟨fate, here⟩ :: after ∧ before.length = slot ∧
      y = { x with tasks := before ++ ⟨fate, there⟩ :: after } := by
  unfold advance at h
  split at h
  · rename_i t ht
    split at h
    · rename_i hstage
      subst hstage
      obtain ⟨hlt, hget⟩ := List.getElem?_eq_some_iff.mp ht
      obtain ⟨before, after, hsplit, hlength, hset⟩ :=
        @List.exists_of_set Task _ { t with stage := there } x.tasks hlt
      rw [hget] at hsplit
      rw [hset] at h
      exact ⟨before, t.fate, after, hsplit, hlength, (Option.some.inj h).symm⟩
    · contradiction
  · contradiction

theorem collect_eq_some {slot : Nat} (h : x.collect slot = some y) :
    ∃ before fate after, x.tasks = before ++ ⟨fate, .ended⟩ :: after ∧ before.length = slot ∧
      y = { x with
        tasks := before ++ ⟨fate, .collected⟩ :: after
        results := put x.results slot fate.result } := by
  unfold collect at h
  split at h
  · rename_i t ht
    obtain ⟨z, hz, rfl⟩ := Option.map_eq_some_iff.mp h
    obtain ⟨before, fate, after, htasks, rfl, rfl⟩ := advance_eq_some hz
    obtain rfl : ⟨fate, .ended⟩ = t := by simpa [htasks] using ht
    exact ⟨before, fate, after, htasks, rfl, rfl⟩
  · contradiction

theorem allInvoked_iff : x.allInvoked = true ↔ ∀ t ∈ x.tasks, t.stage ≠ .waiting := by
  simp [allInvoked]

/-- What an event does: a task moves on, a signal arrives, or the executor returns. -/
theorem step_cases {e : Event} (h : x.step e = some y) :
    (∃ before t after next, e.leaves? = some (before.length, t.stage) ∧
      x.tasks = before ++ t :: after ∧ t.stage.rank = next.rank + 1 ∧
      (t.stage = .invoked → t.fate.canEnd = true) ∧
      y = { x with
        tasks := before ++ { t with stage := next } :: after
        results := if next = .collected then put x.results before.length t.fate.result
          else x.results }) ∨
    (e = .raise ∧ x.dropped = false ∧ y = { x with raised := true }) ∨
    (e = .drop ∧ y = { x with dropped := true }) ∨
    (e = .cancel ∧ x.raised = true ∧ x.returned = none ∧ (∀ t ∈ x.tasks, t.stage ≠ .waiting) ∧
      y = { x with returned := some (.error (.cancelled x.kind x.tasks.length x.completed)) }) ∨
    (e = .complete ∧ x.returned = none ∧ (∀ t ∈ x.tasks, t.stage = .collected) ∧
      y = { x with returned := some (summarize x.kind x.results) }) := by
  cases e with
  | collect slot =>
    simp only [step] at h
    split at h
    · obtain ⟨before, fate, after, htasks, rfl, rfl⟩ := collect_eq_some h
      exact .inl ⟨before, ⟨fate, .ended⟩, after, .collected, rfl, htasks, rfl, nofun, rfl⟩
    · contradiction
  | invoke slot =>
    simp only [step] at h
    split at h
    · obtain ⟨before, fate, after, htasks, rfl, rfl⟩ := advance_eq_some h
      exact .inl ⟨before, ⟨fate, .waiting⟩, after, .invoked, rfl, htasks, rfl, nofun, rfl⟩
    · contradiction
  | finish slot =>
    simp only [step] at h
    split at h
    · rename_i hend
      obtain ⟨before, fate, after, htasks, rfl, rfl⟩ := advance_eq_some h
      have hcanEnd : fate.canEnd = true := by simpa [htasks] using hend
      exact .inl ⟨before, ⟨fate, .invoked⟩, after, .ended, rfl, htasks, rfl, fun _ => hcanEnd,
        rfl⟩
    · contradiction
  | raise =>
    simp only [step] at h
    split at h
    · contradiction
    · rename_i hopen
      exact .inr (.inl ⟨rfl, by simpa using hopen, (Option.some.inj h).symm⟩)
  | drop => exact .inr (.inr (.inl ⟨rfl, (Option.some.inj h).symm⟩))
  | cancel =>
    simp only [step] at h
    split at h
    · rename_i hc
      simp only [Bool.and_eq_true, Option.isNone_iff_eq_none] at hc
      obtain ⟨⟨hinvoked, hnone⟩, hraised⟩ := hc
      exact .inr (.inr (.inr (.inl ⟨rfl, hraised, hnone, allInvoked_iff.mp hinvoked,
        (Option.some.inj h).symm⟩)))
    · contradiction
  | complete =>
    simp only [step] at h
    split at h
    · rename_i hc
      simp only [Bool.and_eq_true, Option.isNone_iff_eq_none, List.all_eq_true, beq_iff_eq] at hc
      exact .inr (.inr (.inr (.inr ⟨rfl, hc.1, hc.2, (Option.some.inj h).symm⟩)))
    · contradiction

/-- Each slot holds what has been collected from its task, and nothing before that. -/
def Buffered (x : Executor) : Prop := x.results = x.tasks.map Task.kept

theorem buffered_start (kind : Kind) (fates : List Fate) :
    (Executor.start kind fates).Buffered := by
  simp [Buffered, Executor.start, Task.kept, Function.comp_def]

theorem put_kept {before after : List Task} {t : Task} (hstage : t.stage = .ended) :
    put ((before ++ t :: after).map Task.kept) before.length t.fate.result =
      (before ++ { t with stage := .collected } :: after).map Task.kept := by
  have hempty : t.kept = none := if_neg (by simp [hstage])
  have hkept : Task.kept { t with stage := .collected } = t.fate.result := if_pos rfl
  rw [List.map_append, List.map_append, List.map_cons, List.map_cons, hempty, hkept]
  cases t.fate.result with
  | none => rfl
  | some a =>
    rw [put, ← List.length_map Task.kept, List.set_append_right _ _ (Nat.le_refl _), Nat.sub_self,
      List.set_cons_zero]

theorem Buffered.step {e : Event} (h : x.Buffered) (hstep : x.step e = some y) : y.Buffered := by
  rcases step_cases hstep with ⟨before, t, after, next, -, htasks, hrank, -, rfl⟩ | ⟨-, -, rfl⟩ |
    ⟨-, rfl⟩ | ⟨-, -, -, -, rfl⟩ | ⟨-, -, -, rfl⟩
  · unfold Buffered at h ⊢
    rw [htasks] at h
    dsimp only
    split
    · rename_i hnext
      subst hnext
      have hstage : t.stage = .ended := Stage.rank_injective hrank
      rw [h, put_kept hstage]
    · rename_i hnext
      have hne : t.stage ≠ .collected := by
        intro hstage
        rw [hstage] at hrank
        contradiction
      simp [h, Task.kept, hne, hnext]
  · exact h
  · exact h
  · exact h
  · exact h

theorem Buffered.results_eq (h : x.Buffered) (hcollected : ∀ t ∈ x.tasks, t.stage = .collected) :
    x.results = (x.tasks.map (·.fate)).map Fate.result := by
  rw [h, List.map_map]
  exact List.map_congr_left fun t ht => if_pos (hcollected t ht)

/-- The executor of a batch of these operations, before shutdown is raised. -/
structure Serving (kind : Kind) (fates : List Fate) (x : Executor) : Prop where
  kind_eq : x.kind = kind
  fates_eq : x.tasks.map (·.fate) = fates
  buffered : x.Buffered
  quiet : x.raised = false
  returned_eq : ∀ r, x.returned = some r → r = summarize kind (fates.map Fate.result)

theorem Serving.start (kind : Kind) (fates : List Fate) :
    Serving kind fates (start kind fates) where
  kind_eq := rfl
  fates_eq := by simp [Executor.start, Function.comp_def]
  buffered := buffered_start kind fates
  quiet := rfl
  returned_eq := by
    intro r hr
    simp only [Executor.start] at hr
    split at hr
    · rename_i hempty
      rw [List.isEmpty_iff] at hempty
      subst hempty
      exact (Option.some.inj hr).symm
    · contradiction

theorem work_start_le (kind : Kind) (fates : List Fate) :
    (Executor.start kind fates).work ≤ 3 * fates.length + 1 := by
  have hone : ∀ b : Bool, (if b = true then 1 else 0) ≤ 1 := by decide
  rw [work, Executor.start, totalRank_waiting]
  exact Nat.add_le_add_left (hone _) _

theorem work_step {e : Event} (h : x.step e = some y) :
    x.work = y.work + if e.isSignal then 0 else 1 := by
  rcases step_cases h with ⟨before, t, after, next, hleaves, htasks, hrank, -, rfl⟩ |
    ⟨rfl, -, rfl⟩ | ⟨rfl, rfl⟩ | ⟨rfl, -, hnone, -, rfl⟩ | ⟨rfl, hnone, -, rfl⟩
  · simp only [work, htasks, isSignal_of_leaves hleaves, totalRank_append, totalRank, hrank]
    simp only [Bool.false_eq_true, if_false]
    omega
  · rfl
  · rfl
  · simp [work, hnone, Event.isSignal]
  · simp [work, hnone, Event.isSignal]

theorem work_run {events : List Event} (h : x.run events = some y) :
    x.work = y.work + events.countP fun e => !e.isSignal := by
  induction events generalizing x with
  | nil =>
    obtain rfl := Option.some.inj h
    rfl
  | cons e events ih =>
    rw [Executor.run, List.foldlM_cons, Option.bind_eq_bind, Option.bind_eq_some_iff] at h
    obtain ⟨z, hz, h⟩ := h
    rw [work_step hz, ih h, List.countP_cons]
    cases e.isSignal
    · simp; omega
    · simp

theorem Serving.step {e : Event} (h : Serving kind fates x) (he : e ≠ .raise)
    (hstep : x.step e = some y) :
    Serving kind fates y ∧ x.work = y.work + if e.isSignal then 0 else 1 := by
  refine ⟨?_, work_step hstep⟩
  have hbuffered := h.buffered.step hstep
  obtain ⟨hkind, hfates, hkept, hquiet, hreturned⟩ := h
  rcases step_cases hstep with ⟨before, t, after, next, -, htasks, -, -, rfl⟩ | ⟨rfl, -, rfl⟩ |
    ⟨rfl, rfl⟩ | ⟨rfl, hraised, -, -, rfl⟩ | ⟨rfl, -, hcollected, rfl⟩
  · refine ⟨hkind, ?_, hbuffered, hquiet, hreturned⟩
    simpa [htasks] using hfates
  · contradiction
  · exact ⟨hkind, hfates, hbuffered, hquiet, hreturned⟩
  · rw [hquiet] at hraised
    contradiction
  · refine ⟨hkind, hfates, hbuffered, hquiet, ?_⟩
    intro r hr
    rw [← Option.some.inj hr, hkept.results_eq hcollected, hfates, hkind]

theorem Serving.run {events : List Event} (h : Serving kind fates x)
    (hquiet : Event.raise ∉ events) (hrun : x.run events = some y) :
    Serving kind fates y ∧ x.work = y.work + events.countP fun e => !e.isSignal := by
  refine ⟨?_, work_run hrun⟩
  induction events generalizing x with
  | nil =>
    obtain rfl := Option.some.inj hrun
    exact h
  | cons e events ih =>
    rw [Executor.run, List.foldlM_cons, Option.bind_eq_bind, Option.bind_eq_some_iff] at hrun
    obtain ⟨z, hz, hrun⟩ := hrun
    obtain ⟨hserving, -⟩ := h.step (fun he => hquiet (he ▸ List.mem_cons_self)) hz
    exact ih hserving (fun he => hquiet (List.mem_cons_of_mem e he)) hrun

theorem exists_first {here : Stage} (h : ∃ t ∈ x.tasks, t.stage = here) :
    ∃ before t after, x.tasks = before ++ t :: after ∧ t.stage = here ∧
      ∀ u ∈ before, u.stage ≠ here := by
  have hfound : (x.tasks.find? (·.stage == here)).isSome = true := by
    rw [List.find?_isSome]
    simpa using h
  obtain ⟨t, ht⟩ := Option.isSome_iff_exists.mp hfound
  obtain ⟨hstage, before, after, hsplit, hbefore⟩ := List.find?_eq_some_iff_append.mp ht
  exact ⟨before, t, after, hsplit, by simpa using hstage, by simpa using hbefore⟩

theorem isSome_advance {before after : List Task} {t : Task} (h : x.tasks = before ++ t :: after)
    (there : Stage) : (x.advance before.length t.stage there).isSome = true := by
  simp [advance, h]

theorem exists_invoke (h : ∃ t ∈ x.tasks, t.stage = .waiting) :
    ∃ slot, (x.step (.invoke slot)).isSome = true := by
  obtain ⟨before, t, after, hsplit, hstage, hbefore⟩ := exists_first h
  refine ⟨before.length, ?_⟩
  have htake : (x.tasks.take before.length).all (fun u => u.stage != .waiting) = true := by
    simpa [hsplit] using hbefore
  rw [Executor.step, if_pos htake, ← hstage]
  exact isSome_advance hsplit .invoked

theorem isSome_finish {before after : List Task} {t : Task} (h : x.tasks = before ++ t :: after)
    (hstage : t.stage = .invoked) (hend : t.fate.canEnd = true) :
    (x.step (.finish before.length)).isSome = true := by
  have hany : (x.tasks[before.length]?).any (·.fate.canEnd) = true := by
    simp [h, hend]
  rw [Executor.step, if_pos hany, ← hstage]
  exact isSome_advance h .ended

/-- An executor that has not returned can go on. -/
theorem Serving.exists_step (h : Serving kind fates x) (hends : ∀ f ∈ fates, f.canEnd = true)
    (hreturned : x.returned = none) : ∃ e, e.isSignal = false ∧ (x.step e).isSome = true := by
  by_cases hwaiting : ∃ t ∈ x.tasks, t.stage = .waiting
  · obtain ⟨slot, hslot⟩ := exists_invoke hwaiting
    exact ⟨.invoke slot, rfl, hslot⟩
  have hinvoked : ∀ t ∈ x.tasks, t.stage ≠ .waiting := fun t ht hs => hwaiting ⟨t, ht, hs⟩
  have hall : x.allInvoked = true := allInvoked_iff.mpr hinvoked
  by_cases hrunning : ∃ t ∈ x.tasks, t.stage = .invoked
  · obtain ⟨before, t, after, hsplit, hstage, -⟩ := exists_first hrunning
    have hend : t.fate.canEnd = true := by
      apply hends
      rw [← h.fates_eq, hsplit]
      simp
    exact ⟨.finish before.length, rfl, isSome_finish hsplit hstage hend⟩
  by_cases hended : ∃ t ∈ x.tasks, t.stage = .ended
  · obtain ⟨before, t, after, hsplit, hstage, -⟩ := exists_first hended
    refine ⟨.collect before.length, rfl, ?_⟩
    have hopen : (x.allInvoked && x.returned.isNone) = true := by simp [hall, hreturned]
    have hadvance := isSome_advance hsplit .collected
    rw [hstage] at hadvance
    rw [Executor.step, if_pos hopen]
    simpa [collect, hsplit] using hadvance
  · have hcollected : ∀ t ∈ x.tasks, t.stage = .collected := by
      intro t ht
      cases hstage : t.stage with
      | waiting => exact absurd ⟨t, ht, hstage⟩ hwaiting
      | invoked => exact absurd ⟨t, ht, hstage⟩ hrunning
      | ended => exact absurd ⟨t, ht, hstage⟩ hended
      | collected => rfl
    refine ⟨.complete, rfl, ?_⟩
    have hdone : (x.returned.isNone && x.tasks.all (·.stage == .collected)) = true := by
      simpa [hreturned] using hcollected
    rw [Executor.step, if_pos hdone]
    rfl

/-- A batch that shutdown does not reach returns what its operations came to, whatever the order in
which they end and are collected: it can go on until it has returned, and not forever. -/
theorem returned_reports {kind : Kind} {fates : List Fate}
    (hends : ∀ f ∈ fates, f.canEnd = true) {events : List Event} (hquiet : Event.raise ∉ events)
    {x : Executor} (hrun : (Executor.start kind fates).run events = some x) :
    (∀ r, x.returned = some r → Reports kind fates r) ∧
      (x.returned = none → ∃ e, e.isSignal = false ∧ (x.step e).isSome = true) ∧
      (events.countP fun e => !e.isSignal) ≤ 3 * fates.length + 1 ∧
      (∀ f : Fate, f.isAbsent = true → (f.fails kind = true ↔ kind = .create)) ∧
      Fate.fails kind .breaksOff = true ∧
      fates.countP (·.isOk) + absentees kind fates + fates.countP (·.fails kind) =
        fates.length := by
  obtain ⟨hserving, hwork⟩ := (Serving.start kind fates).run hquiet hrun
  have hbound := work_start_le kind fates
  refine ⟨?_, hserving.exists_step hends, by omega, ?_, ?_, length_eq_countP kind fates⟩
  · intro r hr
    rw [hserving.returned_eq r hr]
    exact reports_summarize kind fates
  · intro f hf
    have hok : f.isOk = false := by
      by_contra h
      rw [Fate.isAbsent_of_isOk (by simpa using h)] at hf
      contradiction
    cases kind <;> simp [Fate.fails, hf, hok]
  · simp [Fate.fails, Fate.isOk, Fate.isAbsent]

/-- Three deletions, collected in another order than they end: one done, one of nothing, and one
that breaks off. -/
theorem returned_reports_scattered :
    let fates : List Fate := [.answers (.error (.notFound .unit ⟨"shop", "a"⟩)), .breaksOff,
      .answers (.ok ())]
    let events : List Event := [.invoke 0, .invoke 1, .finish 1, .invoke 2, .finish 2, .collect 2,
      .drop, .finish 0, .collect 1, .collect 0, .complete]
    let r : Except Error Summary := .error (.partialFailure .delete 3 1 brokenOff)
    ∃ x, (∀ f ∈ fates, f.canEnd = true) ∧ Event.raise ∉ events ∧
      (Executor.start .delete fates).run events = some x ∧ x.returned = some r ∧
      Reports .delete fates r := by
  intro fates events r
  have hends : ∀ f ∈ fates, f.canEnd = true := by simp [fates, Fate.canEnd]
  have hquiet : Event.raise ∉ events := by decide
  obtain ⟨x, hx⟩ : ∃ x, (Executor.start .delete fates).run events = some x := ⟨_, rfl⟩
  have hreturned : x.returned = some r := by
    obtain rfl := Option.some.inj hx
    rfl
  exact ⟨x, hends, hquiet, hx, hreturned, (returned_reports hends hquiet hx).1 r hreturned⟩

end Executor

end ReplicaController.Batch
