import Mathlib.Algebra.Ring.Nat
import ReplicaController.Proofs.Pass.Moments
import ReplicaController.Proofs.Pass.Protocol
import ReplicaController.Proofs.Pass.Turns
import ReplicaController.Proofs.Specimen

/-!
# What a pass has in flight

While the batch of a pass runs, the calls in flight are those of the slots that are inside one, so
there are never more than the adjustment asks for. A creation makes five calls at most and a
deletion one. When the pass is over nothing is in flight, whatever the calls were answered, and so
it is for every run of passes.
-/

namespace ReplicaController

open Moments

namespace Batch

def Operation.kind : Operation → Kind
  | .create _ => .create
  | .delete _ => .delete

/-- The most calls that the operation makes. -/
def Operation.calls : Operation → Nat
  | .create _ => maxAttempts
  | .delete _ => 1

theorem Operation.calls_pos (op : Operation) : 0 < op.calls := by
  cases op with
  | create stamp => exact Nat.succ_pos 4
  | delete key => exact Nat.succ_pos 0

/-- The most calls of one kind that the operation makes. -/
def Operation.callsOf (kind : Kind) (op : Operation) : Nat := if op.kind = kind then op.calls else 0

theorem Operation.Makes.kind_eq {op : Operation} {call : Mutation} (h : op.Makes call) :
    call.kind = op.kind := by
  cases op with
  | create stamp =>
    obtain ⟨d, rfl⟩ := h
    rfl
  | delete key =>
    obtain rfl : call = .delete key := h
    rfl

namespace Slot

/-- The calls of one kind that the slot may still make. -/
def budget (kind : Kind) : Slot → Nat
  | .calling op n => if op.kind = kind then op.calls + 1 - n else 0
  | .inside op n _ => if op.kind = kind then op.calls - n else 0
  | .finished _ => 0

/-- The attempt is one that the operation may make, and a call that is under way is its own. -/
def Fits : Slot → Prop
  | .calling op n => n ≤ op.calls
  | .inside op n call => n ≤ op.calls ∧ op.Makes call
  | .finished _ => True

theorem answered_fits {op : Operation} {call : Mutation} {n : Nat} (h : op.Makes call)
    (answer : Answer Unit) :
    (answered op n call answer).1.Fits ∧
      (answered op n call answer).1.isInside = false ∧
      ∀ kind, (answered op n call answer).1.budget kind ≤ (inside op n call).budget kind := by
  rcases answered_cases op n call answer with ⟨outcome, heq⟩ | ⟨i, rfl, hn, heq⟩
  · rw [heq]
    exact ⟨trivial, rfl, fun _ => Nat.zero_le _⟩
  · have hcalls : n + 1 ≤ op.calls := by
      cases op with
      | create stamp => exact hn
      | delete key => contradiction
    rw [heq]
    refine ⟨hcalls, rfl, fun kind => ?_⟩
    change (if op.kind = kind then op.calls + 1 - (n + 1) else 0) ≤ _
    rw [Nat.add_sub_add_right]
    exact Nat.le_refl _

theorem nextCall_watched (op : Operation) (x : Watched) :
    ∃ call s, nextCall Watched.backend op x = (call, ⟨s, x.moments⟩) ∧ op.Makes call ∧
      s.store.tally = x.world.store.tally := by
  cases op with
  | create stamp => exact ⟨_, _, rfl, ⟨_, rfl⟩, rfl⟩
  | delete key => exact ⟨_, _, rfl, rfl, rfl⟩

theorem step_calling {op : Operation} {call : Mutation} {x y : Watched} (n : Nat)
    (h : nextCall Watched.backend op x = (call, y)) :
    (calling op n).step Watched.backend x =
      ((inside op n call, []), (Watched.backend.enter call y).2) := by
  unfold step
  dsimp only
  rw [h]
  cases call <;> rfl

theorem step_watched {slot : Slot} {start : CallTally} {x : Watched} (hfits : slot.Fits)
    (hf : slot.isFinished = false) (h : x.Accounts start)
    (hinside : slot.isInside = true → 0 < x.inFlight) :
    let r := slot.step Watched.backend x
    r.2.Accounts start ∧ r.1.1.Fits ∧
      r.2.inFlight + (if slot.isInside then 1 else 0) =
        x.inFlight + (if r.1.1.isInside then 1 else 0) ∧
      ∃ m, r.2.moments = x.moments ++ [m] ∧ m.inFlight = r.2.inFlight ∧ ∀ kind,
        (if m.passage.enters kind then 1 else 0) + r.1.1.budget kind ≤ slot.budget kind := by
  cases slot with
  | calling op n =>
    obtain ⟨call, s, hnext, hmakes, htally⟩ := nextCall_watched op x
    obtain ⟨haccounts, hcount⟩ := (h.of_tally htally).enter call
    have hsame : Watched.inFlight ⟨s, x.moments⟩ = x.inFlight :=
      congrArg CallTally.inFlight htally
    rw [step_calling n hnext]
    refine ⟨haccounts, ⟨hfits, hmakes⟩, ?_, ⟨.entered call, _⟩, rfl, rfl, fun kind => ?_⟩
    · rw [hcount, hsame]
      rfl
    · have hle : n ≤ op.calls := hfits
      simp only [Passage.enters, hmakes.kind_eq, budget, beq_iff_eq]
      split
      · omega
      · exact Nat.le_refl 0
  | inside op n call =>
    obtain ⟨haccounts, hcount⟩ := h.leave call (hinside rfl)
    obtain ⟨hfits', houtside, hbudget⟩ := answered_fits (n := n) hfits.2
      (Watched.backend.leave call x).1
    refine ⟨haccounts, hfits', ?_, ⟨.left call, _⟩, rfl, rfl, fun kind => ?_⟩
    · have hthere : (inside op n call).isInside = true := rfl
      simp only [step, houtside, hthere, Bool.false_eq_true, if_false, if_true, hcount,
        Nat.add_zero]
    · exact Nat.le_trans (Nat.le_of_eq (Nat.zero_add _)) (hbudget kind)
  | finished outcome => contradiction

end Slot

/-- How a batch stands that began with `start` in its record: the calls in flight are those of its
slots, and the calls made so far and still to come are not more than allowed. -/
structure Contained (start : CallTally) (n : Nat) (most : Kind → Nat) (slots : List Slot)
    (x : Watched) : Prop where
  accounts : x.Accounts start
  fits : ∀ slot ∈ slots, slot.Fits
  inFlight_eq : x.inFlight = slots.countP (·.isInside)
  length_le : slots.length ≤ n
  inFlight_le : ∀ m ∈ x.moments, m.inFlight ≤ n
  calls_le : ∀ kind, calls kind x.moments + (slots.map (·.budget kind)).sum ≤ most kind

namespace Contained

variable {start : CallTally} {n : Nat} {most : Kind → Nat} {slots : List Slot} {x : Watched}

theorem step {before after : List Slot} {slot : Slot} (hf : slot.isFinished = false)
    (h : Contained start n most (before ++ slot :: after) x) :
    Contained start n most (before ++ (slot.step Watched.backend x).1.1 :: after)
      (slot.step Watched.backend x).2 := by
  obtain ⟨haccounts, hfits, hcount, hlength, hle, hcalls⟩ := h
  simp only [List.countP_append, List.countP_cons] at hcount
  have hinside : slot.isInside = true → 0 < x.inFlight := by
    intro hin
    rw [hcount, if_pos hin]
    omega
  obtain ⟨haccounts', hfits', hcount', m, hmoments, hm, hbudget⟩ :=
    Slot.step_watched (hfits slot (by simp)) hf haccounts hinside
  have hopen : (slot.step Watched.backend x).2.inFlight =
      (before ++ (slot.step Watched.backend x).1.1 :: after).countP (·.isInside) := by
    simp only [List.countP_append, List.countP_cons]
    omega
  have hlength' : (before ++ (slot.step Watched.backend x).1.1 :: after).length ≤ n := by
    simpa using hlength
  refine ⟨haccounts', forall_mem_exchange hfits hfits', hopen, hlength', ?_, fun kind => ?_⟩
  · rw [hmoments]
    intro m' hm'
    rcases List.mem_append.mp hm' with hm' | hm'
    · exact hle m' hm'
    · rw [List.mem_singleton.mp hm', hm, hopen]
      exact Nat.le_trans List.countP_le_length hlength'
  · have hkind := hcalls kind
    have hless := hbudget kind
    rw [hmoments, calls_append_singleton]
    simp only [List.map_append, List.map_cons, List.sum_append, List.sum_cons] at hkind ⊢
    omega

theorem run (plan : Schedule) (steps : Nat) {p : Progress} (h : Contained start n most p.slots x) :
    Contained start n most (run Watched.backend plan steps p x).1.slots
      (run Watched.backend plan steps p x).2 :=
  run_induction Watched.backend (P := fun p x => Contained start n most p.slots x)
    (fun _ _ _ _ _ hf h => h.step hf) plan steps h

theorem begin (h : Contained start 0 (fun _ => 0) [] x) {ops : List Operation}
    (hlength : ops.length ≤ n) (hmost : ∀ kind, (ops.map (·.callsOf kind)).sum ≤ most kind) :
    Contained start n most (Progress.start ops).slots x := by
  obtain ⟨haccounts, -, hcount, -, hle, hcalls⟩ := h
  have hslot : ∀ slot ∈ (Progress.start ops).slots, ∃ op, slot = .start op := by
    intro slot hslot
    obtain ⟨op, -, rfl⟩ := List.mem_map.mp hslot
    exact ⟨op, rfl⟩
  refine ⟨haccounts, ?_, ?_, ?_, ?_, fun kind => ?_⟩
  · intro slot hs
    obtain ⟨op, rfl⟩ := hslot slot hs
    exact op.calls_pos
  · rw [hcount, eq_comm, List.countP_nil, List.countP_eq_zero]
    intro slot hs
    obtain ⟨op, rfl⟩ := hslot slot hs
    exact Bool.false_ne_true
  · simpa [Progress.start] using hlength
  · exact fun m hm => Nat.le_trans (hle m hm) (Nat.zero_le n)
  · have hnone : calls kind x.moments = 0 :=
      Nat.eq_zero_of_add_eq_zero_right (Nat.le_zero.mp (hcalls kind))
    have hbudget : (Progress.start ops).slots.map (·.budget kind) =
        ops.map (·.callsOf kind) := by
      simp [Progress.start, Slot.start, Slot.budget, Operation.callsOf, Function.comp_def]
    rw [hnone, hbudget, Nat.zero_add]
    exact hmost kind

theorem finished (h : Contained start n most slots x)
    (hfin : ∀ slot ∈ slots, slot.isFinished = true) : Contained start n most [] x := by
  obtain ⟨haccounts, -, hcount, -, hle, hcalls⟩ := h
  refine ⟨haccounts, fun slot hs => (nomatch hs), ?_, Nat.zero_le n, hle, fun kind => ?_⟩
  · rw [hcount, List.countP_nil, List.countP_eq_zero]
    intro slot hs
    have hend := hfin slot hs
    cases slot with
    | finished outcome => exact Bool.false_ne_true
    | _ => contradiction
  · exact Nat.le_trans (Nat.add_le_add_left (Nat.zero_le _) _) (hcalls kind)

theorem of_tally (h : Contained start n most slots x) {s : World}
    (htally : s.store.tally = x.world.store.tally) :
    Contained start n most slots ⟨s, x.moments⟩ := by
  obtain ⟨haccounts, hfits, hcount, hlength, hle, hcalls⟩ := h
  exact ⟨haccounts.of_tally htally, hfits, (congrArg CallTally.inFlight htally).trans hcount,
    hlength, hle, hcalls⟩

theorem other (h : Contained start n most [] x) {s : World} (hs : x.world.SameInFlight s) :
    Contained start n most [] (x.record .other s) := by
  obtain ⟨haccounts, hfits, hopen, hlength, hle, hcalls⟩ := h
  have hcount : s.store.tally.inFlight = x.inFlight := hs.1
  refine ⟨haccounts.other hs, hfits, hcount.trans hopen, hlength, ?_, fun kind => ?_⟩
  · intro m hm
    rcases List.mem_append.mp hm with hm | hm
    · exact hle m hm
    · rw [List.mem_singleton.mp hm, hcount, hopen]
      exact Nat.zero_le n
  · rw [Watched.record, calls_append_singleton]
    exact hcalls kind

theorem keeps (start : CallTally) (n : Nat) (most : Kind → Nat) (key : Key) :
    Pass.Keeps Watched.backend key (Contained start n most []) where
  getWorkload k x h := h.other (World.sameInFlight_getWorkload k x.world)
  listInstances ns selector x h := h.other (World.sameInFlight_listInstances ns selector x.world)
  updateStatus w x _ h := h.other (World.sameInFlight_updateStatus w x.world)
  now _ h := h.of_tally rfl

end Contained

end Batch

/-- The most calls of each kind that the adjustment can take. -/
def Adjustment.calls (d : Adjustment) : Batch.Kind → Nat
  | .create => Batch.maxAttempts * d.creates
  | .delete => d.deletes

namespace Pass

open Batch (Contained)

variable {σ τ : Type} {config : PassConfig} {key : Key} {w : Workload}

theorem calls_operations (config : PassConfig) (w : Workload) (active : List Instance) :
    (operations config w active).length ≤ (adjustmentOf config w active).amount ∧
      ∀ kind, ((operations config w active).map (·.callsOf kind)).sum ≤
        (adjustmentOf config w active).calls kind := by
  unfold operations
  dsimp only
  split
  · exact ⟨Nat.zero_le _, fun _ => Nat.zero_le _⟩
  · rename_i hkind
    split
    · exact ⟨Nat.zero_le _, fun _ => Nat.zero_le _⟩
    · refine ⟨Nat.le_of_eq List.length_replicate, fun kind => ?_⟩
      rw [List.map_replicate, List.sum_replicate_nat]
      cases kind with
      | create =>
        rw [Adjustment.calls, Adjustment.creates_of_create hkind]
        exact Nat.le_of_eq (Nat.mul_comm _ _)
      | delete => exact Nat.zero_le _
  · rename_i hkind
    have hle : (config.policy.select active (adjustmentOf config w active).amount).length ≤
        (adjustmentOf config w active).amount := by
      rw [VictimPolicy.length_select]
      exact Nat.min_le_left _ _
    refine ⟨by rw [List.length_map]; exact hle, fun kind => ?_⟩
    rw [List.map_map]
    cases kind with
    | create =>
      change (List.map (fun _ => 0) _).sum ≤ _
      rw [List.map_const', List.sum_replicate_nat, Nat.mul_zero]
      exact Nat.zero_le _
    | delete =>
      change (List.map (fun _ => 1) _).sum ≤ _
      rw [List.map_const', List.sum_replicate_nat, Nat.mul_one, Adjustment.calls,
        Adjustment.deletes_of_delete hkind]
      exact hle

/-- What a pass finds to do; nothing if its readings fail. -/
def task (B : Backend σ) (config : PassConfig) (key : Key) (s : σ) :
    Adjustment × List Batch.Operation :=
  match (readings B key s).1 with
  | .ok r => (adjustmentOf config r.workload r.active, operations config r.workload r.active)
  | .error _ => (.nothing, [])

theorem readings_projects {B : Backend σ} {C : Backend τ} {f : τ → σ} (h : C.Projects f B)
    (key : Key) (t : τ) : readings B key (f t) = Prod.map id f (readings C key t) := by
  unfold readings
  rw [h.getWorkload]
  generalize C.getWorkload key t = r
  obtain ⟨answer, t₁⟩ := r
  cases answer with
  | error e => rfl
  | ok w =>
    dsimp only [Prod.map, id]
    cases w.spec.selector.parse with
    | error e => rfl
    | ok selector =>
      dsimp only
      rw [h.listInstances]
      generalize C.listInstances w.ns selector t₁ = r
      obtain ⟨answer, t₂⟩ := r
      cases answer <;> rfl

theorem task_projects {B : Backend σ} {C : Backend τ} {f : τ → σ} (h : C.Projects f B)
    (config : PassConfig) (key : Key) (t : τ) : task B config key (f t) = task C config key t := by
  unfold task
  rw [readings_projects h]
  rfl

theorem runOperations_contained {start : CallTally} {x : Watched}
    (h : Contained start 0 (fun _ => 0) [] x) {n : Nat} {most : Batch.Kind → Nat}
    {ops : List Batch.Operation} (hlength : ops.length ≤ n)
    (hmost : ∀ kind, (ops.map (·.callsOf kind)).sum ≤ most kind) (plan : Batch.Schedule) :
    Contained start n most [] (runOperations Watched.backend ⟨plan, none⟩ ops x).2 := by
  have hrun := (h.begin hlength hmost).run plan (Batch.Progress.start ops).work
  exact hrun.finished (List.all_eq_true.mp (Batch.finish_isFinished Watched.backend plan _ x))

/-- A pass from a moment when nothing is in flight. -/
theorem run_contained {s : World} (hidle : s.store.tally.inFlight = 0) (config : PassConfig)
    (plan : Batch.Schedule) (key : Key) :
    Contained s.store.tally (task World.backend config key s).1.amount
      (task World.backend config key s).1.calls []
      (run Watched.backend config ⟨plan, none⟩ key ⟨s, []⟩).2 := by
  have htask : task World.backend config key s = task Watched.backend config key ⟨s, []⟩ :=
    task_projects Watched.backend_projects config key ⟨s, []⟩
  have hstart : Contained s.store.tally 0 (fun _ => 0) [] ⟨s, []⟩ :=
    ⟨.begin s hidle, fun _ hs => (nomatch hs), hidle, Nat.le_refl 0, fun _ hm => (nomatch hm),
      fun _ => Nat.le_refl 0⟩
  have hread := readings_keeps (Contained.keeps s.store.tally 0 (fun _ => 0) key) hstart
  rw [htask, task, run_eq_readings]
  generalize readings Watched.backend key ⟨s, []⟩ = a at hread ⊢
  obtain ⟨made, x⟩ := a
  cases made with
  | error result =>
    have hnone : ([] : List Batch.Operation).length ≤ 0 := Nat.le_refl 0
    exact hread.begin hnone fun _ => Nat.zero_le _
  | ok r =>
    obtain ⟨hlength, hcalls⟩ := calls_operations config r.workload r.active
    have hbatch := runOperations_contained hread hlength hcalls plan
    dsimp only at hbatch ⊢
    rcases act_cases Watched.backend config ⟨plan, none⟩ key r x with ⟨error, hact, -⟩ | hact
    · rw [hact]
      exact conclude_keeps (Contained.keeps _ _ _ _) hbatch
    · rw [hact]
      exact hbatch

theorem amount_task_le (B : Backend σ) (config : PassConfig) (key : Key) (s : σ) :
    (task B config key s).1.amount ≤ config.burst ∧
      (task B config key s).2.length ≤ (task B config key s).1.amount := by
  unfold task
  cases (readings B key s).1 with
  | error result => exact ⟨Nat.zero_le _, Nat.le_refl 0⟩
  | ok r =>
    refine ⟨?_, (calls_operations config r.workload r.active).1⟩
    dsimp only
    unfold adjustmentOf
    split
    · exact Nat.zero_le _
    · exact Adjustment.amount_between_le _ _ _

theorem adjustment_of_task {B : Backend σ} {cond : Conditions} {s : σ} {report : Report}
    (h : (run B config cond key s).1.result = .ok (.reconciled report)) :
    report.adjustment = (task B config key s).1 := by
  obtain ⟨r, s₁, error, hread, -, hrun⟩ := run_reconciled h
  rw [hrun] at h
  obtain ⟨written, -, rfl⟩ := conclude_reconciled h
  rw [task, hread]

/-- What a pass has in flight between `s` and `s'`, when it finds this to do and `ms` are its
moments. -/
structure WithinBurst (burst : Nat) (task : Adjustment × List Batch.Operation) (s s' : World)
    (ms : List Moment) : Prop where
  amount_le : task.1.amount ≤ burst
  started_le : task.2.length ≤ task.1.amount
  inFlight_le : ∀ m ∈ ms, m.inFlight ≤ task.1.amount
  idle : s'.store.tally.inFlight = 0
  calls_le : calls .delete ms = 0 ∧ calls .create ms ≤ 5 * burst ∨
    calls .create ms = 0 ∧ calls .delete ms ≤ burst
  removed_le : s.cluster.instances.length ≤ s'.cluster.instances.length + burst
  added_le : s'.cluster.instances.length ≤ s.cluster.instances.length + burst

theorem Footprint.length_instances {c c' : Cluster} {removed : List Key} {added : List Instance}
    (h : Footprint config w c removed added c') (sound : c.Sound) :
    c'.instances.length + removed.length = c.instances.length + added.length := by
  have hcount := h.countP_removed sound
  have hsplit := List.length_eq_length_filter_add (l := c.instances)
    fun i => removed.contains i.key
  rw [List.countP_eq_length_filter] at hcount
  rw [h.instances_eq, List.length_append]
  omega

theorem length_instances_run {view : σ → Cluster} {B : Backend σ} (serves : B.Serves view)
    (config : PassConfig) (cond : Conditions) (key : Key) {s : σ} (sound : (view s).Sound) :
    let s' := (run B config cond key s).2
    (view s').Sound ∧
      (view s).instances.length ≤ (view s').instances.length + config.burst ∧
      (view s').instances.length ≤ (view s).instances.length + config.burst := by
  intro s'
  subst s'
  cases hw : (view s).workload? key with
  | none =>
    rw [run_of_absent serves hw]
    exact ⟨sound, Nat.le_add_right _ _, Nat.le_add_right _ _⟩
  | some w =>
    obtain ⟨removed, added, hfoot⟩ := run_footprint serves config cond sound hw
    have hlength := hfoot.length_instances sound
    have hremoved := hfoot.length_removed_le
    have hadded := hfoot.added_length_le
    have hdeletes := deletes_adjustmentOf_le config w ((view s).governed w)
    have hcreates := creates_adjustmentOf_le config w ((view s).governed w)
    exact ⟨hfoot.sound, by omega, by omega⟩

theorem calls_le_of_task {d : Adjustment} {burst : Nat} (hd : d.amount ≤ burst) {ms : List Moment}
    (h : ∀ kind, calls kind ms ≤ d.calls kind) :
    calls .delete ms = 0 ∧ calls .create ms ≤ 5 * burst ∨
      calls .create ms = 0 ∧ calls .delete ms ≤ burst := by
  have hcreate : calls .create ms ≤ 5 * d.creates := h .create
  have hdelete : calls .delete ms ≤ d.deletes := h .delete
  by_cases hkind : d.kind = .delete
  · have hne : d.kind ≠ .create := by rw [hkind]; exact nofun
    rw [Adjustment.creates_of_ne hne] at hcreate
    rw [Adjustment.deletes_of_delete hkind] at hdelete
    exact .inr ⟨Nat.le_zero.mp hcreate, Nat.le_trans hdelete hd⟩
  · rw [Adjustment.deletes_of_ne hkind] at hdelete
    have hcreates : d.creates ≤ d.amount := by
      unfold Adjustment.creates
      split
      · exact Nat.le_refl _
      · exact Nat.zero_le _
    exact .inl ⟨Nat.le_zero.mp hdelete, by omega⟩

theorem withinBurst_run {s : World} (sound : s.cluster.Sound) (hidle : s.store.tally.inFlight = 0)
    (config : PassConfig) (plan : Batch.Schedule) (key : Key) :
    WithinBurst config.burst (task World.backend config key s) s
      (run World.backend config ⟨plan, none⟩ key s).2
      (run Watched.backend config ⟨plan, none⟩ key ⟨s, []⟩).2.moments := by
  have hrun := run_contained hidle config plan key
  have hworld := congrArg Prod.snd
    (run_projects Watched.backend_projects config ⟨plan, none⟩ key ⟨s, []⟩)
  obtain ⟨hamount, hstarted⟩ := amount_task_le World.backend config key s
  obtain ⟨-, hremoved, hadded⟩ :=
    length_instances_run World.backend_serves config ⟨plan, none⟩ key sound
  refine ⟨hamount, hstarted, hrun.inFlight_le, ?_, ?_, hremoved, hadded⟩
  · exact (congrArg (·.store.tally.inFlight) hworld).trans hrun.inFlight_eq
  · exact calls_le_of_task hamount fun kind => hrun.calls_le kind

end Pass

namespace Watched

def turn (x : Watched) (t : Turn) : Watched :=
  (Pass.run backend t.config ⟨t.plan, none⟩ t.key ⟨x.world.withFaults t.faults, x.moments⟩).2

def turns (x : Watched) (ts : List Turn) : Watched := ts.foldl turn x

variable {s : World} {x : Watched} {t : Turn}

theorem world_turn (x : Watched) (t : Turn) : (x.turn t).world = x.world.turn t :=
  (congrArg Prod.snd (Pass.run_projects backend_projects t.config ⟨t.plan, none⟩ t.key
    ⟨x.world.withFaults t.faults, x.moments⟩)).symm

theorem world_turns (x : Watched) (ts : List Turn) : (x.turns ts).world = x.world.turns ts := by
  induction ts generalizing x with
  | nil => rfl
  | cons t ts ih =>
    rw [turns, List.foldl_cons, World.turns, List.foldl_cons, ← world_turn]
    exact ih _

theorem turn_eq_after (x : Watched) (t : Turn) :
    x.turn t = (turn ⟨x.world, []⟩ t).after x.moments := by
  have hshift := Pass.run_projects (backend_projects_after x.moments) t.config ⟨t.plan, none⟩ t.key
    ⟨x.world.withFaults t.faults, []⟩
  rw [after, List.append_nil] at hshift
  exact congrArg Prod.snd hshift

theorem accounts_turn {start : CallTally} (h : Accounts start x) (hidle : x.inFlight = 0)
    (t : Turn) : Accounts start (x.turn t) ∧ (x.turn t).inFlight = 0 := by
  have hrun := Pass.run_contained (s := x.world.withFaults t.faults) hidle t.config t.plan t.key
  rw [turn_eq_after]
  exact ⟨h.append hidle hrun.accounts, hrun.inFlight_eq⟩

theorem accounts_turns {start : CallTally} (h : Accounts start x) (hidle : x.inFlight = 0)
    (ts : List Turn) : Accounts start (x.turns ts) ∧ (x.turns ts).inFlight = 0 := by
  induction ts generalizing x with
  | nil => exact ⟨h, hidle⟩
  | cons t ts ih =>
    obtain ⟨haccounts, hnone⟩ := accounts_turn h hidle t
    exact ih haccounts hnone

end Watched

namespace World

theorem sound_turns {s : World} (sound : s.cluster.Sound) (ts : List Turn) :
    (s.turns ts).cluster.Sound :=
  turns_induction (P := fun s => s.cluster.Sound) (fun t _ s hs =>
    (Pass.length_instances_run (s := s.withFaults t.faults) backend_serves t.config ⟨t.plan, none⟩
      t.key hs).1) sound

/-- How a run of passes stands that began at `s` with nothing in flight: the count was right at each
moment and its largest value is remembered, nothing is in flight now, and the next pass stays within
its burst and within the adjustment that it reports. -/
structure Orderly (s : World) (ts : List Turn) (x : Watched) : Prop where
  world_eq : x.world = s.turns ts
  balanced : Balanced x.moments
  idle : x.world.store.tally.inFlight = 0
  maxInFlight : x.world.store.tally.maxInFlight = max s.store.tally.maxInFlight (peak x.moments)
  next : ∀ t, ∃ ms, (x.turn t).moments = x.moments ++ ms ∧
    let s₁ := (s.turns ts).withFaults t.faults
    let r := Pass.run backend t.config ⟨t.plan, none⟩ t.key s₁
    let task := Pass.task backend t.config t.key s₁
    Pass.WithinBurst t.config.burst task s₁ r.2 ms ∧
      ∀ report, r.1.result = .ok (.reconciled report) → report.adjustment = task.1

theorem orderly_turns {s : World} (reachable : s.store.Reachable)
    (hidle : s.store.tally.inFlight = 0) (ts : List Turn) :
    s.Orderly ts (Watched.turns ⟨s, []⟩ ts) := by
  obtain ⟨haccounts, hnone⟩ := Watched.accounts_turns (.begin s hidle) hidle ts
  have hworld : (Watched.turns ⟨s, []⟩ ts).world = s.turns ts := Watched.world_turns _ ts
  refine ⟨hworld, haccounts.balanced, hnone, haccounts.maxInFlight, fun t => ?_⟩
  have hmoments := congrArg Watched.moments (Watched.turn_eq_after (.turns ⟨s, []⟩ ts) t)
  rw [hworld] at hmoments
  refine ⟨_, hmoments, ?_, fun report => Pass.adjustment_of_task⟩
  have sound := sound_turns reachable.sound ts
  exact Pass.withinBurst_run (s := (s.turns ts).withFaults t.faults) sound (hworld ▸ hnone) t.config
    t.plan t.key

/-- Two creations overlap, and the first has to try again under another name. -/
theorem orderly_turns_overlapping :
    let w := Specimen.plain "web" 0 2
    let s := Specimen.world (Specimen.crowd w [])
    let taken : Turn :=
      ⟨w.key, ⟨5, .observed⟩, .lockstep, { Faults.none with conflictingCreates := 1 }⟩
    let x := Watched.turns ⟨s, []⟩ [taken]
    s.store.Reachable ∧ s.store.tally.inFlight = 0 ∧
      x.moments.map (·.inFlight) = [0, 0, 1, 2, 1, 2, 1, 0, 0, 0] ∧ s.Orderly [taken] x := by
  intro w s taken x
  have reachable : s.store.Reachable := Specimen.reachable_crowd w []
  exact ⟨reachable, rfl, by decide +kernel, orderly_turns reachable rfl [taken]⟩

end World

end ReplicaController
