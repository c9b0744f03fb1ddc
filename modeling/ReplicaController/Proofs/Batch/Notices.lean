import ReplicaController.Proofs.Batch.Trace
import ReplicaController.Proofs.Store.Served

/-!
# The events of a batch

Each operation records an event with its last call, unless that was a deletion which found its
target gone: a normal event if the call was done, and a warning if the operation has failed.
-/

namespace ReplicaController

/-- The event of a call that was done. -/
def Mutation.notice : Mutation → Event
  | .create i => .created i.key
  | .delete key => .deleted key

@[simp] theorem Mutation.severity_notice (call : Mutation) : call.notice.severity = .normal := by
  cases call <;> rfl

namespace Batch

variable {σ : Type}

namespace Reply

def isAbsent (r : Reply σ) : Bool :=
  match r.call, r.answer with
  | .delete _, .error e => e.isNotFound
  | _, _ => false

def fails (r : Reply σ) : Bool := !r.answer.isOk && !r.isAbsent

theorem isOk_of_retried {r : Reply σ} (h : r.retried = true) : r.answer.isOk = false := by
  cases hanswer : r.answer with
  | error e => rfl
  | ok =>
    rw [retried, collides_of_ok hanswer] at h
    contradiction

theorem notice?_cases (r : Reply σ) :
    (r.answer.isOk = true ∧ r.isAbsent = false ∧ r.fails = false ∧
      r.notice? = some r.call.notice) ∨
    (r.answer.isOk = false ∧ r.isAbsent = true ∧ r.fails = false ∧ r.notice? = none) ∨
    (r.answer.isOk = false ∧ r.isAbsent = false ∧ r.fails = true ∧ ∃ e, r.notice? = some e ∧
      e.object = r.call.key ∧ e.severity = .warning) := by
  obtain ⟨slot, op, n, call, answer, found⟩ := r
  unfold notice? fails isAbsent
  cases call with
  | create i =>
    cases answer with
    | ok => exact .inl ⟨rfl, rfl, rfl, rfl⟩
    | error e => exact .inr (.inr ⟨rfl, rfl, rfl, _, rfl, rfl, rfl⟩)
  | delete key =>
    cases answer with
    | ok => exact .inl ⟨rfl, rfl, rfl, rfl⟩
    | error e =>
      dsimp only
      cases e.isNotFound with
      | true => exact .inr (.inl ⟨rfl, rfl, rfl, rfl⟩)
      | false => exact .inr (.inr ⟨rfl, rfl, rfl, _, rfl, rfl, rfl⟩)

theorem isSome_notice? (r : Reply σ) : r.notice?.isSome = !r.isAbsent := by
  rcases r.notice?_cases with ⟨-, h, -, hn⟩ | ⟨-, h, -, hn⟩ | ⟨-, h, -, e, hn, -⟩
  all_goals
    rw [h, hn]
    rfl

theorem warning_notice? (r : Reply σ) :
    (r.notice?.filter (·.severity == .warning)).map (·.object) =
      if r.fails then some r.call.key else none := by
  rcases r.notice?_cases with ⟨-, -, h, hn⟩ | ⟨-, -, h, hn⟩ | ⟨-, -, h, e, hn, hobject, hwarning⟩
  · rw [h, hn]
    simp
  · rw [h, hn]
    rfl
  · rw [h, hn]
    simp [hobject, hwarning]

theorem normal_event? (r : Reply σ) :
    r.event?.filter (·.severity == .normal) =
      if r.answer.isOk then some r.call.notice else none := by
  unfold event?
  split
  · rename_i hretried
    rw [isOk_of_retried hretried]
    rfl
  · rcases r.notice?_cases with ⟨h, -, -, hn⟩ | ⟨h, -, -, hn⟩ | ⟨h, -, -, e, hn, -, hwarning⟩
    · rw [h, hn]
      simp
    · rw [h, hn]
      rfl
    · rw [h, hn]
      simp [hwarning]

end Reply

namespace Accounted

variable {told : List (Reply σ)} {ops : List Operation} {p : Progress}

theorem makes_of_mem_lasts (h : Accounted ops told p) (hfin : p.isFinished = true) {r : Reply σ}
    (hr : r ∈ lasts ops.length told) : ∃ op ∈ ops, op.Makes r.call := by
  obtain ⟨k, hk, hlast⟩ := List.mem_filterMap.mp hr
  have hop := List.getElem?_eq_getElem (List.mem_range.mp hk)
  obtain ⟨earlier, last, hcalls, -, -, hmakes, -⟩ := h.exists_last hfin hop
  rw [hcalls, List.getLast?_concat, Option.some.injEq] at hlast
  exact ⟨_, List.getElem_mem (List.mem_range.mp hk), hlast ▸ hmakes⟩

theorem results_eq (h : Accounted ops told p) (hfin : p.isFinished = true) :
    p.results = (lasts ops.length told).map fun r => some r.answer := by
  rw [Progress.results, h.slots_eq hfin, List.map_map]
  rfl

theorem warnings_perm (h : Accounted ops told p) (hfin : p.isFinished = true) :
    ((p.events.filter (·.severity == .warning)).map (·.object)).Perm
      (((lasts ops.length told).filter Reply.fails).map (·.call.key)) := by
  refine (((h.events_perm hfin).filter _).map _).trans (List.Perm.of_eq ?_)
  rw [List.filter_filterMap, List.map_filterMap, ← List.filterMap_eq_filter, List.map_filterMap]
  refine List.filterMap_congr fun r _ => ?_
  rw [r.warning_notice?]
  cases h : r.fails <;> simp [Option.guard, h]

/-- Only a deletion of what is gone leaves a finished batch without an event. -/
theorem length_events (h : Accounted ops told p) (hfin : p.isFinished = true) :
    p.events.length + (lasts ops.length told).countP Reply.isAbsent = ops.length := by
  have hlength := h.length_lasts hfin
  rw [(h.events_perm hfin).length_eq, List.length_filterMap_eq_countP]
  generalize lasts ops.length told = last at hlength ⊢
  rw [← hlength, List.length_eq_countP_add_countP Reply.isAbsent, Nat.add_comm]
  congr 1
  refine List.countP_congr fun r _ => ?_
  simp [r.isSome_notice?]

end Accounted

end Batch

end ReplicaController
