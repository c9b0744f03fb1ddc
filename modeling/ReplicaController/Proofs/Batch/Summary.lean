import Mathlib.Data.List.Basic
import ReplicaController.Batch.Summary

/-!
# The account of a batch

The results of a batch are gone through once, with running counts and the first failure. What the
account holds at the end are the counts of the verdicts, and the first failure is that of the first
result that failed.
-/

namespace ReplicaController.Batch

def Verdict.failure? : Verdict → Option StoreError
  | .failed e => some e
  | _ => none

variable (kind : Kind) (results : List Result)

def failuresOf : List StoreError := (results.map (judge kind)).filterMap Verdict.failure?

theorem failuresOf_cons (r : Result) :
    failuresOf kind (r :: results) =
      (judge kind r).failure?.toList ++ failuresOf kind results := by
  unfold failuresOf
  rw [List.map_cons, List.filterMap_cons]
  cases (judge kind r).failure? <;> rfl

theorem foldl_record (a : Account) :
    results.foldl (Account.record kind) a =
      { summary :=
          { attempted := a.summary.attempted
            succeeded := a.summary.succeeded + (results.map (judge kind)).count .succeeded
            alreadyAbsent :=
              a.summary.alreadyAbsent + (results.map (judge kind)).count .alreadyAbsent }
        failed := a.failed + (failuresOf kind results).length
        first := a.first.or (failuresOf kind results).head? } := by
  induction results generalizing a with
  | nil => simp [failuresOf]
  | cons r results ih =>
    rw [List.foldl_cons, ih, failuresOf_cons, List.map_cons, List.count_cons, List.count_cons]
    cases h : judge kind r <;>
      simp [Account.record, h, Verdict.failure?, Nat.add_assoc, Nat.add_comm 1]

/-- A batch without a failure reports its counts, any other one its failures. -/
theorem summarize_eq :
    summarize kind results =
      match failuresOf kind results with
      | [] => .ok ⟨results.length, (results.map (judge kind)).count .succeeded,
          (results.map (judge kind)).count .alreadyAbsent⟩
      | first :: later =>
        .error (.partialFailure kind results.length (later.length + 1) first) := by
  rw [summarize, foldl_record]
  cases h : failuresOf kind results with
  | nil => simp [Account.outcome, Account.start]
  | cons first later => simp [Account.outcome, Account.start]

variable {kind results}

theorem fine_of_summarize {summary : Summary} (h : summarize kind results = .ok summary) :
    ∀ r ∈ results,
      r = some (.ok ()) ∨ kind = .delete ∧ ∃ e, r = some (.error e) ∧ e.isNotFound = true := by
  rw [summarize_eq] at h
  split at h
  · rename_i hnil
    intro r hr
    have hr' := List.filterMap_eq_nil_iff.mp hnil _ (List.mem_map_of_mem hr)
    unfold judge at hr'
    split at hr'
    · exact .inl rfl
    · rename_i e
      split at hr'
      · rename_i hc
        exact .inr ⟨hc.1, e, rfl, hc.2⟩
      · contradiction
    · contradiction
  · contradiction

theorem summarize_ne_cancelled (k : Kind) (a c : Nat) :
    summarize kind results ≠ .error (.cancelled k a c) := by
  rw [summarize_eq]
  split <;> exact fun h => nomatch h

end ReplicaController.Batch
