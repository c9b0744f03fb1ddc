import ReplicaController.Proofs.Pass.Deeds
import ReplicaController.Proofs.Pass.InFlight
import ReplicaController.Proofs.Pass.Isolation

/-!
# The events of a pass

The operations of a batch record their events while they go on, and the failures are counted from
the slots once all of them have ended. Here other actors ask anything of the store between the calls
of a pass. Its normal events are those of the instances that it added and removed; its warnings are
those of the operations that failed, as many as its report says.
-/

namespace ReplicaController

namespace Pass

variable {σ : Type} {B : Backend σ} {config : PassConfig} {cond : Conditions} {key : Key} {s : σ}

/-- How many operations failed, as the error of a report says. -/
def failures : Option ReplicaError → Nat
  | some (.batch (.partialFailure _ _ failed _)) => failed
  | _ => 0

theorem failures_batchError (kind : Batch.Kind) (results : List Batch.Result) :
    failures (batchError kind results) =
      results.countP fun r => (Batch.judge kind r).failure?.isSome := by
  have hcount : (Batch.failuresOf kind results).length =
      results.countP fun r => (Batch.judge kind r).failure?.isSome := by
    rw [Batch.failuresOf, List.filterMap_map, List.length_filterMap_eq_countP]
    rfl
  rw [batchError, Batch.summarize_eq, ← hcount]
  cases Batch.failuresOf kind results <;> rfl

theorem isSome_failure?_judge (r : Batch.Reply σ) :
    (Batch.judge r.call.kind (some r.answer)).failure?.isSome = r.fails := by
  obtain ⟨slot, op, n, call, answer, found⟩ := r
  unfold Batch.Reply.fails Batch.Reply.isAbsent
  cases answer with
  | ok => cases call <;> rfl
  | error e =>
    cases call with
    | create i => rfl
    | delete k =>
      dsimp only [Mutation.kind, Batch.judge]
      cases h : e.isNotFound <;> simp [Batch.Verdict.failure?, Except.isOk, Except.toBool]

/-- The direction in which a batch of this kind adjusts. -/
def direction : Batch.Kind → Direction
  | .create => .create
  | .delete => .delete

theorem kind_task (B : Backend σ) (config : PassConfig) (key : Key) (s : σ) :
    ∀ op ∈ (task B config key s).2, (task B config key s).1.kind = direction op.kind := by
  unfold task
  cases (readings B key s).1 with
  | error result => exact fun op hop => nomatch hop
  | ok r =>
    intro op hop
    rcases mem_operations hop with ⟨hkind, stamp, -, rfl⟩ | ⟨hkind, i, -, rfl⟩
    · exact hkind
    · exact hkind

theorem failures_of_applied {d : Adjustment} {ops : List Batch.Operation}
    (hkind : ∀ op ∈ ops, d.kind = direction op.kind) {told : List (Batch.Reply σ)}
    {p : Batch.Progress} {error : Option ReplicaError} (haccounted : Batch.Accounted ops told p)
    (hfin : p.isFinished = true) (h : Applied d p.results error) :
    failures error = (Batch.lasts ops.length told).countP Batch.Reply.fails := by
  have hcalls : ∀ r ∈ Batch.lasts ops.length told, d.kind = direction r.call.kind := by
    intro r hr
    obtain ⟨op, hop, hmakes⟩ := haccounted.makes_of_mem_lasts hfin hr
    rw [hmakes.kind_eq]
    exact hkind op hop
  rw [haccounted.results_eq hfin] at h
  generalize Batch.lasts ops.length told = last at hcalls h ⊢
  have hbatch : ∀ kind, d.kind = direction kind →
      failures (batchError kind (last.map fun r => some r.answer)) =
        last.countP Batch.Reply.fails := by
    intro kind hd
    rw [failures_batchError, List.countP_map]
    refine List.countP_congr fun r hr => ?_
    have hsame : kind = r.call.kind := by
      have hdirection := hd.symm.trans (hcalls r hr)
      generalize r.call.kind = kind' at hdirection
      cases kind <;> cases kind' <;> first | rfl | contradiction
    rw [Function.comp_apply, hsame, isSome_failure?_judge]
  cases h with
  | idle hnil | refused e hnil =>
    rw [List.map_eq_nil_iff.mp hnil]
    rfl
  | created hkind => exact hbatch .create hkind
  | deleted hkind => exact hbatch .delete hkind

/-- The calls of the batch of a pass that were answered. -/
def batchCalls (B : Backend σ) (config : PassConfig) (cond : Conditions) (key : Key) (s : σ) :
    List (Batch.Reply σ) :=
  let p := Batch.Progress.start (task B config key s).2
  Batch.trace B cond.plan (cond.steps p.work) p (readings B key s).2

theorem accounted_batchCalls (B : Backend σ) (config : PassConfig) (cond : Conditions) (key : Key)
    (s : σ) :
    Batch.Accounted (task B config key s).2 (batchCalls B config cond key s)
      (runOperations B cond (task B config key s).2 (readings B key s).2).1 :=
  .of_trace B cond.plan _ _ _

/-- The pass ended before its batch, had nothing to do, or was refused the controller reference. -/
def Ending.isBatchless (e : Ending) : Bool :=
  match e.result with
  | .ok .workloadGone | .error (.fetch ..) | .error (.selector ..) | .error (.list ..) => true
  | .ok (.reconciled report) =>
    report.adjustment.isNone || match report.replicaError with
      | some (.owner _) => true
      | _ => false
  | .error (.commit ..) | .error (.cancelled ..) => false

theorem isBatchless_conclude {w : Workload} {selector : Selector} {d : Adjustment}
    {active : List Instance} {error : Option ReplicaError} {events : List Event}
    (h : (conclude B key w selector d active error events s).1.isBatchless = true) :
    d.isNone = true ∨ ∃ e, error = some (.owner e) := by
  rw [conclude_eq] at h
  dsimp only [Prod.map_fst] at h
  generalize (commit B w _ _).1 = answer at h
  cases answer with
  | error e => contradiction
  | ok written =>
    rcases Bool.or_eq_true_iff.mp h with hnone | howner
    · exact .inl hnone
    · dsimp only at howner
      split at howner
      · exact .inr ⟨_, rfl⟩
      · contradiction

theorem Applied.eq_nil_of_owner {d : Adjustment} {results : List Batch.Result} {e : OwnerFault}
    (h : Applied d results (some (.owner e))) : results = [] := by
  generalize herror : some (ReplicaError.owner e) = error at h
  cases h with
  | idle hnil | refused _ hnil => exact hnil
  | created | deleted =>
    unfold batchError at herror
    split at herror <;> cases herror

/-- A pass that is not broken off ends with its batch: its events are those of the batch, a pass
without a batch has no operations, and a report says what the batch came to. -/
theorem ends_of_run (h : ∀ k, (run B config cond key s).1.result ≠ .error (.cancelled k)) :
    let t := task B config key s
    let p := (runOperations B cond t.2 (readings B key s).2).1
    let e := (run B config cond key s).1
    p.isFinished = true ∧ e.events = p.events ∧ (e.isBatchless = true → p.results = []) ∧
      ∀ report, e.result = .ok (.reconciled report) →
        Applied t.1 p.results report.replicaError := by
  rw [run_eq_readings] at h ⊢
  unfold task
  cases hread : readings B key s with
  | mk made s₁ =>
    rw [hread] at h
    cases made with
    | error result =>
      dsimp only
      rw [runOperations_nil]
      exact ⟨rfl, rfl, fun _ => rfl, fun report hreport =>
        absurd hreport (readings_ne_reconciled hread report)⟩
    | ok r =>
      dsimp only at h ⊢
      rcases act_ends B config cond key r s₁ with ⟨error, hact, hfin, happlied⟩ | hact
      · rw [hact]
        refine ⟨hfin, (conclude_fst B key r.workload r.selector _ _ error _ _).1, ?_, ?_⟩
        · intro hbatchless
          rcases isBatchless_conclude hbatchless with hnone | ⟨e, rfl⟩
          · rw [operations_of_isNone hnone, runOperations_nil]
            rfl
          · exact happlied.eq_nil_of_owner
        · intro report hreport
          obtain ⟨written, -, rfl⟩ := conclude_reconciled hreport
          exact happlied
      · rw [hact] at h
        exact absurd rfl (h r.workload.key)

end Pass

theorem Store.hasInstance_of_notFound {s : Store} {key : Key} {e : StoreError}
    (h : (s.leaveDelete key).1 = .error e) (hgone : e.isNotFound = true) :
    s.cluster.hasInstance key = false := by
  unfold leaveDelete at h
  dsimp only at h
  split at h
  · cases h
    contradiction
  · split at h
    · contradiction
    · rename_i hnone
      simpa using hnone

theorem Contested.hasInstance_of_isAbsent (others : Nat → List Store.Request) {place : Nat}
    {slot : Batch.Slot} {x : Contested} {r : Batch.Reply Contested}
    (hreply : slot.reply? (backend others) place x = some r) (h : r.isAbsent = true) :
    (r.found.interfere others).cluster.hasInstance r.call.key = false := by
  cases slot with
  | calling op n =>
    simp only [Batch.Slot.reply?, backend_enter] at hreply
    cases hreply
  | inside op n call =>
    cases hreply
    cases call with
    | create i => contradiction
    | delete key =>
      have hanswer : ((backend others).leave (.delete key) x).1 =
          ((x.interfere others).world.store.leaveDelete key).1 := rfl
      unfold Batch.Reply.isAbsent at h
      dsimp only at h
      rw [hanswer] at h
      cases he : ((x.interfere others).world.store.leaveDelete key).1 with
      | ok =>
        rw [he] at h
        contradiction
      | error e =>
        rw [he] at h
        exact Store.hasInstance_of_notFound he h
  | finished outcome => cases hreply

namespace Pass

/-- What the events of a pass tell: `calls` are those of its batch of `ops`, `log` holds what its
calls added and removed since it met the instances `before`, and it left the instances `after`. -/
structure Recorded (others : Nat → List Store.Request) (ops : List Batch.Operation)
    (calls : List (Batch.Reply Contested)) (e : Ending) (before : List Instance)
    (log : List Incident) (after : List Instance) : Prop where
  /-- Each instance that the pass added or removed has one normal event, in their order. -/
  deeds : e.events.filter (·.severity == .normal) = log.filterMap Incident.event?
  /-- What others did not change, the deeds of the log did. -/
  leads : Contested.LeadsTo before log after
  /-- Each operation has made a last call; those before it were creations that collided. -/
  last : ∀ k op, ops[k]? = some op → ∃ earlier last, Batch.callsOf k calls = earlier ++ [last] ∧
    op.Makes last.call ∧ ∀ r ∈ earlier, r.collides = true
  /-- Only the last call of an operation records an event. -/
  events_perm : e.events.Perm ((Batch.lasts ops.length calls).filterMap Batch.Reply.notice?)
  /-- Each operation that failed has one warning, which names the last key that it tried. -/
  warnings : ((e.events.filter (·.severity == .warning)).map (·.object)).Perm
    (((Batch.lasts ops.length calls).filter Batch.Reply.fails).map (·.call.key))
  /-- A deletion that counts as absent met no instance of its key. -/
  absent : ∀ r ∈ calls, r.isAbsent = true →
    (r.found.interfere others).cluster.hasInstance r.call.key = false
  length_add : e.events.length + (Batch.lasts ops.length calls).countP Batch.Reply.isAbsent =
    ops.length
  failures_eq : ∀ report, e.result = .ok (.reconciled report) →
    failures report.replicaError = e.events.countP (·.severity == .warning)
  batchless : e.isBatchless = true → e.events = []

/-- The events of every pass that is not broken off account for what it did to the store, whatever
faults are planned, however its operations interleave and whatever others ask meanwhile. -/
theorem recorded_of_run {s : World} (reachable : s.store.Reachable)
    (others : Nat → List Store.Request) (config : PassConfig) (cond : Conditions) (key : Key)
    (huncancelled : ∀ k, (run (Contested.backend others) config cond key ⟨s, 0, []⟩).1.result ≠
      .error (.cancelled k)) :
    let B := Contested.backend others
    let r := run B config cond key ⟨s, 0, []⟩
    Recorded others (task B config key ⟨s, 0, []⟩).2 (batchCalls B config cond key ⟨s, 0, []⟩) r.1
      s.cluster.instances r.2.log r.2.cluster.instances := by
  intro B r
  have haccounted := accounted_batchCalls B config cond key ⟨s, 0, []⟩
  have hrecounted := recounted_of_run reachable others config cond key
  obtain ⟨hfin, hevents, hbatchless, hreport⟩ := ends_of_run huncancelled
  have hlength := haccounted.length_events hfin
  have hwarnings := haccounted.warnings_perm hfin
  refine ⟨hrecounted.events_eq.symm, hrecounted.leads, ?_, ?_, ?_, ?_, ?_, ?_, ?_⟩
  · intro k op hop
    obtain ⟨earlier, last, hcalls, going, -, hmakes, -⟩ := haccounted.exists_last hfin hop
    exact ⟨earlier, last, hcalls, hmakes, going.collides⟩
  · rw [hevents]
    exact haccounted.events_perm hfin
  · rw [hevents]
    exact hwarnings
  · exact Batch.forall_mem_trace
      (fun _ _ _ _ hreply => Contested.hasInstance_of_isAbsent others hreply) _ _ _ _
  · rw [hevents]
    exact hlength
  · intro report hok
    have hcount := hwarnings.length_eq
    rw [List.length_map, List.length_map, ← List.countP_eq_length_filter,
      ← List.countP_eq_length_filter] at hcount
    rw [hevents, hcount]
    exact failures_of_applied (kind_task B config key _) haccounted hfin (hreport report hok)
  · intro h
    have hnone : (task B config key ⟨s, 0, []⟩).2.length = 0 := by
      rw [← haccounted.length_eq]
      exact List.length_eq_zero_iff.mpr (List.map_eq_nil_iff.mp (hbatchless h))
    rw [hnone] at hlength
    rw [hevents]
    exact List.length_eq_zero_iff.mp (Nat.eq_zero_of_add_eq_zero_right hlength)

/-- Of three deletions, one is done, one fails, and another actor has taken the target of one. -/
theorem recorded_of_run_overtaken :
    let w := Specimen.plain "web" 0 1
    let s := Specimen.world ((Specimen.crowd w ["a", "b", "c", "d"]).after
      (.setFaults { Faults.none with failingDeletes := ["b"] }))
    let others : Nat → List Store.Request := fun n =>
      if n = 4 then [.leaveDelete ⟨w.ns, "c"⟩] else []
    let B := Contested.backend others
    let cond : Conditions := ⟨.inOrder, none⟩
    let r := run B ⟨5, .observed⟩ cond w.key ⟨s, 0, []⟩
    s.store.Reachable ∧ (∀ k, r.1.result ≠ .error (.cancelled k)) ∧
      r.1.events = [.deleted ⟨w.ns, "a"⟩,
        .deleteFailed ⟨w.ns, "b"⟩ (.unavailable "injected delete failure")] ∧
      Recorded others (task B ⟨5, .observed⟩ w.key ⟨s, 0, []⟩).2
        (batchCalls B ⟨5, .observed⟩ cond w.key ⟨s, 0, []⟩) r.1
        s.cluster.instances r.2.log r.2.cluster.instances := by
  intro w s others B cond r
  have reachable : s.store.Reachable := Store.Reachable.after
    (.setFaults { Faults.none with failingDeletes := ["b"] })
    (Specimen.reachable_crowd w ["a", "b", "c", "d"])
  have huncancelled : ∀ k, r.1.result ≠ .error (.cancelled k) :=
    run_ne_cancelled B ⟨5, .observed⟩ rfl w.key ⟨s, 0, []⟩
  exact ⟨reachable, huncancelled, by decide +kernel,
    recorded_of_run reachable others ⟨5, .observed⟩ cond w.key huncancelled⟩

end Pass

end ReplicaController
