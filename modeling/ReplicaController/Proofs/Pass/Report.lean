import ReplicaController.Proofs.Pass.Course
import ReplicaController.Proofs.Specimen
import ReplicaController.Proofs.Workload.Counts

/-!
# What a report tells

The status of a report is the one that is stored. Its counts are those of the governed instances
that the pass leaves behind, also if parts of its batch failed; they are those that it found only if
it cannot list them again. A workload is called converged only if every operation of the pass was
fine and all the instances that it asks for are there and available.
-/

namespace ReplicaController

theorem Adjustment.isNone_between {active desired burst : Nat} :
    (between active desired burst).isNone = true ↔ active = desired := by
  unfold between isNone nothing
  by_cases hlt : active < desired
  · simp [hlt]; omega
  · rw [if_neg hlt]
    by_cases hgt : desired < active
    · simp [hgt]; omega
    · simp [hgt]; omega

theorem Convergence.evaluate_eq_converged {desired : UInt32} {c : Counts} {hadErrors : Bool} :
    evaluate desired c hadErrors = .converged ↔
      hadErrors = false ∧ c.replicas = desired ∧ c.available = desired := by
  unfold evaluate
  cases hadErrors with
  | true => simp
  | false =>
    by_cases h : c.replicas = desired ∧ c.available = desired
    · simp [h]
    · simp [h]

namespace Pass

variable {σ : Type} {B : Backend σ} {view : σ → Cluster} {time : σ → Instant}
  {config : PassConfig} {cond : Conditions} {key : Key} {w : Workload} {s : σ}

/-- The instances are to be listed again behind the batch, and cannot be. -/
def RelistFails (B : Backend σ) (d : Adjustment) (r : Readings) (s : σ) : Prop :=
  d.isNone = false ∧ ∃ e, (B.listInstances r.workload.ns r.selector s).1 = .error e

/-- The report of a pass over `w` that found the cluster `c` and left the cluster `c'`. -/
structure Truthful (report : Report) (w : Workload) (t : Instant) (results : List Batch.Result)
    (relistFails : Prop) (c c' : Cluster) : Prop where
  stored : ∃ v, c'.workload? w.key = some v ∧ w.Agrees v ∧ v.status = report.status
  generation : report.status.observedGeneration = w.generation
  after : ¬relistFails → report.status.Tells w.spec.minReadySeconds t (c'.governed w)
  before : relistFails → report.status.Tells w.spec.minReadySeconds t (c.governed w)
  converged : report.convergence = .converged →
    AllFine report.adjustment results ∧ report.replicaError = none ∧
      (c'.governed w).length = w.spec.replicas.toNat ∧
      ∀ i ∈ c'.governed w, i.isAvailable w.spec.minReadySeconds t = true

theorem operations_of_isNone {active : List Instance}
    (h : (adjustmentOf config w active).isNone = true) : operations config w active = [] := by
  have hkind : (adjustmentOf config w active).kind = .none := by
    simpa [Adjustment.isNone] using h
  simp only [operations, hkind]

theorem isNone_adjustmentOf {active : List Instance}
    (h : active.length = w.spec.replicas.toNat) : (adjustmentOf config w active).isNone = true := by
  by_cases hdeleted : w.isBeingDeleted = true
  · rw [adjustmentOf_of_deleted hdeleted]
    rfl
  · rw [adjustmentOf_of_live (by simpa using hdeleted)]
    exact Adjustment.isNone_between.mpr h

theorem observe_fst (serves : B.Serves view) {r : Readings}
    (hparse : r.workload.spec.selector.parse = .ok r.selector) (d : Adjustment) (s : σ) :
    let observed := (observe B r.workload r.selector d r.active s).1
    (RelistFails B d r s → observed = r.active) ∧
      (¬RelistFails B d r s → d.isNone = true ∧ observed = r.active ∨
        observed = (view s).governed r.workload) := by
  intro observed
  rcases observe_cases B r.workload r.selector d r.active s with
    ⟨hnone, h⟩ | ⟨-, listed, hlisted, h⟩ | ⟨hsome, e, he, h⟩
  · have hobserved : observed = r.active := by simp only [observed, h]
    exact ⟨fun _ => hobserved, fun _ => .inl ⟨hnone, hobserved⟩⟩
  · refine ⟨fun ⟨_, e, he⟩ => ?_, fun _ => .inr ?_⟩
    · rw [hlisted] at he
      cases he
    · have hlist := (serves.listInstances r.workload.ns r.selector s).2 listed hlisted
      simp only [observed, h, hlist]
      exact Cluster.activeOwned_list _ hparse
  · exact ⟨fun _ => by simp only [observed, h], fun hnot => absurd ⟨hsome, e, he⟩ hnot⟩

/-- What a report about `w` is made of, and what its commit leaves of the cluster `c`. -/
structure Report.Commits (report : Report) (w : Workload) (d : Adjustment)
    (error : Option ReplicaError) (counts : Counts) (c c' : Cluster) : Prop where
  instances : c'.instances = c.instances
  stored : ∃ v, c'.workload? w.key = some v ∧ w.Agrees v ∧ v.status = report.status
  status : report.status = counts.toStatus w.generation
  adjustment : report.adjustment = d
  replicaError : report.replicaError = error
  convergence : report.convergence = .evaluate w.spec.replicas counts error.isSome

theorem conclude_commits (serves : B.Serves view) (clocked : B.Clocked time) {selector : Selector}
    {d : Adjustment} {active : List Instance} {error : Option ReplicaError} {events : List Event}
    (hw : (view s).workload? w.key = some w) {report : Report}
    (h : (conclude B key w selector d active error events s).1.result =
      .ok (.reconciled report)) :
    report.Commits w d error (Counts.ofActive (observe B w selector d active s).1
        w.spec.minReadySeconds (time s)) (view s)
      (view (conclude B key w selector d active error events s).2) := by
  obtain ⟨written, hcommit, rfl⟩ := conclude_reconciled h
  have hstate : view (B.now (observe B w selector d active s).2).2 = view s :=
    (serves.now _).trans (view_observe serves w selector d active s)
  rw [clocked.now, time_observe clocked] at hcommit ⊢
  obtain ⟨hstored, hagrees, hstatus, hinstances⟩ := commit_eq_ok serves (hstate ▸ hw) hcommit
  exact ⟨hstate ▸ hinstances, ⟨_, hstored, hagrees, rfl⟩, hstatus, rfl, rfl, rfl⟩

theorem run_commits (serves : B.Serves view) (clocked : B.Clocked time)
    (hw : (view s).workload? w.key = some w) {report : Report}
    (hreport : (run B config cond w.key s).1.result = .ok (.reconciled report)) :
    ∃ r s₁ error observed, readings B w.key s = (.ok r, s₁) ∧ r.workload = w ∧
      let d := adjustmentOf config w ((view s).governed w)
      let b := batch B config cond r s₁
      report.Commits w d error (Counts.ofActive observed w.spec.minReadySeconds (time s))
          (view b.2) (view (run B config cond w.key s).2) ∧
        (error = none → AllFine d b.1.results) ∧
        (RelistFails B d r b.2 → observed = (view s).governed w) ∧
        (¬RelistFails B d r b.2 → observed = (view b.2).governed w) := by
  obtain ⟨r, s₁, error, hr, hfine, hrun⟩ := run_reconciled hreport
  obtain ⟨hfound, hparse, hactive, hview₁⟩ := readings_eq_ok serves hr
  obtain rfl : r.workload = w := Option.some.inj (hfound.symm.trans hw)
  have htime₁ : time s₁ = time s := by rw [← time_readings clocked r.workload.key s, hr]
  have hworkloads : (view (batch B config cond r s₁).2).workloads = (view s).workloads := by
    rw [← hview₁]
    exact batch_keeps (Batch.callsKeep_workloads serves _) config cond r rfl
  have htime : time (batch B config cond r s₁).2 = time s := by
    rw [← htime₁]
    exact batch_keeps (Batch.callsKeep_time clocked _) config cond r rfl
  have hthere : (view (batch B config cond r s₁).2).workload? r.workload.key =
      some r.workload := by
    rw [Cluster.workload?, hworkloads]
    exact hw
  have hcommits := conclude_commits serves clocked hthere (hrun ▸ hreport)
  obtain ⟨hfails, hnot⟩ := observe_fst serves hparse
    (adjustmentOf config r.workload r.active) (batch B config cond r s₁).2
  rw [← hrun, htime] at hcommits
  rw [← hactive]
  refine ⟨r, s₁, error, _, hr, rfl, hcommits, hfine, hfails, fun h => ?_⟩
  rcases hnot h with ⟨hnone, hobserved⟩ | hobserved
  · rw [hobserved, hactive, batch, operations_of_isNone hnone, runOperations_nil, hview₁]
  · exact hobserved

/-- A report of any pass, whatever its calls are answered and however its batch goes on. -/
theorem run_truthful (serves : B.Serves view) (clocked : B.Clocked time)
    (hw : (view s).workload? w.key = some w) (config : PassConfig) (cond : Conditions)
    {report : Report} (hreport : (run B config cond w.key s).1.result = .ok (.reconciled report))
    (hbefore : ((view s).governed w).length < UInt32.size)
    (hafter : ((view (run B config cond w.key s).2).governed w).length < UInt32.size) :
    ∃ r s₁, readings B w.key s = (.ok r, s₁) ∧
      let b := batch B config cond r s₁
      let s' := (run B config cond w.key s).2
      (view s').instances = (view b.2).instances ∧
        Truthful report w (time s) b.1.results (RelistFails B report.adjustment r b.2) (view s)
          (view s') := by
  obtain ⟨r, s₁, error, observed, hr, -, hcommits, hfine, hfails, hnot⟩ :=
    run_commits serves clocked hw hreport
  obtain ⟨hinstances, hstored, hstatus, hadjustment, herror, hconvergence⟩ := hcommits
  have hgoverned : (view (batch B config cond r s₁).2).governed w =
      (view (run B config cond w.key s).2).governed w := by
    rw [Cluster.governed, Cluster.governed, hinstances]
  rw [hgoverned] at hnot
  refine ⟨r, s₁, hr, hinstances, hstored, by rw [hstatus]; rfl, ?_, ?_, ?_⟩
  · intro h
    rw [hstatus, hnot (hadjustment ▸ h)]
    exact Counts.tells_ofActive hafter _ _ _
  · intro h
    rw [hstatus, hfails (hadjustment ▸ h)]
    exact Counts.tells_ofActive hbefore _ _ _
  · intro hconverged
    rw [hconvergence, Convergence.evaluate_eq_converged] at hconverged
    obtain ⟨hnone, hreplicas, havailable⟩ := hconverged
    have herrors : error = none := by simpa using hnone
    -- A batch with something to do began away from the desired count, so it was listed again.
    have hlisted : ¬RelistFails B (adjustmentOf config w ((view s).governed w)) r
        (batch B config cond r s₁).2 := by
      intro hrelist
      have htells := Counts.tells_ofActive hbefore w.spec.minReadySeconds (time s) w.generation
      rw [hfails hrelist] at hreplicas
      have hlength := htells.replicas.symm.trans (congrArg UInt32.toNat hreplicas)
      rw [RelistFails, isNone_adjustmentOf hlength] at hrelist
      exact Bool.noConfusion hrelist.1
    rw [hnot hlisted] at hreplicas havailable
    have htells := Counts.tells_ofActive hafter w.spec.minReadySeconds (time s) w.generation
    have hlength := htells.replicas.symm.trans (congrArg UInt32.toNat hreplicas)
    have hcount := htells.available.symm.trans (congrArg UInt32.toNat havailable)
    refine ⟨hadjustment ▸ hfine herrors, herror.trans herrors, hlength, ?_⟩
    exact List.countP_eq_length.mp (hcount.trans hlength.symm)

/-- Three instances are two too many, and one of the two deletions fails. -/
theorem run_truthful_crowded :
    let w := Specimen.plain "web" 0 1
    let store := (Specimen.crowd w ["a", "b", "c"]).after
      (.setFaults { Faults.none with failingDeletes := ["b"] })
    let s := Specimen.world store
    let report : Report := {
      adjustment := ⟨.delete, 2⟩
      skippedReplicaManagement := false
      replicaError := some (.batch (.partialFailure .delete 2 1
        (.unavailable "injected delete failure")))
      status := ⟨2, 0, 0, 1⟩
      statusWritten := true
      convergence := .degraded }
    let s' := (run World.backend ⟨5, .observed⟩ ⟨.lockstep, none⟩ w.key s).2
    s.cluster.workload? w.key = some w ∧
      (run World.backend ⟨5, .observed⟩ ⟨.lockstep, none⟩ w.key s).1.result =
        .ok (.reconciled report) ∧
      (s.cluster.governed w).length < UInt32.size ∧ (s'.cluster.governed w).length < UInt32.size ∧
      ∃ r s₁, readings World.backend w.key s = (.ok r, s₁) ∧
        let b := batch World.backend ⟨5, .observed⟩ ⟨.lockstep, none⟩ r s₁
        s'.cluster.instances = b.2.cluster.instances ∧
          Truthful report w s.time b.1.results
            (RelistFails World.backend report.adjustment r b.2) s.cluster s'.cluster := by
  intro w store s report s'
  have hw : s.cluster.workload? w.key = some w := Specimen.workload?_crowd w ["a", "b", "c"]
  have hreport : (run World.backend ⟨5, .observed⟩ ⟨.lockstep, none⟩ w.key s).1.result =
      .ok (.reconciled report) := by decide +kernel
  have hbefore : (s.cluster.governed w).length < UInt32.size := by decide +kernel
  have hafter : (s'.cluster.governed w).length < UInt32.size := by decide +kernel
  exact ⟨hw, hreport, hbefore, hafter, run_truthful World.backend_serves World.backend_clocked hw
    ⟨5, .observed⟩ ⟨.lockstep, none⟩ hreport hbefore hafter⟩

end Pass

end ReplicaController
