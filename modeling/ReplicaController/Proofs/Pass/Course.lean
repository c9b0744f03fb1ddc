import ReplicaController.Proofs.Batch.Summary
import ReplicaController.Proofs.Pass.Footprint

/-!
# The course of a pass

A pass reads its workload and a listing, runs the batch of the operations that it sets out to make,
and concludes. Here each of these stages stands for itself: a pass is broken off in its batch, or
its report says what the batch came to and what was counted behind it. On the store in memory the
readings are those of the cluster, if no fault is planned for them.
-/

namespace ReplicaController

namespace Pass

variable {σ : Type} {B : Backend σ} {view : σ → Cluster} {time : σ → Instant}
  {config : PassConfig} {cond : Conditions} {key : Key} {w : Workload} {s : σ}

/-- What a pass has read when it acts. -/
structure Readings where
  workload : Workload
  selector : Selector
  listed : List Instance

namespace Readings

def active (r : Readings) : List Instance := Instance.activeOwned r.workload.uid r.listed

end Readings

/-- The first readings of a pass, or what it comes to without them. -/
def readings (B : Backend σ) (key : Key) (s : σ) : Except (Except Error Outcome) Readings × σ :=
  match B.getWorkload key s with
  | (.error e, s) => (.error (if e.isNotFound then .ok .workloadGone else .error (.fetch key e)), s)
  | (.ok w, s) =>
    match w.spec.selector.parse with
    | .error e => (.error (.error (.selector key e)), s)
    | .ok selector =>
      match B.listInstances w.ns selector s with
      | (.error e, s) => (.error (.error (.list key e)), s)
      | (.ok listed, s) => (.ok ⟨w, selector, listed⟩, s)

theorem run_eq_readings (B : Backend σ) (config : PassConfig) (cond : Conditions) (key : Key)
    (s : σ) : run B config cond key s =
      match readings B key s with
      | (.error result, s) => (⟨result, [], []⟩, s)
      | (.ok r, s) => act B config cond key r.workload r.selector r.listed s := by
  unfold run readings
  generalize B.getWorkload key s = r
  obtain ⟨answer, s₁⟩ := r
  cases answer with
  | error e =>
    dsimp only
    split <;> rfl
  | ok w =>
    dsimp only
    cases w.spec.selector.parse with
    | error e => rfl
    | ok selector =>
      dsimp only
      generalize B.listInstances w.ns selector s₁ = r
      obtain ⟨answer, s₂⟩ := r
      cases answer <;> rfl

theorem readings_eq_ok (serves : B.Serves view) {r : Readings} {s' : σ}
    (h : readings B key s = (.ok r, s')) :
    (view s).workload? key = some r.workload ∧
      r.workload.spec.selector.parse = .ok r.selector ∧
      r.active = (view s).governed r.workload ∧ view s' = view s := by
  obtain ⟨hget, hfound⟩ := serves.getWorkload key s
  unfold readings at h
  generalize B.getWorkload key s = a at hget hfound h
  obtain ⟨answer, s₁⟩ := a
  dsimp only at hget hfound
  cases answer with
  | error e => cases h
  | ok w =>
    dsimp only at h
    cases hparse : w.spec.selector.parse with
    | error e =>
      rw [hparse] at h
      cases h
    | ok selector =>
      rw [hparse] at h
      dsimp only at h
      obtain ⟨hlist, hlisted⟩ := serves.listInstances w.ns selector s₁
      generalize B.listInstances w.ns selector s₁ = a at hlist hlisted h
      obtain ⟨answer, s₂⟩ := a
      dsimp only at hlist hlisted
      cases answer with
      | error e => cases h
      | ok listed =>
        cases h
        refine ⟨hfound w rfl, hparse, ?_, hlist.trans hget⟩
        rw [Readings.active, hlisted listed rfl, hget]
        exact Cluster.activeOwned_list _ hparse

theorem readings_snd (B : Backend σ) (key : Key) (s : σ) :
    (readings B key s).2 = (B.getWorkload key s).2 ∨ ∃ ns selector,
      (readings B key s).2 = (B.listInstances ns selector (B.getWorkload key s).2).2 := by
  unfold readings
  generalize B.getWorkload key s = a
  obtain ⟨answer, s₁⟩ := a
  cases answer with
  | error e => exact .inl rfl
  | ok w =>
    dsimp only
    cases w.spec.selector.parse with
    | error e => exact .inl rfl
    | ok selector =>
      refine .inr ⟨w.ns, selector, ?_⟩
      dsimp only
      split
      · rename_i h
        rw [h]
      · rename_i h
        rw [h]

theorem readings_keeps {P : σ → Prop} (keeps : Keeps B key P) (h : P s) :
    P (readings B key s).2 := by
  rcases readings_snd B key s with heq | ⟨ns, selector, heq⟩
  · exact heq ▸ keeps.getWorkload key s h
  · exact heq ▸ keeps.listInstances ns selector _ (keeps.getWorkload key s h)

theorem time_readings (clocked : B.Clocked time) (key : Key) (s : σ) :
    time (readings B key s).2 = time s := by
  rcases readings_snd B key s with h | ⟨ns, selector, h⟩
  · rw [h, clocked.getWorkload]
  · rw [h, clocked.listInstances, clocked.getWorkload]

theorem readings_ne_reconciled {result : Except Error Outcome} {s' : σ}
    (h : readings B key s = (.error result, s')) (report : Report) :
    result ≠ .ok (.reconciled report) := by
  unfold readings at h
  split at h
  · cases h
    split <;> exact fun h => nomatch h
  · split at h
    · cases h
      exact fun h => nomatch h
    · split at h
      · cases h
        exact fun h => nomatch h
      · cases h

/-- The operations that a pass over `w` sets out to make. -/
def operations (config : PassConfig) (w : Workload) (active : List Instance) :
    List Batch.Operation :=
  let d := adjustmentOf config w active
  match d.kind with
  | .none => []
  | .create =>
    match Stamp.ofWorkload w with
    | .error _ => []
    | .ok stamp => .replicate d.amount (.create stamp)
  | .delete => (config.policy.select active d.amount).map fun i => .delete i.key

/-- How many steps of its work a batch makes before shutdown is seen. -/
def Conditions.steps (c : Conditions) (work : Nat) : Nat :=
  match c.halt with
  | none => work
  | some halt => min halt.steps work

def runOperations (B : Backend σ) (c : Conditions) (ops : List Batch.Operation) (s : σ) :
    Batch.Progress × σ :=
  let p := Batch.Progress.start ops
  Batch.run B c.plan (c.steps p.work) p s

def batch (B : Backend σ) (config : PassConfig) (c : Conditions) (r : Readings) (s : σ) :
    Batch.Progress × σ :=
  runOperations B c (operations config r.workload r.active) s

theorem batch_keeps {P : σ → Prop} (keeps : Batch.CallsKeep B P) (config : PassConfig)
    (c : Conditions) (r : Readings) {s : σ} (h : P s) : P (batch B config c r s).2 :=
  Batch.run_keeps keeps _ _ _ h

theorem runBatch_cases (B : Backend σ) (cond : Conditions) (kind : Batch.Kind)
    (ops : List Batch.Operation) (s : σ) :
    let r := runOperations B cond ops s
    (r.1.isFinished = true ∧
      runBatch B cond kind ops s = (.applied (batchError kind r.1.results) r.1.events, r.2)) ∨
    runBatch B cond kind ops s = (.cancelled r.1.events r.1.slots, r.2) := by
  unfold runOperations runBatch Conditions.steps
  cases hhalt : cond.halt with
  | none => exact .inl ⟨Batch.finish_isFinished B cond.plan _ s, rfl⟩
  | some halt =>
    dsimp only
    split
    · rename_i hc
      rw [Bool.and_eq_true] at hc
      exact .inl ⟨hc.1, rfl⟩
    · exact .inr rfl

/-- No operation failed; a deletion of what is not there is none that did. -/
def AllFine (d : Adjustment) (results : List Batch.Result) : Prop :=
  ∀ r ∈ results, r = some (.ok ()) ∨
    d.kind = .delete ∧ ∃ e, r = some (.error e) ∧ e.isNotFound = true

theorem runOperations_nil (B : Backend σ) (cond : Conditions) (s : σ) :
    runOperations B cond [] s = (.start [], s) := by
  have hsteps : cond.steps (Batch.Progress.start []).work = 0 := by
    unfold Conditions.steps
    split
    · rfl
    · exact Nat.min_zero _
  rw [runOperations, hsteps]
  rfl

/-- Why an adjustment was not made in full, given what the slots of its batch came to. -/
inductive Applied (d : Adjustment) (results : List Batch.Result) : Option ReplicaError → Prop
  | idle : results = [] → Applied d results none
  | refused (e : OwnerFault) : results = [] → Applied d results (some (.owner e))
  | created : d.kind = .create → Applied d results (batchError .create results)
  | deleted : d.kind = .delete → Applied d results (batchError .delete results)

theorem Applied.allFine {d : Adjustment} {results : List Batch.Result}
    {error : Option ReplicaError} (h : Applied d results error) (hnone : error = none) :
    AllFine d results := by
  have hfine : ∀ kind, batchError kind results = none → ∀ r ∈ results,
      r = some (.ok ()) ∨ kind = .delete ∧ ∃ e, r = some (.error e) ∧ e.isNotFound = true := by
    intro kind h
    unfold batchError at h
    split at h
    · rename_i hsummary
      exact Batch.fine_of_summarize hsummary
    · contradiction
  intro r hr
  cases h with
  | idle hnil =>
    rw [hnil] at hr
    cases hr
  | refused e hnil => cases hnone
  | created hkind =>
    rcases hfine _ hnone r hr with hok | ⟨habsurd, -⟩
    · exact .inl hok
    · contradiction
  | deleted hkind => exact (hfine _ hnone r hr).imp_right fun hdelete => ⟨hkind, hdelete.2⟩

theorem manage_cases (B : Backend σ) (config : PassConfig) (cond : Conditions) (w : Workload)
    (active : List Instance) (s : σ) :
    let d := adjustmentOf config w active
    let r := runOperations B cond (operations config w active) s
    (∃ error, manage B config cond w active d s = (.applied error r.1.events, r.2) ∧
      r.1.isFinished = true ∧ Applied d r.1.results error) ∨
    manage B config cond w active d s = (.cancelled r.1.events r.1.slots, r.2) := by
  intro d
  unfold manage operations
  cases hkind : (adjustmentOf config w active).kind with
  | none =>
    simp only [d, hkind, runOperations_nil]
    exact .inl ⟨none, rfl, rfl, .idle rfl⟩
  | create =>
    simp only [d, hkind]
    cases Stamp.ofWorkload w with
    | error e =>
      simp only [runOperations_nil]
      exact .inl ⟨_, rfl, rfl, .refused e rfl⟩
    | ok stamp =>
      dsimp only
      rcases runBatch_cases B cond .create
        (.replicate (adjustmentOf config w active).amount (.create stamp)) s with ⟨hfin, h⟩ | h
      · exact .inl ⟨_, h, hfin, .created hkind⟩
      · exact .inr h
  | delete =>
    simp only [d, hkind]
    rcases runBatch_cases B cond .delete ((config.policy.select active
      (adjustmentOf config w active).amount).map fun i => .delete i.key) s with ⟨hfin, h⟩ | h
    · exact .inl ⟨_, h, hfin, .deleted hkind⟩
    · exact .inr h

theorem act_ends (B : Backend σ) (config : PassConfig) (cond : Conditions) (key : Key)
    (r : Readings) (s : σ) :
    let d := adjustmentOf config r.workload r.active
    let b := batch B config cond r s
    (∃ error, act B config cond key r.workload r.selector r.listed s =
        conclude B key r.workload r.selector d r.active error b.1.events b.2 ∧
      b.1.isFinished = true ∧ Applied d b.1.results error) ∨
    act B config cond key r.workload r.selector r.listed s =
      (⟨.error (.cancelled r.workload.key), b.1.events, b.1.slots⟩, b.2) := by
  intro d b
  unfold act
  dsimp only
  rcases manage_cases B config cond r.workload r.active s with ⟨error, h, hends⟩ | h
  · exact .inl ⟨error, by rw [Readings.active] at h; rw [h]; rfl, hends⟩
  · exact .inr (by rw [Readings.active] at h; rw [h]; rfl)

/-- A pass that has made its readings is broken off in its batch, or concludes behind it. -/
theorem act_cases (B : Backend σ) (config : PassConfig) (cond : Conditions) (key : Key)
    (r : Readings) (s : σ) :
    let d := adjustmentOf config r.workload r.active
    let b := batch B config cond r s
    (∃ error, act B config cond key r.workload r.selector r.listed s =
        conclude B key r.workload r.selector d r.active error b.1.events b.2 ∧
      (error = none → AllFine d b.1.results)) ∨
    act B config cond key r.workload r.selector r.listed s =
      (⟨.error (.cancelled r.workload.key), b.1.events, b.1.slots⟩, b.2) := by
  intro d b
  rcases act_ends B config cond key r s with ⟨error, hact, -, happlied⟩ | hact
  · exact .inl ⟨error, hact, happlied.allFine⟩
  · exact .inr hact

theorem observe_cases (B : Backend σ) (w : Workload) (selector : Selector) (d : Adjustment)
    (active : List Instance) (s : σ) :
    (d.isNone = true ∧ observe B w selector d active s = (active, s)) ∨
    (d.isNone = false ∧ ∃ listed, (B.listInstances w.ns selector s).1 = .ok listed ∧
      observe B w selector d active s =
        (Instance.activeOwned w.uid listed, (B.listInstances w.ns selector s).2)) ∨
    (d.isNone = false ∧ ∃ e, (B.listInstances w.ns selector s).1 = .error e ∧
      observe B w selector d active s = (active, (B.listInstances w.ns selector s).2)) := by
  unfold observe
  split
  · rename_i hnone
    exact .inl ⟨hnone, rfl⟩
  · rename_i hnone
    rw [Bool.not_eq_true] at hnone
    generalize B.listInstances w.ns selector s = a
    obtain ⟨answer, s'⟩ := a
    cases answer with
    | error e => exact .inr (.inr ⟨hnone, e, rfl, rfl⟩)
    | ok listed => exact .inr (.inl ⟨hnone, listed, rfl, rfl⟩)

theorem view_observe (serves : B.Serves view) (w : Workload) (selector : Selector)
    (d : Adjustment) (active : List Instance) (s : σ) :
    view (observe B w selector d active s).2 = view s := by
  rcases observe_cases B w selector d active s with ⟨-, h⟩ | ⟨-, listed, -, h⟩ | ⟨-, e, -, h⟩
  · rw [h]
  · rw [h, (serves.listInstances w.ns selector s).1]
  · rw [h, (serves.listInstances w.ns selector s).1]

theorem time_observe (clocked : B.Clocked time) (w : Workload) (selector : Selector)
    (d : Adjustment) (active : List Instance) (s : σ) :
    time (observe B w selector d active s).2 = time s := by
  rcases observe_cases B w selector d active s with ⟨-, h⟩ | ⟨-, listed, -, h⟩ | ⟨-, e, -, h⟩
  · rw [h]
  · rw [h, clocked.listInstances]
  · rw [h, clocked.listInstances]

theorem commit_eq_ok (serves : B.Serves view) (hw : (view s).workload? w.key = some w)
    {counts : Counts} {written : Commit} {s' : σ} (h : commit B w counts s = (.ok written, s')) :
    (view s').workload? w.key = some written.workload ∧ w.Agrees written.workload ∧
      written.workload.status = counts.toStatus w.generation ∧
      (view s').instances = (view s).instances := by
  unfold commit at h
  split at h
  · have hupdate := serves.updateStatus { w with status := counts.toStatus w.generation } s
    generalize B.updateStatus { w with status := counts.toStatus w.generation } s = a at h hupdate
    obtain ⟨answer, s₁⟩ := a
    dsimp only at h hupdate
    rcases hupdate with ⟨e, rfl, -⟩ | ⟨stored, hstored, -, rfl, hview⟩
    · cases h
    · cases h
      have hkey : Workload.key { w with status := counts.toStatus w.generation } = w.key := rfl
      rw [hkey, hw, Option.some.injEq] at hstored
      subst hstored
      refine ⟨?_, w.agrees_withStatus _, rfl, by rw [hview]⟩
      rw [hview, hkey]
      exact SortedMap.find?_insert_self _ _ _
  · rename_i hsame
    cases h
    have hstatus : w.status = counts.toStatus w.generation := by
      simpa [Counts.needsCommit] using hsame
    exact ⟨hw, .refl w, hstatus, rfl⟩

theorem conclude_reconciled {key : Key} {selector : Selector} {d : Adjustment}
    {active : List Instance} {error : Option ReplicaError} {events : List Event} {report : Report}
    (h : (conclude B key w selector d active error events s).1.result = .ok (.reconciled report)) :
    let o := observe B w selector d active s
    let counts := Counts.ofActive o.1 w.spec.minReadySeconds (B.now o.2).1
    ∃ written, commit B w counts (B.now o.2).2 =
        (.ok written, (conclude B key w selector d active error events s).2) ∧
      report = {
        adjustment := d
        skippedReplicaManagement := w.isBeingDeleted
        replicaError := error
        status := written.workload.status
        statusWritten := written.wasWritten
        convergence := .evaluate w.spec.replicas counts error.isSome } := by
  unfold conclude at h ⊢
  dsimp only at h ⊢
  split at h
  · cases h
  · rename_i written s' hcommit
    rw [hcommit]
    cases h
    exact ⟨written, rfl, rfl⟩

/-- A pass that reports has made its readings, its batch was not broken off, and it concluded. -/
theorem run_reconciled {report : Report}
    (h : (run B config cond key s).1.result = .ok (.reconciled report)) :
    ∃ r s₁ error, readings B key s = (.ok r, s₁) ∧
      let d := adjustmentOf config r.workload r.active
      let b := batch B config cond r s₁
      (error = none → AllFine d b.1.results) ∧ run B config cond key s =
        conclude B key r.workload r.selector d r.active error b.1.events b.2 := by
  rw [run_eq_readings] at h ⊢
  cases hr : readings B key s with
  | mk answer s₁ =>
    rw [hr] at h
    cases answer with
    | error result => exact absurd h (readings_ne_reconciled hr report)
    | ok r =>
      dsimp only at h ⊢
      rcases act_cases B config cond key r s₁ with ⟨error, hact, hfine⟩ | hact
      · exact ⟨r, s₁, error, rfl, hfine, hact⟩
      · rw [hact] at h
        cases h

end Pass

def CallTally.looked (t : CallTally) (n : Nat) : CallTally :=
  { t with gets := t.gets + n, lists := t.lists + n }

namespace World

def withTally (tally : CallTally) (s : World) : World :=
  { s with store := { s.store with tally } }

variable {s : World} {w : Workload}

theorem faults_withTally (tally : CallTally) (s : World) :
    (s.withTally tally).store.faults = s.store.faults := rfl

theorem getWorkload_eq (hw : s.cluster.workload? w.key = some w) :
    backend.getWorkload w.key s =
      (match s.store.faults.get with
        | some e => .error e
        | none => .ok w,
      s.withTally { s.store.tally with gets := s.store.tally.gets + 1 }) :=
  congrArg₂ Prod.mk (Store.getWorkload_fst hw)
    (congrArg (fun store => { s with store }) (Store.getWorkload_snd w.key s.store))

theorem listInstances_eq (ns : String) (selector : Selector) (s : World) :
    backend.listInstances ns selector s =
      (match s.store.faults.list with
        | some e => .error e
        | none => .ok (s.cluster.list ns selector),
      s.withTally { s.store.tally with lists := s.store.tally.lists + 1 }) :=
  congrArg₂ Prod.mk (Store.listInstances_fst ns selector s.store)
    (congrArg (fun store => { s with store }) (Store.listInstances_snd ns selector s.store))

theorem readings_eq (hw : s.cluster.workload? w.key = some w) :
    Pass.readings backend w.key s =
      match s.store.faults.get with
      | some e => (.error (if e.isNotFound then .ok .workloadGone else .error (.fetch w.key e)),
          s.withTally { s.store.tally with gets := s.store.tally.gets + 1 })
      | none =>
        match w.spec.selector.parse with
        | .error e => (.error (.error (.selector w.key e)),
            s.withTally { s.store.tally with gets := s.store.tally.gets + 1 })
        | .ok selector =>
          (match s.store.faults.list with
            | some e => .error (.error (.list w.key e))
            | none => .ok ⟨w, selector, s.cluster.list w.ns selector⟩,
          s.withTally (s.store.tally.looked 1)) := by
  unfold Pass.readings
  rw [getWorkload_eq hw]
  cases s.store.faults.get with
  | some e => rfl
  | none =>
    dsimp only
    cases w.spec.selector.parse with
    | error e => rfl
    | ok selector =>
      dsimp only
      rw [listInstances_eq, faults_withTally]
      cases s.store.faults.list <;> rfl

end World

end ReplicaController
