import ReplicaController.Proofs.Pass.Report
import ReplicaController.Proofs.Pass.Turns

/-!
# Settled workloads

A workload is settled once a pass without faults has reported on it and left it nothing to do. Any
further pass reads it and lists its instances. It writes the status once if its clock makes other
counts ready or available, or if the workload has got another generation, and otherwise leaves all
as it is, so that passes that count the same change nothing any more.
-/

namespace ReplicaController

namespace Workload

variable {w : Workload} {governed : List Instance}

/-- The status of these instances at the moment. -/
def statusAt (w : Workload) (governed : List Instance) (t : Instant) : WorkloadStatus :=
  (Counts.ofActive governed w.spec.minReadySeconds t).toStatus w.generation

/-- The stored status does not say which of these instances are ready or available at the moment, or
says it of another generation. Their number does not matter. -/
def IsStale (w : Workload) (governed : List Instance) (t : Instant) : Prop :=
  let status := w.statusAt governed t
  w.status.readyReplicas ≠ status.readyReplicas ∨
    w.status.availableReplicas ≠ status.availableReplicas ∨
    w.status.observedGeneration ≠ w.generation

theorem isStale_iff (h : w.status.replicas = clampCount governed.length) (t : Instant) :
    w.IsStale governed t ↔ w.status ≠ w.statusAt governed t := by
  have hreplicas : w.status.replicas = (w.statusAt governed t).replicas := h
  have hgeneration : (w.statusAt governed t).observedGeneration = w.generation := rfl
  unfold IsStale
  rw [← hgeneration]
  generalize w.statusAt governed t = status at hreplicas ⊢
  cases hs : w.status
  cases status
  rw [hs] at hreplicas
  dsimp only at hreplicas
  simp only [hreplicas, ne_eq, WorkloadStatus.mk.injEq, true_and, not_and_or]

end Workload

theorem CallTally.looked_looked (t : CallTally) (m n : Nat) :
    (t.looked m).looked n = t.looked (m + n) := by
  simp only [looked, Nat.add_assoc]

namespace World

/-- What a look at a workload, its instances and the clock leaves. -/
def looked (s : World) : World :=
  { s.withTally (s.store.tally.looked 1) with readings := s.readings + 1 }

/-- The status of `w` is written to its record. -/
def written (s : World) (w : Workload) (status : WorkloadStatus) : World :=
  { s with store := { s.store with
      tally := { s.store.tally with statusUpdates := s.store.tally.statusUpdates + 1 }
      cluster := { s.cluster with
        workloads := s.cluster.workloads.insert w.key (w.withStatus status) } } }

/-- The workload is stored with the number of its instances, and a pass has nothing to do. -/
structure Settled (w : Workload) (c : Cluster) : Prop where
  stored : c.workload? w.key = some w
  parses : ∃ selector, w.spec.selector.parse = .ok selector
  idle : w.isBeingDeleted = true ∨ (c.governed w).length = w.spec.replicas.toNat
  counted : w.status.replicas = clampCount (c.governed w).length

/-- A pass over the settled workload `w` from `s` to `s'`. -/
structure Recheck (w : Workload) (s : World) (ending : Pass.Ending) (s' : World) : Prop where
  fresh : ¬w.IsStale (s.cluster.governed w) s.time → s' = s.looked ∧
    ∃ report, ending = ⟨.ok (.reconciled report), [], []⟩ ∧ report.status = w.status ∧
      report.statusWritten = false
  stale : w.IsStale (s.cluster.governed w) s.time →
    let status := w.statusAt (s.cluster.governed w) s.time
    s' = s.looked.written w status ∧
      ∃ report, ending = ⟨.ok (.reconciled report), [], []⟩ ∧ report.status = status ∧
        report.statusWritten = true

variable {s : World} {w : Workload} {selector : Selector}

theorem calm_withTally (calm : s.Calm) (tally : CallTally) : (s.withTally tally).Calm := calm

theorem readings_of_calm (calm : s.Calm) (hw : s.cluster.workload? w.key = some w)
    (hparse : w.spec.selector.parse = .ok selector) :
    Pass.readings backend w.key s = (.ok ⟨w, selector, s.cluster.list w.ns selector⟩,
      s.withTally (s.store.tally.looked 1)) := by
  rw [readings_eq hw, show s.store.faults.get = none from calm.get, hparse,
    show s.store.faults.list = none from calm.list]

theorem commit_of_fresh {counts : Counts} (h : w.status = counts.toStatus w.generation) :
    Pass.commit backend w counts s = (.ok (.unchanged w), s) := by
  rw [Pass.commit, Counts.needsCommit, h, bne_self_eq_false]
  rfl

theorem commit_of_stale (quiet : s.store.faults.Quiet) (hw : s.cluster.workload? w.key = some w)
    {counts : Counts} (h : w.status ≠ counts.toStatus w.generation) :
    Pass.commit backend w counts s =
      (.ok (.updated (w.withStatus (counts.toStatus w.generation))),
        s.written w (counts.toStatus w.generation)) := by
  have hneeds : counts.needsCommit w.status w.generation = true := bne_iff_ne.mpr h
  have hupdate := Store.updateStatus_of_quiet
    (w := { w with status := counts.toStatus w.generation }) quiet hw rfl
  simp only [Pass.commit, hneeds, if_true, backend, onStore, hupdate]
  rfl

end World

namespace Pass

variable {σ : Type} {B : Backend σ} {config : PassConfig} {w : Workload} {active : List Instance}

theorem adjustmentOf_of_idle (config : PassConfig)
    (h : w.isBeingDeleted = true ∨ active.length = w.spec.replicas.toNat) :
    adjustmentOf config w active = .nothing := by
  rcases h with hdeleted | hlength
  · exact adjustmentOf_of_deleted hdeleted active
  · cases hdeleted : w.isBeingDeleted with
    | true => exact adjustmentOf_of_deleted hdeleted active
    | false => simp [adjustmentOf_of_live hdeleted, hlength, Adjustment.between]

theorem act_of_nothing (r : Readings) (hw : adjustmentOf config r.workload r.active = .nothing)
    (B : Backend σ) (cond : Conditions) (key : Key) (s : σ) :
    act B config cond key r.workload r.selector r.listed s =
      conclude B key r.workload r.selector .nothing r.active none [] s := by
  rw [Readings.active] at hw ⊢
  simp only [act, hw, manage, Adjustment.nothing]

theorem conclude_of_commit (key : Key) (selector : Selector) {s s' : σ} {written : Commit}
    (h : commit B w (Counts.ofActive active w.spec.minReadySeconds (B.now s).1) (B.now s).2 =
      (.ok written, s')) :
    ∃ report, conclude B key w selector .nothing active none [] s =
        (⟨.ok (.reconciled report), [], []⟩, s') ∧
      report.status = written.workload.status ∧ report.statusWritten = written.wasWritten := by
  have hnone : Adjustment.nothing.isNone = true := rfl
  simp only [conclude, observe, hnone, if_true, h]
  exact ⟨_, rfl, rfl, rfl⟩

end Pass

namespace World

variable {s : World} {w : Workload}

theorem Settled.recheck (settled : Settled w s.cluster) (quiet : s.store.faults.Quiet)
    (config : PassConfig) (cond : Pass.Conditions) :
    let r := Pass.run backend config cond w.key s
    Recheck w s r.1 r.2 := by
  obtain ⟨selector, hparse⟩ := settled.parses
  have hstale := w.isStale_iff settled.counted s.time
  have hactive := s.cluster.activeOwned_list hparse
  have hnothing := Pass.adjustmentOf_of_idle config settled.idle
  rw [← hactive] at hnothing
  rw [Pass.run_eq_readings, readings_of_calm quiet.toCalm settled.stored hparse]
  dsimp only
  rw [Pass.act_of_nothing ⟨w, selector, s.cluster.list w.ns selector⟩ hnothing,
    Pass.Readings.active, hactive]
  constructor
  · intro hfresh
    have hsame := not_not.mp (mt hstale.mpr hfresh)
    obtain ⟨report, hconclude, hstatus, hwritten⟩ :=
      Pass.conclude_of_commit (B := backend) (s := s.withTally (s.store.tally.looked 1)) w.key
        selector (commit_of_fresh (s := s.looked) hsame)
    rw [hconclude]
    exact ⟨rfl, report, rfl, hstatus, hwritten⟩
  · intro h
    obtain ⟨report, hconclude, hstatus, hwritten⟩ :=
      Pass.conclude_of_commit (B := backend) (s := s.withTally (s.store.tally.looked 1)) w.key
        selector (commit_of_stale (s := s.looked) quiet settled.stored (hstale.mp h))
    rw [hconclude]
    exact ⟨rfl, report, rfl, hstatus, hwritten⟩

variable {c : Cluster} {v : Workload} {t : Turn} {ts : List Turn}

theorem Settled.of_agrees (h : w.Agrees v) (stored : c.workload? w.key = some v)
    (parses : ∃ selector, w.spec.selector.parse = .ok selector)
    (idle : w.isBeingDeleted = true ∨ (c.governed w).length = w.spec.replicas.toNat)
    (counted : v.status.replicas = clampCount (c.governed w).length) : Settled v c where
  stored := by rw [h.key]; exact stored
  parses := by rw [h.spec]; exact parses
  idle := by
    rw [Workload.isBeingDeleted, h.deletionTimestamp, h.spec, c.governed_congr h]
    exact idle
  counted := by rw [c.governed_congr h]; exact counted

/-- A pass in calm settles its workload if it reports and leaves nothing to do. -/
theorem settled_of_run (calm : s.Calm) (hw : s.cluster.workload? w.key = some w)
    {config : PassConfig} {cond : Pass.Conditions} {report : Pass.Report}
    (hreport : (Pass.run backend config cond w.key s).1.result = .ok (.reconciled report))
    (idle : w.isBeingDeleted = true ∨
      ((Pass.run backend config cond w.key s).2.cluster.governed w).length =
        w.spec.replicas.toNat) :
    ∃ v, w.Agrees v ∧ v.status = report.status ∧
      Settled v (Pass.run backend config cond w.key s).2.cluster := by
  obtain ⟨r, s₁, error, observed, hr, rfl, hcommits, -, -, hlisted⟩ :=
    Pass.run_commits backend_serves backend_clocked hw hreport
  obtain ⟨-, hparse, -, -⟩ := Pass.readings_eq_ok backend_serves hr
  obtain ⟨hinstances, ⟨v, hstored, hagrees, hv⟩, hstatus, -⟩ := hcommits
  rw [readings_of_calm calm hw hparse] at hr
  obtain ⟨-, rfl⟩ := Prod.mk.inj hr
  have hcalm := Pass.batch_keeps (Batch.callsKeep_calm backend_grants) config cond r
    (calm_withTally calm (s.store.tally.looked 1))
  have hobserved := hlisted fun ⟨_, e, he⟩ => by
    rw [backend_grants.lists _ _ _ hcalm] at he
    cases he
  refine ⟨v, hagrees, hv, .of_agrees hagrees hstored ⟨r.selector, hparse⟩ idle ?_⟩
  rw [hv, hstatus, hobserved, Cluster.governed, Cluster.governed, hinstances]
  rfl

theorem Settled.recheck_turn (settled : Settled w s.cluster) (hkey : t.key = w.key)
    (quiet : t.faults.Quiet) : ∃ ending, Recheck w (s.withFaults t.faults) ending (s.turn t) := by
  rw [World.turn, hkey]
  exact ⟨_, Settled.recheck (s := s.withFaults t.faults) settled quiet t.config ⟨t.plan, none⟩⟩

theorem Settled.turn (settled : Settled w s.cluster) (hkey : t.key = w.key)
    (quiet : t.faults.Quiet) : ∃ v, w.Agrees v ∧ Settled v (s.turn t).cluster ∧
      (s.turn t).cluster.instances = s.cluster.instances := by
  obtain ⟨ending, hrecheck⟩ := settled.recheck_turn hkey quiet
  by_cases hstale : w.IsStale (s.cluster.governed w) s.time
  · obtain ⟨hturn, -⟩ := hrecheck.stale hstale
    rw [hturn]
    have hstored := SortedMap.find?_insert_self s.cluster.workloads w.key
      (w.withStatus (w.statusAt (s.cluster.governed w) s.time))
    have hagrees := w.agrees_withStatus (w.statusAt (s.cluster.governed w) s.time)
    exact ⟨_, hagrees, .of_agrees hagrees hstored settled.parses settled.idle rfl, rfl⟩
  · obtain ⟨hturn, -⟩ := hrecheck.fresh hstale
    rw [hturn]
    exact ⟨w, .refl w, settled, rfl⟩

/-- Turns over this workload alone, without faults. -/
def QuietTurns (key : Key) (ts : List Turn) : Prop := ∀ t ∈ ts, t.key = key ∧ t.faults.Quiet

theorem Settled.turns (settled : Settled w s.cluster) (hts : QuietTurns w.key ts) :
    ∃ v, w.Agrees v ∧ Settled v (s.turns ts).cluster ∧
      (s.turns ts).cluster.instances = s.cluster.instances := by
  refine turns_induction (P := fun s' => ∃ v, w.Agrees v ∧ Settled v s'.cluster ∧
    s'.cluster.instances = s.cluster.instances) ?_ ⟨w, .refl w, settled, rfl⟩
  rintro t ht s' ⟨v, hagrees, hsettled, hinstances⟩
  obtain ⟨hkey, quiet⟩ := hts t ht
  obtain ⟨v', hagrees', hsettled', hinstances'⟩ :=
    hsettled.turn (hkey.trans hagrees.key.symm) quiet
  exact ⟨v', hagrees.trans hagrees', hsettled', hinstances'.trans hinstances⟩

theorem Settled.turns_of_fresh (settled : Settled w s.cluster) (hts : QuietTurns w.key ts)
    (hfresh : ∀ n < ts.length,
      ¬w.IsStale (s.cluster.governed w) (s.clock (s.readings + n))) :
    (s.turns ts).cluster = s.cluster ∧
      (s.turns ts).store.tally = s.store.tally.looked ts.length := by
  induction ts generalizing s with
  | nil => exact ⟨rfl, rfl⟩
  | cons t ts ih =>
    obtain ⟨hkey, quiet⟩ := hts t List.mem_cons_self
    obtain ⟨ending, hrecheck⟩ := settled.recheck_turn hkey quiet
    obtain ⟨hturn, -⟩ := hrecheck.fresh (hfresh 0 (Nat.zero_lt_succ _))
    have hlater : ∀ n < ts.length, ¬w.IsStale ((s.turn t).cluster.governed w)
        ((s.turn t).clock ((s.turn t).readings + n)) := by
      intro n hn
      have hnext := hfresh (n + 1) (Nat.succ_lt_succ hn)
      rw [Nat.add_comm n, ← Nat.add_assoc] at hnext
      rw [hturn]
      exact hnext
    obtain ⟨hcluster, htally⟩ := ih (by rw [hturn]; exact settled)
      (fun t' ht' => hts t' (List.mem_cons_of_mem t ht')) hlater
    refine ⟨hcluster.trans (by rw [hturn]; rfl), htally.trans ?_⟩
    rw [hturn, List.length_cons, Nat.add_comm]
    exact s.store.tally.looked_looked 1 ts.length

/-- `w` is stored, and no pass over it from `s` on has more to do than to write its status. -/
structure LeftAlone (w : Workload) (s : World) : Prop where
  stored : s.cluster.workload? w.key = some w
  /-- Also if a writer has given it another generation, and at any time. -/
  recheck : ∀ generation resourceVersion config cond (u : World), u.store.faults.Quiet →
    u.cluster.instances = s.cluster.instances →
    u.cluster.workload? w.key = some { w with generation, resourceVersion } →
    let r := Pass.run backend config cond w.key u
    Recheck { w with generation, resourceVersion } u r.1 r.2
  repeats : ∀ ts, QuietTurns w.key ts →
    (∀ n < ts.length, ¬w.IsStale (s.cluster.governed w) (s.clock (s.readings + n))) →
    (s.turns ts).cluster = s.cluster ∧
      (s.turns ts).store.tally = s.store.tally.looked ts.length

theorem Settled.leftAlone (settled : Settled w s.cluster) : LeftAlone w s where
  stored := settled.stored
  recheck generation resourceVersion config cond u quiet hinstances hstored := by
    have hgoverned : u.cluster.governed { w with generation, resourceVersion } =
        s.cluster.governed w := by
      rw [Cluster.governed, hinstances]
      rfl
    have hsettled : Settled { w with generation, resourceVersion } u.cluster :=
      ⟨hstored, settled.parses, by rw [hgoverned]; exact settled.idle,
        by rw [hgoverned]; exact settled.counted⟩
    exact hsettled.recheck quiet config cond
  repeats ts hts := settled.turns_of_fresh hts

/-- A pass in calm that reports and leaves nothing to do is followed by passes that leave the
workload alone. -/
theorem run_leaves_alone (calm : s.Calm) (hw : s.cluster.workload? w.key = some w)
    {config : PassConfig} {cond : Pass.Conditions} {report : Pass.Report}
    (hreport : (Pass.run backend config cond w.key s).1.result = .ok (.reconciled report))
    (idle : w.isBeingDeleted = true ∨
      ((Pass.run backend config cond w.key s).2.cluster.governed w).length =
        w.spec.replicas.toNat) :
    let s' := (Pass.run backend config cond w.key s).2
    (∃ v, w.Agrees v ∧ v.status = report.status ∧ LeftAlone v s') ∧
      ∀ ts, QuietTurns w.key ts → ∃ v, w.Agrees v ∧ LeftAlone v (s'.turns ts) ∧
        (s'.turns ts).cluster.instances = s'.cluster.instances := by
  intro s'
  obtain ⟨v, hagrees, hstatus, settled⟩ := settled_of_run calm hw hreport idle
  refine ⟨⟨v, hagrees, hstatus, settled.leftAlone⟩, fun ts hts => ?_⟩
  rw [← hagrees.key] at hts
  obtain ⟨v', hagrees', settled', hinstances⟩ := settled.turns hts
  exact ⟨v', hagrees.trans hagrees', settled'.leftAlone, hinstances⟩

/-- One instance is created beside one that is there. -/
theorem run_leaves_alone_crowd :
    let w := Specimen.plain "web" 0 2
    let s := Specimen.world (Specimen.crowd w ["a"])
    let r := Pass.run backend ⟨5, .observed⟩ ⟨.inOrder, none⟩ w.key s
    let report : Pass.Report := {
      adjustment := ⟨.create, 1⟩
      skippedReplicaManagement := false
      replicaError := none
      status := ⟨2, 0, 0, 1⟩
      statusWritten := true
      convergence := .converging }
    s.Calm ∧ s.cluster.workload? w.key = some w ∧ r.1.result = .ok (.reconciled report) ∧
      (r.2.cluster.governed w).length = w.spec.replicas.toNat ∧
      (∃ v, w.Agrees v ∧ v.status = report.status ∧ LeftAlone v r.2) ∧
      ∀ ts, QuietTurns w.key ts → ∃ v, w.Agrees v ∧ LeftAlone v (r.2.turns ts) ∧
        (r.2.turns ts).cluster.instances = r.2.cluster.instances := by
  intro w s r report
  have hcalm : s.Calm := ⟨rfl, rfl, rfl, rfl, rfl, rfl⟩
  have hw : s.cluster.workload? w.key = some w := Specimen.workload?_crowd w ["a"]
  have hreport : r.1.result = .ok (.reconciled report) := by decide +kernel
  have hidle : (r.2.cluster.governed w).length = w.spec.replicas.toNat := by decide +kernel
  exact ⟨hcalm, hw, hreport, hidle, run_leaves_alone hcalm hw hreport (.inr hidle)⟩

end World

end ReplicaController
