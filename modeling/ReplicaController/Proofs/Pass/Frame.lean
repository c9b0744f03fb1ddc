import ReplicaController.Proofs.Pass.Footprint
import ReplicaController.Proofs.Specimen

/-!
# What a pass may touch

A pass removes none but instances that its workload governs and adds none but pending ones of its
stamp, within the distance to the desired count and within the burst. A workload that is being
deleted keeps its instances. All other instances stay as they are and in their order, and so do the
records of all other workloads.
-/

namespace ReplicaController

namespace Pass

/-- The cluster `c'` comes from `c` without the instances that are gone and with those added. -/
structure Frame (config : PassConfig) (w : Workload) (c c' : Cluster) (gone : Instance → Bool)
    (added : List Instance) : Prop where
  instances : c'.instances = c.instances.filter (fun i => !gone i) ++ added
  governed : ∀ i ∈ c.instances, gone i = true →
    i.isActive = true ∧ i.isOwnedBy w.uid = true ∧ i.ns = w.ns ∧ w.selects i.labels = true
  gone_le : c.instances.countP gone ≤
    min ((c.governed w).length - w.spec.replicas.toNat) config.burst
  stamped : ∀ i ∈ added,
    i.phase = .pending ∧ i.ns = w.ns ∧ i.ownerReferences = [w.controllerRef]
  added_le : added.length ≤ min (w.spec.replicas.toNat - (c.governed w).length) config.burst
  kept : w.deletionTimestamp.isSome = true → c'.instances = c.instances
  others : ∀ l, l ≠ w.key → c'.workload? l = c.workload? l

/-- Every pass, whatever faults are planned and however its operations interleave. -/
theorem run_frame {s : World} (reachable : s.store.Reachable) (config : PassConfig)
    (cond : Conditions) {key : Key} {w : Workload} (hw : s.cluster.workload? key = some w) :
    ∃ gone added, Frame config w s.cluster (run World.backend config cond key s).2.cluster
      gone added := by
  have sound : s.cluster.Sound := reachable.sound
  obtain ⟨removed, added, hfoot⟩ := run_footprint World.backend_serves config cond sound hw
  have hcount := hfoot.countP_removed sound
  have hremoved := hfoot.length_removed_le
  have hadded := hfoot.added_length_le
  have hdeletes := deletes_adjustmentOf_le config w (s.cluster.governed w)
  have hcreates := creates_adjustmentOf_le config w (s.cluster.governed w)
  refine ⟨fun i => removed.contains i.key, added, hfoot.instances_eq, ?_, ?_, ?_, ?_, ?_, ?_⟩
  · intro i hi hgone
    apply Workload.governs_iff.mp
    exact hfoot.governs_of_removed sound hi (List.contains_iff_mem.mp hgone)
  · omega
  · intro i hi
    obtain ⟨stamp, d, hstamp, rfl⟩ := hfoot.stamped i hi
    obtain ⟨hns, -, howner⟩ := Stamp.ofWorkload_eq_ok hstamp
    exact ⟨rfl, hns, by rw [Stamp.build, howner]⟩
  · omega
  · intro hdeleted
    rw [adjustmentOf_of_deleted hdeleted] at hremoved hadded
    obtain rfl : removed = [] := List.eq_nil_of_length_eq_zero (Nat.le_zero.mp hremoved)
    obtain rfl : added = [] := List.eq_nil_of_length_eq_zero (Nat.le_zero.mp hadded)
    rw [hfoot.instances_eq, List.append_nil]
    simp
  · exact fun l hl => hfoot.left.others l hl

/-- A pass on a reachable store with too many instances, one of which cannot be deleted. -/
theorem run_frame_crowded :
    let w := Specimen.plain "web" 0 1
    let store := ((Specimen.crowd w ["a", "b", "c"]).after
      (.putInstance (Specimen.running (Specimen.plain "job" 1 1) "d" .epoch))).after
      (.setFaults { Faults.none with failingDeletes := ["b"] })
    let s := Specimen.world store
    store.Reachable ∧ s.cluster.workload? w.key = some w ∧ s.cluster.instances.length = 4 ∧
      ∃ gone added, Frame ⟨5, .ranked⟩ w s.cluster
        (run World.backend ⟨5, .ranked⟩ ⟨.lockstep, none⟩ w.key s).2.cluster gone added := by
  intro w store s
  have reachable : store.Reachable :=
    .after _ (.after _ (Specimen.reachable_crowd w ["a", "b", "c"]))
  have hw : s.cluster.workload? w.key = some w := Specimen.workload?_crowd w ["a", "b", "c"]
  exact ⟨reachable, hw, by decide +kernel, run_frame reachable ⟨5, .ranked⟩ ⟨.lockstep, none⟩ hw⟩

end Pass

end ReplicaController
