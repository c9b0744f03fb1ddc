import Mathlib.Data.List.Basic
import ReplicaController.Proofs.Batch.Effect
import ReplicaController.Proofs.Pass.Stages
import ReplicaController.Proofs.Scaling.DrainOrder

/-!
# The footprint of a pass

A pass removes instances under keys of its victims and adds instances of its stamp, no more of
either than its adjustment asks for. It may write the status of its own workload. All that others
own stays as it is, and the instances that are governed change by those removed and added.
-/

namespace ReplicaController

namespace Adjustment

def creates (d : Adjustment) : Nat := if d.kind = .create then d.amount else 0

def deletes (d : Adjustment) : Nat := if d.kind = .delete then d.amount else 0

theorem creates_of_create {d : Adjustment} (h : d.kind = .create) : d.creates = d.amount := if_pos h

theorem creates_of_ne {d : Adjustment} (h : d.kind ≠ .create) : d.creates = 0 := if_neg h

theorem deletes_of_delete {d : Adjustment} (h : d.kind = .delete) : d.deletes = d.amount := if_pos h

theorem deletes_of_ne {d : Adjustment} (h : d.kind ≠ .delete) : d.deletes = 0 := if_neg h

theorem creates_between (active desired burst : Nat) :
    (between active desired burst).creates = min (desired - active) burst := by
  unfold between creates nothing
  by_cases hlt : active < desired
  · simp [hlt]
  · rw [if_neg hlt]
    by_cases hgt : desired < active
    · simp [hgt]; omega
    · simp [hgt]; omega

theorem deletes_between (active desired burst : Nat) :
    (between active desired burst).deletes = min (active - desired) burst := by
  unfold between deletes nothing
  by_cases hlt : active < desired
  · simp [hlt]; omega
  · rw [if_neg hlt]
    by_cases hgt : desired < active
    · simp [hgt]
    · simp [hgt]; omega

end Adjustment

namespace Pass

variable {σ : Type} {B : Backend σ} {view : σ → Cluster} {config : PassConfig} {cond : Conditions}
  {key : Key} {w : Workload} {s : σ}

theorem adjustmentOf_of_live (h : w.isBeingDeleted = false) (active : List Instance) :
    adjustmentOf config w active =
      .between active.length w.spec.replicas.toNat config.burst := by
  rw [adjustmentOf, h]
  rfl

theorem adjustmentOf_of_deleted (h : w.isBeingDeleted = true) (active : List Instance) :
    adjustmentOf config w active = .nothing := by
  rw [adjustmentOf, if_pos h]

theorem creates_adjustmentOf_le (config : PassConfig) (w : Workload) (active : List Instance) :
    (adjustmentOf config w active).creates ≤
      min (w.spec.replicas.toNat - active.length) config.burst := by
  by_cases h : w.isBeingDeleted = true
  · rw [adjustmentOf_of_deleted h]
    exact Nat.zero_le _
  · refine Nat.le_of_eq ?_
    rw [adjustmentOf_of_live (by simpa using h), Adjustment.creates_between]

theorem deletes_adjustmentOf_le (config : PassConfig) (w : Workload) (active : List Instance) :
    (adjustmentOf config w active).deletes ≤
      min (active.length - w.spec.replicas.toNat) config.burst := by
  by_cases h : w.isBeingDeleted = true
  · rw [adjustmentOf_of_deleted h]
    exact Nat.zero_le _
  · refine Nat.le_of_eq ?_
    rw [adjustmentOf_of_live (by simpa using h), Adjustment.deletes_between]

def victims (config : PassConfig) (w : Workload) (c : Cluster) : List Instance :=
  config.policy.select (c.governed w) (adjustmentOf config w (c.governed w)).deletes

/-- What a pass over `w` makes of the cluster `c`. -/
structure Footprint (config : PassConfig) (w : Workload) (c : Cluster) (removed : List Key)
    (added : List Instance) (c' : Cluster) : Prop where
  removed_sublist : removed.Sublist ((victims config w c).map Instance.key)
  added_length_le : added.length ≤ (adjustmentOf config w (c.governed w)).creates
  stamped : ∀ i ∈ added, ∃ stamp d, Stamp.ofWorkload w = .ok stamp ∧ i = stamp.build d
  sound : c'.Sound
  left : ((c.without removed).grow added).SameBut w.key c'

namespace Footprint

variable {c c' c'' : Cluster} {removed : List Key} {added : List Instance}

theorem nothing (config : PassConfig) (w : Workload) (sound : c.Sound) :
    Footprint config w c [] [] c where
  removed_sublist := List.nil_sublist _
  added_length_le := Nat.zero_le _
  stamped := by simp
  sound := sound
  left := by
    rw [Cluster.without_nil, Cluster.grow_nil]
    exact .refl w.key c

theorem written (h : Footprint config w c removed added c') (h' : c'.SameBut w.key c'') :
    Footprint config w c removed added c'' :=
  ⟨h.removed_sublist, h.added_length_le, h.stamped, h'.sound h.sound, h.left.trans h'⟩

end Footprint

theorem select_amount {c : Cluster}
    (hkind : (adjustmentOf config w (c.governed w)).kind = .delete) :
    config.policy.select (c.governed w) (adjustmentOf config w (c.governed w)).amount =
      victims config w c := by
  rw [victims, Adjustment.deletes_of_delete hkind]

theorem map_delete_key (is : List Instance) :
    is.map (fun i => Batch.Operation.delete i.key) = (is.map Instance.key).map .delete := by
  rw [List.map_map]
  rfl

theorem manage_footprint (serves : B.Serves view) (config : PassConfig) (cond : Conditions)
    (w : Workload) (sound : (view s).Sound) :
    ∃ removed added, Footprint config w (view s) removed added
      (view (manage B config cond w ((view s).governed w)
        (adjustmentOf config w ((view s).governed w)) s).2) := by
  have idle := Footprint.nothing config w sound
  unfold manage
  cases hkind : (adjustmentOf config w ((view s).governed w)).kind with
  | none => exact ⟨[], [], idle⟩
  | create =>
    dsimp only
    cases hstamp : Stamp.ofWorkload w with
    | error e => exact ⟨[], [], idle⟩
    | ok stamp =>
      obtain ⟨n, hn⟩ := exists_runBatch B cond .create
        (.replicate (adjustmentOf config w ((view s).governed w)).amount (.create stamp)) s
      obtain ⟨hsound, added, hview, hlength, hbuilt⟩ :=
        Batch.run_creations serves sound stamp _ cond.plan n
      rw [← hn] at hsound hview
      refine ⟨[], added, List.nil_sublist _, ?_, ?_, hsound, ?_⟩
      · rw [Adjustment.creates_of_create hkind]
        exact hlength
      · intro i hi
        obtain ⟨d, hd⟩ := hbuilt i hi
        exact ⟨stamp, d, hstamp, hd⟩
      · rw [Cluster.without_nil, ← hview]
        exact .refl w.key _
  | delete =>
    dsimp only
    rw [select_amount hkind, map_delete_key]
    obtain ⟨n, hn⟩ := exists_runBatch B cond .delete
      (((victims config w (view s)).map Instance.key).map .delete) s
    obtain ⟨removed, hsub, hview⟩ := Batch.run_deletions serves
      ((victims config w (view s)).map Instance.key) cond.plan n s
    rw [← hn] at hview
    have hsound := sound.without removed
    refine ⟨removed, [], hsub, Nat.zero_le _, by simp, hview ▸ hsound, ?_⟩
    rw [Cluster.grow_nil, ← hview]
    exact .refl w.key _

theorem act_footprint (serves : B.Serves view) (sound : (view s).Sound) {selector : Selector}
    (hparse : w.spec.selector.parse = .ok selector) :
    ∃ removed added, Footprint config w (view s) removed added
      (view (act B config cond key w selector ((view s).list w.ns selector) s).2) := by
  obtain ⟨removed, added, hfoot⟩ := manage_footprint serves config cond w sound
  refine ⟨removed, added, ?_⟩
  unfold act
  rw [Cluster.activeOwned_list _ hparse]
  dsimp only
  generalize manage B config cond w _ _ s = r at hfoot
  obtain ⟨action, s'⟩ := r
  cases action with
  | cancelled events leftover => exact hfoot
  | applied error events =>
    apply hfoot.written
    exact conclude_keeps (keeps_sameBut serves w.key (view s')) (.refl w.key _)

/-- Every pass over a stored workload, whatever stands in the way of its calls. -/
theorem run_footprint (serves : B.Serves view) (config : PassConfig) (cond : Conditions)
    (sound : (view s).Sound) (hw : (view s).workload? key = some w) :
    ∃ removed added, Footprint config w (view s) removed added
      (view (run B config cond key s).2) := by
  obtain ⟨s', -, hview, hrun | ⟨selector, hparse, hrun⟩⟩ :=
    run_cases serves config cond hw (keeps_true B w.key) trivial
  · rw [hrun, hview]
    exact ⟨[], [], .nothing config w sound⟩
  · rw [hrun, ← hview]
    exact act_footprint serves (hview ▸ sound) hparse

section Victims

variable {c : Cluster} {i : Instance}

theorem mem_victims (h : i ∈ victims config w c) : i ∈ c.instances ∧ w.governs i = true :=
  List.mem_filter.mp (VictimPolicy.mem_of_mem_select h)

theorem length_victims_le : (victims config w c).length ≤
    (adjustmentOf config w (c.governed w)).deletes := by
  rw [victims, VictimPolicy.length_select]
  exact Nat.min_le_left _ _

theorem nodup_victims (sound : c.Sound) : ((victims config w c).map Instance.key).Nodup :=
  VictimPolicy.nodup_keys_select (sound.nodup_filter w.governs) _ _

theorem hasInstance_victims : ∀ k ∈ (victims config w c).map Instance.key,
    c.hasInstance k = true := by
  intro k hk
  obtain ⟨i, hi, rfl⟩ := List.mem_map.mp hk
  exact Cluster.hasInstance_iff.mpr (List.mem_map_of_mem (mem_victims hi).1)

end Victims

namespace Footprint

variable {c c' : Cluster} {removed : List Key} {added : List Instance} {i : Instance}

theorem agrees (h : Footprint config w c removed added c') : c.Agrees c' := h.left.agrees

theorem instances_eq (h : Footprint config w c removed added c') :
    c'.instances = c.instances.filter (fun i => !removed.contains i.key) ++ added :=
  h.left.instances

theorem mem_victims_of_removed (h : Footprint config w c removed added c') (sound : c.Sound)
    (hi : i ∈ c.instances) (hk : i.key ∈ removed) : i ∈ victims config w c := by
  obtain ⟨j, hj, hkey⟩ := List.mem_map.mp (h.removed_sublist.subset hk)
  exact sound.eq_of_key (mem_victims hj).1 hi hkey ▸ hj

theorem governs_of_removed (h : Footprint config w c removed added c') (sound : c.Sound)
    (hi : i ∈ c.instances) (hk : i.key ∈ removed) : w.governs i = true :=
  (mem_victims (h.mem_victims_of_removed sound hi hk)).2

theorem length_removed_le (h : Footprint config w c removed added c') :
    removed.length ≤ (adjustmentOf config w (c.governed w)).deletes := by
  have hle := h.removed_sublist.length_le
  rw [List.length_map] at hle
  exact Nat.le_trans hle length_victims_le

theorem isOwnedBy_of_added (h : Footprint config w c removed added c') (hi : i ∈ added)
    (uid : Uid) : i.isOwnedBy uid = (w.uid == uid) := by
  obtain ⟨stamp, d, hstamp, rfl⟩ := h.stamped i hi
  exact Stamp.isOwnedBy_build hstamp d uid

theorem filter_eq_of_foreign (h : Footprint config w c removed added c') (sound : c.Sound)
    {q : Instance → Bool} (hq : ∀ i, q i = true → i.isOwnedBy w.uid = false) :
    c'.instances.filter q = c.instances.filter q := by
  have hold : ∀ i ∈ c.instances, (q i && !removed.contains i.key) = q i := by
    intro i hi
    by_cases hk : i.key ∈ removed
    · have howned := (Workload.governs_iff.mp (h.governs_of_removed sound hi hk)).2.1
      by_cases hqi : q i = true
      · rw [hq i hqi] at howned
        contradiction
      · simp [hqi]
    · simp [hk]
  have hnew : added.filter q = [] := by
    apply List.filter_eq_nil_iff.mpr
    intro i hi hqi
    have howned := h.isOwnedBy_of_added hi w.uid
    rw [hq i hqi] at howned
    simp at howned
  rw [h.instances_eq, List.filter_append, hnew, List.append_nil, List.filter_filter]
  exact List.filter_congr hold

theorem governed_eq_of_ne (h : Footprint config w c removed added c') (sound : c.Sound)
    {v : Workload} (huid : v.uid ≠ w.uid) : c'.governed v = c.governed v := by
  apply h.filter_eq_of_foreign sound
  intro i hi
  obtain ⟨-, howned, -⟩ := Workload.governs_iff.mp hi
  exact Instance.isOwnedBy_of_ne howned huid

theorem governed_eq (h : Footprint config w c removed added c') :
    c'.governed w = (c.governed w).filter (fun i => !removed.contains i.key) ++
      added.filter w.governs := by
  rw [Cluster.governed, h.instances_eq, List.filter_append, List.filter_comm]
  rfl

theorem governs_of_added (h : Footprint config w c removed added c') (hi : i ∈ added) :
    w.governs i = w.selects w.stampedLabels := by
  obtain ⟨stamp, d, hstamp, rfl⟩ := h.stamped i hi
  exact Stamp.governs_build hstamp d

theorem filter_removed_governed (h : Footprint config w c removed added c') (sound : c.Sound) :
    (c.governed w).filter (fun i => removed.contains i.key) =
      c.instances.filter fun i => removed.contains i.key := by
  rw [Cluster.governed, List.filter_filter]
  apply List.filter_congr
  intro i hi
  by_cases hk : i.key ∈ removed
  · simp [hk, h.governs_of_removed sound hi hk]
  · simp [hk]

theorem countP_removed (h : Footprint config w c removed added c') (sound : c.Sound) :
    c.instances.countP (fun i => removed.contains i.key) = removed.length := by
  have hremoved : removed.Nodup := h.removed_sublist.nodup (nodup_victims sound)
  have hperm : ((c.instances.map Instance.key).filter removed.contains).Perm removed := by
    rw [List.perm_ext_iff_of_nodup (sound.nodup.filter _) hremoved]
    intro k
    rw [List.mem_filter, List.contains_iff_mem, and_iff_right_iff_imp]
    intro hk
    obtain ⟨i, hi, rfl⟩ := List.mem_map.mp (h.removed_sublist.subset hk)
    exact List.mem_map_of_mem (mem_victims hi).1
  rw [← hperm.length_eq, ← List.countP_eq_length_filter, List.countP_map]
  rfl

theorem length_governed (h : Footprint config w c removed added c') (sound : c.Sound)
    (hselects : w.selects w.stampedLabels = true) :
    (c'.governed w).length + removed.length = (c.governed w).length + added.length := by
  have hadded : added.filter w.governs = added :=
    List.filter_eq_self.mpr fun i hi => (h.governs_of_added hi).trans hselects
  have hremoved := h.countP_removed sound
  rw [List.countP_eq_length_filter, ← h.filter_removed_governed sound] at hremoved
  have hsplit := List.length_eq_length_filter_add (l := c.governed w)
    fun i => removed.contains i.key
  rw [h.governed_eq, hadded, List.length_append]
  omega

end Footprint

end Pass

end ReplicaController
