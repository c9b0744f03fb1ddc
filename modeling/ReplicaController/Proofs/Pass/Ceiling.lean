import ReplicaController.Proofs.Pass.Turns
import ReplicaController.Proofs.Specimen

/-!
# The ceiling on a workload's instances

A workload whose selector matches what it stamps never has more active instances than it asks for,
if it had none at first: all that it owns it governs, so it counts them all before it creates more.
If its selector does not match what it stamps, every pass creates instances that no pass counts.
-/

namespace ReplicaController

/-- The active instances that the workload owns, in all namespaces and under all labels. -/
def Cluster.owned (c : Cluster) (w : Workload) : List Instance :=
  c.instances.filter fun i => i.isActive && i.isOwnedBy w.uid

namespace World

/-- `w` is stored, governs all that it owns, and governs no more than it asks for. -/
structure Bounded (w : Workload) (c : Cluster) : Prop where
  sound : c.Sound
  stored : ∃ v, c.workload? w.key = some v ∧ w.Agrees v
  governs : ∀ i ∈ c.instances, i.isOwnedBy w.uid = true → w.governs i = true
  bound : (c.governed w).length ≤ w.spec.replicas.toNat

variable {w : Workload} {c c' : Cluster}

theorem Bounded.start (sound : c.Sound) (hw : c.workload? w.key = some w)
    (hnone : ∀ i ∈ c.instances, i.isOwnedBy w.uid = false) : Bounded w c where
  sound := sound
  stored := ⟨w, hw, .refl w⟩
  governs := by
    intro i hi howned
    rw [hnone i hi] at howned
    contradiction
  bound := by
    have hnil : c.governed w = [] := by
      apply List.filter_eq_nil_iff.mpr
      intro i hi hgoverns
      have howned := (Workload.governs_iff.mp hgoverns).2.1
      rw [hnone i hi] at howned
      contradiction
    rw [hnil]
    exact Nat.zero_le _

theorem Bounded.length_owned_le (h : Bounded w c) :
    (c.owned w).length ≤ w.spec.replicas.toNat := by
  have heq : c.owned w = c.governed w := by
    apply List.filter_congr
    intro i hi
    by_cases howned : i.isOwnedBy w.uid = true
    · have hgoverns := h.governs i hi howned
      obtain ⟨hactive, -⟩ := Workload.governs_iff.mp hgoverns
      rw [hgoverns, hactive, howned]
      rfl
    · simp [Workload.governs, howned]
  rw [heq]
  exact h.bound

theorem Bounded.own_pass {config : PassConfig} {v : Workload} {removed : List Key}
    {added : List Instance} (hselects : w.selects w.stampedLabels = true) (hv : w.Agrees v)
    (h : Bounded w c) (hfoot : Pass.Footprint config v c removed added c') : Bounded w c' := by
  have hselects' : v.selects v.stampedLabels = true := by
    rw [hv.selects, hv.stampedLabels, hselects]
  refine ⟨hfoot.sound, hfoot.agrees.exists_agreeing h.stored, ?_, ?_⟩
  · intro i hi howned
    rw [hfoot.instances_eq, List.mem_append, List.mem_filter] at hi
    rcases hi with ⟨hi, -⟩ | hi
    · exact h.governs i hi howned
    · rw [← hv.governs, hfoot.governs_of_added hi, hselects']
  · have hlength := hfoot.length_governed h.sound hselects'
    have hadded := hfoot.added_length_le
    have hcreates := Pass.creates_adjustmentOf_le config v (c.governed v)
    have hbound := h.bound
    rw [Cluster.governed_congr c' hv, Cluster.governed_congr c hv] at hlength
    rw [Cluster.governed_congr c hv] at hadded hcreates
    rw [hv.spec] at hcreates
    omega

theorem Bounded.foreign_pass {config : PassConfig} {v : Workload} {removed : List Key}
    {added : List Instance} (huid : w.uid ≠ v.uid) (h : Bounded w c)
    (hfoot : Pass.Footprint config v c removed added c') : Bounded w c' := by
  have howned : c'.instances.filter (·.isOwnedBy w.uid) =
      c.instances.filter (·.isOwnedBy w.uid) :=
    hfoot.filter_eq_of_foreign h.sound fun i hi => Instance.isOwnedBy_of_ne hi huid
  refine ⟨hfoot.sound, hfoot.agrees.exists_agreeing h.stored, ?_, ?_⟩
  · intro i hi hown
    have hmem : i ∈ c.instances.filter (·.isOwnedBy w.uid) :=
      howned ▸ List.mem_filter.mpr ⟨hi, hown⟩
    exact h.governs i (List.mem_filter.mp hmem).1 hown
  · rw [hfoot.governed_eq_of_ne h.sound huid]
    exact h.bound

theorem Bounded.turn {s : World} {t : Turn} (hselects : w.selects w.stampedLabels = true)
    (hkeys : ∀ v, s.cluster.workload? t.key = some v → v.uid = w.uid → t.key = w.key)
    (h : Bounded w s.cluster) : Bounded w (s.turn t).cluster := by
  cases hv : s.cluster.workload? t.key with
  | none => rw [turn_of_absent hv]; exact h
  | some v =>
    obtain ⟨removed, added, hfoot⟩ := turn_footprint h.sound hv
    by_cases huid : w.uid = v.uid
    · obtain ⟨u, hu, hwu⟩ := h.stored
      rw [hkeys v hv huid.symm, hu] at hv
      exact h.own_pass hselects (Option.some.inj hv ▸ hwu) hfoot
    · exact h.foreign_pass huid hfoot

/-- Passes over `w` and over workloads of other uids keep `w` within what it asks for, whatever
faults are planned for them. -/
theorem length_owned_turns_le {s : World} (reachable : s.store.Reachable)
    (hw : s.cluster.workload? w.key = some w) (hselects : w.selects w.stampedLabels = true)
    (hnone : ∀ i ∈ s.cluster.instances, i.isOwnedBy w.uid = false) (ts : List Turn)
    (hkeys : ∀ t ∈ ts, ∀ v, s.cluster.workload? t.key = some v → v.uid = w.uid → t.key = w.key) :
    ((s.turns ts).cluster.owned w).length ≤ w.spec.replicas.toNat := by
  have hrun : s.cluster.Agrees (s.turns ts).cluster ∧ Bounded w (s.turns ts).cluster := by
    apply turns_induction (P := fun r => s.cluster.Agrees r.cluster ∧ Bounded w r.cluster)
    · rintro t ht r ⟨hagrees, h⟩
      have hkeys' : ∀ v, r.cluster.workload? t.key = some v → v.uid = w.uid → t.key = w.key := by
        intro v hv huid
        obtain ⟨u, hu, huv⟩ := hagrees.exists_of_some_right hv
        exact hkeys t ht u hu (huv.uid ▸ huid)
      exact ⟨hagrees.trans (agrees_turn h.sound), h.turn hselects hkeys'⟩
    · exact ⟨.refl _, .start reachable.sound hw hnone⟩
  exact hrun.2.length_owned_le

/-- Two passes over the workload itself, one of them denied its first creation, and one over a
workload beside it. -/
theorem length_owned_turns_le_shared :
    let w := Specimen.plain "web" 0 3
    let job := Specimen.plain "job" 1 2
    let store := Specimen.pair w job []
    let s := Specimen.world store
    let ts : List Turn := [
      ⟨w.key, Pass.defaultConfig, .lockstep, { Faults.none with failingCreates := 1 }⟩,
      ⟨job.key, Pass.defaultConfig, .inOrder, .none⟩, ⟨w.key, ⟨1, .ranked⟩, .inOrder, .none⟩]
    store.Reachable ∧ s.cluster.workload? w.key = some w ∧
      w.selects w.stampedLabels = true ∧ (∀ i ∈ s.cluster.instances, i.isOwnedBy w.uid = false) ∧
      (∀ t ∈ ts, ∀ v, s.cluster.workload? t.key = some v → v.uid = w.uid → t.key = w.key) ∧
      ((s.turns ts).cluster.owned w).length ≤ w.spec.replicas.toNat := by
  intro w job store s ts
  have reachable := Specimen.reachable_pair w job []
  have hne : w.key ≠ job.key := by decide
  have hw : s.cluster.workload? w.key = some w :=
    (Specimen.workload?_pair hne []).mpr (.inl ⟨rfl, rfl⟩)
  have hselects : w.selects w.stampedLabels = true := rfl
  have hnone : ∀ i ∈ s.cluster.instances, i.isOwnedBy w.uid = false := fun i hi => nomatch hi
  have hkeys : ∀ t ∈ ts, ∀ v, s.cluster.workload? t.key = some v → v.uid = w.uid →
      t.key = w.key := by
    intro t _ v hv huid
    rcases (Specimen.workload?_pair hne []).mp hv with ⟨hkey, -⟩ | ⟨-, rfl⟩
    · exact hkey
    · exact absurd huid (by decide)
  exact ⟨reachable, hw, hselects, hnone, hkeys,
    length_owned_turns_le reachable hw hselects hnone ts hkeys⟩

/-- What is stamped and not matched is created anew on every pass. -/
theorem length_owned_turns_exceeds :
    let w := Specimen.mislabelled
    let store := Specimen.crowd w []
    let s := Specimen.world store
    let t : Turn := ⟨w.key, Pass.defaultConfig, .inOrder, .none⟩
    store.Reachable ∧ s.cluster.workload? w.key = some w ∧
      (∃ selector, w.spec.selector.parse = .ok selector) ∧ w.controllerRef.fault? = none ∧
      s.cluster.instances = [] ∧
      w.spec.replicas.toNat < ((s.turns [t, t]).cluster.owned w).length := by
  intro w store s t
  have hparse : ∃ selector, w.spec.selector.parse = .ok selector := ⟨_, rfl⟩
  have hvalid : w.controllerRef.fault? = none := by decide +kernel
  have hexceeds : w.spec.replicas.toNat < ((s.turns [t, t]).cluster.owned w).length := by
    decide +kernel
  exact ⟨Specimen.reachable_crowd w [], Specimen.workload?_crowd w [], hparse, hvalid, rfl,
    hexceeds⟩

end World

end ReplicaController
