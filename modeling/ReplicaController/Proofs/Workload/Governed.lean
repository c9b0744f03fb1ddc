import ReplicaController.Stamp
import ReplicaController.Store.Cluster

/-!
# The instances that a workload governs

A workload governs the active instances of its namespace that its selector matches and whose first
controller reference names its uid. These are the instances that a pass counts. A stamped instance
is governed exactly if the selector matches the labels that the stamp gives.
-/

namespace ReplicaController

namespace Workload

/-- The selector parses and matches the labels. -/
def selects (w : Workload) (labels : Labels) : Bool :=
  match w.spec.selector.parse with
  | .ok selector => selector.selects labels
  | .error _ => false

def governs (w : Workload) (i : Instance) : Bool :=
  i.isActive && i.isOwnedBy w.uid && (i.ns == w.ns && w.selects i.labels)

def stampedLabels (w : Workload) : Labels :=
  Stamp.labelsOf w.spec.template w.spec.selector.matchLabels

/-- The two records differ in their status and version at most. -/
structure Agrees (v w : Workload) : Prop where
  ns : w.ns = v.ns
  name : w.name = v.name
  uid : w.uid = v.uid
  generation : w.generation = v.generation
  deletionTimestamp : w.deletionTimestamp = v.deletionTimestamp
  spec : w.spec = v.spec

/-- The workload can be brought to its desired count: it is not being deleted, its instances can be
stamped, and it governs them then. -/
structure Regular (w : Workload) : Prop where
  uid_ne_nil : w.uid ≠ .nil
  name_ne_empty : w.name ≠ ""
  live : w.deletionTimestamp = none
  selects : w.selects w.stampedLabels = true

def withStatus (w : Workload) (status : WorkloadStatus) : Workload :=
  { w with status, resourceVersion := w.resourceVersion + 1 }

theorem governs_iff {w : Workload} {i : Instance} :
    w.governs i = true ↔
      i.isActive = true ∧ i.isOwnedBy w.uid = true ∧ i.ns = w.ns ∧ w.selects i.labels = true := by
  simp [governs, and_assoc]

theorem selects_eq {w : Workload} {selector : Selector}
    (h : w.spec.selector.parse = .ok selector) (labels : Labels) :
    w.selects labels = selector.selects labels := by
  simp only [selects, h]

theorem Regular.isBeingDeleted {w : Workload} (h : w.Regular) : w.isBeingDeleted = false := by
  rw [Workload.isBeingDeleted, h.live]
  rfl

theorem Regular.exists_parse {w : Workload} (h : w.Regular) :
    ∃ selector, w.spec.selector.parse = .ok selector := by
  have hselects := h.selects
  unfold Workload.selects at hselects
  split at hselects
  · rename_i selector hparse
    exact ⟨selector, hparse⟩
  · contradiction

theorem agrees_withStatus (w : Workload) (status : WorkloadStatus) :
    w.Agrees (w.withStatus status) := ⟨rfl, rfl, rfl, rfl, rfl, rfl⟩

namespace Agrees

theorem refl (w : Workload) : w.Agrees w := ⟨rfl, rfl, rfl, rfl, rfl, rfl⟩

variable {u v w : Workload}

theorem trans (h : u.Agrees v) (h' : v.Agrees w) : u.Agrees w :=
  ⟨h'.ns.trans h.ns, h'.name.trans h.name, h'.uid.trans h.uid, h'.generation.trans h.generation,
    h'.deletionTimestamp.trans h.deletionTimestamp, h'.spec.trans h.spec⟩

theorem key (h : v.Agrees w) : w.key = v.key := by
  simp only [Workload.key, h.ns, h.name]

theorem selects (h : v.Agrees w) : w.selects = v.selects := by
  funext labels
  simp only [Workload.selects, h.spec]

theorem governs (h : v.Agrees w) : w.governs = v.governs := by
  funext i
  simp only [Workload.governs, h.selects, h.uid, h.ns]

theorem stampedLabels (h : v.Agrees w) : w.stampedLabels = v.stampedLabels := by
  simp only [Workload.stampedLabels, h.spec]

theorem regular (h : v.Agrees w) (hv : v.Regular) : w.Regular where
  uid_ne_nil := by rw [h.uid]; exact hv.uid_ne_nil
  name_ne_empty := by rw [h.name]; exact hv.name_ne_empty
  live := by rw [h.deletionTimestamp]; exact hv.live
  selects := by rw [h.selects, h.stampedLabels]; exact hv.selects

end Agrees

end Workload

theorem Instance.isOwnedBy_of_ne {i : Instance} {u v : Uid} (h : i.isOwnedBy u = true)
    (hne : u ≠ v) : i.isOwnedBy v = false := by
  unfold isOwnedBy at h ⊢
  split at h
  · rw [beq_iff_eq] at h
    simpa [h] using hne
  · contradiction

namespace Stamp

variable {w : Workload} {stamp : Stamp}

theorem ofWorkload_eq_ok (h : ofWorkload w = .ok stamp) :
    stamp.ns = w.ns ∧ stamp.labels = w.stampedLabels ∧ stamp.owner = w.controllerRef := by
  unfold ofWorkload new at h
  split at h
  · contradiction
  · obtain rfl := Except.ok.inj h
    exact ⟨rfl, rfl, rfl⟩

theorem ofWorkload_isOk (h : w.Regular) : ∃ stamp, ofWorkload w = .ok stamp := by
  have hversion : Workload.apiVersion ≠ "" := by decide
  have hkind : Workload.kind ≠ "" := by decide
  have valid : w.controllerRef.fault? = none :=
    OwnerReference.fault?_eq_none_iff.mpr
      ⟨hversion, hkind, h.name_ne_empty, h.uid_ne_nil, rfl, rfl⟩
  unfold ofWorkload new
  rw [valid]
  exact ⟨_, rfl⟩

theorem isOwnedBy_build (h : ofWorkload w = .ok stamp) (d : Draw) (uid : Uid) :
    (stamp.build d).isOwnedBy uid = (w.uid == uid) := by
  obtain ⟨-, -, howner⟩ := ofWorkload_eq_ok h
  simp [build, Instance.isOwnedBy, Instance.controllerRef?, howner, Workload.controllerRef]

theorem governs_build (h : ofWorkload w = .ok stamp) (d : Draw) :
    w.governs (stamp.build d) = w.selects w.stampedLabels := by
  obtain ⟨hns, hlabels, -⟩ := ofWorkload_eq_ok h
  have howned := isOwnedBy_build h d w.uid
  simp only [Workload.governs, howned, beq_self_eq_true, Bool.and_true]
  simp [build, Instance.isActive, hns, hlabels]

end Stamp

namespace Cluster

def governed (c : Cluster) (w : Workload) : List Instance := c.instances.filter w.governs

theorem activeOwned_list (c : Cluster) {w : Workload} {selector : Selector}
    (h : w.spec.selector.parse = .ok selector) :
    Instance.activeOwned w.uid (c.list w.ns selector) = c.governed w := by
  simp only [Instance.activeOwned, list, governed, List.filter_filter]
  apply List.filter_congr
  intro i _
  simp only [Workload.governs, Workload.selects_eq h, Bool.and_assoc]

theorem governed_congr (c : Cluster) {v w : Workload} (h : v.Agrees w) :
    c.governed w = c.governed v := by
  simp only [governed, h.governs]

end Cluster

end ReplicaController
