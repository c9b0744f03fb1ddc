import Mathlib.Data.List.Nodup
import ReplicaController.Proofs.SortedMap
import ReplicaController.Proofs.Store.Answers

/-!
# Reachable stores

A cluster is sound if no two of its instances share a key and every workload stands under its own
key. A store is reachable if requests, in any order and number, lead to it from one that was seeded
with workloads. The cluster of a reachable store is sound.
-/

namespace ReplicaController

namespace Cluster

structure Sound (c : Cluster) : Prop where
  nodup : (c.instances.map Instance.key).Nodup
  keyed : ∀ key w, c.workload? key = some w → w.key = key

/-- The same workloads, but for status and version. -/
def Agrees (c c' : Cluster) : Prop :=
  ∀ key, Option.Rel Workload.Agrees (c.workload? key) (c'.workload? key)

theorem hasInstance_eq_false_iff {c : Cluster} {key : Key} :
    c.hasInstance key = false ↔ key ∉ c.instances.map Instance.key := by
  simp [hasInstance]

theorem hasInstance_iff {c : Cluster} {key : Key} :
    c.hasInstance key = true ↔ key ∈ c.instances.map Instance.key := by
  simp [hasInstance]

namespace Agrees

variable {c c' c'' : Cluster} {key : Key} {w : Workload}

theorem refl (c : Cluster) : c.Agrees c := by
  intro key
  cases c.workload? key with
  | none => exact .none
  | some w => exact .some (.refl w)

theorem trans (h : c.Agrees c') (h' : c'.Agrees c'') : c.Agrees c'' := by
  intro key
  have hk := h key
  have hk' := h' key
  revert hk hk'
  cases c.workload? key <;> cases c'.workload? key <;> cases c''.workload? key
  all_goals rintro ⟨⟩ ⟨⟩
  · exact .none
  · rename_i hu hv
    exact .some (hu.trans hv)

theorem exists_of_some (h : c.Agrees c') (hw : c.workload? key = some w) :
    ∃ w', c'.workload? key = some w' ∧ w.Agrees w' := by
  have hk := h key
  rw [hw] at hk
  generalize c'.workload? key = o at hk
  cases hk with
  | some hv => exact ⟨_, rfl, hv⟩

theorem exists_of_some_right (h : c.Agrees c') (hw : c'.workload? key = some w) :
    ∃ v, c.workload? key = some v ∧ v.Agrees w := by
  have hk := h key
  rw [hw] at hk
  generalize c.workload? key = o at hk
  cases hk with
  | some hv => exact ⟨_, rfl, hv⟩

theorem exists_agreeing (h : c.Agrees c') (hw : ∃ v, c.workload? key = some v ∧ w.Agrees v) :
    ∃ v, c'.workload? key = some v ∧ w.Agrees v := by
  obtain ⟨v, hv, hwv⟩ := hw
  obtain ⟨v', hv', hvv'⟩ := h.exists_of_some hv
  exact ⟨v', hv', hwv.trans hvv'⟩

theorem of_insert {stored written : Workload} (hs : c.workload? key = some stored)
    (hw : stored.Agrees written) :
    c.Agrees { c with workloads := c.workloads.insert key written } := by
  intro l
  unfold workload? at hs ⊢
  by_cases hl : l = key
  · subst hl
    rw [SortedMap.find?_insert_self, hs]
    exact .some hw
  · rw [SortedMap.find?_insert_of_ne _ _ hl]
    exact refl c l

end Agrees

namespace Sound

variable {c : Cluster}

theorem eq_of_key (h : c.Sound) {i j : Instance} (hi : i ∈ c.instances) (hj : j ∈ c.instances)
    (hk : i.key = j.key) : i = j :=
  List.inj_on_of_nodup_map h.nodup hi hj hk

theorem nodup_filter (h : c.Sound) (p : Instance → Bool) :
    ((c.instances.filter p).map Instance.key).Nodup :=
  (List.filter_sublist.map Instance.key).nodup h.nodup

theorem empty : Cluster.empty.Sound := ⟨.nil, fun _ _ h => nomatch h⟩

theorem insert (h : c.Sound) {key : Key} {w : Workload} (hw : w.key = key) :
    Sound { c with workloads := c.workloads.insert key w } := by
  refine ⟨h.nodup, ?_⟩
  intro l v hv
  unfold workload? at hv
  by_cases hl : l = key
  · subst hl
    rw [SortedMap.find?_insert_self] at hv
    exact Option.some.inj hv ▸ hw
  · rw [SortedMap.find?_insert_of_ne _ _ hl] at hv
    exact h.keyed l v hv

theorem putWorkload (h : c.Sound) (w : Workload) : (c.putWorkload w).Sound := h.insert rfl

theorem ofWorkloads (ws : List Workload) : (Cluster.ofWorkloads ws).Sound := by
  unfold Cluster.ofWorkloads
  generalize hc : Cluster.empty = c
  have h : c.Sound := hc ▸ empty
  clear hc
  induction ws generalizing c with
  | nil => exact h
  | cons w ws ih => exact ih _ (h.putWorkload w)

theorem removeWorkload (h : c.Sound) (key : Key) : (c.removeWorkload key).Sound :=
  ⟨h.nodup, fun l w hw => h.keyed l w (SortedMap.find?_of_find?_erase hw)⟩

theorem removeInstance (h : c.Sound) (key : Key) : (c.removeInstance key).Sound :=
  ⟨h.nodup_filter _, h.keyed⟩

theorem addInstance (h : c.Sound) {i : Instance} (hi : c.hasInstance i.key = false) :
    (c.addInstance i).Sound := by
  refine ⟨?_, h.keyed⟩
  have hn := hasInstance_eq_false_iff.mp hi
  simp only [Cluster.addInstance, List.map_append, List.map_cons, List.map_nil]
  refine List.nodup_append.mpr ⟨h.nodup, List.nodup_singleton _, ?_⟩
  intro a ha b hb hab
  rw [List.mem_singleton] at hb
  exact hn (hb ▸ hab ▸ ha)

theorem putInstance (h : c.Sound) (i : Instance) : (c.putInstance i).Sound := by
  apply (h.removeInstance i.key).addInstance
  simp [Cluster.removeInstance, hasInstance]

theorem map_key_changeFirst (key : Key) {f : Instance → Instance} (hf : ∀ i, (f i).key = i.key)
    (is : List Instance) : (changeFirst key f is).map Instance.key = is.map Instance.key := by
  induction is with
  | nil => rfl
  | cons i is ih =>
    unfold changeFirst
    split
    · simp [hf]
    · simp [ih]

theorem changeFirst (h : c.Sound) (key : Key) {f : Instance → Instance}
    (hf : ∀ i, (f i).key = i.key) :
    Sound { c with instances := Cluster.changeFirst key f c.instances } := by
  refine ⟨?_, h.keyed⟩
  rw [map_key_changeFirst key hf]
  exact h.nodup

end Sound

end Cluster

namespace Store

/-- What may be asked of a store, by a controller or by someone else. -/
inductive Request
  | putWorkload (w : Workload)
  | removeWorkload (key : Key)
  | putInstance (i : Instance)
  | setPhase (key : Key) (phase : Phase)
  | setReady (key : Key) (ready : Bool) (now : Instant)
  | setFaults (f : Faults)
  | getWorkload (key : Key)
  | listWorkloads
  | listInstances (ns : String) (selector : Selector)
  | enterCreate
  | leaveCreate (i : Instance)
  | enterDelete
  | leaveDelete (key : Key)
  | updateStatus (w : Workload)

def after (s : Store) : Request → Store
  | .putWorkload w => { s with cluster := s.cluster.putWorkload w }
  | .removeWorkload key => { s with cluster := s.cluster.removeWorkload key }
  | .putInstance i => { s with cluster := s.cluster.putInstance i }
  | .setPhase key phase => { s with cluster := s.cluster.setPhase key phase }
  | .setReady key ready now => { s with cluster := s.cluster.setReady key ready now }
  | .setFaults f => { s with faults := f }
  | .getWorkload key => (s.getWorkload key).2
  | .listWorkloads => s.listWorkloads.2
  | .listInstances ns selector => (s.listInstances ns selector).2
  | .enterCreate => s.enterCreate
  | .leaveCreate i => (s.leaveCreate i).2
  | .enterDelete => s.enterDelete
  | .leaveDelete key => (s.leaveDelete key).2
  | .updateStatus w => (s.updateStatus w).2

inductive Reachable : Store → Prop
  | seeded (ws : List Workload) : Reachable (ofCluster (.ofWorkloads ws))
  | after {s : Store} (r : Request) : Reachable s → Reachable (s.after r)

theorem sound_leaveCreate {s : Store} (h : s.cluster.Sound) (i : Instance) :
    (s.leaveCreate i).2.cluster.Sound := by
  rcases leaveCreate_cases i s with ⟨e, -, hc⟩ | ⟨-, hi, hc⟩
  · exact hc ▸ h
  · exact hc ▸ h.addInstance hi

theorem sound_leaveDelete {s : Store} (h : s.cluster.Sound) (key : Key) :
    (s.leaveDelete key).2.cluster.Sound := by
  rcases leaveDelete_cases key s with ⟨e, -, hc⟩ | ⟨-, hc⟩
  · exact hc ▸ h
  · exact hc ▸ h.removeInstance key

theorem sound_updateStatus {s : Store} (h : s.cluster.Sound) (w : Workload) :
    (s.updateStatus w).2.cluster.Sound := by
  rcases updateStatus_cases w s with ⟨e, -, hc⟩ | ⟨stored, hs, -, -, hc⟩
  · exact hc ▸ h
  · have hk : (stored.withStatus w.status).key = w.key :=
      (stored.agrees_withStatus w.status).key.trans (h.keyed _ _ hs)
    exact hc ▸ h.insert hk

theorem sound_after {s : Store} (h : s.cluster.Sound) (r : Request) :
    (s.after r).cluster.Sound := by
  cases r with
  | putWorkload w => exact h.putWorkload w
  | removeWorkload key => exact h.removeWorkload key
  | putInstance i => exact h.putInstance i
  | setPhase key phase => exact h.changeFirst key fun _ => rfl
  | setReady key ready now => exact h.changeFirst key fun _ => rfl
  | getWorkload key => exact (cluster_getWorkload key s).symm ▸ h
  | listInstances ns selector => exact (cluster_listInstances ns selector s).symm ▸ h
  | leaveCreate i => exact sound_leaveCreate h i
  | leaveDelete key => exact sound_leaveDelete h key
  | updateStatus w => exact sound_updateStatus h w
  | setFaults _ | listWorkloads | enterCreate | enterDelete => exact h

theorem Reachable.sound {s : Store} (h : s.Reachable) : s.cluster.Sound := by
  induction h with
  | seeded ws => exact Cluster.Sound.ofWorkloads ws
  | after r _ ih => exact sound_after ih r

end Store

end ReplicaController
