import ReplicaController.Proofs.Workload.Governed
import ReplicaController.Store.Basic

/-!
# What a store answers, and what that does to its cluster

Readings leave the cluster as it is. A creation, a deletion or a status write that answers with an
error does so too; otherwise exactly the record that was asked for is added, removed or written. In
calm no planned fault stands in the way, so a call is refused only for what the cluster holds.
-/

namespace ReplicaController

/-- No fault is planned but for status writes. -/
structure Faults.Calm (f : Faults) : Prop where
  get : f.get = .none
  list : f.list = .none
  failingCreates : f.failingCreates = 0
  conflictingCreates : f.conflictingCreates = 0
  failingDeletes : f.failingDeletes = []
  terminatingNamespaces : f.terminatingNamespaces = []

/-- No fault is planned at all. -/
structure Faults.Quiet (f : Faults) : Prop extends Faults.Calm f where
  updateStatus : f.updateStatus = .none

namespace Store

variable {s : Store} {key : Key} {i : Instance} {w : Workload}

theorem getWorkload_snd (key : Key) (s : Store) :
    (s.getWorkload key).2 = { s with tally := { s.tally with gets := s.tally.gets + 1 } } := by
  unfold getWorkload
  dsimp only
  split
  · rfl
  · split <;> rfl

@[simp] theorem cluster_getWorkload (key : Key) (s : Store) :
    (s.getWorkload key).2.cluster = s.cluster := by rw [getWorkload_snd]

@[simp] theorem faults_getWorkload (key : Key) (s : Store) :
    (s.getWorkload key).2.faults = s.faults := by rw [getWorkload_snd]

theorem workload?_of_getWorkload (h : (s.getWorkload key).1 = .ok w) :
    s.cluster.workload? key = some w := by
  unfold getWorkload at h
  dsimp only at h
  split at h
  · contradiction
  · split at h
    · rename_i hw
      rw [hw, Except.ok.inj h]
    · contradiction

theorem getWorkload_fst (hw : s.cluster.workload? key = some w) :
    (s.getWorkload key).1 = match s.faults.get with
      | some e => .error e
      | none => .ok w := by
  unfold getWorkload
  dsimp only
  cases s.faults.get with
  | some e => rfl
  | none => simp only [hw]

theorem getWorkload_of_calm (calm : s.faults.Calm) (hw : s.cluster.workload? key = some w) :
    (s.getWorkload key).1 = .ok w := by
  rw [getWorkload_fst hw, calm.get]

theorem listInstances_snd (ns : String) (selector : Selector) (s : Store) :
    (s.listInstances ns selector).2 =
      { s with tally := { s.tally with lists := s.tally.lists + 1 } } := by
  unfold listInstances
  dsimp only
  split <;> rfl

@[simp] theorem cluster_listInstances (ns : String) (selector : Selector) (s : Store) :
    (s.listInstances ns selector).2.cluster = s.cluster := by rw [listInstances_snd]

@[simp] theorem faults_listInstances (ns : String) (selector : Selector) (s : Store) :
    (s.listInstances ns selector).2.faults = s.faults := by rw [listInstances_snd]

theorem list_of_listInstances {ns : String} {selector : Selector} {listed : List Instance}
    (h : (s.listInstances ns selector).1 = .ok listed) :
    listed = s.cluster.list ns selector := by
  unfold listInstances at h
  dsimp only at h
  split at h
  · contradiction
  · exact (Except.ok.inj h).symm

theorem listInstances_fst (ns : String) (selector : Selector) (s : Store) :
    (s.listInstances ns selector).1 = match s.faults.list with
      | some e => .error e
      | none => .ok (s.cluster.list ns selector) := by
  unfold listInstances
  dsimp only
  cases s.faults.list with
  | some e => rfl
  | none => rfl

theorem listInstances_of_calm (calm : s.faults.Calm) (ns : String) (selector : Selector) :
    (s.listInstances ns selector).1 = .ok (s.cluster.list ns selector) := by
  rw [listInstances_fst, calm.list]

theorem faultOfCreate_of_calm {f : Faults} (calm : f.Calm) (i : Instance) :
    faultOfCreate f i = (none, f) := by
  unfold faultOfCreate
  simp [calm.terminatingNamespaces, calm.conflictingCreates, calm.failingCreates]

theorem leaveCreate_cases (i : Instance) (s : Store) :
    (∃ e, (s.leaveCreate i).1 = .error e ∧ (s.leaveCreate i).2.cluster = s.cluster) ∨
    ((s.leaveCreate i).1 = .ok () ∧ s.cluster.hasInstance i.key = false ∧
      (s.leaveCreate i).2.cluster = s.cluster.addInstance i) := by
  unfold leaveCreate
  dsimp only
  split
  · rename_i e _
    exact .inl ⟨e, rfl, rfl⟩
  · split
    · exact .inl ⟨_, rfl, rfl⟩
    · rename_i hi
      exact .inr ⟨rfl, by simpa using hi, rfl⟩

theorem leaveCreate_of_calm (calm : s.faults.Calm) (i : Instance) :
    (s.leaveCreate i).1 =
        (if s.cluster.hasInstance i.key then .error (.alreadyExists .unit i.key) else .ok ()) ∧
      (s.leaveCreate i).2.faults = s.faults := by
  unfold leaveCreate
  simp only [faultOfCreate_of_calm calm]
  split <;> exact ⟨rfl, rfl⟩

theorem leaveDelete_cases (key : Key) (s : Store) :
    (∃ e, (s.leaveDelete key).1 = .error e ∧ (s.leaveDelete key).2.cluster = s.cluster) ∨
    ((s.leaveDelete key).1 = .ok () ∧
      (s.leaveDelete key).2.cluster = s.cluster.removeInstance key) := by
  unfold leaveDelete
  dsimp only
  split
  · exact .inl ⟨_, rfl, rfl⟩
  · split
    · exact .inr ⟨rfl, rfl⟩
    · exact .inl ⟨_, rfl, rfl⟩

@[simp] theorem faults_leaveDelete (key : Key) (s : Store) :
    (s.leaveDelete key).2.faults = s.faults := by
  unfold leaveDelete
  dsimp only
  split
  · rfl
  · split <;> rfl

theorem hasInstance_of_leaveDelete (h : (s.leaveDelete key).1 = .ok ()) :
    s.cluster.hasInstance key = true := by
  unfold leaveDelete at h
  dsimp only at h
  split at h
  · contradiction
  · split at h
    · assumption
    · contradiction

theorem leaveDelete_fst_of_calm (calm : s.faults.Calm) (key : Key) :
    (s.leaveDelete key).1 =
      if s.cluster.hasInstance key then .ok () else .error (.notFound .unit key) := by
  unfold leaveDelete
  simp only [calm.failingDeletes, List.contains_nil, Bool.false_eq_true, if_false]
  split <;> rfl

theorem leaveDelete_of_calm (calm : s.faults.Calm) (hk : s.cluster.hasInstance key = true) :
    (s.leaveDelete key).1 = .ok () := by
  unfold leaveDelete
  simp [calm.failingDeletes, hk]

theorem updateStatus_cases (w : Workload) (s : Store) :
    (∃ e, (s.updateStatus w).1 = .error e ∧ (s.updateStatus w).2.cluster = s.cluster) ∨
    (∃ stored, s.cluster.workload? w.key = some stored ∧
      stored.resourceVersion = w.resourceVersion ∧
      (s.updateStatus w).1 = .ok (stored.withStatus w.status) ∧
      (s.updateStatus w).2.cluster = { s.cluster with
        workloads := s.cluster.workloads.insert w.key (stored.withStatus w.status) }) := by
  unfold updateStatus
  dsimp only
  split
  · rename_i e _
    exact .inl ⟨e, rfl, rfl⟩
  · split
    · exact .inl ⟨_, rfl, rfl⟩
    · rename_i stored hs
      split
      · rename_i hv
        exact .inr ⟨stored, hs, hv, rfl, rfl⟩
      · exact .inl ⟨_, rfl, rfl⟩

@[simp] theorem faults_updateStatus (w : Workload) (s : Store) :
    (s.updateStatus w).2.faults = s.faults := by
  unfold updateStatus
  dsimp only
  split
  · rfl
  · split
    · rfl
    · split <;> rfl

theorem tally_updateStatus (w : Workload) (s : Store) :
    (s.updateStatus w).2.tally = { s.tally with statusUpdates := s.tally.statusUpdates + 1 } := by
  unfold updateStatus
  dsimp only
  split
  · rfl
  · split
    · rfl
    · split <;> rfl

theorem tally_leaveCreate (i : Instance) (s : Store) :
    (s.leaveCreate i).2.tally = s.tally.leave := by
  unfold leaveCreate
  dsimp only
  split
  · rfl
  · split <;> rfl

theorem tally_leaveDelete (key : Key) (s : Store) :
    (s.leaveDelete key).2.tally = s.tally.leave := by
  unfold leaveDelete
  dsimp only
  split
  · rfl
  · split <;> rfl

theorem updateStatus_of_quiet {stored : Workload} (quiet : s.faults.Quiet)
    (hw : s.cluster.workload? w.key = some stored)
    (hversion : stored.resourceVersion = w.resourceVersion) :
    s.updateStatus w = (.ok (stored.withStatus w.status),
      { s with
        tally := { s.tally with statusUpdates := s.tally.statusUpdates + 1 }
        cluster := { s.cluster with
          workloads := s.cluster.workloads.insert w.key (stored.withStatus w.status) } }) := by
  unfold updateStatus
  simp only [quiet.updateStatus, hw, if_pos hversion]
  rfl

end Store

end ReplicaController
