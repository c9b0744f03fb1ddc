import ReplicaController.Proofs.Store.Reachable
import ReplicaController.Store.Backend

/-!
# Backends that serve a cluster

A backend serves the cluster that a view reads off its state if readings tell what the cluster holds
and every other call either does what it asks or answers with an error and leaves the cluster alone.
It grants what the cluster allows in calm states if nothing else ever stands in the way of a call,
and calls keep the state calm. The store in memory does both, whatever status writes are denied.
-/

namespace ReplicaController

def Mutation.key : Mutation → Key
  | .create new => new.key
  | .delete key => key

namespace Backend

variable {σ : Type}

structure Serves (B : Backend σ) (view : σ → Cluster) : Prop where
  getWorkload : ∀ key s, view (B.getWorkload key s).2 = view s ∧
    ∀ w, (B.getWorkload key s).1 = .ok w → (view s).workload? key = some w
  listWorkloads : ∀ s, view (B.listWorkloads s).2 = view s ∧
    ∀ ws, (B.listWorkloads s).1 = .ok ws → ws = (view s).workloads.values
  listInstances : ∀ ns selector s, view (B.listInstances ns selector s).2 = view s ∧
    ∀ listed, (B.listInstances ns selector s).1 = .ok listed → listed = (view s).list ns selector
  enter : ∀ m s, view (B.enter m s).2 = view s
  leaveCreate : ∀ i s,
    (∃ e, (B.leave (.create i) s).1 = .error e ∧ view (B.leave (.create i) s).2 = view s) ∨
    ((B.leave (.create i) s).1 = .ok () ∧ (view s).hasInstance i.key = false ∧
      view (B.leave (.create i) s).2 = (view s).addInstance i)
  leaveDelete : ∀ key s,
    (∃ e, (B.leave (.delete key) s).1 = .error e ∧ view (B.leave (.delete key) s).2 = view s) ∨
    ((B.leave (.delete key) s).1 = .ok () ∧
      view (B.leave (.delete key) s).2 = (view s).removeInstance key)
  updateStatus : ∀ w s,
    (∃ e, (B.updateStatus w s).1 = .error e ∧ view (B.updateStatus w s).2 = view s) ∨
    (∃ stored, (view s).workload? w.key = some stored ∧
      stored.resourceVersion = w.resourceVersion ∧
      (B.updateStatus w s).1 = .ok (stored.withStatus w.status) ∧
      view (B.updateStatus w s).2 = { view s with
        workloads := (view s).workloads.insert w.key (stored.withStatus w.status) })
  draw : ∀ s, view (B.draw s).2 = view s
  now : ∀ s, view (B.now s).2 = view s

/-- Status writes may be refused at will even in calm. -/
structure Grants (B : Backend σ) (view : σ → Cluster) (calm : σ → Prop) : Prop
    extends Serves B view where
  gets : ∀ key s w, calm s → (view s).workload? key = some w → (B.getWorkload key s).1 = .ok w
  listsWorkloads : ∀ s, calm s → (B.listWorkloads s).1 = .ok (view s).workloads.values
  lists : ∀ ns selector s, calm s →
    (B.listInstances ns selector s).1 = .ok ((view s).list ns selector)
  enters : ∀ m s, calm s → (B.enter m s).1 = .ok ()
  creates : ∀ i s, calm s → (B.leave (.create i) s).1 =
    if (view s).hasInstance i.key then .error (.alreadyExists .unit i.key) else .ok ()
  deletes : ∀ key s, calm s → (view s).hasInstance key = true →
    (B.leave (.delete key) s).1 = .ok ()
  calm_getWorkload : ∀ key s, calm s → calm (B.getWorkload key s).2
  calm_listWorkloads : ∀ s, calm s → calm (B.listWorkloads s).2
  calm_listInstances : ∀ ns selector s, calm s → calm (B.listInstances ns selector s).2
  calm_enter : ∀ m s, calm s → calm (B.enter m s).2
  calm_leave : ∀ m s, calm s → calm (B.leave m s).2
  calm_updateStatus : ∀ w s, calm s → calm (B.updateStatus w s).2
  calm_draw : ∀ s, calm s → calm (B.draw s).2
  calm_now : ∀ s, calm s → calm (B.now s).2

/-- `time` is what the clock says; only a reading of the clock moves it on. -/
structure Clocked (B : Backend σ) (time : σ → Instant) : Prop where
  getWorkload : ∀ key s, time (B.getWorkload key s).2 = time s
  listInstances : ∀ ns selector s, time (B.listInstances ns selector s).2 = time s
  enter : ∀ m s, time (B.enter m s).2 = time s
  leave : ∀ m s, time (B.leave m s).2 = time s
  draw : ∀ s, time (B.draw s).2 = time s
  now : ∀ s, (B.now s).1 = time s

end Backend

namespace World

def cluster (s : World) : Cluster := s.store.cluster

def Calm (s : World) : Prop := s.store.faults.Calm

def time (s : World) : Instant := s.clock s.readings

def planWriteFault (e : Option StoreError) (s : World) : World :=
  { s with store := { s.store with faults := { s.store.faults with updateStatus := e } } }

/-- The store in memory, where `deny` decides at each status write with what error it fails. -/
def denying (deny : World → Option StoreError) : Backend World :=
  { backend with updateStatus := fun w s => backend.updateStatus w (s.planWriteFault (deny s)) }

theorem denying_planned : denying (fun s => s.store.faults.updateStatus) = backend := rfl

theorem calm_planWriteFault {s : World} (h : s.Calm) (e : Option StoreError) :
    (s.planWriteFault e).Calm :=
  ⟨h.get, h.list, h.failingCreates, h.conflictingCreates, h.failingDeletes,
    h.terminatingNamespaces⟩

variable (deny : World → Option StoreError)

theorem denying_serves : (denying deny).Serves cluster where
  getWorkload key s := ⟨Store.cluster_getWorkload key s.store,
    fun _ => Store.workload?_of_getWorkload⟩
  listWorkloads s := ⟨rfl, fun _ h => (Except.ok.inj h).symm⟩
  listInstances ns selector s :=
    ⟨Store.cluster_listInstances ns selector s.store, fun _ => Store.list_of_listInstances⟩
  enter m s := by cases m <;> rfl
  leaveCreate i s := Store.leaveCreate_cases i s.store
  leaveDelete key s := Store.leaveDelete_cases key s.store
  updateStatus w s := Store.updateStatus_cases w (s.planWriteFault (deny s)).store
  draw s := rfl
  now s := rfl

theorem backend_serves : backend.Serves cluster := denying_planned ▸ denying_serves _

theorem backend_clocked : backend.Clocked time where
  getWorkload key s := rfl
  listInstances ns selector s := rfl
  enter m s := by cases m <;> rfl
  leave m s := by cases m <;> rfl
  draw s := rfl
  now s := rfl

theorem denying_grants : (denying deny).Grants cluster Calm where
  toServes := denying_serves deny
  gets key s w calm hw := Store.getWorkload_of_calm calm hw
  listsWorkloads s calm := rfl
  lists ns selector s calm := Store.listInstances_of_calm calm ns selector
  enters m s calm := by cases m <;> rfl
  creates i s calm := (Store.leaveCreate_of_calm calm i).1
  deletes key s calm hk := Store.leaveDelete_of_calm calm hk
  calm_getWorkload key s calm := by
    unfold Calm at calm ⊢
    exact (Store.faults_getWorkload key s.store).symm ▸ calm
  calm_listWorkloads s calm := calm
  calm_listInstances ns selector s calm := by
    unfold Calm at calm ⊢
    exact (Store.faults_listInstances ns selector s.store).symm ▸ calm
  calm_enter m s calm := by cases m <;> exact calm
  calm_leave m s calm := by
    unfold Calm at calm ⊢
    cases m with
    | create i => exact (Store.leaveCreate_of_calm calm i).2.symm ▸ calm
    | delete key => exact (Store.faults_leaveDelete key s.store).symm ▸ calm
  calm_updateStatus w s calm := by
    have calm' := calm_planWriteFault calm (deny s)
    unfold Calm at calm' ⊢
    exact (Store.faults_updateStatus w (s.planWriteFault (deny s)).store).symm ▸ calm'
  calm_draw s calm := calm
  calm_now s calm := calm

theorem backend_grants : backend.Grants cluster Calm := denying_planned ▸ denying_grants _

end World

end ReplicaController
