import ReplicaController.Proofs.Pass.Course
import ReplicaController.Proofs.Pass.Turns
import ReplicaController.Proofs.Specimen

/-!
# Workloads do not interfere

A pass over one workload leaves the record of every other workload alone, and all the instances that
another uid owns, in their order. So do the operations that it leaves under way when it is broken
off. What another pass sets out from is therefore the same, however many such passes went before it.
-/

namespace ReplicaController

namespace Cluster

/-- The instances whose first controller reference names the uid. -/
def ownedBy (c : Cluster) (uid : Uid) : List Instance := c.instances.filter (·.isOwnedBy uid)

variable {c : Cluster} {uid : Uid}

theorem ownedBy_addInstance {i : Instance} (h : i.isOwnedBy uid = false) :
    (c.addInstance i).ownedBy uid = c.ownedBy uid := by
  simp [ownedBy, addInstance, h]

theorem ownedBy_removeInstance {key : Key} (h : ∀ i ∈ c.ownedBy uid, i.key ≠ key) :
    (c.removeInstance key).ownedBy uid = c.ownedBy uid := by
  have hcomm : (c.removeInstance key).ownedBy uid =
      (c.ownedBy uid).filter fun i => !(i.key == key) := List.filter_comm _ _ _
  rw [hcomm, List.filter_eq_self]
  intro i hi
  simpa using h i hi

theorem governed_eq_ownedBy (c : Cluster) (w : Workload) :
    c.governed w = (c.ownedBy w.uid).filter w.governs := by
  rw [governed, ownedBy, List.filter_filter]
  apply List.filter_congr
  intro i _
  by_cases h : w.governs i = true
  · rw [h, (Workload.governs_iff.mp h).2.1]
    rfl
  · simp [h]

end Cluster

namespace Batch

variable {σ : Type} {B : Backend σ} {view : σ → Cluster} {uid : Uid} {is : List Instance}

/-- The slot creates nothing for the uid, and deletes none of these instances. -/
def Slot.Spares (uid : Uid) (is : List Instance) (slot : Slot) : Prop :=
  (∃ stamp, slot.Stamps stamp ∧ ∀ d, (stamp.build d).isOwnedBy uid = false) ∨
    ∃ key, slot.Drops key ∧ ∀ i ∈ is, i.key ≠ key

theorem Slot.step_spares (serves : B.Serves view) {slot : Slot} (h : slot.Spares uid is)
    (hf : slot.isFinished = false) {s : σ} (hview : (view s).ownedBy uid = is) :
    (slot.step B s).1.1.Spares uid is ∧ (view (slot.step B s).2).ownedBy uid = is := by
  rcases h with ⟨stamp, hstamps, hbuild⟩ | ⟨key, hdrops, hkey⟩
  · obtain ⟨hnext, ⟨-, hv⟩ | ⟨-, d, -, hv⟩⟩ := step_stamps serves hstamps hf s
    · exact ⟨.inl ⟨stamp, hnext, hbuild⟩, hv ▸ hview⟩
    · refine ⟨.inl ⟨stamp, hnext, hbuild⟩, ?_⟩
      rw [hv, Cluster.ownedBy_addInstance (hbuild d), hview]
  · obtain ⟨hnext, ⟨-, hv⟩ | ⟨-, hv⟩⟩ := step_drops serves hdrops hf s
    · exact ⟨.inr ⟨key, hnext, hkey⟩, hv ▸ hview⟩
    · refine ⟨.inr ⟨key, hnext, hkey⟩, ?_⟩
      rw [hv, Cluster.ownedBy_removeInstance (hview.symm ▸ hkey), hview]

theorem run_spares (serves : B.Serves view) (plan : Schedule) (n : Nat) {p : Progress} {s : σ}
    (h : ∀ slot ∈ p.slots, slot.Spares uid is) (hview : (view s).ownedBy uid = is) :
    (∀ slot ∈ (run B plan n p s).1.slots, slot.Spares uid is) ∧
      (view (run B plan n p s).2).ownedBy uid = is := by
  refine run_induction B (P := fun p s => (∀ slot ∈ p.slots, slot.Spares uid is) ∧
    (view s).ownedBy uid = is) ?_ plan n ⟨h, hview⟩
  rintro before slot after events s hf ⟨hall, hview⟩
  obtain ⟨hnext, hview'⟩ := Slot.step_spares serves (hall slot (by simp)) hf hview
  exact ⟨forall_mem_exchange hall hnext, hview'⟩

end Batch

namespace Pass

variable {σ : Type} {B : Backend σ} {view : σ → Cluster} {config : PassConfig} {cond : Conditions}
  {key : Key} {w : Workload} {s : σ}

theorem mem_operations {active : List Instance} {op : Batch.Operation}
    (h : op ∈ operations config w active) :
    ((adjustmentOf config w active).kind = .create ∧
        ∃ stamp, Stamp.ofWorkload w = .ok stamp ∧ op = .create stamp) ∨
      ((adjustmentOf config w active).kind = .delete ∧ ∃ i ∈ active, op = .delete i.key) := by
  unfold operations at h
  dsimp only at h
  split at h
  · contradiction
  · rename_i hkind
    split at h
    · contradiction
    · rename_i stamp hstamp
      exact .inl ⟨hkind, stamp, hstamp, (List.mem_replicate.mp h).2⟩
  · rename_i hkind
    obtain ⟨i, hi, rfl⟩ := List.mem_map.mp h
    exact .inr ⟨hkind, i, VictimPolicy.mem_of_mem_select hi, rfl⟩

theorem operations_spare {c : Cluster} (sound : c.Sound) {uid : Uid} (huid : w.uid ≠ uid)
    (config : PassConfig) :
    ∀ slot ∈ (Batch.Progress.start (operations config w (c.governed w))).slots,
      slot.Spares uid (c.ownedBy uid) := by
  intro slot hslot
  obtain ⟨op, hop, rfl⟩ := List.mem_map.mp hslot
  rcases mem_operations hop with ⟨-, stamp, hstamp, rfl⟩ | ⟨-, i, hi, rfl⟩
  · refine .inl ⟨stamp, rfl, fun d => ?_⟩
    rw [Stamp.isOwnedBy_build hstamp]
    exact beq_false_of_ne huid
  · refine .inr ⟨i.key, rfl, fun j hj hkey => ?_⟩
    obtain ⟨hi, hgoverns⟩ := List.mem_filter.mp hi
    obtain ⟨hj, howned⟩ := List.mem_filter.mp hj
    obtain rfl := sound.eq_of_key hj hi hkey
    have hforeign := Instance.isOwnedBy_of_ne (Workload.governs_iff.mp hgoverns).2.1 huid
    rw [howned] at hforeign
    contradiction

theorem conclude_leftover (B : Backend σ) (key : Key) (w : Workload) (selector : Selector)
    (adjustment : Adjustment) (active : List Instance) (error : Option ReplicaError)
    (events : List Event) (s : σ) :
    (conclude B key w selector adjustment active error events s).1.leftover = [] := by
  unfold conclude
  dsimp only
  split <;> rfl

theorem run_leftover_spares (serves : B.Serves view) (sound : (view s).Sound)
    (hw : (view s).workload? key = some w) {uid : Uid} (huid : w.uid ≠ uid) (config : PassConfig)
    (cond : Conditions) :
    ∀ slot ∈ (run B config cond key s).1.leftover, slot.Spares uid ((view s).ownedBy uid) := by
  rw [run_eq_readings]
  cases hr : readings B key s with
  | mk answer s₁ =>
    cases answer with
    | error result => exact fun slot hslot => nomatch hslot
    | ok r =>
      obtain ⟨hfound, -, hactive, hview⟩ := readings_eq_ok serves hr
      obtain rfl : r.workload = w := Option.some.inj (hfound.symm.trans hw)
      dsimp only
      rcases act_cases B config cond key r s₁ with ⟨error, hact, -⟩ | hact
      · rw [hact, conclude_leftover]
        exact fun slot hslot => nomatch hslot
      · rw [hact, ← hview]
        apply (Batch.run_spares serves cond.plan _ ?_ rfl).1
        rw [hactive, ← hview]
        exact operations_spare (hview ▸ sound) huid config

theorem run_spares (serves : B.Serves view) (sound : (view s).Sound)
    (hw : (view s).workload? key = some w) (config : PassConfig) (cond : Conditions) :
    let s' := (run B config cond key s).2
    (view s').Sound ∧ (view s).Agrees (view s') ∧
      (∀ uid, w.uid ≠ uid → (view s').ownedBy uid = (view s).ownedBy uid) ∧
      ∀ l, l ≠ w.key → (view s').workload? l = (view s).workload? l := by
  obtain ⟨removed, added, hfoot⟩ := run_footprint serves config cond sound hw
  refine ⟨hfoot.sound, hfoot.agrees, fun uid huid => ?_, hfoot.left.others⟩
  exact hfoot.filter_eq_of_foreign sound fun i hi => Instance.isOwnedBy_of_ne hi huid.symm

/-- What a pass sets out from at the moment `t`. -/
structure Prospect where
  workload : Workload
  active : List Instance
  adjustment : Adjustment
  victims : List Instance
  operations : List Batch.Operation
  counts : Counts

def Prospect.of (config : PassConfig) (t : Instant) (w : Workload) (active : List Instance) :
    Prospect :=
  let adjustment := adjustmentOf config w active
  { workload := w
    active
    adjustment
    victims := config.policy.select active adjustment.deletes
    operations := Pass.operations config w active
    counts := .ofActive active w.spec.minReadySeconds t }

/-- The prospect of a pass, or what the pass comes to without one. -/
def prospect (B : Backend σ) (config : PassConfig) (t : Instant) (key : Key) (s : σ) :
    Except (Except Error Outcome) Prospect :=
  (readings B key s).1.map fun r => .of config t r.workload r.active

theorem run_of_prospect (B : Backend σ) (config : PassConfig) (cond : Conditions) (t : Instant)
    (key : Key) (s : σ) :
    match prospect B config t key s with
    | .error result => (run B config cond key s).1 = ⟨result, [], []⟩
    | .ok p => ∃ s₁, let b := runOperations B cond p.operations s₁
      (∃ selector error, run B config cond key s =
        conclude B key p.workload selector p.adjustment p.active error b.1.events b.2) ∨
      run B config cond key s =
        (⟨.error (.cancelled p.workload.key), b.1.events, b.1.slots⟩, b.2) := by
  rw [run_eq_readings, prospect]
  cases hr : readings B key s with
  | mk answer s₁ =>
    cases answer with
    | error result => rfl
    | ok r =>
      refine ⟨s₁, ?_⟩
      rcases act_cases B config cond key r s₁ with ⟨error, hact, -⟩ | hact
      · exact .inl ⟨r.selector, error, hact⟩
      · exact .inr hact

theorem prospect_ne_reconciled {t : Instant} {result : Except Error Outcome}
    (h : prospect B config t key s = .error result) (report : Report) :
    result ≠ .ok (.reconciled report) := by
  unfold prospect at h
  cases hr : readings B key s with
  | mk answer s₁ =>
    rw [hr] at h
    cases answer with
    | error result' =>
      cases h
      exact readings_ne_reconciled hr report
    | ok r => cases h

theorem adjustment_of_reconciled {t : Instant} {report : Report}
    (h : (run B config cond key s).1.result = .ok (.reconciled report)) :
    ∃ p, prospect B config t key s = .ok p ∧ report.adjustment = p.adjustment := by
  have hrun := run_of_prospect B config cond t key s
  cases hp : prospect B config t key s with
  | error result =>
    rw [hp] at hrun
    rw [hrun] at h
    exact absurd h (prospect_ne_reconciled hp report)
  | ok p =>
    rw [hp] at hrun
    obtain ⟨s₁, ⟨selector, error, hrun⟩ | hrun⟩ := hrun
    · rw [hrun] at h
      obtain ⟨written, -, rfl⟩ := conclude_reconciled h
      exact ⟨p, rfl, rfl⟩
    · rw [hrun] at h
      cases h

end Pass

namespace World

variable {s : World} {v w : Workload} {c : Cluster}

theorem prospect_eq (hw : s.cluster.workload? w.key = some w) (config : PassConfig) (t : Instant) :
    Pass.prospect backend config t w.key s =
      match s.store.faults.get with
      | some e => .error (if e.isNotFound then .ok .workloadGone else .error (.fetch w.key e))
      | none =>
        match w.spec.selector.parse with
        | .error e => .error (.error (.selector w.key e))
        | .ok _ =>
          match s.store.faults.list with
          | some e => .error (.error (.list w.key e))
          | none => .ok (.of config t w (s.cluster.governed w)) := by
  unfold Pass.prospect
  rw [readings_eq hw]
  cases s.store.faults.get with
  | some e => rfl
  | none =>
    cases hparse : w.spec.selector.parse with
    | error e => rfl
    | ok selector =>
      rw [← s.cluster.activeOwned_list hparse]
      cases s.store.faults.list <;> rfl

/-- A pass, and how far the operations under way behind it get before the next one. -/
structure Visit where
  config : PassConfig
  cond : Pass.Conditions
  faults : Faults
  plan : Batch.Schedule
  steps : Nat

/-- A world with the operations that passes left under way when they were broken off. -/
structure Trail where
  world : World
  slots : List Batch.Slot

namespace Trail

/-- What a pass leaves under way joins what earlier passes left. -/
def pass (key : Key) (x : Trail) (v : Visit) : Trail :=
  let r := Pass.run backend v.config v.cond key (x.world.withFaults v.faults)
  ⟨r.2, x.slots ++ r.1.leftover⟩

/-- The operations under way take some more steps. -/
def drift (x : Trail) (v : Visit) : Trail :=
  let b := Batch.run backend v.plan v.steps ⟨x.slots, []⟩ x.world
  ⟨b.2, b.1.slots⟩

def visits (key : Key) (x : Trail) (vs : List Visit) : Trail :=
  vs.foldl (fun x v => (x.pass key v).drift v) x

/-- Passes over `v` from the cluster `c` on have left alone what belongs to `w`. -/
structure Apart (v w : Workload) (c : Cluster) (x : Trail) : Prop where
  sound : x.world.cluster.Sound
  visited : ∃ v', x.world.cluster.workload? v.key = some v' ∧ v.Agrees v'
  record : x.world.cluster.workload? w.key = c.workload? w.key
  owned : x.world.cluster.ownedBy w.uid = c.ownedBy w.uid
  spares : ∀ slot ∈ x.slots, slot.Spares w.uid (c.ownedBy w.uid)

variable {x : Trail}

theorem Apart.pass (h : Apart v w c x) (hkey : v.key ≠ w.key) (huid : v.uid ≠ w.uid) (a : Visit) :
    Apart v w c (x.pass v.key a) := by
  obtain ⟨u, hu, hagrees⟩ := h.visited
  rw [← hagrees.uid] at huid
  let y := x.world.withFaults a.faults
  obtain ⟨hsound, hagree, howned, hothers⟩ :=
    Pass.run_spares (s := y) backend_serves h.sound hu a.config a.cond
  refine ⟨hsound, hagree.exists_agreeing h.visited, ?_, ?_, ?_⟩
  · exact (hothers w.key (hagrees.key ▸ hkey.symm)).trans h.record
  · exact (howned w.uid huid).trans h.owned
  · intro slot hslot
    rcases List.mem_append.mp hslot with hslot | hslot
    · exact h.spares slot hslot
    · rw [← h.owned]
      exact Pass.run_leftover_spares (s := y) backend_serves h.sound hu huid a.config a.cond slot
        hslot

theorem Apart.drift (h : Apart v w c x) (a : Visit) : Apart v w c (x.drift a) := by
  have hworkloads : (x.drift a).world.cluster.workloads = x.world.cluster.workloads :=
    Batch.run_keeps (Batch.callsKeep_workloads backend_serves _) _ _ _ rfl
  obtain ⟨hspares, howned⟩ :=
    Batch.run_spares backend_serves a.plan a.steps (p := ⟨x.slots, []⟩) h.spares h.owned
  refine ⟨Batch.run_keeps (Batch.callsKeep_sound backend_serves) _ _ _ h.sound, ?_, ?_, howned,
    hspares⟩
  · rw [Cluster.workload?, hworkloads]
    exact h.visited
  · rw [Cluster.workload?, hworkloads]
    exact h.record

theorem Apart.visits (h : Apart v w c x) (hkey : v.key ≠ w.key) (huid : v.uid ≠ w.uid)
    (vs : List Visit) : Apart v w c (x.visits v.key vs) := by
  induction vs generalizing x with
  | nil => exact h
  | cons a vs ih => exact ih ((h.pass hkey huid a).drift a)

end Trail

/-- Any passes over `v`, broken off or not, and a pass over `w` with or without them before it. -/
theorem visits_isolated {s : World} (reachable : s.store.Reachable)
    (hv : s.cluster.workload? v.key = some v) (hw : s.cluster.workload? w.key = some w)
    (huid : v.uid ≠ w.uid) (vs : List Visit) :
    let s' := (Trail.visits v.key ⟨s, []⟩ vs).world
    s'.cluster.workload? w.key = some w ∧ s'.cluster.ownedBy w.uid = s.cluster.ownedBy w.uid ∧
      ∀ config t faults, Pass.prospect backend config t w.key (s'.withFaults faults) =
          Pass.prospect backend config t w.key (s.withFaults faults) ∧
        ∀ cond cond' report report',
          (Pass.run backend config cond w.key (s'.withFaults faults)).1.result =
            .ok (.reconciled report') →
          (Pass.run backend config cond' w.key (s.withFaults faults)).1.result =
            .ok (.reconciled report) → report'.adjustment = report.adjustment := by
  intro s'
  have hkey : v.key ≠ w.key := by
    intro hkey
    rw [hkey, hw] at hv
    exact huid (congrArg Workload.uid (Option.some.inj hv)).symm
  have apart : Trail.Apart v w s.cluster ⟨s, []⟩ :=
    ⟨reachable.sound, ⟨v, hv, .refl v⟩, rfl, rfl, fun slot hslot => nomatch hslot⟩
  have h := apart.visits hkey huid vs
  have hgoverned : s'.cluster.governed w = s.cluster.governed w := by
    rw [Cluster.governed_eq_ownedBy, Cluster.governed_eq_ownedBy, h.owned]
  have hprospect (config : PassConfig) (t : Instant) (faults : Faults) :
      Pass.prospect backend config t w.key (s'.withFaults faults) =
        Pass.prospect backend config t w.key (s.withFaults faults) := by
    rw [prospect_eq (s := s'.withFaults faults) (h.record.trans hw),
      prospect_eq (s := s.withFaults faults) hw]
    have hgoverned' : (s'.withFaults faults).cluster.governed w =
        (s.withFaults faults).cluster.governed w := hgoverned
    rw [hgoverned']
    rfl
  refine ⟨h.record.trans hw, h.owned, fun config t faults => ⟨hprospect config t faults, ?_⟩⟩
  intro cond cond' report report' h h'
  obtain ⟨p', hp', hadjustment'⟩ := Pass.adjustment_of_reconciled (t := t) h
  obtain ⟨p, hp, hadjustment⟩ := Pass.adjustment_of_reconciled (t := t) h'
  rw [hprospect, hp] at hp'
  cases hp'
  exact hadjustment'.trans hadjustment.symm

/-- Two workloads with the same selector. A pass over one of them is broken off, and the deletions
that it leaves under way land before a second pass over it. -/
theorem visits_isolated_shared :
    let v := Specimen.plain "web" 0 1
    let w := Specimen.plain "job" 1 2
    let store := (Specimen.pair v w ["a", "b", "c"]).after
      (.putInstance (Specimen.running w "d" .epoch))
    let s := Specimen.world store
    let vs : List Visit := [⟨⟨5, .observed⟩, ⟨.lockstep, some ⟨1, true⟩⟩, .none, .inOrder, 9⟩,
      ⟨⟨5, .observed⟩, ⟨.inOrder, none⟩, { Faults.none with failingDeletes := ["a"] }, .inOrder, 0⟩]
    let s' := (Trail.visits v.key ⟨s, []⟩ vs).world
    store.Reachable ∧ s.cluster.workload? v.key = some v ∧ s.cluster.workload? w.key = some w ∧
      v.uid ≠ w.uid ∧ s'.cluster.instances.length < s.cluster.instances.length ∧
      s'.cluster.workload? w.key = some w ∧ s'.cluster.ownedBy w.uid = s.cluster.ownedBy w.uid ∧
      ∀ config t faults, Pass.prospect backend config t w.key (s'.withFaults faults) =
          Pass.prospect backend config t w.key (s.withFaults faults) ∧
        ∀ cond cond' report report',
          (Pass.run backend config cond w.key (s'.withFaults faults)).1.result =
            .ok (.reconciled report') →
          (Pass.run backend config cond' w.key (s.withFaults faults)).1.result =
            .ok (.reconciled report) → report'.adjustment = report.adjustment := by
  intro v w store s vs s'
  have hne : v.key ≠ w.key := by decide
  have reachable : store.Reachable := .after _ (Specimen.reachable_pair v w ["a", "b", "c"])
  have hv : s.cluster.workload? v.key = some v :=
    (Specimen.workload?_pair hne ["a", "b", "c"]).mpr (.inl ⟨rfl, rfl⟩)
  have hw : s.cluster.workload? w.key = some w :=
    (Specimen.workload?_pair hne ["a", "b", "c"]).mpr (.inr ⟨rfl, rfl⟩)
  have huid : v.uid ≠ w.uid := by decide
  have hfewer : s'.cluster.instances.length < s.cluster.instances.length := by decide +kernel
  exact ⟨reachable, hv, hw, huid, hfewer, visits_isolated reachable hv hw huid vs⟩

end World

end ReplicaController
