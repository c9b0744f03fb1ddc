import ReplicaController.Proofs.Pass.Protocol
import ReplicaController.Proofs.Specimen

/-!
# Other writers during a pass

Here other actors put and delete instances before any call of a pass, and a log tells what they put,
what was listed and what the deletions of the pass removed. A pass deletes by key what it listed as
its own. So what it removes is its workload's own, unless someone else put it there in the meantime
under the key of an instance that was.
-/

namespace ReplicaController

theorem Store.leaveDelete_sub (key : Key) (s : Store) :
    (s.leaveDelete key).2.cluster.workloads = s.cluster.workloads ∧
      ∀ i ∈ (s.leaveDelete key).2.cluster.instances, i ∈ s.cluster.instances := by
  rcases leaveDelete_cases key s with ⟨e, -, hc⟩ | ⟨-, hc⟩
  · rw [hc]
    exact ⟨rfl, fun _ hi => hi⟩
  · rw [hc]
    exact ⟨rfl, fun _ hi => (List.mem_filter.mp hi).1⟩

/-- What another actor asks of the store. -/
inductive Other
  | put (i : Instance)
  | enterDelete
  | leaveDelete (key : Key)

def Other.request : Other → Store.Request
  | .put i => .putInstance i
  | .enterDelete => .enterDelete
  | .leaveDelete key => .leaveDelete key

inductive Happening
  /-- Another actor put the instance. -/
  | put (i : Instance)
  /-- The pass was shown these instances. -/
  | listed (is : List Instance)
  /-- A call of the pass removed the instance. -/
  | removed (i : Instance)

def Other.happening : Other → List Happening
  | .put i => [.put i]
  | .enterDelete | .leaveDelete _ => []

/-- A world that a pass shares with others, with the number of its calls. -/
structure Shared where
  world : World
  calls : Nat
  log : List Happening

namespace Shared

def suffer (x : Shared) (o : Other) : Shared where
  world := { x.world with store := x.world.store.after o.request }
  calls := x.calls
  log := x.log ++ o.happening

/-- What the others do before the next call. -/
def interfere (others : Nat → List Other) (x : Shared) : Shared :=
  let y := (others x.calls).foldl suffer x
  { y with calls := x.calls + 1 }

/-- The world after a call of the pass, and what the log says of the call. -/
def note (x : Shared) (world : World) (happened : List Happening) : Shared :=
  { x with world, log := x.log ++ happened }

def shown : Answer (List Instance) → List Happening
  | .ok is => [.listed is]
  | .error _ => []

def lost (c c' : Cluster) : List Happening :=
  (c.instances.filter fun i => !c'.hasInstance i.key).map .removed

/-- The store in memory, with others before each call; what the `n`-th call meets is `others n`. -/
def backend (others : Nat → List Other) : Backend Shared where
  getWorkload key x :=
    let y := x.interfere others
    let (answer, world) := World.backend.getWorkload key y.world
    (answer, y.note world [])
  listWorkloads x :=
    let y := x.interfere others
    let (answer, world) := World.backend.listWorkloads y.world
    (answer, y.note world [])
  listInstances ns selector x :=
    let y := x.interfere others
    let (answer, world) := World.backend.listInstances ns selector y.world
    (answer, y.note world (shown answer))
  enter call x :=
    let y := x.interfere others
    let (answer, world) := World.backend.enter call y.world
    (answer, y.note world [])
  leave call x :=
    let y := x.interfere others
    let (answer, world) := World.backend.leave call y.world
    (answer, y.note world (lost y.world.cluster world.cluster))
  updateStatus w x :=
    let y := x.interfere others
    let (answer, world) := World.backend.updateStatus w y.world
    (answer, y.note world [])
  draw x :=
    let (d, world) := World.backend.draw x.world
    (d, { x with world })
  now x :=
    let (t, world) := World.backend.now x.world
    (t, { x with world })

/-- The instance stands under the key of one that was listed as governed, and it is the workload's
own or was put since. -/
def Excused (w : Workload) (log : List Happening) (i : Instance) : Prop :=
  ∃ early is late, log = early ++ .listed is :: late ∧
    (∃ j ∈ is, j.key = i.key ∧ w.governs j = true) ∧
    (i.isOwnedBy w.uid = true ∨ .put i ∈ late)

/-- Whatever the pass removed was excused at that moment. -/
def Justified (w : Workload) (log : List Happening) : Prop :=
  ∀ before i after, log = before ++ .removed i :: after → Excused w before i

variable {w : Workload} {log : List Happening} {i : Instance} {x : Shared}

theorem Excused.append (h : Excused w log i) (more : List Happening) :
    Excused w (log ++ more) i := by
  obtain ⟨early, is, late, rfl, htarget, howned⟩ := h
  refine ⟨early, is, late ++ more, by simp, htarget, howned.imp_right fun hput => ?_⟩
  exact List.mem_append_left more hput

theorem Justified.append (h : Justified w log) {more : List Happening}
    (hmore : ∀ i, .removed i ∈ more → Excused w log i) : Justified w (log ++ more) := by
  intro before i after hsplit
  rcases eq_append_cons_cases hsplit with ⟨rest, hlog⟩ | ⟨front, rfl, hmore'⟩
  · exact h before i rest hlog
  · exact (hmore i (by simp [hmore'])).append front

theorem interfere_induction {P : Shared → Prop} (hsuffer : ∀ x o, P x → P (x.suffer o))
    (hcalls : ∀ x n, P x → P { x with calls := n }) (others : Nat → List Other) (h : P x) :
    P (x.interfere others) := by
  unfold interfere
  dsimp only
  apply hcalls
  induction others x.calls generalizing x with
  | nil => exact h
  | cons o os ih => exact ih (hsuffer x o h)

/-- Nothing was removed. -/
def Spared (log : List Happening) : Prop := ∀ i, .removed i ∉ log

theorem spared_nil : Spared [] := fun _ hi => nomatch hi

theorem spared_append {log more : List Happening} (h : Spared log) (hmore : Spared more) :
    Spared (log ++ more) :=
  fun i hi => (List.mem_append.mp hi).elim (h i) (hmore i)

theorem spared_happening (o : Other) : Spared o.happening := by
  intro i hi
  cases o <;> simp [Other.happening] at hi

theorem spared_shown (answer : Answer (List Instance)) : Spared (shown answer) := by
  intro i hi
  cases answer <;> simp [shown] at hi

theorem Spared.justified (h : Spared log) (w : Workload) : Justified w log := by
  rintro before i after rfl
  exact absurd (by simp) (h i)

theorem Justified.append_spared (h : Justified w log) {more : List Happening}
    (hmore : Spared more) : Justified w (log ++ more) :=
  h.append fun i hi => absurd hi (hmore i)

theorem log_interfere (others : Nat → List Other) (x : Shared) :
    ∃ more, Spared more ∧ (x.interfere others).log = x.log ++ more := by
  apply interfere_induction (P := fun y => ∃ more, Spared more ∧ y.log = x.log ++ more)
  · rintro y o ⟨more, hmore, hlog⟩
    refine ⟨more ++ o.happening, spared_append hmore (spared_happening o), ?_⟩
    rw [suffer, hlog, List.append_assoc]
  · exact fun _ _ h => h
  · exact ⟨[], spared_nil, (List.append_nil _).symm⟩

theorem keeps_log {P : List Happening → Prop}
    (hP : ∀ log more, P log → Spared more → P (log ++ more)) (others : Nat → List Other)
    (key : Key) : Pass.Keeps (backend others) key fun x => P x.log := by
  have hcall : ∀ (x : Shared) more, P x.log → Spared more →
      P ((x.interfere others).log ++ more) := by
    intro x more h hmore
    obtain ⟨others', hothers, hlog⟩ := log_interfere others x
    rw [hlog]
    exact hP _ _ (hP _ _ h hothers) hmore
  exact ⟨fun _ x h => hcall x [] h spared_nil, fun _ _ x h => hcall x _ h (spared_shown _),
    fun _ x _ h => hcall x [] h spared_nil, fun _ h => h⟩

/-- Before the listing of a pass over `s` others have changed no workload. -/
structure Unlisted (s : World) (x : Shared) : Prop where
  reachable : x.world.store.Reachable
  workloads : x.world.cluster.workloads = s.cluster.workloads
  spared : Spared x.log

namespace Unlisted

variable {s : World}

theorem suffer (h : Unlisted s x) (o : Other) : Unlisted s (x.suffer o) := by
  obtain ⟨hreachable, hworkloads, hspared⟩ := h
  refine ⟨.after o.request hreachable, ?_, spared_append hspared (spared_happening o)⟩
  rw [← hworkloads]
  cases o with
  | put i => rfl
  | enterDelete => rfl
  | leaveDelete key => exact (Store.leaveDelete_sub key x.world.store).1

theorem interfere (h : Unlisted s x) (others : Nat → List Other) :
    Unlisted s (x.interfere others) :=
  interfere_induction (P := Unlisted s) (fun _ o hx => hx.suffer o)
    (fun _ _ ⟨hr, hw, hs⟩ => ⟨hr, hw, hs⟩) others h

theorem getWorkload (h : Unlisted s x) (others : Nat → List Other) (key : Key) :
    Unlisted s ((backend others).getWorkload key x).2 ∧
      ∀ w, ((backend others).getWorkload key x).1 = .ok w → s.cluster.workload? key = some w := by
  obtain ⟨hreachable, hworkloads, hspared⟩ := h.interfere others
  refine ⟨⟨.after (.getWorkload key) hreachable, ?_, spared_append hspared spared_nil⟩,
    fun w hget => ?_⟩
  · rw [← hworkloads]
    exact congrArg Cluster.workloads (Store.cluster_getWorkload key _)
  · rw [Cluster.workload?, ← hworkloads]
    exact Store.workload?_of_getWorkload hget

end Unlisted

/-- Behind the listing, whoever stands under a key that the pass may delete is excused. -/
structure Guarded (w : Workload) (is : List Instance) (x : Shared) : Prop where
  seen : .listed is ∈ x.log
  justified : Justified w x.log
  excused : ∀ i ∈ x.world.cluster.instances, (∃ j ∈ is, j.key = i.key ∧ w.governs j = true) →
    Excused w x.log i

namespace Guarded

variable {is : List Instance}

/-- The state after something happened, if it removed only who was excused, and who is there now
was there before, is the workload's own, or has just been put. -/
theorem go (h : Guarded w is x) {world : World} {n : Nat} {more : List Happening}
    (hremoved : ∀ i, .removed i ∈ more → Excused w x.log i)
    (hthere : ∀ i ∈ world.cluster.instances,
      i ∈ x.world.cluster.instances ∨ i.isOwnedBy w.uid = true ∨ .put i ∈ more) :
    Guarded w is ⟨world, n, x.log ++ more⟩ := by
  obtain ⟨hseen, hjustified, hexcused⟩ := h
  refine ⟨List.mem_append_left more hseen, hjustified.append hremoved, fun i hi htarget => ?_⟩
  rcases hthere i hi with hold | hnew
  · exact (hexcused i hold htarget).append more
  · obtain ⟨early, late, hlog⟩ := List.append_of_mem hseen
    refine ⟨early, is, late ++ more, by simp [hlog], htarget, ?_⟩
    exact hnew.imp_right fun hput => List.mem_append_right late hput

theorem suffer (h : Guarded w is x) (o : Other) : Guarded w is (x.suffer o) := by
  refine h.go (fun i hi => absurd hi (spared_happening o i)) fun i hi => ?_
  cases o with
  | put j =>
    rcases List.mem_append.mp hi with hi | hi
    · exact .inl (List.mem_filter.mp hi).1
    · exact .inr (.inr (List.mem_singleton.mp hi ▸ List.mem_singleton_self _))
  | enterDelete => exact .inl hi
  | leaveDelete key => exact .inl ((Store.leaveDelete_sub key x.world.store).2 i hi)

theorem interfere (h : Guarded w is x) (others : Nat → List Other) :
    Guarded w is (x.interfere others) :=
  interfere_induction (P := Guarded w is) (fun _ o hx => hx.suffer o)
    (fun _ _ ⟨hs, hj, he⟩ => ⟨hs, hj, he⟩) others h

/-- What a pass that listed `is` may call: it creates what is its own and deletes what it listed. -/
def Rightful (w : Workload) (is : List Instance) : Mutation → Prop
  | .create i => i.isOwnedBy w.uid = true
  | .delete key => ∃ j ∈ is, j.key = key ∧ w.governs j = true

theorem mem_lost {c c' : Cluster} (h : .removed i ∈ lost c c') :
    i ∈ c.instances ∧ i ∉ c'.instances := by
  obtain ⟨j, hj, heq⟩ := List.mem_map.mp h
  obtain rfl := Happening.removed.inj heq
  obtain ⟨hj, hgone⟩ := List.mem_filter.mp hj
  refine ⟨hj, fun hthere => ?_⟩
  rw [Cluster.hasInstance_iff.mpr (List.mem_map_of_mem hthere)] at hgone
  contradiction

theorem leave_rightful (h : Guarded w is x) {call : Mutation} (hcall : Rightful w is call) :
    let world := (World.backend.leave call x.world).2
    (∀ i, .removed i ∈ lost x.world.cluster world.cluster → Excused w x.log i) ∧
      ∀ i ∈ world.cluster.instances,
        i ∈ x.world.cluster.instances ∨ i.isOwnedBy w.uid = true := by
  intro world
  cases call with
  | create new =>
    rcases Store.leaveCreate_cases new x.world.store with ⟨e, -, hc⟩ | ⟨-, -, hc⟩
    · have hsame : world.cluster = x.world.cluster := hc
      rw [hsame]
      exact ⟨fun i hi => absurd (mem_lost hi).1 (mem_lost hi).2, fun i hi => .inl hi⟩
    · have hgrown : world.cluster = x.world.cluster.addInstance new := hc
      rw [hgrown]
      refine ⟨fun i hi => ?_, fun i hi => ?_⟩
      · exact absurd (List.mem_append_left [new] (mem_lost hi).1) (mem_lost hi).2
      · rcases List.mem_append.mp hi with hi | hi
        · exact .inl hi
        · exact .inr (List.mem_singleton.mp hi ▸ hcall)
  | delete key =>
    refine ⟨fun i hi => ?_, fun i hi => .inl ?_⟩
    · obtain ⟨hold, hgone⟩ := mem_lost hi
      apply h.excused i hold
      rcases Store.leaveDelete_cases key x.world.store with ⟨e, -, hc⟩ | ⟨-, hc⟩
      · have hsame : world.cluster = x.world.cluster := hc
        exact absurd hold (hsame ▸ hgone)
      · have hshrunk : world.cluster = x.world.cluster.removeInstance key := hc
        have hkey : i.key = key := by
          by_contra hne
          rw [hshrunk] at hgone
          exact hgone (List.mem_filter.mpr ⟨hold, by simpa using hne⟩)
        exact hkey ▸ hcall
    · exact (Store.leaveDelete_sub key x.world.store).2 i hi

theorem keeps (others : Nat → List Other) (w : Workload) (is : List Instance) :
    Batch.CallsKeepIf (backend others) (Rightful w is) (Guarded w is) where
  enter call x _ h := by
    have hcluster := World.backend_serves.enter call (x.interfere others).world
    refine (h.interfere others).go (fun _ hi => nomatch hi) fun i hi => .inl ?_
    exact hcluster ▸ hi
  leave call x hcall h := by
    have hy := h.interfere others
    obtain ⟨hremoved, hthere⟩ := hy.leave_rightful hcall
    exact hy.go hremoved fun i hi => (hthere i hi).imp_right .inl
  draw _ h := ⟨h.seen, h.justified, h.excused⟩

theorem of_listing {s : World} (h : Unlisted s x) {selector : Selector}
    (hparse : w.spec.selector.parse = .ok selector) (others : Nat → List Other)
    {is : List Instance} (hlist : ((backend others).listInstances w.ns selector x).1 = .ok is) :
    Guarded w is ((backend others).listInstances w.ns selector x).2 ∧
      ∀ j ∈ Instance.activeOwned w.uid is, j ∈ is ∧ w.governs j = true := by
  obtain ⟨hreachable, -, hspared⟩ := h.interfere others
  have hstate : ((backend others).listInstances w.ns selector x).2 =
      (x.interfere others).note
        (World.backend.listInstances w.ns selector (x.interfere others).world).2
        (shown ((backend others).listInstances w.ns selector x).1) := rfl
  have hcluster : (World.backend.listInstances w.ns selector (x.interfere others).world).2.cluster =
      (x.interfere others).world.cluster := Store.cluster_listInstances w.ns selector _
  have his : is = (x.interfere others).world.cluster.list w.ns selector :=
    Store.list_of_listInstances hlist
  rw [hstate, hlist]
  refine ⟨⟨by simp [note, shown], ?_, ?_⟩, fun j hj => ?_⟩
  · exact (spared_append hspared (spared_shown _)).justified w
  · rintro i hi ⟨j, hj, hkey, hgoverns⟩
    have hthere : i ∈ (x.interfere others).world.cluster.instances := by
      rw [← hcluster]
      exact hi
    have hlisted : j ∈ (x.interfere others).world.cluster.instances :=
      (List.mem_filter.mp (his ▸ hj)).1
    obtain rfl := hreachable.sound.eq_of_key hlisted hthere hkey
    refine ⟨_, is, [], rfl, ⟨j, hj, rfl, hgoverns⟩, .inl ?_⟩
    exact (Workload.governs_iff.mp hgoverns).2.1
  · have hactive := Cluster.activeOwned_list (x.interfere others).world.cluster hparse
    refine ⟨?_, ?_⟩
    · unfold Instance.activeOwned at hj
      exact (List.mem_filter.mp (List.mem_filter.mp hj).1).1
    · rw [his, hactive] at hj
      exact (List.mem_filter.mp hj).2

end Guarded

end Shared

namespace Pass

open Shared

theorem calls_of_readings {σ : Type} {B : Backend σ} {key : Key} {s s' : σ} {r : Readings}
    (h : readings B key s = (.ok r, s')) :
    (B.getWorkload key s).1 = .ok r.workload ∧ r.workload.spec.selector.parse = .ok r.selector ∧
      B.listInstances r.workload.ns r.selector (B.getWorkload key s).2 = (.ok r.listed, s') := by
  unfold readings at h
  generalize B.getWorkload key s = a at h ⊢
  obtain ⟨answer, s₁⟩ := a
  cases answer with
  | error e => cases h
  | ok w =>
    dsimp only at h
    cases hparse : w.spec.selector.parse with
    | error e =>
      rw [hparse] at h
      cases h
    | ok selector =>
      rw [hparse] at h
      dsimp only at h
      cases hlist : B.listInstances w.ns selector s₁ with
      | mk answer s₂ =>
        rw [hlist] at h
        cases answer with
        | error e => cases h
        | ok listed =>
          cases h
          exact ⟨rfl, hparse, hlist⟩

theorem guarded_of_readings {s : World} {x y : Shared} (h : Unlisted s x)
    {others : Nat → List Other} {key : Key} {r : Readings}
    (hread : readings (Shared.backend others) key x = (.ok r, y)) :
    s.cluster.workload? key = some r.workload ∧ Guarded r.workload r.listed y ∧
      ∀ j ∈ r.active, j ∈ r.listed ∧ r.workload.governs j = true := by
  obtain ⟨hget, hparse, hlist⟩ := calls_of_readings hread
  obtain ⟨hunlisted, hstored⟩ := h.getWorkload others key
  have hguarded := Guarded.of_listing hunlisted hparse others (congrArg Prod.fst hlist)
  rw [hlist] at hguarded
  exact ⟨hstored _ hget, hguarded⟩

theorem operations_rightful (config : PassConfig) {w : Workload} {is active : List Instance}
    (hactive : ∀ j ∈ active, j ∈ is ∧ w.governs j = true) :
    ∀ slot ∈ (Batch.Progress.start (operations config w active)).slots,
      slot.Calls (Guarded.Rightful w is) := by
  intro slot hslot
  obtain ⟨op, hop, rfl⟩ := List.mem_map.mp hslot
  intro call hcall
  rcases mem_operations hop with ⟨-, stamp, hstamp, rfl⟩ | ⟨-, j, hj, rfl⟩
  · obtain ⟨d, rfl⟩ := hcall
    have howned := Stamp.isOwnedBy_build hstamp d w.uid
    rwa [beq_self_eq_true] at howned
  · obtain rfl : call = .delete j.key := hcall
    exact ⟨j, (hactive j hj).1, rfl, (hactive j hj).2⟩

/-- The log of a pass among others, and of some more steps of the operations it left under way. -/
def sharedLog (others : Nat → List Other) (config : PassConfig) (cond : Conditions) (key : Key)
    (s : World) (plan : Batch.Schedule) (n : Nat) : List Happening :=
  let r := run (Shared.backend others) config cond key ⟨s, 0, []⟩
  (Batch.run (Shared.backend others) plan n ⟨r.1.leftover, r.1.events⟩ r.2).2.log

theorem justified_sharedLog {s : World} (reachable : s.store.Reachable)
    (others : Nat → List Other) (config : PassConfig) (cond : Conditions) (key : Key)
    (plan : Batch.Schedule) (n : Nat) :
    let log := sharedLog others config cond key s plan n
    Spared log ∨ ∃ w, s.cluster.workload? key = some w ∧ Justified w log := by
  have hstart : Unlisted s ⟨s, 0, []⟩ := ⟨reachable, rfl, spared_nil⟩
  have hspared := readings_keeps (keeps_log (P := Spared) (fun _ _ => spared_append) others key)
    hstart.spared
  dsimp only [sharedLog]
  rw [run_eq_readings]
  cases hread : readings (Shared.backend others) key ⟨s, 0, []⟩ with
  | mk made y =>
    rw [hread] at hspared
    cases made with
    | error result =>
      dsimp only
      rw [Batch.run_nil]
      exact .inl hspared
    | ok r =>
      obtain ⟨hw, hguarded, hactive⟩ := guarded_of_readings hstart hread
      refine .inr ⟨r.workload, hw, ?_⟩
      obtain ⟨hslots, hbatch⟩ := Batch.run_keepsIf (Guarded.keeps others r.workload r.listed)
        cond.plan (cond.steps (Batch.Progress.start (operations config r.workload r.active)).work)
        (operations_rightful config hactive) hguarded
      dsimp only
      rcases act_cases (Shared.backend others) config cond key r y with ⟨error, hact, -⟩ | hact
      · rw [hact, conclude_leftover, Batch.run_nil]
        exact conclude_keeps (keeps_log (P := Justified r.workload)
          (fun _ _ h hmore => h.append_spared hmore) others r.workload.key) hbatch.justified
      · rw [hact]
        exact (Batch.run_keepsIf (Guarded.keeps others r.workload r.listed) plan n
          (p := ⟨_, _⟩) hslots hbatch).2.justified

/-- Whatever a pass removes, also behind its end, is its workload's own, unless another actor put it
behind the listing under the key of an instance that was listed as governed. -/
theorem removals_excused {s : World} (reachable : s.store.Reachable) (others : Nat → List Other)
    (config : PassConfig) (cond : Conditions) (key : Key) (plan : Batch.Schedule) (n : Nat) :
    ∀ before i after,
      sharedLog others config cond key s plan n = before ++ .removed i :: after →
      ∃ w early is late j, s.cluster.workload? key = some w ∧
        before = early ++ .listed is :: late ∧ j ∈ is ∧ j.key = i.key ∧
        j.isActive = true ∧ j.isOwnedBy w.uid = true ∧
        (i.isOwnedBy w.uid = true ∨ .put i ∈ late) := by
  intro before i after hsplit
  rcases justified_sharedLog reachable others config cond key plan n with hspared | ⟨w, hw, h⟩
  · exact absurd (by simp [hsplit]) (hspared i)
  · obtain ⟨early, is, late, hbefore, ⟨j, hj, hkey, hgoverns⟩, howned⟩ := h before i after hsplit
    obtain ⟨hactive, hj', -, -⟩ := Workload.governs_iff.mp hgoverns
    exact ⟨w, early, is, late, j, hw, hbefore, hj, hkey, hactive, hj', howned⟩

/-- Just before a deletion enters, another actor puts an instance of its own in the place of the one
to be deleted. -/
def replacing : Nat → List Other := fun n =>
  if n = 2 then [.put (Specimen.running (Specimen.plain "job" 1 1) "a" .epoch)] else []

theorem exists_removed_foreign :
    let w := Specimen.plain "web" 0 0
    let s := Specimen.world (Specimen.crowd w ["a"])
    ∃ i, .removed i ∈ sharedLog replacing ⟨5, .observed⟩ ⟨.inOrder, none⟩ w.key s .inOrder 0 ∧
      i.isOwnedBy w.uid = false := by
  intro w s
  let foreign : Happening → Bool
    | .removed i => !i.isOwnedBy w.uid
    | _ => false
  have hany : (sharedLog replacing ⟨5, .observed⟩ ⟨.inOrder, none⟩ w.key s .inOrder 0).any foreign =
      true := by decide +kernel
  obtain ⟨x, hx, hforeign⟩ := List.any_eq_true.mp hany
  cases x with
  | removed i => exact ⟨i, hx, by simpa [foreign] using hforeign⟩
  | put i => contradiction
  | listed is => contradiction

/-- What a pass removes need not be its workload's own at that moment. -/
theorem not_removals_owned :
    ¬ ∀ (s : World) (others : Nat → List Other) (config : PassConfig) (cond : Conditions)
        (key : Key) (plan : Batch.Schedule) (n : Nat) (w : Workload),
      s.store.Reachable → s.cluster.workload? key = some w →
      ∀ i, .removed i ∈ sharedLog others config cond key s plan n → i.isOwnedBy w.uid = true := by
  intro h
  let w := Specimen.plain "web" 0 0
  obtain ⟨i, hi, hforeign⟩ := exists_removed_foreign
  have howned := h (Specimen.world (Specimen.crowd w ["a"])) replacing ⟨5, .observed⟩
    ⟨.inOrder, none⟩ w.key .inOrder 0 w (Specimen.reachable_crowd w ["a"])
    (Specimen.workload?_crowd w ["a"]) i hi
  rw [hforeign] at howned
  contradiction

/-- The instance that takes the place of the listed one is removed, and was put since. -/
theorem removals_excused_replaced :
    let w := Specimen.plain "web" 0 0
    let s := Specimen.world (Specimen.crowd w ["a"])
    s.store.Reachable ∧ ∃ before i after,
      sharedLog replacing ⟨5, .observed⟩ ⟨.inOrder, none⟩ w.key s .inOrder 0 =
        before ++ .removed i :: after ∧ i.isOwnedBy w.uid = false ∧
      ∃ early is late j, before = early ++ .listed is :: late ∧ j ∈ is ∧ j.key = i.key ∧
        j.isActive = true ∧ j.isOwnedBy w.uid = true ∧ .put i ∈ late := by
  intro w s
  have reachable : s.store.Reachable := Specimen.reachable_crowd w ["a"]
  obtain ⟨i, hi, hforeign⟩ := exists_removed_foreign
  obtain ⟨before, after, hsplit⟩ := List.append_of_mem hi
  obtain ⟨v, early, is, late, j, hv, hbefore, hj, hkey, hactive, howned, hput⟩ :=
    removals_excused reachable replacing ⟨5, .observed⟩ ⟨.inOrder, none⟩ w.key .inOrder 0 before i
      after hsplit
  obtain rfl : w = v := Option.some.inj ((Specimen.workload?_crowd w ["a"]).symm.trans hv)
  rw [hforeign] at hput
  exact ⟨reachable, before, i, after, hsplit, hforeign, early, is, late, j, hbefore, hj, hkey,
    hactive, howned, hput.resolve_left Bool.false_ne_true⟩

end Pass

end ReplicaController
