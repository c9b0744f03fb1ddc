import ReplicaController.Proofs.Batch.Notices
import ReplicaController.Proofs.Pass.Contested

/-!
# The deeds of a pass

The log of a pass over contested records tells which instances its calls added and removed. No other
call of the pass changes the instances, and its normal events tell these deeds in their order.
-/

namespace ReplicaController

namespace Incident

/-- The event that the incident deserves, if it is a deed of the pass. -/
def event? : Incident → Option Event
  | .added i => some (.created i.key)
  | .removed i => some (.deleted i.key)
  | _ => none

def applied (is : List Instance) : Incident → List Instance
  | .added new => is ++ [new]
  | .removed old => is.filter fun i => !(i.key == old.key)
  | _ => is

theorem applied_of_event? {i : Incident} (h : i.event? = none) (is : List Instance) :
    i.applied is = is := by
  cases i with
  | added i | removed i => contradiction
  | asked | fetched | wrote => rfl

end Incident

namespace Cluster

variable {c : Cluster} {key : Key}

theorem missing_of_subset {c' : Cluster} (h : c.instances ⊆ c'.instances) : c.missing c' = [] :=
  List.filter_eq_nil_iff.mpr fun i hi => by
    simp [hasInstance_iff.mpr (List.mem_map_of_mem (f := Instance.key) (h hi))]

theorem addInstance_missing {i : Instance} (h : c.hasInstance i.key = false) :
    (c.addInstance i).missing c = [i] := by
  have hkept : c.missing c = [] := missing_of_subset (List.Subset.refl _)
  unfold missing at hkept ⊢
  rw [addInstance, List.filter_append, hkept]
  simp [h]

theorem missing_removeInstance (sound : c.Sound) (h : c.hasInstance key = true) :
    ∃ i, i.key = key ∧ c.missing (c.removeInstance key) = [i] := by
  have hgone : c.missing (c.removeInstance key) =
      c.instances.filter ((· == key) ∘ Instance.key) := by
    refine List.filter_congr fun i hi => ?_
    by_cases hkey : i.key = key
    · simp [removeInstance, hasInstance, hkey]
    · have hkept : (c.removeInstance key).hasInstance i.key = true :=
        hasInstance_iff.mpr (List.mem_map_of_mem (List.mem_filter.mpr ⟨hi, by simpa using hkey⟩))
      simp [hkept, hkey]
  -- Among the keys, which do not repeat, it stands once.
  have hkeys : (c.missing (c.removeInstance key)).map Instance.key = [key] := by
    rw [hgone, ← List.filter_map, List.filter_beq,
      List.count_eq_one_of_mem sound.nodup (hasInstance_iff.mp h)]
    rfl
  obtain ⟨i, hi, hkey⟩ := List.map_eq_singleton_iff.mp hkeys
  exact ⟨i, hkey, hi⟩

end Cluster

namespace Contested

def replay (log : List Incident) (is : List Instance) : List Instance :=
  log.foldl Incident.applied is

theorem replay_of_filterMap {log : List Incident} (h : log.filterMap Incident.event? = [])
    (is : List Instance) : replay log is = is := by
  rw [List.filterMap_eq_nil_iff] at h
  induction log with
  | nil => rfl
  | cons i log ih =>
    rw [replay, List.foldl_cons, i.applied_of_event? (h i List.mem_cons_self)]
    exact ih fun j hj => h j (List.mem_cons_of_mem i hj)

/-- The log leads to these instances: others may change them at will, the pass only by its deeds. -/
inductive LeadsTo (start : List Instance) : List Incident → List Instance → Prop
  | start : LeadsTo start [] start
  | asked {log : List Incident} {is : List Instance} (h : LeadsTo start log is) (r : Store.Request)
    (is' : List Instance) : LeadsTo start (log ++ [.asked r]) is'
  | own {log : List Incident} {is : List Instance} (h : LeadsTo start log is)
    (more : List Incident) : LeadsTo start (log ++ more) (replay more is)

theorem changes_leave (call : Mutation) {s : World} (sound : s.cluster.Sound) :
    let happened := changes s.cluster (World.backend.leave call s).2.cluster
    happened.filterMap Incident.event? =
        (if (World.backend.leave call s).1.isOk then [call.notice] else []) ∧
      (World.backend.leave call s).2.cluster.instances = replay happened s.cluster.instances := by
  have hself : s.cluster.missing s.cluster = [] := Cluster.missing_of_subset (List.Subset.refl _)
  unfold changes
  dsimp only
  cases call with
  | create i =>
    rcases World.backend_serves.leaveCreate i s with ⟨e, he, hcluster⟩ | ⟨hok, hnew, hcluster⟩
    · rw [he, hcluster, hself]
      exact ⟨rfl, rfl⟩
    · rw [hok, hcluster, Cluster.addInstance_missing hnew,
        Cluster.missing_of_subset (List.subset_append_left _ _)]
      exact ⟨rfl, rfl⟩
  | delete key =>
    rcases World.backend_serves.leaveDelete key s with ⟨e, he, hcluster⟩ | ⟨hok, hcluster⟩
    · rw [he, hcluster, hself]
      exact ⟨rfl, rfl⟩
    · have hthere : s.cluster.hasInstance key = true := Store.hasInstance_of_leaveDelete hok
      obtain ⟨i, rfl, hgone⟩ := Cluster.missing_removeInstance sound hthere
      rw [hok, hcluster, hgone, Cluster.missing_of_subset (List.filter_subset_self _)]
      exact ⟨rfl, rfl⟩

theorem backend_enter (others : Nat → List Store.Request) (call : Mutation) (x : Contested) :
    (backend others).enter call x = (.ok (), (x.interfere others).note
      (World.backend.enter call (x.interfere others).world).2 []) := by
  cases call <;> rfl

theorem filterMap_given (answer : Answer Workload) :
    (given answer).filterMap Incident.event? = [] := by
  cases answer <;> rfl

theorem filterMap_written (c : Cluster) (copy : Workload) (answer : Answer Workload) :
    (written c copy answer).filterMap Incident.event? = [] := by
  unfold written
  cases answer with
  | error e => rfl
  | ok w => cases c.workload? copy.key <;> rfl

/-- The log of a pass from `start` holds the deeds that these events tell, in their order, and no
instance has changed otherwise. -/
structure Recounted (start : List Instance) (events : List Event) (x : Contested) : Prop where
  sound : x.cluster.Sound
  events_eq : x.log.filterMap Incident.event? = events.filter (·.severity == .normal)
  leads : LeadsTo start x.log x.cluster.instances

namespace Recounted

variable {start : List Instance} {events : List Event} {x : Contested}
  (others : Nat → List Store.Request)

theorem go (h : Recounted start events x) {world : World} (hsound : world.cluster.Sound) (n : Nat)
    {more : List Incident} {recorded : List Event}
    (hdeeds : more.filterMap Incident.event? = recorded.filter (·.severity == .normal))
    (hinstances : world.cluster.instances = replay more x.cluster.instances) :
    Recounted start (events ++ recorded) ⟨world, n, x.log ++ more⟩ where
  sound := hsound
  events_eq := by rw [List.filterMap_append, h.events_eq, hdeeds, List.filter_append]
  leads := by
    have hown := h.leads.own more
    rw [← hinstances] at hown
    exact hown

theorem idle (h : Recounted start events x) {world : World} (hsound : world.cluster.Sound)
    (hkept : world.cluster.instances = x.cluster.instances) (n : Nat) (more : List Incident)
    (hmore : more.filterMap Incident.event? = []) :
    Recounted start events ⟨world, n, x.log ++ more⟩ := by
  have hdeeds : more.filterMap Incident.event? = [].filter fun e : Event => e.severity == .normal :=
    hmore
  have hgo := h.go hsound n hdeeds (hkept.trans (replay_of_filterMap hmore _).symm)
  rwa [List.append_nil] at hgo

theorem interfere (h : Recounted start events x) : Recounted start events (x.interfere others) := by
  apply interfere_induction (P := Recounted start events) ?_ (fun _ _ ⟨hs, he, hl⟩ => ⟨hs, he, hl⟩)
    others h
  intro x r h
  refine ⟨Store.sound_after h.sound r, ?_, h.leads.asked r _⟩
  exact (List.filterMap_append).trans ((List.append_nil _).trans h.events_eq)

theorem keeps (start : List Instance) (events : List Event) (key : Key) :
    Pass.Keeps (backend others) key (Recounted start events) where
  getWorkload k x h := by
    have hy := h.interfere others
    have hcluster := (World.backend_serves.getWorkload k (x.interfere others).world).1
    exact hy.idle (hcluster ▸ hy.sound) (congrArg Cluster.instances hcluster) _ _
      (filterMap_given _)
  listInstances ns selector x h := by
    have hy := h.interfere others
    have hcluster := (World.backend_serves.listInstances ns selector (x.interfere others).world).1
    exact hy.idle (hcluster ▸ hy.sound) (congrArg Cluster.instances hcluster) _ [] rfl
  updateStatus copy x _ h := by
    have hy := h.interfere others
    have hsound : (World.backend.updateStatus copy (x.interfere others).world).2.cluster.Sound :=
      Store.sound_after hy.sound (.updateStatus copy)
    have hkept : (World.backend.updateStatus copy (x.interfere others).world).2.cluster.instances =
        (x.interfere others).cluster.instances := by
      rcases World.backend_serves.updateStatus copy (x.interfere others).world with
        ⟨e, -, hcluster⟩ | ⟨stored, -, -, -, hcluster⟩
      · rw [hcluster]
        rfl
      · rw [hcluster]
        rfl
    exact hy.idle hsound hkept _ _ (filterMap_written _ copy _)
  now x h := ⟨h.sound, h.events_eq, h.leads⟩

theorem step (h : Recounted start events x) (slot : Batch.Slot) :
    Recounted start (events ++ (slot.step (backend others) x).1.2)
      (slot.step (backend others) x).2 := by
  cases slot with
  | calling op n =>
    have hdrawn : Recounted start events (Batch.Slot.nextCall (backend others) op x).2 := by
      cases op with
      | create stamp => exact ⟨h.sound, h.events_eq, h.leads⟩
      | delete key => exact h
    simp only [Batch.Slot.step]
    generalize Batch.Slot.nextCall (backend others) op x = next at hdrawn ⊢
    obtain ⟨call, y⟩ := next
    have hy := hdrawn.interfere others
    have hcluster := World.backend_serves.enter call (y.interfere others).world
    dsimp only
    rw [backend_enter, List.append_nil]
    exact hy.idle (hcluster ▸ hy.sound) (congrArg Cluster.instances hcluster) _ [] rfl
  | inside op n call =>
    have hy := h.interfere others
    let answer := (World.backend.leave call (x.interfere others).world).1
    let r : Batch.Reply Contested := ⟨0, op, n, call, answer, x⟩
    have hsound : (World.backend.leave call (x.interfere others).world).2.cluster.Sound :=
      (Batch.callsKeep_sound World.backend_serves).leave call _ hy.sound
    obtain ⟨hdeeds, hinstances⟩ := changes_leave call hy.sound
    have hevents : ((Batch.Slot.inside op n call).step (backend others) x).1.2 =
        r.event?.toList := congrArg Prod.snd (Batch.Slot.answered_eq r)
    refine hy.go hsound _ (hdeeds.trans ?_) hinstances
    rw [hevents, ← Option.toList_filter, r.normal_event?]
    change _ = (if answer.isOk then some call.notice else none).toList
    cases answer.isOk <;> rfl
  | finished outcome => simpa [Batch.Slot.step] using h

theorem run (plan : Batch.Schedule) (n : Nat) {p : Batch.Progress}
    (h : Recounted start p.events x) :
    Recounted start (Batch.run (backend others) plan n p x).1.events
      (Batch.run (backend others) plan n p x).2 :=
  Batch.run_induction (backend others) (P := fun p x => Recounted start p.events x)
    (fun _ slot _ _ _ _ h => h.step others slot) plan n h

end Recounted

end Contested

namespace Pass

/-- Every deed of a pass has its event, and no other normal event is recorded. -/
theorem recounted_of_run {s : World} (reachable : s.store.Reachable)
    (others : Nat → List Store.Request) (config : PassConfig) (cond : Conditions) (key : Key) :
    let r := run (Contested.backend others) config cond key ⟨s, 0, []⟩
    Contested.Recounted s.cluster.instances r.1.events r.2 := by
  have hstart : Contested.Recounted s.cluster.instances [] ⟨s, 0, []⟩ :=
    ⟨reachable.sound, rfl, .start⟩
  have hread := readings_keeps (Contested.Recounted.keeps others _ [] key) hstart
  dsimp only
  rw [run_eq_readings]
  generalize readings (Contested.backend others) key ⟨s, 0, []⟩ = a at hread ⊢
  obtain ⟨made, x⟩ := a
  cases made with
  | error result => exact hread
  | ok r =>
    let b := batch (Contested.backend others) config cond r x
    have hbatch : Contested.Recounted s.cluster.instances b.1.events b.2 :=
      hread.run others cond.plan _
    dsimp only
    rcases act_cases (Contested.backend others) config cond key r x with ⟨error, hact, -⟩ | hact
    · rw [hact, (conclude_fst _ key r.workload r.selector _ _ error _ _).1]
      exact conclude_keeps (Contested.Recounted.keeps others _ _ _) hbatch
    · rw [hact]
      exact hbatch

end Pass

end ReplicaController
