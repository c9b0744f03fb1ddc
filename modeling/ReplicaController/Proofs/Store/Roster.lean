import ReplicaController.Proofs.OrderedMap
import ReplicaController.Proofs.Store.Versions

/-!
# The instances of a store as an ordered map

The instances of a sound cluster are the values of an ordered map under their keys. Every request
does to that map what an ordered map does: an instance that is put goes to the end, a creation
appends and a deletion erases unless they are refused, a change of phase or readiness stays in
place, and a listing shows the values that are selected in their order.
-/

namespace ReplicaController

namespace Cluster

variable {c : Cluster} {key : Key} {i : Instance}

/-- The instances of a sound cluster under their keys. -/
def roster (c : Cluster) (h : c.Sound) : OrderedMap Key Instance where
  keys := c.instances.map Instance.key
  get? key := c.instances.find? (·.key == key)
  nodup := h.nodup
  mem_keys key := by simp [List.find?_isSome]

section changeFirst

variable {f : Instance → Instance} (hf : ∀ i, (f i).key = i.key) (is : List Instance)

include hf

theorem find?_changeFirst_self (key : Key) :
    (changeFirst key f is).find? (·.key == key) = (is.find? (·.key == key)).map f := by
  induction is with
  | nil => rfl
  | cons i is ih =>
    unfold changeFirst
    split
    · rename_i hk
      simp [hf, hk]
    · rename_i hk
      simp [hk, ih]

theorem find?_changeFirst_of_ne {l : Key} (hl : l ≠ key) :
    (changeFirst key f is).find? (·.key == l) = is.find? (·.key == l) := by
  induction is with
  | nil => rfl
  | cons i is ih =>
    unfold changeFirst
    split
    · rename_i hk
      have hne : (i.key == l) = false := by
        rw [beq_iff_eq] at hk
        simpa [hk] using hl.symm
      simp [hf, hne]
    · rw [List.find?_cons, List.find?_cons, ih]

end changeFirst

theorem roster_congr {c' : Cluster} (h : c.Sound) (h' : c'.Sound)
    (heq : c'.instances = c.instances) : c'.roster h' = c.roster h := by
  simp only [roster, heq]

namespace Sound

theorem get?_roster_eq_some_iff (h : c.Sound) :
    (c.roster h).get? key = some i ↔ i ∈ c.instances ∧ i.key = key := by
  constructor
  · intro hf
    exact ⟨List.mem_of_find?_eq_some hf, by simpa using List.find?_some hf⟩
  · rintro ⟨hi, rfl⟩
    obtain ⟨j, hj⟩ := Option.isSome_iff_exists.mp
      (((c.roster h).mem_keys i.key).mp (List.mem_map_of_mem hi))
    have hkey : j.key = i.key := by simpa using List.find?_some hj
    rw [hj, h.eq_of_key (List.mem_of_find?_eq_some hj) hi hkey]

theorem values_roster (h : c.Sound) : (c.roster h).values = c.instances := by
  calc (c.instances.map Instance.key).filterMap (c.roster h).get?
      = c.instances.filterMap fun i => (c.roster h).get? i.key := List.filterMap_map ..
    _ = c.instances.filterMap some :=
      List.filterMap_congr fun i hi => h.get?_roster_eq_some_iff.mpr ⟨hi, rfl⟩
    _ = c.instances := List.filterMap_some

theorem roster_eq (h : c.Sound) {m : OrderedMap Key Instance}
    (hkeys : c.instances.map Instance.key = m.keys)
    (hget : ∀ key i, i ∈ c.instances ∧ i.key = key ↔ m.get? key = some i) : c.roster h = m := by
  apply OrderedMap.ext hkeys
  funext key
  ext i
  rw [get?_roster_eq_some_iff, hget]

theorem roster_removeInstance (h : c.Sound) (key : Key) :
    (c.removeInstance key).roster (h.removeInstance key) = (c.roster h).erase key := by
  apply roster_eq
  · change (c.instances.filter _).map _ = (c.instances.map Instance.key).erase key
    rw [h.nodup.erase_eq_filter, List.filter_map]
    rfl
  · intro l i
    rw [Cluster.removeInstance, List.mem_filter]
    by_cases hl : l = key
    · subst hl
      simp
    · rw [OrderedMap.get?_erase_of_ne _ hl, get?_roster_eq_some_iff]
      constructor
      · rintro ⟨⟨hi, -⟩, hk⟩
        exact ⟨hi, hk⟩
      · rintro ⟨hi, hk⟩
        exact ⟨⟨hi, by simpa [hk] using hl⟩, hk⟩

theorem roster_addInstance (h : c.Sound) {i : Instance} (hi : c.hasInstance i.key = false) :
    (c.addInstance i).roster (h.addInstance hi) = (c.roster h).put i.key i := by
  have habsent := hasInstance_eq_false_iff.mp hi
  apply roster_eq
  · change (c.instances ++ [i]).map _ = (c.instances.map Instance.key).erase i.key ++ [i.key]
    rw [List.erase_of_not_mem habsent, List.map_append]
    rfl
  · intro l j
    rw [Cluster.addInstance, List.mem_append, List.mem_singleton]
    by_cases hl : l = i.key
    · subst hl
      rw [OrderedMap.get?_put_self, Option.some.injEq]
      refine ⟨?_, by rintro rfl; exact ⟨.inr rfl, rfl⟩⟩
      rintro ⟨hj | rfl, hk⟩
      · exact absurd (hk ▸ List.mem_map_of_mem hj) habsent
      · rfl
    · rw [OrderedMap.get?_put_of_ne _ _ hl, get?_roster_eq_some_iff]
      constructor
      · rintro ⟨hj | rfl, hk⟩
        · exact ⟨hj, hk⟩
        · exact absurd hk.symm hl
      · rintro ⟨hj, hk⟩
        exact ⟨.inl hj, hk⟩

theorem roster_putInstance (h : c.Sound) (i : Instance) :
    (c.putInstance i).roster (h.putInstance i) = (c.roster h).put i.key i := by
  have habsent : (c.removeInstance i.key).hasInstance i.key = false := by
    simp [Cluster.removeInstance, hasInstance]
  have hadd := (h.removeInstance i.key).roster_addInstance habsent
  rw [h.roster_removeInstance, OrderedMap.put_erase] at hadd
  exact hadd

theorem roster_changeFirst (h : c.Sound) (key : Key) (f : Instance → Instance)
    (hf : ∀ i, (f i).key = i.key) :
    roster { c with instances := Cluster.changeFirst key f c.instances } (h.changeFirst key hf) =
      (c.roster h).change key f := by
  apply OrderedMap.ext
  · exact map_key_changeFirst key hf c.instances
  · funext l
    by_cases hl : l = key
    · subst hl
      rw [OrderedMap.get?_change_self]
      exact find?_changeFirst_self hf c.instances l
    · rw [OrderedMap.get?_change_of_ne _ _ hl]
      exact find?_changeFirst_of_ne hf c.instances hl

end Sound

end Cluster

namespace Store

/-- What a request to a store does to its instances, from `m` to `m'`, and what it answers. -/
def Obeys (s : Store) (m m' : OrderedMap Key Instance) : Request → Prop
  | .putInstance i => m' = m.put i.key i
  | .setPhase key phase => m' = m.change key fun i => { i with phase }
  | .setReady key ready now =>
    m' = m.change key fun i => { i with phase := .running, readiness := some ⟨ready, now⟩ }
  | .leaveCreate i =>
    ((s.leaveCreate i).1 = .ok () ∧ i.key ∉ m.keys ∧ m' = m.put i.key i ∧
        m'.values = m.values ++ [i] ∨
      (∃ e, (s.leaveCreate i).1 = .error e) ∧ m' = m) ∧
    (s.faults.Calm → (s.leaveCreate i).1 =
      if i.key ∈ m.keys then .error (.alreadyExists .unit i.key) else .ok ())
  | .leaveDelete key =>
    ((s.leaveDelete key).1 = .ok () ∧ key ∈ m.keys ∧ m' = m.erase key ∨
      (∃ e, (s.leaveDelete key).1 = .error e) ∧ m' = m) ∧
    (s.faults.Calm → (s.leaveDelete key).1 =
      if key ∈ m.keys then .ok () else .error (.notFound .unit key))
  | .listInstances ns selector =>
    m' = m ∧ ∃ listed : List Instance,
      listed = m.values.filter (fun i => i.ns == ns && selector.selects i.labels) ∧
      (listed.map Instance.key).Nodup ∧
      (s.listInstances ns selector).1 = match s.faults.list with
        | some e => .error e
        | none => .ok listed
  | _ => m' = m

/-- The key that a request may write an instance under. -/
def Request.target? : Request → Option Key
  | .putInstance i | .leaveCreate i => some i.key
  | .setPhase key _ | .setReady key _ _ | .leaveDelete key => some key
  | _ => none

/-- Along the requests the instances of the store are the values of `m`, a map that each request
changes as it should. -/
structure Refines (s : Store) (rs : List Request) (m : Nat → OrderedMap Key Instance) : Prop where
  start : m 0 = .empty
  values : ∀ n, (m n).values = (s.afterFirst rs n).cluster.instances
  keys : ∀ n, (m n).keys = (s.afterFirst rs n).cluster.instances.map Instance.key
  obeys : ∀ n r, rs[n]? = some r → (s.afterFirst rs n).Obeys (m n) (m (n + 1)) r
  /-- What no request has as its target keeps its place among the rest. -/
  untouched : ∀ i j p, i ≤ j →
    (∀ k r key, i ≤ k → k < j → rs[k]? = some r → r.target? = some key → p key = false) →
    (m i).SameWhere p (m j)

theorem roster_ofWorkloads (ws : List Workload) (h : (Cluster.ofWorkloads ws).Sound) :
    (Cluster.ofWorkloads ws).roster h = .empty := by
  have hnone : (Cluster.ofWorkloads ws).instances = [] := by
    unfold Cluster.ofWorkloads
    apply List.foldlRecOn (motive := fun c => c.instances = []) ws Cluster.putWorkload rfl
    exact fun c hc w _ => hc
  exact Cluster.roster_congr .empty h hnone

section Step

variable {s : Store} (h : s.cluster.Sound)

theorem obeys_leaveCreate (i : Instance) :
    s.Obeys (s.cluster.roster h) ((s.leaveCreate i).2.cluster.roster (sound_leaveCreate h i))
      (.leaveCreate i) := by
  refine ⟨?_, fun calm => ?_⟩
  · rcases leaveCreate_cases i s with ⟨e, he, hc⟩ | ⟨hok, hi, hc⟩
    · right
      exact ⟨⟨e, he⟩, Cluster.roster_congr h _ (congrArg Cluster.instances hc)⟩
    · left
      have habsent : i.key ∉ (s.cluster.roster h).keys := Cluster.hasInstance_eq_false_iff.mp hi
      have hput := h.roster_addInstance hi
      simp only [hc]
      exact ⟨hok, habsent, hput, hput ▸ OrderedMap.values_put_of_notMem _ habsent i⟩
  · rw [(leaveCreate_of_calm calm i).1]
    exact if_congr Cluster.hasInstance_iff rfl rfl

theorem obeys_leaveDelete (key : Key) :
    s.Obeys (s.cluster.roster h) ((s.leaveDelete key).2.cluster.roster (sound_leaveDelete h key))
      (.leaveDelete key) := by
  refine ⟨?_, fun calm => ?_⟩
  · rcases leaveDelete_cases key s with ⟨e, he, hc⟩ | ⟨hok, hc⟩
    · right
      exact ⟨⟨e, he⟩, Cluster.roster_congr h _ (congrArg Cluster.instances hc)⟩
    · left
      have hpresent : key ∈ (s.cluster.roster h).keys :=
        Cluster.hasInstance_iff.mp (hasInstance_of_leaveDelete hok)
      simp only [hc]
      exact ⟨hok, hpresent, h.roster_removeInstance key⟩
  · rw [leaveDelete_fst_of_calm calm]
    exact if_congr Cluster.hasInstance_iff rfl rfl

theorem obeys_listInstances (ns : String) (selector : Selector) :
    s.Obeys (s.cluster.roster h) ((s.after (.listInstances ns selector)).cluster.roster
      (sound_after h _)) (.listInstances ns selector) := by
  have hsame := cluster_listInstances ns selector s
  refine ⟨Cluster.roster_congr h _ (congrArg Cluster.instances hsame), _, rfl, ?_, ?_⟩
  · rw [h.values_roster]
    exact h.nodup_filter _
  · rw [listInstances_fst, h.values_roster]
    rfl

theorem obeys_updateStatus (w : Workload) :
    s.Obeys (s.cluster.roster h) ((s.after (.updateStatus w)).cluster.roster (sound_after h _))
      (.updateStatus w) := by
  apply Cluster.roster_congr
  rcases updateStatus_cases w s with ⟨e, -, hc⟩ | ⟨stored, -, -, -, hc⟩
  · exact congrArg Cluster.instances hc
  · exact (congrArg Cluster.instances hc).trans rfl

theorem obeys_after (r : Request) :
    s.Obeys (s.cluster.roster h) ((s.after r).cluster.roster (sound_after h r)) r := by
  cases r with
  | putInstance i => exact h.roster_putInstance i
  | setPhase key phase =>
    exact h.roster_changeFirst key (fun i => { i with phase }) fun _ => rfl
  | setReady key ready now =>
    exact h.roster_changeFirst key
      (fun i => { i with phase := .running, readiness := some ⟨ready, now⟩ }) fun _ => rfl
  | leaveCreate i => exact obeys_leaveCreate h i
  | leaveDelete key => exact obeys_leaveDelete h key
  | listInstances ns selector => exact obeys_listInstances h ns selector
  | getWorkload key =>
    exact Cluster.roster_congr h _ (congrArg Cluster.instances (cluster_getWorkload key s))
  | updateStatus w => exact obeys_updateStatus h w
  | putWorkload _ | removeWorkload _ | setFaults _ | listWorkloads | enterCreate | enterDelete =>
    rfl

end Step

theorem sameWhere_of_obeys {s : Store} {m m' : OrderedMap Key Instance} {r : Request}
    {p : Key → Bool} (h : s.Obeys m m' r) (hr : ∀ key, r.target? = some key → p key = false) :
    m.SameWhere p m' := by
  cases r with
  | putInstance i => exact h ▸ .put m (hr _ rfl) i
  | setPhase key phase => exact h ▸ .change m (hr _ rfl) _
  | setReady key ready now => exact h ▸ .change m (hr _ rfl) _
  | leaveCreate i =>
    rcases h.1 with ⟨-, -, hput, -⟩ | ⟨-, hsame⟩
    · exact hput ▸ .put m (hr _ rfl) i
    · exact hsame ▸ .refl p m
  | leaveDelete key =>
    rcases h.1 with ⟨-, -, herase⟩ | ⟨-, hsame⟩
    · exact herase ▸ .erase m (hr _ rfl)
    · exact hsame ▸ .refl p m
  | listInstances ns selector => exact h.1 ▸ .refl p m
  | putWorkload _ | removeWorkload _ | setFaults _ | getWorkload _ | listWorkloads | enterCreate
    | enterDelete | updateStatus _ => exact h ▸ .refl p m

variable {s : Store} {rs : List Request}

theorem afterFirst_of_none {n : Nat} (h : rs[n]? = none) :
    s.afterFirst rs (n + 1) = s.afterFirst rs n := by
  have hlen := List.getElem?_eq_none_iff.mp h
  rw [afterFirst, afterFirst, List.take_of_length_le hlen,
    List.take_of_length_le (Nat.le_succ_of_le hlen)]

/-- The map of instances after the first so many requests. -/
def rosterAfter (h : s.Reachable) (rs : List Request) (n : Nat) : OrderedMap Key Instance :=
  (s.afterFirst rs n).cluster.roster (h.afterFirst rs n).sound

theorem obeys_rosterAfter (h : s.Reachable) {n : Nat} {r : Request} (hr : rs[n]? = some r) :
    (s.afterFirst rs n).Obeys (rosterAfter h rs n) (rosterAfter h rs (n + 1)) r := by
  have hstep := obeys_after (h.afterFirst rs n).sound r
  simp only [← afterFirst_succ hr] at hstep
  exact hstep

theorem sameWhere_rosterAfter (h : s.Reachable) {p : Key → Bool} {i j : Nat} (hij : i ≤ j)
    (hp : ∀ k r key, i ≤ k → k < j → rs[k]? = some r → r.target? = some key → p key = false) :
    (rosterAfter h rs i).SameWhere p (rosterAfter h rs j) := by
  induction j, hij using Nat.le_induction with
  | base => exact .refl p _
  | succ j hij ih =>
    have hbefore := ih fun k r key hik hkj => hp k r key hik (Nat.lt_succ_of_lt hkj)
    refine hbefore.trans ?_
    cases hr : rs[j]? with
    | none =>
      have hstays : rosterAfter h rs (j + 1) = rosterAfter h rs j :=
        Cluster.roster_congr _ _ (congrArg (·.cluster.instances) (afterFirst_of_none hr))
      exact hstays ▸ .refl p _
    | some r =>
      exact sameWhere_of_obeys (obeys_rosterAfter h hr) fun key =>
        hp j r key hij (Nat.lt_succ_self j) hr

/-- A store is an ordered map of instances with distinct keys, whatever is asked of it. -/
theorem refines_orderedMap (ws : List Workload) (rs : List Request) :
    ∃ m, (ofCluster (.ofWorkloads ws)).Refines rs m := by
  have reachable := Reachable.seeded ws
  refine ⟨rosterAfter reachable rs, ?_, fun n => ?_, fun n => rfl, fun n r => ?_, fun i j p => ?_⟩
  · exact roster_ofWorkloads ws _
  · exact Cluster.Sound.values_roster _
  · exact obeys_rosterAfter reachable
  · exact sameWhere_rosterAfter reachable

end Store

end ReplicaController
