import ReplicaController.Proofs.Pass.Turns
import ReplicaController.Proofs.Specimen

/-!
# The survivors of a scale-down

Passes over a workload with too many instances only ever remove some of those that go before the
last, as many as it asks for. The order of what is left is that of the first list, so the last stay
the last, whichever deletions fail and however many a pass may make. When no more are left than the
workload asks for, they are the same ones in every run.
-/

namespace ReplicaController

namespace World

/-- What the workload governs now was governed before, and none of the last is missing. -/
structure Draining (policy : VictimPolicy) (w : Workload) (before : List Instance) (c : Cluster) :
    Prop where
  sound : c.Sound
  stored : ∃ v, c.workload? w.key = some v ∧ w.Agrees v
  left : ∃ keep, c.governed w = before.filter keep ∧
    ∀ i ∈ policy.last before w.spec.replicas.toNat, keep i = true

variable {policy : VictimPolicy} {w v : Workload} {before : List Instance} {c c' : Cluster}
  {config : PassConfig} {removed : List Key} {added : List Instance}

theorem Draining.start (sound : c.Sound) (hw : c.workload? w.key = some w) :
    Draining policy w (c.governed w) c :=
  ⟨sound, ⟨w, hw, .refl w⟩, fun _ => true, by simp, fun _ _ => rfl⟩

theorem Draining.last_governed (h : Draining policy w before c)
    (hle : w.spec.replicas.toNat ≤ before.length) :
    policy.last (c.governed w) w.spec.replicas.toNat =
      policy.last before w.spec.replicas.toNat := by
  obtain ⟨keep, hleft, hkeep⟩ := h.left
  rw [hleft]
  exact VictimPolicy.last_filter hle hkeep

theorem Draining.le_length (h : Draining policy w before c)
    (hle : w.spec.replicas.toNat ≤ before.length) :
    w.spec.replicas.toNat ≤ (c.governed w).length := by
  have hlast := congrArg List.length (h.last_governed hle)
  rw [VictimPolicy.length_last hle, VictimPolicy.last, List.length_drop,
    (policy.order_perm _).length_eq] at hlast
  omega

theorem Draining.pass (hle : w.spec.replicas.toNat ≤ before.length)
    (hpolicy : config.policy = policy) (hv : w.Agrees v) (h : Draining policy w before c)
    (hfoot : Pass.Footprint config v c removed added c') : Draining policy w before c' := by
  have henough := h.le_length hle
  have hgoverned : c.governed v = c.governed w := Cluster.governed_congr c hv
  have hadded : added = [] := by
    have hlength := hfoot.added_length_le
    have hcreates := Pass.creates_adjustmentOf_le config v (c.governed v)
    rw [hgoverned, hv.spec] at hcreates
    rw [hgoverned] at hlength
    apply List.eq_nil_of_length_eq_zero
    omega
  have hspared : ∀ i ∈ policy.last before w.spec.replicas.toNat, i.key ∉ removed := by
    intro i hi hk
    rw [← h.last_governed hle] at hi
    obtain ⟨j, hj, hkey⟩ := List.mem_map.mp (hfoot.removed_sublist.subset hk)
    have hdeletes := Pass.deletes_adjustmentOf_le config v (c.governed v)
    rw [Pass.victims, hgoverned, hpolicy] at hj
    rw [hgoverned, hv.spec] at hdeletes
    have hnodup : ((c.governed w).map Instance.key).Nodup := h.sound.nodup_filter w.governs
    exact VictimPolicy.key_ne_of_last hnodup (by omega) hj hi hkey
  obtain ⟨keep, hleft, hkeep⟩ := h.left
  refine ⟨hfoot.sound, hfoot.agrees.exists_agreeing h.stored,
    fun i => !removed.contains i.key && keep i, ?_, ?_⟩
  · have hafter := hfoot.governed_eq
    rw [hgoverned, hadded, hleft, List.filter_filter, List.filter_nil, List.append_nil] at hafter
    rw [← Cluster.governed_congr c' hv, hafter]
  · intro i hi
    simp [hspared i hi, hkeep i hi]

theorem Draining.turn {s : World} {t : Turn} (hle : w.spec.replicas.toNat ≤ before.length)
    (hkey : t.key = w.key) (hpolicy : t.config.policy = policy)
    (h : Draining policy w before s.cluster) : Draining policy w before (s.turn t).cluster := by
  obtain ⟨v, hv, hwv⟩ := h.stored
  rw [← hkey] at hv
  obtain ⟨removed, added, hfoot⟩ := turn_footprint h.sound hv
  exact h.pass hle hpolicy hwv hfoot

/-- Every run of passes over a workload with too many instances spares the last ones in the order
of the policy, and once only so many are left it is those, in the order in which they stood. -/
theorem turns_spare_last {s : World} (reachable : s.store.Reachable) {w : Workload}
    (hw : s.cluster.workload? w.key = some w) (policy : VictimPolicy)
    (hmany : w.spec.replicas.toNat < (s.cluster.governed w).length) (ts : List Turn)
    (hts : ∀ t ∈ ts, t.key = w.key ∧ t.config.policy = policy) :
    let before := s.cluster.governed w
    let after := (s.turns ts).cluster.governed w
    let last := (policy.order before).drop (before.length - w.spec.replicas.toNat)
    (∀ i ∈ last, i ∈ after) ∧
      (after.length = w.spec.replicas.toNat →
        after = before.filter fun i => (last.map Instance.key).contains i.key) := by
  intro before after last
  have hle : w.spec.replicas.toNat ≤ before.length := Nat.le_of_lt hmany
  have hrun : Draining policy w before (s.turns ts).cluster := by
    apply turns_induction (P := fun r => Draining policy w before r.cluster)
    · exact fun t ht r h => h.turn hle (hts t ht).1 (hts t ht).2
    · exact .start reachable.sound hw
  obtain ⟨keep, hleft, hkeep⟩ := hrun.left
  have hafter : after = before.filter keep := hleft
  constructor
  · intro i hi
    rw [hafter]
    exact List.mem_filter.mpr ⟨VictimPolicy.mem_of_mem_last hi, hkeep i hi⟩
  · intro hlength
    have hnodup : (before.map Instance.key).Nodup := reachable.sound.nodup_filter w.governs
    rw [hafter] at hlength ⊢
    exact VictimPolicy.filter_eq_last hnodup hle hkeep hlength

/-- Three instances are too many for one, and the first deletion of one of them fails. -/
theorem turns_spare_last_crowd :
    let w := Specimen.plain "web" 0 1
    let store := Specimen.crowd w ["a", "b", "c"]
    let s := Specimen.world store
    let ts : List Turn := [
      ⟨w.key, ⟨2, .observed⟩, .lockstep, { Faults.none with failingDeletes := ["a"] }⟩,
      ⟨w.key, ⟨1, .observed⟩, .inOrder, .none⟩]
    let before := s.cluster.governed w
    let after := (s.turns ts).cluster.governed w
    let last := (VictimPolicy.observed.order before).drop (before.length - w.spec.replicas.toNat)
    store.Reachable ∧ s.cluster.workload? w.key = some w ∧
      w.spec.replicas.toNat < before.length ∧
      (∀ t ∈ ts, t.key = w.key ∧ t.config.policy = .observed) ∧
      (∀ i ∈ last, i ∈ after) ∧ after.length = w.spec.replicas.toNat ∧
      after = before.filter fun i => (last.map Instance.key).contains i.key := by
  intro w store s ts before after last
  have reachable := Specimen.reachable_crowd w ["a", "b", "c"]
  have hw : s.cluster.workload? w.key = some w := Specimen.workload?_crowd w ["a", "b", "c"]
  have hmany : w.spec.replicas.toNat < before.length := by decide +kernel
  have hts : ∀ t ∈ ts, t.key = w.key ∧ t.config.policy = .observed := by simp [ts]
  have hlength : after.length = w.spec.replicas.toNat := by decide +kernel
  obtain ⟨hspared, hexact⟩ := turns_spare_last (s := s) reachable hw .observed hmany ts hts
  exact ⟨reachable, hw, hmany, hts, hspared, hlength, hexact hlength⟩

end World

end ReplicaController
