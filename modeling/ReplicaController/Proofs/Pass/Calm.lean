import ReplicaController.Proofs.Pass.Footprint

/-!
# A pass in calm

In calm a pass that is not broken off reaches its batch. Then all its victims go, and it creates as
many instances as it set out to, unless an event says that a creation gave up over its names. Calm
itself lasts.
-/

namespace ReplicaController

namespace Adjustment

/-- The active count after a move of at most `most` toward the desired one. -/
def toward (active desired most : Nat) : Nat :=
  active + min (desired - active) most - min (active - desired) most

theorem toward_of_le {active desired : Nat} (h : active ≤ desired) (most : Nat) :
    toward active desired most = min (active + most) desired := by
  unfold toward
  omega

theorem toward_of_ge {active desired : Nat} (h : desired ≤ active) (most : Nat) :
    toward active desired most = max (active - most) desired := by
  unfold toward
  omega

theorem toward_zero (active desired : Nat) : toward active desired 0 = active := by
  rcases Nat.le_total active desired with h | h
  · rw [toward_of_le h]
    omega
  · rw [toward_of_ge h]
    omega

theorem toward_toward (active desired m n : Nat) :
    toward (toward active desired m) desired n = toward active desired (m + n) := by
  rcases Nat.le_total active desired with h | h
  · rw [toward_of_le h, toward_of_le h, toward_of_le (Nat.min_le_right _ _)]
    omega
  · rw [toward_of_ge h, toward_of_ge h, toward_of_ge (Nat.le_max_right _ _)]
    omega

theorem toward_eq_of_le {active desired m n : Nat} (h : toward active desired m = desired)
    (hle : m ≤ n) : toward active desired n = desired := by
  have hstep := toward_toward active desired m (n - m)
  have hself : toward desired desired (n - m) = desired := by
    rw [toward_of_le (Nat.le_refl desired)]
    omega
  rw [h, hself, Nat.add_sub_cancel' hle] at hstep
  exact hstep.symm

end Adjustment

namespace Pass

variable {σ : Type} {B : Backend σ} {view : σ → Cluster} {calm : σ → Prop} {config : PassConfig}
  {cond : Conditions} {key : Key} {w : Workload} {s : σ}

/-- The full footprint of a pass, unless one of these events says that a creation gave up. -/
def Completes (config : PassConfig) (w : Workload) (c : Cluster) (events : List Event)
    (c' : Cluster) : Prop :=
  (∀ e ∈ events, ¬e.IsNameTaken) → ∃ added,
    Footprint config w c ((victims config w c).map Instance.key) added c' ∧
      added.length = (adjustmentOf config w (c.governed w)).creates

theorem victims_eq_nil {c : Cluster} (h : (adjustmentOf config w (c.governed w)).kind ≠ .delete) :
    victims config w c = [] := by
  rw [victims, Adjustment.deletes_of_ne h, VictimPolicy.select, List.take_zero]

theorem manage_completes (grants : B.Grants view calm) (config : PassConfig) (hcalm : calm s)
    (sound : (view s).Sound) (hhalt : cond.halt = none) {stamp : Stamp}
    (hstamp : Stamp.ofWorkload w = .ok stamp) :
    ∃ error events s', manage B config cond w ((view s).governed w)
        (adjustmentOf config w ((view s).governed w)) s = (.applied error events, s') ∧
      calm s' ∧ Completes config w (view s) events (view s') := by
  unfold manage
  cases hkind : (adjustmentOf config w ((view s).governed w)).kind with
  | none =>
    have hcreates : (adjustmentOf config w ((view s).governed w)).creates = 0 :=
      Adjustment.creates_of_ne (by rw [hkind]; decide)
    have hvictims : victims config w (view s) = [] :=
      victims_eq_nil (by rw [hkind]; decide)
    refine ⟨none, [], s, rfl, hcalm, fun _ => ⟨[], ?_, hcreates.symm⟩⟩
    rw [hvictims]
    exact .nothing config w sound
  | create =>
    have hcreates := Adjustment.creates_of_create hkind
    have hvictims : victims config w (view s) = [] :=
      victims_eq_nil (by rw [hkind]; decide)
    dsimp only
    rw [hstamp]
    obtain ⟨error, hbatch⟩ := runBatch_of_halt_none (B := B) hhalt .create
      (.replicate (adjustmentOf config w ((view s).governed w)).amount (.create stamp)) s
    obtain ⟨hcalm', hadded⟩ := Batch.finish_creations_calm grants hcalm sound stamp
      (adjustmentOf config w ((view s).governed w)).amount cond.plan
    refine ⟨error, _, _, hbatch, hcalm', ?_⟩
    intro hnames
    obtain ⟨hsound, added, hview, hlength, hbuilt⟩ := hadded hnames
    rw [← hcreates] at hlength
    refine ⟨added, ?_, hlength⟩
    rw [hvictims]
    refine ⟨List.nil_sublist _, Nat.le_of_eq hlength, ?_, hsound, ?_⟩
    · intro i hi
      obtain ⟨d, hd⟩ := hbuilt i hi
      exact ⟨stamp, d, hstamp, hd⟩
    · rw [List.map_nil, Cluster.without_nil, ← hview]
      exact .refl w.key _
  | delete =>
    have hcreates : (adjustmentOf config w ((view s).governed w)).creates = 0 :=
      Adjustment.creates_of_ne (by rw [hkind]; decide)
    dsimp only
    rw [select_amount hkind, map_delete_key]
    obtain ⟨error, hbatch⟩ := runBatch_of_halt_none (B := B) hhalt .delete
      (((victims config w (view s)).map Instance.key).map .delete) s
    obtain ⟨hcalm', hview⟩ := Batch.finish_deletions_calm grants hcalm (nodup_victims sound)
      hasInstance_victims cond.plan
    refine ⟨error, _, _, hbatch, hcalm', fun _ => ⟨[], ?_, hcreates.symm⟩⟩
    refine ⟨.refl _, Nat.zero_le _, by simp, hview ▸ sound.without _, ?_⟩
    rw [Cluster.grow_nil, ← hview]
    exact .refl w.key _

theorem Completes.written {c c' c'' : Cluster} {events : List Event}
    (h : Completes config w c events c') (h' : c'.SameBut w.key c'') :
    Completes config w c events c'' := by
  intro hnames
  obtain ⟨added, hfoot, hlength⟩ := h hnames
  exact ⟨added, hfoot.written h', hlength⟩

theorem act_completes (grants : B.Grants view calm) (hcalm : calm s) (sound : (view s).Sound)
    (hhalt : cond.halt = none) {stamp : Stamp} (hstamp : Stamp.ofWorkload w = .ok stamp)
    {selector : Selector} (hparse : w.spec.selector.parse = .ok selector) (key : Key) :
    let r := act B config cond key w selector ((view s).list w.ns selector) s
    calm r.2 ∧ Completes config w (view s) r.1.events (view r.2) := by
  obtain ⟨error, events, s', hmanage, hcalm', hcompletes⟩ :=
    manage_completes grants config hcalm sound hhalt hstamp
  obtain ⟨hevents, -⟩ := conclude_fst B key w selector
    (adjustmentOf config w ((view s).governed w)) ((view s).governed w) error events s'
  unfold act
  rw [Cluster.activeOwned_list _ hparse]
  dsimp only
  rw [hmanage]
  dsimp only
  rw [hevents]
  constructor
  · exact conclude_keeps (keeps_calm grants w.key) hcalm'
  · apply hcompletes.written
    exact conclude_keeps (keeps_sameBut grants.toServes w.key (view s')) (.refl w.key _)

theorem run_eq_act (grants : B.Grants view calm) (config : PassConfig) (cond : Conditions)
    (hcalm : calm s) (hw : (view s).workload? key = some w) {selector : Selector}
    (hparse : w.spec.selector.parse = .ok selector) :
    ∃ s', calm s' ∧ view s' = view s ∧ run B config cond key s =
      act B config cond key w selector ((view s).list w.ns selector) s' := by
  have hget := (grants.getWorkload key s).1
  have hfound := grants.gets key s w hcalm hw
  have hcalm₁ := grants.calm_getWorkload key s hcalm
  unfold run
  generalize B.getWorkload key s = r at hget hfound hcalm₁
  obtain ⟨answer, s₁⟩ := r
  dsimp only at hget hfound hcalm₁
  have hlist := (grants.listInstances w.ns selector s₁).1
  have hlisted := grants.lists w.ns selector s₁ hcalm₁
  have hcalm₂ := grants.calm_listInstances w.ns selector s₁ hcalm₁
  rw [hfound]
  dsimp only
  rw [hparse]
  dsimp only
  generalize B.listInstances w.ns selector s₁ = r at hlist hlisted hcalm₂
  obtain ⟨answer, s₂⟩ := r
  dsimp only at hlist hlisted hcalm₂
  refine ⟨s₂, hcalm₂, hlist.trans hget, ?_⟩
  rw [hlisted, hget]

theorem run_completes (grants : B.Grants view calm) (config : PassConfig) (cond : Conditions)
    (hcalm : calm s) (sound : (view s).Sound) (hhalt : cond.halt = none)
    (hw : (view s).workload? key = some w) (regular : w.Regular) :
    let r := run B config cond key s
    calm r.2 ∧ Completes config w (view s) r.1.events (view r.2) := by
  obtain ⟨stamp, hstamp⟩ := Stamp.ofWorkload_isOk regular
  obtain ⟨selector, hparse⟩ := regular.exists_parse
  obtain ⟨s', hcalm', hview, hrun⟩ := run_eq_act grants config cond hcalm hw hparse
  intro r
  have hr : r = act B config cond key w selector ((view s).list w.ns selector) s' := hrun
  rw [hr, ← hview]
  exact act_completes grants hcalm' (hview ▸ sound) hhalt hstamp hparse key

/-- A pass moves the governed count toward the desired one, by the burst at most. -/
theorem Completes.length_governed {c c' : Cluster} {events : List Event}
    (h : Completes config w c events c') (sound : c.Sound) (regular : w.Regular)
    (hnames : ∀ e ∈ events, ¬e.IsNameTaken) :
    (c'.governed w).length =
      Adjustment.toward (c.governed w).length w.spec.replicas.toNat config.burst := by
  obtain ⟨added, hfoot, hadded⟩ := h hnames
  have hlength := hfoot.length_governed sound regular.selects
  have hvictims := VictimPolicy.length_select config.policy (c.governed w)
    (adjustmentOf config w (c.governed w)).deletes
  rw [List.length_map, victims, hvictims] at hlength
  rw [adjustmentOf_of_live regular.isBeingDeleted, Adjustment.creates_between] at hadded
  rw [adjustmentOf_of_live regular.isBeingDeleted, Adjustment.deletes_between] at hlength
  unfold Adjustment.toward
  omega

end Pass

end ReplicaController
