import Mathlib.Data.List.Permutation
import ReplicaController.Controller
import ReplicaController.Proofs.Pass.Calm
import ReplicaController.Proofs.Specimen
import ReplicaController.Proofs.Worker.Visits

/-!
# Convergence of the controller

In calm each pass of a resync moves the governed count of its own workload toward the desired one,
by the burst at most, and leaves what all others govern alone. A resync passes over every workload
once, so after `k` resyncs each count has moved by `k` bursts at most. Once it has arrived, passes
over its workload neither create nor delete.
-/

namespace ReplicaController

/-- Every workload can be brought to its desired count, and no two share a uid. -/
structure Cluster.Orderly (c : Cluster) : Prop where
  regular : ∀ key w, c.workload? key = some w → w.Regular
  eq_of_uid : ∀ key l w v, c.workload? key = some w → c.workload? l = some v →
    w.uid = v.uid → key = l

namespace Controller

variable {σ : Type}

/-- The duty of a controller whose batches interleave as `plan` says. -/
def dutyBy (B : Backend σ) (config : PassConfig) (plan : Key → Journal σ → Batch.Schedule) :
    Worker.Duty (Journal σ) where
  list := (duty B config).list
  pass key j :=
    let (ending, state) := Pass.run B config ⟨plan key j, none⟩ key j.state
    (.ended ending.result, ⟨state, j.events ++ ending.events⟩)

/-- A calm state whose workloads are those of `c`, but for status and version. -/
structure Steady (view : σ → Cluster) (calm : σ → Prop) (c : Cluster) (s : σ) : Prop where
  calm : calm s
  sound : (view s).Sound
  agrees : c.Agrees (view s)

section Moves

variable {B : Backend σ} {view : σ → Cluster} {calm : σ → Prop} {c : Cluster}
  (grants : B.Grants view calm) (config : PassConfig) (plan : Key → Journal σ → Batch.Schedule)
  (orderly : c.Orderly) {key : Key} {u : Workload} {j : Journal σ} {s : Worker.State (Journal σ)}

theorem exists_of_mem_sortedKeys (steady : Steady view calm c s.inner.state) :
    ∀ key ∈ Worker.sortedKeys (view s.inner.state).workloads.values,
      ∃ u, c.workload? key = some u := by
  intro key hkey
  obtain ⟨w, hw⟩ := steady.sound.mem_sortedKeys_iff.mp hkey
  obtain ⟨u, hu, -⟩ := steady.agrees.exists_of_some_right hw
  exact ⟨u, hu⟩

include grants

/-- A calm resync is a round over the stored workloads, from a state that looks the same. -/
theorem exists_resync (steady : Steady view calm c s.inner.state) :
    let keys := Worker.sortedKeys (view s.inner.state).workloads.values
    ∃ s₁ : Worker.State (Journal σ), Steady view calm c s₁.inner.state ∧
      view s₁.inner.state = view s.inner.state ∧ s₁.inner.events = s.inner.events ∧
      Worker.resync (dutyBy B config plan) s =
        Worker.round (dutyBy B config plan) keys Worker.noPasses s₁ ∧
      Worker.resyncVisits (dutyBy B config plan) s =
        Worker.visits (dutyBy B config plan) keys s₁ := by
  intro keys
  have hview := (grants.listWorkloads s.inner.state).1
  have hlist : (dutyBy B config plan).list s.inner = (.ok (view s.inner.state).workloads.values,
      ⟨(B.listWorkloads s.inner.state).2, s.inner.events⟩) := by
    rw [← grants.listsWorkloads s.inner.state steady.calm]
    rfl
  obtain ⟨hresync, hvisits⟩ := Worker.resync_of_list hlist
  refine ⟨_, ?_, ?_, ?_, hresync, hvisits⟩
  · exact ⟨grants.calm_listWorkloads s.inner.state steady.calm, hview ▸ steady.sound,
    hview ▸ steady.agrees⟩
  · exact hview
  · rfl

theorem pass_footprint (steady : Steady view calm c j.state) (hu : c.workload? key = some u) :
    ∃ w, (view j.state).workload? key = some w ∧ u.Agrees w ∧ ∃ removed added,
      Pass.Footprint config w (view j.state) removed added
        (view ((dutyBy B config plan).pass key j).2.state) := by
  obtain ⟨w, hw, huw⟩ := steady.agrees.exists_of_some hu
  exact ⟨w, hw, huw, Pass.run_footprint grants.toServes config ⟨plan key j, none⟩ steady.sound hw⟩

include orderly

theorem pass_steady (steady : Steady view calm c j.state) (hu : c.workload? key = some u) :
    ((dutyBy B config plan).pass key j).1.IsDone ∧
      Steady view calm c ((dutyBy B config plan).pass key j).2.state := by
  obtain ⟨w, hw, huw, removed, added, hfoot⟩ := pass_footprint grants config plan steady hu
  obtain ⟨hcalm, -⟩ := Pass.run_completes grants config ⟨plan key j, none⟩ steady.calm
    steady.sound rfl hw (huw.regular (orderly.regular key u hu))
  have hdone : ((dutyBy B config plan).pass key j).1.IsDone :=
    ⟨_, rfl, Pass.run_ne_cancelled B config rfl key j.state⟩
  exact ⟨hdone, hcalm, hfoot.sound, steady.agrees.trans hfoot.agrees⟩

theorem governed_pass_of_ne (steady : Steady view calm c j.state)
    (hu : c.workload? key = some u) {l : Key} {v : Workload} (hv : c.workload? l = some v)
    (hne : l ≠ key) :
    (view ((dutyBy B config plan).pass key j).2.state).governed v =
      (view j.state).governed v := by
  obtain ⟨w, -, huw, removed, added, hfoot⟩ := pass_footprint grants config plan steady hu
  apply hfoot.governed_eq_of_ne steady.sound
  rw [huw.uid]
  exact fun huid => hne (orderly.eq_of_uid l key v u hv hu huid)

theorem length_governed_pass (steady : Steady view calm c j.state)
    (hu : c.workload? key = some u)
    (hnames : ∀ e ∈ ((dutyBy B config plan).pass key j).2.events, ¬e.IsNameTaken) :
    ((view ((dutyBy B config plan).pass key j).2.state).governed u).length =
      Adjustment.toward ((view j.state).governed u).length u.spec.replicas.toNat config.burst := by
  obtain ⟨w, hw, huw⟩ := steady.agrees.exists_of_some hu
  have regular := huw.regular (orderly.regular key u hu)
  obtain ⟨-, hcompletes⟩ := Pass.run_completes grants config ⟨plan key j, none⟩ steady.calm
    steady.sound rfl hw regular
  have hlength := hcompletes.length_governed steady.sound regular
    fun e he => hnames e (List.mem_append_right _ he)
  rw [Cluster.governed_congr _ huw, Cluster.governed_congr _ huw, huw.spec] at hlength
  exact hlength

theorem pass_keeps (steady : Steady view calm c j.state) (hu : c.workload? key = some u)
    (hat : ((view j.state).governed u).length = u.spec.replicas.toNat) {P : σ → Prop}
    (keeps : Pass.Keeps B u.key P) (h : P j.state) :
    P ((dutyBy B config plan).pass key j).2.state := by
  obtain ⟨w, hw, huw⟩ := steady.agrees.exists_of_some hu
  have regular := huw.regular (orderly.regular key u hu)
  apply Pass.run_keeps grants.toServes hw _ (huw.key ▸ keeps) h
  rw [Pass.adjustmentOf_of_live regular.isBeingDeleted, Cluster.governed_congr _ huw, huw.spec]
  exact Adjustment.between_eq_nothing_iff.mpr hat

/-- A round keeps calm, forgets no event, and moves the counts of the keys that it visits. -/
theorem round_moves {keys : List Key}
    (hkeys : ∀ key ∈ keys, ∃ u, c.workload? key = some u) (hnodup : keys.Nodup)
    (steady : Steady view calm c s.inner.state) (tally : RoundTally) :
    let s' := (Worker.round (dutyBy B config plan) keys tally s).2
    Steady view calm c s'.inner.state ∧ (∀ e ∈ s.inner.events, e ∈ s'.inner.events) ∧
      ∀ l v, c.workload? l = some v →
        (l ∉ keys → (view s'.inner.state).governed v = (view s.inner.state).governed v) ∧
        (l ∈ keys → (∀ e ∈ s'.inner.events, ¬e.IsNameTaken) →
          ((view s'.inner.state).governed v).length =
            Adjustment.toward ((view s.inner.state).governed v).length v.spec.replicas.toNat
              config.burst) := by
  induction keys generalizing s tally with
  | nil => exact ⟨steady, fun _ h => h, fun _ _ _ => ⟨fun _ => rfl, fun h => nomatch h⟩⟩
  | cons key keys ih =>
    obtain ⟨hfresh, hnodup'⟩ := List.nodup_cons.mp hnodup
    obtain ⟨u, hu⟩ := hkeys key List.mem_cons_self
    obtain ⟨hdone, steady₁⟩ := pass_steady grants config plan orderly steady hu
    have hinner := Worker.inner_trigger (dutyBy B config plan) key s
    obtain ⟨tally', hround⟩ := Worker.round_cons hdone keys tally
    intro s'
    have hs' : s' = (Worker.round (dutyBy B config plan) keys tally'
      (Worker.trigger (dutyBy B config plan) key s).2).2 := congrArg Prod.snd hround
    obtain ⟨steady', hevents, hcounts⟩ :=
      ih (s := (Worker.trigger (dutyBy B config plan) key s).2)
        (fun l hl => hkeys l (List.mem_cons_of_mem key hl)) hnodup' (hinner ▸ steady₁) tally'
    rw [← hs'] at steady' hevents hcounts
    rw [hinner] at hevents hcounts
    refine ⟨steady', fun e he => hevents e (List.mem_append_left _ he), ?_⟩
    intro l v hv
    obtain ⟨hout, hin⟩ := hcounts l v hv
    by_cases hl : l = key
    · subst hl
      have huv : u = v := Option.some.inj (hu.symm.trans hv)
      subst huv
      refine ⟨fun h => absurd List.mem_cons_self h, fun _ hnames => ?_⟩
      rw [hout hfresh]
      exact length_governed_pass grants config plan orderly steady hu
        fun e he => hnames e (hevents e he)
    · have hpass := governed_pass_of_ne grants config plan orderly steady hu hv hl
      constructor
      · intro hnot
        rw [hout fun h => hnot (List.mem_cons_of_mem key h)]
        exact hpass
      · intro hmem hnames
        have htail : l ∈ keys := by
          rcases List.mem_cons.mp hmem with h | h
          · exact absurd h hl
          · exact h
        rw [hin htail hnames]
        exact congrArg (fun is => Adjustment.toward is.length v.spec.replicas.toNat config.burst)
          hpass

theorem visit_steady {keys : List Key}
    (hkeys : ∀ key ∈ keys, ∃ u, c.workload? key = some u) (hnodup : keys.Nodup)
    (steady : Steady view calm c s.inner.state) {x : Worker.Visit (Journal σ)}
    (hx : x ∈ Worker.visits (dutyBy B config plan) keys s) :
    x.after = (Worker.trigger (dutyBy B config plan) x.key x.before).2 ∧
      Steady view calm c x.before.inner.state ∧
      ∀ u, c.workload? x.key = some u →
        (view x.before.inner.state).governed u = (view s.inner.state).governed u := by
  induction keys generalizing s with
  | nil => exact nomatch hx
  | cons key keys ih =>
    obtain ⟨hfresh, hnodup'⟩ := List.nodup_cons.mp hnodup
    obtain ⟨u, hu⟩ := hkeys key List.mem_cons_self
    obtain ⟨hdone, steady₁⟩ := pass_steady grants config plan orderly steady hu
    have hinner := Worker.inner_trigger (dutyBy B config plan) key s
    rw [Worker.visits_cons hdone] at hx
    rcases List.mem_cons.mp hx with rfl | hx
    · exact ⟨rfl, steady, fun _ _ => rfl⟩
    · obtain ⟨hafter, hbefore, hsame⟩ :=
        ih (fun l hl => hkeys l (List.mem_cons_of_mem key hl)) hnodup' (hinner ▸ steady₁) hx
      rw [hinner] at hsame
      refine ⟨hafter, hbefore, fun v hv => (hsame v hv).trans ?_⟩
      have hne : x.key ≠ key := fun h => hfresh (h ▸ Worker.key_mem_of_mem_visits hx)
      exact governed_pass_of_ne grants config plan orderly steady hu hv hne

theorem resync_moves (steady : Steady view calm c s.inner.state) :
    let s' := (Worker.resync (dutyBy B config plan) s).2
    Steady view calm c s'.inner.state ∧ (∀ e ∈ s.inner.events, e ∈ s'.inner.events) ∧
      ∀ key u, c.workload? key = some u → (∀ e ∈ s'.inner.events, ¬e.IsNameTaken) →
        ((view s'.inner.state).governed u).length =
          Adjustment.toward ((view s.inner.state).governed u).length u.spec.replicas.toNat
            config.burst := by
  obtain ⟨s₁, steady₁, hview, hevents, hresync, -⟩ := exists_resync grants config plan steady
  have hround := round_moves grants config plan orderly
    (exists_of_mem_sortedKeys steady) steady.sound.nodup_sortedKeys steady₁ Worker.noPasses
  rw [← hresync, hview, hevents] at hround
  obtain ⟨steady', hkept, hcounts⟩ := hround
  refine ⟨steady', hkept, ?_⟩
  intro key u hu
  obtain ⟨w, hw, -⟩ := steady.agrees.exists_of_some hu
  exact (hcounts key u hu).2 (steady.sound.mem_sortedKeys_iff.mpr ⟨w, hw⟩)

theorem resyncs_move (steady : Steady view calm c s.inner.state) (k : Nat) :
    let s' := Worker.resyncs (dutyBy B config plan) k s
    Steady view calm c s'.inner.state ∧
      ((∀ e ∈ s'.inner.events, ¬e.IsNameTaken) → ∀ key u, c.workload? key = some u →
        ((view s'.inner.state).governed u).length =
          Adjustment.toward ((view s.inner.state).governed u).length u.spec.replicas.toNat
            (k * config.burst)) := by
  induction k with
  | zero =>
    refine ⟨steady, fun _ key u _ => ?_⟩
    rw [Nat.zero_mul, Adjustment.toward_zero]
    rfl
  | succ k ih =>
    obtain ⟨steady₁, hcounts₁⟩ := ih
    obtain ⟨steady', hkept, hcounts⟩ := resync_moves grants config plan orderly steady₁
    refine ⟨steady', fun hnames key u hu => ?_⟩
    have hbefore := hcounts₁ (fun e he => hnames e (hkept e he)) key u hu
    have hafter := hcounts key u hu hnames
    rw [hbefore, Adjustment.toward_toward, ← Nat.succ_mul] at hafter
    exact hafter

theorem events_resyncs_subset (steady : Steady view calm c s.inner.state)
    {i k : Nat} (hle : i ≤ k) :
    ∀ e ∈ (Worker.resyncs (dutyBy B config plan) i s).inner.events,
      e ∈ (Worker.resyncs (dutyBy B config plan) k s).inner.events := by
  induction k with
  | zero =>
    obtain rfl : i = 0 := by omega
    exact fun e he => he
  | succ k ih =>
    by_cases hi : i = k + 1
    · subst hi
      exact fun e he => he
    · obtain ⟨steady₁, -⟩ := resyncs_move grants config plan orderly steady k
      obtain ⟨-, hkept, -⟩ := resync_moves grants config plan orderly steady₁
      intro e he
      exact hkept e (ih (by omega) e he)

theorem resyncVisit_keeps (steady : Steady view calm c s.inner.state)
    {x : Worker.Visit (Journal σ)} (hx : x ∈ Worker.resyncVisits (dutyBy B config plan) s)
    (hu : c.workload? x.key = some u)
    (hat : ((view s.inner.state).governed u).length = u.spec.replicas.toNat) {P : σ → Prop}
    (keeps : Pass.Keeps B u.key P) (h : P x.before.inner.state) : P x.after.inner.state := by
  obtain ⟨s₁, steady₁, hview, -, -, hvisits⟩ := exists_resync grants config plan steady
  rw [hvisits] at hx
  obtain ⟨hafter, hbefore, hsame⟩ := visit_steady grants config plan orderly
    (exists_of_mem_sortedKeys steady) steady.sound.nodup_sortedKeys steady₁ hx
  rw [← hview, ← hsame u hu] at hat
  rw [hafter, Worker.inner_trigger]
  exact pass_keeps grants config plan orderly hbefore hu hat keeps h

end Moves

/-- The creations and deletions that have been asked of the store. -/
def mutations (s : World) : Nat × Nat := (s.store.tally.creates, s.store.tally.deletes)

theorem keeps_mutations (deny : World → Option StoreError) (key : Key) (n : Nat × Nat) :
    Pass.Keeps (World.denying deny) key fun s => mutations s = n where
  getWorkload k s h := by
    have hs : ((World.denying deny).getWorkload k s).2.store.tally =
        { s.store.tally with gets := s.store.tally.gets + 1 } :=
      congrArg Store.tally (Store.getWorkload_snd k s.store)
    rw [mutations, hs]
    exact h
  listInstances ns selector s h := by
    have hs : ((World.denying deny).listInstances ns selector s).2.store.tally =
        { s.store.tally with lists := s.store.tally.lists + 1 } :=
      congrArg Store.tally (Store.listInstances_snd ns selector s.store)
    rw [mutations, hs]
    exact h
  updateStatus w s _ h := by
    have hs : ((World.denying deny).updateStatus w s).2.store.tally =
        { s.store.tally with statusUpdates := s.store.tally.statusUpdates + 1 } :=
      Store.tally_updateStatus w (s.planWriteFault (deny s)).store
    rw [mutations, hs]
    exact h
  now s h := h

/-- After `k` resyncs of a calm store every count has moved by `k` bursts at most, whichever status
writes fail and however batches interleave. At the desired count it causes no more calls. -/
theorem resyncs_converge (deny : World → Option StoreError) (config : PassConfig)
    (plan : Key → Journal World → Batch.Schedule) (pace : WorkerPace) (clock : Nat → Span)
    {s : World} (reachable : s.store.Reachable) (calm : s.Calm) (orderly : s.cluster.Orderly)
    (k : Nat) :
    let duty := dutyBy (World.denying deny) config plan
    let after i := Worker.resyncs duty i (start pace clock s)
    (∀ e ∈ (after k).inner.events, ¬e.IsNameTaken) →
      ∀ key w, s.cluster.workload? key = some w →
        let active i := ((after i).inner.state.cluster.governed w).length
        active k = active 0 + min (w.spec.replicas.toNat - active 0) (k * config.burst) -
            min (active 0 - w.spec.replicas.toNat) (k * config.burst) ∧
          ∀ i ≤ k, active i = w.spec.replicas.toNat →
            ∀ x ∈ Worker.resyncVisits duty (after k), x.key = key →
              mutations x.after.inner.state = mutations x.before.inner.state := by
  intro duty after hnames key w hw active
  have grants := World.denying_grants deny
  have steady : Steady World.cluster World.Calm s.cluster (start pace clock s).inner.state :=
    ⟨calm, reachable.sound, .refl _⟩
  have hmoved : ∀ i ≤ k, active i =
      Adjustment.toward (active 0) w.spec.replicas.toNat (i * config.burst) := by
    intro i hi
    have hkept := events_resyncs_subset grants config plan orderly steady hi
    exact (resyncs_move grants config plan orderly steady i).2
      (fun e he => hnames e (hkept e he)) key w hw
  refine ⟨hmoved k (Nat.le_refl k), ?_⟩
  intro i hi hat x hx hkey
  have hmul : i * config.burst ≤ k * config.burst := Nat.mul_le_mul_right _ hi
  have hstill : active k = w.spec.replicas.toNat := by
    rw [hmoved k (Nat.le_refl k)]
    rw [hmoved i hi] at hat
    exact Adjustment.toward_eq_of_le hat hmul
  have steady' := (resyncs_move grants config plan orderly steady k).1
  exact resyncVisit_keeps grants config plan orderly steady' hx (hkey.symm ▸ hw) hstill
    (keeps_mutations deny w.key _) rfl

/-- Every second status write fails. -/
def denyEven (s : World) : Option StoreError :=
  if s.store.tally.statusUpdates % 2 = 0 then some (.unavailable "down") else none

/-- One workload with two instances too many and one with three too few, after some resyncs. -/
def pairAfter (k : Nat) : Worker.State (Journal World) :=
  Worker.resyncs (dutyBy (World.denying denyEven) ⟨2, .observed⟩ fun _ _ => .lockstep)
    k (start Worker.defaultPace .ofSecs (Specimen.world (Specimen.pair (Specimen.plain "job" 1 1)
      (Specimen.plain "web" 0 3) ["a", "b", "c"])))

/-- Two resyncs bring both workloads to their desired counts, and the next one leaves them alone. -/
theorem resyncs_converge_pair :
    let job := Specimen.plain "job" 1 1
    let web := Specimen.plain "web" 0 3
    let store := Specimen.pair job web ["a", "b", "c"]
    let s := Specimen.world store
    let duty := dutyBy (World.denying denyEven) ⟨2, .observed⟩ fun _ _ => .lockstep
    store.Reachable ∧ s.Calm ∧ s.cluster.Orderly ∧
      (∀ e ∈ (pairAfter 2).inner.events, ¬e.IsNameTaken) ∧
      s.cluster.workload? web.key = some web ∧
      ((pairAfter 2).inner.state.cluster.governed web).length = 3 ∧
      ∀ x ∈ Worker.resyncVisits duty (pairAfter 2), x.key = web.key →
        mutations x.after.inner.state = mutations x.before.inner.state := by
  intro job web store s duty
  have reachable := Specimen.reachable_pair job web ["a", "b", "c"]
  have calm : s.Calm := ⟨rfl, rfl, rfl, rfl, rfl, rfl⟩
  have hne : job.key ≠ web.key := by decide
  have hstored := @Specimen.workload?_pair job web hne ["a", "b", "c"]
  have orderly : s.cluster.Orderly := by
    constructor
    · intro key w hw
      rcases hstored.mp hw with ⟨-, rfl⟩ | ⟨-, rfl⟩
      · exact Specimen.regular_plain (by decide) (by decide)
      · exact Specimen.regular_plain (by decide) (by decide)
    · intro key l w v hw hv huid
      rcases hstored.mp hw with ⟨hk, rfl⟩ | ⟨hk, rfl⟩
      · rcases hstored.mp hv with ⟨hl, -⟩ | ⟨-, rfl⟩
        · rw [hk, hl]
        · exact absurd huid (by decide)
      · rcases hstored.mp hv with ⟨-, rfl⟩ | ⟨hl, -⟩
        · exact absurd huid (by decide)
        · rw [hk, hl]
  have hnames : ∀ e ∈ (pairAfter 2).inner.events, ¬e.IsNameTaken := by
    have hreasons : (pairAfter 2).inner.events.map Event.reason = [.successfulDelete,
        .successfulDelete, .successfulCreate, .successfulCreate, .successfulCreate] := by cbv
    rintro e he ⟨key, rfl⟩
    have hmem : Reason.failedCreate ∈ (pairAfter 2).inner.events.map Event.reason :=
      List.mem_map_of_mem he
    rw [hreasons] at hmem
    exact absurd hmem (by decide)
  have hweb : s.cluster.workload? web.key = some web := hstored.mpr (.inr ⟨rfl, rfl⟩)
  obtain ⟨hcount, hquiet⟩ := resyncs_converge denyEven ⟨2, .observed⟩ (fun _ _ => .lockstep)
    Worker.defaultPace .ofSecs reachable calm orderly 2 hnames web.key web hweb
  have hnone : (s.cluster.governed web).length = 0 := by decide +kernel
  have hthree : ((pairAfter 2).inner.state.cluster.governed web).length = 3 := by
    refine hcount.trans ?_
    change (s.cluster.governed web).length + min (3 - (s.cluster.governed web).length) (2 * 2) -
      min ((s.cluster.governed web).length - 3) (2 * 2) = 3
    rw [hnone]
    rfl
  exact ⟨reachable, calm, orderly, hnames, hweb, hthree, hquiet 2 (Nat.le_refl 2) hthree⟩

end Controller

end ReplicaController
