import ReplicaController.Pass.Run
import ReplicaController.Proofs.Store.Served

/-!
# The stages of a pass

Around its batch a pass makes readings, and writes the status at the end. What each of these calls
keeps, a pass keeps from its batch on, and up to its batch, which it need not reach. The batch runs
some number of steps, and all of them if nothing breaks it off.
-/

namespace ReplicaController

namespace Cluster

/-- The clusters differ in the status and version of the workload under `key` at most. -/
structure SameBut (key : Key) (c c' : Cluster) : Prop where
  instances : c'.instances = c.instances
  agrees : c.Agrees c'
  others : ∀ l, l ≠ key → c'.workload? l = c.workload? l

namespace SameBut

variable {key : Key} {c c' : Cluster}

theorem refl (key : Key) (c : Cluster) : SameBut key c c := ⟨rfl, .refl c, fun _ _ => rfl⟩

theorem trans {c'' : Cluster} (h : SameBut key c c') (h' : SameBut key c' c'') :
    SameBut key c c'' :=
  ⟨h'.instances.trans h.instances, h.agrees.trans h'.agrees,
    fun l hl => (h'.others l hl).trans (h.others l hl)⟩

theorem sound (h : SameBut key c c') (sound : c.Sound) : c'.Sound := by
  refine ⟨h.instances.symm ▸ sound.nodup, ?_⟩
  intro l w' hw'
  obtain ⟨w, hw, hagrees⟩ := h.agrees.exists_of_some_right hw'
  rw [hagrees.key]
  exact sound.keyed l w hw

end SameBut

end Cluster

namespace Pass

variable {σ : Type} {B : Backend σ} {view : σ → Cluster} {calm : σ → Prop} {config : PassConfig}
  {cond : Conditions} {key : Key} {w : Workload} {s : σ}

/-- The calls of a pass outside its batch keep the property, if the pass is over `key`. -/
structure Keeps (B : Backend σ) (key : Key) (P : σ → Prop) : Prop where
  getWorkload : ∀ k s, P s → P (B.getWorkload k s).2
  listInstances : ∀ ns selector s, P s → P (B.listInstances ns selector s).2
  updateStatus : ∀ w s, w.key = key → P s → P (B.updateStatus w s).2
  now : ∀ s, P s → P (B.now s).2

theorem keeps_true (B : Backend σ) (key : Key) : Keeps B key fun _ => True :=
  ⟨fun _ _ h => h, fun _ _ _ h => h, fun _ _ _ h => h, fun _ h => h⟩

theorem keeps_calm (grants : B.Grants view calm) (key : Key) : Keeps B key calm :=
  ⟨grants.calm_getWorkload, grants.calm_listInstances,
    fun w s _ h => grants.calm_updateStatus w s h, grants.calm_now⟩

theorem keeps_sameBut (serves : B.Serves view) (key : Key) (c : Cluster) :
    Keeps B key fun s => c.SameBut key (view s) where
  getWorkload k s h := by rw [(serves.getWorkload k s).1]; exact h
  listInstances ns selector s h := by rw [(serves.listInstances ns selector s).1]; exact h
  updateStatus w s hkey h := by
    rcases serves.updateStatus w s with ⟨e, -, hv⟩ | ⟨stored, hs, -, -, hv⟩
    · rw [hv]
      exact h
    · rw [hv]
      have hagrees := stored.agrees_withStatus w.status
      exact h.trans ⟨rfl, .of_insert hs hagrees,
        fun l hl => SortedMap.find?_insert_of_ne _ _ (hkey ▸ hl)⟩
  now s h := by rw [serves.now]; exact h

theorem commit_snd (B : Backend σ) (w : Workload) (counts : Counts) (s : σ) :
    (commit B w counts s).2 =
      if counts.needsCommit w.status w.generation then
        (B.updateStatus { w with status := counts.toStatus w.generation } s).2
      else s := by
  unfold commit
  split
  · split
    · rename_i h
      rw [h]
    · rename_i h
      rw [h]
  · rfl

/-- The end of a pass, given how its commit is answered. -/
def Ending.ofCommit (key : Key) (w : Workload) (d : Adjustment) (error : Option ReplicaError)
    (events : List Event) (counts : Counts) : Answer Commit → Ending
  | .error e => ⟨.error (.commit key e), events, []⟩
  | .ok written => ⟨.ok (.reconciled {
      adjustment := d
      skippedReplicaManagement := w.isBeingDeleted
      replicaError := error
      status := written.workload.status
      statusWritten := written.wasWritten
      convergence := .evaluate w.spec.replicas counts error.isSome }), events, []⟩

theorem conclude_eq (B : Backend σ) (key : Key) (w : Workload) (selector : Selector)
    (d : Adjustment) (active : List Instance) (error : Option ReplicaError)
    (events : List Event) (s : σ) :
    let o := observe B w selector d active s
    let counts := Counts.ofActive o.1 w.spec.minReadySeconds (B.now o.2).1
    conclude B key w selector d active error events s =
      ((commit B w counts (B.now o.2).2).map (.ofCommit key w d error events counts) id) := by
  unfold conclude
  dsimp only
  generalize commit B w _ _ = r
  obtain ⟨answer, s₁⟩ := r
  cases answer <;> rfl

theorem conclude_snd (B : Backend σ) (key : Key) (w : Workload) (selector : Selector)
    (adjustment : Adjustment) (active : List Instance) (error : Option ReplicaError)
    (events : List Event) (s : σ) : ∃ counts,
    (conclude B key w selector adjustment active error events s).2 =
      (commit B w counts (B.now (observe B w selector adjustment active s).2).2).2 :=
  ⟨_, congrArg Prod.snd (conclude_eq B key w selector adjustment active error events s)⟩

theorem conclude_fst (B : Backend σ) (key : Key) (w : Workload) (selector : Selector)
    (adjustment : Adjustment) (active : List Instance) (error : Option ReplicaError)
    (events : List Event) (s : σ) :
    (conclude B key w selector adjustment active error events s).1.events = events ∧
      ∀ k, (conclude B key w selector adjustment active error events s).1.result ≠
        .error (.cancelled k) := by
  rw [conclude_eq]
  dsimp only [Prod.map_fst]
  generalize (commit B w _ _).1 = answer
  cases answer with
  | error e => exact ⟨rfl, fun k hk => nomatch hk⟩
  | ok written => exact ⟨rfl, fun k hk => nomatch hk⟩

theorem observe_keeps {P : σ → Prop} (keeps : Keeps B key P) (h : P s) (w : Workload)
    (selector : Selector) (adjustment : Adjustment) (active : List Instance) :
    P (observe B w selector adjustment active s).2 := by
  have hlist := keeps.listInstances w.ns selector s h
  unfold observe
  split
  · exact h
  · split
    · rename_i hl
      rw [hl] at hlist
      exact hlist
    · rename_i hl
      rw [hl] at hlist
      exact hlist

theorem conclude_keeps {P : σ → Prop} (keeps : Keeps B w.key P) (h : P s) {key : Key}
    {selector : Selector} {adjustment : Adjustment} {active : List Instance}
    {error : Option ReplicaError} {events : List Event} :
    P (conclude B key w selector adjustment active error events s).2 := by
  obtain ⟨counts, hstate⟩ := conclude_snd B key w selector adjustment active error events s
  have hready := keeps.now _ (observe_keeps keeps h w selector adjustment active)
  rw [hstate, commit_snd]
  split
  · exact keeps.updateStatus _ _ rfl hready
  · exact hready

/-- A pass over a stored workload ends with its first readings, or it acts on what it listed. -/
theorem run_cases (serves : B.Serves view) (config : PassConfig) (cond : Conditions)
    (hw : (view s).workload? key = some w) {P : σ → Prop} (keeps : Keeps B w.key P) (h : P s) :
    ∃ s', P s' ∧ view s' = view s ∧ ((run B config cond key s).2 = s' ∨
      ∃ selector, w.spec.selector.parse = .ok selector ∧ run B config cond key s =
        act B config cond key w selector ((view s).list w.ns selector) s') := by
  obtain ⟨hget, hfound⟩ := serves.getWorkload key s
  have hP := keeps.getWorkload key s h
  unfold run
  generalize B.getWorkload key s = r at hget hfound hP
  obtain ⟨answer, s₁⟩ := r
  dsimp only at hget hfound hP
  cases answer with
  | error e =>
    refine ⟨s₁, hP, hget, .inl ?_⟩
    dsimp only
    split <;> rfl
  | ok w' =>
    have hsome := hfound w' rfl
    rw [hw, Option.some.injEq] at hsome
    subst hsome
    dsimp only
    cases hparse : w.spec.selector.parse with
    | error e => exact ⟨s₁, hP, hget, .inl rfl⟩
    | ok selector =>
      obtain ⟨hlist, hlisted⟩ := serves.listInstances w.ns selector s₁
      have hP' := keeps.listInstances w.ns selector s₁ hP
      dsimp only
      generalize B.listInstances w.ns selector s₁ = r at hlist hlisted hP'
      obtain ⟨answer, s₂⟩ := r
      cases answer with
      | error e => exact ⟨s₂, hP', hlist.trans hget, .inl rfl⟩
      | ok listed =>
        refine ⟨s₂, hP', hlist.trans hget, .inr ⟨selector, rfl, ?_⟩⟩
        rw [← hget, ← hlisted listed rfl]

theorem run_of_absent (serves : B.Serves view) (hw : (view s).workload? key = none) :
    view (run B config cond key s).2 = view s := by
  obtain ⟨hget, hfound⟩ := serves.getWorkload key s
  unfold run
  generalize B.getWorkload key s = r at hget hfound
  obtain ⟨answer, s₁⟩ := r
  cases answer with
  | error e =>
    dsimp only
    split <;> exact hget
  | ok w =>
    have hsome := hfound w rfl
    rw [hw] at hsome
    contradiction

theorem run_keeps (serves : B.Serves view) (hw : (view s).workload? key = some w)
    (hnothing : adjustmentOf config w ((view s).governed w) = .nothing) {P : σ → Prop}
    (keeps : Keeps B w.key P) (h : P s) : P (run B config cond key s).2 := by
  obtain ⟨s', hP, -, hrun | ⟨selector, hparse, hrun⟩⟩ := run_cases serves config cond hw keeps h
  · exact hrun ▸ hP
  · rw [hrun]
    unfold act
    rw [Cluster.activeOwned_list _ hparse]
    dsimp only
    rw [hnothing]
    exact conclude_keeps keeps hP

theorem exists_runBatch (B : Backend σ) (cond : Conditions) (kind : Batch.Kind)
    (ops : List Batch.Operation) (s : σ) :
    ∃ n, (runBatch B cond kind ops s).2 = (Batch.run B cond.plan n (.start ops) s).2 := by
  unfold runBatch
  dsimp only
  split
  · exact ⟨_, rfl⟩
  · rename_i halt _
    refine ⟨min halt.steps (Batch.Progress.start ops).work, ?_⟩
    split <;> rfl

theorem runBatch_of_halt_none (hhalt : cond.halt = none) (kind : Batch.Kind)
    (ops : List Batch.Operation) (s : σ) :
    ∃ error, runBatch B cond kind ops s =
      (.applied error (Batch.finish B cond.plan (.start ops) s).1.events,
        (Batch.finish B cond.plan (.start ops) s).2) := by
  unfold runBatch
  rw [hhalt]
  exact ⟨_, rfl⟩

theorem exists_manage_applied (B : Backend σ) (config : PassConfig) (hhalt : cond.halt = none)
    (w : Workload) (active : List Instance) (d : Adjustment) (s : σ) :
    ∃ error events s', manage B config cond w active d s = (.applied error events, s') := by
  unfold manage
  split
  · exact ⟨_, _, _, rfl⟩
  · split
    · exact ⟨_, _, _, rfl⟩
    · obtain ⟨error, h⟩ := runBatch_of_halt_none (B := B) hhalt .create _ s
      exact ⟨_, _, _, h⟩
  · obtain ⟨error, h⟩ := runBatch_of_halt_none (B := B) hhalt .delete _ s
    exact ⟨_, _, _, h⟩

theorem act_ne_cancelled (B : Backend σ) (config : PassConfig) (hhalt : cond.halt = none)
    (key : Key) (w : Workload) (selector : Selector) (listed : List Instance) (s : σ) (k : Key) :
    (act B config cond key w selector listed s).1.result ≠ .error (.cancelled k) := by
  let active := Instance.activeOwned w.uid listed
  let d := adjustmentOf config w active
  obtain ⟨error, events, s', h⟩ := exists_manage_applied B config hhalt w active d s
  unfold act
  dsimp only
  rw [h]
  exact (conclude_fst B key w selector d active error events s').2 k

theorem run_ne_cancelled (B : Backend σ) (config : PassConfig) (hhalt : cond.halt = none)
    (key : Key) (s : σ) (k : Key) :
    (run B config cond key s).1.result ≠ .error (.cancelled k) := by
  unfold run
  split
  · split <;> exact fun h => nomatch h
  · split
    · exact fun h => nomatch h
    · split
      · exact fun h => nomatch h
      · exact act_ne_cancelled B config hhalt key _ _ _ _ k

end Pass

end ReplicaController
